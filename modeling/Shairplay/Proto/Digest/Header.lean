import Shairplay.Proto.Digest

/-!
# What an authorization header says

The parameters of a header are described without reference to how they are scanned: the
text is cut at the commas outside double quotes, and a parameter gives a value to a name
when it is the name, an equals sign and the value in double quotes, with whitespace
anywhere around them. The functions of the scanner compute these relations.
-/

namespace Shairplay.Proto.Digest

open Lib Str

/-- Whether a double quote is open after the text. -/
def quoteAfter (inQuotes : Bool) (s : List Char) : Bool :=
  s.foldl (fun q c => if c = '"' then !q else q) inQuotes

/-- Every comma of the text is inside double quotes. -/
def CommaFree : Bool → List Char → Prop
  | _, [] => True
  | inQuotes, c :: s =>
    (c = ',' → inQuotes = true) ∧ CommaFree (if c = '"' then !inQuotes else inQuotes) s

/-- The text is cut at exactly the commas outside double quotes: no part has such a comma,
and no quote is open at a cut. -/
inductive Split : List Char → List (List Char) → Prop
  | last {part : List Char} : CommaFree false part → Split part [part]
  | cut {part rest : List Char} {parts : List (List Char)} : CommaFree false part →
      quoteAfter false part = false → Split rest parts → Split (part ++ ',' :: rest) (part :: parts)

theorem commaFree_append {inQuotes : Bool} {s t : List Char} :
    CommaFree inQuotes (s ++ t) ↔ CommaFree inQuotes s ∧ CommaFree (quoteAfter inQuotes s) t := by
  induction s generalizing inQuotes with
  | nil => simp [CommaFree, quoteAfter]
  | cons c s ih =>
    simp only [List.cons_append, CommaFree, ih, quoteAfter, List.foldl_cons, and_assoc]

/-- The scanner takes in text without a separating comma as a whole. -/
theorem splitLoop_append {inQuotes : Bool} {s : List Char} (free : CommaFree inQuotes s)
    (part rest : List Char) :
    splitLoop inQuotes part (s ++ rest) = splitLoop (quoteAfter inQuotes s) (part ++ s) rest := by
  induction s generalizing inQuotes part with
  | nil => simp [quoteAfter]
  | cons c s ih =>
    obtain ⟨here, later⟩ := free
    rw [List.cons_append, splitLoop]
    by_cases quote : c = '"'
    · rw [if_pos quote]
      rw [if_pos quote] at later
      rw [ih later, List.append_assoc, quoteAfter, quoteAfter, List.foldl_cons, if_pos quote]
      rfl
    · rw [if_neg quote, if_neg (fun sep => absurd (here sep.1) (by simp [sep.2]))]
      rw [if_neg quote] at later
      rw [ih later, List.append_assoc, quoteAfter, quoteAfter, List.foldl_cons, if_neg quote]
      rfl

theorem Split.splitQuotedCsv {input : List Char} {parts : List (List Char)}
    (split : Split input parts) : splitQuotedCsv input = parts := by
  induction split with
  | @last part free =>
    have scanned := splitLoop_append free [] []
    rw [List.append_nil, List.nil_append] at scanned
    rw [Digest.splitQuotedCsv, scanned, splitLoop]
  | @cut part rest parts free closed _ ih =>
    rw [Digest.splitQuotedCsv, splitLoop_append free, closed, List.nil_append, splitLoop,
      if_neg (by decide), if_pos ⟨rfl, rfl⟩]
    exact congrArg (part :: ·) ih

/-- Whatever the scanner has read so far, what it returns is a split of the whole. -/
theorem split_splitLoop {part : List Char} (free : CommaFree false part) (rest : List Char) :
    Split (part ++ rest) (splitLoop (quoteAfter false part) part rest) := by
  induction rest generalizing part with
  | nil =>
    rw [List.append_nil, splitLoop]
    exact .last free
  | cons c rest ih =>
    have joined : part ++ c :: rest = (part ++ [c]) ++ rest := by simp
    have after : quoteAfter false (part ++ [c]) =
        if c = '"' then !quoteAfter false part else quoteAfter false part := by
      simp [quoteAfter, List.foldl_append]
    rw [splitLoop]
    by_cases quote : c = '"'
    · rw [if_pos quote]
      rw [if_pos quote] at after
      rw [joined, ← after]
      exact ih (commaFree_append.mpr ⟨free, by simp [CommaFree, quote]⟩)
    · rw [if_neg quote]
      rw [if_neg quote] at after
      by_cases sep : c = ',' ∧ quoteAfter false part = false
      · rw [if_pos sep, sep.1, sep.2]
        exact .cut free sep.2 (@ih [] trivial)
      · rw [if_neg sep, joined, ← after]
        refine ih (commaFree_append.mpr ⟨free, ?_, trivial⟩)
        intro comma
        by_contra outside
        exact sep ⟨comma, by simpa using outside⟩

theorem split_iff {input : List Char} {parts : List (List Char)} :
    Split input parts ↔ splitQuotedCsv input = parts := by
  constructor
  · exact Split.splitQuotedCsv
  · rintro rfl
    exact @split_splitLoop [] trivial input

/-- The names that count are words of lower-case letters. -/
structure IsName (key : List Char) : Prop where
  nonempty : key ≠ []
  letters : ∀ c ∈ key, 97 ≤ c.toNat ∧ c.toNat ≤ 122

-- decided over the list: a quantifier over all characters could be decided by enumeration
instance (key : List Char) : Decidable (IsName key) :=
  decidable_of_iff (key ≠ [] ∧ key.all (fun c => 97 ≤ c.toNat && c.toNat ≤ 122) = true)
    ⟨fun h => ⟨h.1, by simpa using h.2⟩, fun h => ⟨h.nonempty, by simpa using h.letters⟩⟩

/-- The parameter gives the value to the name. -/
def Quoted (key part value : List Char) : Prop :=
  ∃ front name gap gap' back, Blank front ∧ Blank gap ∧ Blank gap' ∧ Blank back ∧
    eqIgnoreAsciiCase name key = true ∧
    part = front ++ (name ++ gap ++ '=' :: (gap' ++ ('"' :: (value ++ ['"'])))) ++ back

/-- A letter in either case is neither whitespace nor one of the signs of a header. -/
theorem letter_solid {c : Char} (letter : 97 ≤ c.toLower.toNat ∧ c.toLower.toNat ≤ 122) :
    isWhitespace c = false ∧ c ≠ '=' ∧ c ≠ '"' ∧ c ≠ ',' := by
  have range : 65 ≤ c.toNat ∧ c.toNat ≤ 122 := by
    by_cases upper : c.val ≥ 'A'.val ∧ c.val ≤ 'Z'.val
    · have low : 65 ≤ c.val.toNat := UInt32.le_iff_toNat_le.mp upper.1
      have high : c.val.toNat ≤ 90 := UInt32.le_iff_toNat_le.mp upper.2
      exact ⟨low, Nat.le_trans high (by decide)⟩
    · have same : c.toLower = c := dif_neg upper
      rw [same] at letter
      exact ⟨Nat.le_trans (by decide) letter.1, letter.2⟩
  refine ⟨?_, ?_, ?_, ?_⟩
  · simp only [isWhitespace, Bool.or_eq_false_iff, Bool.and_eq_false_iff, decide_eq_false_iff_not,
      beq_eq_false_iff_ne]
    omega
  all_goals
    rintro rfl
    exact absurd range.1 (by decide)

theorem IsName.spelling {key name : List Char} (isName : IsName key)
    (same : eqIgnoreAsciiCase name key = true) :
    name ≠ [] ∧ ∀ c ∈ name, isWhitespace c = false ∧ c ≠ '=' ∧ c ≠ '"' ∧ c ≠ ',' := by
  have lower (c : Char) (low : 97 ≤ c.toNat) : c.toLower = c := by
    refine dif_neg ?_
    rintro ⟨_, upper⟩
    have high : c.toNat ≤ 90 := UInt32.le_iff_toNat_le.mp upper
    exact absurd (Nat.le_trans low high) (by decide)
  have maps : name.map Char.toLower = key.map Char.toLower := by
    simpa [eqIgnoreAsciiCase] using same
  refine ⟨?_, ?_⟩
  · rintro rfl
    exact isName.nonempty (by simpa using maps.symm)
  · intro c mem
    have image : c.toLower ∈ key.map Char.toLower := maps ▸ List.mem_map_of_mem mem
    obtain ⟨d, inKey, eq⟩ := List.mem_map.mp image
    obtain ⟨low, high⟩ := isName.letters d inKey
    apply letter_solid
    rw [← eq, lower d low]
    exact ⟨low, high⟩

/-- The scanner reads exactly the values that a parameter gives. -/
theorem extractQuoted_trim_iff {key part value : List Char} (isName : IsName key) :
    extractQuoted (trim part) key = some value ↔ Quoted key part value := by
  constructor
  · intro read
    obtain ⟨front, back, blankFront, blankBack, whole⟩ := trim_spec part
    unfold extractQuoted at read
    split at read
    · cases read
    · rename_i lhs rhs cut
      obtain ⟨c, equals, _, joined⟩ := splitOnce_eq_some.mp cut
      split at read
      · cases read
      · rename_i named
        dsimp only at read
        split at read
        · cases read
        · rename_i quotes
          simp only [Bool.or_eq_true, decide_eq_true_eq, Bool.not_eq_true', not_or, Nat.not_lt,
            Bool.not_eq_false, beq_iff_eq] at quotes
          obtain ⟨⟨long, first⟩, last⟩ := quotes
          obtain ⟨pre, gap, blankPre, blankGap, left⟩ := trim_spec lhs
          obtain ⟨gap', post, blankGap', blankPost, right⟩ := trim_spec rhs
          obtain ⟨tail, opened⟩ := List.head?_eq_some_iff.mp first
          -- one quote alone is too short, so the closing quote is another one
          have more : tail ≠ [] := by
            rintro rfl
            rw [opened] at long
            exact absurd long (by decide)
          have closed : tail = tail.dropLast ++ ['"'] := by
            rw [opened, List.getLast?_cons, List.getLast?_eq_getLast_of_ne_nil more] at last
            conv_lhs => rw [← List.dropLast_append_getLast more]
            simpa using last
          rw [opened, List.tail_cons] at read
          cases read
          refine ⟨front ++ pre, trim lhs, gap, gap', post ++ back, ?_, blankGap, blankGap', ?_,
            by simpa using named, ?_⟩
          · exact fun d mem => (List.mem_append.mp mem).elim (blankFront d) (blankPre d)
          · exact fun d mem => (List.mem_append.mp mem).elim (blankPost d) (blankBack d)
          · have sign : c = '=' := by simpa using equals
            conv_lhs => rw [whole, joined, left, right, opened, closed, sign]
            simp
  · rintro ⟨front, name, gap, gap', back, blankFront, blankGap, blankGap', blankBack, same, rfl⟩
    obtain ⟨nonempty, solid⟩ := isName.spelling same
    obtain ⟨c, name', rfl⟩ := List.exists_cons_of_ne_nil nonempty
    have quote : ∀ d ∈ some '"', isWhitespace d = false := by
      rintro d ⟨⟩
      decide
    have closing : ('"' :: (value ++ ['"'])).getLast? = some '"' := by
      rw [← List.cons_append, List.getLast?_concat]
    have ending : ((c :: name') ++ gap ++ '=' :: (gap' ++ ('"' :: (value ++ ['"'])))).getLast? =
        some '"' := by
      have shape : (c :: name') ++ gap ++ '=' :: (gap' ++ ('"' :: (value ++ ['"']))) =
          ((c :: name') ++ gap ++ '=' :: (gap' ++ '"' :: value)) ++ ['"'] := by simp
      rw [shape, List.getLast?_concat]
    have trimmed := @trim_of_blank front
      ((c :: name') ++ gap ++ '=' :: (gap' ++ ('"' :: (value ++ ['"'])))) back blankFront blankBack
      (by simpa using (solid c (by simp)).1) (by rw [ending]; exact quote)
    have clear : ∀ d ∈ (c :: name') ++ gap, (d == '=') = false := by
      intro d mem
      rcases List.mem_append.mp mem with inName | inGap
      · simpa using (solid d inName).2.1
      · have white := blankGap d inGap
        simp only [beq_eq_false_iff_ne]
        rintro rfl
        exact absurd white (by decide)
    have cut : splitOnce (· == '=')
        ((c :: name') ++ gap ++ '=' :: (gap' ++ ('"' :: (value ++ ['"'])))) =
        some ((c :: name') ++ gap, gap' ++ ('"' :: (value ++ ['"']))) :=
      splitOnce_eq_some.mpr ⟨'=', rfl, clear, rfl⟩
    have left : trim ((c :: name') ++ gap) = c :: name' := by
      refine @trim_of_blank [] (c :: name') gap (by simp [Blank]) blankGap
        (by simpa using (solid c (by simp)).1) ?_
      intro d mem
      exact (solid d (List.mem_of_getLast? mem)).1
    have right : trim (gap' ++ ('"' :: (value ++ ['"']))) = '"' :: (value ++ ['"']) := by
      have padded := @trim_of_blank gap' ('"' :: (value ++ ['"'])) [] blankGap' (by simp [Blank])
        (by rw [List.head?_cons]; exact quote) (by rw [closing]; exact quote)
      rwa [List.append_nil] at padded
    have long : ¬ byteLen ('"' :: (value ++ ['"'])) < 2 := by
      have one : Char.utf8Size '"' = 1 := by decide
      have more : 1 ≤ byteLen (value ++ ['"']) := by
        induction value with
        | nil => simp [byteLen, one]
        | cons c value _ => exact Nat.le_trans (Char.utf8Size_pos c) (Nat.le_add_right _ _)
      simp only [byteLen, List.foldr_cons, one] at more ⊢
      omega
    rw [trimmed, extractQuoted, cut]
    simp only [left, right, same, Bool.not_true, Bool.false_eq_true, if_false]
    simp [long, closing]

/-- The last value that the parameters give to a name. -/
def LastQuoted (key : List Char) (parts : List (List Char)) (value : List Char) : Prop :=
  ∃ before part after, parts = before ++ part :: after ∧ Quoted key part value ∧
    ∀ later ∈ after, ∀ other, ¬ Quoted key later other

/-- The values read for a name, in order. -/
def valuesOf (key : List Char) (parts : List (List Char)) : List (List Char) :=
  parts.filterMap fun part => extractQuoted (trim part) key

theorem getLast?_valuesOf {key : List Char} (isName : IsName key) {parts : List (List Char)}
    {value : List Char} :
    (valuesOf key parts).getLast? = some value ↔ LastQuoted key parts value := by
  induction parts using List.reverseRecOn with
  | nil => simp [valuesOf, LastQuoted]
  | append_singleton parts part ih =>
    rw [valuesOf, List.filterMap_append]
    cases read : extractQuoted (trim part) key with
    | some val =>
      have here := (extractQuoted_trim_iff isName).mp read
      simp only [List.filterMap_cons, read, List.filterMap_nil, List.getLast?_append,
        List.getLast?_singleton, Option.some_or, Option.some.injEq]
      constructor
      · rintro rfl
        exact ⟨parts, part, [], rfl, here, by simp⟩
      · rintro ⟨before, found, after, eq, quoted, none⟩
        rcases List.eq_nil_or_concat after with rfl | ⟨after', last, rfl⟩
        · obtain ⟨_, same⟩ := List.append_inj' eq rfl
          cases same
          have again := (extractQuoted_trim_iff isName).mpr quoted
          rw [read] at again
          exact Option.some.inj again
        · have split : parts ++ [part] = (before ++ found :: after') ++ [last] := by
            rw [eq]
            simp
          obtain ⟨_, same⟩ := List.append_inj' split rfl
          cases same
          exact absurd here (none part (by simp) val)
    | none =>
      have silent : ∀ other, ¬ Quoted key part other := by
        intro other quoted
        rw [(extractQuoted_trim_iff isName).mpr quoted] at read
        cases read
      simp only [List.filterMap_cons, read, List.filterMap_nil, List.append_nil]
      refine ih.trans ⟨?_, ?_⟩
      · rintro ⟨before, found, after, rfl, quoted, none⟩
        refine ⟨before, found, after ++ [part], by simp, quoted, ?_⟩
        intro later mem
        rcases List.mem_append.mp mem with mem | mem
        · exact none later mem
        · rw [List.mem_singleton.mp mem]
          exact silent
      · rintro ⟨before, found, after, eq, quoted, none⟩
        rcases List.eq_nil_or_concat after with rfl | ⟨after', last, rfl⟩
        · obtain ⟨_, same⟩ := List.append_inj' eq rfl
          cases same
          exact absurd quoted (silent value)
        · have split : parts ++ [part] = (before ++ found :: after') ++ [last] := by
            rw [eq]
            simp
          obtain ⟨rfl, _⟩ := List.append_inj' split rfl
          exact ⟨before, found, after', rfl, quoted, fun later mem =>
            none later (by simp [mem])⟩

/-- The parameters that count. -/
inductive Field
  | username
  | realm
  | nonce
  | uri
  | response
  deriving DecidableEq

def Field.key : Field → List Char
  | .username => "username".toList
  | .realm => "realm".toList
  | .nonce => "nonce".toList
  | .uri => "uri".toList
  | .response => "response".toList

theorem Field.isName (f : Field) : IsName f.key := by
  cases f <;> decide

/-- What has been read for a parameter. -/
def Params.get (params : Params) : Field → Option (List Char)
  | .username => params.username
  | .realm => params.realm
  | .nonce => params.nonce
  | .uri => params.uri
  | .response => params.response

def Params.set (params : Params) (f : Field) (value : List Char) : Params :=
  match f with
  | .username => { params with username := some value }
  | .realm => { params with realm := some value }
  | .nonce => { params with nonce := some value }
  | .uri => { params with uri := some value }
  | .response => { params with response := some value }

theorem Params.get_set (params : Params) (f g : Field) (value : List Char) :
    (params.set g value).get f = if f = g then some value else params.get f := by
  cases f <;> cases g <;> rfl

/-- The choice among the names, given what is read under each. -/
def Params.pick (params : Params) (read : Field → Option (List Char)) : Params :=
  match read .username with
  | some val => params.set .username val
  | none =>
  match read .realm with
  | some val => params.set .realm val
  | none =>
  match read .nonce with
  | some val => params.set .nonce val
  | none =>
  match read .uri with
  | some val => params.set .uri val
  | none =>
  match read .response with
  | some val => params.set .response val
  | none => params

theorem Params.take_eq_pick (params : Params) (part : List Char) :
    params.take part = params.pick fun f => extractQuoted (trim part) f.key := rfl

/-- If at most one name is read, the choice changes that parameter and nothing else. -/
theorem Params.get_pick {read : Field → Option (List Char)}
    (exclusive : ∀ f g value, f ≠ g → read f = some value → read g = none)
    (params : Params) (f : Field) : (params.pick read).get f = (read f).or (params.get f) := by
  have chosen (g : Field) (value : List Char) (here : read g = some value) :
      (params.set g value).get f = (read f).or (params.get f) := by
    rw [Params.get_set]
    by_cases same : f = g
    · rw [if_pos same, same, here, Option.some_or]
    · rw [if_neg same, exclusive g f value (Ne.symm same) here, Option.none_or]
  cases u : read .username with
  | some value => simpa only [Params.pick, u] using chosen .username value u
  | none =>
  cases r : read .realm with
  | some value => simpa only [Params.pick, u, r] using chosen .realm value r
  | none =>
  cases n : read .nonce with
  | some value => simpa only [Params.pick, u, r, n] using chosen .nonce value n
  | none =>
  cases i : read .uri with
  | some value => simpa only [Params.pick, u, r, n, i] using chosen .uri value i
  | none =>
  cases p : read .response with
  | some value => simpa only [Params.pick, u, r, n, i, p] using chosen .response value p
  | none =>
    have silent : read f = none := by cases f <;> assumption
    simp only [Params.pick, u, r, n, i, p, silent, Option.none_or]

/-- Different parameters have different names, whatever the case of their letters. -/
theorem Field.lower_key_inj {f g : Field} (different : f ≠ g) :
    f.key.map Char.toLower ≠ g.key.map Char.toLower := by
  revert different
  cases f <;> cases g <;> decide

/-- A part is read under one name only. -/
theorem extractQuoted_exclusive {part value : List Char} {f g : Field} (different : f ≠ g)
    (read : extractQuoted part f.key = some value) : extractQuoted part g.key = none := by
  cases cut : splitOnce (· == '=') part with
  | none => simp only [extractQuoted, cut]
  | some sides =>
    simp only [extractQuoted, cut] at read ⊢
    by_cases named : eqIgnoreAsciiCase (trim sides.1) f.key = true
    · have spelled : (trim sides.1).map Char.toLower = f.key.map Char.toLower := by
        simpa only [eqIgnoreAsciiCase, beq_iff_eq] using named
      have other : eqIgnoreAsciiCase (trim sides.1) g.key = false := by
        rw [eqIgnoreAsciiCase, spelled]
        exact beq_eq_false_iff_ne.mpr (Field.lower_key_inj different)
      rw [other]
      rfl
    · rw [Bool.not_eq_true] at named
      rw [named] at read
      cases read

/-- Taking in a part changes the parameter it is read under, and nothing else. -/
theorem Params.get_take (params : Params) (part : List Char) (f : Field) :
    (params.take part).get f = (extractQuoted (trim part) f.key).or (params.get f) := by
  rw [Params.take_eq_pick]
  exact Params.get_pick (fun _ _ _ different read => extractQuoted_exclusive different read)
    params f

/-- The loop ends with the last value of each parameter. -/
theorem Params.get_foldl_take (params : Params) (parts : List (List Char)) (f : Field) :
    (parts.foldl Params.take params).get f = (valuesOf f.key parts).getLast?.or (params.get f) := by
  induction parts using List.reverseRecOn with
  | nil => simp [valuesOf]
  | append_singleton parts part ih =>
    rw [List.foldl_append, List.foldl_cons, List.foldl_nil, Params.get_take, ih, valuesOf,
      valuesOf, List.filterMap_append, List.getLast?_append]
    cases read : extractQuoted (trim part) f.key <;> simp [read]

theorem get_foldl_eq_some {parts : List (List Char)} {f : Field} {value : List Char} :
    (parts.foldl Params.take {}).get f = some value ↔ LastQuoted f.key parts value := by
  have empty : ({} : Params).get f = none := by cases f <;> rfl
  rw [Params.get_foldl_take, empty, Option.or_none]
  exact getLast?_valuesOf f.isName

/-- What the final comparison accepts. -/
theorem Params.accepted_iff {md5 : Md5} {realm password nonce method uri : List Char}
    {params : Params} :
    params.accepted md5 realm password nonce method uri = true ↔
      ∃ username, params.get .username = some username ∧ params.get .realm = some realm ∧
        params.get .nonce = some nonce ∧ params.get .uri = some uri ∧
        params.get .response = some (getResponse md5 username realm password nonce method uri) := by
  have bytes (s t : List Char) : asBytes s = asBytes t ↔ s = t :=
    ⟨fun same => by simpa using congrArg String.toList (Utf8.encode_inj same),
      fun same => by rw [same]⟩
  obtain ⟨u, r, n, i, p⟩ := params
  cases u <;> cases r <;> cases n <;> cases i <;> cases p <;>
    simp [Params.accepted, Params.get, bytes, and_assoc]

theorem Blank.commaFree {s : List Char} (blank : Blank s) (inQuotes : Bool) :
    CommaFree inQuotes s ∧ quoteAfter inQuotes s = inQuotes := by
  induction s with
  | nil => exact ⟨trivial, rfl⟩
  | cons c s ih =>
    have white := blank c (by simp)
    have notQuote : c ≠ '"' := by
      rintro rfl
      exact absurd white (by decide)
    have notComma : c ≠ ',' := by
      rintro rfl
      exact absurd white (by decide)
    obtain ⟨free, after⟩ := ih fun d mem => blank d (List.mem_cons_of_mem _ mem)
    refine ⟨⟨fun comma => absurd comma notComma, by rwa [if_neg notQuote]⟩, ?_⟩
    rw [quoteAfter, List.foldl_cons, if_neg notQuote]
    exact after

theorem splitLoop_front (front : List Char) (inQuotes : Bool) (part rest : List Char) :
    splitLoop inQuotes (front ++ part) rest =
      (splitLoop inQuotes part rest).modifyHead (front ++ ·) := by
  induction rest generalizing inQuotes part with
  | nil => rfl
  | cons c rest ih =>
    rw [splitLoop, splitLoop]
    split
    · rw [List.append_assoc]
      exact ih _ _
    · split
      · rfl
      · rw [List.append_assoc]
        exact ih _ _

/-- Whitespace before the parameters belongs to the first of them. -/
theorem map_trim_blank_append {front : List Char} (blank : Blank front) (s : List Char) :
    (splitQuotedCsv (front ++ s)).map trim = (splitQuotedCsv s).map trim := by
  obtain ⟨free, after⟩ := Blank.commaFree blank false
  have scanned := splitLoop_front front false [] s
  rw [List.append_nil] at scanned
  rw [splitQuotedCsv, splitLoop_append free, after, List.nil_append, scanned, splitQuotedCsv]
  cases splitLoop false [] s with
  | nil => rfl
  | cons part parts => simp [trim_blank_append blank]

/-- Whitespace behind the parameters belongs to the last of them. -/
theorem map_trim_append_blank {back : List Char} (s : List Char) (blank : Blank back) :
    (splitQuotedCsv (s ++ back)).map trim = (splitQuotedCsv s).map trim := by
  have scan (inQuotes : Bool) (part : List Char) :
      (splitLoop inQuotes part (s ++ back)).map trim = (splitLoop inQuotes part s).map trim := by
    induction s generalizing inQuotes part with
    | nil =>
      obtain ⟨free, _⟩ := Blank.commaFree blank inQuotes
      have whole := splitLoop_append free part []
      rw [List.append_nil] at whole
      rw [List.nil_append, whole, splitLoop, splitLoop, List.map_singleton, List.map_singleton,
        trim_append_blank part blank]
    | cons c s ih =>
      rw [List.cons_append, splitLoop, splitLoop]
      split
      · exact ih _ _
      · split
        · rw [List.map_cons, List.map_cons, ih]
        · exact ih _ _
  exact scan false []

/-- The values depend only on the trimmed parts. -/
theorem lastQuoted_congr {key value : List Char} (isName : IsName key)
    {parts parts' : List (List Char)} (same : parts.map trim = parts'.map trim) :
    LastQuoted key parts value ↔ LastQuoted key parts' value := by
  have values (ps : List (List Char)) :
      valuesOf key ps = (ps.map trim).filterMap fun part => extractQuoted part key := by
    rw [valuesOf, List.filterMap_map]
    rfl
  rw [← getLast?_valuesOf isName, ← getLast?_valuesOf isName, values, values, same]

/-- The parameters prove knowledge of the password: the last values of realm, nonce and
address are the expected ones, and the last response is the one for the last user name. -/
def Proves (md5 : Md5) (realm password nonce method uri : List Char) (parts : List (List Char)) :
    Prop :=
  ∃ username, LastQuoted Field.username.key parts username ∧
    LastQuoted Field.realm.key parts realm ∧ LastQuoted Field.nonce.key parts nonce ∧
    LastQuoted Field.uri.key parts uri ∧
    LastQuoted Field.response.key parts (getResponse md5 username realm password nonce method uri)

/-- A header with scheme `Digest` in any case whose parameters prove the password. -/
def Authorizes (md5 : Md5) (realm password nonce method uri auth : List Char) : Prop :=
  ∃ front scheme sep rest parts, Blank front ∧ (∀ c ∈ scheme, isWhitespace c = false) ∧
    eqIgnoreAsciiCase scheme "Digest".toList = true ∧ isWhitespace sep = true ∧
    auth = front ++ (scheme ++ sep :: rest) ∧ Split rest parts ∧
    Proves md5 realm password nonce method uri parts

section Accept

variable {md5 : Md5} {realm password nonce method uri : List Char}

theorem accepted_foldl_iff {parts : List (List Char)} :
    (parts.foldl Params.take {}).accepted md5 realm password nonce method uri = true ↔
      Proves md5 realm password nonce method uri parts := by
  simp only [Params.accepted_iff, get_foldl_eq_some, Proves]

theorem proves_congr {parts parts' : List (List Char)} (same : parts.map trim = parts'.map trim) :
    Proves md5 realm password nonce method uri parts ↔
      Proves md5 realm password nonce method uri parts' := by
  simp only [Proves, lastQuoted_congr (Field.isName _) same]

/-- Blank text proves nothing. -/
theorem not_proves_nil : ¬ Proves md5 realm password nonce method uri [[]] := by
  rintro ⟨username, last, _⟩
  have read := (getLast?_valuesOf (Field.isName .username)).mpr last
  exact absurd read (by simp [valuesOf, extractQuoted, trim, trimStart, trimEnd, splitOnce])

/-- The check accepts exactly the headers that authorize the request. -/
theorem isValid_iff {auth : List Char} :
    isValid md5 realm password nonce method uri (some auth) = true ↔
      Authorizes md5 realm password nonce method uri auth := by
  constructor
  · intro valid
    obtain ⟨front, back, blankFront, blankBack, whole⟩ := trim_spec auth
    simp only [isValid] at valid
    split at valid
    · cases valid
    · rename_i scheme params cut
      obtain ⟨sep, white, solid, joined⟩ := splitOnce_eq_some.mp cut
      split at valid
      · cases valid
      · rename_i named
        split at valid
        · cases valid
        · obtain ⟨gap, blankGap, spaced⟩ := trimStart_spec params
          have parts : (splitQuotedCsv (trimStart params)).map trim =
              (splitQuotedCsv (params ++ back)).map trim := by
            rw [map_trim_append_blank params blankBack]
            conv_rhs => rw [spaced]
            exact (map_trim_blank_append blankGap _).symm
          refine ⟨front, scheme, sep, params ++ back, _, blankFront, solid, by simpa using named,
            white, ?_, split_iff.mpr rfl,
            (proves_congr parts).mp (accepted_foldl_iff.mp valid)⟩
          conv_lhs => rw [whole, joined]
          simp
  · rintro ⟨front, scheme, sep, rest, parts, blankFront, solid, named, white, rfl, split, proves⟩
    have found := split_iff.mp split
    obtain ⟨back, blankBack, ends⟩ := trimEnd_spec rest
    obtain ⟨gap, blankGap, spaced⟩ := trimStart_spec (trimEnd rest)
    -- the parts of the trimmed parameters are those of the header, up to whitespace
    have same : (splitQuotedCsv (trimStart (trimEnd rest))).map trim = parts.map trim := by
      rw [← found]
      conv_rhs => rw [ends, map_trim_append_blank _ blankBack, spaced]
      exact (map_trim_blank_append blankGap _).symm
    have nonempty : trimStart (trimEnd rest) ≠ [] := by
      intro empty
      rw [empty] at same
      exact not_proves_nil ((proves_congr same).mpr proves)
    have kept : trimEnd rest ≠ [] := by
      intro empty
      exact nonempty (by rw [empty]; rfl)
    have head : ∀ c ∈ (scheme ++ sep :: rest).head?, isWhitespace c = false := by
      cases scheme with
      | nil => exact absurd named (by decide)
      | cons c scheme => simpa using solid c (by simp)
    have trimmed : trim (front ++ (scheme ++ sep :: rest)) = scheme ++ sep :: trimEnd rest := by
      have shape : scheme ++ sep :: rest = (scheme ++ [sep]) ++ rest := by simp
      rw [trim, trimStart_of_blank blankFront head, shape, trimEnd_append kept]
      simp
    have cut : splitOnce isWhitespace (scheme ++ sep :: trimEnd rest) =
        some (scheme, trimEnd rest) := splitOnce_eq_some.mpr ⟨sep, white, solid, rfl⟩
    have accepted := accepted_foldl_iff.mpr ((proves_congr same).mpr proves)
    simp only [isValid, trimmed, cut, named, Bool.not_true, Bool.false_eq_true, if_false,
      List.isEmpty_iff, nonempty, accepted]

end Accept

end Shairplay.Proto.Digest

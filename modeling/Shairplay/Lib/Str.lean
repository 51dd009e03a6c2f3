import Mathlib.Data.List.DropRight

/-!
# Rust string slices as lists of characters

The functions follow the documented behaviour of `str` in the Rust standard
library, on the list of a slice's `char`s. Whitespace is the Unicode property
`White_Space`, while case folding is ASCII only.
-/

namespace Shairplay.Lib.Str

/-- `char::is_whitespace`. -/
def isWhitespace (c : Char) : Bool :=
  let n := c.toNat
  (0x09 ≤ n && n ≤ 0x0d) || n == 0x20 || n == 0x85 || n == 0xa0 || n == 0x1680 ||
    (0x2000 ≤ n && n ≤ 0x200a) || n == 0x2028 || n == 0x2029 || n == 0x202f ||
    n == 0x205f || n == 0x3000

/-- `str::trim_start`. -/
def trimStart (s : List Char) : List Char := s.dropWhile isWhitespace

/-- `str::trim_end`. -/
def trimEnd (s : List Char) : List Char := s.rdropWhile isWhitespace

/-- `str::trim`. -/
def trim (s : List Char) : List Char := trimEnd (trimStart s)

/-- `str::eq_ignore_ascii_case`; `Char.toLower` only moves `A` to `Z`. -/
def eqIgnoreAsciiCase (s t : List Char) : Bool := s.map Char.toLower == t.map Char.toLower

/-- `str::to_ascii_lowercase`. -/
def toAsciiLowercase (s : String) : String := String.ofList (s.toList.map Char.toLower)

/-- `str::split_once` at the first character that satisfies the predicate. -/
def splitOnce (p : Char → Bool) : List Char → Option (List Char × List Char)
  | [] => none
  | c :: rest =>
    if p c then some ([], rest)
    else (splitOnce p rest).map fun (front, back) => (c :: front, back)

/-- `str::split_whitespace`. -/
def splitWhitespace (s : List Char) : List (List Char) :=
  (s.splitOnP isWhitespace).filter (· ≠ [])

/-- `str::len`, which counts UTF-8 bytes. -/
def byteLen (s : List Char) : Nat := s.foldr (fun c n => c.utf8Size + n) 0

/-- `str::parse` for an unsigned integer type with values below `limit`: an optional
plus sign, then at least one ASCII digit, and no overflow. -/
def parseUnsigned (limit : Nat) (s : List Char) : Option Nat :=
  let digits := match s with
    | '+' :: rest => rest
    | _ => s
  if digits = [] ∨ !digits.all Char.isDigit then none
  else
    let n := digits.foldl (fun n c => n * 10 + (c.toNat - '0'.toNat)) 0
    if n < limit then some n else none

theorem parseUnsigned_lt {limit n : Nat} {s : List Char} (h : parseUnsigned limit s = some n) :
    n < limit := by
  simp only [parseUnsigned, Option.ite_none_left_eq_some, Option.ite_none_right_eq_some,
    Option.some.injEq] at h
  obtain ⟨_, small, rfl⟩ := h
  exact small

/-- Only whitespace. -/
def Blank (s : List Char) : Prop := ∀ c ∈ s, isWhitespace c = true

theorem trimStart_spec (s : List Char) : ∃ front, Blank front ∧ s = front ++ trimStart s :=
  ⟨s.takeWhile isWhitespace, fun _ mem => List.mem_takeWhile_imp mem,
    (List.takeWhile_append_dropWhile).symm⟩

theorem trimEnd_spec (s : List Char) : ∃ back, Blank back ∧ s = trimEnd s ++ back := by
  obtain ⟨front, blank, eq⟩ := trimStart_spec s.reverse
  refine ⟨front.reverse, fun c mem => blank c (List.mem_reverse.mp mem), ?_⟩
  have flipped := congrArg List.reverse eq
  rw [List.reverse_reverse, List.reverse_append] at flipped
  exact flipped

/-- Trimming takes whitespace off both ends. -/
theorem trim_spec (s : List Char) :
    ∃ front back, Blank front ∧ Blank back ∧ s = front ++ trim s ++ back := by
  obtain ⟨front, blankFront, first⟩ := trimStart_spec s
  obtain ⟨back, blankBack, second⟩ := trimEnd_spec (trimStart s)
  refine ⟨front, back, blankFront, blankBack, ?_⟩
  rw [List.append_assoc]
  exact first.trans (congrArg (front ++ ·) second)

theorem trimStart_of_blank {front core : List Char} (blank : Blank front)
    (solid : ∀ c ∈ core.head?, isWhitespace c = false) : trimStart (front ++ core) = core := by
  rw [trimStart, List.dropWhile_append_of_pos blank]
  cases core with
  | nil => rfl
  | cons c core => rw [List.dropWhile_cons_of_neg (by simp [solid c rfl])]

theorem trimEnd_of_blank {core back : List Char} (blank : Blank back)
    (solid : ∀ c ∈ core.getLast?, isWhitespace c = false) : trimEnd (core ++ back) = core := by
  have flipped : trimStart (back.reverse ++ core.reverse) = core.reverse :=
    trimStart_of_blank (fun c mem => blank c (List.mem_reverse.mp mem))
      (by simpa only [List.head?_reverse] using solid)
  rw [trimEnd, List.rdropWhile, List.reverse_append]
  exact (congrArg List.reverse flipped).trans (List.reverse_reverse core)

/-- Text without whitespace at its ends is what remains of a padded copy. -/
theorem trim_of_blank {front core back : List Char} (blankFront : Blank front)
    (blankBack : Blank back) (head : ∀ c ∈ core.head?, isWhitespace c = false)
    (last : ∀ c ∈ core.getLast?, isWhitespace c = false) : trim (front ++ core ++ back) = core := by
  cases core with
  | nil =>
    have all : Blank (front ++ back) := fun c mem =>
      (List.mem_append.mp mem).elim (blankFront c) (blankBack c)
    have gone : trimStart (front ++ back) = [] := by
      simpa using @trimStart_of_blank _ [] all (by simp)
    rw [List.append_nil, trim, gone]
    rfl
  | cons c core =>
    rw [trim, List.append_assoc, trimStart_of_blank blankFront (by simpa using head),
      trimEnd_of_blank blankBack last]

theorem trimEnd_last (s : List Char) : ∀ c ∈ (trimEnd s).getLast?, isWhitespace c = false := by
  intro c mem
  have nonempty : trimEnd s ≠ [] := by
    intro empty
    rw [empty] at mem
    cases mem
  have last := List.rdropWhile_last_not isWhitespace s nonempty
  rw [List.getLast?_eq_getLast_of_ne_nil nonempty] at mem
  cases mem
  exact Bool.eq_false_iff.mpr last

theorem trimStart_head (s : List Char) : ∀ c ∈ (trimStart s).head?, isWhitespace c = false := by
  intro c mem
  have head := List.head?_dropWhile_not isWhitespace s
  rw [trimStart] at mem
  rw [Option.mem_def.mp mem] at head
  simpa using head

theorem trim_blank_append {front : List Char} (blank : Blank front) (s : List Char) :
    trim (front ++ s) = trim s := by
  rw [trim, trim, trimStart, List.dropWhile_append_of_pos blank]
  rfl

theorem trim_append_blank {back : List Char} (s : List Char) (blank : Blank back) :
    trim (s ++ back) = trim s := by
  obtain ⟨front, blankFront, first⟩ := trimStart_spec s
  cases core : trimStart s with
  | nil =>
    have all : Blank (s ++ back) := by
      rw [core, List.append_nil] at first
      rw [first]
      exact fun c mem => (List.mem_append.mp mem).elim (blankFront c) (blank c)
    have padded : trimStart (s ++ back) = [] := by
      simpa using @trimStart_of_blank (s ++ back) [] all (by simp)
    rw [trim, trim, padded, core]
  | cons c core' =>
    have head := trimStart_head s
    have kept : trimStart (s ++ back) = trimStart s ++ back := by
      conv_lhs => rw [first, List.append_assoc]
      refine trimStart_of_blank blankFront ?_
      rw [core] at head ⊢
      simpa using head
    obtain ⟨back', blank', ends⟩ := trimEnd_spec (trimStart s)
    have all : Blank (back' ++ back) := fun d mem =>
      (List.mem_append.mp mem).elim (blank' d) (blank d)
    rw [trim, trim, kept]
    conv_lhs => rw [ends, List.append_assoc]
    exact trimEnd_of_blank all (trimEnd_last _)

/-- What stands before text that is not blank is kept. -/
theorem trimEnd_append {s t : List Char} (solid : trimEnd t ≠ []) :
    trimEnd (s ++ t) = s ++ trimEnd t := by
  obtain ⟨back, blank, ends⟩ := trimEnd_spec t
  have last : ∀ c ∈ (s ++ trimEnd t).getLast?, isWhitespace c = false := by
    rw [List.getLast?_append_of_ne_nil _ solid]
    exact trimEnd_last t
  conv_lhs => rw [ends, ← List.append_assoc]
  exact trimEnd_of_blank blank last

theorem splitOnce_eq_some {p : Char → Bool} {s front back : List Char} :
    splitOnce p s = some (front, back) ↔
      ∃ c, p c = true ∧ (∀ d ∈ front, p d = false) ∧ s = front ++ c :: back := by
  induction s generalizing front with
  | nil => simp [splitOnce]
  | cons c s ih =>
    rw [splitOnce]
    by_cases here : p c = true
    · rw [if_pos here]
      constructor
      · rintro ⟨⟩
        exact ⟨c, here, by simp, rfl⟩
      · rintro ⟨d, _, clear, eq⟩
        cases front with
        | nil => cases eq; rfl
        | cons e front =>
          cases eq
          exact absurd here (by simp [clear c (by simp)])
    · rw [if_neg here, Option.map_eq_some_iff]
      constructor
      · rintro ⟨⟨front', back'⟩, rest, eq⟩
        cases eq
        obtain ⟨d, hd, clear, rfl⟩ := ih.mp rest
        refine ⟨d, hd, ?_, rfl⟩
        intro e mem
        rcases List.mem_cons.mp mem with rfl | mem
        · simpa using here
        · exact clear e mem
      · rintro ⟨d, hd, clear, eq⟩
        cases front with
        | nil =>
          cases eq
          exact absurd hd here
        | cons e front =>
          cases eq
          exact ⟨(front, back), ih.mpr
            ⟨d, hd, fun x mem => clear x (List.mem_cons_of_mem _ mem), rfl⟩, rfl⟩

end Shairplay.Lib.Str

import Shairplay.Proto.Digest.Header

/-!
# Headers that clients build

A client writes its five parameters in any order, with whitespace around names and equals
signs, among other parameters of its own. As long as the values have no double quote, the
header is cut where the client joined it and every value is read back.
-/

namespace Shairplay.Proto.Digest

open Lib Str

def joinParts : List (List Char) → List Char
  | [] => []
  | [part] => part
  | part :: parts => part ++ ',' :: joinParts parts

/-- The text has no separating comma and takes the scanner from one state to the other. -/
structure Passes (before : Bool) (s : List Char) (after : Bool) : Prop where
  free : CommaFree before s
  state : quoteAfter before s = after

theorem Passes.append {before middle after : Bool} {s t : List Char}
    (first : Passes before s middle) (second : Passes middle t after) :
    Passes before (s ++ t) after := by
  constructor
  · exact commaFree_append.mpr ⟨first.free, by rw [first.state]; exact second.free⟩
  · rw [quoteAfter, List.foldl_append, ← quoteAfter, ← quoteAfter, first.state]
    exact second.state

/-- Text without quotes and, outside of them, without commas. -/
theorem passes_plain {inQuotes : Bool} {s : List Char} (noQuote : '"' ∉ s)
    (noComma : inQuotes = false → ',' ∉ s) : Passes inQuotes s inQuotes := by
  induction s with
  | nil => exact ⟨trivial, rfl⟩
  | cons c s ih =>
    simp only [List.mem_cons, not_or] at noQuote noComma
    have rest := ih noQuote.2 fun outside => (noComma outside).2
    refine ⟨⟨?_, by rw [if_neg (Ne.symm noQuote.1)]; exact rest.free⟩, ?_⟩
    · intro comma
      by_contra outside
      exact (noComma (by simpa using outside)).1 comma.symm
    · rw [quoteAfter, List.foldl_cons, if_neg (Ne.symm noQuote.1)]
      exact rest.state

theorem passes_blank {s : List Char} (blank : Blank s) (inQuotes : Bool) :
    Passes inQuotes s inQuotes :=
  ⟨(Blank.commaFree blank inQuotes).1, (Blank.commaFree blank inQuotes).2⟩

theorem passes_quote (inQuotes : Bool) : Passes inQuotes ['"'] (!inQuotes) := by
  refine ⟨⟨fun comma => absurd comma (by decide), trivial⟩, rfl⟩

theorem split_joinParts {parts : List (List Char)} (nonempty : parts ≠ [])
    (whole : ∀ part ∈ parts, Passes false part false) : Split (joinParts parts) parts := by
  induction parts with
  | nil => exact absurd rfl nonempty
  | cons part parts ih =>
    have here := whole part (by simp)
    cases parts with
    | nil => exact .last here.free
    | cons next parts =>
      refine .cut here.free here.state (ih (by simp) ?_)
      intro other mem
      exact whole other (List.mem_cons_of_mem _ mem)

/-- A quoted value without a double quote makes a part that stays in one piece. -/
theorem Quoted.passes {key part value : List Char} (isName : IsName key)
    (quoted : Quoted key part value) (noQuote : '"' ∉ value) : Passes false part false := by
  obtain ⟨front, name, gap, gap', back, blankFront, blankGap, blankGap', blankBack, same, rfl⟩ :=
    quoted
  have letters := (isName.spelling same).2
  have named : Passes false name false :=
    passes_plain (fun mem => (letters _ mem).2.2.1 rfl) fun _ mem => (letters _ mem).2.2.2 rfl
  have equals : Passes false ['='] false := passes_plain (by decide) fun _ => by decide
  have inside : Passes true value true := passes_plain noQuote fun outside => nomatch outside
  have quoted : Passes false (['"'] ++ (value ++ ['"'])) false :=
    (passes_quote false).append (inside.append (passes_quote true))
  have right : Passes false (['='] ++ (gap' ++ (['"'] ++ (value ++ ['"'])))) false :=
    equals.append ((passes_blank blankGap' false).append quoted)
  exact ((passes_blank blankFront false).append
    ((named.append (passes_blank blankGap false)).append right)).append
      (passes_blank blankBack false)

/-- A parameter of the client's own: its quotes are balanced, and its name, if it has one, is
none of the five. -/
structure Extra (part : List Char) : Prop where
  passes : Passes false part false
  named : ∀ lhs rhs, part = lhs ++ '=' :: rhs → '=' ∉ lhs → ∀ f : Field,
    eqIgnoreAsciiCase (trim lhs) f.key = false

/-- The parameters are the five values, each once and in any order among others. -/
def Built (values : Field → List Char) (parts : List (List Char)) : Prop :=
  ∃ (own : Field → List Char) (extras : List (List Char)),
    parts.Perm ([own .username, own .realm, own .nonce, own .uri, own .response] ++ extras) ∧
      (∀ f, Quoted f.key (own f) (values f)) ∧ ∀ part ∈ extras, Extra part

/-- Nothing is read from a parameter with another name. -/
theorem Extra.extractQuoted {part : List Char} (extra : Extra part) (f : Field) :
    extractQuoted (trim part) f.key = none := by
  cases read : Digest.extractQuoted (trim part) f.key with
  | none => rfl
  | some value =>
    obtain ⟨front, name, gap, gap', back, blankFront, blankGap, _, _, same, eq⟩ :=
      (extractQuoted_trim_iff f.isName).mp read
    have letters := (f.isName.spelling same).2
    have shape : part =
        (front ++ name ++ gap) ++ '=' :: (gap' ++ '"' :: (value ++ ['"']) ++ back) := by
      rw [eq]
      simp
    have clear : '=' ∉ front ++ name ++ gap := by
      simp only [List.mem_append, not_or]
      exact ⟨⟨fun mem => absurd (blankFront _ mem) (by decide),
        fun mem => (letters _ mem).2.1 rfl⟩, fun mem => absurd (blankGap _ mem) (by decide)⟩
    have trimmed : trim (front ++ name ++ gap) = name :=
      trim_of_blank blankFront blankGap (fun c mem => (letters c (List.mem_of_mem_head? mem)).1)
        (fun c mem => (letters c (List.mem_of_getLast? mem)).1)
    have other := extra.named _ _ shape clear f
    rw [trimmed, same] at other
    cases other

/-- Each value of a built header is the only one under its name. -/
theorem Built.lastQuoted {values : Field → List Char} {parts : List (List Char)}
    (built : Built values parts) (f : Field) : LastQuoted f.key parts (values f) := by
  obtain ⟨own, extras, perm, quoted, extra⟩ := built
  have read (g : Field) : extractQuoted (trim (own g)) g.key = some (values g) :=
    (extractQuoted_trim_iff g.isName).mpr (quoted g)
  have others (g : Field) (different : g ≠ f) : extractQuoted (trim (own g)) f.key = none :=
    extractQuoted_exclusive different (read g)
  have none : extras.filterMap (fun part => extractQuoted (trim part) f.key) = [] :=
    List.filterMap_eq_nil_iff.mpr fun part mem => (extra part mem).extractQuoted f
  have only : valuesOf f.key ([own .username, own .realm, own .nonce, own .uri, own .response] ++
      extras) = [values f] := by
    rw [valuesOf, List.filterMap_append, none, List.append_nil]
    cases f <;> simp only [List.filterMap_cons, List.filterMap_nil, read, others, ne_eq,
      reduceCtorEq, not_false_eq_true]
  have single : valuesOf f.key parts = [values f] :=
    List.perm_singleton.mp (only ▸ perm.filterMap _)
  exact (getLast?_valuesOf f.isName).mp (by rw [single]; rfl)

theorem Built.passes {values : Field → List Char} {parts : List (List Char)}
    (built : Built values parts) (noQuote : ∀ f, '"' ∉ values f) :
    ∀ part ∈ parts, Passes false part false := by
  obtain ⟨own, extras, perm, quoted, extra⟩ := built
  have owned (f : Field) : Passes false (own f) false := (quoted f).passes f.isName (noQuote f)
  intro part mem
  rcases List.mem_append.mp (perm.mem_iff.mp mem) with mine | other
  · simp only [List.mem_cons, List.not_mem_nil, or_false] at mine
    rcases mine with rfl | rfl | rfl | rfl | rfl <;> exact owned _
  · exact (extra part other).passes

theorem Built.nonempty {values : Field → List Char} {parts : List (List Char)}
    (built : Built values parts) : parts ≠ [] := by
  obtain ⟨own, extras, perm, _⟩ := built
  rintro rfl
  exact absurd perm.length_eq (by simp)

/-- A header built from the right values authorizes the request. -/
theorem Built.authorizes {md5 : Md5} {realm password nonce method uri : List Char}
    {values : Field → List Char} {parts : List (List Char)} (built : Built values parts)
    (noQuote : ∀ f, '"' ∉ values f) (hrealm : values .realm = realm)
    (hnonce : values .nonce = nonce) (huri : values .uri = uri)
    (hresponse : values .response =
      getResponse md5 (values .username) realm password nonce method uri)
    {front scheme : List Char} {sep : Char} (blank : Blank front)
    (solid : ∀ c ∈ scheme, isWhitespace c = false)
    (digest : eqIgnoreAsciiCase scheme "Digest".toList = true) (white : isWhitespace sep = true) :
    Authorizes md5 realm password nonce method uri
      (front ++ (scheme ++ sep :: joinParts parts)) := by
  refine ⟨front, scheme, sep, joinParts parts, parts, blank, solid, digest, white, rfl,
    split_joinParts built.nonempty (built.passes noQuote), values .username,
    built.lastQuoted .username, ?_, ?_, ?_, ?_⟩
  · exact hrealm ▸ built.lastQuoted .realm
  · exact hnonce ▸ built.lastQuoted .nonce
  · exact huri ▸ built.lastQuoted .uri
  · exact hresponse ▸ built.lastQuoted .response

end Shairplay.Proto.Digest

import Shairplay.Proto.Sdp

/-!
# Attributes of a session description

An attribute line has a key and, behind a colon, a value. The parser keeps the first value of
a key that is not empty; lines without a value leave no trace in the parsed description.
-/

namespace Shairplay.Proto.Sdp

open Lib Str

/-- The key of an attribute line and, behind a colon, its value. -/
def attributeOf (text : List Char) : Option (List Char × Option (List Char)) :=
  match trim (text.rdropWhile (· == '\r')) with
  | kind :: '=' :: value =>
    if kind ≠ 'a' then none
    else
      match splitOnce (· == ':') (trim value) with
      | some (key, val) => some (trim key, some (trim val))
      | none => some (trim value, none)
  | _ => none

/-- The text has an attribute line with this key, whatever its value. -/
def hasAttribute (name : String) (data : List Char) : Bool :=
  (lines data).any fun text => (attributeOf text).any fun found => String.ofList found.1 == name

/-- The value that an attribute gives to a key: the one behind the first colon, if any is left
of it. -/
def valueIn (name : String) (value : List Char) : Option (List Char) :=
  (splitOnce (· == ':') value).bind fun (key, val) =>
    if String.ofList (trim key) = name ∧ trim val ≠ [] then some (trim val) else none

def lineValue (name : String) (text : List Char) : Option (List Char) :=
  match trim (text.rdropWhile (· == '\r')) with
  | kind :: '=' :: value => if kind = 'a' then valueIn name (trim value) else none
  | _ => none

/-- The first value that the lines of a text give to a key. -/
def valueOf (name : String) (data : List Char) : Option (List Char) :=
  (lines data).findSome? (lineValue name)

/-- A field that attributes fill in, and no other line touches. -/
structure IsAttribute (field : Sdp → Option (List Char)) (name : String) : Prop where
  empty : field {} = none
  version : ∀ sdp version, field { sdp with version } = field sdp
  connection : ∀ sdp connection, field { sdp with connection } = field sdp
  attributeLine : ∀ sdp value, field (sdp.attributeLine value) = (field sdp).or (valueIn name value)

theorem IsAttribute.line {field : Sdp → Option (List Char)} {name : String}
    (h : IsAttribute field name) (sdp : Sdp) (text : List Char) :
    field (sdp.line text) = (field sdp).or (lineValue name text) := by
  unfold Sdp.line lineValue
  cases cut : trim (text.rdropWhile (· == '\r')) with
  | nil => simp
  | cons kind rest =>
    split
    · rename_i kind' value eq
      cases eq
      by_cases isAttribute : kind = 'a'
      · subst isAttribute
        simpa [show Char.utf8Size 'a' = 1 from rfl] using h.attributeLine sdp (trim value)
      · simp only [if_neg isAttribute, Option.or_none]
        -- version and connection lines, and lines the parser skips
        split
        · rfl
        · split
          · split
            · rfl
            · exact h.version sdp _
          · split
            · split
              · rfl
              · exact h.connection sdp _
            · rfl
    · simp

theorem IsAttribute.parse {field : Sdp → Option (List Char)} {name : String}
    (h : IsAttribute field name) (data : List Char) : field (parse data) = valueOf name data := by
  have scan (texts : List (List Char)) (sdp : Sdp) :
      field (texts.foldl Sdp.line sdp) = (field sdp).or (texts.findSome? (lineValue name)) := by
    induction texts generalizing sdp with
    | nil => simp
    | cons text texts ih =>
      rw [List.foldl_cons, ih, h.line, List.findSome?_cons]
      cases field sdp <;> cases lineValue name text <;> rfl
  rw [Sdp.parse, scan, h.empty]
  rfl

/-- An attribute fills in the field that its key names, unless that has a value already. -/
theorem attributeLine_eq (sdp : Sdp) (value : List Char) :
    sdp.attributeLine value =
      { sdp with
        rtpmap := sdp.rtpmap.or (valueIn "rtpmap" value)
        fmtp := sdp.fmtp.or (valueIn "fmtp" value)
        rsaaeskey := sdp.rsaaeskey.or (valueIn "rsaaeskey" value)
        fpaeskey := sdp.fpaeskey.or (valueIn "fpaeskey" value)
        aesiv := sdp.aesiv.or (valueIn "aesiv" value)
        minLatency := sdp.minLatency.or (valueIn "min-latency" value) } := by
  unfold attributeLine valueIn
  cases cut : splitOnce (· == ':') value with
  | none => simp
  | some pair =>
    obtain ⟨key, val⟩ := pair
    simp only [Option.bind_some]
    generalize String.ofList (trim key) = key
    generalize trim val = val
    cases val with
    | nil => simp
    | cons c val =>
      simp only [List.isEmpty_cons, Bool.false_eq_true, if_false, ne_eq, reduceCtorEq,
        not_false_eq_true, and_true]
      by_cases rtpmap : key = "rtpmap"
      · subst rtpmap
        simp [first]
      by_cases fmtp : key = "fmtp"
      · subst fmtp
        simp [first]
      by_cases rsaaeskey : key = "rsaaeskey"
      · subst rsaaeskey
        simp [first]
      by_cases fpaeskey : key = "fpaeskey"
      · subst fpaeskey
        simp [first]
      by_cases aesiv : key = "aesiv"
      · subst aesiv
        simp [first]
      by_cases minLatency : key = "min-latency"
      · subst minLatency
        simp [first]
      simp only [if_neg rtpmap, if_neg fmtp, if_neg rsaaeskey, if_neg fpaeskey, if_neg aesiv,
        if_neg minLatency, Option.or_none]

theorem isAttribute_rsaaeskey : IsAttribute Sdp.rsaaeskey "rsaaeskey" :=
  ⟨rfl, fun _ _ => rfl, fun _ _ => rfl, fun sdp value => by rw [attributeLine_eq]⟩

theorem isAttribute_fpaeskey : IsAttribute Sdp.fpaeskey "fpaeskey" :=
  ⟨rfl, fun _ _ => rfl, fun _ _ => rfl, fun sdp value => by rw [attributeLine_eq]⟩

theorem isAttribute_aesiv : IsAttribute Sdp.aesiv "aesiv" :=
  ⟨rfl, fun _ _ => rfl, fun _ _ => rfl, fun sdp value => by rw [attributeLine_eq]⟩

end Shairplay.Proto.Sdp

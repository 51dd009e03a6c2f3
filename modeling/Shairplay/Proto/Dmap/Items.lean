import Shairplay.Proto.Dmap

/-!
# Metadata is a fold over items

A message holds a list of items, declares a payload of at most their size and may go on behind
it; on the way it may be cut anywhere behind its header. What is read is, for each field, the
last well-formed value among the items that lie in the declared payload and have arrived.
-/

namespace Shairplay.Proto.TrackMetadata

open Lib Bytes

/-- A tagged value. -/
structure Item where
  tag : List UInt8
  value : List UInt8
  four : tag.length = 4

def lengthField (n : Nat) : List UInt8 := padLeft 4 (beBytes n)

namespace Item

def encode (item : Item) : List UInt8 := item.tag ++ lengthField item.value.length ++ item.value

def size (item : Item) : Nat := 8 + item.value.length

end Item

def totalSize (items : List Item) : Nat := (items.map Item.size).sum

def message (declared : Nat) (items : List Item) (trailing : List UInt8) : List UInt8 :=
  Utf8.encode "mlit" ++ lengthField declared ++ items.flatMap Item.encode ++ trailing

def ends : (start : Nat) → List Item → List (Nat × Item)
  | _, [] => []
  | start, item :: items => (start + item.size, item) :: ends (start + item.size) items

/-- The items of a list from `start` on that end at `stop` or before. -/
def wholeItems (start stop : Nat) (items : List Item) : List Item :=
  ((ends start items).filter fun ending => ending.1 ≤ stop).map Prod.snd

def valueUnder {α : Type} (tag : String) (parse : List UInt8 → Option α) (item : Item) : Option α :=
  if item.tag = Utf8.encode tag then parse item.value else none

/-- The last well-formed value under a tag. -/
def lastValue {α : Type} (tag : String) (parse : List UInt8 → Option α) (items : List Item) :
    Option α :=
  (items.filterMap (valueUnder tag parse)).getLast?

def ofItems (items : List Item) : TrackMetadata where
  title := lastValue "minm" asStr items
  artist := lastValue "asar" asStr items
  album := lastValue "asal" asStr items
  genre := lastValue "asgn" asStr items
  durationMs := lastValue "astm" asU32 items
  trackNumber := lastValue "astn" asU16 items
  discNumber := lastValue "asdk" asU16 items

theorem lastValue_cons {α : Type} (tag : String) (parse : List UInt8 → Option α) (item : Item)
    (items : List Item) :
    lastValue tag parse (item :: items) =
      (lastValue tag parse items).or (valueUnder tag parse item) := by
  rw [lastValue, lastValue, List.filterMap_cons]
  cases valueUnder tag parse item with
  | none => simp
  | some value => simp [List.getLast?_cons]

/-- An item changes the field of its tag, and only if its value is well formed. -/
theorem takeIn_eq (m : TrackMetadata) (item : Item) :
    m.takeIn item.tag item.value =
      { title := (valueUnder "minm" asStr item).or m.title
        artist := (valueUnder "asar" asStr item).or m.artist
        album := (valueUnder "asal" asStr item).or m.album
        genre := (valueUnder "asgn" asStr item).or m.genre
        durationMs := (valueUnder "astm" asU32 item).or m.durationMs
        trackNumber := (valueUnder "astn" asU16 item).or m.trackNumber
        discNumber := (valueUnder "asdk" asU16 item).or m.discNumber } := by
  unfold takeIn
  -- the tags are different, so at most one of the fields is the one that changes
  by_cases title : item.tag = Utf8.encode "minm"
  · simp [valueUnder, title, Utf8.encode_eq_encode]
  by_cases artist : item.tag = Utf8.encode "asar"
  · simp [valueUnder, artist, Utf8.encode_eq_encode]
  by_cases album : item.tag = Utf8.encode "asal"
  · simp [valueUnder, album, Utf8.encode_eq_encode]
  by_cases genre : item.tag = Utf8.encode "asgn"
  · simp [valueUnder, genre, Utf8.encode_eq_encode]
  by_cases duration : item.tag = Utf8.encode "astm"
  · simp [valueUnder, duration, Utf8.encode_eq_encode]
  by_cases track : item.tag = Utf8.encode "astn"
  · simp [valueUnder, track, Utf8.encode_eq_encode]
  by_cases disc : item.tag = Utf8.encode "asdk"
  · simp [valueUnder, disc, Utf8.encode_eq_encode]
  · simp [valueUnder, title, artist, album, genre, duration, track, disc]

/-- Taking in items one after the other leaves the last well-formed values. -/
theorem foldl_takeIn (items : List Item) (m : TrackMetadata) :
    items.foldl (fun m item => m.takeIn item.tag item.value) m =
      { title := (ofItems items).title.or m.title
        artist := (ofItems items).artist.or m.artist
        album := (ofItems items).album.or m.album
        genre := (ofItems items).genre.or m.genre
        durationMs := (ofItems items).durationMs.or m.durationMs
        trackNumber := (ofItems items).trackNumber.or m.trackNumber
        discNumber := (ofItems items).discNumber.or m.discNumber } := by
  induction items generalizing m with
  | nil => rfl
  | cons item items ih =>
    rw [List.foldl_cons, ih, takeIn_eq]
    simp only [ofItems, lastValue_cons, Option.or_assoc]

theorem length_lengthField {n : Nat} (small : n < 2 ^ 32) : (lengthField n).length = 4 := by
  have short := length_beBytes_le (k := 4) (by simpa using small) (by decide)
  rw [lengthField, length_padLeft]
  omega

@[simp] theorem beNat_lengthField (n : Nat) : beNat (lengthField n) = n := by
  rw [lengthField, beNat_padLeft, beNat_beBytes]

theorem Item.length_field {item : Item} (small : item.size < 2 ^ 32) :
    (lengthField item.value.length).length = 4 := by
  refine length_lengthField (Nat.lt_of_le_of_lt ?_ small)
  exact Nat.le_add_left _ _

theorem Item.length_encode {item : Item} (small : item.size < 2 ^ 32) :
    item.encode.length = item.size := by
  simp only [Item.encode, Item.size, List.length_append, item.four, item.length_field small]

@[simp] theorem totalSize_cons (item : Item) (items : List Item) :
    totalSize (item :: items) = item.size + totalSize items := rfl

theorem length_flatMap_encode {items : List Item} (small : totalSize items < 2 ^ 32) :
    (items.flatMap Item.encode).length = totalSize items := by
  induction items with
  | nil => rfl
  | cons item items ih =>
    rw [totalSize_cons] at small
    rw [List.flatMap_cons, List.length_append, item.length_encode (by omega), ih (by omega),
      totalSize_cons]

theorem slice_append {front part rest : List UInt8} {start stop : Nat}
    (starts : front.length = start) (ends : start + part.length = stop) :
    slice (front ++ part ++ rest) start stop = part := by
  subst starts ends
  simp [slice, List.take_append]

/-- Only the data in front of the end is looked at. -/
theorem slice_congr {data data' : List UInt8} {stop : Nat} (same : data.take stop = data'.take stop)
    (start : Nat) {n : Nat} (inside : n ≤ stop) : slice data start n = slice data' start n := by
  have cut (bytes : List UInt8) : bytes.take n = (bytes.take stop).take n := by
    rw [List.take_take, Nat.min_eq_left inside]
  rw [slice, slice, cut data, same, ← cut data']

section OneItem

variable {data front rest : List UInt8} {stop : Nat} {item : Item}

theorem slice_header (small : item.size < 2 ^ 32)
    (same : data.take stop = (front ++ item.encode ++ rest).take stop)
    (inside : front.length + 8 ≤ stop) :
    slice data front.length (front.length + 4) = item.tag ∧
      slice data (front.length + 4) (front.length + 8) = lengthField item.value.length := by
  have four := item.four
  have field := item.length_field small
  constructor
  · have cut : front ++ item.encode ++ rest =
        front ++ item.tag ++ (lengthField item.value.length ++ item.value ++ rest) := by
      simp [Item.encode]
    rw [slice_congr same _ (by omega), cut]
    exact slice_append rfl (by omega)
  · have cut : front ++ item.encode ++ rest =
        front ++ item.tag ++ lengthField item.value.length ++ (item.value ++ rest) := by
      simp [Item.encode]
    rw [slice_congr same _ inside, cut]
    exact slice_append (by rw [List.length_append, four]) (by omega)

theorem slice_value (small : item.size < 2 ^ 32)
    (same : data.take stop = (front ++ item.encode ++ rest).take stop)
    (inside : front.length + item.size ≤ stop) :
    slice data (front.length + 8) (front.length + item.size) = item.value := by
  have four := item.four
  have field := item.length_field small
  have cut : front ++ item.encode ++ rest =
      front ++ item.tag ++ lengthField item.value.length ++ item.value ++ rest := by
    simp [Item.encode]
  rw [slice_congr same _ inside, cut]
  refine slice_append ?_ ?_
  · simp only [List.length_append, four, field]
  · simp only [Item.size]
    omega

end OneItem

theorem wholeItems_of_lt {start stop : Nat} (past : stop < start) (items : List Item) :
    wholeItems start stop items = [] := by
  induction items generalizing start with
  | nil => rfl
  | cons item items ih =>
    have later : stop < start + item.size := Nat.lt_of_lt_of_le past (Nat.le_add_right _ _)
    simpa [wholeItems, ends, Nat.not_le.mpr later] using ih later

theorem wholeItems_cons (start stop : Nat) (item : Item) (items : List Item) :
    wholeItems start stop (item :: items) =
      if start + item.size ≤ stop then item :: wholeItems (start + item.size) stop items
      else [] := by
  split
  · rename_i inside
    simp [wholeItems, ends, inside]
  · rename_i outside
    have rest := wholeItems_of_lt (Nat.lt_of_not_le outside) items
    simpa [wholeItems, ends, outside] using rest

/-- One round of the loop. The positions of a message are far from the limit of `usize`. -/
theorem itemLoop_succ {data : List UInt8} {stop pos : Nat} (rounds : Nat) (m : TrackMetadata)
    (small : stop < 2 ^ 33) (inside : pos ≤ stop) :
    itemLoop data stop (rounds + 1) pos m =
      if stop < pos + 8 then m
      else
        let valueEnd := pos + 8 + beNat (slice data (pos + 4) (pos + 8))
        if stop < valueEnd then m
        else itemLoop data stop rounds valueEnd
          (m.takeIn (slice data pos (pos + 4)) (slice data (pos + 8) valueEnd)) := by
  have header : checkedAdd pos 8 = some (pos + 8) := if_pos (by omega)
  have length : beNat (slice data (pos + 4) (pos + 8)) < 2 ^ 32 := by
    have bound := beNat_lt (slice data (pos + 4) (pos + 8))
    have short : (slice data (pos + 4) (pos + 8)).length ≤ 4 := by
      simp only [slice, List.length_drop, List.length_take]
      omega
    exact Nat.lt_of_lt_of_le bound (Nat.pow_le_pow_right (by decide) short)
  have value : checkedAdd (pos + 8) (beNat (slice data (pos + 4) (pos + 8))) =
      some (pos + 8 + beNat (slice data (pos + 4) (pos + 8))) := if_pos (by omega)
  simp only [itemLoop, header, value]

/-- The loop takes in the items that end in front of `stop`. What it reads there is the start of
the items and whatever follows them. -/
theorem itemLoop_items {data : List UInt8} {stop : Nat} (small : stop < 2 ^ 33)
    (trailing : List UInt8) (items : List Item) (fits : totalSize items < 2 ^ 32)
    {front : List UInt8}
    (same : data.take stop = (front ++ items.flatMap Item.encode ++ trailing).take stop)
    (inside : front.length ≤ stop) (declared : stop ≤ front.length + totalSize items)
    {rounds : Nat} (enough : stop - front.length < rounds) (m : TrackMetadata) :
    itemLoop data stop rounds front.length m = (wholeItems front.length stop items).foldl
        (fun m item => m.takeIn item.tag item.value) m := by
  obtain ⟨rounds, rfl⟩ : ∃ more, rounds = more + 1 := ⟨rounds - 1, by omega⟩
  induction items generalizing front rounds m with
  | nil =>
    have finished : stop < front.length + 8 := by
      simp only [totalSize, List.map_nil, List.sum_nil] at declared
      omega
    rw [itemLoop_succ rounds m small inside, if_pos finished]
    rfl
  | cons item items ih =>
    rw [totalSize_cons] at fits declared
    have fitsItem : item.size < 2 ^ 32 := by omega
    have next : data.take stop =
        (front ++ item.encode ++ (items.flatMap Item.encode ++ trailing)).take stop := by
      simpa using same
    have whole : front.length + item.size = front.length + 8 + item.value.length := by
      simp only [Item.size]
      omega
    rw [itemLoop_succ rounds m small inside, wholeItems_cons]
    by_cases header : stop < front.length + 8
    · rw [if_pos header, if_neg (by omega)]
      rfl
    · obtain ⟨tag, length⟩ := slice_header fitsItem next (Nat.le_of_not_lt header)
      rw [if_neg header, tag, length, beNat_lengthField, ← whole]
      dsimp only
      by_cases value : stop < front.length + item.size
      · rw [if_pos value, if_neg (Nat.not_le.mpr value)]
        rfl
      · have present : front.length + item.size ≤ stop := Nat.le_of_not_lt value
        have moved : (front ++ item.encode).length = front.length + item.size := by
          rw [List.length_append, item.length_encode fitsItem]
        have size : 8 ≤ item.size := Nat.le_add_right _ _
        rw [if_neg value, if_pos present, slice_value fitsItem next present, List.foldl_cons,
          ← moved]
        obtain ⟨rounds, rfl⟩ : ∃ more, rounds = more + 1 := ⟨rounds - 1, by omega⟩
        exact ih (by omega) (by simpa using same) (by rwa [moved]) (by omega) _ _ (by omega)

/-- For every list of items of less than 2^32 bytes, every declared length and everything behind
the declared payload, and wherever the message is cut behind its header: what is read is the
metadata of the items that lie wholly in the declared payload and in what was received. -/
theorem fromDmap_message (items : List Item) (declared : Nat) (trailing received : List UInt8)
    (small : totalSize items < 2 ^ 32) (fits : declared < 2 ^ 32)
    (behind : trailing ≠ [] → declared ≤ totalSize items)
    (cut : received <+: message declared items trailing) (header : 8 ≤ received.length) :
    fromDmap received = ofItems (wholeItems 8 (min (8 + declared) received.length) items) := by
  have field := length_lengthField fits
  have root : (Utf8.encode "mlit").length = 4 := rfl
  have front : (Utf8.encode "mlit" ++ lengthField declared).length = 8 := by
    rw [List.length_append, root, field]
  have same {n : Nat} (arrived : n ≤ received.length) :
      received.take n = (message declared items trailing).take n := by
    obtain ⟨rest, whole⟩ := cut
    rw [← whole, List.take_append_of_le_length arrived]
  have tag : slice received 0 4 = Utf8.encode "mlit" := by
    have split : message declared items trailing = [] ++ Utf8.encode "mlit" ++
        (lengthField declared ++ items.flatMap Item.encode ++ trailing) := by
      simp [message]
    rw [slice_congr (same header) 0 (by decide), split]
    exact slice_append rfl rfl
  have length : slice received 4 8 = lengthField declared := by
    have split : message declared items trailing = Utf8.encode "mlit" ++ lengthField declared ++
        (items.flatMap Item.encode ++ trailing) := by
      simp [message]
    rw [slice_congr (same header) 4 le_rfl, split]
    exact slice_append root (by omega)
  -- bytes behind the items are out of reach: either they are not declared or there are none
  have reach : min (8 + declared) received.length ≤ 8 + totalSize items := by
    by_cases none : trailing = []
    · have arrived := cut.length_le
      rw [message, List.length_append, List.length_append, front, length_flatMap_encode small,
        none, List.length_nil] at arrived
      omega
    · have within := behind none
      omega
  have ending : checkedAdd 8 declared = some (8 + declared) := if_pos (by omega)
  have read : itemLoop received (min (8 + declared) received.length) received.length
      (Utf8.encode "mlit" ++ lengthField declared).length {} = _ :=
    itemLoop_items (by omega) trailing items small (same (Nat.min_le_right _ _)) (by omega)
      (by omega) (by omega) {}
  rw [front] at read
  have started : ¬ (received.length < 8 ∨ slice received 0 4 ≠ Utf8.encode "mlit") := by
    simp [tag, header]
  rw [fromDmap, if_neg started, length, beNat_lengthField, ending]
  dsimp only
  rw [read, foldl_takeIn]
  simp

/-- A duration, a malformed one after it, and a title that is cut off. -/
def cutItems : List Item :=
  [⟨Utf8.encode "astm", [0x00, 0x00, 0x03, 0xe8], rfl⟩,
    ⟨Utf8.encode "astm", [0x01, 0x02, 0x03], rfl⟩,
    ⟨Utf8.encode "minm", Utf8.encode "Hello", rfl⟩]

theorem fromDmap_message_cut :
    totalSize cutItems = 36 ∧
      fromDmap ((message 36 cutItems (Utf8.encode "behind")).take 40) =
        { durationMs := some 1000 } := by
  refine ⟨by decide, ?_⟩
  refine (fromDmap_message cutItems 36 (Utf8.encode "behind") _ (by decide) (by decide)
    (fun _ => by decide) (List.take_prefix _ _) (by decide +kernel)).trans ?_
  decide +kernel

end Shairplay.Proto.TrackMetadata

import Mathlib.Data.List.Basic

/-!
# Deframers

A deframer cuts items out of a stream that arrives in pieces. It looks at what has
arrived and decides: wait for more, skip something that starts no item, cut off an item,
or give up. A decision other than waiting may not change when more arrives; then the
items of a stream do not depend on how it was cut into pieces.
-/

namespace Shairplay.Lib

variable {α β : Type*}

/-- What a deframer decides about the input it holds. -/
inductive Verdict (β : Type*)
  | more
  | skip (n : Nat)
  | item (b : β) (n : Nat)
  | stop
  deriving DecidableEq

/-- A deframer. What it skips or cuts off is there and is not empty. -/
structure Deframer (α β : Type*) where
  next : List α → Verdict β
  skip_pos : ∀ {xs n}, next xs = .skip n → 0 < n ∧ n ≤ xs.length
  item_pos : ∀ {xs b n}, next xs = .item b n → 0 < n ∧ n ≤ xs.length
  stable : ∀ {xs} ys, next xs ≠ .more → next (xs ++ ys) = next xs

/-- The items of an input, what is left of it, and whether the deframer gave up. -/
structure Scan (α β : Type*) where
  items : List β
  rest : List α
  stopped : Bool

namespace Deframer

variable (d : Deframer α β)

/-- The items in front of an input, by a bounded number of decisions. -/
def scanUpTo : Nat → List α → Scan α β
  | 0, xs => ⟨[], xs, false⟩
  | steps + 1, xs =>
    match d.next xs with
    | .more => ⟨[], xs, false⟩
    | .stop => ⟨[], xs, true⟩
    | .skip n => scanUpTo steps (xs.drop n)
    | .item b n =>
      let scan := scanUpTo steps (xs.drop n)
      { scan with items := b :: scan.items }

/-- The items of an input. Every decision uses up at least one element. -/
def scan (xs : List α) : Scan α β := d.scanUpTo (xs.length + 1) xs

/-- The decisions of a deframer on an input, up to where it waits or gives up. -/
inductive Scans : List α → Scan α β → Prop
  | more {xs : List α} : d.next xs = .more → Scans xs ⟨[], xs, false⟩
  | stop {xs : List α} : d.next xs = .stop → Scans xs ⟨[], xs, true⟩
  | skip {xs : List α} {n : Nat} {s : Scan α β} :
      d.next xs = .skip n → Scans (xs.drop n) s → Scans xs s
  | item {xs : List α} {b : β} {n : Nat} {s : Scan α β} :
      d.next xs = .item b n → Scans (xs.drop n) s → Scans xs { s with items := b :: s.items }

variable {d}

theorem scans_scanUpTo {steps : Nat} {xs : List α} (enough : xs.length < steps) :
    d.Scans xs (d.scanUpTo steps xs) := by
  induction steps generalizing xs with
  | zero => exact absurd enough (Nat.not_lt_zero _)
  | succ steps ih =>
    have shorter {n : Nat} (h : 0 < n ∧ n ≤ xs.length) : (xs.drop n).length < steps := by
      rw [List.length_drop]
      omega
    rw [scanUpTo]
    split
    · exact .more ‹_›
    · exact .stop ‹_›
    · exact .skip ‹_› (ih (shorter (d.skip_pos ‹_›)))
    · exact .item ‹_› (ih (shorter (d.item_pos ‹_›)))

/-- `scan` follows the decisions to their end. -/
theorem scans_scan (xs : List α) : d.Scans xs (d.scan xs) := scans_scanUpTo (Nat.lt_succ_self _)

namespace Scans

variable {xs ys : List α} {s t : Scan α β}

/-- The decisions are determined. -/
theorem unique (first : d.Scans xs s) (second : d.Scans xs t) : s = t := by
  induction first generalizing t with
  | more h =>
    cases second with
    | more => rfl
    | stop h' | skip h' _ | item h' _ => cases h.symm.trans h'
  | stop h =>
    cases second with
    | stop => rfl
    | more h' | skip h' _ | item h' _ => cases h.symm.trans h'
  | skip h _ ih =>
    cases second with
    | skip h' rest =>
      cases h.symm.trans h'
      exact ih rest
    | more h' | stop h' | item h' _ => cases h.symm.trans h'
  | item h _ ih =>
    cases second with
    | item h' rest =>
      cases h.symm.trans h'
      rw [ih rest]
    | more h' | stop h' | skip h' _ => cases h.symm.trans h'

theorem scan_eq (h : d.Scans xs s) : d.scan xs = s := unique (scans_scan xs) h

theorem waits (h : d.Scans xs s) (goes : s.stopped = false) : d.next s.rest = .more := by
  induction h with
  | more h => exact h
  | stop => cases goes
  | skip _ _ ih => exact ih goes
  | item _ _ ih => exact ih goes

/-- What is left is the end of the input. -/
theorem rest_suffix (h : d.Scans xs s) : s.rest <:+ xs := by
  induction h with
  | more | stop => exact List.suffix_rfl
  | skip _ _ ih => exact ih.trans (List.drop_suffix _ _)
  | item _ _ ih => exact ih.trans (List.drop_suffix _ _)

/-- Items take something away. -/
theorem length_rest_lt (h : d.Scans xs s) (some : s.items ≠ []) : s.rest.length < xs.length := by
  induction h with
  | more | stop => exact absurd rfl some
  | skip skips _ ih =>
    have less := ih some
    rw [List.length_drop] at less
    omega
  | item cut rest =>
    have pos := d.item_pos cut
    have less := rest.rest_suffix.length_le
    rw [List.length_drop] at less
    dsimp only
    omega

/-- What arrives later is read behind what was left. -/
theorem append (first : d.Scans xs s) (goes : s.stopped = false)
    (second : d.Scans (s.rest ++ ys) t) :
    d.Scans (xs ++ ys) { t with items := s.items ++ t.items } := by
  induction first with
  | more => exact second
  | stop => cases goes
  | skip h _ ih =>
    have later := ih goes second
    rw [← List.drop_append_of_le_length (d.skip_pos h).2] at later
    exact .skip ((d.stable ys (by simp [h])).trans h) later
  | item h _ ih =>
    have later := ih goes second
    rw [← List.drop_append_of_le_length (d.item_pos h).2] at later
    exact .item ((d.stable ys (by simp [h])).trans h) later

/-- A deframer that has given up finds nothing in what arrives later. -/
theorem append_stopped (h : d.Scans xs s) (stopped : s.stopped = true) (ys : List α) :
    d.Scans (xs ++ ys) { s with rest := s.rest ++ ys } := by
  induction h with
  | more => cases stopped
  | stop h => exact .stop ((d.stable ys (by simp [h])).trans h)
  | skip h _ ih =>
    have later := ih stopped
    rw [← List.drop_append_of_le_length (d.skip_pos h).2] at later
    exact .skip ((d.stable ys (by simp [h])).trans h) later
  | item h _ ih =>
    have later := ih stopped
    rw [← List.drop_append_of_le_length (d.item_pos h).2] at later
    exact .item ((d.stable ys (by simp [h])).trans h) later

end Scans

/-- Whether an item of `size` elements is there. -/
def fixedNext (size : Nat) (xs : List α) : Verdict (List α) :=
  if size ≤ xs.length then .item (xs.take size) size else .more

theorem fixedNext_of_le {size : Nat} {xs : List α} (inside : size ≤ xs.length) :
    fixedNext size xs = .item (xs.take size) size := if_pos inside

theorem fixedNext_of_lt {size : Nat} {xs : List α} (short : xs.length < size) :
    fixedNext size xs = .more := if_neg (Nat.not_le.mpr short)

theorem fixedNext_ne_stop (size : Nat) (xs : List α) : fixedNext size xs ≠ .stop := by
  unfold fixedNext
  split <;> simp

theorem fixedNext_ne_skip (size : Nat) (xs : List α) (n : Nat) : fixedNext size xs ≠ .skip n := by
  unfold fixedNext
  split <;> simp

theorem fixedNext_eq_item {size n : Nat} {xs b : List α} (item : fixedNext size xs = .item b n) :
    size ≤ xs.length ∧ b = xs.take size ∧ n = size := by
  rcases Nat.lt_or_ge xs.length size with short | inside
  · cases (fixedNext_of_lt short).symm.trans item
  · cases (fixedNext_of_le inside).symm.trans item
    exact ⟨inside, rfl, rfl⟩

theorem fixedNext_append {size : Nat} {xs : List α} (ys : List α)
    (decided : fixedNext size xs ≠ .more) : fixedNext size (xs ++ ys) = fixedNext size xs := by
  rcases Nat.lt_or_ge xs.length size with short | inside
  · exact absurd (fixedNext_of_lt short) decided
  · have inside' : size ≤ (xs ++ ys).length := by
      rw [List.length_append]
      omega
    rw [fixedNext_of_le inside, fixedNext_of_le inside', List.take_append_of_le_length inside]

/-- Cut off items of `size` elements. -/
def fixed (size : Nat) (pos : 0 < size) : Deframer α (List α) where
  next := fixedNext size
  skip_pos skip := absurd skip (fixedNext_ne_skip _ _ _)
  item_pos item := (fixedNext_eq_item item).2.2 ▸ ⟨pos, (fixedNext_eq_item item).1⟩
  stable := fixedNext_append

/-- The items are the pieces at the multiples of the size, and less than an item is left. -/
theorem scans_fixed (size : Nat) (pos : 0 < size) (xs : List α) :
    (fixed size pos).Scans xs
      ⟨(List.range (xs.length / size)).map fun k => (xs.drop (k * size)).take size,
        xs.drop (xs.length / size * size), false⟩ := by
  generalize count : xs.length / size = n
  induction n generalizing xs with
  | zero =>
    have short : xs.length < size := (Nat.div_eq_zero_iff_lt pos).mp count
    rw [Nat.zero_mul]
    exact .more (fixedNext_of_lt short)
  | succ n ih =>
    have inside : size ≤ xs.length := by
      have some : 0 < xs.length / size := by omega
      exact Nat.div_pos_iff.mp some |>.2
    have fewer : (xs.drop size).length / size = n := by
      rw [Nat.div_eq_sub_div pos inside] at count
      rw [List.length_drop]
      omega
    have rest : (fixed size pos).Scans xs _ := .item (fixedNext_of_le inside) (ih _ fewer)
    simp only [List.drop_drop] at rest
    have shift : ∀ k, size + k * size = (k + 1) * size := by
      intro k
      rw [Nat.succ_mul, Nat.add_comm]
    simp only [shift] at rest
    rw [List.range_succ_eq_map, List.map_cons, List.map_map, Nat.zero_mul, List.drop_zero]
    exact rest

/-- Less than an item is left. -/
theorem length_rest_fixed {size : Nat} {pos : 0 < size} {xs : List α} {s : Scan α (List α)}
    (scans : (fixed size pos).Scans xs s) : s.rest.length < size := by
  obtain rfl := scans.unique (scans_fixed size pos xs)
  rw [List.length_drop, ← Nat.mod_eq_sub_div_mul]
  exact Nat.mod_lt _ pos

end Deframer

end Shairplay.Lib

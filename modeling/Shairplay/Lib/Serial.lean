import Mathlib.Data.BitVec

/-!
# Serial numbers on a circle of machine words

A sequence number of `w` bits is compared with a reference by the sign of the
wrapped difference. The lemmas below work with the forward distance `dist a base`,
an ordinary natural number, so that window arguments become linear arithmetic.

The slot lemma is the reason a ring buffer may index by `a mod n`: inside a window
of `n` consecutive serial numbers the index determines the number, provided that
`n` divides the size of the circle.
-/

namespace Shairplay.Lib.Serial

variable {w : Nat}

/-- Forward distance from `base` to `a`, counted around the circle. -/
def dist (a base : BitVec w) : Nat := (a - base).toNat

theorem dist_lt (a base : BitVec w) : dist a base < 2 ^ w := (a - base).isLt

@[simp] theorem dist_self (a : BitVec w) : dist a a = 0 := by
  simp [dist]

theorem dist_eq_zero {a base : BitVec w} : dist a base = 0 ↔ a = base := by
  constructor
  · intro h
    have hz : a - base = 0#w := BitVec.eq_of_toNat_eq (by simpa [dist] using h)
    exact BitVec.sub_eq_iff_eq_add.mp hz |>.trans (BitVec.zero_add base)
  · rintro rfl
    exact dist_self a

/-- Walking the distance from the base reaches the number. -/
theorem base_add_dist (a base : BitVec w) : base + BitVec.ofNat w (dist a base) = a := by
  rw [dist, BitVec.ofNat_toNat, BitVec.setWidth_eq, BitVec.add_comm, BitVec.sub_add_cancel]

theorem dist_inj {a b base : BitVec w} (h : dist a base = dist b base) : a = b := by
  rw [← base_add_dist a base, h, base_add_dist]

theorem dist_add_right (a base : BitVec w) (n : Nat) (h : n ≤ dist a base) :
    dist a (base + BitVec.ofNat w n) = dist a base - n := by
  have hn : n < 2 ^ w := Nat.lt_of_le_of_lt h (dist_lt a base)
  have hle : BitVec.ofNat w n ≤ a - base := by
    rw [BitVec.le_def, BitVec.toNat_ofNat, Nat.mod_eq_of_lt hn]
    exact h
  have hsub : a - (base + BitVec.ofNat w n) = (a - base) - BitVec.ofNat w n := by
    rw [BitVec.sub_eq_iff_eq_add, ← BitVec.add_assoc, BitVec.add_comm (_ - _) base,
      BitVec.add_assoc, BitVec.sub_add_cancel, BitVec.add_comm, BitVec.sub_add_cancel]
  rw [dist, hsub, BitVec.toNat_sub_of_le hle, BitVec.toNat_ofNat, Nat.mod_eq_of_lt hn]
  rfl

theorem dist_add_left (a base : BitVec w) (n : Nat) :
    dist (a + BitVec.ofNat w n) base = (dist a base + n) % 2 ^ w := by
  have h : a + BitVec.ofNat w n - base = (a - base) + BitVec.ofNat w n := by
    rw [BitVec.sub_eq_add_neg, BitVec.sub_eq_add_neg, BitVec.add_assoc, BitVec.add_assoc,
      BitVec.add_comm (BitVec.ofNat w n)]
  rw [dist, h, BitVec.toNat_add, BitVec.toNat_ofNat, Nat.add_mod_mod]
  rfl

theorem dist_sub_right (a base : BitVec w) (n : Nat) :
    dist a (base - BitVec.ofNat w n) = (dist a base + n) % 2 ^ w := by
  rw [← dist_add_left, dist, dist, sub_sub_eq_add_sub]

/-- Without a wrap between them the distance is the plain difference. -/
theorem dist_of_le {a base : BitVec w} (h : base.toNat ≤ a.toNat) :
    dist a base = a.toNat - base.toNat :=
  BitVec.toNat_sub_of_le h

/-- The two ways around the circle. -/
theorem dist_add_dist {a b : BitVec w} (h : a ≠ b) : dist a b + dist b a = 2 ^ w := by
  rcases Nat.lt_or_gt_of_ne (BitVec.toNat_ne.mp h) with lt | lt
  · have back := dist_of_le lt.le
    have forth : dist a b = 2 ^ w - (b.toNat - a.toNat) := BitVec.toNat_sub_of_lt lt
    omega
  · have forth := dist_of_le lt.le
    have back : dist b a = 2 ^ w - (a.toNat - b.toNat) := BitVec.toNat_sub_of_lt lt
    omega

/-- The sign of the wrapped difference. -/
theorem toInt_sub_pos {a base : BitVec w} :
    0 < (a - base).toInt ↔ 0 < dist a base ∧ 2 * dist a base < 2 ^ w := by
  have bound := dist_lt a base
  rw [BitVec.toInt_eq_toNat_cond, ← dist]
  split <;> omega

theorem ofInt_sub (x y : Int) : BitVec.ofInt w (x - y) = BitVec.ofInt w x - BitVec.ofInt w y := by
  rw [Int.sub_eq_add_neg, BitVec.ofInt_add, BitVec.ofInt_neg, ← BitVec.sub_eq_add_neg]

/-- Numbers that are less than a turn apart are different on the circle. -/
theorem ofInt_ne_of_lt {x y : Int} (below : x < y) (turn : y - x < 2 ^ w) :
    BitVec.ofInt w x ≠ BitVec.ofInt w y := by
  intro same
  have zero : BitVec.ofInt w (y - x) = 0#w := by
    rw [ofInt_sub, same, BitVec.sub_self]
  have value := congrArg BitVec.toNat zero
  rw [BitVec.toNat_ofInt, BitVec.toNat_zero] at value
  have small : (y - x) % ((2 ^ w : Nat) : Int) = y - x :=
    Int.emod_eq_of_lt (by omega) (by exact_mod_cast turn)
  omega

/-- Numbers that are less than half a turn apart keep their distance on the circle. -/
theorem toInt_ofInt_sub_ofInt (pos : 0 < w) {x y : Int} (lower : -2 ^ (w - 1) ≤ x - y)
    (upper : x - y < 2 ^ (w - 1)) : (BitVec.ofInt w x - BitVec.ofInt w y).toInt = x - y := by
  rw [← ofInt_sub, BitVec.toInt_ofInt_eq_self pos lower upper]

/-- Inside a window of `n` serial numbers the residue modulo `n` is injective. -/
theorem eq_of_slot_eq {n : Nat} (hn : n ∣ 2 ^ w) {a b base : BitVec w}
    (ha : dist a base < n) (hb : dist b base < n) (h : a.toNat % n = b.toNat % n) : a = b := by
  have residue : ∀ c : BitVec w, c.toNat % n = (base.toNat + dist c base) % n := by
    intro c
    conv_lhs => rw [← base_add_dist c base]
    rw [BitVec.toNat_add, BitVec.toNat_ofNat, Nat.mod_eq_of_lt (dist_lt c base),
      Nat.mod_mod_of_dvd _ hn]
  rw [residue a, residue b] at h
  have hmod : dist a base % n = dist b base % n := Nat.ModEq.add_left_cancel' base.toNat h
  rw [Nat.mod_eq_of_lt ha, Nat.mod_eq_of_lt hb] at hmod
  exact dist_inj hmod

end Shairplay.Lib.Serial

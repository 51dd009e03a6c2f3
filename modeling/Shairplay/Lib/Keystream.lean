import Shairplay.Lib.Machine

/-!
# Keystreams

A stream cipher adds a keystream to a text byte by byte. What a byte becomes depends on its
position only, so a text may be cut anywhere, and doing it twice gives the text back.
-/

namespace Shairplay.Lib.Keystream

def xorFrom (ks : Nat → UInt8) : (position : Nat) → List UInt8 → List UInt8
  | _, [] => []
  | position, b :: bytes => (b ^^^ ks position) :: xorFrom ks (position + 1) bytes

variable (ks : Nat → UInt8)

@[simp] theorem length_xorFrom (p : Nat) (bytes : List UInt8) :
    (xorFrom ks p bytes).length = bytes.length := by
  induction bytes generalizing p with
  | nil => rfl
  | cons b bytes ih => rw [xorFrom, List.length_cons, ih, List.length_cons]

theorem xorFrom_append (p : Nat) (front back : List UInt8) :
    xorFrom ks p (front ++ back) = xorFrom ks p front ++ xorFrom ks (p + front.length) back := by
  induction front generalizing p with
  | nil => rfl
  | cons b front ih =>
    rw [List.cons_append, xorFrom, ih, xorFrom, List.cons_append, List.length_cons,
      Nat.add_right_comm, Nat.add_assoc]

/-- What a byte becomes depends on its position and on nothing before it. -/
theorem getElem?_xorFrom (p : Nat) (bytes : List UInt8) (i : Nat) :
    (xorFrom ks p bytes)[i]? = bytes[i]?.map (· ^^^ ks (p + i)) := by
  induction bytes generalizing p i with
  | nil => rfl
  | cons b bytes ih =>
    cases i with
    | zero => rfl
    | succ i =>
      rw [xorFrom, List.getElem?_cons_succ, List.getElem?_cons_succ, ih, Nat.add_right_comm,
        Nat.add_assoc]

/-- The keystream cancels itself. -/
theorem xorFrom_xorFrom (p : Nat) (bytes : List UInt8) :
    xorFrom ks p (xorFrom ks p bytes) = bytes := by
  induction bytes generalizing p with
  | nil => rfl
  | cons b bytes ih =>
    rw [xorFrom, xorFrom, ih, UInt8.xor_assoc, UInt8.xor_self, UInt8.xor_zero]

def bytesFrom : (position n : Nat) → List UInt8
  | _, 0 => []
  | position, n + 1 => ks position :: bytesFrom (position + 1) n

@[simp] theorem length_bytesFrom (p n : Nat) : (bytesFrom ks p n).length = n := by
  induction n generalizing p with
  | zero => rfl
  | succ n ih => rw [bytesFrom, List.length_cons, ih]

theorem xorFrom_zeros (p n : Nat) : xorFrom ks p (List.replicate n 0) = bytesFrom ks p n := by
  induction n generalizing p with
  | zero => rfl
  | succ n ih => rw [List.replicate_succ, xorFrom, ih, bytesFrom, UInt8.zero_xor]

theorem bytesFrom_add (p n m : Nat) :
    bytesFrom ks p (n + m) = bytesFrom ks p n ++ bytesFrom ks (p + n) m := by
  rw [← xorFrom_zeros, List.replicate_add, xorFrom_append, xorFrom_zeros, xorFrom_zeros,
    List.length_replicate]

theorem take_bytesFrom (p : Nat) {n m : Nat} (fewer : n ≤ m) :
    (bytesFrom ks p m).take n = bytesFrom ks p n := by
  rw [← Nat.add_sub_cancel' fewer, bytesFrom_add]
  exact List.take_left' (length_bytesFrom ks p n)

theorem drop_bytesFrom (p : Nat) {n m : Nat} (fewer : n ≤ m) :
    (bytesFrom ks p m).drop n = bytesFrom ks (p + n) (m - n) := by
  nth_rewrite 1 [← Nat.add_sub_cancel' fewer]
  rw [bytesFrom_add]
  exact List.drop_left' (length_bytesFrom ks p n)

/-- Bytes that agree with the keystream at every position are its bytes. -/
theorem bytesFrom_eq {p : Nat} {bytes : List UInt8}
    (agree : ∀ i < bytes.length, ks (p + i) = bytes.getD i 0) :
    bytesFrom ks p bytes.length = bytes := by
  induction bytes generalizing p with
  | nil => rfl
  | cons b bytes ih =>
    have first : ks p = b := agree 0 (Nat.succ_pos _)
    rw [List.length_cons, bytesFrom, first, ih]
    intro i inside
    rw [Nat.add_assoc, Nat.add_comm 1 i]
    exact agree (i + 1) (Nat.succ_lt_succ inside)

/-- Keystream bytes that were kept serve as well as those of the cipher. -/
theorem zipWith_xor_bytesFrom (p : Nat) (bytes : List UInt8) :
    List.zipWith (· ^^^ ·) bytes (bytesFrom ks p bytes.length) = xorFrom ks p bytes := by
  induction bytes generalizing p with
  | nil => rfl
  | cons b bytes ih =>
    rw [List.length_cons, bytesFrom, List.zipWith_cons_cons, ih, xorFrom]

/-- A cipher whose every call adds the keystream from its position on, and moves the position
by the length of the text, adds one continuous keystream in any sequence of calls. -/
theorem run_xorFrom {σ : Type*} {cipher : σ → List UInt8 → σ × List UInt8} {At : Nat → σ → Prop}
    (call : ∀ p s text, At p s →
      (cipher s text).2 = xorFrom ks p text ∧ At (p + text.length) (cipher s text).1)
    {p : Nat} {s : σ} (start : At p s) (texts : List (List UInt8)) :
    (Machine.run cipher s texts).2 = xorFrom ks p texts.flatten ∧
      At (p + texts.flatten.length) (Machine.run cipher s texts).1 := by
  induction texts generalizing p s with
  | nil => exact ⟨rfl, start⟩
  | cons text texts ih =>
    obtain ⟨out, next⟩ := call p s text start
    obtain ⟨rest, final⟩ := ih next
    rw [Machine.run_cons, List.flatten_cons, xorFrom_append, List.length_append, out, rest,
      ← Nat.add_assoc]
    exact ⟨rfl, final⟩

end Shairplay.Lib.Keystream

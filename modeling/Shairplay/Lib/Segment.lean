import Mathlib.Data.List.Basic

/-!
# Independence of segmentation

A consumer that reads a stream in pieces does not depend on how the stream is cut, if
reading two pieces amounts to reading their concatenation. The law is only needed in
states that satisfy an invariant, and up to an equivalence, so a consumer may keep
irrelevant differences.
-/

namespace Shairplay.Lib.Segment

variable {σ α : Type*} {step : σ → List α → σ} {I : σ → Prop} {R : σ → σ → Prop}

/-- All pieces carry something. -/
def Pieces (chunks : List (List α)) : Prop := ∀ chunk ∈ chunks, chunk ≠ []

instance [DecidableEq α] (chunks : List (List α)) : Decidable (Pieces chunks) :=
  inferInstanceAs (Decidable (∀ chunk ∈ chunks, chunk ≠ []))

/-- Reading pieces one by one is reading them at once. -/
theorem foldl_flatten (equiv : Equivalence R) (keeps : ∀ s chunk, I s → I (step s chunk))
    (append : ∀ s xs ys, I s → xs ≠ [] → ys ≠ [] → R (step s (xs ++ ys)) (step (step s xs) ys))
    {s : σ} (start : I s) {first : List α} {chunks : List (List α)}
    (pieces : Pieces (first :: chunks)) :
    R ((first :: chunks).foldl step s) (step s (first :: chunks).flatten) := by
  induction chunks generalizing s first with
  | nil => simpa using equiv.refl _
  | cons second chunks ih =>
    have first_ne : first ≠ [] := pieces first (by simp)
    have second_ne : second ≠ [] := pieces second (by simp)
    have rest_ne : (second :: chunks).flatten ≠ [] := by simp [second_ne]
    have rest := ih (keeps s first start) fun c hc => pieces c (List.mem_cons_of_mem _ hc)
    rw [List.flatten_cons]
    exact equiv.trans rest (equiv.symm (append s first _ start first_ne rest_ne))

/-- Two ways of cutting the same stream end in equivalent states. -/
theorem foldl_of_flatten_eq (equiv : Equivalence R) (keeps : ∀ s chunk, I s → I (step s chunk))
    (append : ∀ s xs ys, I s → xs ≠ [] → ys ≠ [] → R (step s (xs ++ ys)) (step (step s xs) ys))
    {s : σ} (start : I s) {cut cut' : List (List α)} (pieces : Pieces cut) (pieces' : Pieces cut')
    (same : cut.flatten = cut'.flatten) : R (cut.foldl step s) (cut'.foldl step s) := by
  cases cut with
  | nil =>
    cases cut' with
    | nil => exact equiv.refl _
    | cons first chunks =>
      have := pieces' first (by simp)
      simp_all
  | cons first chunks =>
    cases cut' with
    | nil =>
      have := pieces first (by simp)
      simp_all
    | cons first' chunks' =>
      have left := foldl_flatten equiv keeps append start pieces
      have right := foldl_flatten equiv keeps append start pieces'
      rw [same] at left
      exact equiv.trans left (equiv.symm right)

/-- Cut off pieces of `size` elements; the last one may be shorter. The first argument
bounds the number of pieces. -/
def chunksUpTo (size : Nat) : Nat → List α → List (List α)
  | 0, _ => []
  | _ + 1, [] => []
  | count + 1, x :: xs => (x :: xs).take size :: chunksUpTo size count ((x :: xs).drop size)

/-- `slice::chunks`. -/
def chunks (size : Nat) (xs : List α) : List (List α) := chunksUpTo size xs.length xs

theorem chunksUpTo_flatten {size count : Nat} (pos : 0 < size) {xs : List α}
    (enough : xs.length ≤ count) : (chunksUpTo size count xs).flatten = xs := by
  induction count generalizing xs with
  | zero => simpa [chunksUpTo] using enough
  | succ count ih =>
    cases xs with
    | nil => rfl
    | cons x xs =>
      have shorter : ((x :: xs).drop size).length ≤ count := by
        rw [List.length_drop]
        omega
      rw [chunksUpTo, List.flatten_cons, ih shorter, List.take_append_drop]

theorem chunks_flatten {size : Nat} (pos : 0 < size) (xs : List α) :
    (chunks size xs).flatten = xs := chunksUpTo_flatten pos (Nat.le_refl _)

theorem chunksUpTo_bounds {size count : Nat} (pos : 0 < size) {xs chunk : List α}
    (mem : chunk ∈ chunksUpTo size count xs) : chunk ≠ [] ∧ chunk.length ≤ size := by
  induction count generalizing xs with
  | zero => simp [chunksUpTo] at mem
  | succ count ih =>
    cases xs with
    | nil => simp [chunksUpTo] at mem
    | cons x xs =>
      rw [chunksUpTo, List.mem_cons] at mem
      rcases mem with rfl | mem
      · refine ⟨?_, List.length_take_le _ _⟩
        simp [List.take_eq_nil_iff]
        omega
      · exact ih mem

/-- No piece is empty or too long. -/
theorem chunks_bounds {size : Nat} (pos : 0 < size) {xs chunk : List α}
    (mem : chunk ∈ chunks size xs) : chunk ≠ [] ∧ chunk.length ≤ size :=
  chunksUpTo_bounds pos mem

/-- No piece is empty or longer than `size`. -/
def Sized (size : Nat) (chunks : List (List α)) : Prop :=
  ∀ chunk ∈ chunks, chunk ≠ [] ∧ chunk.length ≤ size

instance [DecidableEq α] (size : Nat) (chunks : List (List α)) : Decidable (Sized size chunks) :=
  inferInstanceAs (Decidable (∀ chunk ∈ chunks, chunk ≠ [] ∧ chunk.length ≤ size))

/-- The pieces of one element each. -/
def singles (xs : List α) : List (List α) := xs.map fun x => [x]

@[simp] theorem singles_flatten (xs : List α) : (singles xs).flatten = xs := by
  induction xs with
  | nil => rfl
  | cons x xs ih => simpa [singles] using ih

theorem singles_sized {size : Nat} (pos : 0 < size) (xs : List α) : Sized size (singles xs) := by
  intro chunk mem
  obtain ⟨x, -, rfl⟩ := List.mem_map.mp mem
  exact ⟨List.cons_ne_nil x [], pos⟩

section Losing

variable {β : Type*} (good : List α → Bool)

/-- What has been taken in, behind `taken`. -/
def survivors : List α → List (List α) → List α
  | taken, [] => taken
  | taken, chunk :: chunks =>
    if good (taken ++ chunk) then survivors (taken ++ chunk) chunks else taken

variable {good}

/-- The piece that ends the intake, and what came before it. -/
theorem survivors_of_spoiled {taken chunk : List α} {before after : List (List α)}
    (closed : ∀ xs ys, good (xs ++ ys) = true → good xs = true)
    (clean : good (taken ++ before.flatten) = true)
    (spoils : good (taken ++ before.flatten ++ chunk) = false) :
    survivors good taken (before ++ chunk :: after) = taken ++ before.flatten := by
  induction before generalizing taken with
  | nil =>
    rw [List.flatten_nil, List.append_nil] at spoils ⊢
    rw [List.nil_append, survivors, if_neg (by simp [spoils])]
  | cons first before ih =>
    rw [List.flatten_cons, ← List.append_assoc] at clean spoils ⊢
    rw [List.cons_append, survivors, if_pos (closed _ _ clean)]
    exact ih clean spoils

/-- Either everything was taken in, or one of the pieces was lost. -/
theorem survivors_cases (taken : List α) (chunks : List (List α)) (clean : good taken = true) :
    survivors good taken chunks = taken ++ chunks.flatten ∧
        good (taken ++ chunks.flatten) = true ∨
      ∃ before chunk after, chunks = before ++ chunk :: after ∧
        survivors good taken chunks = taken ++ before.flatten ∧
        good (taken ++ before.flatten) = true ∧
        good (taken ++ before.flatten ++ chunk) = false := by
  induction chunks generalizing taken with
  | nil => exact .inl (by simpa [survivors] using clean)
  | cons first chunks ih =>
    rw [survivors]
    cases next : good (taken ++ first) with
    | false => exact .inr ⟨[], first, chunks, rfl, by simpa [next] using clean⟩
    | true =>
      rw [if_pos rfl, List.flatten_cons, ← List.append_assoc]
      rcases ih (taken ++ first) next with all | ⟨before, chunk, after, rfl, lost⟩
      · exact .inl all
      · refine .inr ⟨first :: before, chunk, after, rfl, ?_⟩
        rwa [List.flatten_cons, ← List.append_assoc]

theorem exists_turn {stream : List α} {a b : Nat} (le : a ≤ b)
    (clean : good (stream.take a) = true) (spoiled : good (stream.take b) = false) :
    ∃ n, a ≤ n ∧ n < b ∧ good (stream.take n) = true ∧ good (stream.take (n + 1)) = false := by
  induction le with
  | refl => exact absurd (clean.symm.trans spoiled) (by simp)
  | @step b le ih =>
    cases now : good (stream.take b) with
    | true => exact ⟨b, le, b.lt_succ_self, now, spoiled⟩
    | false =>
      obtain ⟨n, low, high, turn⟩ := ih now
      exact ⟨n, low, Nat.lt_succ_of_lt high, turn⟩

theorem good_take_of_le (closed : ∀ xs ys, good (xs ++ ys) = true → good xs = true)
    {stream : List α} {a b : Nat} (le : a ≤ b) (clean : good (stream.take b) = true) :
    good (stream.take a) = true := by
  obtain ⟨rest, whole⟩ := List.take_prefix_take_left (l := stream) le
  exact closed _ rest (whole ▸ clean)

theorem turn_unique (closed : ∀ xs ys, good (xs ++ ys) = true → good xs = true)
    {stream : List α} {m n : Nat} (clean : good (stream.take m) = true)
    (spoiled : good (stream.take (n + 1)) = false) : m ≤ n := by
  by_contra later
  have still := good_take_of_le closed (Nat.lt_of_not_le later) clean
  exact absurd (still.symm.trans spoiled) (by simp)

/-- The pieces may be such that the intake ends anywhere within one piece before the turn. -/
theorem exists_survivors (closed : ∀ xs ys, good (xs ++ ys) = true → good xs = true)
    {size q n : Nat} (pos : 0 < size) {stream : List α} (low : q ≤ n) (near : n < q + size)
    (clean : good (stream.take n) = true) (spoiled : good (stream.take (n + 1)) = false) :
    ∃ cut, Sized size cut ∧ cut.flatten = stream ∧ survivors good [] cut = stream.take q := by
  have inside : n < stream.length := by
    by_contra beyond
    rw [List.take_of_length_le (by omega)] at clean spoiled
    exact absurd (clean.symm.trans spoiled) (by simp)
  have turn : stream.take q ++ (stream.take (n + 1)).drop q = stream.take (n + 1) := by
    have parts := List.take_append_drop q (stream.take (n + 1))
    rwa [List.take_take, Nat.min_eq_left (by omega)] at parts
  have length : ((stream.take (n + 1)).drop q).length = n + 1 - q := by
    rw [List.length_drop, List.length_take_of_le inside]
  refine ⟨singles (stream.take q) ++ (stream.take (n + 1)).drop q ::
    singles (stream.drop (n + 1)), ?_, ?_, ?_⟩
  · intro chunk mem
    rcases List.mem_append.mp mem with early | late
    · exact singles_sized pos _ chunk early
    · rcases List.mem_cons.mp late with rfl | late
      · exact ⟨List.ne_nil_of_length_pos (by omega), by omega⟩
      · exact singles_sized pos _ chunk late
  · rw [List.flatten_append, List.flatten_cons, singles_flatten, singles_flatten,
      ← List.append_assoc, turn, List.take_append_drop]
  · rw [survivors_of_spoiled closed, List.nil_append, singles_flatten]
    · rw [List.nil_append, singles_flatten]
      exact good_take_of_le closed low clean
    · rwa [List.nil_append, singles_flatten, turn]

/-- The intake of a stream that turns bad ends within one piece before the turn. -/
theorem survivors_near {size : Nat} {stream : List α} {cut : List (List α)}
    (sized : Sized size cut) (whole : cut.flatten = stream) (start : good [] = true) :
    survivors good [] cut = stream ∧ good stream = true ∨
      ∃ q n, q ≤ n ∧ n < q + size ∧ survivors good [] cut = stream.take q ∧
        good (stream.take n) = true ∧ good (stream.take (n + 1)) = false := by
  rcases survivors_cases [] cut start with ⟨all, clean⟩ | ⟨before, chunk, after, rfl, lost⟩
  · rw [List.nil_append, whole] at all clean
    exact .inl ⟨all, clean⟩
  · obtain ⟨left, clean, spoiled⟩ := lost
    rw [List.nil_append] at left clean spoiled
    have first : stream.take before.flatten.length = before.flatten := by
      rw [← whole, List.flatten_append, List.take_left]
    have second : stream.take (before.flatten.length + chunk.length) = before.flatten ++ chunk := by
      rw [← whole, List.flatten_append, List.flatten_cons, ← List.append_assoc,
        ← List.length_append, List.take_left]
    rw [← first] at left clean
    rw [← second] at spoiled
    obtain ⟨n, low, high, turn⟩ := exists_turn (Nat.le_add_right _ _) clean spoiled
    have bound := (sized chunk (by simp)).2
    exact .inr ⟨before.flatten.length, n, low, by omega, left, turn⟩

/-- A quantity that grows with what is taken in does not depend on the pieces, just when it is
the same for everything that may be left of a stream when a piece is lost. -/
theorem survivors_independent_iff {f : List α → List β} {size : Nat}
    (closed : ∀ xs ys, good (xs ++ ys) = true → good xs = true) (start : good [] = true)
    (grows : ∀ xs ys, good (xs ++ ys) = true → f xs <+: f (xs ++ ys)) (pos : 0 < size)
    (stream : List α) :
    (∀ cut cut', Sized size cut → Sized size cut' → cut.flatten = stream → cut'.flatten = stream →
        f (survivors good [] cut) = f (survivors good [] cut')) ↔
      ∀ n, good (stream.take n) = true → good (stream.take (n + 1)) = false →
        f (stream.take (n + 1 - size)) = f (stream.take n) := by
  constructor
  · intro independent n clean spoiled
    obtain ⟨cut, sized, whole, left⟩ :=
      exists_survivors closed pos (q := n + 1 - size) (by omega) (by omega) clean spoiled
    obtain ⟨cut', sized', whole', left'⟩ :=
      exists_survivors closed pos (q := n) (Nat.le_refl _) (by omega) clean spoiled
    rw [← left, ← left']
    exact independent cut cut' sized sized' whole whole'
  · intro same
    -- whatever is left at a turn gives what the whole good part gives
    have settled {q n : Nat} (low : q ≤ n) (near : n < q + size)
        (clean : good (stream.take n) = true) (spoiled : good (stream.take (n + 1)) = false) :
        f (stream.take q) = f (stream.take n) := by
      have step {a b : Nat} (le : a ≤ b) (below : b ≤ n) :
          f (stream.take a) <+: f (stream.take b) := by
        obtain ⟨rest, more⟩ := List.take_prefix_take_left (l := stream) le
        have clean' := good_take_of_le closed below clean
        rw [← more] at clean' ⊢
        exact grows _ _ clean'
      have lower := step (a := n + 1 - size) (b := q) (by omega) low
      rw [same n clean spoiled] at lower
      exact (step low (Nat.le_refl _)).eq_of_length_le lower.length_le
    intro cut cut' sized sized' whole whole'
    rcases survivors_near sized whole start with ⟨all, clean⟩ | ⟨q, n, low, near, left, turn⟩
    · rcases survivors_near sized' whole' start with ⟨all', -⟩ | ⟨q', n', -, -, -, -, spoiled⟩
      · rw [all, all']
      · have still := closed _ _ ((List.take_append_drop (n' + 1) stream).symm ▸ clean)
        exact absurd (still.symm.trans spoiled) (by simp)
    · rcases survivors_near sized' whole' start with ⟨-, clean⟩ | ⟨q', n', low', near', left', turn'⟩
      · have still := closed _ _ ((List.take_append_drop (n + 1) stream).symm ▸ clean)
        exact absurd (still.symm.trans turn.2) (by simp)
      · have one : n = n' :=
          Nat.le_antisymm (turn_unique closed turn.1 turn'.2) (turn_unique closed turn'.1 turn.2)
        subst one
        rw [left, left', settled low near turn.1 turn.2, settled low' near' turn.1 turn.2]

end Losing

end Shairplay.Lib.Segment

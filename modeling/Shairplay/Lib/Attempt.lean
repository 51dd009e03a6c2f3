import Mathlib.Data.List.Basic

/-!
# Computations that may panic

A panic stops a computation but does not undo it: what was written before stays
written, and a caller that catches the panic goes on with it. An `Attempt` therefore
returns its state in both cases. Indexing and slicing are the operations that panic.

A loop is followed by a family of states: if each round leads from one member of the
family to the next, the loop leads from the first to the last. Scratch buffers that
are reused are described by `overwrite`, which says how much of them is new.

`Guarded` compares a computation that checks something with one that does not: it says
exactly when the check panics, and that nothing else is different.
-/

namespace Shairplay.Lib

/-- A computation on a state that returns a value or panics. -/
def Attempt (σ α : Type) : Type := σ → Option α × σ

namespace Attempt

variable {σ τ ρ α β : Type}

instance : Monad (Attempt σ) where
  pure a := fun s => (some a, s)
  bind m f := fun s =>
    match m s with
    | (some a, t) => f a t
    | (none, t) => (none, t)

/-- Stop here. -/
def fail : Attempt σ α := fun s => (none, s)

/-- A step that cannot panic. -/
def total (f : σ → α × σ) : Attempt σ α := fun s => (some (f s).1, (f s).2)

/-- Read the state. -/
def view (f : σ → α) : Attempt σ α := fun s => (some (f s), s)

/-- Run a computation on a part of the state. -/
def focus (get : σ → τ) (put : τ → σ → σ) (m : Attempt τ α) : Attempt σ α :=
  fun s => ((m (get s)).1, put (m (get s)).2 s)

/-- `xs[i]` -/
def index (xs : List α) (i : Nat) : Attempt σ α := fun s => (xs[i]?, s)

/-- `&xs[start..stop]` -/
def slice (xs : List α) (start stop : Nat) : Attempt σ (List α) :=
  if start ≤ stop ∧ stop ≤ xs.length then pure ((xs.take stop).drop start) else fail

/-- `xs[i] = value` -/
def write (i : Nat) (value : α) : Attempt (List α) Unit :=
  fun xs => if i < xs.length then (some (), xs.set i value) else (none, xs)

/-- `xs[start..start + values.len()].copy_from_slice(values)` -/
def writeSlice (start : Nat) (values : List α) : Attempt (List α) Unit :=
  fun xs =>
    if start + values.length ≤ xs.length then
      (some (), xs.take start ++ values ++ xs.drop (start + values.length))
    else (none, xs)

/-- `for i in start..start + count`, with an accumulator. -/
def foldRange (body : Nat → β → Attempt σ β) : (start count : Nat) → β → Attempt σ β
  | _, 0, b => pure b
  | start, count + 1, b => body start b >>= foldRange body (start + 1) count

/-- `for i in 0..count` -/
def forRange (count : Nat) (body : Nat → Attempt σ Unit) : Attempt σ Unit :=
  foldRange (fun i _ => body i) 0 count ()

/-- `for (i, x) in xs.iter().enumerate()`, counted from `start`. -/
def forEnum (body : Nat → α → Attempt σ Unit) : (start : Nat) → List α → Attempt σ Unit
  | _, [] => pure ()
  | start, x :: xs => do
    body start x
    forEnum body (start + 1) xs

instance : LawfulMonad (Attempt σ) :=
  .mk' (Attempt σ)
    (fun m => funext fun s => by
      show (match m s with
        | (some a, t) => (some a, t)
        | (none, t) => (none, t)) = m s
      rcases m s with ⟨_ | a, t⟩ <;> rfl)
    (fun _ _ => rfl)
    (fun m f g => funext fun s => by
      show (match (match m s with
          | (some a, t) => f a t
          | (none, t) => (none, t)) with
        | (some b, t) => g b t
        | (none, t) => (none, t)) = match m s with
        | (some a, t) => (f a >>= g) t
        | (none, t) => (none, t)
      rcases m s with ⟨_ | a, t⟩ <;> rfl)

@[simp] theorem pure_run (a : α) (s : σ) : (pure a : Attempt σ α) s = (some a, s) := rfl

@[simp] theorem fail_run (s : σ) : (fail : Attempt σ α) s = (none, s) := rfl

@[simp] theorem total_run (f : σ → α × σ) (s : σ) : total f s = (some (f s).1, (f s).2) := rfl

@[simp] theorem view_run (f : σ → α) (s : σ) : view f s = (some (f s), s) := rfl

@[simp] theorem focus_run (get : σ → τ) (put : τ → σ → σ) (m : Attempt τ α) (s : σ) :
    focus get put m s = ((m (get s)).1, put (m (get s)).2 s) := rfl

theorem bind_run (m : Attempt σ α) (f : α → Attempt σ β) (s : σ) :
    (m >>= f) s = match m s with
      | (some a, t) => f a t
      | (none, t) => (none, t) := rfl

theorem bind_of_some {m : Attempt σ α} {s t : σ} {a : α} (h : m s = (some a, t))
    (f : α → Attempt σ β) : (m >>= f) s = f a t := by
  rw [bind_run, h]

theorem bind_of_none {m : Attempt σ α} {s : σ} (h : (m s).1 = none) (f : α → Attempt σ β) :
    (m >>= f) s = (none, (m s).2) := by
  rw [bind_run]
  split
  · rename_i run
    rw [run] at h
    cases h
  · rename_i run
    rw [run]

/-- A sequence whose last part panics does not return. -/
theorem bind_panics {f : α → Attempt σ β} (rest : ∀ a t, (f a t).1 = none) (m : Attempt σ α)
    (s : σ) : ((m >>= f) s).1 = none := by
  rw [bind_run]
  split
  · exact rest _ _
  · rfl

/-- A sequence of two that returned, inside a longer one. -/
theorem bind_bind_of_some {γ : Type} {m : Attempt σ α} {f : α → Attempt σ β} {s t : σ} {b : β}
    (h : (m >>= f) s = (some b, t)) (g : β → Attempt σ γ) :
    (m >>= fun a => f a >>= g) s = g b t := by
  rw [bind_run] at h ⊢
  split at h
  · exact bind_of_some h g
  · cases h

@[simp] theorem total_bind (g : σ → α × σ) (f : α → Attempt σ β) (s : σ) :
    (total g >>= f) s = f (g s).1 (g s).2 := rfl

@[simp] theorem view_bind (g : σ → α) (f : α → Attempt σ β) (s : σ) :
    (view g >>= f) s = f (g s) s := rfl

/-- If a sequence returns, its first part returned. -/
theorem isSome_bind {m : Attempt σ α} {f : α → Attempt σ β} {s : σ} (h : ((m >>= f) s).1.isSome) :
    ∃ a t, m s = (some a, t) ∧ (f a t).1.isSome := by
  rw [bind_run] at h
  split at h
  · rename_i a t run
    exact ⟨a, t, run, h⟩
  · simp at h

theorem slice_run {xs : List α} {start stop : Nat} (h : start ≤ stop) (hs : stop ≤ xs.length)
    (s : σ) : slice xs start stop s = (some ((xs.take stop).drop start), s) := by
  simp [slice, h, hs]

theorem isSome_slice {xs : List α} {start stop : Nat} {s : σ}
    (h : (slice xs start stop s).1.isSome) : start ≤ stop ∧ stop ≤ xs.length := by
  rw [slice] at h
  split at h
  · assumption
  · simp at h

section Loops

variable {body : Nat → β → Attempt σ β}

/-- A loop follows a family of states and accumulators that each round advances. -/
theorem foldRange_follows (stage : Nat → σ) (acc : Nat → β) {start count : Nat}
    (round : ∀ i, start ≤ i → i < start + count →
      body i (acc i) (stage i) = (some (acc (i + 1)), stage (i + 1))) :
    foldRange body start count (acc start) (stage start) =
      (some (acc (start + count)), stage (start + count)) := by
  induction count generalizing start with
  | zero => rfl
  | succ count ih =>
    rw [show start + (count + 1) = start + 1 + count by omega, foldRange,
      bind_of_some (round start (Nat.le_refl _) (by omega))]
    apply ih
    intro i low high
    exact round i (by omega) (by omega)

end Loops

theorem forRange_append {body : Nat → Attempt σ Unit} (stage : List β → σ) (values : List β)
    (round : ∀ done v, done ++ [v] <+: values →
      body done.length (stage done) = (some (), stage (done ++ [v]))) :
    forRange values.length body (stage []) = (some (), stage values) := by
  have follows : foldRange (fun i (_ : Unit) => body i) 0 values.length ()
      (stage (values.take 0)) = (some (), stage (values.take (0 + values.length))) := by
    apply foldRange_follows (fun i => stage (values.take i)) fun _ => ()
    intro i _ high
    have high : i < values.length := by simpa using high
    have taken : values.take i ++ [values[i]] = values.take (i + 1) := by simp
    have next := round (values.take i) values[i] (taken ▸ List.take_prefix _ _)
    rwa [List.length_take_of_le (Nat.le_of_lt high), taken] at next
  simpa [forRange] using follows

/-- The values a reader yields when it is used `count` times, and the reader after. -/
def produce (step : ρ → β × ρ) : Nat → ρ → List β × ρ
  | 0, r => ([], r)
  | count + 1, r => ((step r).1 :: (produce step count (step r).2).1,
      (produce step count (step r).2).2)

@[simp] theorem length_produce (step : ρ → β × ρ) (count : Nat) (r : ρ) :
    (produce step count r).1.length = count := by
  induction count generalizing r with
  | zero => rfl
  | succ count ih => simp [produce, ih]

/-- A loop whose rounds append what a reader yields. -/
theorem forRange_produce {body : Nat → Attempt σ Unit} {step : ρ → β × ρ}
    (stage : List β → ρ → σ) {count : Nat}
    (round : ∀ done r, done.length < count →
      body done.length (stage done r) = (some (), stage (done ++ [(step r).1]) (step r).2))
    (r : ρ) :
    forRange count body (stage [] r) =
      (some (), stage (produce step count r).1 (produce step count r).2) := by
  suffices general : ∀ count' (done : List β) r, done.length + count' ≤ count →
      foldRange (fun i (_ : Unit) => body i) done.length count' () (stage done r) =
        (some (), stage (done ++ (produce step count' r).1) (produce step count' r).2) by
    simpa [forRange] using general count [] r (by simp)
  intro count'
  induction count' with
  | zero => intro done r _; simp [foldRange, produce]
  | succ count' ih =>
    intro done r room
    have next := ih (done ++ [(step r).1]) (step r).2 (by simp; omega)
    rw [foldRange, bind_of_some (round done r (by omega))]
    simpa [produce] using next

/-- The computation returns, with a result and a state that satisfy `Q`. -/
def Ensures (m : Attempt σ α) (s : σ) (Q : α → σ → Prop) : Prop :=
  ∃ a t, m s = (some a, t) ∧ Q a t

namespace Ensures

theorem of_eq {m : Attempt σ α} {s t : σ} {a : α} {Q : α → σ → Prop} (run : m s = (some a, t))
    (post : Q a t) : Ensures m s Q :=
  ⟨a, t, run, post⟩

protected theorem bind {m : Attempt σ α} {f : α → Attempt σ β} {s : σ} {R : α → σ → Prop}
    {Q : β → σ → Prop} (first : Ensures m s R) (rest : ∀ a t, R a t → Ensures (f a) t Q) :
    Ensures (m >>= f) s Q := by
  obtain ⟨a, t, run, mid⟩ := first
  obtain ⟨b, u, run', post⟩ := rest a t mid
  exact ⟨b, u, by rw [bind_of_some run, run'], post⟩

theorem mono {m : Attempt σ α} {s : σ} {Q R : α → σ → Prop} (h : Ensures m s Q)
    (weaken : ∀ a t, Q a t → R a t) : Ensures m s R := by
  obtain ⟨a, t, run, post⟩ := h
  exact ⟨a, t, run, weaken a t post⟩

end Ensures

/-- The property survives the computation, also where it panics. -/
def Keeps (P : σ → Prop) (m : Attempt σ α) : Prop := ∀ s, P s → P (m s).2

namespace Keeps

variable {P : σ → Prop}

protected theorem pure (a : α) : Keeps P (pure a : Attempt σ α) := fun _ h => h

protected theorem fail : Keeps P (fail : Attempt σ α) := fun _ h => h

theorem view (f : σ → α) : Keeps P (view f) := fun _ h => h

theorem index (xs : List α) (i : Nat) : Keeps P (index xs i) := fun _ h => h

theorem slice (xs : List α) (start stop : Nat) : Keeps P (slice xs start stop) := by
  unfold Attempt.slice
  split
  · exact .pure _
  · exact .fail

theorem total {f : σ → α × σ} (h : ∀ s, P s → P (f s).2) : Keeps P (total f) := h

protected theorem bind {m : Attempt σ α} {f : α → Attempt σ β} (first : Keeps P m)
    (rest : ∀ a, Keeps P (f a)) : Keeps P (m >>= f) := by
  intro s h
  have mid := first s h
  rw [bind_run]
  split
  · rename_i a t run
    rw [run] at mid
    exact rest a t mid
  · rename_i t run
    rw [run] at mid
    exact mid

theorem foldRange {body : Nat → β → Attempt σ β} (round : ∀ i b, Keeps P (body i b))
    (start count : Nat) (b : β) : Keeps P (foldRange body start count b) := by
  induction count generalizing start b with
  | zero => exact .pure b
  | succ count ih => exact .bind (round start b) fun c => ih (start + 1) c

theorem forRange {body : Nat → Attempt σ Unit} (round : ∀ i, Keeps P (body i)) (count : Nat) :
    Keeps P (forRange count body) :=
  .foldRange (fun i _ => round i) 0 count ()

theorem forEnum {body : Nat → α → Attempt σ Unit} (round : ∀ i x, Keeps P (body i x))
    (start : Nat) (xs : List α) : Keeps P (forEnum body start xs) := by
  induction xs generalizing start with
  | nil => exact .pure ()
  | cons x xs ih => exact .bind (round start x) fun _ => ih (start + 1)

theorem focus {get : σ → τ} {put : τ → σ → σ} {Q : τ → Prop} {m : Attempt τ α}
    (part : Keeps Q m) (enter : ∀ s, P s → Q (get s)) (leave : ∀ s t, P s → Q t → P (put t s)) :
    Keeps P (focus get put m) :=
  fun s h => leave s _ h (part _ (enter s h))

theorem write {n : Nat} (i : Nat) (value : α) :
    Keeps (fun xs : List α => xs.length = n) (write i value) := by
  intro xs h
  rw [Attempt.write]
  split
  · simpa using h
  · exact h

theorem writeSlice {n : Nat} (start : Nat) (values : List α) :
    Keeps (fun xs : List α => xs.length = n) (writeSlice start values) := by
  intro xs h
  rw [Attempt.writeSlice]
  split
  · simp only [List.length_append, List.length_take, List.length_drop]
    omega
  · exact h

end Keeps

/-- Under the condition one computation runs as the other; without it, it panics. -/
def Guarded (p : Prop) (c m : Attempt σ α) (s : σ) : Prop :=
  (p → c s = m s) ∧ (¬ p → (c s).1 = none)

namespace Guarded

variable {p q : Prop} {c m : Attempt σ α} {s : σ}

theorem of_eq (same : c s = m s) : Guarded True c m s :=
  ⟨fun _ => same, fun no => absurd trivial no⟩

theorem congr (h : Guarded p c m s) (same : p ↔ q) : Guarded q c m s :=
  ⟨fun holds => h.1 (same.mpr holds), fun fails => h.2 fun holds => fails (same.mp holds)⟩

protected theorem ite {branch : Prop} [Decidable branch] {c' m' : Attempt σ α}
    (pos : branch → Guarded p c m s) (neg : ¬ branch → Guarded p c' m' s) :
    Guarded p (if branch then c else c') (if branch then m else m') s := by
  split
  · exact pos ‹_›
  · exact neg ‹_›

/-- If the other computation panics in the first part, both do, whatever the rest needs. -/
protected theorem bind {f g : α → Attempt σ β} (first : Guarded p c m s)
    (rest : ∀ a t, m s = (some a, t) → Guarded q (f a) (g a) t) :
    Guarded (p ∧ q) (c >>= f) (m >>= g) s := by
  by_cases holds : p
  · have same := first.1 holds
    rcases run : m s with ⟨_ | a, t⟩
    · have panics : (m s).1 = none := congrArg Prod.fst run
      have panics' : (c s).1 = none := (congrArg Prod.fst same).trans panics
      refine ⟨fun _ => ?_, fun _ => ?_⟩
      · rw [bind_of_none panics', bind_of_none panics, same]
      · rw [bind_of_none panics']
    · have follows := rest a t run
      refine ⟨fun both => ?_, fun misses => ?_⟩
      · rw [bind_of_some (same.trans run), bind_of_some run]
        exact follows.1 both.2
      · rw [bind_of_some (same.trans run)]
        exact follows.2 fun holds' => misses ⟨holds, holds'⟩
  · refine ⟨fun both => absurd both.1 holds, fun _ => ?_⟩
    rw [bind_of_none (first.2 holds)]

/-- Only the rest needs the condition. -/
theorem bind_same {f g : α → Attempt σ β} (same : c s = m s)
    (rest : ∀ a t, m s = (some a, t) → Guarded q (f a) (g a) t) : Guarded q (c >>= f) (m >>= g) s :=
  (Guarded.bind (of_eq same) rest).congr (iff_of_eq (true_and q))

/-- Only the first part needs the condition, and the rest may use it. -/
theorem bind_rest {f g : α → Attempt σ β} (first : Guarded p c m s)
    (rest : p → ∀ a t, m s = (some a, t) → f a t = g a t) : Guarded p (c >>= f) (m >>= g) s := by
  refine ⟨fun holds => ?_, fun fails => ?_⟩
  · exact (bind_same (first.1 holds) fun a t run => of_eq (rest holds a t run)).1 trivial
  · rw [bind_of_none (first.2 fails)]

/-- A value that the other computation has at once. -/
theorem value {a : α} {f : α → Attempt σ β} {m : Attempt σ β} (first : Guarded p c (pure a) s)
    (rest : Guarded q (f a) m s) : Guarded (p ∧ q) (c >>= f) m s := by
  refine Guarded.bind (g := fun _ => m) first ?_
  intro b t run
  cases run
  exact rest

theorem value_same {a : α} {f : α → Attempt σ β} {m : Attempt σ β}
    (first : Guarded p c (pure a) s) (rest : f a s = m s) : Guarded p (c >>= f) m s :=
  (first.value (of_eq rest)).congr (iff_of_eq (and_true p))

/-- Both computations go on from another state. -/
theorem of_run {c' m' : Attempt σ α} {t : σ} (left : c s = c' t) (right : m s = m' t)
    (rest : Guarded p c' m' t) : Guarded p c m s := by
  rw [Guarded, left, right]
  exact rest

theorem focus {get : τ → σ} {put : σ → τ → τ} {t : τ} (part : Guarded p c m (get t)) :
    Guarded p (focus get put c) (focus get put m) t := by
  refine ⟨fun holds => ?_, fun fails => part.2 fails⟩
  rw [focus_run, focus_run, part.1 holds]

/-- A loop needs the condition if it has a round. -/
theorem foldRange {P : σ → Prop} {f g : Nat → β → Attempt σ β} (keeps : ∀ i b, Keeps P (g i b))
    (round : ∀ i b t, P t → Guarded p (f i b) (g i b) t) (start count : Nat) (b : β) (h : P s) :
    Guarded (count = 0 ∨ p) (foldRange f start count b) (foldRange g start count b) s := by
  induction count generalizing start b s with
  | zero => exact (of_eq rfl).congr (by simp)
  | succ count ih =>
    have all : Guarded (p ∧ (count = 0 ∨ p)) (Attempt.foldRange f start (count + 1) b)
        (Attempt.foldRange g start (count + 1) b) s := by
      refine Guarded.bind (round start b s h) ?_
      intro c t run
      have kept := keeps start b s h
      rw [run] at kept
      exact ih (start + 1) c kept
    exact all.congr (by tauto)

theorem forRange {P : σ → Prop} {f g : Nat → Attempt σ Unit} (keeps : ∀ i, Keeps P (g i))
    (round : ∀ i t, P t → Guarded p (f i) (g i) t) (count : Nat) (h : P s) :
    Guarded (count = 0 ∨ p) (forRange count f) (forRange count g) s :=
  foldRange (fun i _ => keeps i) (fun i _ => round i) 0 count () h

/-- A loop that runs needs what its rounds need. -/
theorem forRange_of_pos {f g : Nat → Attempt σ Unit} (round : ∀ i t, Guarded p (f i) (g i) t)
    {count : Nat} (runs : 0 < count) :
    Guarded p (Attempt.forRange count f) (Attempt.forRange count g) s := by
  have loop := forRange (P := fun _ => True) (s := s) (fun _ _ _ => trivial)
    (fun i t _ => round i t) count trivial
  exact loop.congr (or_iff_right (Nat.ne_of_gt runs))

theorem forEnum {f g : Nat → α → Attempt σ Unit} (round : ∀ i x t, Guarded p (f i x) (g i x) t)
    (start : Nat) (xs : List α) :
    Guarded (xs = [] ∨ p) (forEnum f start xs) (forEnum g start xs) s := by
  induction xs generalizing start s with
  | nil => exact (of_eq rfl).congr (by simp)
  | cons x xs ih =>
    have all : Guarded (p ∧ (xs = [] ∨ p)) (Attempt.forEnum f start (x :: xs))
        (Attempt.forEnum g start (x :: xs)) s :=
      Guarded.bind (round start x s) fun _ t _ => ih (start + 1)
    exact all.congr (by simp; tauto)

end Guarded

end Attempt

section Overwrite

variable {α : Type}

/-- A buffer whose first elements have been written anew. -/
def overwrite (values buffer : List α) : List α := values ++ buffer.drop values.length

@[simp] theorem overwrite_nil (buffer : List α) : overwrite [] buffer = buffer := rfl

theorem length_overwrite {values buffer : List α} (room : values.length ≤ buffer.length) :
    (overwrite values buffer).length = buffer.length := by
  simp only [overwrite, List.length_append, List.length_drop]
  omega

/-- The written part does not depend on what the buffer held before. -/
theorem take_overwrite (values buffer : List α) :
    (overwrite values buffer).take values.length = values := by
  simp [overwrite]

theorem prefix_overwrite (values buffer : List α) : values <+: overwrite values buffer :=
  ⟨_, rfl⟩

theorem getElem?_overwrite {values buffer : List α} {i : Nat} (h : i < values.length) :
    (overwrite values buffer)[i]? = values[i]? := by
  rw [overwrite, List.getElem?_append_left h]

/-- Writing the next element extends the written part. -/
theorem write_overwrite {values buffer : List α} (value : α)
    (room : values.length < buffer.length) :
    Attempt.write values.length value (overwrite values buffer) =
      (some (), overwrite (values ++ [value]) buffer) := by
  have length : (overwrite values buffer).length = buffer.length :=
    length_overwrite (Nat.le_of_lt room)
  rw [Attempt.write, if_pos (by omega)]
  congr 1
  simp only [overwrite, List.set_append_right _ _ (Nat.le_refl _), Nat.sub_self, List.append_assoc,
    List.length_append, List.length_singleton]
  rw [← List.getElem_cons_drop room]
  rfl

/-- Writing the next slice extends the written part. -/
theorem writeSlice_overwrite {values buffer : List α} (more : List α)
    (room : values.length + more.length ≤ buffer.length) :
    Attempt.writeSlice values.length more (overwrite values buffer) =
      (some (), overwrite (values ++ more) buffer) := by
  have length : (overwrite values buffer).length = buffer.length :=
    length_overwrite (by omega)
  rw [Attempt.writeSlice, if_pos (by omega), take_overwrite]
  congr 1
  simp [overwrite, List.drop_append, List.drop_drop]

end Overwrite

end Shairplay.Lib

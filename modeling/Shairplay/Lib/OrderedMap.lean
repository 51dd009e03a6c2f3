import Mathlib.Data.List.Basic

/-!
# Removing keys from an ordered map

A loop that collects keys of a map and then removes them one after the other leaves the
entries whose keys it did not collect.
-/

namespace Shairplay.Lib.OrderedMap

variable {α β : Type*} {cmp : α → α → Ordering}

/-- Remove some keys one after the other. -/
def eraseAll (m : Std.TreeMap α β cmp) (keys : List α) : Std.TreeMap α β cmp :=
  keys.foldl (fun m key => m.erase key) m

variable [Std.TransCmp cmp] [Std.LawfulEqCmp cmp] {m : Std.TreeMap α β cmp} {k : α} {v : β}

theorem getElem?_eraseAll [DecidableEq α] (keys : List α) :
    (eraseAll m keys)[k]? = if k ∈ keys then none else m[k]? := by
  induction keys generalizing m with
  | nil => simp [eraseAll]
  | cons key keys ih =>
    have first : eraseAll m (key :: keys) = eraseAll (m.erase key) keys := rfl
    rw [first, ih, Std.TreeMap.getElem?_erase]
    by_cases later : k ∈ keys
    · simp [later]
    · by_cases same : key = k
      · simp [same]
      · have other : ¬ k = key := fun eq => same eq.symm
        simp [later, same, other]

/-- What is left was there before. -/
theorem getElem?_of_eraseAll {keys : List α} (left : (eraseAll m keys)[k]? = some v) :
    m[k]? = some v := by
  classical
  rw [getElem?_eraseAll] at left
  split at left
  · cases left
  · exact left

omit [Std.LawfulEqCmp cmp] in
theorem not_mem_of_getElem?_eq_none (absent : m[k]? = none) : k ∉ m := by
  rw [Std.TreeMap.mem_iff_isSome_getElem?, absent]
  exact Bool.false_ne_true

/-- What is gone was removed. -/
theorem mem_of_getElem?_eraseAll {keys : List α} (there : k ∈ m)
    (gone : (eraseAll m keys)[k]? = none) : k ∈ keys := by
  classical
  by_contra kept
  rw [getElem?_eraseAll, if_neg kept] at gone
  exact not_mem_of_getElem?_eq_none gone there

/-- Removing the keys that satisfy a condition. -/
theorem getElem?_eraseAll_filter [DecidableEq α] (p : α → Bool) :
    (eraseAll m (m.keys.filter p))[k]? = if p k then none else m[k]? := by
  rw [getElem?_eraseAll]
  by_cases there : k ∈ m
  · simp [there]
  · simp [Std.TreeMap.getElem?_eq_none there]

end Shairplay.Lib.OrderedMap

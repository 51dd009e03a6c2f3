import Mathlib.Data.List.Nodup
import Mathlib.Data.List.Range
import Mathlib.Logic.Function.Basic

/-!
# Custody of numbered items

Items are put into a store under keys, leave it again for one reason or another, and some of
those that left are used later. A store of this kind has no memory of its own, and two items
may be equal, so a record is kept beside it: every item gets a ticket with a number of its own,
and a log says which ticket entered, which left and why, and which was used.

Whatever sequence of movements is recorded, the log is in order (`Conserved.step`): each ticket
is in the store and has never left, or it has left for exactly one reason; and it is used at
most once, and only if it was taken.
-/

namespace Shairplay.Lib.Custody

/-- An item with its number and the key that it was put under. -/
structure Ticket (κ φ : Type*) where
  id : Nat
  key : κ
  item : φ
  deriving DecidableEq

/-- Where the tickets are: in the store, or taken and not used yet. -/
structure Store (κ φ : Type*) where
  held : κ → Option (Ticket κ φ)
  batch : List (Ticket κ φ)
  next : Nat

/-- One line of the log. -/
inductive Entry (κ φ R : Type*)
  | entered (ticket : Ticket κ φ)
  | left (ticket : Ticket κ φ) (reason : R)
  | used (ticket : Ticket κ φ)
  deriving DecidableEq

/-- A movement of items. -/
inductive Move (κ φ R : Type*)
  | idle
  /-- Put an item under a key; what is there leaves for the given reason. -/
  | insert (key : κ) (item : φ) (reason : R)
  /-- What is under the keys leaves. -/
  | remove (keys : List κ) (reason : R)
  /-- What is under the keys leaves, and is to be used. -/
  | take (keys : List κ) (reason : R)
  /-- Use the next item that was taken. -/
  | use
  /-- Forget what was taken. -/
  | discard

variable {κ φ R : Type*}

def entered (log : List (Entry κ φ R)) : List (Ticket κ φ) :=
  log.filterMap fun
    | .entered ticket => some ticket
    | _ => none

def used (log : List (Entry κ φ R)) : List (Ticket κ φ) :=
  log.filterMap fun
    | .used ticket => some ticket
    | _ => none

def reasons (id : Nat) (log : List (Entry κ φ R)) : List R :=
  log.filterMap fun
    | .left ticket reason => if ticket.id = id then some reason else none
    | _ => none

@[simp] theorem entered_append (log new : List (Entry κ φ R)) :
    entered (log ++ new) = entered log ++ entered new := List.filterMap_append

@[simp] theorem used_append (log new : List (Entry κ φ R)) :
    used (log ++ new) = used log ++ used new := List.filterMap_append

@[simp] theorem reasons_append (id : Nat) (log new : List (Entry κ φ R)) :
    reasons id (log ++ new) = reasons id log ++ reasons id new := List.filterMap_append

/-- The lines for tickets that leave together. -/
def departures (tickets : List (Ticket κ φ)) (reason : R) : List (Entry κ φ R) :=
  tickets.map fun ticket => .left ticket reason

theorem reason_of_mem_departures {ticket : Ticket κ φ} {tickets : List (Ticket κ φ)}
    {reason given : R} (mem : .left ticket reason ∈ departures tickets given) : reason = given := by
  obtain ⟨_, _, same⟩ := List.mem_map.mp mem
  cases same
  rfl

@[simp] theorem entered_departures (tickets : List (Ticket κ φ)) (reason : R) :
    entered (departures tickets reason) = [] := by
  induction tickets with
  | nil => rfl
  | cons ticket tickets ih => exact ih

@[simp] theorem used_departures (tickets : List (Ticket κ φ)) (reason : R) :
    used (departures tickets reason) = [] := by
  induction tickets with
  | nil => rfl
  | cons ticket tickets ih => exact ih

@[simp] theorem used_entered (ticket : Ticket κ φ) :
    used [(.entered ticket : Entry κ φ R)] = [] := rfl

theorem reasons_departures_of_not_mem {id : Nat} {tickets : List (Ticket κ φ)} (reason : R)
    (other : id ∉ tickets.map Ticket.id) : reasons id (departures tickets reason) = [] := by
  induction tickets with
  | nil => rfl
  | cons ticket tickets ih =>
    rw [List.map_cons, List.mem_cons, not_or] at other
    have rest : reasons id (departures (ticket :: tickets) reason) =
        reasons id (departures tickets reason) := by
      rw [departures, List.map_cons, reasons, List.filterMap_cons_none]
      · rfl
      · exact if_neg fun same => other.1 same.symm
    rw [rest]
    exact ih other.2

theorem reasons_departures_of_mem {ticket : Ticket κ φ} {tickets : List (Ticket κ φ)} (reason : R)
    (mem : ticket ∈ tickets) (nodup : (tickets.map Ticket.id).Nodup) :
    reasons ticket.id (departures tickets reason) = [reason] := by
  induction tickets with
  | nil => cases mem
  | cons first tickets ih =>
    rw [List.map_cons, List.nodup_cons] at nodup
    have split : reasons ticket.id (departures (first :: tickets) reason) =
        (if first.id = ticket.id then [reason] else []) ++
          reasons ticket.id (departures tickets reason) := by
      rw [departures, List.map_cons, reasons, List.filterMap_cons]
      split <;> simp_all [reasons, departures]
    rw [split]
    rcases List.mem_cons.mp mem with rfl | later
    · rw [if_pos rfl, reasons_departures_of_not_mem reason nodup.1, List.append_nil]
    · have other : first.id ≠ ticket.id := fun same =>
        nodup.1 (same ▸ List.mem_map_of_mem later)
      rw [if_neg other, List.nil_append]
      exact ih later nodup.2

namespace Store

/-- No items yet. -/
def empty : Store κ φ where
  held := fun _ => none
  batch := []
  next := 0

def under (s : Store κ φ) (keys : List κ) : List (Ticket κ φ) := keys.filterMap s.held

/-- The tickets under the keys of some entries, if these are what is there. -/
theorem map_under {s : Store κ φ} {entries : List (κ × φ)}
    (there : ∀ entry ∈ entries, ∃ ticket, s.held entry.1 = some ticket ∧
      ticket.key = entry.1 ∧ ticket.item = entry.2) :
    (s.under (entries.map Prod.fst)).map (fun ticket => (ticket.key, ticket.item)) = entries := by
  induction entries with
  | nil => rfl
  | cons entry entries ih =>
    obtain ⟨ticket, held, key, item⟩ := there entry List.mem_cons_self
    have first : s.under ((entry :: entries).map Prod.fst) =
        ticket :: s.under (entries.map Prod.fst) := by
      rw [under, List.map_cons, List.filterMap_cons_some held]
      rfl
    rw [first, List.map_cons, key, item,
      ih fun other mem => there other (List.mem_cons_of_mem _ mem)]

variable [DecidableEq κ]

def without (s : Store κ φ) (keys : List κ) : Store κ φ :=
  { s with held := fun key => if key ∈ keys then none else s.held key }

def enter (s : Store κ φ) (key : κ) (item : φ) : Store κ φ :=
  { s with held := Function.update s.held key (some ⟨s.next, key, item⟩), next := s.next + 1 }

theorem held_without (s : Store κ φ) (keys : List κ) (key : κ) :
    (s.without keys).held key = if key ∈ keys then none else s.held key := rfl

theorem held_enter (s : Store κ φ) (key : κ) (item : φ) (other : κ) :
    (s.enter key item).held other =
      if other = key then some ⟨s.next, key, item⟩ else s.held other :=
  Function.update_apply _ _ _ _

/-- Record a movement. -/
def step (s : Store κ φ) : Move κ φ R → Store κ φ × List (Entry κ φ R)
  | .idle => (s, [])
  | .insert key item reason =>
    ((s.without [key]).enter key item,
      departures (s.under [key]) reason ++ [.entered ⟨s.next, key, item⟩])
  | .remove keys reason => (s.without keys, departures (s.under keys) reason)
  | .take keys reason =>
    ({ s.without keys with batch := s.under keys }, departures (s.under keys) reason)
  | .use => ({ s with batch := s.batch.tail }, s.batch.head?.toList.map .used)
  | .discard => ({ s with batch := [] }, [])

end Store

variable (covers : R → κ → Prop) (takes : R → Prop)

/-- A movement lists each key once and has a reason that applies. -/
def Move.Valid : Move κ φ R → Prop
  | .insert key _ reason => covers reason key
  | .remove keys reason => keys.Nodup ∧ ∀ key ∈ keys, covers reason key
  | .take keys reason => keys.Nodup ∧ (∀ key ∈ keys, covers reason key) ∧ takes reason
  | _ => True

/-- The log is in order. -/
structure Conserved (s : Store κ φ) (log : List (Entry κ φ R)) : Prop where
  /-- The tickets are numbered. -/
  numbered : (entered log).map Ticket.id = List.range s.next
  /-- A ticket in the store has entered under its key and not left. -/
  held : ∀ key ticket, s.held key = some ticket →
    ticket.key = key ∧ ticket ∈ entered log ∧ reasons ticket.id log = []
  /-- Every other ticket has left for exactly one reason, which applies to its key. -/
  gone : ∀ ticket ∈ entered log, s.held ticket.key = some ticket ∨
    ∃ reason, reasons ticket.id log = [reason] ∧ covers reason ticket.key
  /-- Only numbers that were given out have left. -/
  known : ∀ id, reasons id log ≠ [] → id < s.next
  /-- What is used was taken. -/
  taken : ∀ ticket ∈ used log ++ s.batch, ticket ∈ entered log ∧
    ∃ reason, reasons ticket.id log = [reason] ∧ takes reason
  /-- Nothing is used twice. -/
  once : ((used log ++ s.batch).map Ticket.id).Nodup

namespace Conserved

variable {covers takes} {s : Store κ φ} {log : List (Entry κ φ R)}

theorem empty : Conserved covers takes (Store.empty : Store κ φ) ([] : List (Entry κ φ R)) where
  numbered := rfl
  held := fun _ _ held => nomatch held
  gone := fun _ mem => nomatch mem
  known := fun _ left => absurd rfl left
  taken := fun _ mem => nomatch mem
  once := List.nodup_nil

variable (conserved : Conserved covers takes s log)
include conserved

/-- Tickets have numbers of their own. -/
theorem eq_of_id {ticket other : Ticket κ φ} (mem : ticket ∈ entered log)
    (mem' : other ∈ entered log) (same : ticket.id = other.id) : ticket = other := by
  have nodup : ((entered log).map Ticket.id).Nodup := by
    rw [conserved.numbered]
    exact List.nodup_range
  exact List.inj_on_of_nodup_map nodup mem mem' same

theorem of_mem_under {keys : List κ} {ticket : Ticket κ φ} (mem : ticket ∈ s.under keys) :
    ticket.key ∈ keys ∧ s.held ticket.key = some ticket ∧ ticket ∈ entered log ∧
      reasons ticket.id log = [] := by
  obtain ⟨key, listed, held⟩ := List.mem_filterMap.mp mem
  obtain ⟨rfl, enters, stays⟩ := conserved.held key ticket held
  exact ⟨listed, held, enters, stays⟩

/-- Different keys hold different numbers. -/
theorem nodup_under {keys : List κ} (nodup : keys.Nodup) :
    ((s.under keys).map Ticket.id).Nodup := by
  have different : (s.under keys).Nodup := by
    apply nodup.filterMap
    intro key key' ticket held held'
    rw [← (conserved.held key ticket held).1, ← (conserved.held key' ticket held').1]
  apply different.map_on
  intro ticket mem other mem' same
  obtain ⟨-, -, enters, -⟩ := conserved.of_mem_under mem
  obtain ⟨-, -, enters', -⟩ := conserved.of_mem_under mem'
  exact conserved.eq_of_id enters enters' same

/-- A ticket that has left before does not leave again. -/
theorem not_mem_under (keys : List κ) {id : Nat} (left : reasons id log ≠ []) :
    id ∉ (s.under keys).map Ticket.id := by
  intro mem
  obtain ⟨ticket, there, rfl⟩ := List.mem_map.mp mem
  exact left (conserved.of_mem_under there).2.2.2

/-- What was taken may be used or forgotten. -/
theorem of_used {s' : Store κ φ}
    {log' : List (Entry κ φ R)} (held : s'.held = s.held) (next : s'.next = s.next)
    (enters : entered log' = entered log) (leaves : ∀ id, reasons id log' = reasons id log)
    (uses : (used log' ++ s'.batch).Sublist (used log ++ s.batch)) :
    Conserved covers takes s' log' where
  numbered := by
    rw [enters, next]
    exact conserved.numbered
  held := by
    simpa only [held, enters, leaves] using conserved.held
  gone := by
    simpa only [held, enters, leaves] using conserved.gone
  known := by
    simpa only [next, leaves] using conserved.known
  taken := by
    intro ticket mem
    simpa only [enters, leaves] using conserved.taken ticket (uses.subset mem)
  once := conserved.once.sublist (uses.map Ticket.id)

variable [DecidableEq κ]

/-- Tickets leave. -/
theorem without {keys : List κ} (nodup : keys.Nodup)
    {reason : R} (applies : ∀ key ∈ keys, covers reason key) :
    Conserved covers takes (s.without keys) (log ++ departures (s.under keys) reason) where
  numbered := by
    rw [entered_append, entered_departures, List.append_nil]
    exact conserved.numbered
  held := by
    intro key ticket held
    rw [Store.held_without] at held
    split at held
    · cases held
    · rename_i unlisted
      obtain ⟨rfl, enters, stays⟩ := conserved.held key ticket held
      refine ⟨rfl, by simpa using enters, ?_⟩
      rw [reasons_append, stays, List.nil_append]
      apply reasons_departures_of_not_mem
      intro mem
      obtain ⟨other, there, same⟩ := List.mem_map.mp mem
      obtain ⟨listed, -, enters', -⟩ := conserved.of_mem_under there
      rw [conserved.eq_of_id enters' enters same] at listed
      exact unlisted listed
  gone := by
    intro ticket mem
    rw [entered_append, entered_departures, List.append_nil] at mem
    rw [reasons_append]
    obtain held | ⟨old, left, applied⟩ := conserved.gone ticket mem
    · by_cases listed : ticket.key ∈ keys
      · have there : ticket ∈ s.under keys := List.mem_filterMap.mpr ⟨_, listed, held⟩
        right
        refine ⟨reason, ?_, applies _ listed⟩
        rw [(conserved.of_mem_under there).2.2.2, List.nil_append]
        exact reasons_departures_of_mem reason there (conserved.nodup_under nodup)
      · left
        rw [Store.held_without, if_neg listed]
        exact held
    · right
      refine ⟨old, ?_, applied⟩
      rw [left,
        reasons_departures_of_not_mem reason (conserved.not_mem_under keys (by simp [left]))]
      rfl
  known := by
    intro id left
    by_cases mem : id ∈ (s.under keys).map Ticket.id
    · obtain ⟨ticket, there, rfl⟩ := List.mem_map.mp mem
      have number := List.mem_map_of_mem (f := Ticket.id) (conserved.of_mem_under there).2.2.1
      rw [conserved.numbered] at number
      exact List.mem_range.mp number
    · rw [reasons_append, reasons_departures_of_not_mem reason mem, List.append_nil] at left
      exact conserved.known id left
  taken := by
    intro ticket mem
    rw [used_append, used_departures, List.append_nil] at mem
    obtain ⟨enters, old, left, takes⟩ := conserved.taken ticket mem
    refine ⟨by simpa using enters, old, ?_, takes⟩
    rw [reasons_append, left,
      reasons_departures_of_not_mem reason (conserved.not_mem_under keys (by simp [left]))]
    rfl
  once := by
    rw [used_append, used_departures, List.append_nil]
    exact conserved.once

/-- Tickets leave and are to be used. -/
theorem take {keys : List κ} (nodup : keys.Nodup)
    {reason : R} (applies : ∀ key ∈ keys, covers reason key) (isTaking : takes reason) :
    Conserved covers takes { s.without keys with batch := s.under keys }
      (log ++ departures (s.under keys) reason) := by
  have left := conserved.without nodup applies
  refine { left with taken := ?_, once := ?_ }
  · intro ticket mem
    rcases List.mem_append.mp mem with old | new
    · exact left.taken ticket (List.mem_append_left _ old)
    · obtain ⟨-, -, enters, stays⟩ := conserved.of_mem_under new
      refine ⟨by simpa using enters, reason, ?_, isTaking⟩
      rw [reasons_append, stays, List.nil_append]
      exact reasons_departures_of_mem reason new (conserved.nodup_under nodup)
  · rw [used_append, used_departures, List.append_nil, List.map_append]
    have once := conserved.once
    rw [List.map_append] at once
    refine List.Nodup.append (List.Nodup.of_append_left once) (conserved.nodup_under nodup) ?_
    intro id before now
    obtain ⟨ticket, mem, rfl⟩ := List.mem_map.mp before
    obtain ⟨-, old, left, -⟩ := conserved.taken ticket (List.mem_append_left _ mem)
    exact conserved.not_mem_under keys (by simp [left]) now

theorem enter {key : κ} (free : s.held key = none) (item : φ) :
    Conserved covers takes (s.enter key item) (log ++ [.entered ⟨s.next, key, item⟩]) where
  numbered := by
    rw [entered_append, List.map_append, conserved.numbered]
    exact List.range_succ.symm
  held := by
    intro key' ticket held
    rw [reasons_append, entered_append]
    rw [Store.held_enter] at held
    by_cases same : key' = key
    · subst same
      rw [if_pos rfl] at held
      cases held
      refine ⟨rfl, List.mem_append_right _ (List.mem_singleton_self _), ?_⟩
      have fresh : reasons s.next log = [] := by
        by_contra left
        exact lt_irrefl _ (conserved.known _ left)
      rw [fresh]
      rfl
    · rw [if_neg same] at held
      obtain ⟨own, enters, stays⟩ := conserved.held key' ticket held
      refine ⟨own, List.mem_append_left _ enters, ?_⟩
      rw [stays]
      rfl
  gone := by
    intro ticket mem
    rw [entered_append] at mem
    rw [reasons_append, Store.held_enter]
    rcases List.mem_append.mp mem with old | new
    · obtain held | ⟨reason, left, applied⟩ := conserved.gone ticket old
      · left
        have other : ticket.key ≠ key := by
          rintro rfl
          cases held.symm.trans free
        rw [if_neg other]
        exact held
      · right
        refine ⟨reason, ?_, applied⟩
        rw [left]
        rfl
    · cases List.mem_singleton.mp new
      exact .inl (if_pos rfl)
  known := by
    intro id left
    rw [reasons_append] at left
    have old : reasons id log ≠ [] := by
      intro none
      rw [none] at left
      exact left rfl
    exact Nat.lt_succ_of_lt (conserved.known id old)
  taken := by
    intro ticket mem
    rw [used_append, used_entered, List.append_nil] at mem
    obtain ⟨enters, reason, left, takes⟩ := conserved.taken ticket mem
    rw [entered_append, reasons_append]
    refine ⟨List.mem_append_left _ enters, reason, ?_, takes⟩
    rw [left]
    rfl
  once := by
    rw [used_append, used_entered, List.append_nil]
    exact conserved.once

/-- Every valid movement keeps the log in order. -/
theorem step {move : Move κ φ R} (valid : move.Valid covers takes) :
    Conserved covers takes (s.step move).1 (log ++ (s.step move).2) := by
  cases move with
  | idle => simpa [Store.step] using conserved
  | insert key item reason =>
    have applies : ∀ other ∈ [key], covers reason other := by
      intro other mem
      rw [List.mem_singleton.mp mem]
      exact valid
    have left := conserved.without (List.nodup_singleton key) applies
    have free : (s.without [key]).held key = none := if_pos (List.mem_singleton_self key)
    rw [Store.step, ← List.append_assoc]
    exact left.enter free item
  | remove keys reason => exact conserved.without valid.1 valid.2
  | take keys reason => exact conserved.take valid.1 valid.2.1 valid.2.2
  | use =>
    have silent : entered (s.batch.head?.toList.map Entry.used : List (Entry κ φ R)) = [] ∧
        ∀ id, reasons id (s.batch.head?.toList.map Entry.used : List (Entry κ φ R)) = [] := by
      cases s.batch.head? <;> exact ⟨rfl, fun _ => rfl⟩
    refine conserved.of_used rfl rfl ?_ ?_ ?_
    · rw [Store.step, entered_append, silent.1, List.append_nil]
    · intro id
      rw [Store.step, reasons_append, silent.2, List.append_nil]
    · rw [Store.step, used_append, List.append_assoc]
      cases s.batch <;> exact List.Sublist.refl _
  | discard =>
    refine conserved.of_used rfl rfl ?_ ?_ ?_
    · rw [Store.step, List.append_nil]
    · intro id
      rw [Store.step, List.append_nil]
    · rw [Store.step, List.append_nil, List.append_nil]
      exact List.sublist_append_left _ _

end Conserved

end Shairplay.Lib.Custody

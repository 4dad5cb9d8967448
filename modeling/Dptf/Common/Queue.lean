import Dptf.Common.Types
import Mathlib.Data.List.Basic

/-!
# The event queue

A linked list of items, which may be null, with a capacity and an event that a
consumer waits on.  The event is set by whatever puts an item in and reset by the
dequeue that leaves the list empty, so it tells whether there is an item
(`EsifQueue.EventMatches`).  The list's length stands for `current_size`.
-/

/-- `EsifQueue`. -/
structure EsifQueue (α : Type) where
  /-- `queue_list_ptr`; an item may be null. -/
  items : List (Option α)
  /-- `event`. -/
  event : Bool
  /-- `max_size`. -/
  maxSize : Nat

namespace EsifQueue

variable {α : Type}

/-- `esif_queue_create`. -/
def create (depth : Nat) : EsifQueue α where
  items := []
  event := false
  maxSize := depth

/-- `esif_queue_enqueue`: put at the back, unless the queue is full. -/
def enqueue (self : EsifQueue α) (data : Option α) : EsifError × EsifQueue α :=
  if self.maxSize ≤ self.items.length then (esifENoMemory, self)
  else (esifOk, { self with items := self.items ++ [data], event := true })

/-- `esif_queue_requeue`: put at the front, unless the queue is full. -/
def requeue (self : EsifQueue α) (data : Option α) : EsifError × EsifQueue α :=
  if self.maxSize ≤ self.items.length then (esifENoMemory, self)
  else (esifOk, { self with items := data :: self.items, event := true })

/-- `esif_queue_dequeue`: the item at the front, null if there is none. -/
def dequeue (self : EsifQueue α) : Option α × EsifQueue α :=
  match self.items with
  | [] => (none, { self with event := false })
  | data :: rest =>
    (data, { self with items := rest, event := if rest.isEmpty then false else self.event })

/-- `esif_queue_pull` returns once the event is set; until then there is no step. -/
def pull (self : EsifQueue α) : Option (Option α × EsifQueue α) :=
  if self.event then some self.dequeue else none

/-- The event is set exactly while there is an item. -/
def EventMatches (self : EsifQueue α) : Prop := self.event = !self.items.isEmpty

theorem eventMatches_create (depth : Nat) : (create depth : EsifQueue α).EventMatches := rfl

theorem enqueue_of_lt {self : EsifQueue α} {data : Option α}
    (h : self.items.length < self.maxSize) :
    self.enqueue data = (esifOk, { self with items := self.items ++ [data], event := true }) :=
  if_neg (Nat.not_le.mpr h)

theorem requeue_of_lt {self : EsifQueue α} {data : Option α}
    (h : self.items.length < self.maxSize) :
    self.requeue data = (esifOk, { self with items := data :: self.items, event := true }) :=
  if_neg (Nat.not_le.mpr h)

theorem pull_eq_some {self queue : EsifQueue α} {item : Option α} (hevent : self.EventMatches)
    (h : self.pull = some (item, queue)) :
    ∃ rest, self.items = item :: rest ∧
      queue = { self with items := rest, event := !rest.isEmpty } := by
  obtain ⟨items, event, maxSize⟩ := self
  simp only [EventMatches] at hevent
  cases items with
  | nil => simp [pull, hevent] at h
  | cons data rest =>
    simp only [pull, hevent, dequeue, List.isEmpty_cons, Bool.not_false, if_true, Option.some.injEq,
      Prod.mk.injEq] at h
    obtain ⟨rfl, rfl⟩ := h
    exact ⟨rest, rfl, by cases rest <;> simp⟩

/-- Taking the front item out and putting it back changes nothing. -/
theorem requeue_dequeue_of_cons {self : EsifQueue α} {data : Option α} {rest : List (Option α)}
    (hitems : self.items = data :: rest) (hevent : self.EventMatches)
    (hroom : self.items.length ≤ self.maxSize) :
    (self.dequeue.2.requeue self.dequeue.1).2 = self := by
  have hset : self.event = true := by simpa [EventMatches, hitems] using hevent
  have hlt : rest.length < self.maxSize := by
    rw [hitems, List.length_cons] at hroom
    omega
  obtain ⟨items, event, maxSize⟩ := self
  simp only at hitems hset hlt
  subst hitems hset
  simp [dequeue, requeue_of_lt, hlt]

end EsifQueue

import Dptf.Lib.StableSort
import Dptf.Wq.WorkItems

/-!
# The queue of immediate work items

`ImmediateWorkItemQueue.cpp`.  Each function holds the mutex of the queue from its beginning to
its end, so it is one step; any threads call them in any order.

* `discipline_run` — it holds after every run.
-/

open Lib
open Mgr (UIntN invalidIndex)

namespace Wq

/-- `ImmediateWorkItemQueue`. -/
structure ImmediateWorkItemQueue where
  queue : List ImmediateWorkItem
  maxCount : Nat
deriving DecidableEq

namespace ImmediateWorkItemQueue

/-- `ImmediateWorkItemQueue()`. -/
def empty : ImmediateWorkItemQueue := ⟨[], 0⟩

/-- The criteria of `throwIfDuplicateThermalThresholdCrossedEvent`. -/
def duplicateCriteria (newWorkItem : ImmediateWorkItem) : WorkItemMatchCriteria :=
  (WorkItemMatchCriteria.empty.addFrameworkEventType
    newWorkItem.workItem.frameworkEventType).addParticipantIndex
      newWorkItem.workItem.participantIndex

/-- `throwIfDuplicateThermalThresholdCrossedEvent`. -/
def throwsIfDuplicate (queue : List ImmediateWorkItem) (newWorkItem : ImmediateWorkItem) : Bool :=
  if newWorkItem.workItem.frameworkEventType = .domainTemperatureThresholdCrossed then
    queue.any fun currentWorkItem => currentWorkItem.isMatch (duplicateCriteria newWorkItem)
  else false

/-- The loop of `insertSortedByPriority`. -/
def insertBeforeLower (newWorkItem : ImmediateWorkItem) :
    List ImmediateWorkItem → List ImmediateWorkItem
  | [] => [newWorkItem]
  | currentWorkItem :: queue =>
    if newWorkItem.priority > currentWorkItem.priority then
      newWorkItem :: currentWorkItem :: queue
    else currentWorkItem :: insertBeforeLower newWorkItem queue

/-- `insertSortedByPriority`; the semaphore it signals is the manager's. -/
def insertSortedByPriority (queue : List ImmediateWorkItem) (newWorkItem : ImmediateWorkItem) :
    List ImmediateWorkItem :=
  if queue.isEmpty ∨ newWorkItem.priority = 0 then queue ++ [newWorkItem]
  else insertBeforeLower newWorkItem queue

/-- `updateMaxCount`. -/
def updateMaxCount (q : ImmediateWorkItemQueue) : ImmediateWorkItemQueue :=
  if q.queue.length > q.maxCount then { q with maxCount := q.queue.length } else q

/-- `enqueue`: the queue then, and whether it threw. -/
def enqueue (q : ImmediateWorkItemQueue) (newWorkItem : ImmediateWorkItem) :
    ImmediateWorkItemQueue × Bool :=
  if throwsIfDuplicate q.queue newWorkItem then (q, true)
  else (updateMaxCount { q with queue := insertSortedByPriority q.queue newWorkItem }, false)

/-- `dequeue`: the first item, if there is one. -/
def dequeue (q : ImmediateWorkItemQueue) : ImmediateWorkItemQueue × Option ImmediateWorkItem :=
  match q.queue with
  | [] => (q, none)
  | firstItemInQueue :: queue => ({ q with queue := queue }, some firstItemInQueue)

/-- `removeIfMatches`: the items it removes, of which it signals each. -/
def removeIfMatches (q : ImmediateWorkItemQueue) (matchCriteria : WorkItemMatchCriteria) :
    ImmediateWorkItemQueue × List ImmediateWorkItem :=
  ({ q with queue := q.queue.filter fun item => ¬ item.isMatch matchCriteria },
    q.queue.filter fun item => item.isMatch matchCriteria)

/-- `makeEmtpy`: the items it removes, of which it signals each. -/
def makeEmpty (q : ImmediateWorkItemQueue) : ImmediateWorkItemQueue × List ImmediateWorkItem :=
  ({ q with queue := [] }, q.queue)

end ImmediateWorkItemQueue

/-! ## The insertion -/

/-- An item that is not behind another one. -/
def priorityLe (a b : ImmediateWorkItem) : Bool := a.priority ≥ b.priority

theorem priorityLe_trans (a b c : ImmediateWorkItem) (hab : priorityLe a b) (hbc : priorityLe b c) :
    priorityLe a c := by
  rw [priorityLe, decide_eq_true_eq] at hab hbc ⊢
  exact UInt32.le_trans hbc hab

theorem priorityLe_total (a b : ImmediateWorkItem) : priorityLe a b || priorityLe b a := by
  rw [priorityLe, priorityLe, Bool.or_eq_true, decide_eq_true_eq, decide_eq_true_eq]
  exact UInt32.le_total b.priority a.priority

theorem tied_priorityLe (a b : ImmediateWorkItem) :
    tied priorityLe a b ↔ a.priority = b.priority := by
  rw [tied, priorityLe, priorityLe, Bool.and_eq_true, decide_eq_true_eq, decide_eq_true_eq]
  exact ⟨fun h => UInt32.le_antisymm h.2 h.1, fun h => ⟨h ▸ UInt32.le_refl _, h ▸ UInt32.le_refl _⟩⟩

namespace ImmediateWorkItemQueue

theorem insertBeforeLower_eq (x : ImmediateWorkItem) (queue : List ImmediateWorkItem) :
    insertBeforeLower x queue = insertLast priorityLe x queue := by
  induction queue with
  | nil => rfl
  | cons y queue ih =>
    rw [insertBeforeLower, insertLast, ih, priorityLe]
    by_cases hlt : x.priority > y.priority
    · rw [if_pos hlt, if_neg]
      rw [decide_eq_true_eq]
      exact UInt32.not_le.2 hlt
    · rw [if_neg hlt, if_pos]
      rw [decide_eq_true_eq]
      exact UInt32.not_lt.1 hlt

/-- An item of the least priority goes behind all others. -/
theorem insertLast_of_zero {x : ImmediateWorkItem} (hx : x.priority = 0)
    (queue : List ImmediateWorkItem) : insertLast priorityLe x queue = queue ++ [x] := by
  induction queue with
  | nil => rfl
  | cons y queue ih =>
    rw [insertLast, if_pos, ih, List.cons_append]
    rw [priorityLe, decide_eq_true_eq, hx]
    exact UInt32.zero_le

/-- **The insertion** is the one of a stable sort, with its short cuts. -/
theorem insertSortedByPriority_eq (queue : List ImmediateWorkItem) (x : ImmediateWorkItem) :
    insertSortedByPriority queue x = insertLast priorityLe x queue := by
  unfold insertSortedByPriority
  split
  · rename_i hshort
    rcases hshort with hempty | hzero
    · rw [List.isEmpty_iff.1 hempty]
      rfl
    · rw [insertLast_of_zero hzero]
  · exact insertBeforeLower_eq x queue

theorem updateMaxCount_queue (q : ImmediateWorkItemQueue) : q.updateMaxCount.queue = q.queue := by
  unfold updateMaxCount
  split <;> rfl

/-- What an enqueue does: nothing, if it throws. -/
theorem enqueue_cases (q : ImmediateWorkItemQueue) (x : ImmediateWorkItem) :
    (throwsIfDuplicate q.queue x = true ∧ q.enqueue x = (q, true)) ∨
      (throwsIfDuplicate q.queue x = false ∧ (q.enqueue x).2 = false ∧
        (q.enqueue x).1.queue = insertLast priorityLe x q.queue) := by
  unfold enqueue
  split
  · rename_i hdup
    exact Or.inl ⟨hdup, rfl⟩
  · rename_i hdup
    refine Or.inr ⟨Bool.eq_false_iff.2 hdup, rfl, ?_⟩
    rw [updateMaxCount_queue, insertSortedByPriority_eq]

end ImmediateWorkItemQueue

/-! ## Duplicates -/

/-- A `DomainTemperatureThresholdCrossed` item of a participant. -/
def ImmediateWorkItem.IsCrossed (participantIndex : UIntN) (item : ImmediateWorkItem) : Prop :=
  item.workItem.frameworkEventType = .domainTemperatureThresholdCrossed ∧
    item.workItem.participantIndex = participantIndex

instance (participantIndex : UIntN) (item : ImmediateWorkItem) :
    Decidable (item.IsCrossed participantIndex) := inferInstanceAs (Decidable (_ ∧ _))

/-- An item of the same participant matches the criteria for duplicates. -/
theorem isMatch_duplicateCriteria {x y : ImmediateWorkItem} {participantIndex : UIntN}
    (hx : x.IsCrossed participantIndex) (hy : y.IsCrossed participantIndex) :
    y.isMatch (ImmediateWorkItemQueue.duplicateCriteria x) = true := by
  obtain ⟨hxe, hxp⟩ := hx
  obtain ⟨hye, hyp⟩ := hy
  obtain ⟨p, d, hsubject⟩ := y.workItem.crossed hye
  have hp : p = participantIndex := by
    rw [WorkItem.participantIndex, hsubject] at hyp
    exact hyp
  rw [ImmediateWorkItem.isMatch, WorkItem.isMatch, hsubject]
  simp only [ImmediateWorkItemQueue.duplicateCriteria, hxe, hxp, hye, hp,
    WorkItemMatchCriteria.addParticipantIndex, WorkItemMatchCriteria.addFrameworkEventType,
    WorkItemMatchCriteria.empty]
  by_cases hvalid : participantIndex = invalidIndex
  · rw [if_neg (not_not.2 hvalid)]
    rfl
  · rw [if_pos hvalid]
    simp [WorkItemMatchCriteria.testAgainstMatchList, WorkItemMatchCriteria.added,
      WorkItemMatchCriteria.indexPasses, hvalid]

/-- **An accepted item is no duplicate**: none of its participant is in the queue. -/
theorem not_isCrossed_of_accepted {queue : List ImmediateWorkItem} {x : ImmediateWorkItem}
    (h : ImmediateWorkItemQueue.throwsIfDuplicate queue x = false) {participantIndex : UIntN}
    (hx : x.IsCrossed participantIndex) : ∀ y ∈ queue, ¬ y.IsCrossed participantIndex := by
  intro y hy hcrossed
  rw [ImmediateWorkItemQueue.throwsIfDuplicate, if_pos hx.1, List.any_eq_false] at h
  exact h y hy (isMatch_duplicateCriteria hx hcrossed)

/-! ## Any calls in any order -/

/-- A call. -/
inductive ImmediateOp
  | enqueue (newWorkItem : ImmediateWorkItem)
  | dequeue
  | removeIfMatches (matchCriteria : WorkItemMatchCriteria)
  | makeEmpty

/-- A queue, with the items whose enqueue succeeded, those that were dequeued and those that were
removed, each in this order. -/
structure Ledger where
  immediate : ImmediateWorkItemQueue
  accepted : List ImmediateWorkItem
  dequeued : List ImmediateWorkItem
  removed : List ImmediateWorkItem

namespace Ledger

/-- The queue at the beginning. -/
def empty : Ledger := ⟨ImmediateWorkItemQueue.empty, [], [], []⟩

/-- What a call does. -/
def step (l : Ledger) : ImmediateOp → Ledger
  | .enqueue newWorkItem =>
    let (q, threw) := l.immediate.enqueue newWorkItem
    { l with
      immediate := q
      accepted := if threw then l.accepted else l.accepted ++ [newWorkItem] }
  | .dequeue =>
    let (q, firstItemInQueue) := l.immediate.dequeue
    { l with immediate := q, dequeued := l.dequeued ++ firstItemInQueue.toList }
  | .removeIfMatches matchCriteria =>
    let (q, items) := l.immediate.removeIfMatches matchCriteria
    { l with immediate := q, removed := l.removed ++ items }
  | .makeEmpty =>
    let (q, items) := l.immediate.makeEmpty
    { l with immediate := q, removed := l.removed ++ items }

/-- What a run does. -/
def run (ops : List ImmediateOp) : Ledger := ops.foldl step empty

/-- The discipline of the queue. -/
structure Discipline (l : Ledger) : Prop where
  /-- Higher priorities come first. -/
  sorted : l.immediate.queue.Pairwise fun a b => a.priority ≥ b.priority
  /-- Items of one priority are served in the order they came. -/
  served : ∀ k, ((l.dequeued ++ l.immediate.queue).filter fun x => x.priority = k).Sublist
    (l.accepted.filter fun x => x.priority = k)
  /-- Every item that was accepted is in one place. -/
  accounted : (l.dequeued ++ l.removed ++ l.immediate.queue).Perm l.accepted
  /-- One threshold event is queued for a participant, at most. -/
  crossed : ∀ participantIndex,
    (l.immediate.queue.filter fun x => x.IsCrossed participantIndex).length ≤ 1

end Ledger

/-! ## Each call -/

namespace Ledger.Discipline

variable {l : Ledger}

/-- An item that is accepted. -/
theorem accept (h : l.Discipline) {x : ImmediateWorkItem} {q : ImmediateWorkItemQueue}
    (hx : ImmediateWorkItemQueue.throwsIfDuplicate l.immediate.queue x = false)
    (hq : q.queue = insertLast priorityLe x l.immediate.queue) :
    Discipline { l with immediate := q, accepted := l.accepted ++ [x] } where
  sorted := by
    show q.queue.Pairwise _
    rw [hq]
    have hle : l.immediate.queue.Pairwise fun a b => priorityLe a b :=
      h.sorted.imp fun {a b} h => decide_eq_true h
    exact (pairwise_insertLast priorityLe_trans priorityLe_total hle).imp
      fun {a b} hab => of_decide_eq_true hab
  served k := by
    show ((l.dequeued ++ q.queue).filter _).Sublist ((l.accepted ++ [x]).filter _)
    have hle : l.immediate.queue.Pairwise fun a b => priorityLe a b :=
      h.sorted.imp fun {a b} h => decide_eq_true h
    rw [hq, List.filter_append,
      filter_key_insertLast priorityLe_trans tied_priorityLe hle, ← List.append_assoc,
      ← List.filter_append, List.filter_append (p := fun x => decide (x.priority = k)) l.accepted]
    exact (h.served k).append (List.Sublist.refl _)
  accounted := by
    show (l.dequeued ++ l.removed ++ q.queue).Perm (l.accepted ++ [x])
    rw [hq]
    refine ((insertLast_perm x l.immediate.queue).append_left _).trans ?_
    refine List.perm_middle.trans ?_
    exact (h.accounted.cons x).trans (List.perm_append_singleton x l.accepted).symm
  crossed p := by
    show (q.queue.filter _).length ≤ 1
    rw [hq, ((insertLast_perm x l.immediate.queue).filter _).length_eq]
    by_cases hp : x.IsCrossed p
    · have hnone : l.immediate.queue.filter (fun y => decide (y.IsCrossed p)) = [] := by
        rw [List.filter_eq_nil_iff]
        intro y hy
        simpa using not_isCrossed_of_accepted hx hp y hy
      rw [List.filter_cons_of_pos (by simpa using hp), hnone]
      exact le_refl 1
    · rw [List.filter_cons_of_neg (by simpa using hp)]
      exact h.crossed p

/-- An item that is dequeued. -/
theorem dequeue (h : l.Discipline) {x : ImmediateWorkItem} {queue : List ImmediateWorkItem}
    (hq : l.immediate.queue = x :: queue) :
    Discipline { l with
      immediate := { l.immediate with queue := queue }
      dequeued := l.dequeued ++ [x] } where
  sorted := by
    have hsorted := h.sorted
    rw [hq] at hsorted
    exact (List.pairwise_cons.1 hsorted).2
  served k := by
    have hserved := h.served k
    rw [hq] at hserved
    show ((l.dequeued ++ [x] ++ queue).filter _).Sublist _
    rwa [List.append_assoc]
  accounted := by
    have haccounted := h.accounted
    rw [hq] at haccounted
    refine List.Perm.trans ?_ haccounted
    show (l.dequeued ++ [x] ++ l.removed ++ queue).Perm (l.dequeued ++ l.removed ++ x :: queue)
    have hmiddle : (x :: (l.removed ++ queue)).Perm (l.removed ++ x :: queue) :=
      List.perm_middle.symm
    simp only [List.append_assoc]
    exact hmiddle.append_left _
  crossed p := by
    have hcrossed := h.crossed p
    rw [hq] at hcrossed
    exact le_trans (((List.sublist_cons_self x queue).filter _).length_le) hcrossed

/-- Some items that are removed, the others staying in their order. -/
theorem remove (h : l.Discipline) (p : ImmediateWorkItem → Bool) :
    Discipline { l with
      immediate := { l.immediate with queue := l.immediate.queue.filter fun x => ¬ p x }
      removed := l.removed ++ l.immediate.queue.filter p } where
  sorted := h.sorted.sublist List.filter_sublist
  served k := by
    refine List.Sublist.trans ?_ (h.served k)
    exact ((List.Sublist.refl l.dequeued).append List.filter_sublist).filter _
  accounted := by
    refine List.Perm.trans ?_ h.accounted
    show (l.dequeued ++ (l.removed ++ l.immediate.queue.filter p) ++
      l.immediate.queue.filter fun x => ¬ p x).Perm _
    simp only [List.append_assoc]
    refine List.Perm.append_left _ (List.Perm.append_left _ ?_)
    have hsplit := List.filter_append_perm p l.immediate.queue
    simpa using hsplit
  crossed participantIndex :=
    le_trans ((List.filter_sublist.filter _).length_le) (h.crossed participantIndex)

/-- **Each call** keeps the discipline. -/
theorem step (h : l.Discipline) (op : ImmediateOp) : (l.step op).Discipline := by
  cases op with
  | enqueue x =>
    rcases l.immediate.enqueue_cases x with ⟨-, heq⟩ | ⟨haccepted, hthrew, hqueue⟩
    · rw [Ledger.step, heq]
      exact h
    · rw [Ledger.step]
      simp only [hthrew]
      exact h.accept haccepted hqueue
  | dequeue =>
    rw [Ledger.step, ImmediateWorkItemQueue.dequeue]
    cases hq : l.immediate.queue with
    | nil =>
      simp only [Option.toList_none, List.append_nil]
      exact h
    | cons x queue => exact h.dequeue hq
  | removeIfMatches c => exact h.remove fun x => x.isMatch c
  | makeEmpty =>
    have hremove := h.remove fun _ => true
    simp only [not_true_eq_false, decide_false, List.filter_false, List.filter_true] at hremove
    exact hremove

end Ledger.Discipline

/-- **The discipline of the immediate queue** holds after every run: it is sorted by priority and
first come, first served within a priority; every accepted item is in it, was dequeued or was
removed; one threshold event is queued for a participant, at most; and a duplicate that is rejected
leaves the queue as it is. -/
theorem discipline_run (ops : List ImmediateOp) :
    (Ledger.run ops).Discipline ∧ ∀ x, ((Ledger.run ops).immediate.enqueue x).2 = true →
      ((Ledger.run ops).immediate.enqueue x).1 = (Ledger.run ops).immediate := by
  refine ⟨?_, fun x hthrew => ?_⟩
  · induction ops using List.reverseRecOn with
    | nil =>
      exact ⟨List.Pairwise.nil, fun _ => List.Sublist.refl _, List.Perm.refl _,
        fun _ => Nat.zero_le 1⟩
    | append_singleton ops op ih =>
      rw [Ledger.run, List.foldl_append]
      exact ih.step op
  · rcases (Ledger.run ops).immediate.enqueue_cases x with ⟨-, heq⟩ | ⟨-, hfalse, -⟩
    · rw [heq]
    · rw [hfalse] at hthrew
      cases hthrew

end Wq

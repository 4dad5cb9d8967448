import Dptf.Wq.DeferredQueue
import Dptf.Wq.ImmediateQueue

/-!
# The queues and their threads

`WorkItemQueueManager.cpp` and `WorkItemQueueThread.cpp` over the two queues.  Any threads call the
functions of the manager, the work item thread serves the immediate queue, and the callback of the
timer moves items from the deferred queue to it.  What a thread does under one mutex of a queue is
one step; `removeIfMatches` and `disableAndEmptyAllQueues` hold the mutex of the manager over
several steps.
-/

open Lib
open Mgr (UIntN)

namespace Wq

/-- An item as its constructor makes it: nobody waits for it. -/
structure NewWorkItem where
  workItem : WorkItem
  unawaited : workItem.completionSemaphore = none

/-- Who holds the mutex of the manager between two steps: nobody; `removeIfMatches`, which goes on
to the deferred queue; `disableAndEmptyAllQueues`, which has disabled the enqueueing, or has emptied
the immediate queue too. -/
inductive ManagerPhase
  | free
  | removing (matchCriteria : WorkItemMatchCriteria)
  | disabled
  | emptied

/-- How far the work item thread is: it is about to dequeue an item; it executes one; the execution
has ended, with or without an exception; it waits for its semaphore. -/
inductive ThreadPhase
  | dequeuing
  | executing (immediateWorkItem : ImmediateWorkItem)
  | executed (immediateWorkItem : ImmediateWorkItem)
  | waiting
deriving DecidableEq

/-- The item that was dequeued and for which nobody was signalled yet. -/
def ThreadPhase.inHand : ThreadPhase → Option ImmediateWorkItem
  | .executing immediateWorkItem => some immediateWorkItem
  | .executed immediateWorkItem => some immediateWorkItem
  | _ => none

/-- The item whose execution has ended and for which nobody was signalled yet. -/
def ThreadPhase.ended : ThreadPhase → Option ImmediateWorkItem
  | .executed immediateWorkItem => some immediateWorkItem
  | _ => none

/-- `WorkItemQueueManager` with its queues and its thread, and the time.  Callers of
`enqueueImmediateWorkItemAndWait` are numbered, each with the semaphore of its number. -/
structure Manager where
  enqueueingEnabled : Bool
  phase : ManagerPhase
  immediate : ImmediateWorkItemQueue
  deferred : DeferredWorkItemQueue
  workItemQueueSemaphore : Nat
  thread : ThreadPhase
  now : Int
  callers : Nat
  /-- The callers whose item was accepted. -/
  accepted : List Nat
  /-- The callers who got an exception. -/
  threw : List Nat
  /-- The semaphores that were signalled. -/
  signals : List Nat
  /-- The callers whose wait has ended. -/
  returned : List Nat
  /-- The items whose execution has ended. -/
  executed : List ImmediateWorkItem
  /-- The items that were removed from the immediate queue. -/
  removed : List ImmediateWorkItem
  /-- Whether `disableAndEmptyAllQueues` has returned. -/
  shutDown : Bool
  /-- The items that were dequeued from the immediate queue after that. -/
  late : List ImmediateWorkItem

/-- A step. -/
inductive ManagerOp
  | wait (elapsed : Nat)
  | enqueueAndReturn (newWorkItem : NewWorkItem) (priority : UIntN)
  | enqueueAndWait (newWorkItem : NewWorkItem) (priority : UIntN)
  | executeDirectly (newWorkItem : NewWorkItem)
  | enqueueDeferred (newWorkItem : DeferredWorkItem)
  | removeIfMatches (matchCriteria : WorkItemMatchCriteria)
  | removeDeferred
  | disable
  | emptyImmediate
  | emptyDeferred
  | expire
  | take
  | lock
  | move
  | unlock
  | finish
  | dequeue
  | endExecution
  | signal
  | wake
  | endWait (caller : Nat)

namespace Manager

/-- `WorkItemQueueManager()`. -/
def start (now : Int) : Manager where
  enqueueingEnabled := true
  phase := .free
  immediate := ImmediateWorkItemQueue.empty
  deferred := DeferredWorkItemQueue.empty
  workItemQueueSemaphore := 0
  thread := .dequeuing
  now := now
  callers := 0
  accepted := []
  threw := []
  signals := []
  returned := []
  executed := []
  removed := []
  shutDown := false
  late := []

/-- `canEnqueueImmediateWorkItem`. -/
def canEnqueueImmediateWorkItem (s : Manager) (workItem : WorkItem) : Prop :=
  s.enqueueingEnabled = true ∨ workItem.IsDestroy

instance (s : Manager) (workItem : WorkItem) : Decidable (s.canEnqueueImmediateWorkItem workItem) :=
  inferInstanceAs (Decidable (_ ∨ _))

/-- An item for which the immediate queue is asked; the insertion signals the thread. -/
def enqueueImmediate (s : Manager) (item : ImmediateWorkItem) : Manager :=
  { s with
    immediate := (s.immediate.enqueue item).1
    workItemQueueSemaphore :=
      if (s.immediate.enqueue item).2 then s.workItemQueueSemaphore
      else s.workItemQueueSemaphore + 1 }

/-- Items that `removeIfMatches` or `makeEmtpy` of the immediate queue took out, and whose callers
it has signalled. -/
def removeImmediate (s : Manager) (removal : ImmediateWorkItemQueue × List ImmediateWorkItem) :
    Manager :=
  { s with
    immediate := removal.1
    removed := s.removed ++ removal.2
    signals := s.signals ++ removal.2.filterMap fun x => x.item.signal }

/-- `enqueueImmediateWorkItemAndReturn`, under the mutex. -/
def enqueueAndReturn (s : Manager) (newWorkItem : NewWorkItem) (priority : UIntN) : Manager :=
  if s.canEnqueueImmediateWorkItem newWorkItem.workItem then
    s.enqueueImmediate ⟨.direct newWorkItem.workItem, priority⟩
  else s

/-- `enqueueImmediateWorkItemAndWait` on another thread than the work item thread, up to the
wait. -/
def enqueueAndWait (s : Manager) (newWorkItem : NewWorkItem) (priority : UIntN) : Manager :=
  let item : ImmediateWorkItem :=
    ⟨.direct (newWorkItem.workItem.signalAtCompletion s.callers), priority⟩
  if s.canEnqueueImmediateWorkItem newWorkItem.workItem ∧ (s.immediate.enqueue item).2 = false then
    { s.enqueueImmediate item with
      callers := s.callers + 1
      accepted := s.accepted ++ [s.callers] }
  else
    { s with
      callers := s.callers + 1
      threw := s.threw ++ [s.callers] }

/-- What a step does; `none` is a step that has to wait. -/
def step (s : Manager) : ManagerOp → Option Manager
  | .wait elapsed => some { s with now := s.now + elapsed }
  | .enqueueAndReturn newWorkItem priority =>
    match s.phase with
    | .free => some (s.enqueueAndReturn newWorkItem priority)
    | _ => none
  | .enqueueAndWait newWorkItem priority =>
    match s.phase with
    | .free => some (s.enqueueAndWait newWorkItem priority)
    | _ => none
  -- On the work item thread the new item is executed at once, inside the one that runs.
  | .executeDirectly newWorkItem =>
    match s.thread with
    | .executing _ =>
      some { s with signals := s.signals ++ newWorkItem.workItem.completionSemaphore.toList }
    | _ => none
  | .enqueueDeferred newWorkItem =>
    match s.phase with
    | .free =>
      if s.enqueueingEnabled then
        if s.deferred.MutexFree then some { s with deferred := s.deferred.enqueue newWorkItem }
        else none
      else some s
    | _ => none
  | .removeIfMatches matchCriteria =>
    match s.phase with
    | .free =>
      some { s.removeImmediate (s.immediate.removeIfMatches matchCriteria) with
        phase := .removing matchCriteria }
    | _ => none
  | .removeDeferred =>
    match s.phase with
    | .removing matchCriteria =>
      if s.deferred.MutexFree then
        some { s with
          deferred := (s.deferred.removeIfMatches matchCriteria).1
          phase := .free }
      else none
    | _ => none
  | .disable =>
    match s.phase with
    | .free => some { s with enqueueingEnabled := false, phase := .disabled }
    | _ => none
  | .emptyImmediate =>
    match s.phase with
    | .disabled => some { s.removeImmediate s.immediate.makeEmpty with phase := .emptied }
    | _ => none
  -- `cancelTimer` comes back when no callback runs any more.
  | .emptyDeferred =>
    match s.phase, s.deferred.callback with
    | .emptied, .idle =>
      some { s with
        deferred := s.deferred.makeEmpty
        phase := .free
        shutDown := true }
    | _, _ => none
  | .expire => (s.deferred.expire s.now).map fun q => { s with deferred := q }
  | .take => (s.deferred.callbackTake s.now).map fun q => { s with deferred := q }
  | .lock => s.deferred.callbackLock.map fun q => { s with deferred := q }
  -- The item of a duplicate is dropped; the exception does not leave the callback.
  | .move => (s.deferred.callbackMove s.now).map fun (q, readyWorkItem) =>
    { s.enqueueImmediate ⟨.deferred readyWorkItem, 0⟩ with deferred := q }
  | .unlock => s.deferred.callbackUnlock.map fun q => { s with deferred := q }
  | .finish => s.deferred.callbackFinish.map fun q =>
    { s with deferred := q, workItemQueueSemaphore := s.workItemQueueSemaphore + 1 }
  | .dequeue =>
    match s.thread, s.immediate.dequeue with
    | .dequeuing, (q, some immediateWorkItem) =>
      some { s with
        immediate := q
        thread := .executing immediateWorkItem
        late := if s.shutDown then s.late ++ [immediateWorkItem] else s.late }
    | .dequeuing, (q, none) => some { s with immediate := q, thread := .waiting }
    | _, _ => none
  | .endExecution =>
    match s.thread with
    | .executing immediateWorkItem =>
      some { s with
        thread := .executed immediateWorkItem
        executed := s.executed ++ [immediateWorkItem] }
    | _ => none
  | .signal =>
    match s.thread with
    | .executed immediateWorkItem =>
      some { s with
        thread := .dequeuing
        signals := s.signals ++ immediateWorkItem.item.completion.toList }
    | _ => none
  | .wake =>
    match s.thread, s.workItemQueueSemaphore with
    | .waiting, semaphore + 1 =>
      some { s with thread := .dequeuing, workItemQueueSemaphore := semaphore }
    | _, _ => none
  | .endWait caller =>
    if caller ∈ s.accepted ∧ caller ∈ s.signals ∧ caller ∉ s.returned then
      some { s with returned := s.returned ++ [caller] }
    else none

/-- The work item thread takes the first item of the queue, or waits where there is none. -/
theorem step_dequeue {s s' : Manager} (hstep : s.step .dequeue = some s') :
    s.thread = .dequeuing ∧
      ((∃ x queue, s.immediate.queue = x :: queue ∧ s' = { s with
          immediate := { s.immediate with queue := queue }
          thread := .executing x
          late := if s.shutDown then s.late ++ [x] else s.late }) ∨
        (s.immediate.queue = [] ∧ s' = { s with thread := .waiting })) := by
  rw [step, ImmediateWorkItemQueue.dequeue] at hstep
  split at hstep
  · rename_i hthread hq
    cases hstep
    split at hq
    · cases hq
    · rename_i hqueue
      obtain ⟨rfl, hitem⟩ := Prod.mk.inj hq
      cases hitem
      exact ⟨hthread, .inl ⟨_, _, hqueue, rfl⟩⟩
  · rename_i hthread hq
    cases hstep
    split at hq
    · rename_i hqueue
      obtain ⟨rfl, -⟩ := Prod.mk.inj hq
      exact ⟨hthread, .inr ⟨hqueue, rfl⟩⟩
    · cases hq
  · cases hstep

end Manager

end Wq

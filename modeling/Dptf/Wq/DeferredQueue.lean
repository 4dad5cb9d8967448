import Dptf.Lib.StableSort
import Dptf.Wq.WorkItems

/-!
# The queue of deferred work items

`DeferredWorkItemQueue.cpp` and its timer.  A function that holds the mutex of the queue from its
beginning to its end is one step; `timerCallback` takes the first item before it locks the mutex
for its loop, so it is several.
-/

open Lib

namespace Wq

/-- How far `timerCallback` is: it does not run; it has begun; it has taken an item, if one was
ready; it holds the mutex and has an item to move; it has unlocked the mutex. -/
inductive CallbackPhase
  | idle
  | started
  | holding (readyWorkItem : Option DeferredWorkItem)
  | moving (readyWorkItem : Option DeferredWorkItem)
  | finishing
deriving DecidableEq

/-- The item the callback took and did not move yet. -/
def CallbackPhase.readyWorkItem : CallbackPhase → Option DeferredWorkItem
  | .holding readyWorkItem => readyWorkItem
  | .moving readyWorkItem => readyWorkItem
  | _ => none

/-- `DeferredWorkItemQueue`, with the time `m_timer` is armed for. -/
structure DeferredWorkItemQueue where
  queue : List DeferredWorkItem
  maxCount : Nat
  timer : Option Int
  callback : CallbackPhase
deriving DecidableEq

namespace DeferredWorkItemQueue

/-- `DeferredWorkItemQueue()`. -/
def empty : DeferredWorkItemQueue := ⟨[], 0, none, .idle⟩

/-- `setTimer`. -/
def setTimer (q : DeferredWorkItemQueue) : DeferredWorkItemQueue :=
  match q.queue with
  | [] => q
  | firstWorkItem :: _ => { q with timer := some firstWorkItem.deferredProcessingTime }

/-- `getFirstReadyWorkItemFromQueue`. -/
def getFirstReadyWorkItemFromQueue (q : DeferredWorkItemQueue) (currentTime : Int) :
    DeferredWorkItemQueue × Option DeferredWorkItem :=
  match q.queue with
  | [] => (q, none)
  | firstReadyWorkItem :: queue =>
    if firstReadyWorkItem.deferredProcessingTime ≤ currentTime then
      ({ q with queue := queue }, some firstReadyWorkItem)
    else (q, none)

/-- `insertSortedByDeferredProcessingTime`. -/
def insertSortedByDeferredProcessingTime (newWorkItem : DeferredWorkItem) :
    List DeferredWorkItem → List DeferredWorkItem
  | [] => [newWorkItem]
  | currentWorkItem :: queue =>
    if currentWorkItem.deferredProcessingTime > newWorkItem.deferredProcessingTime then
      newWorkItem :: currentWorkItem :: queue
    else currentWorkItem :: insertSortedByDeferredProcessingTime newWorkItem queue

/-- `updateMaxCount`. -/
def updateMaxCount (q : DeferredWorkItemQueue) : DeferredWorkItemQueue :=
  if q.queue.length > q.maxCount then { q with maxCount := q.queue.length } else q

/-- `enqueue`. -/
def enqueue (q : DeferredWorkItemQueue) (newWorkItem : DeferredWorkItem) :
    DeferredWorkItemQueue :=
  setTimer (updateMaxCount
    { q with queue := insertSortedByDeferredProcessingTime newWorkItem q.queue })

/-- `dequeue`. -/
def dequeue (q : DeferredWorkItemQueue) (currentTime : Int) :
    DeferredWorkItemQueue × Option DeferredWorkItem :=
  let ready := q.getFirstReadyWorkItemFromQueue currentTime
  (setTimer ready.1, ready.2)

/-- `removeIfMatches`: the items it removes; nobody waits for them. -/
def removeIfMatches (q : DeferredWorkItemQueue) (matchCriteria : WorkItemMatchCriteria) :
    DeferredWorkItemQueue × List DeferredWorkItem :=
  (setTimer { q with queue := q.queue.filter fun item => ¬ item.workItem.isMatch matchCriteria },
    q.queue.filter fun item => item.workItem.isMatch matchCriteria)

/-- `makeEmtpy`, once `cancelTimer` has come back. -/
def makeEmpty (q : DeferredWorkItemQueue) : DeferredWorkItemQueue :=
  { q with queue := [], timer := none }

/-! ## The callback -/

/-- Nobody holds the mutex of the queue between two steps, unless the callback is in its loop. -/
def MutexFree (q : DeferredWorkItemQueue) : Prop := ∀ item, q.callback ≠ .moving item

instance (q : DeferredWorkItemQueue) : Decidable q.MutexFree :=
  match h : q.callback with
  | .idle => isTrue fun item hitem => by rw [h] at hitem; cases hitem
  | .started => isTrue fun item hitem => by rw [h] at hitem; cases hitem
  | .holding _ => isTrue fun item hitem => by rw [h] at hitem; cases hitem
  | .moving item => isFalse fun hfree => hfree item h
  | .finishing => isTrue fun item hitem => by rw [h] at hitem; cases hitem

/-- The timer expires: the callback begins, unless the last one still runs. -/
def expire (q : DeferredWorkItemQueue) (currentTime : Int) : Option DeferredWorkItemQueue :=
  match q.callback, q.timer with
  | .idle, some time =>
    if time ≤ currentTime then some { q with timer := none, callback := .started } else none
  | _, _ => none

/-- The first `dequeue` of `timerCallback`, outside of its lock. -/
def callbackTake (q : DeferredWorkItemQueue) (currentTime : Int) : Option DeferredWorkItemQueue :=
  match q.callback with
  | .started =>
    let ready := q.dequeue currentTime
    some { ready.1 with callback := .holding ready.2 }
  | _ => none

/-- `timerCallback` locks the mutex. -/
def callbackLock (q : DeferredWorkItemQueue) : Option DeferredWorkItemQueue :=
  match q.callback with
  | .holding readyWorkItem => some { q with callback := .moving readyWorkItem }
  | _ => none

/-- One turn of the loop of `timerCallback`: the item that goes to the immediate queue, and the
next `dequeue`. -/
def callbackMove (q : DeferredWorkItemQueue) (currentTime : Int) :
    Option (DeferredWorkItemQueue × DeferredWorkItem) :=
  match q.callback with
  | .moving (some readyWorkItem) =>
    let next := q.dequeue currentTime
    some ({ next.1 with callback := .moving next.2 }, readyWorkItem)
  | _ => none

/-- `timerCallback` unlocks the mutex after its loop. -/
def callbackUnlock (q : DeferredWorkItemQueue) : Option DeferredWorkItemQueue :=
  match q.callback with
  | .moving none => some { q with callback := .finishing }
  | _ => none

/-- `timerCallback` ends. -/
def callbackFinish (q : DeferredWorkItemQueue) : Option DeferredWorkItemQueue :=
  match q.callback with
  | .finishing => some { q with callback := .idle }
  | _ => none

end DeferredWorkItemQueue

/-! ## What the functions do -/

/-- An item whose time is not later. -/
def timeLe (a b : DeferredWorkItem) : Bool := a.deferredProcessingTime ≤ b.deferredProcessingTime

theorem timeLe_trans (a b c : DeferredWorkItem) (hab : timeLe a b) (hbc : timeLe b c) :
    timeLe a c := by
  rw [timeLe, decide_eq_true_eq] at hab hbc ⊢
  exact hab.trans hbc

theorem timeLe_total (a b : DeferredWorkItem) : timeLe a b || timeLe b a := by
  rw [timeLe, timeLe, Bool.or_eq_true, decide_eq_true_eq, decide_eq_true_eq]
  exact le_total _ _

theorem tied_timeLe (a b : DeferredWorkItem) :
    tied timeLe a b ↔ a.deferredProcessingTime = b.deferredProcessingTime := by
  rw [tied, timeLe, timeLe, Bool.and_eq_true, decide_eq_true_eq, decide_eq_true_eq]
  exact ⟨fun h => le_antisymm h.1 h.2, fun h => ⟨h.le, h.ge⟩⟩

namespace DeferredWorkItemQueue

/-- **The insertion** is the one of a stable sort. -/
theorem insertSortedByDeferredProcessingTime_eq (x : DeferredWorkItem)
    (queue : List DeferredWorkItem) :
    insertSortedByDeferredProcessingTime x queue = insertLast timeLe x queue := by
  induction queue with
  | nil => rfl
  | cons y queue ih =>
    rw [insertSortedByDeferredProcessingTime, insertLast, ih, timeLe]
    by_cases hlt : y.deferredProcessingTime > x.deferredProcessingTime
    · rw [if_pos hlt, if_neg]
      rw [decide_eq_true_eq]
      exact not_le.2 hlt
    · rw [if_neg hlt, if_pos]
      rw [decide_eq_true_eq]
      exact not_lt.1 hlt

@[simp] theorem setTimer_queue (q : DeferredWorkItemQueue) : q.setTimer.queue = q.queue := by
  unfold setTimer
  split <;> rfl

@[simp] theorem setTimer_callback (q : DeferredWorkItemQueue) :
    q.setTimer.callback = q.callback := by
  unfold setTimer
  split <;> rfl

@[simp] theorem updateMaxCount_queue (q : DeferredWorkItemQueue) :
    q.updateMaxCount.queue = q.queue := by
  unfold updateMaxCount
  split <;> rfl

@[simp] theorem updateMaxCount_callback (q : DeferredWorkItemQueue) :
    q.updateMaxCount.callback = q.callback := by
  unfold updateMaxCount
  split <;> rfl

/-- The timer is armed for the first item. -/
def Armed (q : DeferredWorkItemQueue) : Prop :=
  ∀ x ∈ q.queue.head?, q.timer = some x.deferredProcessingTime

theorem setTimer_armed (q : DeferredWorkItemQueue) : q.setTimer.Armed := by
  intro x hx
  rw [setTimer_queue] at hx
  cases hq : q.queue with
  | nil => simp [hq] at hx
  | cons y queue =>
    obtain rfl : y = x := by simpa [hq] using hx
    simp only [setTimer, hq]

theorem enqueue_queue (q : DeferredWorkItemQueue) (x : DeferredWorkItem) :
    (q.enqueue x).queue = insertLast timeLe x q.queue := by
  rw [enqueue, setTimer_queue, updateMaxCount_queue, insertSortedByDeferredProcessingTime_eq]

@[simp] theorem enqueue_callback (q : DeferredWorkItemQueue) (x : DeferredWorkItem) :
    (q.enqueue x).callback = q.callback := by
  rw [enqueue, setTimer_callback, updateMaxCount_callback]

theorem dequeue_armed (q : DeferredWorkItemQueue) (now : Int) : (q.dequeue now).1.Armed :=
  setTimer_armed _

/-- What a `dequeue` does: it takes the first item if its time has come. -/
theorem dequeue_cases (q : DeferredWorkItemQueue) (now : Int) :
    (∃ x queue, q.queue = x :: queue ∧ x.deferredProcessingTime ≤ now ∧
      (q.dequeue now).2 = some x ∧ (q.dequeue now).1.queue = queue) ∨
    ((∀ x ∈ q.queue.head?, now < x.deferredProcessingTime) ∧ (q.dequeue now).2 = none ∧
      (q.dequeue now).1.queue = q.queue) := by
  rw [dequeue, getFirstReadyWorkItemFromQueue]
  cases hq : q.queue with
  | nil =>
    refine Or.inr ⟨by simp, rfl, ?_⟩
    exact (setTimer_queue q).trans hq
  | cons x queue =>
    simp only
    by_cases hready : x.deferredProcessingTime ≤ now
    · rw [if_pos hready]
      exact Or.inl ⟨x, queue, rfl, hready, rfl, setTimer_queue _⟩
    · rw [if_neg hready]
      refine Or.inr ⟨?_, rfl, (setTimer_queue q).trans hq⟩
      intro y hy
      obtain rfl : x = y := by simpa using hy
      exact not_le.1 hready

/-! ### The steps of the callback -/

variable {q q' : DeferredWorkItemQueue} {now : Int}

/-- Where the callback does not look at the queue it keeps its item, and the timer unless it
begins. -/
theorem goesOn (h : q.expire now = some q' ∨ q.callbackLock = some q' ∨
      q.callbackUnlock = some q' ∨ q.callbackFinish = some q') :
    ∃ timer phase, q' = { q with timer := timer, callback := phase } ∧
      phase.readyWorkItem = q.callback.readyWorkItem ∧
      (phase ≠ .started → timer = q.timer ∧ q.callback ≠ .started) := by
  unfold expire callbackLock callbackUnlock callbackFinish at h
  cases hphase : q.callback with
  | idle =>
    simp only [hphase, reduceCtorEq, or_false] at h
    split at h
    · obtain ⟨-, rfl⟩ := Option.ite_some_none_eq_some.1 h
      exact ⟨none, .started, rfl, rfl, fun hne => absurd rfl hne⟩
    · cases h
  | started => simp [hphase] at h
  | holding _ | finishing =>
    obtain rfl : _ = q' := by simpa [hphase] using h
    exact ⟨_, _, rfl, rfl, fun _ => ⟨rfl, by simp⟩⟩
  | moving item =>
    cases item with
    | some item => simp [hphase] at h
    | none =>
      obtain rfl : _ = q' := by simpa [hphase] using h
      exact ⟨_, _, rfl, rfl, fun _ => ⟨rfl, by simp⟩⟩

theorem callbackTake_eq_some (h : q.callbackTake now = some q') : q.callback = .started ∧
    q' = { (q.dequeue now).1 with callback := .holding (q.dequeue now).2 } := by
  unfold callbackTake at h
  split at h
  · exact ⟨‹_›, (Option.some.inj h).symm⟩
  · cases h

theorem callbackMove_eq_some {item : DeferredWorkItem} (h : q.callbackMove now = some (q', item)) :
    q.callback = .moving (some item) ∧
      q' = { (q.dequeue now).1 with callback := .moving (q.dequeue now).2 } := by
  unfold callbackMove at h
  split at h
  · cases h
    exact ⟨‹_›, rfl⟩
  · cases h

end DeferredWorkItemQueue

end Wq

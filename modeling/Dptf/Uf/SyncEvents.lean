import Dptf.Common.Queue
import Dptf.Lib.Machine

/-!
# Synchronous events

`EsifEventMgr_SignalSynchronousEvent` queues an event and waits for it to be processed, for a
limited time.  The caller and the item in the queue share a synchronization context, and
whichever is done with it last destroys it.
-/

open Lib

namespace Uf

/-! ## Events to wait on -/

/-- `esif_ccb_event_t`, with the count of its semaphore. -/
structure CcbEvent where
  signaled : Bool
  waiters : Nat
  semObj : Nat
deriving DecidableEq, Repr

namespace CcbEvent

/-- `esif_ccb_event_init`. -/
def init : CcbEvent := ⟨false, 0, 0⟩

/-- `esif_ccb_event_reset`. -/
def reset (e : CcbEvent) : CcbEvent := { e with signaled := false }

/-- `esif_ccb_event_release_waiters`. -/
def releaseWaiters (e : CcbEvent) : CcbEvent :=
  { e with waiters := 0, semObj := e.semObj + e.waiters }

/-- `esif_ccb_event_set`. -/
def set (e : CcbEvent) : CcbEvent := { e.releaseWaiters with signaled := true }

/-- `esif_ccb_event_wait` up to the semaphore: whether it goes that far. -/
def wait (e : CcbEvent) : Bool × CcbEvent :=
  if e.signaled then (false, e) else (true, { e with waiters := e.waiters + 1 })

/-- `esif_ccb_sem_down` on its semaphore: until it is up there is no step. -/
def semDown (e : CcbEvent) : Option CcbEvent :=
  if e.semObj = 0 then none else some { e with semObj := e.semObj - 1 }

end CcbEvent

/-- `EsifEventMgr_SynchronousEventContext`. -/
structure SyncContext where
  useComplete : Bool
  completionEvent : CcbEvent
deriving DecidableEq, Repr

namespace SyncContext

/-- A new context; its memory is zeroed. -/
def create : SyncContext := ⟨false, CcbEvent.init.reset⟩

/-- `DestroySynchronizationContext` under its lock: whether this thread is to destroy the
context. -/
def destroySynchronizationContext (c : SyncContext) : Bool × SyncContext :=
  if c.useComplete then (true, c) else (false, { c with useComplete := true })

end SyncContext

/-! ## The callers -/

/-- What `EsifEventMgr_SignalEvent_Local` meets with before the queue. -/
structure EventSignal where
  /-- The event is a filtered one. -/
  filtered : Bool
  /-- The item is allocated. -/
  itemAllocated : Bool
  /-- There is no data, or the memory for its copy is allocated. -/
  dataAllocated : Bool
deriving DecidableEq, Repr

/-- `EsifEventQueueItem`, as far as the context goes: its number, for the item of a caller. -/
structure SyncQueueItem where
  syncContext : Option Nat
deriving DecidableEq, Repr

/-- `eventQueuePtr`. -/
abbrev SyncQueue := Option (EsifQueue SyncQueueItem)

/-- `ESIF_E_EVENT_FILTERED`. -/
def esifEEventFiltered : EsifError := 3501

/-- `EsifEventMgr_SignalEvent_Local` up to `esif_queue_enqueue`. -/
def EventSignal.check (signal : EventSignal) (queue : SyncQueue) : EsifError :=
  if signal.filtered then esifEEventFiltered
  else if queue.isNone then esifEUnspecified
  else if !signal.itemAllocated then esifENoMemory
  else if !signal.dataAllocated then esifENoMemory
  else esifOk

/-- `esif_queue_enqueue` on `eventQueuePtr`; its node may not be allocated. -/
def SyncQueue.enqueue (queue : SyncQueue) (nodeAllocated : Bool) (item : SyncQueueItem) :
    EsifError × SyncQueue :=
  match queue with
  | none => (esifENoMemory, none)
  | some q =>
    if nodeAllocated then
      let (rc, q) := q.enqueue (some item)
      (rc, some q)
    else (esifENoMemory, some q)

/-- What is in the queue. -/
def SyncQueue.items (queue : SyncQueue) : List (Option SyncQueueItem) :=
  match queue with
  | none => []
  | some q => q.items

/-- Where a caller is in `EsifEventMgr_SignalSynchronousEvent`. -/
inductive CallerAt
  /-- In `EsifEventMgr_SignalEvent_Local`, before `esif_queue_enqueue`. -/
  | queuing
  /-- At its exit with an error, before `esif_ccb_event_set`. -/
  | failing
  /-- There, before `DestroySynchronizationContext`, -/
  | failed
  /-- and in it, with the context to destroy. -/
  | failedDestroying
  /-- Before `EsifTimedEventWait`. -/
  | signalled
  /-- In it, before `esif_ccb_event_wait`, -/
  | timed
  /-- at the semaphore, -/
  | waiting
  /-- and before `esif_ccb_timer_kill`. -/
  | woken
  /-- Before `DestroySynchronizationContext`, -/
  | leaving
  /-- and in it, with the context to destroy. -/
  | destroying
  | returned
deriving DecidableEq, Repr

/-- The timer of a wait. -/
inductive WaitTimer
  | idle
  | armed
  /-- It has fired, and its callback is going to release the waiters. -/
  | inCallback
deriving DecidableEq, Repr

/-- A call of `EsifEventMgr_SignalSynchronousEvent` that has its context. -/
structure SyncCall where
  rc : EsifError
  context : SyncContext
  caller : CallerAt
  timer : WaitTimer
  /-- How many times the context was destroyed. -/
  destroyed : Nat
deriving DecidableEq, Repr

namespace SyncCall

/-- The call at its beginning: what `EsifEventMgr_SignalEvent_Local` finds decides where it goes
on. -/
def create (rc : EsifError) : SyncCall :=
  ⟨rc, .create, if rc = esifOk then .queuing else .failing, .idle, 0⟩

/-- The caller goes on elsewhere. -/
def goto (c : SyncCall) (caller : CallerAt) : SyncCall := { c with caller := caller }

def setTimer (c : SyncCall) (timer : WaitTimer) : SyncCall := { c with timer := timer }

def setEvent (c : SyncCall) (event : CcbEvent) : SyncCall :=
  { c with context := { c.context with completionEvent := event } }

/-- `esif_ccb_event_set` on the context. -/
def set (c : SyncCall) : SyncCall := c.setEvent c.context.completionEvent.set

/-- `esif_ccb_event_uninit` and `esif_ccb_free`. -/
def destroy (c : SyncCall) : SyncCall := { c with destroyed := c.destroyed + 1 }

/-- The caller is back from `esif_queue_enqueue`. -/
def enqueued (c : SyncCall) (rc : EsifError) : SyncCall :=
  { c with rc := rc }.goto (if rc = esifOk then .signalled else .failing)

/-- `DestroySynchronizationContext` of the caller. -/
def leave (c : SyncCall) (destroys done : CallerAt) : SyncCall :=
  let (canDestroyContext, context) := c.context.destroySynchronizationContext
  { c with context := context }.goto (if canDestroyContext then destroys else done)

/-- The next step of the caller, not at the queue.  The timer may not be made, or not be set, as
for a wait of 0. -/
def next (c : SyncCall) (timerSet : Bool) : Option SyncCall :=
  match c.caller with
  | .queuing => none
  | .failing => some (c.set.goto .failed)
  | .failed => some (c.leave .failedDestroying .signalled)
  | .failedDestroying => some (c.destroy.goto .signalled)
  | .signalled =>
    if timerSet then some ((c.setTimer .armed).goto .timed) else some (c.goto .leaving)
  | .timed =>
    let (waits, event) := c.context.completionEvent.wait
    some ((c.setEvent event).goto (if waits then .waiting else .woken))
  | .waiting =>
    c.context.completionEvent.semDown.map fun event => (c.setEvent event).goto .woken
  | .woken =>
    -- a callback that has begun is not waited for
    some ((if c.timer = .armed then c.setTimer .idle else c).goto .leaving)
  | .leaving => some (c.leave .destroying .returned)
  | .destroying => some (c.destroy.goto .returned)
  | .returned => none

/-- The timer fires. -/
def fire (c : SyncCall) : Option SyncCall :=
  if c.timer = .armed then some (c.setTimer .inCallback) else none

/-- `EsifTimedEventWaitTimerCb`. -/
def callback (c : SyncCall) : Option SyncCall :=
  if c.timer = .inCallback then
    some ((c.setTimer .idle).setEvent c.context.completionEvent.releaseWaiters)
  else none

end SyncCall

/-! ## The event manager -/

/-- Where the event thread is in `EsifEventMgr_EventQueueThread`. -/
inductive ThreadAt
  /-- At the head of its loop. -/
  | looping
  /-- In `esif_queue_pull`. -/
  | pulling
  /-- With an item, before the waiters are released. -/
  | processing (item : SyncQueueItem)
  /-- Before `DestroySynchronizationContext`, -/
  | leaving (context : Nat)
  /-- and in it, with the context to destroy. -/
  | destroying (context : Nat)
  | exited
deriving DecidableEq, Repr

/-- The event manager; a context has the number of its call. -/
structure SyncEvents where
  queue : SyncQueue
  eventQueueExitFlag : Bool
  thread : ThreadAt
  calls : List SyncCall

/-- What happens next. -/
inductive SyncAction
  /-- `EsifEventMgr_SignalSynchronousEvent` is called. -/
  | call (signal : EventSignal)
  /-- `EsifEventMgr_SignalEvent` or another of its kind is called. -/
  | signal (signal : EventSignal) (nodeAllocated : Bool)
  /-- A caller goes on; what it asks the system for succeeds or not. -/
  | caller (i : Nat) (succeeds : Bool)
  | timerFires (i : Nat)
  | timerCallback (i : Nat)
  /-- The event thread goes on. -/
  | thread
  /-- `EsifEventMgr_Disable` up to its join. -/
  | disable
  /-- `EsifEventMgr_Exit` goes on with the destruction of the queue. -/
  | destroyQueue
deriving DecidableEq, Repr

namespace SyncEvents

/-- After `EsifEventMgr_Init`. -/
def start : SyncEvents := ⟨some (.create 0xFFFFFFFF), false, .looping, []⟩

/-- What is in the queue. -/
def items (s : SyncEvents) : List (Option SyncQueueItem) := s.queue.items

/-- A call becomes another one. -/
def setCall (s : SyncEvents) (i : Nat) (c : SyncCall) : SyncEvents :=
  { s with calls := s.calls.set i c }

/-- A step of a caller. -/
def callerStep (s : SyncEvents) (i : Nat) (succeeds : Bool) : Option SyncEvents :=
  s.calls[i]?.bind fun c =>
    if c.caller = .queuing then
      let (rc, queue) := s.queue.enqueue succeeds ⟨some i⟩
      some { s.setCall i (c.enqueued rc) with queue := queue }
    else (c.next succeeds).map fun c => s.setCall i c

/-- A step of `EsifEventMgr_EventQueueThread`. -/
def threadStep (s : SyncEvents) : Option SyncEvents :=
  match s.thread with
  | .looping => some { s with thread := if s.eventQueueExitFlag then .exited else .pulling }
  | .pulling =>
    match s.queue with
    | none => some { s with thread := .looping }
    | some q =>
      q.pull.map fun (item, q) =>
        { s with
          queue := some q
          thread := match item with
            | none => .looping
            | some item => .processing item }
  | .processing item =>
    match item.syncContext with
    | none => some { s with thread := .looping }
    | some i => s.calls[i]?.map fun c => { s.setCall i c.set with thread := .leaving i }
  | .leaving i =>
    s.calls[i]?.map fun c =>
      let (canDestroyContext, context) := c.context.destroySynchronizationContext
      { s.setCall i { c with context := context } with
        thread := if canDestroyContext then .destroying i else .looping }
  | .destroying i =>
    s.calls[i]?.map fun c => { s.setCall i c.destroy with thread := .looping }
  | .exited => none

/-- A step of `esif_queue_destroy`, once the event thread was joined: an item is given to
`EsifEventMgr_QueueDestroyCallback`, or the queue is empty and is freed. -/
def destroyStep (s : SyncEvents) : Option SyncEvents :=
  if s.thread = .exited then
    s.queue.map fun q =>
      match q.dequeue with
      | (some _, q) => { s with queue := some q }
      | (none, _) => { s with queue := none }
  else none

end SyncEvents

/-- A step. -/
def syncStep (s : SyncEvents) : SyncAction → Option SyncEvents
  | .call signal => some { s with calls := s.calls ++ [.create (signal.check s.queue)] }
  | .signal signal nodeAllocated =>
    if signal.check s.queue = esifOk then
      some { s with queue := (s.queue.enqueue nodeAllocated ⟨none⟩).2 }
    else some s
  | .caller i succeeds => s.callerStep i succeeds
  | .timerFires i => s.calls[i]?.bind fun c => c.fire.map fun c => s.setCall i c
  | .timerCallback i => s.calls[i]?.bind fun c => c.callback.map fun c => s.setCall i c
  | .thread => s.threadStep
  | .disable =>
    some
      { s with
        eventQueueExitFlag := true
        queue := s.queue.map fun q => { q with event := true } }
  | .destroyQueue => s.destroyStep

/-! ## What is to hold of a context -/

namespace SyncEvents

/-- The item of a caller is in the queue, or about to be processed. -/
def Pending (s : SyncEvents) (i : Nat) : Prop :=
  some ⟨some i⟩ ∈ s.items ∨ s.thread = .processing ⟨some i⟩

/-- The queue and its thread are not done with the context of a caller. -/
def InUse (s : SyncEvents) (i : Nat) : Prop :=
  s.Pending i ∨ s.thread = .leaving i ∨ s.thread = .destroying i

end SyncEvents

/-- The caller waits, or is about to. -/
def CallerAt.waits (a : CallerAt) : Prop := a = .signalled ∨ a = .timed ∨ a = .waiting

/-- The wait of a caller is over without its timer. -/
def SyncCall.WaitOver (c : SyncCall) : Prop :=
  c.context.completionEvent.signaled = true ∧
    (c.caller = .waiting → 0 < c.context.completionEvent.semObj)

/-- A context is destroyed once, after the caller and the queue are done with it, and the caller
does not wait for its timer when its item is gone. -/
structure ReleasedCall (s : SyncEvents) (i : Nat) (c : SyncCall) : Prop where
  atMostOnce : c.destroyed ≤ 1
  afterBoth : 0 < c.destroyed → c.caller = .returned ∧ ¬s.InUse i
  inTheEnd : c.caller = .returned → ¬s.InUse i → c.destroyed = 1
  waitOver : c.caller.waits → ¬s.Pending i → c.WaitOver

/-- All contexts are. -/
def Released (s : SyncEvents) : Prop := ∀ i c, s.calls[i]? = some c → ReleasedCall s i c

end Uf

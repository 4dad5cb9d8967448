import Dptf.Arb.Entry
import Dptf.Common.Queue
import Dptf.Lib.Machine

/-!
# The primitive queue and its execution thread

Callers queue SET primitives, each under `primitiveQueueLock`, and one thread
pulls and executes them.  A GET may have to wait for a SET that is still on its
way: it is executed at once unless an item in the queue says that it must be
delayed.  Since a request leaves the queue before it is executed, a request that
delays another is shadowed by a dummy copy right behind it.

The steps are the accesses of `QueueAction`.  Pulling does not take
`primitiveQueueLock`, so the thread may take a request before its copy is in the
queue; a section that still owes its copy holds the lock, and while it does no
other section runs.

`queued`, `executed`, `checks` and `getExecs` record what has happened; the code
does not read them.
-/

open Lib

namespace Arb

/-- Where the execution thread stands. -/
inductive Consumer where
  /-- About to pull. -/
  | pulling
  /-- It has pulled a request and executes it. -/
  | executing (req : EsifArbPrimReq)
  /-- The request is executed, its dummy not yet looked for. -/
  | executed (req : EsifArbPrimReq)
deriving DecidableEq, Repr

/-- A GET at its `EsifArbMgr_MustDelayPrimitive_Locked` check. -/
structure GetCheck where
  primitiveId : EsifPrimitiveType
  /-- How many requests had been queued by then. -/
  seen : Nat
deriving DecidableEq, Repr

/-- A GET that has been executed. -/
structure GetExec where
  /-- The position of its check among all checks. -/
  call : Nat
  /-- How many queued requests had been executed by then. -/
  executedBefore : Nat
deriving DecidableEq, Repr

/-- The queue, its thread, and the calls under way. -/
structure QueueState where
  /-- `primitiveQueuePtr`. -/
  queue : EsifQueue EsifArbPrimReq
  /-- The copy that the section holding `primitiveQueueLock` has yet to enqueue. -/
  owedCopy : Option EsifArbPrimReq
  consumer : Consumer
  /-- GETs that passed the check and will be executed without the queue. -/
  direct : List Nat
  /-- The requests queued so far, without copies. -/
  queued : List EsifArbPrimReq
  /-- The queued requests executed so far. -/
  executed : List EsifArbPrimReq
  checks : List GetCheck
  getExecs : List GetExec

/-- `ESIF_UF_ARBMGR_QUEUE_SIZE`. -/
def esifUfArbmgrQueueSize : Nat := 0xFFFFFFFF

/-- The queue after `EsifArbMgr_Init`. -/
def QueueState.init : QueueState where
  queue := EsifQueue.create esifUfArbmgrQueueSize
  owedCopy := none
  consumer := .pulling
  direct := []
  queued := []
  executed := []
  checks := []
  getExecs := []

/-- One atomic access. -/
inductive QueueAction where
  /-- A SET is queued by an entry: the first enqueue of the lock section, and the whole
  section if no copy is needed. -/
  | queueSet (participantId : EsifHandle) (primitiveId : EsifPrimitiveType) (domain : UInt16)
      (inst : UInt8) (data : EsifData) (requiresDelay : Bool)
  /-- The second enqueue of a section, and its end. -/
  | queueCopy
  /-- The lock section of `EsifArbMgr_ExecuteUnarbitratedPrimitive`. -/
  | checkGet (participantId : EsifHandle) (primitiveId : EsifPrimitiveType) (domain : UInt16)
      (inst : UInt8) (request : Option EsifData)
  /-- A GET that need not wait is executed by its caller. -/
  | executeDirect (call : Nat)
  /-- The thread pulls an item. -/
  | pull
  /-- The thread executes the request it holds. -/
  | execute
  /-- The thread's lock section after an execution. -/
  | removeDummy
deriving DecidableEq, Repr

/-- `EsifArbMgr_MustDelayPrimitive_Locked`. -/
def mustDelayPrimitive (queue : EsifQueue EsifArbPrimReq) (primitiveId : EsifPrimitiveType) :
    Bool :=
  queue.items.any fun item =>
    item.any fun req => req.requiresDelay && primitiveId == req.delayedPrimitiveId

namespace QueueState

variable {s s' : QueueState}

/-- The first enqueue of `EsifArbMgr_QueuePrimitiveRequest_Locked`; the copy, if one is
needed, is owed.  The queue has room for the request and its copy. -/
def enqueueRequest (s : QueueState) (req : EsifArbPrimReq) : Option QueueState :=
  let (rc, queue) := s.queue.enqueue (some req)
  if s.owedCopy = none ∧ rc = esifOk ∧
      queue.items.length + req.dummy?.toList.length ≤ queue.maxSize then
    some { s with queue := queue, owedCopy := req.dummy?, queued := s.queued ++ [req] }
  else none

theorem enqueueRequest_eq_some {req : EsifArbPrimReq} (h : s.enqueueRequest req = some s') :
    s.owedCopy = none ∧ s.queue.items.length + 1 + req.dummy?.toList.length ≤ s.queue.maxSize ∧
      s' = { s with
        queue := { s.queue with items := s.queue.items ++ [some req], event := true }
        owedCopy := req.dummy?
        queued := s.queued ++ [req] } := by
  by_cases hroom : s.queue.items.length < s.queue.maxSize
  · simp only [enqueueRequest, EsifQueue.enqueue_of_lt hroom] at h
    split at h
    · rename_i hok
      exact ⟨hok.1, by simpa using hok.2.2, (Option.some.inj h).symm⟩
    · cases h
  · have hfull : s.queue.enqueue (some req) = (esifENoMemory, s.queue) :=
      if_pos (Nat.not_lt.mp hroom)
    have hrc : esifENoMemory ≠ esifOk := by decide
    simp [enqueueRequest, hfull, hrc] at h

/-- The enqueue of the copy. -/
def enqueueCopy (s : QueueState) : Option QueueState :=
  match s.owedCopy with
  | none => none
  | some copy =>
    let (rc, queue) := s.queue.enqueue (some copy)
    if rc = esifOk then some { s with queue := queue, owedCopy := none } else none

theorem enqueueCopy_eq_some (h : s.enqueueCopy = some s') :
    ∃ copy, s.owedCopy = some copy ∧ s.queue.items.length < s.queue.maxSize ∧ s' = { s with
        queue := { s.queue with items := s.queue.items ++ [some copy], event := true }
        owedCopy := none } := by
  cases hcopy : s.owedCopy with
  | none => simp [enqueueCopy, hcopy] at h
  | some copy =>
    by_cases hroom : s.queue.items.length < s.queue.maxSize
    · refine ⟨copy, rfl, hroom, ?_⟩
      simpa [enqueueCopy, hcopy, EsifQueue.enqueue_of_lt hroom, eq_comm] using h
    · have hfull : s.queue.enqueue (some copy) = (esifENoMemory, s.queue) :=
        if_pos (Nat.not_lt.mp hroom)
      have hrc : esifENoMemory ≠ esifOk := by decide
      simp [enqueueCopy, hcopy, hfull, hrc] at h

/-- The request of a GET that must wait: the response, event and status pointers are
those of the call. -/
def getRequest (call : Nat) (participantId : EsifHandle) (primitiveId : EsifPrimitiveType)
    (domain : UInt16) (inst : UInt8) (request : Option EsifData) : EsifArbPrimReq :=
  EsifArbPrimReq.create participantId primitiveId domain inst request (some call) (some call)
    (some call) false

/-- The record of a check. -/
def recordCheck (s : QueueState) (primitiveId : EsifPrimitiveType) : QueueState :=
  { s with checks := s.checks ++ [GetCheck.mk primitiveId s.queued.length] }

/-- The check of a GET, and its queueing if it must wait. -/
def checkGet (s : QueueState) (participantId : EsifHandle) (primitiveId : EsifPrimitiveType)
    (domain : UInt16) (inst : UInt8) (request : Option EsifData) : Option QueueState :=
  let call := s.checks.length
  let s' := s.recordCheck primitiveId
  if s.owedCopy ≠ none then none
  else if mustDelayPrimitive s.queue primitiveId then
    s'.enqueueRequest (getRequest call participantId primitiveId domain inst request)
  else some { s' with direct := call :: s.direct }

/-- A check either queues the GET or lets its caller execute it. -/
theorem checkGet_eq_some {participantId : EsifHandle} {primitiveId : EsifPrimitiveType}
    {domain : UInt16} {inst : UInt8} {request : Option EsifData}
    (h : s.checkGet participantId primitiveId domain inst request = some s') :
    s.owedCopy = none ∧ ((mustDelayPrimitive s.queue primitiveId = true ∧
        (s.recordCheck primitiveId).enqueueRequest
          (getRequest s.checks.length participantId primitiveId domain inst request) = some s') ∨
      (mustDelayPrimitive s.queue primitiveId = false ∧
        s' = { s.recordCheck primitiveId with direct := s.checks.length :: s.direct })) := by
  unfold checkGet at h
  by_cases howed : s.owedCopy = none
  · refine ⟨howed, ?_⟩
    cases hdelay : mustDelayPrimitive s.queue primitiveId with
    | true => exact Or.inl ⟨rfl, by simpa [howed, hdelay] using h⟩
    | false => exact Or.inr ⟨rfl, by simpa [howed, hdelay, eq_comm] using h⟩
  · simp [howed] at h

/-- The execution of a GET by its caller. -/
def executeDirect (s : QueueState) (call : Nat) : Option QueueState :=
  if call ∈ s.direct then
    some { s with
      direct := s.direct.erase call
      getExecs := s.getExecs ++ [⟨call, s.executed.length⟩] }
  else none

/-- The pull of the thread: a null item and a dummy are dropped. -/
def pull (s : QueueState) : Option QueueState :=
  match s.consumer, s.queue.pull with
  | .pulling, some (item, queue) =>
    match item with
    | none => some { s with queue := queue }
    | some req =>
      if req.isDummyRequest then some { s with queue := queue }
      else some { s with queue := queue, consumer := .executing req }
  | _, _ => none

/-- The execution of the request the thread holds; a waiting GET gets its result. -/
def execute (s : QueueState) : Option QueueState :=
  match s.consumer with
  | .executing req =>
    some { s with
      consumer := .executed req
      executed := s.executed ++ [req]
      getExecs := s.getExecs ++
        (req.completionStatusPtr.map fun call => GetExec.mk call s.executed.length).toList }
  | _ => none

/-- After an execution: the item at the front is dropped if it is the dummy of the request
and put back, null or not, if it is anything else. -/
def removeDummy (s : QueueState) : Option QueueState :=
  match s.consumer with
  | .executed req =>
    if s.owedCopy ≠ none then none
    else
      let (item, queue) := s.queue.dequeue
      if item.any fun dummy => dummy.isDummyRequest && req.primitiveId == dummy.primitiveId then
        some { s with queue := queue, consumer := .pulling }
      else some { s with queue := (queue.requeue item).2, consumer := .pulling }
  | _ => none

/-! What the steps of callers and thread can do. -/

theorem executeDirect_eq_some {call : Nat} (h : s.executeDirect call = some s') :
    call ∈ s.direct ∧ s' = { s with
      direct := s.direct.erase call
      getExecs := s.getExecs ++ [⟨call, s.executed.length⟩] } := by
  unfold executeDirect at h
  split at h
  · rename_i hmem
    exact ⟨hmem, (Option.some.inj h).symm⟩
  · cases h

theorem pull_eq_some (hevent : s.queue.EventMatches) (h : s.pull = some s') :
    s.consumer = .pulling ∧ ∃ item rest, s.queue.items = item :: rest ∧ s' = { s with
        queue := { s.queue with items := rest, event := !rest.isEmpty }
        consumer := match item with
          | none => .pulling
          | some req => if req.isDummyRequest then .pulling else .executing req } := by
  unfold pull at h
  split at h
  · rename_i item queue hcons hpull
    obtain ⟨rest, hitems, rfl⟩ := EsifQueue.pull_eq_some hevent hpull
    refine ⟨hcons, item, rest, hitems, ?_⟩
    cases item with
    | none => simpa [hcons, eq_comm] using h
    | some req =>
      simp only at h ⊢
      split at h <;> simp_all
  · cases h

theorem execute_eq_some (h : s.execute = some s') :
    ∃ req, s.consumer = .executing req ∧ s' = { s with
      consumer := .executed req
      executed := s.executed ++ [req]
      getExecs := s.getExecs ++
        (req.completionStatusPtr.map fun call => GetExec.mk call s.executed.length).toList } := by
  unfold execute at h
  split at h
  · rename_i req hcons
    exact ⟨req, hcons, (Option.some.inj h).symm⟩
  · cases h

theorem removeDummy_eq_some (h : s.removeDummy = some s') :
    ∃ req, s.consumer = .executed req ∧ s.owedCopy = none ∧ s' = { s with
      queue :=
        if s.queue.dequeue.1.any fun dummy =>
            dummy.isDummyRequest && req.primitiveId == dummy.primitiveId then s.queue.dequeue.2
        else (s.queue.dequeue.2.requeue s.queue.dequeue.1).2
      consumer := .pulling } := by
  unfold removeDummy at h
  split at h
  · rename_i req hcons
    split at h
    · cases h
    · rename_i howed
      refine ⟨req, hcons, by simpa using howed, ?_⟩
      simp only at h
      split at h
      · rename_i hdummy
        rw [if_pos hdummy]
        exact (Option.some.inj h).symm
      · rename_i hdummy
        rw [if_neg hdummy]
        exact (Option.some.inj h).symm
  · cases h

end QueueState

/-- One step of the callers and the execution thread. -/
def queueStep (s : QueueState) : QueueAction → Option QueueState
  | .queueSet participantId primitiveId domain inst data requiresDelay =>
    s.enqueueRequest (EsifArbPrimReq.create participantId primitiveId domain inst (some data) none
      none none requiresDelay)
  | .queueCopy => s.enqueueCopy
  | .checkGet participantId primitiveId domain inst request =>
    s.checkGet participantId primitiveId domain inst request
  | .executeDirect call => s.executeDirect call
  | .pull => s.pull
  | .execute => s.execute
  | .removeDummy => s.removeDummy

end Arb

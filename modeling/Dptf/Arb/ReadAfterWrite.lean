import Dptf.Arb.PrimitiveQueue
import Mathlib.Data.List.ReduceOption

/-!
# A GET sees the SETs queued before it

What is in the queue, together with the copy still owed, is the shadow of the
request in the thread's hands followed by the pending requests, each in front of
its own shadow (`Shape`).  Everything else follows from that:

* `readAfterWrite` — **order, no execution of dummies, reads after writes, and the
  thread can always finish what is queued**.
-/

open Lib

namespace Arb

variable {s s' : QueueState} {pend : List (Option EsifArbPrimReq)} {seen n i : Nat}
  {req : EsifArbPrimReq} {primitiveId : EsifPrimitiveType} {queued : List EsifArbPrimReq}

/-! ## Shadows -/

/-- The copy behind a request, as an item of the queue. -/
def shadow (req : EsifArbPrimReq) : List (Option EsifArbPrimReq) := req.dummy?.toList.map some

/-- An item that is not a dummy, with its shadow. -/
def withShadow : Option EsifArbPrimReq → List (Option EsifArbPrimReq)
  | none => [none]
  | some req => some req :: shadow req

/-- The shadow of the request the thread holds. -/
def Consumer.shadow : Consumer → List (Option EsifArbPrimReq)
  | .pulling => []
  | .executing req => Arb.shadow req
  | .executed req => Arb.shadow req

/-- The request that has left the queue and is not executed yet. -/
def Consumer.inFlight : Consumer → List EsifArbPrimReq
  | .executing req => [req]
  | _ => []

theorem dummy?_isDummyRequest {req copy : EsifArbPrimReq} (h : req.dummy? = some copy) :
    copy = { req with isDummyRequest := true } ∧ req.requiresDelay ∧ req.delayedPrimitiveId ≠ 0 := by
  unfold EsifArbPrimReq.dummy? at h
  split at h
  · rename_i hdelay
    simp only [Bool.and_eq_true, decide_eq_true_eq] at hdelay
    exact ⟨(Option.some.inj h).symm, hdelay⟩
  · cases h

/-! ## The shape of the queue -/

/-- The queue's items and the copy that is owed to it. -/
def QueueState.owing (s : QueueState) : List (Option EsifArbPrimReq) :=
  s.queue.items ++ s.owedCopy.toList.map some

/-- `pend` is what the thread has still to pull, without shadows. -/
structure Shape (s : QueueState) (pend : List (Option EsifArbPrimReq)) : Prop where
  owing : s.owing = s.consumer.shadow ++ pend.flatMap withShadow
  /-- Requests are executed in the order they were queued. -/
  order : s.executed ++ s.consumer.inFlight ++ pend.reduceOption = s.queued
  /-- What was queued as a request is not a dummy. -/
  real : ∀ req ∈ s.queued, req.isDummyRequest = false
  owed : ∀ copy, s.owedCopy = some copy →
    copy.isDummyRequest = true ∧ s.queue.items.length < s.queue.maxSize
  event : s.queue.EventMatches
  room : s.queue.items.length ≤ s.queue.maxSize
  maxSize : 0 < s.queue.maxSize

theorem Shape.real_of_mem_pend (h : Shape s pend) (req : EsifArbPrimReq) (hreq : some req ∈ pend) :
    req.isDummyRequest = false := by
  refine h.real req ?_
  rw [← h.order]
  simp [List.reduceOption_mem_iff, hreq]

theorem shape_init : Shape QueueState.init [] where
  owing := rfl
  order := rfl
  real := by simp [QueueState.init]
  owed := by simp [QueueState.init]
  event := rfl
  room := by simp [QueueState.init, EsifQueue.create]
  maxSize := by decide

theorem shape_enqueueRequest (hreal : req.isDummyRequest = false)
    (hstep : s.enqueueRequest req = some s') (h : Shape s pend) :
    Shape s' (pend ++ [some req]) := by
  obtain ⟨howed, hroom, rfl⟩ := QueueState.enqueueRequest_eq_some hstep
  have howing : s.queue.items = s.consumer.shadow ++ pend.flatMap withShadow := by
    simpa [QueueState.owing, howed] using h.owing
  constructor
  · simp [QueueState.owing, howing, withShadow, shadow]
  · rw [← h.order, List.reduceOption_append]
    simp
  · intro r hr
    rcases List.mem_append.mp hr with hr | hr
    · exact h.real r hr
    · obtain rfl := List.mem_singleton.mp hr
      exact hreal
  · intro copy hcopy
    have hlen : req.dummy?.toList.length = 1 := by simp [show req.dummy? = some copy from hcopy]
    refine ⟨?_, ?_⟩
    · rw [(dummy?_isDummyRequest hcopy).1]
    · simp only [List.length_append, List.length_singleton]
      omega
  · simp [EsifQueue.EventMatches]
  · simp only [List.length_append, List.length_singleton]
    omega
  · exact h.maxSize

theorem shape_enqueueCopy (hstep : s.enqueueCopy = some s') (h : Shape s pend) : Shape s' pend := by
  obtain ⟨copy, howed, hroom, rfl⟩ := QueueState.enqueueCopy_eq_some hstep
  constructor
  · rw [← h.owing]
    simp [QueueState.owing, howed]
  · exact h.order
  · exact h.real
  · intro copy hcopy
    cases hcopy
  · simp [EsifQueue.EventMatches]
  · simp only [List.length_append, List.length_singleton]
    omega
  · exact h.maxSize

theorem shape_pull (hstep : s.pull = some s') (h : Shape s pend) :
    ∃ item rest, pend = item :: rest ∧ Shape s' rest ∧ s'.consumer = (match item with
        | none => .pulling
        | some req => .executing req) ∧
      s'.owedCopy = s.owedCopy ∧ s'.executed = s.executed ∧ s'.queued = s.queued := by
  obtain ⟨hcons, item, rest, hitems, rfl⟩ := QueueState.pull_eq_some h.event hstep
  have howing : item :: (rest ++ s.owedCopy.toList.map some) = pend.flatMap withShadow := by
    simpa [QueueState.owing, hcons, Consumer.shadow, hitems] using h.owing
  cases pend with
  | nil => simp at howing
  | cons first pend =>
    -- the front of the queue is the front of the pending items, and no dummy
    have hfirst : first = item ∧ rest ++ s.owedCopy.toList.map some = (match first with
          | none => []
          | some req => shadow req) ++ pend.flatMap withShadow := by
      cases first with
      | none => simpa [withShadow, eq_comm] using howing
      | some req => simpa [withShadow, eq_comm] using howing
    obtain ⟨rfl, hrest⟩ := hfirst
    have horder := h.order
    have hroom := h.room
    rw [hitems, List.length_cons] at hroom
    have howed : ∀ copy, s.owedCopy = some copy →
        copy.isDummyRequest = true ∧ rest.length < s.queue.maxSize :=
      fun copy hcopy => ⟨(h.owed copy hcopy).1, by omega⟩
    refine ⟨first, pend, rfl, ?_, ?_, rfl, rfl, rfl⟩
    · cases first with
      | none =>
        refine ⟨hrest, ?_, h.real, howed, ?_, ?_, h.maxSize⟩
        · simpa [hcons, Consumer.inFlight] using horder
        · simp [EsifQueue.EventMatches]
        · simp only
          omega
      | some req =>
        have hreal := h.real_of_mem_pend req (by simp)
        simp only [hreal, Bool.false_eq_true, if_false]
        refine ⟨hrest, ?_, h.real, howed, ?_, ?_, h.maxSize⟩
        · simpa [hcons, Consumer.inFlight] using horder
        · simp [EsifQueue.EventMatches]
        · simp only
          omega
    · cases first with
      | none => rfl
      | some req => simp [h.real_of_mem_pend req (by simp)]

theorem shape_execute (hstep : s.execute = some s') (h : Shape s pend) : Shape s' pend := by
  obtain ⟨req, hcons, rfl⟩ := QueueState.execute_eq_some hstep
  have horder : s.executed ++ [req] ++ pend.reduceOption = s.queued := by
    simpa [hcons, Consumer.inFlight] using h.order
  refine ⟨?_, ?_, h.real, h.owed, h.event, h.room, h.maxSize⟩
  · have howing := h.owing
    rw [hcons] at howing
    exact howing
  · simpa [Consumer.inFlight] using horder

/-- After an execution the thread drops its own dummy, or puts back what it found. -/
theorem shape_removeDummy (hstep : s.removeDummy = some s') (h : Shape s pend) :
    ∃ pend', Shape s' pend' ∧ (pend ≠ [] → pend' = pend) ∧
      pend'.reduceOption = pend.reduceOption ∧ s'.consumer = .pulling ∧
      s'.owedCopy = none ∧ s'.executed = s.executed ∧ s'.queued = s.queued := by
  obtain ⟨req, hcons, howed, rfl⟩ := QueueState.removeDummy_eq_some hstep
  have howing : s.queue.items = shadow req ++ pend.flatMap withShadow := by
    simpa [QueueState.owing, howed, hcons, Consumer.shadow] using h.owing
  have horder : s.executed ++ pend.reduceOption = s.queued := by
    simpa [hcons, Consumer.inFlight] using h.order
  cases hdummy : req.dummy? with
  | some copy =>
    obtain ⟨rfl, -, -⟩ := dummy?_isDummyRequest hdummy
    have hitems : s.queue.items = some { req with isDummyRequest := true } ::
        pend.flatMap withShadow := by
      simpa [shadow, hdummy] using howing
    have hset : s.queue.event = true := by
      simpa [EsifQueue.EventMatches, hitems] using h.event
    have hroom := h.room
    rw [hitems, List.length_cons] at hroom
    refine ⟨pend, ⟨?_, ?_, h.real, ?_, ?_, ?_, ?_⟩, fun _ => rfl, rfl, rfl, howed, rfl, rfl⟩
    · simp [QueueState.owing, howed, EsifQueue.dequeue, hitems, Consumer.shadow]
    · simpa [Consumer.inFlight] using horder
    · simp [howed]
    · cases hflat : pend.flatMap withShadow <;>
        simp [EsifQueue.EventMatches, EsifQueue.dequeue, hitems, hflat, hset]
    · simp only [EsifQueue.dequeue, hitems, Option.any_some, BEq.rfl, Bool.and_true, if_true]
      omega
    · simpa [EsifQueue.dequeue, hitems] using h.maxSize
  | none =>
    have hitems : s.queue.items = pend.flatMap withShadow := by
      simpa [shadow, hdummy] using howing
    cases pend with
    | nil =>
      -- an empty queue gets a null item back
      have hempty : s.queue.items = [] := by simpa using hitems
      have hlt : 0 < s.queue.maxSize := h.maxSize
      refine ⟨[none], ⟨?_, ?_, h.real, ?_, ?_, ?_, ?_⟩, fun hne => absurd rfl hne, rfl,
        rfl, howed, rfl, rfl⟩
      · simp [QueueState.owing, howed, EsifQueue.dequeue, EsifQueue.requeue, hempty,
          Consumer.shadow, withShadow, Nat.not_le.mpr hlt]
      · simpa [Consumer.inFlight] using horder
      · simp [howed]
      · simp [EsifQueue.EventMatches, EsifQueue.dequeue, EsifQueue.requeue, hempty,
          Nat.not_le.mpr hlt]
      · simp [EsifQueue.dequeue, EsifQueue.requeue, hempty, Nat.not_le.mpr hlt]
        omega
      · simpa [EsifQueue.dequeue, EsifQueue.requeue, hempty, Nat.not_le.mpr hlt] using hlt
    | cons first rest =>
      -- the item at the front is null or a request, and goes back
      obtain ⟨tail, htail⟩ : ∃ tail, s.queue.items = first :: tail := by
        rw [hitems]
        cases first <;> exact ⟨_, rfl⟩
      have hkeep : (first.any fun dummy =>
          dummy.isDummyRequest && req.primitiveId == dummy.primitiveId) = false := by
        cases first with
        | none => rfl
        | some r => simp [h.real_of_mem_pend r (by simp)]
      have hqueue := EsifQueue.requeue_dequeue_of_cons htail h.event h.room
      have hfront : s.queue.dequeue.1 = first := by simp [EsifQueue.dequeue, htail]
      rw [hfront] at hqueue
      rw [hfront, hkeep, hqueue]
      refine ⟨first :: rest, ⟨?_, ?_, h.real, h.owed, h.event, h.room, h.maxSize⟩,
        fun _ => rfl, rfl, rfl, howed, rfl, rfl⟩
      · simp [QueueState.owing, howed, hitems, Consumer.shadow]
      · simpa [Consumer.inFlight] using horder

/-! ## Reads after writes -/

/-- Of the first `seen` requests queued, each that delays `primitiveId` is among the first
`n` executed. -/
def Written (queued : List EsifArbPrimReq) (primitiveId : EsifPrimitiveType) (seen n : Nat) :
    Prop :=
  ∀ i < seen, ∀ set, queued[i]? = some set → set.requiresDelay = true →
    set.delayedPrimitiveId = primitiveId → i < n

theorem Written.mono {seen n m : Nat} (h : Written queued primitiveId seen n) (hnm : n ≤ m) :
    Written queued primitiveId seen m :=
  fun i hi set hset hdelay hprim => Nat.lt_of_lt_of_le (h i hi set hset hdelay hprim) hnm

theorem Written.append (h : Written queued primitiveId seen n) (hseen : seen ≤ queued.length)
    (more : List EsifArbPrimReq) : Written (queued ++ more) primitiveId seen n := by
  intro i hi set hset
  rw [List.getElem?_append_left (Nat.lt_of_lt_of_le hi hseen)] at hset
  exact h i hi set hset

theorem written_of_le (h : seen ≤ n) : Written queued primitiveId seen n :=
  fun _ hi _ _ _ _ => Nat.lt_of_lt_of_le hi h

theorem getElem?_append_of_eq_some {α : Type} {l more : List α} {a : α} (h : l[i]? = some a) :
    (l ++ more)[i]? = some a := by
  rw [List.getElem?_append_left (List.getElem?_eq_some_iff.mp h).1]
  exact h

/-- **A SET that is not executed yet delays its GET**: it is in the queue, or its shadow is. -/
theorem mustDelayPrimitive_of_pending (h : Shape s pend) (howed : s.owedCopy = none)
    {set : EsifArbPrimReq} (hset : s.queued[i]? = some set) (hi : s.executed.length ≤ i)
    (hdelay : set.requiresDelay = true) (hne : set.delayedPrimitiveId ≠ 0) :
    mustDelayPrimitive s.queue set.delayedPrimitiveId = true := by
  have howing : s.queue.items = s.consumer.shadow ++ pend.flatMap withShadow := by
    simpa [QueueState.owing, howed] using h.owing
  have hmem : set ∈ s.consumer.inFlight ++ pend.reduceOption := by
    rw [← h.order, List.append_assoc, List.getElem?_append_right hi] at hset
    exact List.mem_of_getElem? hset
  have hitem : ∃ req, some req ∈ s.queue.items ∧ req.requiresDelay = true ∧
      req.delayedPrimitiveId = set.delayedPrimitiveId := by
    rw [howing]
    rcases List.mem_append.mp hmem with hmem | hmem
    · -- in the thread's hands: its shadow is at the front
      cases hcons : s.consumer with
      | executing req =>
        obtain rfl : set = req := by simpa [hcons, Consumer.inFlight] using hmem
        exact ⟨{ set with isDummyRequest := true },
          by simp [Consumer.shadow, shadow, EsifArbPrimReq.dummy?, hdelay, hne], hdelay, rfl⟩
      | pulling => simp [hcons, Consumer.inFlight] at hmem
      | executed req => simp [hcons, Consumer.inFlight] at hmem
    · refine ⟨set, List.mem_append_right _ (List.mem_flatMap.mpr ⟨some set, ?_, ?_⟩), hdelay, rfl⟩
      · exact List.reduceOption_mem_iff.mp hmem
      · simp [withShadow]
  obtain ⟨req, hreq, hreqDelay, hprim⟩ := hitem
  refine List.any_eq_true.mpr ⟨some req, hreq, ?_⟩
  simp [hreqDelay, hprim]

/-- What is known of the GETs. -/
structure GetInv (s : QueueState) : Prop where
  seen : ∀ c ∈ s.checks, c.seen ≤ s.queued.length
  /-- A GET that its caller will execute has nothing to wait for. -/
  direct : ∀ call ∈ s.direct, ∃ c, s.checks[call]? = some c ∧
    (c.primitiveId ≠ 0 → Written s.queued c.primitiveId c.seen s.executed.length)
  /-- A GET in the queue stands behind everything its check has seen. -/
  waiting : ∀ (j : Nat) (req : EsifArbPrimReq) (call : Nat), s.queued[j]? = some req →
    req.completionStatusPtr = some call → ∃ c, s.checks[call]? = some c ∧ c.seen = j
  execs : ∀ e ∈ s.getExecs, ∃ c, s.checks[e.call]? = some c ∧
    (c.primitiveId ≠ 0 → Written s.queued c.primitiveId c.seen e.executedBefore)

theorem getInv_init : GetInv QueueState.init := by
  constructor <;> simp [QueueState.init]

/-- Queueing one more request changes nothing for the GETs before. -/
theorem GetInv.enqueueRequest (h : GetInv s) (hstep : s.enqueueRequest req = some s')
    (hreq : ∀ call, req.completionStatusPtr = some call →
      ∃ c, s.checks[call]? = some c ∧ c.seen = s.queued.length) : GetInv s' := by
  obtain ⟨-, -, rfl⟩ := QueueState.enqueueRequest_eq_some hstep
  have hseen : ∀ {call : Nat} {c : GetCheck}, s.checks[call]? = some c →
      c.seen ≤ s.queued.length := fun hc => h.seen _ (List.mem_of_getElem? hc)
  constructor
  · intro c hc
    have := h.seen c hc
    simp only [List.length_append]
    omega
  · intro call hcall
    obtain ⟨c, hc, hwritten⟩ := h.direct call hcall
    exact ⟨c, hc, fun hne => (hwritten hne).append (hseen hc) _⟩
  · intro j r call hj hcall
    rcases Nat.lt_or_ge j s.queued.length with hlt | hge
    · rw [List.getElem?_append_left hlt] at hj
      exact h.waiting j r call hj hcall
    · obtain rfl : j = s.queued.length := by
        have := (List.getElem?_eq_some_iff.mp hj).1
        simp only [List.length_append, List.length_singleton] at this
        omega
      obtain rfl : req = r := by simpa using hj
      exact hreq call hcall
  · intro e he
    obtain ⟨c, hc, hwritten⟩ := h.execs e he
    exact ⟨c, hc, fun hne => (hwritten hne).append (hseen hc) _⟩

/-- One more check changes nothing for the GETs before. -/
theorem GetInv.recordCheck (h : GetInv s) (primitiveId : EsifPrimitiveType) :
    GetInv (s.recordCheck primitiveId) := by
  constructor
  · intro c hc
    rcases List.mem_append.mp hc with hc | hc
    · exact h.seen c hc
    · obtain rfl := List.mem_singleton.mp hc
      exact Nat.le_refl _
  · intro call hcall
    obtain ⟨c, hc, hwritten⟩ := h.direct call hcall
    exact ⟨c, getElem?_append_of_eq_some hc, hwritten⟩
  · intro j r call hj hcall
    obtain ⟨c, hc, hseen⟩ := h.waiting j r call hj hcall
    exact ⟨c, getElem?_append_of_eq_some hc, hseen⟩
  · intro e he
    obtain ⟨c, hc, hwritten⟩ := h.execs e he
    exact ⟨c, getElem?_append_of_eq_some hc, hwritten⟩

theorem GetInv.checkGet {participantId : EsifHandle} {domain : UInt16} {inst : UInt8}
    {request : Option EsifData} (h : GetInv s) (hshape : Shape s pend)
    (hstep : s.checkGet participantId primitiveId domain inst request = some s') : GetInv s' := by
  have hlast : (s.checks ++ [GetCheck.mk primitiveId s.queued.length])[s.checks.length]? =
      some ⟨primitiveId, s.queued.length⟩ := by simp
  obtain ⟨howed, ⟨-, henqueue⟩ | ⟨hdelay, rfl⟩⟩ := QueueState.checkGet_eq_some hstep
  · refine (h.recordCheck primitiveId).enqueueRequest henqueue ?_
    rintro call ⟨⟩
    exact ⟨_, hlast, rfl⟩
  · have hcheck := h.recordCheck primitiveId
    refine ⟨hcheck.seen, ?_, hcheck.waiting, hcheck.execs⟩
    intro call hcall
    rcases List.mem_cons.mp hcall with rfl | hcall
    · refine ⟨_, hlast, fun hne i _ set hset hreq hprim => ?_⟩
      -- had it not been executed, the check would have found it
      by_contra hi
      have := mustDelayPrimitive_of_pending hshape howed hset (Nat.not_lt.mp hi) hreq (hprim ▸ hne)
      rw [hprim, hdelay] at this
      cases this
    · exact hcheck.direct call hcall

theorem GetInv.executeDirect {call : Nat} (h : GetInv s) (hstep : s.executeDirect call = some s') :
    GetInv s' := by
  obtain ⟨hcall, rfl⟩ := QueueState.executeDirect_eq_some hstep
  refine ⟨h.seen, fun k hk => h.direct k (List.mem_of_mem_erase hk), h.waiting, ?_⟩
  intro e he
  rcases List.mem_append.mp he with he | he
  · exact h.execs e he
  · obtain rfl := List.mem_singleton.mp he
    exact h.direct call hcall

theorem GetInv.execute (h : GetInv s) (hshape : Shape s pend) (hstep : s.execute = some s') :
    GetInv s' := by
  obtain ⟨req, hcons, rfl⟩ := QueueState.execute_eq_some hstep
  -- the request in the thread's hands is the next one in queue order
  have hnext : s.queued[s.executed.length]? = some req := by
    rw [← hshape.order, hcons, Consumer.inFlight, List.append_assoc,
      List.getElem?_append_right (Nat.le_refl _)]
    simp
  refine ⟨h.seen, ?_, h.waiting, ?_⟩
  · intro call hcall
    obtain ⟨c, hc, hwritten⟩ := h.direct call hcall
    exact ⟨c, hc, fun hne => (hwritten hne).mono (by simp)⟩
  · intro e he
    rcases List.mem_append.mp he with he | he
    · exact h.execs e he
    · obtain ⟨call, hcall, rfl⟩ : ∃ call, req.completionStatusPtr = some call ∧
          GetExec.mk call s.executed.length = e := by
        simpa using he
      obtain ⟨c, hc, hseen⟩ := h.waiting _ req call hnext hcall
      exact ⟨c, hc, fun _ => written_of_le (Nat.le_of_eq hseen)⟩

/-! ## The invariant of a run -/

/-- **Every step keeps the shape of the queue and what is known of the GETs.** -/
theorem shape_getInv_step (s : QueueState) (a : QueueAction) (s' : QueueState)
    (hstep : queueStep s a = some s') (h : (∃ pend, Shape s pend) ∧ GetInv s) :
    (∃ pend, Shape s' pend) ∧ GetInv s' := by
  obtain ⟨⟨pend, hshape⟩, hget⟩ := h
  cases a with
  | queueSet participantId primitiveId domain inst data requiresDelay =>
    refine ⟨⟨_, shape_enqueueRequest rfl hstep hshape⟩, hget.enqueueRequest hstep ?_⟩
    rintro call ⟨⟩
  | queueCopy =>
    refine ⟨⟨pend, shape_enqueueCopy hstep hshape⟩, ?_⟩
    obtain ⟨copy, -, -, rfl⟩ := QueueState.enqueueCopy_eq_some hstep
    exact ⟨hget.seen, hget.direct, hget.waiting, hget.execs⟩
  | checkGet participantId primitiveId domain inst request =>
    refine ⟨?_, hget.checkGet hshape hstep⟩
    have hrecord : Shape (s.recordCheck primitiveId) pend :=
      ⟨hshape.owing, hshape.order, hshape.real, hshape.owed, hshape.event,
        hshape.room, hshape.maxSize⟩
    obtain ⟨-, ⟨-, henqueue⟩ | ⟨-, rfl⟩⟩ := QueueState.checkGet_eq_some hstep
    · exact ⟨_, shape_enqueueRequest rfl henqueue hrecord⟩
    · exact ⟨pend, hshape.owing, hshape.order, hshape.real, hshape.owed, hshape.event,
        hshape.room, hshape.maxSize⟩
  | executeDirect call =>
    refine ⟨?_, hget.executeDirect hstep⟩
    obtain ⟨-, rfl⟩ := QueueState.executeDirect_eq_some hstep
    exact ⟨pend, hshape.owing, hshape.order, hshape.real, hshape.owed, hshape.event,
      hshape.room, hshape.maxSize⟩
  | pull =>
    obtain ⟨item, rest, -, hshape', -⟩ := shape_pull hstep hshape
    refine ⟨⟨rest, hshape'⟩, ?_⟩
    obtain ⟨-, item, rest, -, rfl⟩ := QueueState.pull_eq_some hshape.event hstep
    exact ⟨hget.seen, hget.direct, hget.waiting, hget.execs⟩
  | execute => exact ⟨⟨pend, shape_execute hstep hshape⟩, hget.execute hshape hstep⟩
  | removeDummy =>
    obtain ⟨pend', hshape', -⟩ := shape_removeDummy hstep hshape
    refine ⟨⟨pend', hshape'⟩, ?_⟩
    obtain ⟨req, -, -, rfl⟩ := QueueState.removeDummy_eq_some hstep
    exact ⟨hget.seen, hget.direct, hget.waiting, hget.execs⟩

/-! ## The thread can finish -/

/-- A step of the execution thread, or the end of a section that owes its copy. -/
def QueueAction.IsDraining : QueueAction → Prop
  | .queueCopy | .pull | .execute | .removeDummy => True
  | _ => False

/-- Without new requests, the thread can execute everything that is queued. -/
def Drains (s : QueueState) : Prop :=
  ∃ as s', (∀ a ∈ as, a.IsDraining) ∧ run queueStep s as = some s' ∧ s'.executed = s.queued ∧
    s'.queued = s.queued

theorem Drains.of_step {a : QueueAction} (ha : a.IsDraining) (hstep : queueStep s a = some s')
    (hqueued : s'.queued = s.queued) (h : Drains s') : Drains s := by
  obtain ⟨as, t, has, hrun, hexecuted, hsame⟩ := h
  refine ⟨a :: as, t, ?_, by simpa [hstep] using hrun, by rw [hexecuted, hqueued],
    by rw [hsame, hqueued]⟩
  intro b hb
  rcases List.mem_cons.mp hb with rfl | hb
  · exact ha
  · exact has b hb

theorem drains_of_executed (h : s.executed = s.queued) : Drains s :=
  ⟨[], s, by simp, rfl, h, rfl⟩

theorem pull_isSome {item : Option EsifArbPrimReq} (h : Shape s (item :: pend))
    (hcons : s.consumer = .pulling) (howed : s.owedCopy = none) : ∃ s', s.pull = some s' := by
  have hne : s.queue.items ≠ [] := by
    have howing := h.owing
    intro hnil
    rw [QueueState.owing, howed, hnil, hcons] at howing
    cases item <;> simp [Consumer.shadow, withShadow] at howing
  have hset : s.queue.event = true := by
    have hevent := h.event
    rw [EsifQueue.EventMatches] at hevent
    cases hitems : s.queue.items with
    | nil => exact absurd hitems hne
    | cons first tail => simpa [hitems] using hevent
  cases hdeq : s.queue.dequeue with
  | mk data queue =>
    cases data with
    | none => exact ⟨_, by simp [QueueState.pull, hcons, EsifQueue.pull, hset, hdeq]; rfl⟩
    | some req =>
      by_cases hdummy : req.isDummyRequest
      · exact ⟨_, by simp [QueueState.pull, hcons, EsifQueue.pull, hset, hdeq, hdummy]; rfl⟩
      · exact ⟨_, by simp [QueueState.pull, hcons, EsifQueue.pull, hset, hdeq, hdummy]; rfl⟩

theorem removeDummy_isSome (hcons : s.consumer = .executed req) (howed : s.owedCopy = none) :
    ∃ s', s.removeDummy = some s' := by
  unfold QueueState.removeDummy
  simp only [hcons, howed, ne_eq, not_true_eq_false, if_false]
  split
  · exact ⟨_, rfl⟩
  · exact ⟨_, rfl⟩

theorem drains_of_pulling (h : Shape s pend) (hcons : s.consumer = .pulling)
    (howed : s.owedCopy = none) : Drains s := by
  induction pend generalizing s with
  | nil =>
    have horder := h.order
    rw [hcons] at horder
    exact drains_of_executed (by simpa [Consumer.inFlight] using horder)
  | cons item rest ih =>
    obtain ⟨s₁, hpull⟩ := pull_isSome h hcons howed
    obtain ⟨item', rest', heq, h₁, hcons₁, howed₁, -, hqueued₁⟩ := shape_pull hpull h
    obtain ⟨rfl, rfl⟩ : item = item' ∧ rest = rest' := by simpa using heq
    refine Drains.of_step (a := .pull) trivial hpull hqueued₁ ?_
    cases item with
    | none => exact ih h₁ hcons₁ (howed₁.trans howed)
    | some req =>
      -- the request is executed, and its dummy removed
      obtain ⟨s₂, hexec⟩ : ∃ s₂, s₁.execute = some s₂ := by simp [QueueState.execute, hcons₁]
      have h₂ := shape_execute hexec h₁
      obtain ⟨r, -, hs₂⟩ := QueueState.execute_eq_some hexec
      have hcons₂ : s₂.consumer = .executed r := by rw [hs₂]
      have howed₂ : s₂.owedCopy = none := by
        rw [hs₂]
        exact howed₁.trans howed
      refine Drains.of_step (a := .execute) trivial hexec (by rw [hs₂]) ?_
      obtain ⟨s₃, hremove⟩ := removeDummy_isSome hcons₂ howed₂
      obtain ⟨pend', h₃, hkeep, hreal, hcons₃, howed₃, -, hqueued₃⟩ :=
        shape_removeDummy hremove h₂
      refine Drains.of_step (a := .removeDummy) trivial hremove hqueued₃ ?_
      cases rest with
      | nil =>
        have horder := h₃.order
        rw [hcons₃, hreal] at horder
        exact drains_of_executed (by simpa [Consumer.inFlight] using horder)
      | cons next rest =>
        rw [hkeep (by simp)] at h₃
        exact ih h₃ hcons₃ howed₃

theorem drains_of_no_owedCopy (h : Shape s pend) (howed : s.owedCopy = none) : Drains s := by
  have hexecuted : ∀ {t : QueueState} {pend : List (Option EsifArbPrimReq)} (req : EsifArbPrimReq),
      Shape t pend → t.consumer = .executed req → t.owedCopy = none → Drains t := by
    intro t pend req ht hcons hnone
    obtain ⟨t', hremove⟩ := removeDummy_isSome hcons hnone
    obtain ⟨pend', ht', -, -, hcons', howed', -, hqueued'⟩ := shape_removeDummy hremove ht
    exact Drains.of_step (a := .removeDummy) trivial hremove hqueued'
      (drains_of_pulling ht' hcons' howed')
  cases hcons : s.consumer with
  | pulling => exact drains_of_pulling h hcons howed
  | executing req =>
    obtain ⟨s', hexec⟩ : ∃ s', s.execute = some s' := by simp [QueueState.execute, hcons]
    obtain ⟨r, -, hs'⟩ := QueueState.execute_eq_some hexec
    refine Drains.of_step (a := .execute) trivial hexec (by rw [hs']) ?_
    exact hexecuted r (shape_execute hexec h) (by rw [hs']) (by rw [hs']; exact howed)
  | executed req => exact hexecuted req h hcons howed

/-- **Whatever is queued can be executed**, by steps of the thread alone once a section
under way has ended. -/
theorem drains_of_shape (h : Shape s pend) : Drains s := by
  cases howed : s.owedCopy with
  | none => exact drains_of_no_owedCopy h howed
  | some copy =>
    have hroom := (h.owed copy howed).2
    obtain ⟨s', hcopy⟩ : ∃ s', s.enqueueCopy = some s' := by
      simp [QueueState.enqueueCopy, howed, EsifQueue.enqueue_of_lt hroom]
    obtain ⟨_, -, -, hs'⟩ := QueueState.enqueueCopy_eq_some hcopy
    refine Drains.of_step (a := .queueCopy) trivial hcopy (by rw [hs']) ?_
    exact drains_of_no_owedCopy (shape_enqueueCopy hcopy h) (by rw [hs'])

/-! ## Main result -/

/-- The requests queued are executed in the order they were queued, each once: all of them can be,
and are once the thread has nothing left to pull.  No dummy is executed.  When a GET is executed,
every request that delays it and was queued before its check has been executed; the primitive `0`
is no GET, but says that a SET has none. -/
structure QueueState.ReadsAfterWrites (s : QueueState) : Prop where
  order : s.executed <+: s.queued
  drains : Drains s
  idle : s.owedCopy = none → s.consumer = .pulling → s.queue.items = [] → s.executed = s.queued
  noDummy : ∀ req ∈ s.executed, req.isDummyRequest = false
  reads : ∀ e ∈ s.getExecs, ∃ c, s.checks[e.call]? = some c ∧
    (c.primitiveId ≠ 0 → ∀ i < c.seen, ∀ set, s.queued[i]? = some set →
      set.requiresDelay = true → set.delayedPrimitiveId = c.primitiveId → i < e.executedBefore)

/-- A thread with an empty queue has executed everything. -/
theorem Shape.executed_eq (h : Shape s pend) (howed : s.owedCopy = none)
    (hcons : s.consumer = .pulling) (hempty : s.queue.items = []) : s.executed = s.queued := by
  have howing := h.owing
  have horder := h.order
  rw [QueueState.owing, howed, hcons, hempty] at howing
  rw [hcons] at horder
  cases pend with
  | nil => simpa [Consumer.inFlight] using horder
  | cons item rest => cases item <;> simp [Consumer.shadow, withShadow] at howing

/-- **Reads after writes**, in every interleaving. -/
theorem readAfterWrite (as : List QueueAction) (s : QueueState)
    (hrun : run queueStep QueueState.init as = some s) : s.ReadsAfterWrites := by
  obtain ⟨⟨pend, hshape⟩, hget⟩ :=
    run_invariant shape_getInv_step hrun ⟨⟨[], shape_init⟩, getInv_init⟩
  have hexecuted : s.executed <+: s.queued :=
    ⟨s.consumer.inFlight ++ pend.reduceOption, by rw [← List.append_assoc, hshape.order]⟩
  exact ⟨hexecuted, drains_of_shape hshape, hshape.executed_eq,
    fun req hreq => hshape.real req (hexecuted.subset hreq), hget.execs⟩

/-- A power limit is queued and pulled before its copy is; its GET then waits for it. -/
theorem readAfterWrite_powerLimit :
    ∃ s, run queueStep QueueState.init
        [.queueSet 1 setRaplPowerLimit esifPrimitiveDomainD0 0 (uint32Data 15000) true,
          .pull, .queueCopy, .checkGet 1 getRaplPowerLimit esifPrimitiveDomainD0 0 none,
          .execute, .removeDummy, .pull, .execute] = some s ∧
      s.ReadsAfterWrites := by
  obtain ⟨s, hs⟩ : ∃ s, run queueStep QueueState.init
      [.queueSet 1 setRaplPowerLimit esifPrimitiveDomainD0 0 (uint32Data 15000) true,
        .pull, .queueCopy, .checkGet 1 getRaplPowerLimit esifPrimitiveDomainD0 0 none,
        .execute, .removeDummy, .pull, .execute] = some s := by
    apply Option.isSome_iff_exists.mp
    decide +kernel
  exact ⟨s, hs, readAfterWrite _ s hs⟩

end Arb

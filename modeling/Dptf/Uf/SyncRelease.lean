import Dptf.Lib.Handover
import Dptf.Uf.SyncEvents

/-!
# How synchronous events are released

The caller and the item each hold a share of the context until they are done with it;
`useComplete` says that one of them is.

* `run_syncStep_released` — **contexts are released, if no item of a caller is in the queue when
  it is destroyed**.
* `givenUp_not_released` — one that is.
-/

open Lib

namespace Uf

/-! ## The shares of a context -/

/-- How many shares of its context a caller holds: the one of its item too, until that is in the
queue. -/
def CallerAt.shares : CallerAt → Nat
  | .queuing | .failing | .failed => 2
  | .failedDestroying | .signalled | .timed | .waiting | .woken | .leaving => 1
  | .destroying | .returned => 0

/-- The caller is going to destroy its context. -/
def CallerAt.destroyings : CallerAt → Nat
  | .failedDestroying | .destroying => 1
  | _ => 0

/-- The context of a call, of which others hold some shares and are going to destroy it. -/
def SyncCall.handover (c : SyncCall) (shares destroyings : Nat) : Handover where
  shares := c.caller.shares + shares
  marked := c.context.useComplete
  destroying := c.caller.destroyings + destroyings
  destroyed := c.destroyed

namespace SyncEvents

/-- How often the item of a caller is in the queue or about to be processed. -/
def pendings (s : SyncEvents) (i : Nat) : Nat :=
  s.items.count (some ⟨some i⟩) + if s.thread = .processing ⟨some i⟩ then 1 else 0

/-- The shares of a context that the queue and its thread hold. -/
def shares (s : SyncEvents) (i : Nat) : Nat :=
  s.pendings i + if s.thread = .leaving i then 1 else 0

/-- The event thread is going to destroy a context. -/
def destroyings (s : SyncEvents) (i : Nat) : Nat := if s.thread = .destroying i then 1 else 0

/-- The context of a call. -/
def handover (s : SyncEvents) (i : Nat) (c : SyncCall) : Handover :=
  c.handover (s.shares i) (s.destroyings i)

theorem pending_iff (s : SyncEvents) (i : Nat) : s.Pending i ↔ 0 < s.pendings i := by
  unfold Pending pendings
  rw [← List.count_pos_iff]
  split
  · rename_i hthread
    simp [hthread]
  · rename_i hthread
    simp [hthread]

theorem inUse_iff (s : SyncEvents) (i : Nat) :
    s.InUse i ↔ 0 < s.shares i ∨ 0 < s.destroyings i := by
  unfold InUse shares destroyings
  rw [pending_iff]
  split <;> split <;> simp_all

end SyncEvents

/-- The semaphore is up or the caller is counted, if it waits there; and who waits for an event
that is set is let go. -/
structure SyncCall.EventSane (c : SyncCall) : Prop where
  waiting : c.caller = .waiting →
    c.context.completionEvent.waiters + c.context.completionEvent.semObj = 1
  elsewhere : c.caller ≠ .waiting →
    c.context.completionEvent.waiters + c.context.completionEvent.semObj = 0
  letGo : c.context.completionEvent.signaled = true → c.context.completionEvent.waiters = 0

/-- What a step of a caller does: it gives a share of its context back, destroys the context, or
neither; an event that is set stays so; and the caller does not come back to the queue. -/
structure SyncCall.Goes (c c' : SyncCall) : Prop where
  move : ∀ q d, (c.handover q d).Move (c'.handover q d)
  eventSane : c.EventSane → c'.EventSane
  signaled : c.context.completionEvent.signaled = true →
    c'.context.completionEvent.signaled = true
  past : c'.caller ≠ .queuing ∧ c'.caller ≠ .failing

section Callers

variable {c c' : SyncCall}

/-- A caller that does not wait, before and after. -/
theorem SyncCall.EventSane.of_event (h : c.EventSane) (hcaller : c.caller ≠ .waiting)
    (hcaller' : c'.caller ≠ .waiting)
    (hevent : c'.context.completionEvent = c.context.completionEvent) : c'.EventSane := by
  refine ⟨fun hwaiting => absurd hwaiting hcaller', fun _ => ?_, ?_⟩
  · rw [hevent]
    exact h.elsewhere hcaller
  · rw [hevent]
    exact h.letGo

theorem SyncCall.EventSane.releaseWaiters (h : c.EventSane) :
    (c.setEvent c.context.completionEvent.releaseWaiters).EventSane := by
  refine ⟨fun hwaiting => ?_, fun hcaller => ?_, fun _ => rfl⟩
  · have := h.waiting hwaiting
    simp only [setEvent, CcbEvent.releaseWaiters]
    omega
  · have := h.elsewhere hcaller
    simp only [setEvent, CcbEvent.releaseWaiters]
    omega

theorem SyncCall.EventSane.set (h : c.EventSane) : c.set.EventSane :=
  ⟨h.releaseWaiters.waiting, h.releaseWaiters.elsewhere, fun _ => rfl⟩

namespace SyncCall.Goes

/-- What does not touch the mark leaves the context as it is, if the caller holds as much. -/
theorem move_stay (hshares : c'.caller.shares = c.caller.shares)
    (hdestroyings : c'.caller.destroyings = c.caller.destroyings)
    (hmark : c'.context.useComplete = c.context.useComplete)
    (hdestroyed : c'.destroyed = c.destroyed) (q d : Nat) :
    (c.handover q d).Move (c'.handover q d) := by
  have hsame : c'.handover q d = c.handover q d := by
    simp only [handover, hshares, hdestroyings, hmark, hdestroyed]
  rw [hsame]
  exact .stay

/-- The caller goes on with as much. -/
theorem stay {a : CallerAt} (hcaller : c.caller ≠ .waiting) (ha : a ≠ .waiting)
    (hpast : a ≠ .queuing ∧ a ≠ .failing) (hshares : a.shares = c.caller.shares)
    (hdestroyings : a.destroyings = c.caller.destroyings) (timer : WaitTimer) :
    c.Goes ((c.setTimer timer).goto a) :=
  ⟨move_stay hshares hdestroyings rfl rfl, fun h => h.of_event hcaller ha rfl, id, hpast⟩

/-- The caller gives a share back. -/
theorem leave {destroys done : CallerAt} {n : Nat} (hcaller : c.caller ≠ .waiting)
    (hfrom : c.caller.shares = n + 1) (hno : c.caller.destroyings = 0)
    (hdestroys : destroys.shares = n ∧ destroys.destroyings = 1)
    (hdone : done.shares = n ∧ done.destroyings = 0)
    (hnot : ∀ a, a = destroys ∨ a = done → a ≠ .waiting ∧ a ≠ .queuing ∧ a ≠ .failing) :
    c.Goes (c.leave destroys done) := by
  unfold SyncCall.leave SyncContext.destroySynchronizationContext
  cases hmarked : c.context.useComplete with
  | true =>
    obtain ⟨hwaiting, hpast⟩ := hnot destroys (.inl rfl)
    refine ⟨fun q d => ?_, fun h => h.of_event hcaller hwaiting rfl, id, hpast⟩
    have hmove := Handover.Move.take (h := c.handover q d) (n := n + q)
      (by simp only [handover, hfrom]; omega) hmarked
    simpa [handover, goto, hmarked, hdestroys, hno, Nat.add_comm, Nat.add_left_comm] using hmove
  | false =>
    obtain ⟨hwaiting, hpast⟩ := hnot done (.inr rfl)
    refine ⟨fun q d => ?_, fun h => h.of_event hcaller hwaiting rfl, id, hpast⟩
    have hmove := Handover.Move.mark (h := c.handover q d) (n := n + q)
      (by simp only [handover, hfrom]; omega) hmarked
    simpa [handover, goto, hdone, hno] using hmove

/-- The caller destroys the context. -/
theorem destroy {a : CallerAt} (hcaller : c.caller ≠ .waiting) (ha : a ≠ .waiting)
    (hpast : a ≠ .queuing ∧ a ≠ .failing) (hshares : a.shares = c.caller.shares)
    (hfrom : c.caller.destroyings = 1) (hto : a.destroyings = 0) : c.Goes (c.destroy.goto a) := by
  refine ⟨fun q d => ?_, fun h => h.of_event hcaller ha rfl, id, hpast⟩
  have hmove := Handover.Move.destroy (h := c.handover q d) (n := d)
    (by simp only [handover, hfrom]; omega)
  simpa [handover, goto, SyncCall.destroy, hshares, hto] using hmove

/-- A caller that fails sets the event. -/
theorem fail (hcaller : c.caller = .failing) : c.Goes (c.set.goto .failed) := by
  refine ⟨move_stay (by rw [hcaller]; rfl) (by rw [hcaller]; rfl) rfl rfl, fun h => ?_,
    fun _ => rfl, by simp [goto]⟩
  have hset : c.set.caller ≠ .waiting := by
    rw [show c.set.caller = c.caller from rfl, hcaller]
    decide
  exact h.set.of_event hset (by simp [goto]) rfl

/-- `esif_ccb_event_wait`. -/
theorem wait (hcaller : c.caller = .timed) {waits : Bool} {event : CcbEvent}
    (hwait : c.context.completionEvent.wait = (waits, event)) :
    c.Goes ((c.setEvent event).goto (if waits then .waiting else .woken)) := by
  unfold CcbEvent.wait at hwait
  split at hwait
  · obtain ⟨rfl, rfl⟩ := Prod.mk.inj hwait
    exact stay (by simp [hcaller]) (by decide) (by decide) (by rw [hcaller]; rfl)
      (by rw [hcaller]; rfl) c.timer
  · rename_i hsignaled
    obtain ⟨rfl, rfl⟩ := Prod.mk.inj hwait
    refine ⟨move_stay (by rw [hcaller]; rfl) (by rw [hcaller]; rfl) rfl rfl, fun h => ?_, id,
      by simp [goto]⟩
    refine ⟨fun _ => ?_, fun hnot => absurd rfl hnot, fun hset => absurd hset hsignaled⟩
    have := h.elsewhere (by simp [hcaller])
    simp only [goto, setEvent]
    omega

/-- The caller gets by its semaphore. -/
theorem wake (hcaller : c.caller = .waiting) {event : CcbEvent}
    (hdown : c.context.completionEvent.semDown = some event) :
    c.Goes ((c.setEvent event).goto .woken) := by
  obtain ⟨hsem, heq⟩ := Option.ite_none_left_eq_some.mp hdown
  cases heq
  refine ⟨move_stay (by rw [hcaller]; rfl) (by rw [hcaller]; rfl) rfl rfl, fun h => ?_, id,
    by simp [goto]⟩
  refine ⟨fun hwaiting => by simp [goto] at hwaiting, fun _ => ?_, h.letGo⟩
  have := h.waiting hcaller
  simp only [goto, setEvent]
  omega

end SyncCall.Goes

/-- **A step of a caller.** -/
theorem SyncCall.next_goes {timerSet : Bool} (h : c.next timerSet = some c') : c.Goes c' := by
  unfold SyncCall.next at h
  cases hcaller : c.caller with
  | queuing | returned =>
    rw [hcaller] at h
    cases h
  | failing =>
    rw [hcaller] at h
    cases h
    exact .fail hcaller
  | failed =>
    rw [hcaller] at h
    cases h
    exact .leave (n := 1) (by simp [hcaller]) (by rw [hcaller]; rfl) (by rw [hcaller]; rfl)
      ⟨rfl, rfl⟩ ⟨rfl, rfl⟩ (by simp)
  | failedDestroying | destroying =>
    rw [hcaller] at h
    cases h
    exact .destroy (by simp [hcaller]) (by decide) (by decide) (by rw [hcaller]; rfl)
      (by rw [hcaller]; rfl) rfl
  | signalled =>
    rw [hcaller] at h
    dsimp only at h
    split at h
    · cases h
      exact .stay (by simp [hcaller]) (by decide) (by decide) (by rw [hcaller]; rfl)
        (by rw [hcaller]; rfl) .armed
    · cases h
      exact .stay (by simp [hcaller]) (by decide) (by decide) (by rw [hcaller]; rfl)
        (by rw [hcaller]; rfl) c.timer
  | timed =>
    rw [hcaller] at h
    dsimp only at h
    cases hwait : c.context.completionEvent.wait with
    | mk waits event =>
      rw [hwait] at h
      cases h
      exact .wait hcaller hwait
  | waiting =>
    rw [hcaller] at h
    obtain ⟨event, hdown, rfl⟩ := Option.map_eq_some_iff.mp h
    exact .wake hcaller hdown
  | woken =>
    rw [hcaller] at h
    dsimp only at h
    split at h
    · cases h
      exact .stay (by simp [hcaller]) (by decide) (by decide) (by rw [hcaller]; rfl)
        (by rw [hcaller]; rfl) .idle
    · cases h
      exact .stay (by simp [hcaller]) (by decide) (by decide) (by rw [hcaller]; rfl)
        (by rw [hcaller]; rfl) c.timer
  | leaving =>
    rw [hcaller] at h
    cases h
    exact .leave (n := 0) (by simp [hcaller]) (by rw [hcaller]; rfl) (by rw [hcaller]; rfl)
      ⟨rfl, rfl⟩ ⟨rfl, rfl⟩ (by simp)

end Callers

/-! ## The event manager's steps -/

theorem no_memory_ne_ok : esifENoMemory ≠ esifOk := by decide

theorem SyncQueue.enqueue_spec (queue : SyncQueue) (nodeAllocated : Bool) (item : SyncQueueItem) :
    ((queue.enqueue nodeAllocated item).1 = esifOk ∧
      (queue.enqueue nodeAllocated item).2.items = queue.items ++ [some item]) ∨
    ((queue.enqueue nodeAllocated item).1 ≠ esifOk ∧
      (queue.enqueue nodeAllocated item).2.items = queue.items) := by
  cases queue with
  | none => exact .inr ⟨no_memory_ne_ok, rfl⟩
  | some q =>
    unfold SyncQueue.enqueue EsifQueue.enqueue
    dsimp only
    split
    · split
      · exact .inr ⟨no_memory_ne_ok, rfl⟩
      · exact .inl ⟨rfl, rfl⟩
    · exact .inr ⟨no_memory_ne_ok, rfl⟩

namespace SyncEvents

variable {i : Nat} {c c' : SyncCall}

/-- A context is used as much. -/
structure Kept (s s' : SyncEvents) (i : Nat) : Prop where
  pendings : s'.pendings i = s.pendings i
  shares : s'.shares i = s.shares i
  destroyings : s'.destroyings i = s.destroyings i

/-- **The invariant.** -/
structure Sane (s : SyncEvents) : Prop where
  balanced : ∀ i c, s.calls[i]? = some c → (s.handover i c).Balanced
  eventSane : ∀ (i : Nat) (c : SyncCall), s.calls[i]? = some c → c.EventSane
  answered : ∀ i c, s.calls[i]? = some c → c.caller = .queuing ∨ c.caller = .failing ∨
    0 < s.pendings i ∨ c.context.completionEvent.signaled = true
  fresh : ∀ i, s.calls.length ≤ i → s.shares i = 0 ∧ s.destroyings i = 0

variable {s s' : SyncEvents}

/-- `esif_queue_dequeue` takes the first item off, if there is one. -/
theorem items_dequeue {q q' : EsifQueue SyncQueueItem} {first : Option SyncQueueItem}
    (hqueue : s.queue = some q) (hdequeue : q.dequeue = (first, q')) :
    (s.items = [] ∧ first = none ∧ q'.items = []) ∨ s.items = first :: q'.items := by
  have hitems : s.items = q.items := by
    rw [items, hqueue]
    rfl
  rw [hitems]
  unfold EsifQueue.dequeue at hdequeue
  split at hdequeue
  · rename_i hnil
    obtain ⟨rfl, rfl⟩ := Prod.mk.inj hdequeue
    exact .inl ⟨hnil, rfl, hnil⟩
  · rename_i hcons
    obtain ⟨rfl, rfl⟩ := Prod.mk.inj hdequeue
    exact .inr hcons

theorem sane_start : start.Sane :=
  ⟨by simp [start], by simp [start], by simp [start], fun _ _ => ⟨rfl, rfl⟩⟩

/-- Nothing happens to the calls. -/
theorem Sane.keep (h : s.Sane) (hcalls : s'.calls = s.calls) (hkept : ∀ i, Kept s s' i) :
    s'.Sane := by
  refine ⟨fun i c hc => ?_, fun i c hc => ?_, fun i c hc => ?_, fun i hi => ?_⟩
  · rw [hcalls] at hc
    rw [handover, (hkept i).shares, (hkept i).destroyings]
    exact h.balanced i c hc
  · rw [hcalls] at hc
    exact h.eventSane i c hc
  · rw [hcalls] at hc
    rw [(hkept i).pendings]
    exact h.answered i c hc
  · rw [hcalls] at hi
    rw [(hkept i).shares, (hkept i).destroyings]
    exact h.fresh i hi

theorem Sane.set (h : s.Sane) {j : Nat} (hj : s.calls[j]? = some c)
    (hcalls : s'.calls = s.calls.set j c') (hothers : ∀ i, i ≠ j → Kept s s' i)
    (hmove : (s.handover j c).Move (s'.handover j c')) (hevent : c'.EventSane)
    (hanswered : c'.caller = .queuing ∨ c'.caller = .failing ∨ 0 < s'.pendings j ∨
      c'.context.completionEvent.signaled = true) : s'.Sane := by
  have hlt : j < s.calls.length := (List.getElem?_eq_some_iff.mp hj).1
  have hself : s'.calls[j]? = some c' := by
    rw [hcalls]
    exact List.getElem?_set_self hlt
  have hother (i : Nat) (hne : i ≠ j) : s'.calls[i]? = s.calls[i]? := by
    rw [hcalls]
    exact List.getElem?_set_ne fun heq => hne heq.symm
  refine ⟨fun i d hd => ?_, fun i d hd => ?_, fun i d hd => ?_, fun i hi => ?_⟩
  · by_cases hi : i = j
    · subst hi
      obtain rfl := Option.some.inj (hself.symm.trans hd)
      exact (h.balanced i c hj).move hmove
    · rw [hother i hi] at hd
      rw [handover, (hothers i hi).shares, (hothers i hi).destroyings]
      exact h.balanced i d hd
  · by_cases hi : i = j
    · subst hi
      obtain rfl := Option.some.inj (hself.symm.trans hd)
      exact hevent
    · rw [hother i hi] at hd
      exact h.eventSane i d hd
  · by_cases hi : i = j
    · subst hi
      obtain rfl := Option.some.inj (hself.symm.trans hd)
      exact hanswered
    · rw [hother i hi] at hd
      rw [(hothers i hi).pendings]
      exact h.answered i d hd
  · rw [hcalls, List.length_set] at hi
    have hne : i ≠ j := by omega
    rw [(hothers i hne).shares, (hothers i hne).destroyings]
    exact h.fresh i hi

theorem kept_of_eq (s s' : SyncEvents) (hitems : s'.items = s.items)
    (hthread : s'.thread = s.thread) (i : Nat) : Kept s s' i := by
  unfold items at hitems
  constructor <;> simp only [shares, pendings, destroyings, items, hitems, hthread]

/-- An item without a context comes or goes. -/
theorem kept_of_count (hcount : s'.items.count (some ⟨some i⟩) = s.items.count (some ⟨some i⟩))
    (hthread : s'.thread = s.thread) : Kept s s' i := by
  constructor <;> simp only [shares, pendings, destroyings, hcount, hthread]

theorem Sane.call (h : s.Sane) (rc : EsifError) :
    Sane { s with calls := s.calls ++ [.create rc] } := by
  have hcases (i : Nat) (c : SyncCall) (hc : (s.calls ++ [SyncCall.create rc])[i]? = some c) :
      s.calls[i]? = some c ∨ i = s.calls.length ∧ c = .create rc := by
    rcases Nat.lt_trichotomy i s.calls.length with hlt | rfl | hgt
    · rw [List.getElem?_append_left hlt] at hc
      exact .inl hc
    · rw [List.getElem?_concat_length] at hc
      exact .inr ⟨rfl, (Option.some.inj hc).symm⟩
    · rw [List.getElem?_eq_none (by simp; omega)] at hc
      cases hc
  refine ⟨fun i c hc => ?_, fun i c hc => ?_, fun i c hc => ?_, fun i hi => ?_⟩
  · rcases hcases i c hc with hold | ⟨rfl, rfl⟩
    · exact h.balanced i c hold
    · obtain ⟨hshares, hdestroyings⟩ := h.fresh _ (Nat.le_refl _)
      have hstart : s.handover s.calls.length (.create rc) = Handover.start := by
        unfold handover SyncCall.handover SyncCall.create
        rw [hshares, hdestroyings]
        dsimp only
        split <;> rfl
      show (s.handover s.calls.length (.create rc)).Balanced
      rw [hstart]
      exact Handover.balanced_start
  · rcases hcases i c hc with hold | ⟨_, rfl⟩
    · exact h.eventSane i c hold
    · refine ⟨fun hwaiting => ?_, fun _ => rfl, fun _ => rfl⟩
      unfold SyncCall.create at hwaiting
      dsimp only at hwaiting
      split at hwaiting <;> cases hwaiting
  · rcases hcases i c hc with hold | ⟨_, rfl⟩
    · exact h.answered i c hold
    · unfold SyncCall.create
      dsimp only
      split
      · exact .inl rfl
      · exact .inr (.inl rfl)
  · rw [List.length_append] at hi
    exact h.fresh i (by omega)

/-- The item of a caller is put in the queue. -/
theorem Sane.enqueued (h : s.Sane) (hc : s.calls[i]? = some c) (hcaller : c.caller = .queuing)
    {queue : SyncQueue} (hitems : queue.items = s.items ++ [some ⟨some i⟩]) :
    Sane { s.setCall i (c.enqueued esifOk) with queue := queue } := by
  have hcount (k : Nat) : queue.items.count (some ⟨some k⟩) =
      s.items.count (some ⟨some k⟩) + if k = i then 1 else 0 := by
    rw [hitems, List.count_append, List.count_singleton]
    by_cases hk : k = i
    · simp [hk]
    · simp [hk, Ne.symm hk]
  refine h.set hc rfl (fun k hne => kept_of_count ?_ rfl) ?_
    ((h.eventSane i c hc).of_event (by simp [hcaller]) (by simp [SyncCall.enqueued, SyncCall.goto])
      rfl) (.inr (.inr (.inl ?_)))
  · show queue.items.count _ = _
    rw [hcount, if_neg hne, Nat.add_zero]
  · have hsame : SyncEvents.handover { s.setCall i (c.enqueued esifOk) with queue := queue } i
        (c.enqueued esifOk) = s.handover i c := by
      have hcount := hcount i
      rw [if_pos rfl] at hcount
      simp only [handover, SyncCall.handover, SyncCall.enqueued, SyncCall.goto, shares, pendings,
        destroyings, items, setCall, hcaller, CallerAt.shares, CallerAt.destroyings, hcount,
        if_true, Handover.mk.injEq, and_true]
      omega
    rw [hsame]
    exact .stay
  · show 0 < queue.items.count _ + _
    rw [hcount, if_pos rfl]
    omega

/-- It is not. -/
theorem Sane.notEnqueued (h : s.Sane) (hc : s.calls[i]? = some c) (hcaller : c.caller = .queuing)
    {rc : EsifError} (hrc : rc ≠ esifOk) {queue : SyncQueue} (hitems : queue.items = s.items) :
    Sane { s.setCall i (c.enqueued rc) with queue := queue } := by
  have hfailing : (c.enqueued rc).caller = .failing := by
    simp [SyncCall.enqueued, SyncCall.goto, hrc]
  have hkept (k : Nat) : Kept s { s.setCall i (c.enqueued rc) with queue := queue } k :=
    kept_of_eq s { s.setCall i (c.enqueued rc) with queue := queue } hitems rfl k
  refine h.set hc rfl (fun k _ => hkept k) ?_
    ((h.eventSane i c hc).of_event (by simp [hcaller]) (by simp [hfailing]) rfl)
    (.inr (.inl hfailing))
  rw [handover, handover, (hkept i).shares, (hkept i).destroyings]
  apply SyncCall.Goes.move_stay
  · rw [hfailing, hcaller]
    rfl
  · rw [hfailing, hcaller]
    rfl
  · rfl
  · rfl

/-- A caller goes on. -/
theorem Sane.callerStep (h : s.Sane) {succeeds : Bool} (hstep : s.callerStep i succeeds = some s') :
    s'.Sane := by
  obtain ⟨c, hc, hstep⟩ := Option.bind_eq_some_iff.mp hstep
  split at hstep
  · rename_i hcaller
    have hspec := SyncQueue.enqueue_spec s.queue succeeds ⟨some i⟩
    generalize s.queue.enqueue succeeds ⟨some i⟩ = result at hstep hspec
    obtain ⟨rc, queue⟩ := result
    cases hstep
    rcases hspec with ⟨rfl, hitems⟩ | ⟨hrc, hitems⟩
    · exact h.enqueued hc hcaller hitems
    · exact h.notEnqueued hc hcaller hrc hitems
  · rename_i hcaller
    obtain ⟨c', hnext, rfl⟩ := Option.map_eq_some_iff.mp hstep
    have hgoes := SyncCall.next_goes hnext
    refine h.set hc rfl (fun k _ => kept_of_eq s (s.setCall i c') rfl rfl k) (hgoes.move _ _)
      (hgoes.eventSane (h.eventSane i c hc)) (.inr (.inr ?_))
    rcases h.answered i c hc with hqueuing | hfailing | hpending | hsignaled
    · exact absurd hqueuing hcaller
    · refine .inr ?_
      unfold SyncCall.next at hnext
      rw [hfailing] at hnext
      cases hnext
      rfl
    · exact .inl hpending
    · exact .inr (hgoes.signaled hsignaled)

/-- What the timer of a wait does. -/
theorem Sane.timer (h : s.Sane) (hc : s.calls[i]? = some c) (hcaller : c'.caller = c.caller)
    (hmark : c'.context.useComplete = c.context.useComplete)
    (hdestroyed : c'.destroyed = c.destroyed) (hevent : c'.EventSane)
    (hsignaled : c'.context.completionEvent.signaled = c.context.completionEvent.signaled) :
    (s.setCall i c').Sane := by
  refine h.set hc rfl (fun k _ => kept_of_eq s (s.setCall i c') rfl rfl k) ?_ hevent ?_
  · exact SyncCall.Goes.move_stay (by rw [hcaller]) (by rw [hcaller]) hmark hdestroyed _ _
  · rw [hcaller, hsignaled]
    exact h.answered i c hc

theorem Sane.timerFires (h : s.Sane) (hc : s.calls[i]? = some c) (hfire : c.fire = some c') :
    (s.setCall i c').Sane := by
  obtain ⟨_, heq⟩ := Option.ite_none_right_eq_some.mp hfire
  cases heq
  have hsane := h.eventSane i c hc
  exact h.timer hc rfl rfl rfl ⟨hsane.waiting, hsane.elsewhere, hsane.letGo⟩ rfl

theorem Sane.timerCallback (h : s.Sane) (hc : s.calls[i]? = some c)
    (hcallback : c.callback = some c') : (s.setCall i c').Sane := by
  obtain ⟨_, heq⟩ := Option.ite_none_right_eq_some.mp hcallback
  cases heq
  have hsane := (h.eventSane i c hc).releaseWaiters
  exact h.timer hc rfl rfl rfl ⟨hsane.waiting, hsane.elsewhere, hsane.letGo⟩ rfl

/-- The event thread goes elsewhere, with no context in hand. -/
theorem Sane.goto (h : s.Sane) {a : ThreadAt} (hfrom : ∀ i, s.thread ≠ .processing ⟨some i⟩ ∧
      s.thread ≠ .leaving i ∧ s.thread ≠ .destroying i)
    (hto : ∀ i, a ≠ .processing ⟨some i⟩ ∧ a ≠ .leaving i ∧ a ≠ .destroying i) :
    Sane { s with thread := a } := by
  refine h.keep rfl fun i => ?_
  obtain ⟨hp, hl, hd⟩ := hfrom i
  obtain ⟨hp', hl', hd'⟩ := hto i
  constructor <;> simp [shares, pendings, destroyings, items, hp, hl, hd, hp', hl', hd']

/-- The event thread takes what is first in the queue. -/
theorem Sane.pulled (h : s.Sane) (hthread : s.thread = .pulling) (hcalls : s'.calls = s.calls)
    (hcases : (s'.items = s.items ∧ s'.thread = .looping) ∨
      ∃ first, s.items = first :: s'.items ∧ s'.thread = match first with
        | none => .looping
        | some item => .processing item) : s'.Sane := by
  refine h.keep hcalls fun i => ?_
  rcases hcases with ⟨hitems, hthread'⟩ | ⟨first, hitems, hthread'⟩
  · constructor <;> simp [shares, pendings, destroyings, hitems, hthread, hthread']
  · cases first with
    | none => constructor <;> simp [shares, pendings, destroyings, hitems, hthread, hthread']
    | some item =>
      constructor <;>
        simp [shares, pendings, destroyings, hitems, hthread, hthread', List.count_cons]

/-- The event thread lets the caller go. -/
theorem Sane.processed (h : s.Sane) (hc : s.calls[i]? = some c)
    (hthread : s.thread = .processing ⟨some i⟩) (hcalls : s'.calls = s.calls.set i c.set)
    (hitems : s'.items = s.items) (hthread' : s'.thread = .leaving i) : s'.Sane := by
  refine h.set hc hcalls (fun k hne => ?_) ?_ (h.eventSane i c hc).set (.inr (.inr (.inr rfl)))
  · constructor <;>
      simp [shares, pendings, destroyings, hitems, hthread, hthread', Ne.symm hne]
  · have hsame : s'.handover i c.set = s.handover i c := by
      simp [handover, SyncCall.handover, shares, pendings, destroyings, hitems, hthread, hthread',
        SyncCall.set, SyncCall.setEvent]
    rw [hsame]
    exact .stay

/-- The event thread gives its share of a context back. -/
theorem Sane.threadLeaves (h : s.Sane) (hc : s.calls[i]? = some c) (hthread : s.thread = .leaving i)
    {canDestroyContext : Bool} {context : SyncContext}
    (hleave : c.context.destroySynchronizationContext = (canDestroyContext, context))
    (hcalls : s'.calls = s.calls.set i { c with context := context }) (hitems : s'.items = s.items)
    (hthread' : s'.thread = if canDestroyContext then .destroying i else .looping) : s'.Sane := by
  have hsane := h.eventSane i c hc
  have hanswered := h.answered i c hc
  have hpendings : s'.pendings i = s.pendings i := by
    cases canDestroyContext <;> simp [pendings, hitems, hthread, hthread']
  rw [← hpendings] at hanswered
  have hshares : (s.handover i c).shares = c.caller.shares + s'.shares i + 1 := by
    cases canDestroyContext <;>
      simp [handover, SyncCall.handover, shares, pendings, hitems, hthread, hthread', Nat.add_assoc]
  unfold SyncContext.destroySynchronizationContext at hleave
  split at hleave
  · rename_i hmarked
    obtain ⟨rfl, rfl⟩ := Prod.mk.inj hleave
    rw [if_pos rfl] at hthread'
    refine h.set hc hcalls (fun k hne => ?_) ?_ ⟨hsane.waiting, hsane.elsewhere, hsane.letGo⟩
      hanswered
    · constructor <;>
        simp [shares, pendings, destroyings, hitems, hthread, hthread', Ne.symm hne]
    · have hmove := Handover.Move.take hshares hmarked
      simpa [handover, SyncCall.handover, destroyings, hthread, hthread'] using hmove
  · rename_i hunmarked
    obtain ⟨rfl, rfl⟩ := Prod.mk.inj hleave
    rw [if_neg (by decide)] at hthread'
    refine h.set hc hcalls (fun k hne => ?_) ?_ ⟨hsane.waiting, hsane.elsewhere, hsane.letGo⟩
      hanswered
    · constructor <;>
        simp [shares, pendings, destroyings, hitems, hthread, hthread', Ne.symm hne]
    · have hmove := Handover.Move.mark hshares (Bool.eq_false_iff.mpr hunmarked)
      simpa [handover, SyncCall.handover, destroyings, hthread, hthread'] using hmove

/-- The event thread destroys a context. -/
theorem Sane.threadDestroys (h : s.Sane) (hc : s.calls[i]? = some c)
    (hthread : s.thread = .destroying i) (hcalls : s'.calls = s.calls.set i c.destroy)
    (hitems : s'.items = s.items) (hthread' : s'.thread = .looping) : s'.Sane := by
  have hsane := h.eventSane i c hc
  have hanswered := h.answered i c hc
  have hpendings : s'.pendings i = s.pendings i := by
    simp [pendings, hitems, hthread, hthread']
  rw [← hpendings] at hanswered
  refine h.set hc hcalls (fun k hne => ?_) ?_ ⟨hsane.waiting, hsane.elsewhere, hsane.letGo⟩
    hanswered
  · constructor <;>
      simp [shares, pendings, destroyings, hitems, hthread, hthread', Ne.symm hne]
  · have hmove := Handover.Move.destroy (h := s.handover i c) (n := c.caller.destroyings)
      (by simp [handover, SyncCall.handover, destroyings, hthread])
    simpa [handover, SyncCall.handover, SyncCall.destroy, shares, hpendings, destroyings, hthread,
      hthread'] using hmove

/-- The event thread goes on. -/
theorem Sane.threadStep (h : s.Sane) (hstep : s.threadStep = some s') : s'.Sane := by
  unfold SyncEvents.threadStep at hstep
  cases hthread : s.thread with
  | looping =>
    rw [hthread] at hstep
    cases hstep
    refine h.goto (by simp [hthread]) fun i => ?_
    cases s.eventQueueExitFlag <;> simp
  | pulling =>
    rw [hthread] at hstep
    dsimp only at hstep
    split at hstep
    · cases hstep
      exact h.goto (by simp [hthread]) (by simp)
    · rename_i q hqueue
      obtain ⟨⟨first, q'⟩, hpull, rfl⟩ := Option.map_eq_some_iff.mp hstep
      obtain ⟨_, heq⟩ := Option.ite_none_right_eq_some.mp hpull
      refine h.pulled hthread rfl ?_
      rcases items_dequeue hqueue (Option.some.inj heq) with ⟨hnil, rfl, hrest⟩ | hcons
      · exact .inl ⟨by rw [hnil]; exact hrest, rfl⟩
      · exact .inr ⟨first, hcons, rfl⟩
  | processing item =>
    rw [hthread] at hstep
    dsimp only at hstep
    split at hstep
    · rename_i hnone
      cases hstep
      refine h.goto (fun i => ⟨?_, by simp [hthread], by simp [hthread]⟩) (by simp)
      rintro heq
      rw [hthread] at heq
      obtain rfl := ThreadAt.processing.inj heq
      cases hnone
    · rename_i i hsome
      obtain ⟨c, hc, rfl⟩ := Option.map_eq_some_iff.mp hstep
      obtain ⟨context⟩ := item
      obtain rfl : context = some i := hsome
      exact h.processed hc hthread rfl rfl rfl
  | leaving i =>
    rw [hthread] at hstep
    obtain ⟨c, hc, rfl⟩ := Option.map_eq_some_iff.mp hstep
    exact h.threadLeaves hc hthread rfl rfl rfl rfl
  | destroying i =>
    rw [hthread] at hstep
    obtain ⟨c, hc, rfl⟩ := Option.map_eq_some_iff.mp hstep
    exact h.threadDestroys hc hthread rfl rfl rfl
  | exited =>
    rw [hthread] at hstep
    cases hstep

/-- The destruction of the queue goes on, with an item without a context. -/
theorem Sane.destroyStep (h : s.Sane) (hnull : none ∉ s.items)
    (hitem : ∀ item rest, s.items = some item :: rest → item.syncContext = none)
    (hstep : s.destroyStep = some s') : s'.Sane := by
  obtain ⟨_, hstep⟩ := Option.ite_none_right_eq_some.mp hstep
  obtain ⟨q, hqueue, rfl⟩ := Option.map_eq_some_iff.mp hstep
  cases hdequeue : q.dequeue with
  | mk first q' =>
    have hspec := items_dequeue hqueue hdequeue
    cases first with
    | some item =>
      have hcons := hspec.resolve_left (by simp)
      refine h.keep rfl fun i => kept_of_count ?_ rfl
      have hno := hitem item q'.items hcons
      rw [hcons, List.count_cons_of_ne]
      · rfl
      · intro heq
        cases heq
        cases hno
    | none =>
      have hnil : s.items = [] := by
        rcases hspec with ⟨hnil, _⟩ | hcons
        · exact hnil
        · rw [hcons] at hnull
          exact absurd List.mem_cons_self hnull
      refine h.keep rfl fun i => kept_of_count ?_ rfl
      rw [hnil]
      rfl

/-- What a step of the thread does to the queue. -/
theorem items_threadStep (hstep : s.threadStep = some s') :
    s'.items = s.items ∨ (∃ first, s.items = first :: s'.items) ∨ s'.items = [] := by
  unfold SyncEvents.threadStep at hstep
  cases hthread : s.thread with
  | looping =>
    rw [hthread] at hstep
    cases hstep
    exact .inl rfl
  | pulling =>
    rw [hthread] at hstep
    dsimp only at hstep
    split at hstep
    · cases hstep
      exact .inl rfl
    · rename_i q hqueue
      obtain ⟨⟨first, q'⟩, hpull, rfl⟩ := Option.map_eq_some_iff.mp hstep
      obtain ⟨_, heq⟩ := Option.ite_none_right_eq_some.mp hpull
      rcases items_dequeue hqueue (Option.some.inj heq) with ⟨_, _, hrest⟩ | hcons
      · exact .inr (.inr hrest)
      · exact .inr (.inl ⟨first, hcons⟩)
  | processing item =>
    rw [hthread] at hstep
    dsimp only at hstep
    split at hstep
    · cases hstep
      exact .inl rfl
    · obtain ⟨c, _, rfl⟩ := Option.map_eq_some_iff.mp hstep
      exact .inl rfl
  | leaving i | destroying i =>
    rw [hthread] at hstep
    obtain ⟨c, _, rfl⟩ := Option.map_eq_some_iff.mp hstep
    exact .inl rfl
  | exited =>
    rw [hthread] at hstep
    cases hstep

/-- What the destruction of the queue does to it. -/
theorem items_destroyStep (hstep : s.destroyStep = some s') :
    (∃ first, s.items = first :: s'.items) ∨ s'.items = [] := by
  obtain ⟨_, hstep⟩ := Option.ite_none_right_eq_some.mp hstep
  obtain ⟨q, hqueue, rfl⟩ := Option.map_eq_some_iff.mp hstep
  cases hdequeue : q.dequeue with
  | mk first q' =>
    cases first with
    | none => exact .inr rfl
    | some item =>
      have hcons := (items_dequeue hqueue hdequeue).resolve_left (by simp)
      exact .inl ⟨some item, hcons⟩

/-- What a step does to the queue. -/
theorem items_syncStep {a : SyncAction} (hstep : syncStep s a = some s') :
    s'.items = s.items ∨ (∃ item, s'.items = s.items ++ [some item]) ∨
      (∃ first, s.items = first :: s'.items) ∨ s'.items = [] := by
  cases a with
  | call signal =>
    cases hstep
    exact .inl rfl
  | signal signal nodeAllocated =>
    unfold syncStep at hstep
    dsimp only at hstep
    split at hstep
    · cases hstep
      rcases SyncQueue.enqueue_spec s.queue nodeAllocated ⟨none⟩ with ⟨_, hitems⟩ | ⟨_, hitems⟩
      · exact .inr (.inl ⟨_, hitems⟩)
      · exact .inl hitems
    · cases hstep
      exact .inl rfl
  | caller i succeeds =>
    obtain ⟨c, _, hstep⟩ := Option.bind_eq_some_iff.mp hstep
    split at hstep
    · have hspec := SyncQueue.enqueue_spec s.queue succeeds ⟨some i⟩
      generalize s.queue.enqueue succeeds ⟨some i⟩ = result at hstep hspec
      obtain ⟨rc, queue⟩ := result
      cases hstep
      rcases hspec with ⟨_, hitems⟩ | ⟨_, hitems⟩
      · exact .inr (.inl ⟨_, hitems⟩)
      · exact .inl hitems
    · obtain ⟨c', _, rfl⟩ := Option.map_eq_some_iff.mp hstep
      exact .inl rfl
  | timerFires i | timerCallback i =>
    obtain ⟨c, _, hstep⟩ := Option.bind_eq_some_iff.mp hstep
    obtain ⟨c', _, rfl⟩ := Option.map_eq_some_iff.mp hstep
    exact .inl rfl
  | thread => exact (items_threadStep hstep).imp_right .inr
  | disable =>
    cases hstep
    refine .inl ?_
    unfold items
    cases s.queue <;> rfl
  | destroyQueue => exact .inr (.inr (items_destroyStep hstep))

end SyncEvents

/-- No item of a caller is in the queue when it is destroyed: the one that is given up next is
none. -/
def KeepsCallers (s : SyncEvents) (a : SyncAction) : Prop :=
  a = .destroyQueue → ∀ item rest, s.items = some item :: rest → item.syncContext = none

namespace SyncEvents

variable {s s' : SyncEvents}

theorem noNull_syncStep {a : SyncAction} (hstep : syncStep s a = some s')
    (hnull : none ∉ s.items) : none ∉ s'.items := by
  rcases items_syncStep hstep with hsame | ⟨item, hback⟩ | ⟨first, hfront⟩ | hnil
  · rwa [hsame]
  · rw [hback]
    simpa using hnull
  · rw [hfront] at hnull
    exact fun hmem => hnull (List.mem_cons_of_mem _ hmem)
  · simp [hnil]

/-- **A step that gives up no item of a caller keeps the invariant.** -/
theorem sane_syncStep {a : SyncAction} (hkeeps : KeepsCallers s a)
    (hstep : syncStep s a = some s') (hnull : none ∉ s.items) (h : s.Sane) : s'.Sane := by
  cases a with
  | call signal =>
    cases hstep
    exact h.call _
  | signal signal nodeAllocated =>
    unfold syncStep at hstep
    dsimp only at hstep
    split at hstep
    · cases hstep
      refine h.keep rfl fun i => ?_
      rcases SyncQueue.enqueue_spec s.queue nodeAllocated ⟨none⟩ with ⟨_, hitems⟩ | ⟨_, hitems⟩
      · refine kept_of_count ?_ rfl
        rw [items, hitems, List.count_append]
        rfl
      · exact kept_of_eq s { s with queue := (s.queue.enqueue nodeAllocated ⟨none⟩).2 } hitems rfl i
    · cases hstep
      exact h
  | caller i succeeds => exact h.callerStep hstep
  | timerFires i =>
    obtain ⟨c, hc, hstep⟩ := Option.bind_eq_some_iff.mp hstep
    obtain ⟨c', hfire, rfl⟩ := Option.map_eq_some_iff.mp hstep
    exact h.timerFires hc hfire
  | timerCallback i =>
    obtain ⟨c, hc, hstep⟩ := Option.bind_eq_some_iff.mp hstep
    obtain ⟨c', hcallback, rfl⟩ := Option.map_eq_some_iff.mp hstep
    exact h.timerCallback hc hcallback
  | thread => exact h.threadStep hstep
  | disable =>
    cases hstep
    refine h.keep rfl fun i => kept_of_count ?_ rfl
    unfold items
    cases s.queue <;> rfl
  | destroyQueue => exact h.destroyStep hnull (hkeeps rfl) hstep

/-- The invariant, and no item in the queue is null. -/
structure Sound (s : SyncEvents) : Prop where
  noNull : none ∉ s.items
  sane : s.Sane

theorem Sane.released (h : s.Sane) : Released s := by
  intro i c hc
  have hbalanced := h.balanced i c hc
  have hnotInUse (hreturned : c.caller = .returned) (hno : ¬s.InUse i) :
      (s.handover i c).shares = 0 ∧ (s.handover i c).destroying = 0 := by
    rw [inUse_iff] at hno
    simp only [handover, SyncCall.handover, hreturned, CallerAt.shares, CallerAt.destroyings]
    omega
  refine ⟨?_, fun hdestroyed => ?_, fun hreturned hno => ?_, fun hwaits hno => ?_⟩
  · rcases Nat.eq_zero_or_pos c.destroyed with hnot | hdestroyed
    · omega
    · exact (hbalanced.of_destroyed hdestroyed).1.le
  · obtain ⟨-, hshares, hdestroying⟩ := hbalanced.of_destroyed hdestroyed
    simp only [handover, SyncCall.handover] at hshares hdestroying
    refine ⟨?_, ?_⟩
    · have hzero : c.caller.shares = 0 ∧ c.caller.destroyings = 0 := by omega
      cases hcaller : c.caller <;> simp [hcaller, CallerAt.shares, CallerAt.destroyings] at hzero
      rfl
    · rw [inUse_iff]
      omega
  · obtain ⟨hshares, hdestroying⟩ := hnotInUse hreturned hno
    exact hbalanced.destroyed_eq_one hshares hdestroying
  · have hsignaled : c.context.completionEvent.signaled = true := by
      rcases h.answered i c hc with hqueuing | hfailing | hpending | hsignaled
      · rw [hqueuing] at hwaits
        simp [CallerAt.waits] at hwaits
      · rw [hfailing] at hwaits
        simp [CallerAt.waits] at hwaits
      · exact absurd ((s.pending_iff i).mpr hpending) hno
      · exact hsignaled
    refine ⟨hsignaled, fun hwaiting => ?_⟩
    have hone := (h.eventSane i c hc).waiting hwaiting
    rw [(h.eventSane i c hc).letGo hsignaled] at hone
    omega

end SyncEvents

/-- **Synchronous contexts are released once.**  In every run in which no item of a caller is given
up with the queue, each context is destroyed once, after the caller and the queue are done with
it, and no caller waits for its timer when its item is gone. -/
theorem run_syncStep_released {as : List SyncAction} {s : SyncEvents}
    (hkeeps : EveryStep syncStep KeepsCallers .start as)
    (hrun : run syncStep .start as = some s) : Released s := by
  have hinv : s.Sound := by
    refine run_invariant_of_everyStep (fun t a t' hok hstep ht => ?_) hkeeps hrun
      ⟨List.not_mem_nil, SyncEvents.sane_start⟩
    exact ⟨SyncEvents.noNull_syncStep hstep ht.noNull,
      SyncEvents.sane_syncStep hok hstep ht.noNull ht.sane⟩
  exact hinv.sane.released

/-- A caller whose event is processed while it waits, before its timer fires. -/
def processedInTime : List SyncAction :=
  [.call ⟨false, true, true⟩, .caller 0 true, .caller 0 true, .caller 0 true, .thread, .thread,
    .thread, .thread, .caller 0 true, .caller 0 true, .caller 0 true, .caller 0 true]

theorem run_syncStep_released_processed :
    ∃ s, run syncStep .start processedInTime = some s ∧ Released s := by
  have hsome : (run syncStep .start processedInTime).isSome = true := rfl
  obtain ⟨s, hrun⟩ := Option.isSome_iff_exists.mp hsome
  refine ⟨s, hrun, run_syncStep_released (everyStep_of_mem (fun a ha s hdestroy => ?_) _) hrun⟩
  subst hdestroy
  simp [processedInTime] at ha

/-- A caller whose item is still in the queue when the queue is destroyed: the event thread is told
to exit, and the caller gets to its wait. -/
def givenUp : List SyncAction :=
  [.call ⟨false, true, true⟩, .caller 0 true, .disable, .thread, .destroyQueue, .caller 0 true,
    .caller 0 true]

theorem givenUp_not_released :
    ¬∀ as s, run syncStep .start as = some s → Released s := by
  intro h
  have hwaits : ∃ s c, run syncStep .start givenUp = some s ∧ s.calls[0]? = some c ∧
      c.caller = .waiting ∧ s.items = [] ∧ s.thread = .exited ∧
      c.context.completionEvent.signaled = false :=
    ⟨_, _, rfl, rfl, rfl, rfl, rfl, rfl⟩
  obtain ⟨s, c, hrun, hc, hwaiting, hitems, hthread, hunset⟩ := hwaits
  have hgone : ¬s.Pending 0 := by
    rw [SyncEvents.Pending, hitems, hthread]
    simp
  have hover := (h _ s hrun 0 c hc).waitOver (.inr (.inr hwaiting)) hgone
  rw [hover.1] at hunset
  cases hunset

end Uf

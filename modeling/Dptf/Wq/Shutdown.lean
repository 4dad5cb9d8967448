import Dptf.Wq.Manager

/-!
# What runs after the shutdown of the queues

`disableAndEmptyAllQueues` empties the immediate queue before the deferred one, and the callback of
the timer moves items without the mutex of the manager.

* `not_noOrdinary_run` — an item that the callback moves between the two ends up in the immediate
  queue and is dequeued.
* `noOrdinary_run` — **the condition is enough**, in every run.
-/

open Lib
open Mgr (UIntN)

namespace Wq

/-- Once the queues are shut down, only `PolicyDestroy` and `ParticipantDestroy` are queued or were
dequeued. -/
def NoOrdinary (s : Manager) : Prop :=
  s.shutDown = true → (∀ x ∈ s.immediate.queue, x.workItem.IsDestroy) ∧
    ∀ x ∈ s.late, x.workItem.IsDestroy

/-- The timer has expired and the callback has an item when the immediate queue is emptied. -/
def shutdownBehindCallback : List ManagerOp :=
  [.enqueueDeferred (policyInitiatedCallback 0 1 0), .expire, .take, .lock, .disable,
    .emptyImmediate, .move, .unlock, .finish, .emptyDeferred, .dequeue]

/-- **An ordinary item is dequeued** after the queues were shut down. -/
theorem not_noOrdinary_run :
    ¬ ∀ (now : Int) (ops : List ManagerOp) (s : Manager),
      run Manager.step (Manager.start now) ops = some s → NoOrdinary s := by
  intro h
  obtain ⟨s, hrun, hshut, hlate⟩ :
      ∃ s, run Manager.step (Manager.start 0) shutdownBehindCallback = some s ∧
        s.shutDown = true ∧
        s.late = [⟨.deferred (policyInitiatedCallback 0 1 0), 0⟩] := ⟨_, rfl, rfl, rfl⟩
  have hdestroy := (h 0 shutdownBehindCallback s hrun hshut).2 _ (hlate ▸ List.mem_singleton_self _)
  rcases hdestroy with hevent | hevent
  · cases hevent
  · cases hevent

/-- The callback moves no item but `PolicyDestroy` and `ParticipantDestroy` while the immediate queue
is emptied and the deferred one is not. -/
def MovesNoOrdinary (s : Manager) (op : ManagerOp) : Prop :=
  match op with
  | .move => ∀ x ∈ s.deferred.callback.readyWorkItem, s.phase = .emptied → x.workItem.IsDestroy
  | _ => True

/-! ## Each step -/

/-- The queues on their way through the shutdown. -/
structure Quiet (s : Manager) : Prop where
  disabled : s.phase = .disabled ∨ s.phase = .emptied ∨ s.shutDown = true →
    s.enqueueingEnabled = false
  emptied : s.phase = .emptied ∨ s.shutDown = true →
    ∀ x ∈ s.immediate.queue, x.workItem.IsDestroy
  deferred : s.shutDown = true →
    s.deferred.queue = [] ∧ s.deferred.callback.readyWorkItem = none
  late : ∀ x ∈ s.late, x.workItem.IsDestroy

theorem Quiet.noOrdinary {s : Manager} (h : Quiet s) : NoOrdinary s :=
  fun hshut => ⟨h.emptied (Or.inr hshut), h.late⟩

theorem quiet_start (now : Int) : Quiet (Manager.start now) where
  disabled := by rintro (hphase | hphase | hshut) <;> cases ‹_›
  emptied _ x hx := by cases hx
  deferred hshut := by cases hshut
  late x hx := by cases hx

/-- What an insertion adds to the queue. -/
theorem Manager.mem_enqueueImmediate {s : Manager} {x y : ImmediateWorkItem}
    (hy : y ∈ (s.enqueueImmediate x).immediate.queue) : y = x ∨ y ∈ s.immediate.queue := by
  rw [Manager.enqueueImmediate] at hy
  rcases s.immediate.enqueue_cases x with ⟨-, heq⟩ | ⟨-, -, hqueue⟩
  · rw [heq] at hy
    exact Or.inr hy
  · dsimp only at hy
    rw [hqueue] at hy
    exact List.mem_cons.1 ((insertLast_perm x s.immediate.queue).mem_iff.1 hy)

namespace Quiet

variable {s : Manager}
variable {q : DeferredWorkItemQueue} {s' : Manager}

/-- A step that leaves the queues and the phase. -/
theorem congr (h : Quiet s) (henabled : s'.enqueueingEnabled = s.enqueueingEnabled)
    (hphase : s'.phase = s.phase) (hshut : s'.shutDown = s.shutDown)
    (hqueue : s'.immediate.queue = s.immediate.queue) (hlate : s'.late = s.late)
    (hdeferred : s.shutDown = true →
      s'.deferred.queue = [] ∧ s'.deferred.callback.readyWorkItem = none) : Quiet s' where
  disabled := by
    rw [henabled, hphase, hshut]
    exact h.disabled
  emptied := by
    rw [hphase, hshut, hqueue]
    exact h.emptied
  deferred := by
    rw [hshut]
    exact hdeferred
  late := by
    rw [hlate]
    exact h.late

/-- Nothing ordinary is let in after the shutdown. -/
theorem isDestroy_of_canEnqueue (h : Quiet s) {w : WorkItem}
    (hcan : s.canEnqueueImmediateWorkItem w) (hshut : s.shutDown = true) : w.IsDestroy := by
  rcases hcan with henabled | hdestroy
  · rw [h.disabled (Or.inr (Or.inr hshut))] at henabled
    cases henabled
  · exact hdestroy

/-- An item that comes in under the mutex of the manager. -/
theorem enqueueImmediate (h : Quiet s) {x : ImmediateWorkItem}
    (hx : s.phase = .emptied ∨ s.shutDown = true → x.workItem.IsDestroy) :
    Quiet (s.enqueueImmediate x) where
  disabled := h.disabled
  emptied hemptied y hy := by
    rcases Manager.mem_enqueueImmediate hy with rfl | hy
    · exact hx hemptied
    · exact h.emptied hemptied y hy
  deferred := h.deferred
  late := h.late

/-- The callback goes on; the queue of it stays empty after the shutdown. -/
theorem callback (h : Quiet s)
    (hq : s.deferred.queue = [] → s.deferred.callback.readyWorkItem = none →
      q.queue = [] ∧ q.callback.readyWorkItem = none) : Quiet { s with deferred := q } :=
  h.congr rfl rfl rfl rfl rfl fun hshut => hq (h.deferred hshut).1 (h.deferred hshut).2

theorem dequeue_of_empty (hq : q.queue = []) (now : Int) :
    (q.dequeue now).1.queue = [] ∧ (q.dequeue now).2 = none := by
  rcases q.dequeue_cases now with ⟨x, queue, hcons, -⟩ | ⟨-, hnone, hrest⟩
  · rw [hq] at hcons
    cases hcons
  · exact ⟨hrest.trans hq, hnone⟩

/-- An item that the manager lets in while no function is under its mutex. -/
theorem isDestroy_of_free (h : Quiet s) (hfree : s.phase = .free) {w : WorkItem}
    (hcan : s.canEnqueueImmediateWorkItem w) (hemptied : s.phase = .emptied ∨ s.shutDown = true) :
    w.IsDestroy := by
  rcases hemptied with hemptied | hshut
  · rw [hfree] at hemptied
    cases hemptied
  · exact h.isDestroy_of_canEnqueue hcan hshut

theorem enqueueAndReturn (h : Quiet s) (hfree : s.phase = .free) (w : NewWorkItem) (p : UIntN) :
    Quiet (s.enqueueAndReturn w p) := by
  rw [Manager.enqueueAndReturn]
  split
  · rename_i hcan
    exact h.enqueueImmediate (h.isDestroy_of_free hfree hcan)
  · exact h

theorem enqueueAndWait (h : Quiet s) (hfree : s.phase = .free) (w : NewWorkItem) (p : UIntN) :
    Quiet (s.enqueueAndWait w p) := by
  rw [Manager.enqueueAndWait]
  split
  · rename_i haccepted
    refine Quiet.congr (s := s.enqueueImmediate
      ⟨.direct (w.workItem.signalAtCompletion s.callers), p⟩) ?_ rfl rfl rfl rfl rfl h.deferred
    exact h.enqueueImmediate (h.isDestroy_of_free hfree haccepted.1)
  · exact h.congr rfl rfl rfl rfl rfl h.deferred

/-- A phase in which the queues are not emptied and that disables nothing. -/
theorem enter (h : Quiet s) (henabled : s'.enqueueingEnabled = s.enqueueingEnabled)
    (hdisabled : s'.phase ≠ .disabled) (hemptied : s'.phase ≠ .emptied)
    (hshut : s'.shutDown = s.shutDown) (hlate : s'.late = s.late)
    (hqueue : ∀ x ∈ s'.immediate.queue, x ∈ s.immediate.queue) (hdeferred : s.shutDown = true →
      s'.deferred.queue = [] ∧ s'.deferred.callback.readyWorkItem = none) : Quiet s' where
  disabled := by
    rw [henabled, hshut]
    rintro (hphase | hphase | hphase)
    · exact absurd hphase hdisabled
    · exact absurd hphase hemptied
    · exact h.disabled (Or.inr (Or.inr hphase))
  emptied := by
    rw [hshut]
    rintro (hphase | hphase) x hx
    · exact absurd hphase hemptied
    · exact h.emptied (Or.inr hphase) x (hqueue x hx)
  deferred := by
    rw [hshut]
    exact hdeferred
  late := by
    rw [hlate]
    exact h.late

theorem removeDeferred_of_empty (hqueue : q.queue = []) (hready : q.callback.readyWorkItem = none)
    (c : WorkItemMatchCriteria) : (q.removeIfMatches c).1.queue = [] ∧
      (q.removeIfMatches c).1.callback.readyWorkItem = none := by
  dsimp only [DeferredWorkItemQueue.removeIfMatches]
  rw [DeferredWorkItemQueue.setTimer_queue, DeferredWorkItemQueue.setTimer_callback, hqueue]
  exact ⟨rfl, hready⟩

/-- The queues are empty when the callback does not run. -/
theorem emptyDeferred (h : Quiet s) (hemptied : s.phase = .emptied)
    (hidle : s.deferred.callback = .idle) :
    Quiet { s with deferred := s.deferred.makeEmpty, phase := .free, shutDown := true } where
  disabled _ := h.disabled (Or.inr (Or.inl hemptied))
  emptied _ := h.emptied (Or.inl hemptied)
  deferred _ := by
    refine ⟨rfl, ?_⟩
    dsimp only [DeferredWorkItemQueue.makeEmpty]
    rw [hidle]
    rfl
  late := h.late

theorem moved (h : Quiet s) {ready : DeferredWorkItem}
    (hready : s.deferred.callback.readyWorkItem = some ready)
    (hok : s.phase = .emptied → (WrappedItem.deferred ready).workItem.IsDestroy)
    (q : DeferredWorkItemQueue) :
    Quiet { s.enqueueImmediate ⟨.deferred ready, 0⟩ with deferred := q } := by
  have hshut : s.shutDown ≠ true := fun hshut => by
    rw [(h.deferred hshut).2] at hready
    cases hready
  refine Quiet.congr (s := s.enqueueImmediate ⟨.deferred ready, 0⟩) ?_ rfl rfl rfl rfl rfl
    fun hshut' => absurd hshut' hshut
  refine h.enqueueImmediate fun hemptied => ?_
  rcases hemptied with hemptied | hshut'
  · exact hok hemptied
  · exact absurd hshut' hshut

/-- An item that the work item thread dequeues. -/
theorem dequeued (h : Quiet s) {x : ImmediateWorkItem} {queue : List ImmediateWorkItem}
    (hqueue : s.immediate.queue = x :: queue) :
    Quiet { s with
      immediate := { s.immediate with queue := queue }
      thread := .executing x
      late := if s.shutDown then s.late ++ [x] else s.late } where
  disabled := h.disabled
  emptied hemptied z hz := h.emptied hemptied z (hqueue ▸ List.mem_cons_of_mem _ hz)
  deferred := h.deferred
  late z hz := by
    dsimp only at hz
    split at hz
    · rename_i hshut
      rcases List.mem_append.1 hz with hz | hz
      · exact h.late z hz
      · obtain rfl := List.mem_singleton.1 hz
        exact h.emptied (Or.inr hshut) z (hqueue ▸ List.mem_cons_self)
    · exact h.late z hz

/-- An item that is to wait is let in only before the shutdown. -/
theorem deferredIn (h : Quiet s) {x : DeferredWorkItem}
    (hstep : s.step (.enqueueDeferred x) = some s') : Quiet s' := by
  rw [Manager.step] at hstep
  split at hstep
  · split at hstep
    · rename_i henabled
      obtain ⟨-, rfl⟩ := Option.ite_some_none_eq_some.1 hstep
      refine h.congr rfl rfl rfl rfl rfl fun hshut => ?_
      rw [h.disabled (Or.inr (Or.inr hshut))] at henabled
      cases henabled
    · cases hstep
      exact h
  · cases hstep

theorem removeDeferred (h : Quiet s) (hstep : s.step .removeDeferred = some s') : Quiet s' := by
  rw [Manager.step] at hstep
  split at hstep
  · rename_i c _
    obtain ⟨-, rfl⟩ := Option.ite_some_none_eq_some.1 hstep
    refine h.enter rfl (by simp) (by simp) rfl rfl (fun x hx => hx) fun hshut => ?_
    exact removeDeferred_of_empty (h.deferred hshut).1 (h.deferred hshut).2 c
  · cases hstep

theorem disable (h : Quiet s) (hstep : s.step .disable = some s') : Quiet s' := by
  rw [Manager.step] at hstep
  split at hstep
  · cases hstep
    refine ⟨fun _ => rfl, fun hemptied x hx => ?_, h.deferred, h.late⟩
    rcases hemptied with hemptied | hshut
    · cases hemptied
    · exact h.emptied (Or.inr hshut) x hx
  · cases hstep

theorem emptyImmediate (h : Quiet s) (hstep : s.step .emptyImmediate = some s') : Quiet s' := by
  rw [Manager.step] at hstep
  split at hstep
  · rename_i hdisabled
    cases hstep
    refine ⟨fun _ => h.disabled (Or.inl hdisabled), fun _ x hx => ?_, h.deferred, h.late⟩
    cases hx
  · cases hstep

theorem move (h : Quiet s) (hok : MovesNoOrdinary s .move) (hstep : s.step .move = some s') :
    Quiet s' := by
  obtain ⟨⟨q, item⟩, hq, rfl⟩ := Option.map_eq_some_iff.1 hstep
  obtain ⟨hmoving, -⟩ := DeferredWorkItemQueue.callbackMove_eq_some hq
  have hready : s.deferred.callback.readyWorkItem = some item := by rw [hmoving]; rfl
  exact h.moved hready (hok item hready) _

/-- **Each step** that meets the condition keeps the queues quiet. -/
theorem step (h : Quiet s) {op : ManagerOp} (hok : MovesNoOrdinary s op)
    (hstep : s.step op = some s') : Quiet s' := by
  cases op with
  | wait elapsed =>
    cases hstep
    exact h.congr rfl rfl rfl rfl rfl h.deferred
  | enqueueAndReturn w p =>
    rw [Manager.step] at hstep
    split at hstep
    · rename_i hfree
      cases hstep
      exact h.enqueueAndReturn hfree w p
    · cases hstep
  | enqueueAndWait w p =>
    rw [Manager.step] at hstep
    split at hstep
    · rename_i hfree
      cases hstep
      exact h.enqueueAndWait hfree w p
    · cases hstep
  | executeDirectly _ | endExecution | signal | wake =>
    rw [Manager.step] at hstep
    split at hstep
    · cases hstep
      exact h.congr rfl rfl rfl rfl rfl h.deferred
    · cases hstep
  | enqueueDeferred x => exact h.deferredIn hstep
  | removeIfMatches c =>
    rw [Manager.step] at hstep
    split at hstep
    · cases hstep
      exact h.enter rfl (by simp) (by simp) rfl rfl (fun x hx => List.mem_of_mem_filter hx)
        h.deferred
    · cases hstep
  | removeDeferred => exact h.removeDeferred hstep
  | disable => exact h.disable hstep
  | emptyImmediate => exact h.emptyImmediate hstep
  | emptyDeferred =>
    rw [Manager.step] at hstep
    split at hstep
    · rename_i hemptied hidle
      cases hstep
      exact h.emptyDeferred hemptied hidle
    · cases hstep
  | expire | lock | unlock | finish =>
    obtain ⟨q, hq, rfl⟩ := Option.map_eq_some_iff.1 hstep
    obtain ⟨timer, phase, rfl, hphase, -⟩ :=
      @DeferredWorkItemQueue.goesOn s.deferred q s.now (by simp [hq])
    exact h.congr rfl rfl rfl rfl rfl fun hshut =>
      ⟨(h.deferred hshut).1, hphase.trans (h.deferred hshut).2⟩
  | take =>
    obtain ⟨q, hq, rfl⟩ := Option.map_eq_some_iff.1 hstep
    obtain ⟨-, rfl⟩ := DeferredWorkItemQueue.callbackTake_eq_some hq
    exact h.congr rfl rfl rfl rfl rfl fun hshut => dequeue_of_empty (h.deferred hshut).1 s.now
  | move => exact h.move hok hstep
  | dequeue =>
    obtain ⟨-, ⟨x, queue, hqueue, rfl⟩ | ⟨-, rfl⟩⟩ := Manager.step_dequeue hstep
    · exact h.dequeued hqueue
    · exact h.congr rfl rfl rfl rfl rfl h.deferred
  | endWait i =>
    obtain ⟨-, rfl⟩ := Option.ite_some_none_eq_some.1 hstep
    exact h.congr rfl rfl rfl rfl rfl h.deferred

end Quiet

/-- **Nothing ordinary runs after the shutdown** in every run in which the callback moves no
ordinary item between the two queues being emptied. -/
theorem noOrdinary_run {now : Int} {ops : List ManagerOp} {s : Manager}
    (hok : EveryStep Manager.step MovesNoOrdinary (Manager.start now) ops)
    (hrun : run Manager.step (Manager.start now) ops = some s) : NoOrdinary s :=
  (run_invariant_of_everyStep (fun _ _ _ hok hstep h => Quiet.step h hok hstep) hok hrun
    (quiet_start now)).noOrdinary

/-- A `PolicyDestroy` item. -/
def policyDestroy : NewWorkItem where
  workItem :=
    { frameworkEventType := .policyDestroy
      uniqueId := 2
      subject := .policy 0
      completionSemaphore := none
      crossed := nofun }
  unawaited := rfl

/-- The timer has not expired when the queues are shut down, and then a policy is destroyed. -/
def shutdownBeforeTimer : List ManagerOp :=
  [.enqueueDeferred (policyInitiatedCallback 0 1 5), .disable, .emptyImmediate, .emptyDeferred,
    .enqueueAndReturn policyDestroy 0, .dequeue]

theorem noOrdinary_run_shutdownBeforeTimer :
    ∃ s, run Manager.step (Manager.start 0) shutdownBeforeTimer = some s ∧ s.shutDown = true ∧
      s.late = [⟨.direct policyDestroy.workItem, 0⟩] ∧ NoOrdinary s := by
  obtain ⟨s, hrun, hshut, hlate⟩ :
      ∃ s, run Manager.step (Manager.start 0) shutdownBeforeTimer = some s ∧ s.shutDown = true ∧
        s.late = [⟨.direct policyDestroy.workItem, 0⟩] := ⟨_, rfl, rfl, rfl⟩
  refine ⟨s, hrun, hshut, hlate, noOrdinary_run (everyStep_of_mem ?_ _) hrun⟩
  intro op hop s
  simp only [shutdownBeforeTimer, List.mem_cons, List.not_mem_nil, or_false] at hop
  rcases hop with rfl | rfl | rfl | rfl | rfl | rfl
  all_goals trivial

end Wq

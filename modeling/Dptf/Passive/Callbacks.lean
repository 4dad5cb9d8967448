import Dptf.Lib.Machine
import Dptf.Passive.CallbackScheduler

/-!
# Targets are called back

The policy schedules callbacks while the clock goes on and callbacks fire.

* `not_settled` — a relationship stays busy when its participant is removed.
* `callbacks_run` — in **every run**, the schedule is tracked, and each operation does what is
  expected of it exactly when no relationship of a participant that it removes is busy.
-/

open Lib

namespace Passive

/-! ## Runs -/

/-- An operation of the policy, or the firing of a callback, which is acknowledged. -/
inductive ScheduleOp
  | ensureCallbackByNextSamplePeriod (target source : Nat)
  | ensureCallbackByShortestSamplePeriod (target : Nat)
  | markBusyForRequests (target source : Nat)
  | markSourceAsBusy (source : Nat) (monitoredTargets : List Nat)
  | callbackFires (callbackHandle : Nat)
  | removeParticipantFromSchedule (participant : Nat)
  | cancelAllCallbackRequests
  | setTrt (trt : ThermalRelationshipTable)

/-- An operation at its time, with the handle of the callback that it creates. -/
structure ScheduleAction where
  time : Nat
  callbackHandle : Nat
  op : ScheduleOp

/-- The scheduler and the clock. -/
structure Scheduling where
  time : Nat
  scheduler : CallbackScheduler

namespace Scheduling

/-- A new scheduler. -/
def start (trt : ThermalRelationshipTable) (minSampleTime : Option Nat) : Scheduling :=
  ⟨0, CallbackScheduler.make trt minSampleTime⟩

/-- What an operation does to the scheduler; an exception leaves it, and a callback that is not due
does not fire. -/
def next (s : CallbackScheduler) (a : ScheduleAction) : Option CallbackScheduler :=
  match a.op with
  | .ensureCallbackByNextSamplePeriod target source =>
    some ((s.ensureCallbackByNextSamplePeriod a.callbackHandle target source a.time).getD s)
  | .ensureCallbackByShortestSamplePeriod target =>
    some ((s.ensureCallbackByShortestSamplePeriod a.callbackHandle target a.time).getD s)
  | .markBusyForRequests target source => some ((s.markBusyForRequests target source a.time).getD s)
  | .markSourceAsBusy source monitoredTargets =>
    some ((s.markSourceAsBusy source monitoredTargets a.time).getD s)
  | .callbackFires callbackHandle =>
    match s.targetScheduler.outstanding.find callbackHandle with
    | some callback =>
      if callback.dueTime ≤ a.time then
        some ({ s with
          targetScheduler := s.targetScheduler.removePolicyInitiatedCallback callbackHandle
          }.acknowledgeCallback callback.participantIndex)
      else none
    | none => none
  | .removeParticipantFromSchedule participant =>
    some (s.removeParticipantFromSchedule participant)
  | .cancelAllCallbackRequests => some s.cancelAllCallbackRequests
  | .setTrt trt => some (s.setTrt trt)

/-- The clock does not go back, and new handles are not in use. -/
def step (s : Scheduling) (a : ScheduleAction) : Option Scheduling :=
  if s.time ≤ a.time ∧
      s.scheduler.targetScheduler.outstanding.find a.callbackHandle = none then
    (next s.scheduler a).map fun scheduler => ⟨a.time, scheduler⟩
  else none

end Scheduling

/-! ## What is expected -/

namespace PolicyCallbackScheduler

/-- The outstanding callbacks are those in the schedule, with at most one for each target. -/
structure Tracked (s : PolicyCallbackScheduler) : Prop where
  outstanding : ∀ participantIndex row, s.schedule.find participantIndex = some row →
    s.outstanding.find row.callbackHandle = some ⟨participantIndex, row.timeStamp + row.timeDelta⟩
  recorded : ∀ callbackHandle callback, s.outstanding.find callbackHandle = some callback →
    ∃ row, s.schedule.find callback.participantIndex = some row ∧
      row.callbackHandle = callbackHandle

/-- One callback for the target is outstanding, and it is due in the range. -/
def OneDue (s : PolicyCallbackScheduler) (target beginTime endTime : Nat) : Prop :=
  ∃ callbackHandle dueTime, s.outstanding.find callbackHandle = some ⟨target, dueTime⟩ ∧
    beginTime ≤ dueTime ∧ dueTime ≤ endTime ∧
    ∀ callbackHandle' callback, s.outstanding.find callbackHandle' = some callback →
      callback.participantIndex = target → callbackHandle' = callbackHandle

end PolicyCallbackScheduler

namespace CallbackScheduler

/-- No relationship of a participant is busy. -/
def FreeForRequests (s : CallbackScheduler) (participant time : Nat) : Prop :=
  ∀ other, s.isFreeForRequests participant other time = true ∧
    s.isFreeForRequests other participant time = true

/-- Nothing is left of a participant. -/
structure StartsClean (s : CallbackScheduler) (participant time : Nat) : Prop where
  uncalled : ∀ callbackHandle callback,
    s.targetScheduler.outstanding.find callbackHandle = some callback →
      callback.participantIndex ≠ participant
  commits : s.isFreeForCommits participant time = true
  requests : s.FreeForRequests participant time

/-- What is expected of an operation: an `ensure` leaves a callback within its sample time, and
nothing is left of a participant that is removed. -/
def Settled (s : CallbackScheduler) (a : ScheduleAction) (s' : CallbackScheduler) : Prop :=
  match a.op with
  | .ensureCallbackByNextSamplePeriod target source =>
    ∀ sampleTime effective, s.trt.getSampleTimeForRelationship target source = some sampleTime →
      s.effectiveSampleTime sampleTime = some effective →
      s'.targetScheduler.OneDue target a.time (a.time + effective)
  | .ensureCallbackByShortestSamplePeriod target =>
    ∀ sampleTime effective, s.trt.getShortestSamplePeriodForTarget target = some sampleTime →
      s.effectiveSampleTime sampleTime = some effective →
      s'.targetScheduler.OneDue target a.time (a.time + effective)
  | .removeParticipantFromSchedule participant => s'.StartsClean participant a.time
  | _ => True

end CallbackScheduler

/-- One relationship, with a sample time of 10 s. -/
def tenSeconds : ThermalRelationshipTable := [⟨0, 1, some 10000000⟩]

/-- The relationship is busy for 10 s. -/
def markedBusy : List ScheduleAction := [⟨0, 1, .markBusyForRequests 0 1⟩]

/-- **The relationship stays busy** when its source is removed after 5 s. -/
theorem not_settled :
    ¬ ∀ (trt : ThermalRelationshipTable) (minSampleTime : Option Nat) (as : List ScheduleAction)
        (s : Scheduling), run Scheduling.step (Scheduling.start trt minSampleTime) as = some s →
          s.scheduler.targetScheduler.Tracked ∧
            ∀ a s', Scheduling.step s a = some s' → s.scheduler.Settled a s'.scheduler := by
  intro h
  obtain ⟨s, s', hrun, hstep, hbusy⟩ : ∃ s s',
      run Scheduling.step (Scheduling.start tenSeconds (some 1000000)) markedBusy = some s ∧
      Scheduling.step s ⟨5000000, 1, .removeParticipantFromSchedule 1⟩ = some s' ∧
      s'.scheduler.isFreeForRequests 0 1 5000000 = false := ⟨_, _, rfl, rfl, by decide +kernel⟩
  have hclean : s'.scheduler.StartsClean 1 5000000 := (h _ _ _ s hrun).2 _ s' hstep
  exact absurd (hbusy.symm.trans (hclean.requests 0).2) (by decide)

/-- No relationship of a participant that is removed has been marked busy beyond that time. -/
def CallbackScheduler.RemovesUnbusy (s : CallbackScheduler) (a : ScheduleAction) : Prop :=
  ∀ participant, a.op = .removeParticipantFromSchedule participant →
    ∀ relationship timeBusyUntil, s.requestSchedule.find relationship = some timeBusyUntil →
      relationship.target = participant ∨ relationship.source = participant →
      timeBusyUntil ≤ a.time

/-! ## The schedule -/

namespace PolicyCallbackScheduler

variable {s : PolicyCallbackScheduler}
variable {target beginTime endTime participantIndex callbackHandle : Nat}

theorem tracked_empty : empty.Tracked := by
  refine ⟨?_, ?_⟩
  · intro participantIndex row h
    cases h
  · intro callbackHandle callback h
    cases h

/-- A row that is due in the range is the one callback for its target. -/
theorem Tracked.oneDue (h : s.Tracked) {row : ParticipantCallback}
    (hrow : s.schedule.find target = some row) (hbegin : beginTime ≤ row.timeStamp + row.timeDelta)
    (hend : row.timeStamp + row.timeDelta ≤ endTime) : s.OneDue target beginTime endTime := by
  refine ⟨row.callbackHandle, _, h.outstanding target row hrow, hbegin, hend, ?_⟩
  rintro callbackHandle ⟨participantIndex, dueTime⟩ hcallback rfl
  obtain ⟨row', hrow', rfl⟩ := h.recorded callbackHandle _ hcallback
  rw [Option.some.inj (hrow.symm.trans hrow')]

theorem cancelCallback_of_find {row : ParticipantCallback}
    (h : s.schedule.find participantIndex = some row) :
    s.cancelCallback participantIndex =
      ⟨s.schedule.erase participantIndex, s.outstanding.erase row.callbackHandle⟩ := by
  unfold cancelCallback
  rw [h]
  rfl

theorem find_cancelCallback (participantIndex : Nat) :
    (s.cancelCallback participantIndex).schedule.find participantIndex = none := by
  cases hrow : s.schedule.find participantIndex with
  | none =>
    unfold cancelCallback
    rw [hrow]
    exact hrow
  | some row => rw [cancelCallback_of_find hrow, KeyMap.find_erase, if_pos rfl]

theorem outstanding_cancelCallback (h : s.outstanding.find callbackHandle = none)
    (participantIndex : Nat) :
    (s.cancelCallback participantIndex).outstanding.find callbackHandle = none := by
  cases hrow : s.schedule.find participantIndex with
  | none =>
    unfold cancelCallback
    rw [hrow]
    exact h
  | some row =>
    rw [cancelCallback_of_find hrow, KeyMap.find_erase, h]
    exact ite_self none

theorem Tracked.cancelCallback (h : s.Tracked) (participantIndex : Nat) :
    (s.cancelCallback participantIndex).Tracked := by
  cases hrow : s.schedule.find participantIndex with
  | none =>
    unfold PolicyCallbackScheduler.cancelCallback
    rw [hrow]
    exact h
  | some row =>
    rw [cancelCallback_of_find hrow]
    refine ⟨?_, ?_⟩
    · intro participantIndex' row' hrow'
      rw [KeyMap.find_erase] at hrow'
      split_ifs at hrow' with hne
      rw [KeyMap.find_erase, if_neg, h.outstanding participantIndex' row' hrow']
      -- the handle of another participant is another one
      intro hhandle
      have hsame := h.outstanding participantIndex row hrow
      rw [← hhandle, h.outstanding participantIndex' row' hrow', Option.some.injEq,
        DeferredCallback.mk.injEq] at hsame
      exact hne hsame.1
    · intro callbackHandle callback hcallback
      rw [KeyMap.find_erase] at hcallback
      split_ifs at hcallback with hne
      obtain ⟨row', hrow', hhandle⟩ := h.recorded callbackHandle callback hcallback
      refine ⟨row', ?_, hhandle⟩
      rw [KeyMap.find_erase, if_neg, hrow']
      intro hsame
      rw [hsame, hrow] at hrow'
      exact hne (hhandle.symm.trans (congrArg _ (Option.some.inj hrow').symm))

theorem Tracked.scheduleCallback (h : s.Tracked) (hfresh : s.outstanding.find callbackHandle = none)
    (hfree : s.schedule.find participantIndex = none) (currentTime pollTime : Nat) :
    (s.scheduleCallback callbackHandle participantIndex currentTime pollTime).Tracked := by
  unfold PolicyCallbackScheduler.scheduleCallback createPolicyInitiatedDeferredCallback
  refine ⟨?_, ?_⟩
  · intro participantIndex' row hrow
    rw [KeyMap.find_assign] at hrow
    rw [KeyMap.find_assign]
    split_ifs at hrow with hsame
    · cases hrow
      rw [if_pos rfl, hsame]
    · have houtstanding := h.outstanding participantIndex' row hrow
      rw [if_neg, houtstanding]
      intro hhandle
      rw [hhandle, hfresh] at houtstanding
      cases houtstanding
  · intro callbackHandle' callback hcallback
    rw [KeyMap.find_assign] at hcallback
    split_ifs at hcallback with hsame
    · cases hcallback
      exact ⟨_, by rw [KeyMap.find_assign, if_pos rfl], hsame.symm⟩
    · obtain ⟨row, hrow, hhandle⟩ := h.recorded callbackHandle' callback hcallback
      refine ⟨row, ?_, hhandle⟩
      rw [KeyMap.find_assign, if_neg, hrow]
      intro hparticipant
      rw [hparticipant, hfree] at hrow
      cases hrow

theorem Tracked.suspend (h : s.Tracked) (hfresh : s.outstanding.find callbackHandle = none)
    (participantIndex fromTime suspendTime : Nat) :
    (s.suspend callbackHandle participantIndex fromTime suspendTime).Tracked :=
  (h.cancelCallback participantIndex).scheduleCallback
    (outstanding_cancelCallback hfresh participantIndex) (find_cancelCallback participantIndex)
    fromTime suspendTime

theorem find_suspend (callbackHandle participantIndex fromTime suspendTime : Nat) :
    (s.suspend callbackHandle participantIndex fromTime suspendTime).schedule.find
        participantIndex = some ⟨suspendTime, fromTime, callbackHandle⟩ := by
  unfold suspend PolicyCallbackScheduler.scheduleCallback createPolicyInitiatedDeferredCallback
  rw [KeyMap.find_assign, if_pos rfl]

theorem Tracked.cancelAllCallbackRequests (h : s.Tracked) :
    s.cancelAllCallbackRequests.Tracked := by
  unfold PolicyCallbackScheduler.cancelAllCallbackRequests
  generalize s.schedule.entries = scheduleCopy
  induction scheduleCopy generalizing s with
  | nil => exact h
  | cons callbackRequest scheduleCopy ih => exact ih (h.cancelCallback callbackRequest.1)

/-- The callback that fires is the one of its target, which is acknowledged. -/
theorem Tracked.fires (h : s.Tracked) {callback : DeferredCallback}
    (hcallback : s.outstanding.find callbackHandle = some callback) :
    ((s.removePolicyInitiatedCallback callbackHandle).acknowledgeCallback
      callback.participantIndex).Tracked := by
  obtain ⟨row, hrow, rfl⟩ := h.recorded callbackHandle callback hcallback
  have htracked := h.cancelCallback callback.participantIndex
  rw [cancelCallback_of_find hrow] at htracked
  exact htracked

/-- A row that is in the range is found there. -/
theorem exists_of_hasCallbackWithinTimeRange
    (h : s.hasCallbackWithinTimeRange target beginTime endTime = true) :
    ∃ row, s.schedule.find target = some row ∧ beginTime ≤ row.timeStamp + row.timeDelta ∧
      row.timeStamp + row.timeDelta ≤ endTime := by
  unfold hasCallbackWithinTimeRange at h
  cases hrow : s.schedule.find target with
  | none =>
    rw [hrow] at h
    cases h
  | some row =>
    rw [hrow] at h
    simp only at h
    split_ifs at h with hrange
    exact ⟨row, rfl, hrange⟩

end PolicyCallbackScheduler

/-! ## The operations -/

namespace CallbackScheduler

variable {s : CallbackScheduler}
variable {callbackHandle : Nat}

/-- An `ensure` leaves the schedule tracked, and a callback in the range. -/
theorem ensureCallbackWithin_spec (h : s.targetScheduler.Tracked)
    (hfresh : s.targetScheduler.outstanding.find callbackHandle = none)
    (target time sampleTime : Nat) :
    (s.ensureCallbackWithin callbackHandle target time sampleTime).targetScheduler.Tracked ∧
      (s.ensureCallbackWithin callbackHandle target time sampleTime).targetScheduler.OneDue target
        time (time + sampleTime) := by
  unfold ensureCallbackWithin
  split_ifs with hcallback
  · -- the callback is replaced by a new one
    have htracked := (h.cancelCallback target).suspend
      (PolicyCallbackScheduler.outstanding_cancelCallback hfresh target) target time sampleTime
    refine ⟨htracked, htracked.oneDue (PolicyCallbackScheduler.find_suspend _ _ _ _) ?_ le_rfl⟩
    exact Nat.le_add_right _ _
  · obtain ⟨row, hrow, hbegin, hend⟩ :=
      PolicyCallbackScheduler.exists_of_hasCallbackWithinTimeRange (eq_true_of_ne_false hcallback)
    exact ⟨h, h.oneDue hrow hbegin hend⟩

theorem ensureCallbackByNextSamplePeriod_spec (h : s.targetScheduler.Tracked)
    (hfresh : s.targetScheduler.outstanding.find callbackHandle = none) (target source time : Nat) :
    ((s.ensureCallbackByNextSamplePeriod callbackHandle target source time).getD
        s).targetScheduler.Tracked ∧
      ∀ sampleTime effective, s.trt.getSampleTimeForRelationship target source = some sampleTime →
        s.effectiveSampleTime sampleTime = some effective →
        ((s.ensureCallbackByNextSamplePeriod callbackHandle target source time).getD
          s).targetScheduler.OneDue target time (time + effective) := by
  unfold ensureCallbackByNextSamplePeriod
  cases hsample : s.trt.getSampleTimeForRelationship target source with
  | none => exact ⟨h, fun sampleTime effective hsome => by cases hsome⟩
  | some sampleTime =>
    cases heffective : s.effectiveSampleTime sampleTime with
    | none =>
      refine ⟨by rwa [Option.bind_some, heffective], ?_⟩
      intro sampleTime' effective hsome hvalid
      cases hsome
      cases heffective.symm.trans hvalid
    | some effective =>
      obtain ⟨htracked, hdue⟩ := ensureCallbackWithin_spec h hfresh target time effective
      rw [Option.bind_some, heffective]
      refine ⟨htracked, ?_⟩
      intro sampleTime' effective' hsome hvalid
      cases hsome
      obtain rfl := Option.some.inj (heffective.symm.trans hvalid)
      exact hdue

theorem ensureCallbackByShortestSamplePeriod_spec (h : s.targetScheduler.Tracked)
    (hfresh : s.targetScheduler.outstanding.find callbackHandle = none) (target time : Nat) :
    ((s.ensureCallbackByShortestSamplePeriod callbackHandle target time).getD
        s).targetScheduler.Tracked ∧
      ∀ sampleTime effective, s.trt.getShortestSamplePeriodForTarget target = some sampleTime →
        s.effectiveSampleTime sampleTime = some effective →
        ((s.ensureCallbackByShortestSamplePeriod callbackHandle target time).getD
          s).targetScheduler.OneDue target time (time + effective) := by
  unfold ensureCallbackByShortestSamplePeriod
  cases hsample : s.trt.getShortestSamplePeriodForTarget target with
  | none => exact ⟨h, fun sampleTime effective hsome => by cases hsome⟩
  | some sampleTime =>
    rw [Option.map_some, Option.getD_some]
    cases heffective : s.effectiveSampleTime sampleTime with
    | none =>
      refine ⟨h, ?_⟩
      intro sampleTime' effective hsome hvalid
      cases hsome
      cases heffective.symm.trans hvalid
    | some effective =>
      obtain ⟨htracked, hdue⟩ := ensureCallbackWithin_spec h hfresh target time effective
      refine ⟨htracked, ?_⟩
      intro sampleTime' effective' hsome hvalid
      cases hsome
      obtain rfl := Option.some.inj (heffective.symm.trans hvalid)
      exact hdue

/-- A participant that is removed is as free for requests as it was. -/
theorem startsClean_removeParticipantFromSchedule_iff (h : s.targetScheduler.Tracked)
    (participant time : Nat) :
    (s.removeParticipantFromSchedule participant).StartsClean participant time ↔
      s.FreeForRequests participant time := by
  constructor
  · exact fun hclean => hclean.requests
  · intro hfree
    refine ⟨?_, ?_, hfree⟩
    · rintro callbackHandle callback hcallback rfl
      obtain ⟨row, hrow, -⟩ :=
        (h.cancelCallback callback.participantIndex).recorded callbackHandle callback hcallback
      rw [PolicyCallbackScheduler.find_cancelCallback] at hrow
      cases hrow
    · have hfind : (s.sourceAvailability.remove participant).find participant = none := by
        unfold SourceAvailability.remove
        split_ifs with hsome
        · rw [KeyMap.find_erase, if_pos rfl]
        · exact Option.not_isSome_iff_eq_none.1 hsome
      show (!(s.sourceAvailability.remove participant).isBusy participant time) = true
      rw [SourceAvailability.isBusy, hfind]
      rfl

theorem isFreeForRequests_iff (target source time : Nat) :
    s.isFreeForRequests target source time = true ↔
      ∀ timeBusyUntil, s.requestSchedule.find ⟨target, source⟩ = some timeBusyUntil →
        timeBusyUntil ≤ time := by
  unfold isFreeForRequests
  cases s.requestSchedule.find ⟨target, source⟩ with
  | none => simp
  | some timeBusyUntil => simp

theorem removesUnbusy_iff {a : ScheduleAction} {participant : Nat}
    (hop : a.op = .removeParticipantFromSchedule participant) :
    s.RemovesUnbusy a ↔ s.FreeForRequests participant a.time := by
  constructor
  · intro hunbusy other
    refine ⟨(isFreeForRequests_iff _ _ _).2 fun timeBusyUntil hfind => ?_,
      (isFreeForRequests_iff _ _ _).2 fun timeBusyUntil hfind => ?_⟩
    · exact hunbusy participant hop _ timeBusyUntil hfind (Or.inl rfl)
    · exact hunbusy participant hop _ timeBusyUntil hfind (Or.inr rfl)
  · rintro hfree participant' hop' ⟨target, source⟩ timeBusyUntil hfind hparticipant
    obtain rfl : participant = participant' := by
      rw [hop] at hop'
      exact ScheduleOp.removeParticipantFromSchedule.inj hop'
    rcases hparticipant with rfl | rfl
    · exact (isFreeForRequests_iff _ _ _).1 (hfree source).1 timeBusyUntil hfind
    · exact (isFreeForRequests_iff _ _ _).1 (hfree target).2 timeBusyUntil hfind

end CallbackScheduler

/-! ## Every run -/

namespace Scheduling

/-- What an operation does. -/
theorem next_spec {s s' : CallbackScheduler} {a : ScheduleAction} (h : s.targetScheduler.Tracked)
    (hfresh : s.targetScheduler.outstanding.find a.callbackHandle = none)
    (hnext : next s a = some s') :
    s'.targetScheduler.Tracked ∧ (s.Settled a s' ↔ s.RemovesUnbusy a) := by
  obtain ⟨time, callbackHandle, op⟩ := a
  cases op with
  | ensureCallbackByNextSamplePeriod target source =>
    cases hnext
    obtain ⟨htracked, hdue⟩ :=
      CallbackScheduler.ensureCallbackByNextSamplePeriod_spec h hfresh target source time
    exact ⟨htracked, iff_of_true hdue nofun⟩
  | ensureCallbackByShortestSamplePeriod target =>
    cases hnext
    obtain ⟨htracked, hdue⟩ :=
      CallbackScheduler.ensureCallbackByShortestSamplePeriod_spec h hfresh target time
    exact ⟨htracked, iff_of_true hdue nofun⟩
  | markBusyForRequests target source =>
    cases hnext
    refine ⟨?_, iff_of_true trivial nofun⟩
    cases hmark : s.markBusyForRequests target source time with
    | none => exact h
    | some marked =>
      obtain ⟨sampleTime, -, hsome⟩ := Option.bind_eq_some_iff.1 hmark
      obtain ⟨period, -, rfl⟩ := Option.map_eq_some_iff.1 hsome
      exact h
  | markSourceAsBusy source monitoredTargets =>
    cases hnext
    refine ⟨?_, iff_of_true trivial nofun⟩
    cases hmark : s.markSourceAsBusy source monitoredTargets time with
    | none => exact h
    | some marked =>
      obtain ⟨sampleTime, -, hsome⟩ := Option.bind_eq_some_iff.1 hmark
      obtain ⟨period, -, rfl⟩ := Option.map_eq_some_iff.1 hsome
      exact h
  | callbackFires fired =>
    refine ⟨?_, iff_of_true trivial nofun⟩
    unfold next at hnext
    simp only at hnext
    cases hcallback : s.targetScheduler.outstanding.find fired with
    | none =>
      rw [hcallback] at hnext
      cases hnext
    | some callback =>
      rw [hcallback] at hnext
      simp only at hnext
      split_ifs at hnext with hdue
      cases hnext
      exact h.fires hcallback
  | removeParticipantFromSchedule participant =>
    cases hnext
    refine ⟨h.cancelCallback participant, ?_⟩
    rw [CallbackScheduler.removesUnbusy_iff rfl]
    exact CallbackScheduler.startsClean_removeParticipantFromSchedule_iff h participant time
  | cancelAllCallbackRequests =>
    cases hnext
    exact ⟨h.cancelAllCallbackRequests, iff_of_true trivial nofun⟩
  | setTrt trt =>
    cases hnext
    exact ⟨h, iff_of_true trivial nofun⟩

theorem step_spec {s s' : Scheduling} {a : ScheduleAction}
    (h : s.scheduler.targetScheduler.Tracked) (hstep : step s a = some s') :
    s'.scheduler.targetScheduler.Tracked ∧
      (s.scheduler.Settled a s'.scheduler ↔ s.scheduler.RemovesUnbusy a) := by
  unfold step at hstep
  split_ifs at hstep with hcan
  obtain ⟨scheduler, hnext, rfl⟩ := Option.map_eq_some_iff.1 hstep
  exact next_spec h hcan.2 hnext

end Scheduling

/-- **In every run** the outstanding callbacks are those in the schedule, and an operation does what
is expected of it exactly when no relationship of a participant that it removes is busy. -/
theorem callbacks_run {trt : ThermalRelationshipTable} {minSampleTime : Option Nat}
    {as : List ScheduleAction} {s : Scheduling}
    (hrun : run Scheduling.step (Scheduling.start trt minSampleTime) as = some s) :
    s.scheduler.targetScheduler.Tracked ∧ ∀ a s', Scheduling.step s a = some s' →
      (s.scheduler.Settled a s'.scheduler ↔ s.scheduler.RemovesUnbusy a) := by
  have htracked : s.scheduler.targetScheduler.Tracked :=
    @run_invariant _ _ Scheduling.step (fun s => s.scheduler.targetScheduler.Tracked)
      (fun _ _ _ hstep h => (Scheduling.step_spec h hstep).1) _ _ _ hrun
      PolicyCallbackScheduler.tracked_empty
  exact ⟨htracked, fun a s' hstep => (Scheduling.step_spec htracked hstep).2⟩

/-- Both callbacks of the target are due in time, and the relationship is free again after 10 s. -/
theorem callbacks_run_freeAgain :
    ∃ s s', run Scheduling.step (Scheduling.start tenSeconds (some 1000000))
        [⟨0, 1, .ensureCallbackByNextSamplePeriod 0 1⟩, ⟨0, 2, .markBusyForRequests 0 1⟩,
          ⟨10000000, 2, .callbackFires 1⟩, ⟨10000000, 3, .ensureCallbackByShortestSamplePeriod 0⟩] =
        some s ∧
      s.scheduler.targetScheduler.Tracked ∧
      Scheduling.step s ⟨10000000, 4, .removeParticipantFromSchedule 0⟩ = some s' ∧
      s'.scheduler.StartsClean 0 10000000 := by
  obtain ⟨s, s', hrun, hstep, hentries⟩ : ∃ s s',
      run Scheduling.step (Scheduling.start tenSeconds (some 1000000))
        [⟨0, 1, .ensureCallbackByNextSamplePeriod 0 1⟩, ⟨0, 2, .markBusyForRequests 0 1⟩,
          ⟨10000000, 2, .callbackFires 1⟩, ⟨10000000, 3, .ensureCallbackByShortestSamplePeriod 0⟩] =
        some s ∧
      Scheduling.step s ⟨10000000, 4, .removeParticipantFromSchedule 0⟩ = some s' ∧
      s.scheduler.requestSchedule.entries = [(⟨0, 1⟩, 10000000)] := ⟨_, _, rfl, rfl, rfl⟩
  obtain ⟨htracked, hsettled⟩ := callbacks_run hrun
  refine ⟨s, s', hrun, htracked, hstep, (hsettled _ s' hstep).2 ?_⟩
  intro participant _ relationship timeBusyUntil hfind _
  have hmem := (KeyMap.mem_entries_iff _ _ _).2 hfind
  rw [hentries, List.mem_singleton, Prod.mk.injEq] at hmem
  exact hmem.2.le

end Passive

import Dptf.Uf.Upsm

/-!
# When the correlation timer runs

Whether the user's interaction and the sensor agree is evaluated on a report, on an
interaction and when a filtered reading is reported; a user who was not there while
interacting is waited for with a timer.

* `Correlated` — **the invariant**: so it does while the user does not interact, and
  the correlation is what the sensor and the interaction say.
* `correlation_consistent` — of every state that can be reached.
-/

open Lib

namespace Uf

namespace Upsm

variable {s : Upsm}

/-- The timer runs only while the sensor sees nobody and the correlation is negative. -/
def TimerFits (s : Upsm) : Prop :=
  s.correlationResetTimerActive = true →
    s.sensor.curSensorState = upSensorStateNotPresent ∧ s.correlationState = .negative

/-- How the timer and the correlation go with the sensor and the interaction. -/
structure Correlated (s : Upsm) : Prop where
  timer : s.correlationResetTimerActive = true →
    s.sensor.curSensorState = upSensorStateNotPresent ∧ s.interacting = false ∧
      s.correlationState = .negative
  engaged : s.sensor.curSensorState = upSensorStateEngaged → s.correlationState = .positive
  interacting : s.interacting = true → s.sensor.curSensorState ≠ upSensorStateEngaged →
    s.correlationState = .negative

theorem Correlated.timerFits (h : Correlated s) : TimerFits s := by
  intro hactive
  obtain ⟨hcur, _, hneg⟩ := h.timer hactive
  exact ⟨hcur, hneg⟩

/-- The readings and the interaction are all that matters. -/
theorem Correlated.congr {s t : Upsm} (h : Correlated s)
    (hcur : t.sensor.curSensorState = s.sensor.curSensorState)
    (hinteracting : t.interacting = s.interacting)
    (hcorrelation : t.correlationState = s.correlationState)
    (hactive : t.correlationResetTimerActive = s.correlationResetTimerActive) : Correlated t := by
  constructor
  · rw [hcur, hinteracting, hcorrelation, hactive]
    exact h.timer
  · rw [hcur, hcorrelation]
    exact h.engaged
  · rw [hcur, hinteracting, hcorrelation]
    exact h.interacting

/-! ## What the parts of the evaluation do -/

@[simp] theorem signal_interacting (s : Upsm) (e : Signal) :
    (s.signal e).interacting = s.interacting := rfl

@[simp] theorem sendPresenceEvent_interacting (s : Upsm) (state : UInt32) :
    (s.sendPresenceEvent state).interacting = s.interacting := by
  unfold sendPresenceEvent
  split
  · rfl
  · split <;> rfl

@[simp] theorem sendPresenceEvent_correlationState (s : Upsm) (state : UInt32) :
    (s.sendPresenceEvent state).correlationState = s.correlationState := by
  unfold sendPresenceEvent
  split
  · rfl
  · split <;> rfl

@[simp] theorem sendPresenceEvent_timerActive (s : Upsm) (state : UInt32) :
    (s.sendPresenceEvent state).correlationResetTimerActive = s.correlationResetTimerActive := by
  unfold sendPresenceEvent
  split
  · rfl
  · split <;> rfl

@[simp] theorem stopIfActive_correlationState (s : Upsm) :
    s.stopIfActive.correlationState = s.correlationState := by
  unfold stopIfActive
  split <;> rfl

/-- After the stop the timer does not run. -/
@[simp] theorem stopIfActive_timerActive (s : Upsm) :
    s.stopIfActive.correlationResetTimerActive = false := by
  unfold stopIfActive
  split
  · rfl
  · rename_i hactive
    simpa using hactive

@[simp] theorem evaluateInteracting_timerActive (s : Upsm) :
    s.evaluateInteracting.correlationResetTimerActive = false := by
  unfold evaluateInteracting
  simp only
  split
  · rw [sendPresenceEvent_timerActive, stopIfActive_timerActive]
  · rw [stopIfActive_timerActive]

@[simp] theorem updateResetTimer_correlationState (s : Upsm) :
    s.updateResetTimer.correlationState = s.correlationState := by
  unfold updateResetTimer
  split
  · split <;> rfl
  · split
    · rw [stopIfActive_correlationState]
    · rfl

@[simp] theorem evaluateIdle_correlationState (s : Upsm) :
    s.evaluateIdle.correlationState = s.correlationState := by
  unfold evaluateIdle
  simp only
  split
  · rw [sendPresenceEvent_correlationState, updateResetTimer_correlationState]
  · rw [updateResetTimer_correlationState]

/-- The timer is started for a user it fits, and is left alone. -/
theorem TimerFits.evaluateIdle (h : TimerFits s) : TimerFits s.evaluateIdle := by
  have hupdate : TimerFits s.updateResetTimer := by
    unfold TimerFits
    rw [updateResetTimer_sensor, updateResetTimer_correlationState]
    unfold updateResetTimer
    split
    · rename_i hfits
      exact fun _ => ⟨hfits.2, hfits.1⟩
    · split
      · intro hactive
        rw [stopIfActive_timerActive] at hactive
        cases hactive
      · exact h
  unfold Upsm.evaluateIdle
  simp only
  split
  · unfold TimerFits
    rw [sendPresenceEvent_timerActive, sendPresenceEvent_sensor, sendPresenceEvent_correlationState]
    exact hupdate
  · exact hupdate

/-! ## The evaluation -/

/-- The end of the evaluation: the interaction is remembered, and a change is signalled. -/
def conclude (s : Upsm) (interacting : Bool) (state : UpCorrelationState) : Upsm :=
  let s := { s with interacting := interacting }
  if state ≠ s.correlationState then
    { s with correlationState := state }.signal (.correlation state)
  else s

theorem evaluateCorrelation_eq (s : Upsm) (interacting : Bool) :
    s.evaluateCorrelation interacting = if s.sensor.curSensorState = upSensorStateEngaged then
        s.stopIfActive.conclude interacting .positive
      else if interacting then s.evaluateInteracting.conclude interacting .negative
      else s.evaluateIdle.conclude interacting s.correlationState := by
  unfold evaluateCorrelation
  by_cases hengaged : s.sensor.curSensorState = upSensorStateEngaged
  · simp only [if_pos hengaged]
    rfl
  · simp only [if_neg hengaged]
    cases interacting with
    | true => rfl
    | false => rfl

theorem conclude_correlated {interacting : Bool} {state : UpCorrelationState}
    (htimer : s.correlationResetTimerActive = true →
      s.sensor.curSensorState = upSensorStateNotPresent ∧ interacting = false ∧ state = .negative)
    (hengaged : s.sensor.curSensorState = upSensorStateEngaged → state = .positive)
    (hinteracting : interacting = true → s.sensor.curSensorState ≠ upSensorStateEngaged →
      state = .negative) : Correlated (s.conclude interacting state) := by
  unfold conclude
  simp only
  split
  · exact ⟨htimer, hengaged, hinteracting⟩
  · rename_i hsame
    obtain rfl := Decidable.not_not.mp hsame
    exact ⟨htimer, hengaged, hinteracting⟩

/-- **The evaluation** makes of a timer that fits a state that is consistent. -/
theorem evaluateCorrelation_correlated (h : TimerFits s) (interacting : Bool) :
    Correlated (s.evaluateCorrelation interacting) := by
  rw [evaluateCorrelation_eq]
  split
  · rename_i hengaged
    refine conclude_correlated ?_ (fun _ => rfl) ?_
    · intro hactive
      rw [stopIfActive_timerActive] at hactive
      cases hactive
    · intro _ hne
      rw [stopIfActive_sensor] at hne
      exact absurd hengaged hne
  rename_i hengaged
  split
  · refine conclude_correlated ?_ ?_ fun _ _ => rfl
    · intro hactive
      rw [evaluateInteracting_timerActive] at hactive
      cases hactive
    · intro heq
      rw [evaluateInteracting_sensor] at heq
      exact absurd heq hengaged
  · rename_i hidle
    refine conclude_correlated ?_ ?_ fun htrue => absurd htrue hidle
    · intro hactive
      obtain ⟨hcur, hneg⟩ := h.evaluateIdle hactive
      rw [evaluateIdle_correlationState] at hneg
      exact ⟨hcur, by simpa using hidle, hneg⟩
    · intro heq
      rw [evaluateIdle_sensor] at heq
      exact absurd heq hengaged

/-- **What is reported is evaluated**, whatever the sensor says now. -/
theorem sendEvents_correlated
    (h : s.correlationResetTimerActive = true → s.correlationState = .negative) :
    Correlated s.sendEvents := by
  unfold sendEvents
  simp only [sendPresenceEvent_sensor, sendPresenceEvent_timerActive]
  refine evaluateCorrelation_correlated ?_ _
  split
  · intro hactive
    cases hactive
  · rename_i hrun
    intro hactive
    rw [sendPresenceEvent_timerActive] at hactive
    rw [sendPresenceEvent_sensor, sendPresenceEvent_correlationState]
    exact ⟨by_contra fun hne => hrun ⟨hactive, hne⟩, h hactive⟩

/-! ## Readings -/

theorem reportSensorEvent_correlated
    (h : s.correlationResetTimerActive = true → s.correlationState = .negative) (data : UInt32) :
    Correlated (s.reportSensorEvent data) := by
  unfold reportSensorEvent
  simp only
  split
  · exact sendEvents_correlated h
  · exact sendEvents_correlated h

theorem Correlated.startEventFiltering (h : Correlated s) (state : UInt32) :
    Correlated (s.startEventFiltering state) := by
  unfold Upsm.startEventFiltering
  split
  · have hsame : Correlated { s with
        sensor := { s.sensor with eventFilteringTimerActive := false } } :=
      h.congr rfl rfl rfl rfl
    exact reportSensorEvent_correlated (fun hactive => (hsame.timerFits hactive).2) state
  · exact h.congr rfl rfl rfl rfl

theorem Correlated.filterSensorEvent (h : Correlated s) (data : UInt32) :
    Correlated (s.filterSensorEvent data) := by
  unfold Upsm.filterSensorEvent
  split
  · have henable : Correlated { s with
        sensor := { s.sensor with filteredSensorState := data } }.enableEventFiltering := by
      unfold enableEventFiltering
      split
      · exact h.congr rfl rfl rfl rfl
      · exact h.congr rfl rfl rfl rfl
    simp only
    split
    · exact henable.startEventFiltering _
    · exact henable
  · split
    · exact h.congr rfl rfl rfl rfl
    · exact h.congr rfl rfl rfl rfl

theorem Correlated.handleSensorEvent (h : Correlated s) (data : UInt32) :
    Correlated (s.handleSensorEvent data) := by
  have hreport := reportSensorEvent_correlated (fun hactive => (h.timerFits hactive).2) data
  unfold Upsm.handleSensorEvent
  split
  · split
    · exact hreport
    split
    · exact h.congr rfl rfl rfl rfl
    split
    · exact h.filterSensorEvent data
    split
    · exact h.filterSensorEvent data
    · exact hreport
  · simp only
    split
    · exact h.congr rfl rfl rfl rfl
    · exact h.congr rfl rfl rfl rfl

theorem Correlated.stabilityWindowCallback (h : Correlated s) :
    Correlated s.stabilityWindowCallback := by
  have hsend : Correlated { s with
      sensor :=
        { s.sensor with
          armed := false, curSensorState := s.sensor.filteredSensorState } }.sendEvents :=
    sendEvents_correlated fun hactive => (h.timerFits hactive).2
  unfold Upsm.stabilityWindowCallback
  simp only
  generalize { s with
    sensor :=
      { s.sensor with
        armed := false, curSensorState := s.sensor.filteredSensorState } }.sendEvents = t at hsend ⊢
  split
  · have hnext : Correlated { t with
        sensor :=
          { t.sensor with
            filteredSensorState := t.sensor.queuedSensorState,
            queuedSensorState := upSensorStateInvalid } } := hsend.congr rfl rfl rfl rfl
    exact hnext.startEventFiltering _
  · exact hsend.congr rfl rfl rfl rfl

/-- The timer that fires makes the correlation positive.  The user it runs for is neither
engaged nor interacting. -/
theorem Correlated.correlationResetCallback (h : Correlated s)
    (hactive : s.correlationResetTimerActive = true) : Correlated s.correlationResetCallback := by
  obtain ⟨_, hidle, _⟩ := h.timer hactive
  unfold Upsm.correlationResetCallback
  constructor
  · intro hrun
    rw [sendPresenceEvent_timerActive] at hrun
    cases hrun
  · intro _
    rw [sendPresenceEvent_correlationState]
    rfl
  · intro hinteracting
    rw [sendPresenceEvent_interacting, signal_interacting, hidle] at hinteracting
    cases hinteracting

/-! ## Runs -/

theorem correlated_start (c : Settings) : Correlated (start c) := by
  refine sendEvents_correlated ?_
  intro hactive
  cases hactive

/-- Every step keeps the state consistent. -/
theorem step_correlated {s s' : Upsm} {a : Action} (hstep : step s a = some s')
    (h : Correlated s) : Correlated s' := by
  cases a with
  | sensor data =>
    cases hstep
    exact h.handleSensorEvent data
  | interaction data =>
    cases hstep
    exact evaluateCorrelation_correlated h.timerFits _
  | stabilityWindow =>
    simp only [step] at hstep
    obtain ⟨-, rfl⟩ := Option.ite_some_none_eq_some.1 hstep
    exact h.stabilityWindowCallback
  | correlationReset =>
    simp only [step] at hstep
    obtain ⟨hactive, rfl⟩ := Option.ite_some_none_eq_some.1 hstep
    exact h.correlationResetCallback hactive

/-- **The correlation timer runs only when it should**, and the correlation is what the
sensor and the interaction say, in every state that can be reached. -/
theorem correlation_consistent {c : Settings} {as : List Action} {s : Upsm}
    (hrun : run step (start c) as = some s) :
    (s.correlationResetTimerActive = true →
      s.sensor.curSensorState = upSensorStateNotPresent ∧ s.interacting = false ∧
        s.correlationState = .negative) ∧
    (s.sensor.curSensorState = upSensorStateEngaged → s.correlationState = .positive) ∧
    (s.interacting = true → s.sensor.curSensorState ≠ upSensorStateEngaged →
      s.correlationState = .negative) := by
  have h : Correlated s := run_invariant (fun _ _ _ => step_correlated) hrun (correlated_start c)
  exact ⟨h.timer, h.engaged, h.interacting⟩

/-- A user who interacted while nobody was seen, and stopped. -/
def interactedUnseen : List Action := [.sensor 0, .interaction 1, .interaction 0]

theorem correlation_consistent_interactedUnseen :
    let s := (run step (start ⟨true, true, 5000, 5000, 5000⟩) interactedUnseen).getD
      (start ⟨true, true, 5000, 5000, 5000⟩)
    s.correlationResetTimerActive = true ∧ s.sensor.curSensorState = upSensorStateNotPresent ∧
      s.interacting = false ∧ s.correlationState = .negative := by
  have hrun : run step (start ⟨true, true, 5000, 5000, 5000⟩) interactedUnseen = some
      ((run step (start ⟨true, true, 5000, 5000, 5000⟩) interactedUnseen).getD
        (start ⟨true, true, 5000, 5000, 5000⟩)) := by decide +kernel
  have hactive : ((run step (start ⟨true, true, 5000, 5000, 5000⟩) interactedUnseen).getD
      (start ⟨true, true, 5000, 5000, 5000⟩)).correlationResetTimerActive = true := by
    decide +kernel
  exact ⟨hactive, (correlation_consistent hrun).1 hactive⟩

end Upsm

end Uf

import Mathlib.Data.List.Perm.Basic
import Dptf.Uf.Correlation

/-!
# Callbacks that wait for the lock

A timer of the presence state machine dispatches its callback, and the callback then
waits for `smLock` like every event.  The timer may be killed meanwhile: the kill does
not wait, and the callback does not look whether its timer is there still.

* `Threaded.atomic`, `threadedStep_follows` — as long as that is so, the machine is the
  one in which a timer fires and its callback runs at once, with a callback that waits
  taken for a timer that is armed; `run_atomic` says so of runs.
* `CancelledInert`, `StaysValid`, `cancelled_inert_iff` — what is to hold of a callback
  whose timer was killed, and the runs of which it does.
-/

open Lib

namespace Uf

namespace Upsm

/-! ## Dispatched callbacks -/

/-- A timer of the machine. -/
inductive Timer
  | stabilityWindow
  | correlationReset
deriving DecidableEq, Repr

/-- The timer is there; its kill takes it away. -/
def Timer.present (s : Upsm) : Timer → Bool
  | .stabilityWindow => s.sensor.eventFilteringEnabled
  | .correlationReset => s.correlationResetEnabled

/-- A callback that was dispatched and waits for the lock. -/
structure Callback where
  timer : Timer
  /-- Its timer was killed since. -/
  killed : Bool
deriving DecidableEq, Repr

/-- What a callback is once the lock is free again. -/
def Callback.after (s : Upsm) (c : Callback) : Callback :=
  if c.timer.present s then c else { c with killed := true }

/-- It is one of a timer that is there. -/
def Callback.isLive (t : Timer) (c : Callback) : Bool := decide (c.timer = t) && !c.killed

/-- The machine with the callbacks that wait. -/
structure Threaded where
  upsm : Upsm
  /-- The correlation timer is going to fire. -/
  resetArmed : Bool
  waiting : List Callback
deriving DecidableEq, Repr

/-- The state comes out of a section under the lock.  No such section kills a timer and makes
it again. -/
def Threaded.release (s : Threaded) (u : Upsm) : Threaded where
  upsm := u
  resetArmed :=
    u.correlationResetEnabled &&
      (s.resetArmed || u.correlationResetTimerActive && !s.upsm.correlationResetTimerActive)
  waiting := s.waiting.map (Callback.after u)

/-- The timer is going to fire, or not. -/
def withArmed (s : Upsm) (armed : Bool) : Upsm :=
  { s with sensor := { s.sensor with armed := armed } }

/-- `EsifUpsm_StabilityWindowCallback` up to the events. -/
def windowElapsed (s : Upsm) : Upsm :=
  { s with sensor := { s.sensor with curSensorState := s.sensor.filteredSensorState } }.sendEvents

/-- The rest of it: what is queued waits next. -/
def takeQueued (s : Upsm) : Upsm :=
  if s.sensor.queuedSensorState ≠ upSensorStateInvalid then
    { s with
      sensor :=
        { s.sensor with
          filteredSensorState := s.sensor.queuedSensorState,
          queuedSensorState := upSensorStateInvalid } }.startEventFiltering
      s.sensor.queuedSensorState
  else
    { s with
      sensor :=
        { s.sensor with
          filteredSensorState := upSensorStateInvalid, eventFilteringTimerActive := false } }

namespace Threaded

/-- A callback under the lock.  The first one evaluates the correlation twice, and each time
the correlation timer may be killed or made. -/
def locked (s : Threaded) : Timer → Threaded
  | .stabilityWindow =>
    let t := s.release s.upsm.windowElapsed
    t.release t.upsm.takeQueued
  | .correlationReset => s.release s.upsm.correlationResetCallback

/-- How many callbacks of a timer wait whose timer is there. -/
def live (s : Threaded) (t : Timer) : Nat := s.waiting.countP (Callback.isLive t)

end Threaded

/-- What can happen next. -/
inductive ThreadedAction
  | sensor (data : UInt32)
  | interaction (data : UInt32)
  /-- A timer fires, and its callback waits. -/
  | dispatch (t : Timer)
  /-- A callback gets the lock, by its place among those that wait. -/
  | callback (i : Nat)
deriving DecidableEq, Repr

/-- A step. -/
def threadedStep (s : Threaded) : ThreadedAction → Option Threaded
  | .sensor data => some (s.release (s.upsm.handleSensorEvent data))
  | .interaction data => some (s.release (s.upsm.evaluateCorrelation (data ≠ 0)))
  | .dispatch .stabilityWindow =>
    if s.upsm.sensor.armed then
      some
        { s with
          upsm := s.upsm.withArmed false, waiting := s.waiting ++ [⟨.stabilityWindow, false⟩] }
    else none
  | .dispatch .correlationReset =>
    if s.resetArmed then
      some
        { s with resetArmed := false, waiting := s.waiting ++ [⟨.correlationReset, false⟩] }
    else none
  | .callback i =>
    s.waiting[i]?.map fun c => { s with waiting := s.waiting.eraseIdx i }.locked c.timer

/-- The state once the machine is enabled. -/
def threadedStart (c : Settings) : Threaded := ⟨start c, false, []⟩

/-! ## What is to hold -/

/-- No callback gets the lock after its timer was killed. -/
def Timely (s : Threaded) (a : ThreadedAction) : Prop :=
  ∀ i c, a = .callback i → s.waiting[i]? = some c → c.killed = false

/-- A callback whose timer was killed changes nothing and signals nothing. -/
def CancelledInert (s : Threaded) (a : ThreadedAction) : Prop :=
  ∀ i c, a = .callback i → s.waiting[i]? = some c → c.killed = true →
    ∀ s', threadedStep s a = some s' →
      s'.upsm.sensor.curSensorState = s.upsm.sensor.curSensorState ∧
      s'.upsm.correlationState = s.upsm.correlationState ∧
      s'.upsm.sensor.filteredSensorState = s.upsm.sensor.filteredSensorState ∧
      s'.upsm.sensor.queuedSensorState = s.upsm.sensor.queuedSensorState ∧
      s'.upsm.events = s.upsm.events

/-- Only a reading that is invalid itself makes the state invalid. -/
def StaysValid (s : Threaded) (a : ThreadedAction) : Prop :=
  (∀ data, a = .sensor data → data ≠ upSensorStateInvalid) →
    s.upsm.sensor.curSensorState ≠ upSensorStateInvalid →
    ∀ s', threadedStep s a = some s' → s'.upsm.sensor.curSensorState ≠ upSensorStateInvalid

/-! ## The armed flag -/

theorem withArmed_self (s : Upsm) : s.withArmed s.sensor.armed = s := rfl

@[simp] theorem withArmed_withArmed (s : Upsm) (a b : Bool) :
    (s.withArmed a).withArmed b = s.withArmed b := rfl

@[simp] theorem withArmed_interacting (s : Upsm) (b : Bool) :
    (s.withArmed b).interacting = s.interacting := rfl

@[simp] theorem withArmed_curSensorState (s : Upsm) (b : Bool) :
    (s.withArmed b).sensor.curSensorState = s.sensor.curSensorState := rfl

@[simp] theorem withArmed_correlationState (s : Upsm) (b : Bool) :
    (s.withArmed b).correlationState = s.correlationState := rfl

@[simp] theorem withArmed_timerActive (s : Upsm) (b : Bool) :
    (s.withArmed b).correlationResetTimerActive = s.correlationResetTimerActive := rfl

theorem sendPresenceEvent_withArmed (s : Upsm) (b : Bool) (state : UInt32) :
    (s.withArmed b).sendPresenceEvent state = (s.sendPresenceEvent state).withArmed b := by
  unfold sendPresenceEvent withArmed
  simp only
  split
  · rfl
  · split <;> rfl

theorem stopIfActive_withArmed (s : Upsm) (b : Bool) :
    (s.withArmed b).stopIfActive = s.stopIfActive.withArmed b := by
  unfold stopIfActive withArmed
  simp only
  split <;> rfl

theorem evaluateInteracting_withArmed (s : Upsm) (b : Bool) :
    (s.withArmed b).evaluateInteracting = s.evaluateInteracting.withArmed b := by
  unfold evaluateInteracting
  simp only [stopIfActive_withArmed, withArmed_interacting, withArmed_curSensorState]
  split
  · exact sendPresenceEvent_withArmed { s.stopIfActive with interacting := true } b _
  · rfl

theorem updateResetTimer_withArmed (s : Upsm) (b : Bool) :
    (s.withArmed b).updateResetTimer = s.updateResetTimer.withArmed b := by
  unfold updateResetTimer
  rw [stopIfActive_withArmed]
  unfold withArmed
  simp only
  split
  · split <;> rfl
  · split <;> rfl

theorem evaluateIdle_withArmed (s : Upsm) (b : Bool) :
    (s.withArmed b).evaluateIdle = s.evaluateIdle.withArmed b := by
  unfold evaluateIdle
  simp only [updateResetTimer_withArmed, withArmed_interacting, withArmed_curSensorState]
  split
  · exact sendPresenceEvent_withArmed { s.updateResetTimer with interacting := false } b _
  · rfl

theorem conclude_withArmed (s : Upsm) (b interacting : Bool) (state : UpCorrelationState) :
    (s.withArmed b).conclude interacting state = (s.conclude interacting state).withArmed b := by
  unfold conclude
  by_cases hsame : state = s.correlationState
  · simp [hsame]
    rfl
  · simp [hsame]
    rfl

/-- The evaluation does not ask whether the other timer is armed. -/
theorem evaluateCorrelation_withArmed (s : Upsm) (b interacting : Bool) :
    (s.withArmed b).evaluateCorrelation interacting =
      (s.evaluateCorrelation interacting).withArmed b := by
  rw [evaluateCorrelation_eq, evaluateCorrelation_eq, stopIfActive_withArmed,
    evaluateInteracting_withArmed, evaluateIdle_withArmed, withArmed_curSensorState,
    withArmed_correlationState]
  split
  · exact conclude_withArmed _ _ _ _
  · split
    · exact conclude_withArmed _ _ _ _
    · exact conclude_withArmed _ _ _ _

theorem correlationResetCallback_withArmed (s : Upsm) (b : Bool) :
    (s.withArmed b).correlationResetCallback = s.correlationResetCallback.withArmed b := by
  unfold correlationResetCallback
  exact sendPresenceEvent_withArmed
    ({ s with correlationResetTimerActive := false, correlationState := .positive }.signal
      (.correlation .positive)) b _

/-- The callback is what runs when the timer fires. -/
theorem stabilityWindowCallback_eq (s : Upsm) :
    s.stabilityWindowCallback = (s.withArmed false).windowElapsed.takeQueued := rfl

/-- **A reading while a callback waits**: the timer stays as it is, or it is killed. -/
theorem handleSensorEvent_waiting {s : Upsm} (harm : s.sensor.armed = false)
    (hactive : s.sensor.eventFilteringTimerActive = true)
    (henabled : s.sensor.eventFilteringEnabled = true) (data : UInt32) :
    ((s.handleSensorEvent data).sensor.eventFilteringEnabled = true ∧
        (s.handleSensorEvent data).sensor.armed = false ∧
        (s.withArmed true).handleSensorEvent data = (s.handleSensorEvent data).withArmed true) ∨
      (s.handleSensorEvent data).sensor.eventFilteringEnabled = false ∧
        (s.withArmed true).handleSensorEvent data = s.handleSensorEvent data := by
  have hreport : (s.reportSensorEvent data).sensor.eventFilteringEnabled = false ∧
      (s.withArmed true).reportSensorEvent data = s.reportSensorEvent data := by
    unfold reportSensorEvent
    simp only [withArmed, henabled, if_true]
    exact ⟨by rw [sendEvents_sensor]; rfl, rfl⟩
  have hfilter : (s.filterSensorEvent data).sensor.eventFilteringEnabled = true ∧
      (s.filterSensorEvent data).sensor.armed = false ∧
      (s.withArmed true).filterSensorEvent data = (s.filterSensorEvent data).withArmed true := by
    unfold filterSensorEvent
    simp only [withArmed, hactive, Bool.true_eq_false, if_false]
    split
    · exact ⟨henabled, harm, rfl⟩
    · exact ⟨henabled, harm, rfl⟩
  unfold handleSensorEvent
  rw [withArmed_curSensorState]
  split
  · split
    · exact Or.inr hreport
    split
    · rename_i hsame
      have hsame' : data = (s.withArmed true).sensor.filteredSensorState := hsame
      rw [if_pos hsame']
      exact Or.inl ⟨henabled, harm, rfl⟩
    rename_i hne
    have hne' : ¬data = (s.withArmed true).sensor.filteredSensorState := hne
    rw [if_neg hne']
    split
    · rename_i hneg
      have hneg' : (s.withArmed true).sensor.negativeEventFilteringEnabled = true ∧
        data < s.sensor.curSensorState := hneg
      rw [if_pos hneg']
      exact Or.inl hfilter
    rename_i hneg
    have hneg' : ¬((s.withArmed true).sensor.negativeEventFilteringEnabled = true ∧
      data < s.sensor.curSensorState) := hneg
    rw [if_neg hneg']
    split
    · rename_i hpos
      have hpos' : (s.withArmed true).sensor.positiveEventFilteringEnabled = true ∧
        s.sensor.curSensorState < data := hpos
      rw [if_pos hpos']
      exact Or.inl hfilter
    rename_i hpos
    have hpos' : ¬((s.withArmed true).sensor.positiveEventFilteringEnabled = true ∧
      s.sensor.curSensorState < data) := hpos
    rw [if_neg hpos']
    exact Or.inr hreport
  · simp only [withArmed, henabled, if_true]
    exact Or.inr ⟨rfl, rfl⟩

/-! ## The correlation timer -/

/-- What a section does to the correlation timer: nothing, or it leaves a timer that is active
exactly if it is there. -/
def ResetMoves (s t : Upsm) : Prop :=
  (t.correlationResetEnabled = s.correlationResetEnabled ∧
      t.correlationResetTimerActive = s.correlationResetTimerActive) ∨
    t.correlationResetEnabled = t.correlationResetTimerActive

theorem ResetMoves.trans {s t u : Upsm} (h : ResetMoves s t) (h' : ResetMoves t u) :
    ResetMoves s u := by
  rcases h' with ⟨henabled, hactive⟩ | hsame
  · rcases h with ⟨henabled₀, hactive₀⟩ | hsame
    · exact Or.inl ⟨henabled.trans henabled₀, hactive.trans hactive₀⟩
    · exact Or.inr (by rw [henabled, hactive, hsame])
  · exact Or.inr hsame

theorem resetMoves_sendPresenceEvent (s : Upsm) (state : UInt32) :
    ResetMoves s (s.sendPresenceEvent state) := by
  unfold sendPresenceEvent
  split
  · exact Or.inl ⟨rfl, rfl⟩
  · split
    · exact Or.inl ⟨rfl, rfl⟩
    · exact Or.inl ⟨rfl, rfl⟩

theorem resetMoves_stopIfActive (s : Upsm) : ResetMoves s s.stopIfActive := by
  unfold stopIfActive
  split
  · exact Or.inr rfl
  · exact Or.inl ⟨rfl, rfl⟩

theorem resetMoves_evaluateInteracting (s : Upsm) : ResetMoves s s.evaluateInteracting := by
  unfold evaluateInteracting
  simp only
  split
  · exact (resetMoves_stopIfActive s).trans
      (resetMoves_sendPresenceEvent { s.stopIfActive with interacting := true } _)
  · exact resetMoves_stopIfActive s

theorem resetMoves_evaluateIdle (s : Upsm) : ResetMoves s s.evaluateIdle := by
  have hupdate : ResetMoves s s.updateResetTimer := by
    unfold updateResetTimer
    split
    · split
      · exact Or.inl ⟨rfl, rfl⟩
      · exact Or.inr rfl
    · split
      · exact resetMoves_stopIfActive s
      · exact Or.inl ⟨rfl, rfl⟩
  unfold evaluateIdle
  simp only
  split
  · exact hupdate.trans
      (resetMoves_sendPresenceEvent { s.updateResetTimer with interacting := false } _)
  · exact hupdate

theorem resetMoves_conclude (s : Upsm) (interacting : Bool) (state : UpCorrelationState) :
    ResetMoves s (s.conclude interacting state) := by
  unfold conclude
  simp only
  split
  · exact Or.inl ⟨rfl, rfl⟩
  · exact Or.inl ⟨rfl, rfl⟩

theorem resetMoves_evaluateCorrelation (s : Upsm) (interacting : Bool) :
    ResetMoves s (s.evaluateCorrelation interacting) := by
  rw [evaluateCorrelation_eq]
  split
  · exact (resetMoves_stopIfActive s).trans (resetMoves_conclude _ _ _)
  · split
    · exact (resetMoves_evaluateInteracting s).trans (resetMoves_conclude _ _ _)
    · exact (resetMoves_evaluateIdle s).trans (resetMoves_conclude _ _ _)

theorem resetMoves_sendEvents (s : Upsm) : ResetMoves s s.sendEvents := by
  unfold sendEvents
  simp only
  refine (resetMoves_sendPresenceEvent s s.sensor.curSensorState).trans ?_
  split
  · refine ResetMoves.trans (Or.inr ?_) (resetMoves_evaluateCorrelation _ _)
    rfl
  · exact resetMoves_evaluateCorrelation _ _

theorem resetMoves_reportSensorEvent (s : Upsm) (data : UInt32) :
    ResetMoves s (s.reportSensorEvent data) := by
  unfold reportSensorEvent
  simp only
  split
  · refine ResetMoves.trans (Or.inl ?_) (resetMoves_sendEvents _)
    exact ⟨rfl, rfl⟩
  · refine ResetMoves.trans (Or.inl ?_) (resetMoves_sendEvents _)
    exact ⟨rfl, rfl⟩

theorem resetMoves_startEventFiltering (s : Upsm) (state : UInt32) :
    ResetMoves s (s.startEventFiltering state) := by
  unfold startEventFiltering
  split
  · refine ResetMoves.trans (Or.inl ?_) (resetMoves_reportSensorEvent _ _)
    exact ⟨rfl, rfl⟩
  · exact Or.inl ⟨rfl, rfl⟩

theorem resetMoves_filterSensorEvent (s : Upsm) (data : UInt32) :
    ResetMoves s (s.filterSensorEvent data) := by
  unfold filterSensorEvent
  split
  · have henable : ResetMoves s { s with
        sensor := { s.sensor with filteredSensorState := data } }.enableEventFiltering := by
      unfold enableEventFiltering
      split
      · exact Or.inl ⟨rfl, rfl⟩
      · exact Or.inl ⟨rfl, rfl⟩
    simp only
    split
    · exact henable.trans (resetMoves_startEventFiltering _ _)
    · exact henable
  · split
    · exact Or.inl ⟨rfl, rfl⟩
    · exact Or.inl ⟨rfl, rfl⟩

theorem resetMoves_handleSensorEvent (s : Upsm) (data : UInt32) :
    ResetMoves s (s.handleSensorEvent data) := by
  unfold handleSensorEvent
  split
  · split
    · exact resetMoves_reportSensorEvent s data
    split
    · exact Or.inl ⟨rfl, rfl⟩
    split
    · exact resetMoves_filterSensorEvent s data
    split
    · exact resetMoves_filterSensorEvent s data
    · exact resetMoves_reportSensorEvent s data
  · simp only
    split
    · exact Or.inl ⟨rfl, rfl⟩
    · exact Or.inl ⟨rfl, rfl⟩

theorem resetMoves_takeQueued (s : Upsm) : ResetMoves s s.takeQueued := by
  unfold takeQueued
  split
  · refine ResetMoves.trans (Or.inl ?_) (resetMoves_startEventFiltering _ _)
    exact ⟨rfl, rfl⟩
  · exact Or.inl ⟨rfl, rfl⟩

theorem resetMoves_windowElapsed (s : Upsm) : ResetMoves s s.windowElapsed := by
  unfold windowElapsed
  refine ResetMoves.trans (Or.inl ?_) (resetMoves_sendEvents _)
  exact ⟨rfl, rfl⟩

/-! ## The machine in time -/

namespace Threaded

/-- The machine in which a callback that waits has not run because its timer is armed yet. -/
def atomic (s : Threaded) : Upsm :=
  s.upsm.withArmed (s.upsm.sensor.armed || decide (s.live .stabilityWindow ≠ 0))

theorem isLive_after (u : Upsm) (t : Timer) (c : Callback) :
    (c.after u).isLive t = (t.present u && c.isLive t) := by
  unfold Callback.after Callback.isLive
  by_cases htimer : c.timer = t
  · subst htimer
    by_cases hpresent : c.timer.present u = true
    · simp [hpresent]
    · simp [hpresent]
  · split
    · simp [htimer]
    · simp [htimer]

/-- A section leaves the callbacks whose timer is there. -/
theorem live_release (s : Threaded) (u : Upsm) (t : Timer) :
    (s.release u).live t = if t.present u then s.live t else 0 := by
  unfold live release
  rw [List.countP_map]
  have hafter : Callback.isLive t ∘ Callback.after u = fun c => t.present u && c.isLive t :=
    funext fun c => isLive_after u t c
  rw [hafter]
  by_cases hpresent : t.present u = true
  · simp [hpresent]
  · simp [hpresent]

end Threaded

/-- The correlation timer and its callback: at most one waits, and its timer is active and not
armed. -/
structure ResetInTime (s : Threaded) : Prop where
  live : s.live .correlationReset ≠ 0 →
    s.live .correlationReset = 1 ∧ s.resetArmed = false ∧
      s.upsm.correlationResetTimerActive = true
  armed : s.resetArmed = true → s.upsm.correlationResetTimerActive = true
  enabled : s.upsm.correlationResetTimerActive = true → s.upsm.correlationResetEnabled = true

/-- **The invariant** of the runs in time: of either timer at most one callback waits, and the
timer is not armed then. -/
structure InTime (s : Threaded) : Prop where
  settled : Settled s.atomic.sensor
  window : s.live .stabilityWindow ≠ 0 →
    s.live .stabilityWindow = 1 ∧ s.upsm.sensor.armed = false
  reset : ResetInTime s

section Step

variable {s s' : Threaded} {u : Upsm}

/-- A callback waits for a timer that is there and active. -/
theorem InTime.pending (h : InTime s) (hlive : s.live .stabilityWindow ≠ 0) :
    s.upsm.sensor.eventFilteringTimerActive = true ∧
      s.upsm.sensor.eventFilteringEnabled = true := by
  have harm : s.atomic.sensor.armed = true := by
    show (s.upsm.sensor.armed || decide (s.live .stabilityWindow ≠ 0)) = true
    simp [hlive]
  exact ⟨h.settled.active_eq.trans harm, h.settled.enabled harm⟩

theorem atomic_of_live (hlive : s.live .stabilityWindow ≠ 0) :
    s.atomic = s.upsm.withArmed true := by
  unfold Threaded.atomic
  simp [hlive]

theorem atomic_of_not_live (hlive : s.live .stabilityWindow = 0) : s.atomic = s.upsm := by
  unfold Threaded.atomic
  simp only [hlive, ne_eq, not_true_eq_false, decide_false, Bool.or_false]
  exact withArmed_self s.upsm

/-- What a section leaves of the correlation timer and its callback. -/
theorem ResetInTime.release (h : ResetInTime s) (hmoves : ResetMoves s.upsm u) :
    ResetInTime (s.release u) := by
  have hkept : s.upsm.correlationResetTimerActive = true → u.correlationResetEnabled = true →
      u.correlationResetTimerActive = true := by
    intro hactive hen
    rcases hmoves with ⟨_, hsame⟩ | heq
    · exact hsame.trans hactive
    · exact heq.symm.trans hen
  refine ⟨?_, ?_, ?_⟩
  · intro hlive
    rw [Threaded.live_release] at hlive ⊢
    split at hlive
    · rename_i hpresent
      obtain ⟨hone, hunarmed, hactive⟩ := h.live hlive
      rw [if_pos hpresent]
      refine ⟨hone, ?_, hkept hactive hpresent⟩
      simp [Threaded.release, hunarmed, hactive]
    · exact absurd rfl hlive
  · intro harmed
    simp only [Threaded.release, Bool.and_eq_true, Bool.or_eq_true] at harmed
    obtain ⟨hen, harmed | hstarted⟩ := harmed
    · exact hkept (h.armed harmed) hen
    · exact hstarted.1
  · intro hactive
    rcases hmoves with ⟨henabled, hsame⟩ | heq
    · exact henabled.trans (h.enabled (hsame.symm.trans hactive))
    · exact heq.trans hactive

/-- What a section leaves of the machine in time. -/
theorem InTime.release (h : InTime s) (hmoves : ResetMoves s.upsm u)
    (hsettled : Settled (s.release u).atomic.sensor)
    (hwindow : (s.release u).live .stabilityWindow ≠ 0 → u.sensor.armed = false) :
    InTime (s.release u) := by
  refine ⟨hsettled, ?_, h.reset.release hmoves⟩
  intro hlive
  refine ⟨?_, hwindow hlive⟩
  rw [Threaded.live_release] at hlive ⊢
  split at hlive
  · rename_i hpresent
    rw [if_pos hpresent]
    exact (h.window hlive).1
  · exact absurd rfl hlive

/-- A section that leaves the readings alone leaves the callbacks of their timer alone. -/
theorem InTime.live_of_sensor (h : InTime s) (hsensor : u.sensor = s.upsm.sensor) :
    (s.release u).live .stabilityWindow = s.live .stabilityWindow := by
  rw [Threaded.live_release]
  by_cases hlive : s.live .stabilityWindow = 0
  · rw [hlive, ite_self]
  · have hpresent : Timer.present u .stabilityWindow = true := by
      show u.sensor.eventFilteringEnabled = true
      rw [hsensor]
      exact (h.pending hlive).2
    rw [if_pos hpresent]

theorem InTime.release_of_sensor (h : InTime s) (hmoves : ResetMoves s.upsm u)
    (hsensor : u.sensor = s.upsm.sensor) :
    InTime (s.release u) ∧ (s.release u).atomic =
        u.withArmed (s.upsm.sensor.armed || decide (s.live .stabilityWindow ≠ 0)) := by
  have hlive := h.live_of_sensor hsensor
  have hatomic : (s.release u).atomic =
      u.withArmed (s.upsm.sensor.armed || decide (s.live .stabilityWindow ≠ 0)) := by
    unfold Threaded.atomic
    rw [hlive]
    show u.withArmed (u.sensor.armed || _) = _
    rw [hsensor]
  refine ⟨h.release hmoves ?_ ?_, hatomic⟩
  · have hsame : (s.release u).atomic.sensor = s.atomic.sensor := by
      rw [hatomic]
      unfold withArmed Threaded.atomic
      rw [hsensor]
      rfl
    rw [hsame]
    exact h.settled
  · rw [hlive, hsensor]
    exact fun hne => (h.window hne).2

/-- **A reading** is what it is to the machine in which callbacks do not wait. -/
theorem InTime.sensor (h : InTime s) (data : UInt32) :
    InTime (s.release (s.upsm.handleSensorEvent data)) ∧
      (s.release (s.upsm.handleSensorEvent data)).atomic = s.atomic.handleSensorEvent data := by
  have hmoves := resetMoves_handleSensorEvent s.upsm data
  have hsettled := (handleSensorEvent_spec h.settled data).1
  have hlive' := s.live_release (s.upsm.handleSensorEvent data) .stabilityWindow
  by_cases hlive : s.live .stabilityWindow = 0
  · rw [hlive, ite_self] at hlive'
    rw [atomic_of_not_live hlive] at hsettled ⊢
    have hatomic := atomic_of_not_live hlive'
    refine ⟨h.release hmoves ?_ fun hne => absurd hlive' hne, hatomic⟩
    rw [hatomic]
    exact hsettled
  · obtain ⟨hactive, henabled⟩ := h.pending hlive
    have harm := (h.window hlive).2
    rw [atomic_of_live hlive] at hsettled ⊢
    rcases handleSensorEvent_waiting harm hactive henabled data with
      ⟨henabled', harm', hsame⟩ | ⟨hkilled, hsame⟩
    · have hpresent : Timer.present (s.upsm.handleSensorEvent data) .stabilityWindow = true :=
        henabled'
      rw [if_pos hpresent] at hlive'
      have hatomic : (s.release (s.upsm.handleSensorEvent data)).atomic =
          (s.upsm.handleSensorEvent data).withArmed true := by
        unfold Threaded.atomic
        simp only [hlive', hlive, ne_eq, not_false_eq_true, decide_true, Bool.or_true]
        rfl
      rw [hsame] at hsettled ⊢
      refine ⟨h.release hmoves ?_ fun _ => harm', hatomic⟩
      rw [hatomic]
      exact hsettled
    · have hpresent : ¬ Timer.present (s.upsm.handleSensorEvent data) .stabilityWindow = true := by
        show ¬ (s.upsm.handleSensorEvent data).sensor.eventFilteringEnabled = true
        rw [hkilled]
        decide
      rw [if_neg hpresent] at hlive'
      have hatomic := atomic_of_not_live hlive'
      rw [hsame] at hsettled ⊢
      refine ⟨h.release hmoves ?_ fun hne => absurd hlive' hne, hatomic⟩
      rw [hatomic]
      exact hsettled

/-- A callback that leaves the others waiting. -/
theorem live_eraseIdx {i : Nat} {c : Callback} (hc : s.waiting[i]? = some c) (t : Timer) :
    s.live t =
      { s with waiting := s.waiting.eraseIdx i }.live t + if c.isLive t then 1 else 0 := by
  obtain ⟨hi, rfl⟩ := List.getElem?_eq_some_iff.mp hc
  unfold Threaded.live
  rw [← (List.getElem_cons_eraseIdx_perm hi).countP_eq, List.countP_cons]

theorem live_append (t : Timer) (c : Callback) (w : Upsm) (b : Bool) :
    (⟨w, b, s.waiting ++ [c]⟩ : Threaded).live t = s.live t + if c.isLive t then 1 else 0 := by
  unfold Threaded.live
  rw [List.countP_append, List.countP_singleton]

/-- **A timer that fires** makes its callback wait, which changes nothing yet. -/
theorem InTime.dispatch (h : InTime s) {t : Timer}
    (hstep : threadedStep s (.dispatch t) = some s') : InTime s' ∧ s'.atomic = s.atomic := by
  cases t with
  | stabilityWindow =>
    simp only [threadedStep] at hstep
    obtain ⟨harm, rfl⟩ := Option.ite_some_none_eq_some.1 hstep
    have hnone : s.live .stabilityWindow = 0 := by
      by_contra hlive
      rw [(h.window hlive).2] at harm
      cases harm
    have hwindow := live_append (s := s) .stabilityWindow ⟨.stabilityWindow, false⟩
      (s.upsm.withArmed false) s.resetArmed
    have hreset := live_append (s := s) .correlationReset ⟨.stabilityWindow, false⟩
      (s.upsm.withArmed false) s.resetArmed
    rw [hnone] at hwindow
    have hatomic : (⟨s.upsm.withArmed false, s.resetArmed,
        s.waiting ++ [⟨.stabilityWindow, false⟩]⟩ : Threaded).atomic = s.atomic := by
      rw [atomic_of_not_live hnone]
      unfold Threaded.atomic
      rw [hwindow]
      show s.upsm.withArmed true = s.upsm
      rw [← harm]
      exact withArmed_self s.upsm
    refine ⟨⟨?_, ?_, ?_, h.reset.armed, h.reset.enabled⟩, hatomic⟩
    · rw [hatomic]
      exact h.settled
    · exact fun _ => ⟨hwindow, rfl⟩
    · intro hlive
      rw [hreset] at hlive ⊢
      exact h.reset.live hlive
  | correlationReset =>
    simp only [threadedStep] at hstep
    obtain ⟨harm, rfl⟩ := Option.ite_some_none_eq_some.1 hstep
    have hnone : s.live .correlationReset = 0 := by
      by_contra hlive
      rw [(h.reset.live hlive).2.1] at harm
      cases harm
    have hwindow := live_append (s := s) .stabilityWindow ⟨.correlationReset, false⟩ s.upsm false
    have hreset := live_append (s := s) .correlationReset ⟨.correlationReset, false⟩ s.upsm false
    rw [hnone] at hreset
    have hatomic : (⟨s.upsm, false, s.waiting ++ [⟨.correlationReset, false⟩]⟩ :
        Threaded).atomic = s.atomic := by
      unfold Threaded.atomic
      rw [hwindow]
      rfl
    refine ⟨⟨?_, ?_, ?_, ?_, h.reset.enabled⟩, hatomic⟩
    · rw [hatomic]
      exact h.settled
    · intro hlive
      rw [hwindow] at hlive ⊢
      exact h.window hlive
    · exact fun _ => ⟨hreset, rfl, h.reset.armed harm⟩
    · intro hfalse
      cases hfalse

/-- The state without a callback of a timer, to which the callback is to be run. -/
theorem InTime.erase (h : InTime s) {i : Nat} {c : Callback} (hc : s.waiting[i]? = some c)
    (hlive : c.killed = false) :
    s.live c.timer ≠ 0 ∧ { s with waiting := s.waiting.eraseIdx i }.live c.timer = 0 ∧
      ∀ t, t ≠ c.timer → { s with waiting := s.waiting.eraseIdx i }.live t = s.live t := by
  have hone : c.isLive c.timer = true := by simp [Callback.isLive, hlive]
  have hcount := live_eraseIdx hc c.timer
  rw [if_pos hone] at hcount
  have hne : s.live c.timer ≠ 0 := by omega
  have hsingle : s.live c.timer = 1 := by
    cases htimer : c.timer with
    | stabilityWindow =>
      rw [htimer] at hne
      exact (h.window hne).1
    | correlationReset =>
      rw [htimer] at hne
      exact (h.reset.live hne).1
  refine ⟨hne, by omega, fun t ht => ?_⟩
  have hother := live_eraseIdx hc t
  have hnot : ¬ c.isLive t = true := by simp [Callback.isLive, Ne.symm ht]
  rw [if_neg hnot] at hother
  exact hother.symm

/-- **A callback in time** is its timer that fires. -/
theorem InTime.callback (h : InTime s) {i : Nat} {c : Callback} (hc : s.waiting[i]? = some c)
    (hlive : c.killed = false) :
    InTime ({ s with waiting := s.waiting.eraseIdx i }.locked c.timer) ∧ ∃ a, step s.atomic a =
        some ({ s with waiting := s.waiting.eraseIdx i }.locked c.timer).atomic ∧
        ∀ data, a ≠ .sensor data := by
  obtain ⟨hne, hzero, hothers⟩ := h.erase hc hlive
  generalize ht : { s with waiting := s.waiting.eraseIdx i } = t at hzero hothers ⊢
  have hupsm : t.upsm = s.upsm := by rw [← ht]
  have harmed : t.resetArmed = s.resetArmed := by rw [← ht]
  cases htimer : c.timer with
  | stabilityWindow =>
    rw [htimer] at hne hzero hothers
    have harm := (h.window hne).2
    have hreset := hothers .correlationReset (by decide)
    -- without the callback nothing waits for this timer, and it is not armed
    have hcallback : s.atomic.stabilityWindowCallback = s.upsm.windowElapsed.takeQueued := by
      rw [atomic_of_live hne, stabilityWindowCallback_eq, withArmed_withArmed]
      have hself : s.upsm.withArmed false = s.upsm := by
        rw [← harm]
        exact withArmed_self s.upsm
      rw [hself]
    have hatomicArm : s.atomic.sensor.armed = true := by
      rw [atomic_of_live hne]
      rfl
    have hstep : step s.atomic .stabilityWindow = some s.upsm.windowElapsed.takeQueued := by
      rw [step, if_pos hatomicArm, hcallback]
    have hsettled := step_settled hstep h.settled
    have hfirst : ((t.release t.upsm.windowElapsed).live .stabilityWindow) = 0 := by
      rw [Threaded.live_release, hzero, ite_self]
    have hlast : (t.locked .stabilityWindow).live .stabilityWindow = 0 := by
      show ((t.release t.upsm.windowElapsed).release _).live .stabilityWindow = 0
      rw [Threaded.live_release, hfirst, ite_self]
    have hatomic : (t.locked .stabilityWindow).atomic = s.upsm.windowElapsed.takeQueued := by
      rw [atomic_of_not_live hlast, ← hupsm]
      rfl
    refine ⟨⟨?_, fun hlive => absurd hlast hlive, ?_⟩, .stabilityWindow, ?_, by simp⟩
    · rw [hatomic]
      exact hsettled
    · have hstart : ResetInTime t := by
        refine ⟨?_, ?_, ?_⟩
        · rw [hreset, harmed, hupsm]
          exact h.reset.live
        · rw [harmed, hupsm]
          exact h.reset.armed
        · rw [hupsm]
          exact h.reset.enabled
      exact (hstart.release (resetMoves_windowElapsed _)).release (resetMoves_takeQueued _)
    · rw [hatomic]
      exact hstep
  | correlationReset =>
    rw [htimer] at hne hzero hothers
    obtain ⟨_, hunarmed, hactive⟩ := h.reset.live hne
    have hwindow := hothers .stabilityWindow (by decide)
    have hsensor := s.upsm.correlationResetCallback_sensor
    have hreset : (t.locked .correlationReset).live .correlationReset = 0 := by
      show (t.release _).live .correlationReset = 0
      rw [Threaded.live_release, hzero, ite_self]
    have hfilter : (t.locked .correlationReset).live .stabilityWindow = s.live .stabilityWindow := by
      show (t.release t.upsm.correlationResetCallback).live .stabilityWindow = _
      rw [Threaded.live_release, hwindow, hupsm, ← s.live_release, h.live_of_sensor hsensor]
    have hatomic : (t.locked .correlationReset).atomic = s.atomic.correlationResetCallback := by
      unfold Threaded.atomic
      rw [hfilter, correlationResetCallback_withArmed, ← hupsm]
      show t.upsm.correlationResetCallback.withArmed
        (t.upsm.correlationResetCallback.sensor.armed || _) = _
      rw [correlationResetCallback_sensor]
    have hatomicActive : s.atomic.correlationResetTimerActive = true := hactive
    have hstep : step s.atomic .correlationReset = some s.atomic.correlationResetCallback := by
      rw [step, if_pos hatomicActive]
    have hinactive : (t.locked .correlationReset).upsm.correlationResetTimerActive = false := by
      show t.upsm.correlationResetCallback.correlationResetTimerActive = false
      unfold correlationResetCallback
      rw [sendPresenceEvent_timerActive]
      rfl
    refine ⟨⟨?_, ?_, ?_, ?_, ?_⟩, .correlationReset, ?_, by simp⟩
    · rw [hatomic]
      exact step_settled hstep h.settled
    · intro hlive
      rw [hfilter] at hlive ⊢
      refine ⟨(h.window hlive).1, ?_⟩
      show t.upsm.correlationResetCallback.sensor.armed = false
      rw [hupsm, hsensor]
      exact (h.window hlive).2
    · exact fun hlive => absurd hreset hlive
    · intro harm
      have hinactive' : t.upsm.correlationResetCallback.correlationResetTimerActive = false :=
        hinactive
      simp [Threaded.locked, Threaded.release, harmed, hunarmed, hinactive'] at harm
    · intro hrun
      rw [hinactive] at hrun
      cases hrun
    · rw [hatomic]
      exact hstep

/-- **A step in time** is a step of the machine in which callbacks do not wait, or none. -/
theorem threadedStep_follows {a : ThreadedAction} (htimely : Timely s a)
    (hstep : threadedStep s a = some s') (h : InTime s) :
    InTime s' ∧ (s'.atomic = s.atomic ∨
      ∃ b, step s.atomic b = some s'.atomic ∧ ∀ data, b = .sensor data → a = .sensor data) := by
  cases a with
  | sensor data =>
    cases hstep
    obtain ⟨hin, hatomic⟩ := h.sensor data
    refine ⟨hin, Or.inr ⟨.sensor data, congrArg some hatomic.symm, ?_⟩⟩
    rintro data' ⟨⟩
    rfl
  | interaction data =>
    cases hstep
    obtain ⟨hin, hatomic⟩ := h.release_of_sensor (resetMoves_evaluateCorrelation s.upsm _)
      (evaluateCorrelation_sensor s.upsm (data ≠ 0))
    refine ⟨hin, Or.inr ⟨.interaction data, ?_, fun data' heq => by cases heq⟩⟩
    rw [hatomic, ← evaluateCorrelation_withArmed]
    rfl
  | dispatch t =>
    obtain ⟨hin, hatomic⟩ := h.dispatch hstep
    exact ⟨hin, Or.inl hatomic⟩
  | callback i =>
    simp only [threadedStep, Option.map_eq_some_iff] at hstep
    obtain ⟨c, hc, rfl⟩ := hstep
    obtain ⟨hin, b, hatomic, hb⟩ := h.callback hc (htimely i c rfl hc)
    exact ⟨hin, Or.inr ⟨b, hatomic, fun data heq => absurd heq (hb data)⟩⟩

end Step

/-! ## The reported state -/

theorem reportSensorEvent_curSensorState (s : Upsm) (data : UInt32) :
    (s.reportSensorEvent data).sensor.curSensorState = data := by
  unfold reportSensorEvent
  simp only [sendEvents_sensor]
  split
  · rfl
  · rfl

theorem startEventFiltering_curSensorState (s : Upsm) (state : UInt32) :
    (s.startEventFiltering state).sensor.curSensorState = s.sensor.curSensorState ∨
      (s.startEventFiltering state).sensor.curSensorState = state := by
  unfold startEventFiltering
  split
  · exact Or.inr (reportSensorEvent_curSensorState _ state)
  · exact Or.inl rfl

theorem filterSensorEvent_curSensorState (s : Upsm) (data : UInt32) :
    (s.filterSensorEvent data).sensor.curSensorState = s.sensor.curSensorState ∨
      (s.filterSensorEvent data).sensor.curSensorState = data := by
  unfold filterSensorEvent
  split
  · generalize ht : { s with
      sensor := { s.sensor with filteredSensorState := data } }.enableEventFiltering = t
    have hfields : t.sensor.curSensorState = s.sensor.curSensorState ∧
        t.sensor.filteredSensorState = data := by
      rw [← ht]
      unfold enableEventFiltering
      split
      · exact ⟨rfl, rfl⟩
      · exact ⟨rfl, rfl⟩
    simp only
    split
    · rw [← hfields.1, hfields.2]
      exact startEventFiltering_curSensorState t data
    · exact Or.inl hfields.1
  · split
    · exact Or.inl rfl
    · exact Or.inl rfl

theorem handleSensorEvent_curSensorState (s : Upsm) (data : UInt32) :
    (s.handleSensorEvent data).sensor.curSensorState = s.sensor.curSensorState ∨
      (s.handleSensorEvent data).sensor.curSensorState = data := by
  have hreport := reportSensorEvent_curSensorState s data
  unfold handleSensorEvent
  split
  · split
    · exact Or.inr hreport
    split
    · exact Or.inl rfl
    split
    · exact filterSensorEvent_curSensorState s data
    split
    · exact filterSensorEvent_curSensorState s data
    · exact Or.inr hreport
  · simp only
    split
    · exact Or.inl rfl
    · exact Or.inl rfl

/-- The machine in which callbacks do not wait reports an invalid state for an invalid reading
only. -/
theorem step_stays_valid {s s' : Upsm} {a : Action} (h : Settled s.sensor)
    (hstep : step s a = some s') (hdata : ∀ data, a = .sensor data → data ≠ upSensorStateInvalid)
    (hcur : s.sensor.curSensorState ≠ upSensorStateInvalid) :
    s'.sensor.curSensorState ≠ upSensorStateInvalid := by
  cases a with
  | sensor data =>
    cases hstep
    rcases handleSensorEvent_curSensorState s data with heq | heq
    · rw [heq]
      exact hcur
    · rw [heq]
      exact hdata data rfl
  | interaction data =>
    cases hstep
    rw [evaluateCorrelation_sensor]
    exact hcur
  | stabilityWindow =>
    simp only [step] at hstep
    obtain ⟨harm, rfl⟩ := Option.ite_some_none_eq_some.1 hstep
    have hfiltered := h.filtered.mp harm
    rw [stabilityWindowCallback_eq]
    generalize ht : (s.withArmed false).windowElapsed = t
    have htcur : t.sensor.curSensorState = s.sensor.filteredSensorState := by
      rw [← ht, windowElapsed, sendEvents_sensor]
      rfl
    unfold takeQueued
    split
    · rename_i hqueued
      rcases startEventFiltering_curSensorState { t with
        sensor :=
          { t.sensor with
            filteredSensorState := t.sensor.queuedSensorState,
            queuedSensorState := upSensorStateInvalid } } t.sensor.queuedSensorState with
        heq | heq
      · rw [heq]
        exact htcur ▸ hfiltered
      · rw [heq]
        exact hqueued
    · exact htcur ▸ hfiltered
  | correlationReset =>
    simp only [step] at hstep
    obtain ⟨-, rfl⟩ := Option.ite_some_none_eq_some.1 hstep
    rw [correlationResetCallback_sensor]
    exact hcur

theorem staysValid_of_timely {s : Threaded} {a : ThreadedAction} (h : InTime s)
    (htimely : Timely s a) : StaysValid s a := by
  intro hdata hcur s' hstep
  obtain ⟨_, hsame | ⟨b, hb, hsensor⟩⟩ := threadedStep_follows htimely hstep h
  · have heq : s'.atomic.sensor.curSensorState = s.atomic.sensor.curSensorState := by
      rw [hsame]
    exact fun hinvalid => hcur (heq.symm.trans hinvalid)
  · have hvalid := step_stays_valid h.settled hb
      (fun data heq => hdata data (hsensor data heq)) hcur
    exact hvalid

/-! ## Events -/

theorem lt_events_sendPresenceEvent (s : Upsm) (state : UInt32) :
    s.events.length < (s.sendPresenceEvent state).events.length := by
  unfold sendPresenceEvent signal
  split
  · simp
  · split
    · simp
    · simp

theorem stopIfActive_events (s : Upsm) : s.stopIfActive.events = s.events := by
  unfold stopIfActive
  split
  · rfl
  · rfl

theorem updateResetTimer_events (s : Upsm) : s.updateResetTimer.events = s.events := by
  unfold updateResetTimer
  split
  · split
    · rfl
    · rfl
  · split
    · exact s.stopIfActive_events
    · rfl

theorem le_events_evaluateInteracting (s : Upsm) :
    s.events.length ≤ s.evaluateInteracting.events.length := by
  unfold evaluateInteracting
  simp only
  split
  · have hlt := lt_events_sendPresenceEvent { s.stopIfActive with interacting := true }
      s.stopIfActive.sensor.curSensorState
    rw [← s.stopIfActive_events]
    exact Nat.le_of_lt hlt
  · exact Nat.le_of_eq (congrArg List.length s.stopIfActive_events.symm)

theorem le_events_evaluateIdle (s : Upsm) : s.events.length ≤ s.evaluateIdle.events.length := by
  unfold evaluateIdle
  simp only
  split
  · have hlt := lt_events_sendPresenceEvent { s.updateResetTimer with interacting := false }
      s.updateResetTimer.sensor.curSensorState
    rw [← s.updateResetTimer_events]
    exact Nat.le_of_lt hlt
  · exact Nat.le_of_eq (congrArg List.length s.updateResetTimer_events.symm)

theorem le_events_conclude (s : Upsm) (interacting : Bool) (state : UpCorrelationState) :
    s.events.length ≤ (s.conclude interacting state).events.length := by
  unfold conclude signal
  simp only
  split
  · simp
  · exact Nat.le_refl _

theorem le_events_evaluateCorrelation (s : Upsm) (interacting : Bool) :
    s.events.length ≤ (s.evaluateCorrelation interacting).events.length := by
  rw [evaluateCorrelation_eq]
  split
  · rw [← s.stopIfActive_events]
    exact le_events_conclude _ _ _
  · split
    · exact Nat.le_trans s.le_events_evaluateInteracting (le_events_conclude _ _ _)
    · exact Nat.le_trans s.le_events_evaluateIdle (le_events_conclude _ _ _)

/-- A report signals an event. -/
theorem lt_events_sendEvents (s : Upsm) : s.events.length < s.sendEvents.events.length := by
  unfold sendEvents
  simp only
  have hlt := s.lt_events_sendPresenceEvent s.sensor.curSensorState
  split
  · exact Nat.lt_of_lt_of_le hlt (le_events_evaluateCorrelation
      (s.sendPresenceEvent s.sensor.curSensorState).stopCorrelationResetTimer _)
  · exact Nat.lt_of_lt_of_le hlt (le_events_evaluateCorrelation _ _)

theorem le_events_takeQueued (s : Upsm) : s.events.length ≤ s.takeQueued.events.length := by
  have hsend : ∀ t u : Upsm, u.events = t.events →
      t.events.length ≤ u.sendEvents.events.length := by
    intro t u heq
    rw [← heq]
    exact Nat.le_of_lt u.lt_events_sendEvents
  have hreport : ∀ (t : Upsm) (data : UInt32),
      t.events.length ≤ (t.reportSensorEvent data).events.length := by
    intro t data
    unfold reportSensorEvent
    simp only
    split
    · exact hsend t _ rfl
    · exact hsend t _ rfl
  have hstart : ∀ (t : Upsm) (state : UInt32),
      t.events.length ≤ (t.startEventFiltering state).events.length := by
    intro t state
    unfold startEventFiltering
    split
    · exact hreport { t with
        sensor := { t.sensor with eventFilteringTimerActive := false } } state
    · exact Nat.le_refl _
  unfold takeQueued
  split
  · exact hstart { s with
      sensor :=
        { s.sensor with
          filteredSensorState := s.sensor.queuedSensorState,
          queuedSensorState := upSensorStateInvalid } } _
  · exact Nat.le_refl _

/-- **A callback signals an event**, whether its timer was killed or not. -/
theorem lt_events_locked (s : Threaded) (t : Timer) :
    s.upsm.events.length < (s.locked t).upsm.events.length := by
  cases t with
  | stabilityWindow =>
    have hfirst : s.upsm.events.length < s.upsm.windowElapsed.events.length :=
      lt_events_sendEvents { s.upsm with
        sensor := { s.upsm.sensor with curSensorState := s.upsm.sensor.filteredSensorState } }
    exact Nat.lt_of_lt_of_le hfirst (le_events_takeQueued _)
  | correlationReset =>
    have hsignal : s.upsm.events.length < ({ s.upsm with
          correlationResetTimerActive := false,
          correlationState := .positive }.signal (.correlation .positive)).events.length := by
      simp [signal]
    exact Nat.lt_trans hsignal (lt_events_sendPresenceEvent _ _)

/-- A callback whose timer was killed has no effect exactly if it does not run. -/
theorem cancelledInert_iff_timely (s : Threaded) (a : ThreadedAction) :
    CancelledInert s a ↔ Timely s a := by
  constructor
  · intro hinert i c ha hc
    by_contra hne
    have hkilled : c.killed = true := by simpa using hne
    have hstep : threadedStep s a =
        some ({ s with waiting := s.waiting.eraseIdx i }.locked c.timer) := by
      rw [ha, threadedStep, hc]
      rfl
    obtain ⟨_, _, _, _, hevents⟩ := hinert i c ha hc hkilled _ hstep
    have hlt := lt_events_locked { s with waiting := s.waiting.eraseIdx i } c.timer
    rw [hevents] at hlt
    exact absurd hlt (Nat.lt_irrefl _)
  · intro htimely i c ha hc hkilled
    rw [htimely i c ha hc] at hkilled
    cases hkilled

/-! ## Runs -/

theorem inTime_start (c : Settings) : InTime (threadedStart c) := by
  refine ⟨settled_start c, fun hlive => absurd rfl hlive, fun hlive => absurd rfl hlive, ?_, ?_⟩
  · intro harm
    cases harm
  · intro hactive
    have hcur : upSensorStateInvalid = upSensorStateNotPresent := by
      rw [← ((correlated_start c).timer hactive).1, start, sendEvents_sensor]
    exact absurd hcur (by decide)

/-- **In time the machine is the one in which callbacks do not wait.** -/
theorem run_atomic {c : Settings} {as : List ThreadedAction} {s : Threaded}
    (hrun : run threadedStep (threadedStart c) as = some s)
    (htimely : EveryStep threadedStep Timely (threadedStart c) as) :
    ∃ bs, run step (start c) bs = some s.atomic := by
  have hinv : ∀ (t : Threaded) (a : ThreadedAction) (t' : Threaded), Timely t a →
      threadedStep t a = some t' →
      (InTime t ∧ ∃ bs, run step (start c) bs = some t.atomic) →
      InTime t' ∧ ∃ bs, run step (start c) bs = some t'.atomic := by
    rintro t a t' ht hstep ⟨hin, bs, hbs⟩
    obtain ⟨hin', hsame | ⟨b, hb, _⟩⟩ := threadedStep_follows ht hstep hin
    · exact ⟨hin', bs, hsame ▸ hbs⟩
    · refine ⟨hin', bs ++ [b], ?_⟩
      rw [run_append, hbs]
      simpa using hb
  exact (run_invariant_of_everyStep hinv htimely hrun ⟨inTime_start c, [], rfl⟩).2

/-- A callback gets the lock in time. -/
theorem run_atomic_callback : ∃ s,
    run threadedStep (threadedStart ⟨true, false, 5000, 5000, 0⟩)
      [.sensor 2, .sensor 1, .dispatch .stabilityWindow, .callback 0] = some s ∧
    ∃ bs, run step (start ⟨true, false, 5000, 5000, 0⟩) bs = some s.atomic := by
  have hnot {s : Threaded} {a : ThreadedAction} (h : ∀ i, a ≠ .callback i) : Timely s a :=
    fun i _ ha => absurd ha (h i)
  refine ⟨_, rfl, @run_atomic _ [.sensor 2, .sensor 1, .dispatch .stabilityWindow, .callback 0] _
    rfl ⟨hnot nofun, fun _ h₁ => ⟨hnot nofun, fun _ h₂ => ⟨hnot nofun, fun _ h₃ => ?_⟩⟩⟩⟩
  cases h₁
  cases h₂
  cases h₃
  refine ⟨?_, fun _ _ => trivial⟩
  rintro _ _ ⟨⟩ ⟨⟩
  rfl

/-- **A cancelled timer has no effect**, and no invalid state comes of valid readings, in
exactly the runs in which no callback gets the lock after its timer was killed. -/
theorem cancelled_inert_iff (c : Settings) (as : List ThreadedAction) :
    EveryStep threadedStep (fun s a => CancelledInert s a ∧ StaysValid s a) (threadedStart c) as ↔
      EveryStep threadedStep Timely (threadedStart c) as := by
  have hstep : ∀ (s : Threaded) (a : ThreadedAction) (s' : Threaded), Timely s a →
      threadedStep s a = some s' → InTime s → InTime s' := by
    intro s a s' htimely hstep h
    exact (threadedStep_follows htimely hstep h).1
  refine everyStep_congr_of_ok hstep ?_ (inTime_start c) as
  intro s a h
  rw [cancelledInert_iff_timely]
  exact ⟨fun hboth => hboth.1, fun htimely => ⟨htimely, staysValid_of_timely h htimely⟩⟩

/-- The timer fires for a reading that is filtered, and the reported state is read again before
the callback gets the lock. -/
def lateCallback : List ThreadedAction :=
  [.sensor 2, .sensor 1, .dispatch .stabilityWindow, .sensor 2, .callback 0]

/-- A callback whose timer was killed makes the state invalid. -/
theorem not_cancelledInert :
    ¬ EveryStep threadedStep (fun s a => CancelledInert s a ∧ StaysValid s a)
      (threadedStart ⟨true, false, 5000, 5000, 0⟩) lateCallback := by
  rintro ⟨_, h₁⟩
  obtain ⟨_, h₂⟩ := h₁ _ rfl
  obtain ⟨_, h₃⟩ := h₂ _ rfl
  obtain ⟨_, h₄⟩ := h₃ _ rfl
  obtain ⟨⟨_, hvalid⟩, _⟩ := h₄ _ rfl
  exact hvalid (by simp) (by decide +kernel) _ rfl (by decide +kernel)

end Upsm

end Uf

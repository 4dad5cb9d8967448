import Dptf.Lib.Machine

/-!
# The user presence state machine

`EsifUpsm` reports what the presence sensor says, readings below or above the
reported one only after a stability window.  A reading that is filtered waits for
the timer, and a lower one that comes meanwhile is queued behind it.

* `Settled` — **the invariant**: what is filtered, what is queued and the timer.
* `upsm_converges` — a queued reading waits for an armed timer, and when the timer
  has fired at most twice the last reading is the reported one.
-/

open Lib

namespace Uf

/-! ## States -/

/-- `UP_SENSOR_STATE_NOT_PRESENT`. -/
def upSensorStateNotPresent : UInt32 := 0
/-- `UP_SENSOR_STATE_DISENGAGED`. -/
def upSensorStateDisengaged : UInt32 := 1
/-- `UP_SENSOR_STATE_ENGAGED`. -/
def upSensorStateEngaged : UInt32 := 2
/-- `UP_SENSOR_STATE_INVALID`. -/
def upSensorStateInvalid : UInt32 := 99
/-- `UP_STATE_ENGAGED`. -/
def upStateEngaged : UInt32 := 2
/-- `UP_STATE_FACE_ENGAGED`. -/
def upStateFaceEngaged : UInt32 := 3

/-- `UpCorrelationState`. -/
inductive UpCorrelationState
  | negative
  | positive
deriving DecidableEq, Repr

/-- An event the state machine signals. -/
inductive Signal
  /-- `ESIF_EVENT_PLATFORM_USER_PRESENCE_CHANGED`. -/
  | presence (state : UInt32)
  /-- `ESIF_EVENT_USER_PRESENCE_CORRELATION_STATUS_CHANGED`. -/
  | correlation (state : UpCorrelationState)
deriving DecidableEq, Repr

/-- The part of `EsifUpsm` that readings go through. -/
structure Sensor where
  curSensorState : UInt32
  filteredSensorState : UInt32
  queuedSensorState : UInt32
  negativeEventFilteringEnabled : Bool
  positiveEventFilteringEnabled : Bool
  notPresentStabilityWindow : UInt32
  disengagedStabilityWindow : UInt32
  presentStabilityWindow : UInt32
  /-- The timer is there. -/
  eventFilteringEnabled : Bool
  eventFilteringTimerActive : Bool
  /-- The timer is going to fire. -/
  armed : Bool
deriving DecidableEq, Repr

/-- `EsifUpsm`, with the events it has signalled. -/
structure Upsm where
  sensor : Sensor
  interacting : Bool
  correlationState : UpCorrelationState
  correlationResetEnabled : Bool
  /-- The flag is set and cleared with the timer. -/
  correlationResetTimerActive : Bool
  events : List Signal
deriving DecidableEq, Repr

namespace Upsm

variable {s s' : Upsm} {data : UInt32}

/-! ## Presence and correlation -/

/-- `EsifEventMgr_SignalEvent`. -/
def signal (s : Upsm) (e : Signal) : Upsm := { s with events := s.events ++ [e] }

/-- `EsifUpsm_SendPresenceEvent`. -/
def sendPresenceEvent (s : Upsm) (state : UInt32) : Upsm :=
  if state = upSensorStateEngaged then s.signal (.presence upStateFaceEngaged)
  else if state ≠ upSensorStateInvalid ∧ s.interacting then
    s.signal (.presence upStateEngaged)
  else s.signal (.presence state)

/-- `EsifUpsm_StopCorrelationResetTimer_SmLocked`. -/
def stopCorrelationResetTimer (s : Upsm) : Upsm :=
  { s with correlationResetTimerActive := false, correlationResetEnabled := false }

/-- `EsifUpsm_EnableCorrelationResetTimer_SmLocked` and
`EsifUpsm_StartCorrelationResetTimer_SmLocked`. -/
def startCorrelationResetTimer (s : Upsm) : Upsm :=
  { s with correlationResetEnabled := true, correlationResetTimerActive := true }

/-- Stop the correlation timer if it is active. -/
def stopIfActive (s : Upsm) : Upsm :=
  if s.correlationResetTimerActive then s.stopCorrelationResetTimer else s

/-- The branch of `EsifUpsm_EvaluateCorrelation_SmLocked` for a user who interacts without
being engaged. -/
def evaluateInteracting (s : Upsm) : Upsm :=
  let s := s.stopIfActive
  if s.interacting = false ∧ s.sensor.curSensorState < upSensorStateEngaged then
    { s with interacting := true }.sendPresenceEvent s.sensor.curSensorState
  else s

/-- The correlation timer of a user who neither interacts nor is engaged. -/
def updateResetTimer (s : Upsm) : Upsm :=
  if s.correlationState = .negative ∧ s.sensor.curSensorState = upSensorStateNotPresent then
    if s.correlationResetTimerActive then s else s.startCorrelationResetTimer
  else if s.sensor.curSensorState = upSensorStateDisengaged then s.stopIfActive
  else s

/-- Its branch for such a user. -/
def evaluateIdle (s : Upsm) : Upsm :=
  let s := s.updateResetTimer
  if s.interacting then
    { s with interacting := false }.sendPresenceEvent s.sensor.curSensorState
  else s

/-- `EsifUpsm_EvaluateCorrelation_SmLocked`. -/
def evaluateCorrelation (s : Upsm) (interacting : Bool) : Upsm :=
  let correlationState : UpCorrelationState :=
    if s.sensor.curSensorState = upSensorStateEngaged then .positive
    else if interacting then .negative
    else s.correlationState
  let s :=
    if s.sensor.curSensorState = upSensorStateEngaged then s.stopIfActive
    else if interacting then s.evaluateInteracting
    else s.evaluateIdle
  let s := { s with interacting := interacting }
  if correlationState ≠ s.correlationState then
    { s with correlationState := correlationState }.signal (.correlation correlationState)
  else s

/-- `EsifUpsm_SendEvents`. -/
def sendEvents (s : Upsm) : Upsm :=
  let s := s.sendPresenceEvent s.sensor.curSensorState
  let s :=
    if s.correlationResetTimerActive ∧ s.sensor.curSensorState ≠ upSensorStateNotPresent then
      s.stopCorrelationResetTimer
    else s
  s.evaluateCorrelation s.interacting

/-- `EsifUpsm_CorrelationResetCallback`. -/
def correlationResetCallback (s : Upsm) : Upsm :=
  let s :=
    { s with correlationResetTimerActive := false, correlationState := .positive }.signal
      (.correlation .positive)
  s.sendPresenceEvent s.sensor.curSensorState

/-! ## Readings -/

/-- `EsifUpsm_StopEventFiltering_SmLocked`: the timer is killed. -/
def stopEventFiltering (s : Upsm) : Upsm :=
  { s with
    sensor :=
      { s.sensor with
        armed := false, eventFilteringTimerActive := false, eventFilteringEnabled := false } }

/-- `EsifUpsm_ReportSensorEvent_SmLocked`. -/
def reportSensorEvent (s : Upsm) (data : UInt32) : Upsm :=
  let s :=
    { s with
      sensor :=
        { s.sensor with
          curSensorState := data, filteredSensorState := upSensorStateInvalid,
          queuedSensorState := upSensorStateInvalid } }
  let s := if s.sensor.eventFilteringEnabled then s.stopEventFiltering else s
  s.sendEvents

/-- The stability window of a state. -/
def window (s : Upsm) (state : UInt32) : UInt32 :=
  if state = upSensorStateEngaged then s.sensor.presentStabilityWindow
  else if state = upSensorStateDisengaged then s.sensor.disengagedStabilityWindow
  else s.sensor.notPresentStabilityWindow

/-- `EsifUpsm_StartEventFiltering_SmLocked`.  A window of no time is refused by the timer, and
the state reported at once. -/
def startEventFiltering (s : Upsm) (state : UInt32) : Upsm :=
  if s.window state = 0 then
    { s with sensor := { s.sensor with eventFilteringTimerActive := false } }.reportSensorEvent
      state
  else { s with sensor := { s.sensor with eventFilteringTimerActive := true, armed := true } }

/-- `EsifUpsm_EnableEventFiltering_SmLocked`: the timer is made if it is not there. -/
def enableEventFiltering (s : Upsm) : Upsm :=
  if s.sensor.eventFilteringEnabled then s
  else { s with sensor := { s.sensor with eventFilteringEnabled := true, armed := false } }

/-- `EsifUpsm_FilterSensorEvent_SmLocked`. -/
def filterSensorEvent (s : Upsm) (data : UInt32) : Upsm :=
  if s.sensor.eventFilteringTimerActive = false then
    let s := { s with sensor := { s.sensor with filteredSensorState := data } }.enableEventFiltering
    if s.sensor.eventFilteringEnabled then s.startEventFiltering s.sensor.filteredSensorState
    else s
  else if data < s.sensor.filteredSensorState then
    { s with sensor := { s.sensor with queuedSensorState := data } }
  else
    { s with
      sensor :=
        { s.sensor with
          filteredSensorState := data, queuedSensorState := upSensorStateInvalid } }

/-- `EsifUpsm_HandleSensorEvent_SmLocked`. -/
def handleSensorEvent (s : Upsm) (data : UInt32) : Upsm :=
  if data ≠ s.sensor.curSensorState then
    if s.sensor.curSensorState = upSensorStateInvalid ∨ data = upSensorStateInvalid then
      s.reportSensorEvent data
    else if data = s.sensor.filteredSensorState then
      { s with sensor := { s.sensor with queuedSensorState := upSensorStateInvalid } }
    else if s.sensor.negativeEventFilteringEnabled ∧ data < s.sensor.curSensorState then
      s.filterSensorEvent data
    else if s.sensor.positiveEventFilteringEnabled ∧ s.sensor.curSensorState < data then
      s.filterSensorEvent data
    else s.reportSensorEvent data
  else
    let s := if s.sensor.eventFilteringEnabled then s.stopEventFiltering else s
    { s with
      sensor :=
        { s.sensor with
          filteredSensorState := upSensorStateInvalid,
          queuedSensorState := upSensorStateInvalid } }

/-- `EsifUpsm_StabilityWindowCallback`, once the timer has fired. -/
def stabilityWindowCallback (s : Upsm) : Upsm :=
  let s :=
    { s with
      sensor :=
        { s.sensor with armed := false, curSensorState := s.sensor.filteredSensorState } }.sendEvents
  if s.sensor.queuedSensorState ≠ upSensorStateInvalid then
    { s with
      sensor :=
        { s.sensor with
          filteredSensorState := s.sensor.queuedSensorState,
          queuedSensorState := upSensorStateInvalid } }.startEventFiltering
      s.sensor.queuedSensorState
  else
    { s with
      sensor :=
        { s.sensor with
          filteredSensorState := upSensorStateInvalid, eventFilteringTimerActive := false } }

/-! ## The machine -/

/-- What the settings say of filtering. -/
structure Settings where
  negative : Bool
  positive : Bool
  notPresentWindow : UInt32
  disengagedWindow : UInt32
  presentWindow : UInt32
deriving DecidableEq, Repr

/-- The state once `EsifUpsm_Init` and the first `EsifUpsm_Enable` are done. -/
def start (c : Settings) : Upsm :=
  sendEvents
    { sensor :=
        { curSensorState := upSensorStateInvalid, filteredSensorState := upSensorStateInvalid,
          queuedSensorState := upSensorStateInvalid,
          negativeEventFilteringEnabled := c.negative,
          positiveEventFilteringEnabled := c.positive,
          notPresentStabilityWindow := c.notPresentWindow,
          disengagedStabilityWindow := c.disengagedWindow,
          presentStabilityWindow := c.presentWindow,
          eventFilteringEnabled := c.negative || c.positive,
          eventFilteringTimerActive := false, armed := false },
      interacting := false, correlationState := .positive, correlationResetEnabled := false,
      correlationResetTimerActive := false, events := [] }

/-- What can happen: an event of the sensor or of the user interaction, or a timer that
fires. -/
inductive Action
  | sensor (data : UInt32)
  | interaction (data : UInt32)
  | stabilityWindow
  | correlationReset
deriving DecidableEq, Repr

/-- A step.  A timer fires if it is armed. -/
def step (s : Upsm) : Action → Option Upsm
  | .sensor data => some (s.handleSensorEvent data)
  | .interaction data => some (s.evaluateCorrelation (data ≠ 0))
  | .stabilityWindow => if s.sensor.armed then some s.stabilityWindowCallback else none
  | .correlationReset =>
    if s.correlationResetTimerActive then some s.correlationResetCallback else none

/-! ## What correlation leaves alone -/

@[simp] theorem signal_sensor (s : Upsm) (e : Signal) : (s.signal e).sensor = s.sensor := rfl

@[simp] theorem sendPresenceEvent_sensor (s : Upsm) (state : UInt32) :
    (s.sendPresenceEvent state).sensor = s.sensor := by
  unfold sendPresenceEvent
  split
  · rfl
  · split <;> rfl

@[simp] theorem stopIfActive_sensor (s : Upsm) : s.stopIfActive.sensor = s.sensor := by
  unfold stopIfActive
  split <;> rfl

@[simp] theorem evaluateInteracting_sensor (s : Upsm) :
    s.evaluateInteracting.sensor = s.sensor := by
  unfold evaluateInteracting
  simp only
  split
  · rw [sendPresenceEvent_sensor, stopIfActive_sensor]
  · exact s.stopIfActive_sensor

@[simp] theorem updateResetTimer_sensor (s : Upsm) : s.updateResetTimer.sensor = s.sensor := by
  unfold updateResetTimer
  split
  · split <;> rfl
  · split
    · exact s.stopIfActive_sensor
    · rfl

@[simp] theorem evaluateIdle_sensor (s : Upsm) : s.evaluateIdle.sensor = s.sensor := by
  unfold evaluateIdle
  simp only
  split
  · rw [sendPresenceEvent_sensor, updateResetTimer_sensor]
  · exact s.updateResetTimer_sensor

/-- Correlation does not touch the readings. -/
@[simp] theorem evaluateCorrelation_sensor (s : Upsm) (interacting : Bool) :
    (s.evaluateCorrelation interacting).sensor = s.sensor := by
  obtain ⟨t, ht, hsensor⟩ : ∃ t, t = (if s.sensor.curSensorState = upSensorStateEngaged then
      s.stopIfActive else if interacting then s.evaluateInteracting else s.evaluateIdle) ∧
      t.sensor = s.sensor := by
    refine ⟨_, rfl, ?_⟩
    split
    · exact s.stopIfActive_sensor
    · split
      · exact s.evaluateInteracting_sensor
      · exact s.evaluateIdle_sensor
  unfold evaluateCorrelation
  simp only [← ht]
  generalize (if s.sensor.curSensorState = upSensorStateEngaged then UpCorrelationState.positive
    else if interacting then .negative else s.correlationState) = state
  split
  · rw [signal_sensor]
    exact hsensor
  · exact hsensor

@[simp] theorem sendEvents_sensor (s : Upsm) : s.sendEvents.sensor = s.sensor := by
  unfold sendEvents
  simp only [evaluateCorrelation_sensor]
  generalize ht : s.sendPresenceEvent s.sensor.curSensorState = t
  have hsensor : t.sensor = s.sensor := ht ▸ s.sendPresenceEvent_sensor _
  split <;> exact hsensor

@[simp] theorem correlationResetCallback_sensor (s : Upsm) :
    s.correlationResetCallback.sensor = s.sensor := by
  unfold correlationResetCallback
  simp only [sendPresenceEvent_sensor, signal_sensor]

/-! ## Readings, filtered and queued -/

/-- How the readings that wait go with the timer. -/
structure Settled (s : Sensor) : Prop where
  active_eq : s.eventFilteringTimerActive = s.armed
  enabled : s.armed = true → s.eventFilteringEnabled = true
  filtered : s.armed = true ↔ s.filteredSensorState ≠ upSensorStateInvalid
  queued : s.queuedSensorState ≠ upSensorStateInvalid →
    s.armed = true ∧ s.queuedSensorState < s.filteredSensorState

/-- The timer has to fire so many times until a reading is the reported one. -/
inductive Heading (data : UInt32) : Nat → Sensor → Prop
  | reported {s : Sensor} : s.armed = false → s.curSensorState = data → Heading data 0 s
  | filtered {s : Sensor} : s.armed = true → s.queuedSensorState = upSensorStateInvalid →
    s.filteredSensorState = data → Heading data 1 s
  | queued {s : Sensor} : s.armed = true → s.queuedSensorState ≠ upSensorStateInvalid →
    s.queuedSensorState = data → Heading data 2 s

/-- A reading that is reported is the state, and nothing waits any more. -/
theorem reportSensorEvent_spec (s : Upsm) (data : UInt32)
    (harmed : s.sensor.armed = true → s.sensor.eventFilteringEnabled = true)
    (hactive : s.sensor.eventFilteringTimerActive = true → s.sensor.eventFilteringEnabled = true) :
    Settled (s.reportSensorEvent data).sensor ∧
      Heading data 0 (s.reportSensorEvent data).sensor := by
  have hdone : ∀ t : Sensor, t.armed = false → t.eventFilteringTimerActive = false →
      t.curSensorState = data → t.filteredSensorState = upSensorStateInvalid →
      t.queuedSensorState = upSensorStateInvalid → Settled t ∧ Heading data 0 t := by
    intro t harm hact hcur hfilt hqueue
    refine ⟨⟨by rw [hact, harm], ?_, ?_, ?_⟩, .reported harm hcur⟩
    · intro h
      rw [harm] at h
      cases h
    · simp [harm, hfilt]
    · intro h
      exact absurd hqueue h
  unfold reportSensorEvent
  rw [sendEvents_sensor]
  by_cases henabled : s.sensor.eventFilteringEnabled = true
  · rw [if_pos henabled]
    exact hdone _ rfl rfl rfl rfl rfl
  · rw [if_neg henabled]
    have harm : s.sensor.armed = false := by
      by_contra h
      exact henabled (harmed (by simpa using h))
    have hact : s.sensor.eventFilteringTimerActive = false := by
      by_contra h
      exact henabled (hactive (by simpa using h))
    exact hdone _ harm hact rfl rfl rfl

/-- A filtered reading waits for the timer, or is reported if its window is of no time. -/
theorem startEventFiltering_spec {s : Upsm} {data : UInt32} (hdata : data ≠ upSensorStateInvalid)
    (hfilt : s.sensor.filteredSensorState = data)
    (hqueue : s.sensor.queuedSensorState = upSensorStateInvalid)
    (henabled : s.sensor.eventFilteringEnabled = true) :
    Settled (s.startEventFiltering data).sensor ∧
      ∃ n ≤ 1, Heading data n (s.startEventFiltering data).sensor := by
  unfold startEventFiltering
  split
  · obtain ⟨hsettled, hheading⟩ := reportSensorEvent_spec
      { s with sensor := { s.sensor with eventFilteringTimerActive := false } } data
      (fun _ => henabled) (fun _ => henabled)
    exact ⟨hsettled, 0, Nat.zero_le 1, hheading⟩
  · refine ⟨⟨rfl, fun _ => henabled, ?_, ?_⟩, 1, Nat.le_refl 1, .filtered rfl hqueue hfilt⟩
    · simp [hfilt, hdata]
    · intro h
      exact absurd hqueue h

/-- A reading that is to be filtered waits, in front of the timer or behind a higher one. -/
theorem filterSensorEvent_spec (h : Settled s.sensor) (hdata : data ≠ upSensorStateInvalid) :
    Settled (s.filterSensorEvent data).sensor ∧
      ∃ n ≤ 2, Heading data n (s.filterSensorEvent data).sensor := by
  unfold filterSensorEvent
  split
  · rename_i hactive
    have harm : s.sensor.armed = false := by rw [← h.active_eq, hactive]
    have hqueue : s.sensor.queuedSensorState = upSensorStateInvalid := by
      by_contra hne
      rw [(h.queued hne).1] at harm
      cases harm
    generalize ht : { s with
      sensor := { s.sensor with filteredSensorState := data } }.enableEventFiltering = t
    have hfields : t.sensor.filteredSensorState = data ∧
        t.sensor.queuedSensorState = upSensorStateInvalid ∧
        t.sensor.eventFilteringEnabled = true := by
      rw [← ht]
      unfold enableEventFiltering
      split
      · rename_i henabled
        exact ⟨rfl, hqueue, henabled⟩
      · exact ⟨rfl, hqueue, rfl⟩
    obtain ⟨hfilt, hqueue, henabled⟩ := hfields
    simp only [if_pos henabled, hfilt]
    obtain ⟨hsettled, n, hn, hheading⟩ := startEventFiltering_spec hdata hfilt hqueue henabled
    exact ⟨hsettled, n, by omega, hheading⟩
  · rename_i hactive
    have harm : s.sensor.armed = true := by
      rw [← h.active_eq]
      simpa using hactive
    split
    · rename_i hlt
      refine ⟨⟨h.active_eq, h.enabled, h.filtered, fun _ => ⟨harm, hlt⟩⟩, 2, Nat.le_refl 2,
        .queued harm hdata rfl⟩
    · refine ⟨⟨h.active_eq, h.enabled, ?_, ?_⟩, 1, by omega, .filtered harm rfl rfl⟩
      · simp [harm, hdata]
      · intro hne
        exact absurd rfl hne

/-- **A reading** is reported, or the machine is heading for it. -/
theorem handleSensorEvent_spec (h : Settled s.sensor) (data : UInt32) :
    Settled (s.handleSensorEvent data).sensor ∧
      ∃ n ≤ 2, Heading data n (s.handleSensorEvent data).sensor := by
  have henabled := h.enabled
  have hactive : s.sensor.eventFilteringTimerActive = true →
      s.sensor.eventFilteringEnabled = true := by
    rw [h.active_eq]
    exact henabled
  have hreport : Settled (s.reportSensorEvent data).sensor ∧
      ∃ n ≤ 2, Heading data n (s.reportSensorEvent data).sensor := by
    obtain ⟨hsettled, hheading⟩ := s.reportSensorEvent_spec data henabled hactive
    exact ⟨hsettled, 0, by omega, hheading⟩
  unfold handleSensorEvent
  split
  · split
    · exact hreport
    rename_i hvalid
    have hdata : data ≠ upSensorStateInvalid := fun heq => hvalid (Or.inr heq)
    split
    · -- the reading waits already; what was queued behind it is dropped
      rename_i hfilt
      have harm : s.sensor.armed = true := h.filtered.mpr (hfilt ▸ hdata)
      refine ⟨⟨h.active_eq, h.enabled, h.filtered, ?_⟩, 1, by omega, .filtered harm rfl hfilt.symm⟩
      intro hne
      exact absurd rfl hne
    split
    · exact filterSensorEvent_spec h hdata
    split
    · exact filterSensorEvent_spec h hdata
    · exact hreport
  · -- the reported state again: what waited was not to be
    rename_i hcur
    have hcur : s.sensor.curSensorState = data := (Decidable.not_not.mp hcur).symm
    have hdone : ∀ t : Sensor, t.armed = false → t.eventFilteringTimerActive = false →
        t.curSensorState = data →
        Settled { t with
          filteredSensorState := upSensorStateInvalid,
          queuedSensorState := upSensorStateInvalid } ∧
        ∃ n ≤ 2, Heading data n { t with
          filteredSensorState := upSensorStateInvalid,
          queuedSensorState := upSensorStateInvalid } := by
      intro t harm hact hstate
      refine ⟨⟨by rw [hact, harm], ?_, ?_, ?_⟩, 0, by omega, .reported harm hstate⟩
      · intro harm'
        rw [harm] at harm'
        cases harm'
      · simp [harm]
      · intro hne
        exact absurd rfl hne
    by_cases hen : s.sensor.eventFilteringEnabled = true
    · simp only [if_pos hen]
      exact hdone s.stopEventFiltering.sensor rfl rfl hcur
    · simp only [if_neg hen]
      have harm : s.sensor.armed = false := by
        by_contra hne
        exact hen (henabled (by simpa using hne))
      exact hdone s.sensor harm (by rw [h.active_eq, harm]) hcur

/-- **The timer fires**: the machine stays settled, and is a firing closer to the reading it
was heading for. -/
theorem stabilityWindowCallback_spec (h : Settled s.sensor) (harm : s.sensor.armed = true) :
    Settled s.stabilityWindowCallback.sensor ∧ ∀ data n, Heading data n s.sensor →
        ∃ m < n, Heading data m s.stabilityWindowCallback.sensor := by
  have henabled := h.enabled harm
  unfold stabilityWindowCallback
  simp only [sendEvents_sensor]
  split
  · rename_i hqueue
    obtain ⟨t, ht⟩ : ∃ t, t = { s with
      sensor :=
        { s.sensor with
          armed := false, curSensorState := s.sensor.filteredSensorState } }.sendEvents :=
      ⟨_, rfl⟩
    rw [← ht]
    have hstart := @startEventFiltering_spec { t with
      sensor :=
        { s.sensor with
          armed := false, curSensorState := s.sensor.filteredSensorState,
          filteredSensorState := s.sensor.queuedSensorState,
          queuedSensorState := upSensorStateInvalid } } _ hqueue rfl rfl henabled
    obtain ⟨hsettled, m, hm, hheading⟩ := hstart
    refine ⟨hsettled, fun data n hdata => ?_⟩
    cases hdata with
    | reported harm' _ =>
      rw [harm] at harm'
      cases harm'
    | filtered _ hnone _ => exact absurd hnone hqueue
    | queued _ _ hdata =>
      rw [hdata] at hheading
      exact ⟨m, by omega, hdata ▸ hheading⟩
  · rename_i hqueue
    have hqueue : s.sensor.queuedSensorState = upSensorStateInvalid := Decidable.not_not.mp hqueue
    refine ⟨⟨rfl, ?_, by simp, fun hne => absurd hqueue hne⟩, fun data n hdata => ?_⟩
    · intro harm'
      cases harm'
    · cases hdata with
      | reported harm' _ =>
        rw [harm] at harm'
        cases harm'
      | filtered _ _ hdata => exact ⟨0, by omega, .reported rfl hdata⟩
      | queued _ hne _ => exact absurd hqueue hne

/-! ## Runs -/

theorem settled_start (c : Settings) : Settled (start c).sensor := by
  unfold start
  rw [sendEvents_sensor]
  exact ⟨rfl, by simp, by simp, by simp⟩

/-- Every step keeps the machine settled. -/
theorem step_settled {a : Action} (hstep : step s a = some s') (h : Settled s.sensor) :
    Settled s'.sensor := by
  cases a with
  | sensor data =>
    cases hstep
    exact (handleSensorEvent_spec h data).1
  | interaction data =>
    cases hstep
    rwa [evaluateCorrelation_sensor]
  | stabilityWindow =>
    simp only [step] at hstep
    obtain ⟨harm, rfl⟩ := Option.ite_some_none_eq_some.1 hstep
    exact (stabilityWindowCallback_spec h harm).1
  | correlationReset =>
    simp only [step] at hstep
    obtain ⟨-, rfl⟩ := Option.ite_some_none_eq_some.1 hstep
    rwa [correlationResetCallback_sensor]

/-- Steps without a new reading lead on to the last one. -/
theorem step_heading {a : Action} (hstep : step s a = some s') (ha : ∀ data, a ≠ .sensor data)
    (h : Settled s.sensor) {n : Nat} (hheading : Heading data n s.sensor) :
    ∃ m ≤ n, Heading data m s'.sensor := by
  cases a with
  | sensor data => exact absurd rfl (ha data)
  | interaction data =>
    cases hstep
    rw [evaluateCorrelation_sensor]
    exact ⟨n, Nat.le_refl n, hheading⟩
  | stabilityWindow =>
    simp only [step] at hstep
    obtain ⟨harm, rfl⟩ := Option.ite_some_none_eq_some.1 hstep
    obtain ⟨m, hm, hheading⟩ := (stabilityWindowCallback_spec h harm).2 data n hheading
    exact ⟨m, Nat.le_of_lt hm, hheading⟩
  | correlationReset =>
    simp only [step] at hstep
    obtain ⟨-, rfl⟩ := Option.ite_some_none_eq_some.1 hstep
    rw [correlationResetCallback_sensor]
    exact ⟨n, Nat.le_refl n, hheading⟩

theorem run_heading {as : List Action} (has : ∀ a ∈ as, ∀ data, a ≠ .sensor data) :
    ∀ {s s' : Upsm} {n : Nat}, run step s as = some s' → Settled s.sensor →
      Heading data n s.sensor → ∃ m ≤ n, Heading data m s'.sensor := by
  induction as with
  | nil =>
    intro s s' n hrun _ hheading
    obtain rfl : s = s' := by simpa using hrun
    exact ⟨n, Nat.le_refl n, hheading⟩
  | cons a as ih =>
    intro s s' n hrun h hheading
    obtain ⟨t, hst, hrt⟩ := run_cons_eq_some hrun
    obtain ⟨m, hm, hheading⟩ := step_heading hst (has a (by simp)) h hheading
    obtain ⟨k, hk, hheading⟩ :=
      ih (fun b hb => has b (by simp [hb])) hrt (step_settled hst h) hheading
    exact ⟨k, Nat.le_trans hk hm, hheading⟩

/-- Heading for a reading, the timer fires no more often than is said until it is reported. -/
theorem fire_until_reported (n : Nat) : ∀ {s : Upsm}, Settled s.sensor →
    Heading data n s.sensor → ∃ k ≤ n, ∃ s',
      run step s (List.replicate k .stabilityWindow) = some s' ∧ s'.sensor.armed = false ∧
        s'.sensor.curSensorState = data := by
  induction n using Nat.strongRecOn with
  | ind n ih =>
    intro s h hheading
    by_cases harm : s.sensor.armed = true
    · obtain ⟨hsettled, hnext⟩ := stabilityWindowCallback_spec h harm
      obtain ⟨m, hm, hheading⟩ := hnext data n hheading
      obtain ⟨k, hk, s', hrun, hdone⟩ := ih m hm hsettled hheading
      refine ⟨k + 1, by omega, s', ?_, hdone⟩
      rw [List.replicate_succ, run_cons, step, if_pos harm]
      exact hrun
    · cases hheading with
      | reported harm' hcur => exact ⟨0, Nat.le_refl 0, s, rfl, harm', hcur⟩
      | filtered harm' _ _ => exact absurd harm' harm
      | queued harm' _ _ => exact absurd harm' harm

/-- **The machine converges to the last reading.**  Whatever has happened, a reading that is
queued waits for an armed timer, below the one in front of it.  And once the timer has fired
until it is not armed any more, which takes two firings at most, the last reading is the
reported one. -/
theorem upsm_converges {c : Settings} {as : List Action} {s : Upsm}
    (hrun : run step (start c) as = some s) :
    (s.sensor.queuedSensorState ≠ upSensorStateInvalid →
      s.sensor.armed = true ∧ s.sensor.queuedSensorState < s.sensor.filteredSensorState) ∧
    ∀ before data after, as = before ++ .sensor data :: after →
      (∀ a ∈ after, ∀ data', a ≠ .sensor data') →
      ∃ n ≤ 2, ∃ s', run step s (List.replicate n .stabilityWindow) = some s' ∧
        s'.sensor.armed = false ∧ s'.sensor.curSensorState = data := by
  have hinv : ∀ (t : Upsm) (a : Action) (t' : Upsm), step t a = some t' → Settled t.sensor →
      Settled t'.sensor := fun t a t' => step_settled
  have hs : Settled s.sensor := run_invariant hinv hrun (settled_start c)
  refine ⟨hs.queued, ?_⟩
  rintro before data after rfl hafter
  obtain ⟨t, hbefore, hrun⟩ := run_append_eq_some hrun
  have ht : Settled t.sensor := run_invariant hinv hbefore (settled_start c)
  obtain ⟨u, hstep, hrest⟩ := run_cons_eq_some hrun
  obtain rfl := Option.some.inj hstep
  obtain ⟨hu, n, hn, hheading⟩ := handleSensorEvent_spec ht data
  obtain ⟨m, hm, hheading⟩ := run_heading hafter hrest hu hheading
  obtain ⟨k, hk, hfired⟩ := fire_until_reported m hs hheading
  exact ⟨k, by omega, hfired⟩

/-- Engaged is reported, then disengaged is filtered and absence queued behind it. -/
def leaving : List Action := [.sensor 2, .sensor 1, .sensor 0]

theorem upsm_converges_leaving :
    ∃ n ≤ 2, ∃ s', run step ((run step (start ⟨true, false, 5000, 5000, 0⟩) leaving).getD
        (start ⟨true, false, 5000, 5000, 0⟩)) (List.replicate n .stabilityWindow) = some s' ∧
      s'.sensor.armed = false ∧ s'.sensor.curSensorState = 0 :=
  (upsm_converges (by decide +kernel :
    run step (start ⟨true, false, 5000, 5000, 0⟩) leaving = some _)).2
    [.sensor 2, .sensor 1] 0 [] rfl (by simp)

end Upsm

end Uf

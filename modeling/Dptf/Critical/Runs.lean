import Dptf.Critical.Protection

/-!
# Runs of the critical policy

* `criticalProtection` — **a run protects if and only if it is undisturbed**.
-/

open Lib

namespace Critical

open Thermal

/-! ## Participants at their trip point `Critical` -/

namespace Participant

variable {participant : Participant} {services : Services} {q : Nat}

/-- The temperature of the participant can be read and is at its trip point `Critical`. -/
def AtCritical (participant : Participant) (services : Services) (q : Nat) : Prop :=
  ∃ t tripPoints trip,
    participant.getFirstDomainTemperature (services.getCurrentTemperature q) = some t ∧
    participant.getTripPoints (services.getParticipantSpecificInfo q) =
      some (tripPoints : CriticalTripPoints) ∧
    tripPoints.specificInfo.find .critical = some trip ∧ trip.IsReading ∧ trip ≤ t

/-- Such a participant has the desired properties. -/
theorem AtCritical.desired (h : participant.AtCritical services q) :
    participant.participantHasDesiredProperties (services.getParticipantSpecificInfo q) = true := by
  obtain ⟨t, tripPoints, trip, ht, htrips, hfind, hreading, -⟩ := h
  unfold participantHasDesiredProperties supportsTemperatureInterface supportsProperty
  rw [Bool.and_eq_true]
  constructor
  · obtain ⟨domain, hdomain, -⟩ := Option.bind_eq_some_iff.mp ht
    rw [List.any_eq_true]
    have himplements := List.find?_some hdomain
    exact ⟨domain.2, List.mem_map.mpr ⟨domain, List.mem_of_find?_eq_some hdomain, rfl⟩, himplements⟩
  · rw [htrips]
    simp only [List.any_cons, hfind, hreading, decide_true, Bool.or_true, Bool.true_or]

/-- `Critical` is found to be crossed, if the thresholds can be set. -/
theorem AtCritical.assess (h : participant.AtCritical services q) :
    participant.assess services q =
      if participant.setsThresholds services q then .crosses .critical else .fails := by
  have hdesired := h.desired
  obtain ⟨t, tripPoints, trip, ht, htrips, hfind, -, hle⟩ := h
  unfold Participant.assess
  rw [if_pos hdesired, ht, htrips]
  simp only
  rw [tripPoints.findTripPointCrossed_critical t hfind hle]

end Participant

namespace CriticalPolicy

variable (s : CriticalPolicy) (services : Services)

/-- The same of a participant that is tracked. -/
def AtCritical (q : Nat) : Prop :=
  ∃ participant, s.participants.find q = some participant ∧ participant.AtCritical services q

/-- The thresholds of a participant that is tracked can be set. -/
def SetsThresholds (q : Nat) : Prop :=
  ∀ participant, s.participants.find q = some participant →
    participant.setsThresholds services q = true

/-- Outside the emergency call mode, power action is due to it if its thresholds can be set. -/
theorem AtCritical.due_iff {s : CriticalPolicy} {services : Services} {q : Nat}
    (h : s.AtCritical services q) (hmode : s.inEmergencyCallMode = false) :
    s.Due services q .critical ↔ s.SetsThresholds services q := by
  obtain ⟨participant, hfind, hcritical⟩ := h
  unfold Due CriticalPolicy.assess SetsThresholds
  rw [hfind]
  simp only [hmode, true_and, Option.some.injEq, forall_eq', hcritical.assess]
  cases participant.setsThresholds services q <;> simp

/-! ## Events -/

/-- Whom an event has evaluated, and the state in which that begins. -/
def evaluation : Event → Option (List Nat × CriticalPolicy)
  | .bindDomain p d =>
    (s.participants.find p).bind fun participant =>
      ((services.getDomainPropertiesSet p).bind fun set => set.find d).map fun domain =>
        let bound := { participant with domains := participant.domains.assign d domain }
        ([p], { s with participants := s.participants.assign p bound })
  | .operatingSystemEmergencyCallModeChanged false =>
    if s.inEmergencyCallMode then
      some (s.getAllTrackedIndexes, { s with inEmergencyCallMode := false })
    else none
  | .participantSpecificInfoChanged p =>
    (s.participants.find p).bind fun participant =>
      (participant.getTripPoints (services.getParticipantSpecificInfo p)).bind fun oldTrips =>
        (services.refreshParticipantSpecificInfo p).bind fun newTrips =>
          let new := { participant with criticalTripPoints := some newTrips }
          if services.refreshHysteresis p ∧
              oldTrips.specificInfo.entries ≠ newTrips.specificInfo.entries then
            some ([p], { s with participants := s.participants.assign p new })
          else none
  | .domainTemperatureThresholdCrossed p => (s.participants.find p).map fun _ => ([p], s)
  | .timer =>
    some (s.getAllTrackedIndexes,
      { s with
        scheduler := s.scheduler.fire
        sleepRequested := false
        hibernateRequested := false
        isTimerStarted := false })
  | _ => none

variable {s services}

/-- An event that has participants evaluated does nothing else. -/
theorem handle_of_evaluation {e : Event} {participants : List Nat} {start : CriticalPolicy}
    (h : s.evaluation services e = some (participants, start)) (hpending : s.PendingArmed) :
    handle s services e = Attempt.each (evaluate services) participants start ∧
      start.PendingArmed := by
  cases e with
  | bindDomain p d =>
    obtain ⟨participant, hfind, h⟩ := Option.bind_eq_some_iff.mp h
    obtain ⟨domain, hdomain, heq⟩ := Option.map_eq_some_iff.mp h
    obtain ⟨rfl, rfl⟩ := Prod.mk.inj heq
    refine ⟨?_, hpending⟩
    rw [Attempt.each_singleton, handle, onBindDomain, hfind]
    simp only
    rw [hdomain]
  | operatingSystemEmergencyCallModeChanged mode =>
    cases mode with
    | true => cases h
    | false =>
      rw [evaluation] at h
      by_cases hmode : s.inEmergencyCallMode = true
      · rw [if_pos hmode] at h
        cases h
        refine ⟨?_, hpending⟩
        rw [handle, onOperatingSystemEmergencyCallModeChanged, if_neg Bool.false_ne_true,
          if_pos hmode]
        rfl
      · rw [if_neg hmode] at h
        cases h
  | participantSpecificInfoChanged p =>
    obtain ⟨participant, hfind, h⟩ := Option.bind_eq_some_iff.mp h
    obtain ⟨oldTrips, hold, h⟩ := Option.bind_eq_some_iff.mp h
    obtain ⟨newTrips, hnew, h⟩ := Option.bind_eq_some_iff.mp h
    simp only at h
    by_cases hchanged : services.refreshHysteresis p = true ∧
        oldTrips.specificInfo.entries ≠ newTrips.specificInfo.entries
    · rw [if_pos hchanged] at h
      cases h
      refine ⟨?_, hpending⟩
      rw [Attempt.each_singleton, handle, onParticipantSpecificInfoChanged, hfind]
      simp only [hold, hnew]
      rw [if_neg (by simp [hchanged.1]), if_pos hchanged.2]
    · rw [if_neg hchanged] at h
      cases h
  | domainTemperatureThresholdCrossed p =>
    obtain ⟨participant, hfind, heq⟩ := Option.map_eq_some_iff.mp h
    obtain ⟨rfl, rfl⟩ := Prod.mk.inj heq
    refine ⟨?_, hpending⟩
    rw [Attempt.each_singleton, handle, onDomainTemperatureThresholdCrossed, hfind]
  | timer =>
    cases h
    refine ⟨rfl, ?_⟩
    rintro (hsleep | hhibernate)
    · cases hsleep
    · cases hhibernate
  | bindParticipant p => cases h
  | unbindParticipant p => cases h
  | unbindDomain p d => cases h
  | resume => cases h

/-- An event that has nobody evaluated leaves the watchdog. -/
theorem pendingArmed_of_no_evaluation {e : Event} (h : s.evaluation services e = none)
    (hpending : s.PendingArmed) : (handle s services e).state.PendingArmed := by
  cases e with
  | bindParticipant p =>
    rw [handle, onBindParticipant]
    split
    · exact hpending
    · split
      · exact hpending
      · exact hpending
  | unbindParticipant p => exact hpending
  | bindDomain p d =>
    rw [handle, onBindDomain]
    split
    · exact hpending
    · next participant hfind =>
      split
      · exact hpending
      · next domain hdomain =>
        rw [evaluation, hfind, Option.bind_some, hdomain] at h
        cases h
  | unbindDomain p d =>
    rw [handle, onUnbindDomain]
    split
    · exact hpending
    · split
      · exact hpending
      · exact hpending
  | operatingSystemEmergencyCallModeChanged mode =>
    cases mode with
    | true => exact hpending
    | false =>
      by_cases hmode : s.inEmergencyCallMode = true
      · rw [evaluation, if_pos hmode] at h
        cases h
      · rw [handle, onOperatingSystemEmergencyCallModeChanged, if_neg Bool.false_ne_true,
          if_neg hmode]
        exact hpending
  | participantSpecificInfoChanged p =>
    rw [handle, onParticipantSpecificInfoChanged]
    split
    · exact hpending
    · next participant hfind =>
      split
      · exact hpending
      · next oldTrips hold =>
        simp only
        split
        · exact hpending
        · next newTrips hnew =>
          by_cases hhysteresis : services.refreshHysteresis p = false
          · rw [if_pos hhysteresis]
            exact hpending
          · rw [if_neg hhysteresis]
            by_cases hchanged :
                oldTrips.specificInfo.entries ≠ newTrips.specificInfo.entries
            · rw [evaluation, hfind, Option.bind_some, hold, Option.bind_some, hnew,
                Option.bind_some] at h
              simp only at h
              rw [if_pos ⟨by simpa using hhysteresis, hchanged⟩] at h
              cases h
            · rw [if_neg hchanged]
              exact hpending
  | domainTemperatureThresholdCrossed p =>
    rw [handle, onDomainTemperatureThresholdCrossed]
    split
    · exact hpending
    · next participant hfind =>
      rw [evaluation, hfind] at h
      cases h
  | timer => cases h
  | resume =>
    rintro (hsleep | hhibernate)
    · cases hsleep
    · cases hhibernate

/-! ## Runs -/

/-- The event has all participants re-evaluated outside the emergency call mode. -/
def ReEvaluates (s : CriticalPolicy) : Event → Prop
  | .operatingSystemEmergencyCallModeChanged false => s.inEmergencyCallMode = true
  | .timer => s.inEmergencyCallMode = false
  | _ => False

/-- Then it is outside from the start. -/
theorem evaluation_of_reEvaluates (services : Services) {e : Event} (h : s.ReEvaluates e) :
    ∃ start, s.evaluation services e = some (s.getAllTrackedIndexes, start) ∧
      start.inEmergencyCallMode = false ∧ start.participants = s.participants := by
  cases e with
  | operatingSystemEmergencyCallModeChanged mode =>
    cases mode with
    | true => cases h
    | false => exact ⟨_, if_pos h, rfl, rfl⟩
  | timer => exact ⟨_, rfl, h, rfl⟩
  | _ => cases h

/-- **What the policy protects from**: behind an event no request is pending without the watchdog,
and if all participants are re-evaluated, each at its trip point `Critical` leads to a request to
shut down. -/
def Protects (s : CriticalPolicy) (action : Event × Services) : Prop :=
  ∀ s', step s action = some s' → s'.PendingArmed ∧
    (s.ReEvaluates action.1 → ∀ q, s.AtCritical action.2 q →
      ShutsDown (handle s action.2 action.1) q)

/-- **No exception comes in between**: where the watchdog is not set, the platform takes the first
request to sleep or to hibernate; and in a re-evaluation, for a participant at its trip point
`Critical` thresholds can be set and no evaluation before its turn throws. -/
def Undisturbed (s : CriticalPolicy) (action : Event × Services) : Prop :=
  (action.1 = .timer → s.Armed) →
  ∀ participants start, s.evaluation action.2 action.1 = some (participants, start) →
    Timed action.2 start participants ∧
    (s.ReEvaluates action.1 → ∀ q, s.AtCritical action.2 q →
      s.SetsThresholds action.2 q ∧ Reached action.2 start participants q)

end CriticalPolicy

open CriticalPolicy

theorem step_eq_some_iff {s s' : CriticalPolicy} {action : Event × Services} :
    step s action = some s' ↔
      (action.1 = .timer → s.Armed) ∧ (handle s action.2 action.1).state = s' := by
  unfold step
  by_cases h : action.1 = .timer ∧ s.scheduler.outstanding = []
  · rw [if_pos h]
    exact iff_of_false (by simp) fun hs => hs.1 h.1 h.2
  · rw [if_neg h, Option.some.injEq]
    exact ⟨fun hs => ⟨fun htimer hempty => h ⟨htimer, hempty⟩, hs⟩, And.right⟩

/-- Where all are re-evaluated, a participant at its trip point `Critical` leads to a request to
shut down just if its thresholds can be set and its turn comes. -/
theorem shutsDown_iff {s : CriticalPolicy} {services : Services} {e : Event}
    {participants : List Nat} {start : CriticalPolicy}
    (hevaluation : s.evaluation services e = some (participants, start))
    (hstart : start.PendingArmed) (hall : s.ReEvaluates e) {q : Nat}
    (hcritical : s.AtCritical services q) :
    ShutsDown (Attempt.each (evaluate services) participants start) q ↔
      s.SetsThresholds services q ∧ Reached services start participants q := by
  obtain ⟨start', hsome, hmode, hparticipants⟩ := evaluation_of_reEvaluates services hall
  rw [hevaluation] at hsome
  cases hsome
  rw [shutsDown_each_iff hstart]
  unfold AtCritical at hcritical
  unfold SetsThresholds
  rw [← hparticipants] at hcritical ⊢
  exact and_congr_left fun _ => AtCritical.due_iff hcritical hmode

/-- **One event.** -/
theorem protects_iff (s : CriticalPolicy) (action : Event × Services) (h : s.PendingArmed) :
    s.Protects action ↔ s.Undisturbed action := by
  obtain ⟨e, services⟩ := action
  unfold Protects Undisturbed
  simp only [step_eq_some_iff]
  cases hevaluation : s.evaluation services e with
  | none =>
    refine iff_of_true ?_ (by simp)
    rintro s' ⟨-, rfl⟩
    refine ⟨pendingArmed_of_no_evaluation hevaluation h, fun hall => ?_⟩
    obtain ⟨start, hsome, -⟩ := evaluation_of_reEvaluates services hall
    rw [hevaluation] at hsome
    cases hsome
  | some row =>
    obtain ⟨participants, start⟩ := row
    obtain ⟨heq, hstart⟩ := handle_of_evaluation hevaluation h
    rw [heq]
    constructor
    · rintro hprotects hpossible participants' start' hrow
      cases hrow
      obtain ⟨hpending, hshut⟩ := hprotects _ ⟨hpossible, rfl⟩
      exact ⟨(pendingArmed_each_iff hstart).mp hpending, fun hall q hcritical =>
        (shutsDown_iff hevaluation hstart hall hcritical).mp (hshut hall q hcritical)⟩
    · rintro hundisturbed s' ⟨hpossible, rfl⟩
      obtain ⟨htimed, hreached⟩ := hundisturbed hpossible participants start rfl
      exact ⟨(pendingArmed_each_iff hstart).mpr htimed, fun hall q hcritical =>
        (shutsDown_iff hevaluation hstart hall hcritical).mpr (hreached hall q hcritical)⟩

theorem pendingArmed_create : create.PendingArmed := by
  rintro (hsleep | hhibernate)
  · cases hsleep
  · cases hhibernate

/-- **In which runs critical protection is not lost**: those that are undisturbed. -/
theorem criticalProtection (actions : List (Event × Services)) :
    EveryStep step Protects create actions ↔ EveryStep step Undisturbed create actions := by
  refine everyStep_congr_of_ok (fun s action s' hundisturbed hstep h => ?_) protects_iff
    pendingArmed_create actions
  exact (((protects_iff s action h).mpr hundisturbed) s' hstep).1

/-! ## Two disturbed runs -/

/-- A table with one trip point, at 50 degrees. -/
def oneTripPoint (key : ParticipantSpecificInfoKey)
    (hkey : key = .warm ∨ key = .hot ∨ key = .critical) : CriticalTripPoints where
  specificInfo := KeyMap.empty.assign key ⟨3232, Temperature.valid_fifty⟩
  sortedTripPointsByKey := [(key, ⟨3232, Temperature.valid_fifty⟩)]
  sortedTripPointsByValue := [(key, ⟨3232, Temperature.valid_fifty⟩)]
  byKey_perm := .refl _
  byKey_sorted := by simp
  byValue_perm := .refl _
  byValue_sorted := by simp
  isCritical := by
    rintro trip htrip
    rw [List.mem_singleton.mp htrip]
    exact hkey

/-- Services that work, for participants with a temperature of 60 degrees. -/
def workingServices (tripPoints : CriticalTripPoints) : Services where
  getParticipantProperties _ := some "TCPU"
  getDomainPropertiesSet _ := some (KeyMap.empty.assign 0 ⟨true, true⟩)
  getParticipantSpecificInfo _ := some tripPoints
  refreshParticipantSpecificInfo _ := some tripPoints
  refreshHysteresis _ := true
  getCurrentTemperature _ _ := some ⟨3332, Temperature.valid_sixty⟩
  setTemperatureThresholds _ := true
  sleep _ := true
  hibernate _ := true
  shutDown _ := true

/-- Services that work, but for a platform that does not go to sleep. -/
def sleeplessServices : Services :=
  { workingServices (oneTripPoint .warm (.inl rfl)) with sleep := fun _ => false }

/-- Services that work. -/
def criticalServices : Services := workingServices (oneTripPoint .critical (.inr (.inr rfl)))

/-- The same, but for the temperature of the first participant. -/
def unreadServices : Services :=
  { criticalServices with
    getCurrentTemperature := fun p _ => if p = 0 then none else some ⟨3332, Temperature.valid_sixty⟩ }

/-- The platform does not go to sleep: the request is pending, and the watchdog is not set.  And
where the temperature of the first of two participants cannot be read, nobody asks to shut down for
the second one. -/
theorem criticalProtection_fails :
    (∃ s, run step create
      [(.bindParticipant 0, sleeplessServices), (.bindDomain 0 0, sleeplessServices)] = some s ∧
      s.sleepRequested = true ∧ ¬s.Armed) ∧
    ∃ s, run step create
      [(.bindParticipant 0, criticalServices), (.bindDomain 0 0, criticalServices),
        (.bindParticipant 1, criticalServices), (.bindDomain 1 0, criticalServices)] = some s ∧
      ¬s.Protects (.timer, unreadServices) := by
  refine ⟨⟨_, rfl, rfl, not_not.mpr rfl⟩, _, rfl, fun hprotects => ?_⟩
  obtain ⟨-, hshut⟩ := hprotects _ rfl
  have hcritical : ShutsDown _ 1 := hshut rfl 1
    ⟨_, rfl, _, _, _, rfl, rfl, rfl, fun h => absurd (congrArg Subtype.val h) (by decide),
      Temperature.le_iff.mpr (by decide)⟩
  obtain ⟨t, trip, name, hmem⟩ := hcritical
  exact absurd hmem List.not_mem_nil

end Critical

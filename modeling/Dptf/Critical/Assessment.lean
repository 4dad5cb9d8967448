import Dptf.Critical.Policy

/-!
# What the critical policy finds about a participant

* `evaluate_cases` — **an evaluation** is what `takePowerAction` does about what is found.
-/

open Lib

namespace Critical

open Thermal

/-! ## The trip point that is crossed -/

section Crossed

/-- The loop keeps the greatest of the keys and the one that it starts with. -/
theorem foldl_crossed (trips : List TripPoint) (crossedTripPoint : ParticipantSpecificInfoKey) :
    let crossed := trips.foldl
      (fun crossedTripPoint tp => if tp.1 > crossedTripPoint then tp.1 else crossedTripPoint)
      crossedTripPoint
    (crossed = crossedTripPoint ∨ ∃ tp ∈ trips, tp.1 = crossed) ∧ crossedTripPoint ≤ crossed ∧
      ∀ tp ∈ trips, tp.1 ≤ crossed := by
  induction trips generalizing crossedTripPoint with
  | nil => simp
  | cons tp trips ih =>
    obtain ⟨hmem, hle, hall⟩ :=
      ih (if tp.1 > crossedTripPoint then tp.1 else crossedTripPoint)
    rw [List.foldl_cons]
    refine ⟨?_, ?_, ?_⟩
    · rcases hmem with hmem | ⟨tp', htp', hmem⟩
      · rw [hmem]
        split
        · exact .inr ⟨tp, List.mem_cons_self, rfl⟩
        · exact .inl rfl
      · exact .inr ⟨tp', List.mem_cons_of_mem tp htp', hmem⟩
    · refine le_trans ?_ hle
      split
      · exact le_of_lt ‹_›
      · exact le_rfl
    · intro tp' htp'
      rcases List.mem_cons.mp htp' with rfl | htp'
      · refine le_trans ?_ hle
        split
        · exact le_rfl
        · exact not_lt.mp ‹_›
      · exact hall tp' htp'

variable (trips : List TripPoint) (t : Temperature)

/-- It is none or the key of a trip point that is reached. -/
theorem findTripPointCrossed_mem :
    findTripPointCrossed trips t = .none ∨
      ∃ tp ∈ reachedTripPoints trips t, tp.1 = findTripPointCrossed trips t :=
  (foldl_crossed (reachedTripPoints trips t) .none).1

/-- No trip point that is reached has a greater key. -/
theorem le_findTripPointCrossed {tp : TripPoint} (h : tp ∈ reachedTripPoints trips t) :
    tp.1 ≤ findTripPointCrossed trips t :=
  (foldl_crossed (reachedTripPoints trips t) .none).2.2 tp h

variable {trips t}

/-- Among ascending temperatures, what is at most the current one is reached. -/
theorem mem_reachedTripPoints (hsorted : trips.Pairwise fun a b => a.2 ≤ b.2) {tp : TripPoint}
    (hmem : tp ∈ trips) (hle : tp.2 ≤ t) : tp ∈ reachedTripPoints trips t := by
  induction trips with
  | nil => cases hmem
  | cons first trips ih =>
    have hfirst : first.2 ≤ t := by
      rcases List.mem_cons.mp hmem with rfl | hmem
      · exact hle
      · exact ((List.pairwise_cons.mp hsorted).1 tp hmem).trans hle
    rw [reachedTripPoints, List.takeWhile_cons, if_pos (decide_eq_true hfirst)]
    rcases List.mem_cons.mp hmem with rfl | hmem
    · exact List.mem_cons_self
    · exact List.mem_cons_of_mem _ (ih (List.pairwise_cons.mp hsorted).2 hmem)

end Crossed

/-- What the policy can find to be crossed. -/
def powerTripPoints : List ParticipantSpecificInfoKey := [.none, .warm, .hot, .critical]

namespace CriticalTripPoints

variable (tripPoints : CriticalTripPoints) (t : Temperature)

/-- What is crossed is `Warm`, `Hot` or `Critical`, and it has a temperature. -/
theorem findTripPointCrossed_cases :
    findTripPointCrossed tripPoints.sortedTripPointsByValue t = .none ∨
    (∃ trip, tripPoints.specificInfo.find
      (findTripPointCrossed tripPoints.sortedTripPointsByValue t) = some trip) ∧
    (findTripPointCrossed tripPoints.sortedTripPointsByValue t = .warm ∨
      findTripPointCrossed tripPoints.sortedTripPointsByValue t = .hot ∨
      findTripPointCrossed tripPoints.sortedTripPointsByValue t = .critical) := by
  rcases findTripPointCrossed_mem tripPoints.sortedTripPointsByValue t with h | ⟨tp, htp, h⟩
  · exact .inl h
  · have hmem : tp ∈ tripPoints.specificInfo.entries :=
      tripPoints.byValue_perm.subset ((List.takeWhile_sublist _).subset htp)
    rw [← h]
    exact .inr ⟨⟨tp.2, (tripPoints.specificInfo.mem_entries_iff tp.1 tp.2).mp hmem⟩,
      tripPoints.isCritical tp hmem⟩

theorem findTripPointCrossed_mem_power :
    findTripPointCrossed tripPoints.sortedTripPointsByValue t ∈ powerTripPoints := by
  rcases tripPoints.findTripPointCrossed_cases t with h | ⟨-, h | h | h⟩ <;> rw [h] <;> decide

/-- At the temperature of `Critical` it is `Critical`. -/
theorem findTripPointCrossed_critical {trip : Temperature}
    (hfind : tripPoints.specificInfo.find .critical = some trip) (hle : trip ≤ t) :
    findTripPointCrossed tripPoints.sortedTripPointsByValue t = .critical := by
  have hmem : (ParticipantSpecificInfoKey.critical, trip) ∈ tripPoints.sortedTripPointsByValue :=
    tripPoints.byValue_perm.mem_iff.mpr ((tripPoints.specificInfo.mem_entries_iff _ _).mpr hfind)
  have hge : .critical ≤ findTripPointCrossed tripPoints.sortedTripPointsByValue t :=
    le_findTripPointCrossed _ t (mem_reachedTripPoints tripPoints.byValue_sorted hmem hle)
  rcases tripPoints.findTripPointCrossed_cases t with h | ⟨-, h | h | h⟩
  · exact absurd (h ▸ hge) (by decide)
  · exact absurd (h ▸ hge) (by decide)
  · exact absurd (h ▸ hge) (by decide)
  · exact h

end CriticalTripPoints

/-! ## Assessments -/

/-- What is found about a participant. -/
inductive Assessment
  | passedOver
  | fails
  | crosses (tripPoint : ParticipantSpecificInfoKey)
deriving DecidableEq

namespace Participant

variable (participant : Participant) (services : Services) (participantIndex : Nat)

/-- The thresholds of the participant can be set, or there are none. -/
def setsThresholds : Bool :=
  !participant.supportsTemperatureThresholds || services.setTemperatureThresholds participantIndex

/-- What is found about a participant that is tracked. -/
def assess : Assessment :=
  if participant.participantHasDesiredProperties
      (services.getParticipantSpecificInfo participantIndex) then
    match participant.getFirstDomainTemperature (services.getCurrentTemperature participantIndex),
      participant.getTripPoints (services.getParticipantSpecificInfo participantIndex) with
    | some currentTemperature, some tripPoints =>
      if participant.setsThresholds services participantIndex then
        .crosses (findTripPointCrossed tripPoints.sortedTripPointsByValue currentTemperature)
      else .fails
    | _, _ => .fails
  else .passedOver

theorem getTripPoints_tested (read : Option CriticalTripPoints) :
    (participant.tested read).getTripPoints read = participant.getTripPoints read := by
  unfold tested cached getTripPoints
  split
  · cases participant.criticalTripPoints with
    | none => cases read <;> rfl
    | some tripPoints => rfl
  · rfl

theorem domains_tested (read : Option CriticalTripPoints) :
    (participant.tested read).domains = participant.domains := by
  unfold tested cached
  split <;> rfl

theorem participantHasDesiredProperties_tested (read : Option CriticalTripPoints) :
    (participant.tested read).participantHasDesiredProperties read =
      participant.participantHasDesiredProperties read := by
  unfold participantHasDesiredProperties supportsTemperatureInterface supportsProperty
  rw [getTripPoints_tested, domains_tested]

/-- The test changes nothing that an evaluation reads. -/
theorem assess_tested :
    (participant.tested (services.getParticipantSpecificInfo participantIndex)).assess services
      participantIndex = participant.assess services participantIndex := by
  unfold assess getFirstDomainTemperature setsThresholds supportsTemperatureThresholds
  simp only [getTripPoints_tested, domains_tested, participantHasDesiredProperties_tested]

end Participant

/-- Thresholds are asked for. -/
def Request.IsThresholds : Request → Prop
  | .setTemperatureThresholds _ _ => True
  | _ => False

namespace CriticalPolicy

variable (s : CriticalPolicy) (services : Services)

/-- What is found about a participant. -/
def assess (participantIndex : Nat) : Assessment :=
  match s.participants.find participantIndex with
  | none => .fails
  | some participant => participant.assess services participantIndex

/-- Two states differ only in trip points that are cached. -/
structure SameView (s s' : CriticalPolicy) : Prop where
  sleepRequested : s'.sleepRequested = s.sleepRequested
  hibernateRequested : s'.hibernateRequested = s.hibernateRequested
  inEmergencyCallMode : s'.inEmergencyCallMode = s.inEmergencyCallMode
  scheduler : s'.scheduler = s.scheduler
  assess : ∀ q, s'.assess services q = s.assess services q

theorem SameView.refl : SameView services s s := ⟨rfl, rfl, rfl, rfl, fun _ => rfl⟩

/-- The test of a participant leaves the view. -/
theorem sameView_tested {q : Nat} {participant : Participant}
    (hfind : s.participants.find q = some participant) :
    let tested := participant.tested (services.getParticipantSpecificInfo q)
    SameView services s { s with participants := s.participants.assign q tested } := by
  refine ⟨rfl, rfl, rfl, rfl, fun q' => ?_⟩
  unfold CriticalPolicy.assess
  simp only [KeyMap.find_assign]
  by_cases hq : q' = q
  · rw [hq, if_pos rfl, hfind]
    exact participant.assess_tested services q
  · rw [if_neg hq]

theorem setNotification_eq (q : Nat) (t : Temperature) (tripPoints : SpecificInfo)
    (participant : Participant) :
    ∃ asked : List (Nat × Request), (∀ r ∈ asked, r.2.IsThresholds) ∧
      s.setParticipantTemperatureThresholdNotification services q t tripPoints participant =
        ⟨s, asked, !participant.setsThresholds services q⟩ := by
  unfold setParticipantTemperatureThresholdNotification Participant.setsThresholds
  cases participant.supportsTemperatureThresholds with
  | true =>
    refine ⟨[(q, .setTemperatureThresholds (window tripPoints t).1 (window tripPoints t).2)],
      by simp [Request.IsThresholds], ?_⟩
    rw [Bool.not_true, Bool.false_or]
    rfl
  | false => exact ⟨[], by simp, rfl⟩

/-- What is done about a participant whose temperature and trip points are read. -/
theorem takePowerActionBasedOnThermalState_cases {q : Nat} {participant : Participant}
    {t : Temperature} {tripPoints : CriticalTripPoints}
    (ht : participant.getFirstDomainTemperature (services.getCurrentTemperature q) = some t)
    (htrips : participant.getTripPoints (services.getParticipantSpecificInfo q) = some tripPoints) :
    ∃ asked : List (Nat × Request), (∀ r ∈ asked, r.2.IsThresholds) ∧
      (participant.setsThresholds services q = false →
        s.takePowerActionBasedOnThermalState services q participant = ⟨s, asked, true⟩) ∧
      (participant.setsThresholds services q = true → ∃ trip,
        s.takePowerActionBasedOnThermalState services q participant =
          Attempt.after asked (s.takePowerAction services q t
            (findTripPointCrossed tripPoints.sortedTripPointsByValue t) trip
            participant.name)) := by
  obtain ⟨asked, hasked, hset⟩ :=
    s.setNotification_eq services q t tripPoints.toSpecificInfo participant
  unfold takePowerActionBasedOnThermalState
  rw [ht, htrips]
  simp only
  rw [hset]
  refine ⟨asked, hasked, fun hfails => ?_, fun hsets => ?_⟩
  · rw [hfails]
    rfl
  · rw [hsets]
    rcases tripPoints.findTripPointCrossed_cases t with hnone | ⟨⟨trip, hfind⟩, hkey⟩
    · refine ⟨none, ?_⟩
      rw [hnone]
      rfl
    · refine ⟨some trip, ?_⟩
      have hne : findTripPointCrossed tripPoints.sortedTripPointsByValue t ≠ .none := by
        rcases hkey with h | h | h <;> rw [h] <;> decide
      rw [Attempt.bind_of_not_thrown rfl]
      simp only
      rw [if_pos hne, hfind]

/-- **An evaluation** comes to what `takePowerAction` does about what is found. -/
theorem evaluate_cases (q : Nat) :
    ∃ (s' : CriticalPolicy) (asked : List (Nat × Request)), SameView services s s' ∧
      (∀ r ∈ asked, r.2.IsThresholds) ∧
      match s.assess services q with
      | .passedOver => evaluate services q s = ⟨s', asked, false⟩
      | .fails => evaluate services q s = ⟨s', asked, true⟩
      | .crosses tripPoint => tripPoint ∈ powerTripPoints ∧ ∃ t trip name,
          evaluate services q s =
            Attempt.after asked (s'.takePowerAction services q t tripPoint trip name) := by
  cases hfind : s.participants.find q with
  | none =>
    refine ⟨s, [], .refl s services, by simp, ?_⟩
    unfold CriticalPolicy.assess evaluate
    rw [hfind]
    rfl
  | some participant =>
    have hview := s.sameView_tested services hfind
    have htested := participant.assess_tested services q
    unfold CriticalPolicy.assess evaluate
    rw [hfind]
    simp only at hview ⊢
    rw [← htested]
    unfold Participant.assess
    rw [Participant.participantHasDesiredProperties_tested]
    generalize participant.tested (services.getParticipantSpecificInfo q) = tested at hview ⊢
    by_cases hdesired : participant.participantHasDesiredProperties
        (services.getParticipantSpecificInfo q) = true
    · rw [if_pos hdesired, if_pos hdesired]
      cases ht : tested.getFirstDomainTemperature (services.getCurrentTemperature q) with
      | none =>
        refine ⟨_, [], hview, by simp, ?_⟩
        unfold takePowerActionBasedOnThermalState
        rw [ht]
        rfl
      | some t =>
        cases htrips : tested.getTripPoints (services.getParticipantSpecificInfo q) with
        | none =>
          refine ⟨_, [], hview, by simp, ?_⟩
          unfold takePowerActionBasedOnThermalState
          rw [ht, htrips]
          rfl
        | some tripPoints =>
          obtain ⟨asked, hasked, hfails, hsets⟩ :=
            takePowerActionBasedOnThermalState_cases _ services ht htrips
          refine ⟨_, asked, hview, hasked, ?_⟩
          simp only
          cases hthresholds : tested.setsThresholds services q with
          | false => exact hfails hthresholds
          | true =>
            obtain ⟨trip, heq⟩ := hsets hthresholds
            exact ⟨tripPoints.findTripPointCrossed_mem_power t, t, trip, tested.name, heq⟩
    · refine ⟨_, [], hview, by simp, ?_⟩
      rw [if_neg hdesired, if_neg hdesired]
      rfl

end CriticalPolicy

end Critical

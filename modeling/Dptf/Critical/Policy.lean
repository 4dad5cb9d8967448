import Dptf.Active.TripPoints
import Dptf.Lib.Attempt

/-!
# The critical policy

`CriticalPolicy.cpp`, with what it uses of `ParticipantProxy.cpp`,
`CriticalTripPointsCachedProperty.cpp`, `ParticipantTracker.cpp` and
`PolicyCallbackScheduler.cpp`.  An exception leaves the policy as it is at that point: a handler is
an attempt.

Window and decision are both taken from the trip points in the order of
their temperatures, and a trip point that is not supported comes last: it is never reached, and
as an upper end it is no bound.

* `thermalWindows` — both policies.
-/

open Lib

namespace Critical

open Thermal

/-! ## Window and decision -/

/-- The trip points that are reached, in the order of their temperatures: the loops of the policy
end at the first that is not. -/
def reachedTripPoints (tripPoints : List TripPoint) (currentTemperature : Temperature) :
    List TripPoint :=
  tripPoints.takeWhile fun tp => tp.2 ≤ currentTemperature

/-- `determineLowerTemperatureThreshold`: the last one that is reached. -/
def determineLowerTemperatureThreshold (currentTemperature : Temperature)
    (tripPoints : List TripPoint) : Option Temperature :=
  (reachedTripPoints tripPoints currentTemperature).getLast?.map Prod.snd

/-- `determineUpperTemperatureThreshold`: the first one that is not. -/
def determineUpperTemperatureThreshold (currentTemperature : Temperature)
    (tripPoints : List TripPoint) : Option Temperature :=
  (tripPoints.find? fun tp => currentTemperature < tp.2).map Prod.snd

/-- `findTripPointCrossed`: the greatest key of those that are reached. -/
def findTripPointCrossed (tripPoints : List TripPoint) (currentTemperature : Temperature) :
    ParticipantSpecificInfoKey :=
  (reachedTripPoints tripPoints currentTemperature).foldl
    (fun crossedTripPoint tp => if tp.1 > crossedTripPoint then tp.1 else crossedTripPoint) .none

/-- The window that `setParticipantTemperatureThresholdNotification` sets. -/
def window (tripPoints : SpecificInfo) (currentTemperature : Temperature) :
    Option Temperature × Option Temperature :=
  let trips := tripPoints.sortedTripPointsByValue
  (determineLowerTemperatureThreshold currentTemperature trips,
    determineUpperTemperatureThreshold currentTemperature trips)

section Scan

variable (tripPoints : SpecificInfo) (t : Temperature)

/-- Among ascending temperatures the first that is not reached comes right behind those that
are. -/
theorem find_eq_head_dropWhile (trips : List TripPoint) :
    (trips.find? fun tp => decide (t < tp.2)) = (trips.dropWhile fun tp => tp.2 ≤ t).head? := by
  rw [← List.find?_not_eq_head?_dropWhile]
  congr 1
  funext tp
  rw [← decide_not]
  exact decide_eq_decide.mpr not_le.symm

theorem inside_window : Inside (window tripPoints t) t := by
  constructor
  · rintro lower hlower
    obtain ⟨tp, hlast, rfl⟩ := Option.map_eq_some_iff.mp hlower
    have hmem := List.mem_of_getLast? hlast
    simpa using List.mem_takeWhile_imp hmem
  · rintro upper hupper
    obtain ⟨tp, hfind, rfl⟩ := Option.map_eq_some_iff.mp hupper
    simpa using List.find?_some hfind

/-- The same trip points are reached throughout the window. -/
theorem reachedTripPoints_eq {t' : Temperature} (hinside : Inside (window tripPoints t) t') :
    reachedTripPoints tripPoints.sortedTripPointsByValue t' =
      reachedTripPoints tripPoints.sortedTripPointsByValue t := by
  refine takeWhile_eq_of_inside tripPoints.byValue_sorted (fun tp hlast => ?_) fun tp hhead => ?_
  · refine hinside.1 tp.2 ?_
    show Option.map _ _ = _
    rw [reachedTripPoints, hlast]
    rfl
  · refine hinside.2 tp.2 ?_
    show Option.map _ _ = _
    rw [find_eq_head_dropWhile, hhead]
    rfl

/-- **The critical policy misses no decision.** -/
theorem criticalWatches (tripPoints : SpecificInfo) :
    Watches (fun _ => True) (window tripPoints)
      (findTripPointCrossed tripPoints.sortedTripPointsByValue) := by
  refine fun t _ => ⟨inside_window tripPoints t, fun t' _ hinside => ?_⟩
  rw [findTripPointCrossed, findTripPointCrossed, reachedTripPoints_eq tripPoints t hinside]

end Scan

/-- **Which decisions are missed**: those of the active policy if its table hides a trip point
or, the mark counted as a temperature, starts with one that is not supported; and none of the
critical policy. -/
theorem thermalWindows (active : Active.ActiveTripPoints) (critical : SpecificInfo) :
    ((∀ entry, Watches Temperature.IsReading (Active.window active)
        (Active.selectFanSpeed entry active.sortedTripPointsByKey)) ↔
      ¬Active.HidesTripPoint active.sortedTripPointsByKey) ∧
    ((∀ entry, Watches (fun _ => True) (Active.window active)
        (Active.selectFanSpeed entry active.sortedTripPointsByKey)) ↔
      ¬Active.HidesTripPoint active.sortedTripPointsByKey ∧
      ∀ first, active.sortedTripPointsByKey.head? = some first → first.2.IsReading) ∧
    Watches (fun _ => True) (window critical)
      (findTripPointCrossed critical.sortedTripPointsByValue) :=
  ⟨Active.activeWatches_iff active, Active.activeWatches_all_iff active,
    criticalWatches critical⟩

/-- Trip points that ascend: 50 and 60 degrees. -/
def ascendingTrips : KeyMap ParticipantSpecificInfoKey Temperature :=
  (KeyMap.empty.assign .ac0 ⟨3232, Temperature.valid_fifty⟩).assign .ac1
    ⟨3332, Temperature.valid_sixty⟩

/-- Their table. -/
def ascendingTripPoints : Active.ActiveTripPoints where
  toSpecificInfo := .ofMap ascendingTrips
  isAc := by
    show ∀ trip ∈ ascendingTrips.entries, trip.1.IsAc
    decide +kernel

/-- The window around 40 degrees goes up to 60. -/
theorem window_ascendingTripPoints :
    Active.window ascendingTripPoints ⟨3132, by decide⟩ = (none, some ⟨3332, by decide⟩) := by
  unfold Active.window
  rw [SpecificInfo.sortedTripPointsByKey_eq]
  rfl

/-- 55 degrees is inside, and there the fan has to run. -/
theorem thermalWindows_fails :
    Inside (Active.window ascendingTripPoints ⟨3132, by decide⟩) ⟨3282, by decide⟩ ∧
      Active.selectFanSpeed (Active.loudAt 0) ascendingTripPoints.sortedTripPointsByKey
          ⟨3282, by decide⟩ ≠
        Active.selectFanSpeed (Active.loudAt 0) ascendingTripPoints.sortedTripPointsByKey
          ⟨3132, by decide⟩ := by
  rw [window_ascendingTripPoints, SpecificInfo.sortedTripPointsByKey_eq]
  refine ⟨⟨fun lower hlower => ?_, fun upper hupper => ?_⟩, ?_⟩
  · cases hlower
  · obtain rfl := Option.some.inj hupper
    exact Temperature.lt_iff.mpr (by decide)
  · have hcrossed : Active.findTripPointCrossed ascendingTripPoints.specificInfo.entries
        ⟨3132, by decide⟩ = none := rfl
    have hcrossed' : Active.findTripPointCrossed ascendingTripPoints.specificInfo.entries
        ⟨3282, by decide⟩ = some 0 := rfl
    unfold Active.selectFanSpeed
    rw [hcrossed, hcrossed']
    simp

/-! ## The timer -/

/-- The row of the policy in `m_timers` and the deferred callbacks that have not come yet. -/
structure PolicyTimer where
  timers : Option Nat
  outstanding : List Nat
  nextCallbackHandle : Nat

namespace PolicyTimer

/-- Nothing is scheduled. -/
def empty : PolicyTimer := ⟨none, [], 0⟩

variable (timer : PolicyTimer)

/-- `cancelTimerForObject`. -/
def cancelTimerForObject : PolicyTimer :=
  match timer.timers with
  | some callbackHandle =>
    { timer with timers := none, outstanding := timer.outstanding.erase callbackHandle }
  | none => timer

/-- `scheduleTimerCallback`. -/
def scheduleTimerCallback : PolicyTimer where
  timers := some timer.nextCallbackHandle
  outstanding := timer.nextCallbackHandle :: timer.outstanding
  nextCallbackHandle := timer.nextCallbackHandle + 1

/-- `setTimerForObject`. -/
def setTimerForObject : PolicyTimer := timer.cancelTimerForObject.scheduleTimerCallback

/-- A callback comes; its row stays. -/
def fire : PolicyTimer := { timer with outstanding := timer.outstanding.tail }

end PolicyTimer

/-! ## Participants and services -/

/-- A table that has `Warm`, `Hot` and `Critical` only, which is what the policy asks for. -/
structure CriticalTripPoints extends SpecificInfo where
  isCritical : ∀ trip ∈ specificInfo.entries,
    trip.1 = .warm ∨ trip.1 = .hot ∨ trip.1 = .critical

/-- What the policy uses of `DomainProperties`. -/
structure DomainProperties where
  implementsTemperatureInterface : Bool
  implementsTemperatureThresholdInterface : Bool

/-- What the services answer to each participant during an event; `none` and `false` are the
exception. -/
structure Services where
  getParticipantProperties : Nat → Option String
  getDomainPropertiesSet : Nat → Option (KeyMap Nat DomainProperties)
  getParticipantSpecificInfo : Nat → Option CriticalTripPoints
  refreshParticipantSpecificInfo : Nat → Option CriticalTripPoints
  refreshHysteresis : Nat → Bool
  getCurrentTemperature : Nat → Nat → Option Temperature
  setTemperatureThresholds : Nat → Bool
  sleep : Nat → Bool
  hibernate : Nat → Bool
  shutDown : Nat → Bool

/-- What the policy asks the services to do. -/
inductive Request
  | setTemperatureThresholds (lowerBound upperBound : Option Temperature)
  | sleep
  | hibernate (currentTemperature : Temperature) (tripPointTemperature : Option Temperature)
      (participantName : String)
  | shutDown (currentTemperature : Temperature) (tripPointTemperature : Option Temperature)
      (participantName : String)

/-- A participant that is tracked: its name, its domains, and its trip points once they are
cached. -/
structure Participant where
  name : String
  domains : KeyMap Nat DomainProperties
  criticalTripPoints : Option CriticalTripPoints

namespace Participant

variable (participant : Participant)

/-- `supportsTemperatureInterface`. -/
def supportsTemperatureInterface : Bool :=
  participant.domains.values.any DomainProperties.implementsTemperatureInterface

/-- `getFirstDomainTemperature`.  Where no domain has one, the temperature is invalid and the first
comparison throws. -/
def getFirstDomainTemperature (getCurrentTemperature : Nat → Option Temperature) :
    Option Temperature :=
  (participant.domains.entries.find? fun domain => domain.2.implementsTemperatureInterface).bind
    fun domain => getCurrentTemperature domain.1

/-- `getTripPoints` of the cached property; `read` is what a refresh would read. -/
def getTripPoints (read : Option CriticalTripPoints) : Option CriticalTripPoints :=
  participant.criticalTripPoints.or read

/-- The participant after `getTripPoints`. -/
def cached (read : Option CriticalTripPoints) : Participant :=
  { participant with criticalTripPoints := participant.getTripPoints read }

/-- `supportsProperty`, where an exception means no. -/
def supportsProperty (read : Option CriticalTripPoints) : Bool :=
  match participant.getTripPoints read with
  | none => false
  | some tripPoints =>
    [ParticipantSpecificInfoKey.warm, .hot, .critical].any fun key =>
      match tripPoints.specificInfo.find key with
      | some tripPoint => tripPoint.IsReading
      | none => false

/-- `participantHasDesiredProperties`. -/
def participantHasDesiredProperties (read : Option CriticalTripPoints) : Bool :=
  participant.supportsTemperatureInterface && participant.supportsProperty read

/-- The participant after `participantHasDesiredProperties`. -/
def tested (read : Option CriticalTripPoints) : Participant :=
  if participant.supportsTemperatureInterface then participant.cached read else participant

/-- Whether `setTemperatureThresholds` sets something: domain 0 has to support it. -/
def supportsTemperatureThresholds : Bool :=
  match participant.domains.find 0 with
  | some domain => domain.implementsTemperatureThresholdInterface
  | none => false

end Participant

/-! ## The policy -/

/-- `CriticalPolicy`, with the participants of its tracker. -/
structure CriticalPolicy where
  sleepRequested : Bool
  hibernateRequested : Bool
  inEmergencyCallMode : Bool
  isTimerStarted : Bool
  scheduler : PolicyTimer
  participants : KeyMap Nat Participant

namespace CriticalPolicy

/-- After `onCreate`. -/
def create : CriticalPolicy where
  sleepRequested := false
  hibernateRequested := false
  inEmergencyCallMode := false
  isTimerStarted := false
  scheduler := .empty
  participants := KeyMap.empty

/-- What a function of the policy does; a request is noted with the participant it is for. -/
abbrev Action := Attempt CriticalPolicy (Nat × Request)

variable (s : CriticalPolicy)

/-- `stopTimer`. -/
def stopTimer : CriticalPolicy :=
  { s with scheduler := s.scheduler.cancelTimerForObject, isTimerStarted := false }

/-- `startTimer`. -/
def startTimer : CriticalPolicy :=
  let stopped := if s.isTimerStarted then s.stopTimer else s
  { stopped with scheduler := stopped.scheduler.setTimerForObject, isTimerStarted := true }

/-- `takePowerAction`. -/
def takePowerAction (services : Services) (participantIndex : Nat)
    (currentTemperature : Temperature) (crossedTripPoint : ParticipantSpecificInfoKey)
    (crossedTripPointTemperature : Option Temperature) (participantName : String) : Action :=
  if s.inEmergencyCallMode then .done s
  else
    match crossedTripPoint with
    | .warm =>
      if s.sleepRequested = false then
        (Attempt.ask (participantIndex, .sleep) (services.sleep participantIndex)
          { s with sleepRequested := true }).bind fun s => .done s.startTimer
      else .done s
    | .hot =>
      if s.hibernateRequested = false then
        (Attempt.ask
          (participantIndex,
            .hibernate currentTemperature crossedTripPointTemperature participantName)
          (services.hibernate participantIndex)
          { s with hibernateRequested := true }).bind fun s => .done s.startTimer
      else .done s
    | .critical =>
      (Attempt.ask
        (participantIndex, .shutDown currentTemperature crossedTripPointTemperature participantName)
        (services.shutDown participantIndex) s).bind fun s => .done s.startTimer
    | .none => .done s
    | _ => .throw s

/-- `setParticipantTemperatureThresholdNotification`. -/
def setParticipantTemperatureThresholdNotification (services : Services) (participantIndex : Nat)
    (currentTemperature : Temperature) (tripPoints : SpecificInfo) (participant : Participant) :
    Action :=
  let bounds := window tripPoints currentTemperature
  if participant.supportsTemperatureThresholds then
    .ask (participantIndex, .setTemperatureThresholds bounds.1 bounds.2)
      (services.setTemperatureThresholds participantIndex) s
  else .done s

/-- `takePowerActionBasedOnThermalState`. -/
def takePowerActionBasedOnThermalState (services : Services) (participantIndex : Nat)
    (participant : Participant) : Action :=
  match participant.getFirstDomainTemperature (services.getCurrentTemperature participantIndex),
    participant.getTripPoints (services.getParticipantSpecificInfo participantIndex) with
  | some currentTemperature, some tripPoints =>
    (s.setParticipantTemperatureThresholdNotification services participantIndex currentTemperature
      tripPoints.toSpecificInfo participant).bind fun s =>
        let tripPointCrossed :=
          findTripPointCrossed tripPoints.sortedTripPointsByValue currentTemperature
        if tripPointCrossed ≠ .none then
          match tripPoints.specificInfo.find tripPointCrossed with
          | some crossedTripPointTemperature =>
            s.takePowerAction services participantIndex currentTemperature tripPointCrossed
              (some crossedTripPointTemperature) participant.name
          | none => .throw s
        else
          s.takePowerAction services participantIndex currentTemperature tripPointCrossed none
            participant.name
  | _, _ => .throw s

/-- What the handlers do with a participant: if it has the desired properties, power action is
taken. -/
def evaluate (services : Services) (participantIndex : Nat) (s : CriticalPolicy) : Action :=
  match s.participants.find participantIndex with
  | none => .throw s
  | some participant =>
    let read := services.getParticipantSpecificInfo participantIndex
    let tested :=
      { s with participants := s.participants.assign participantIndex (participant.tested read) }
    if participant.participantHasDesiredProperties read then
      tested.takePowerActionBasedOnThermalState services participantIndex (participant.tested read)
    else .done tested

/-- `getAllTrackedIndexes`. -/
def getAllTrackedIndexes : List Nat := s.participants.entries.map Prod.fst

/-- `reEvaluateAllParticipants`. -/
def reEvaluateAllParticipants (services : Services) : Action :=
  Attempt.each (evaluate services) s.getAllTrackedIndexes s

/-! ### The handlers -/

/-- `onBindParticipant`: `remember` keeps a participant that it has. -/
def onBindParticipant (services : Services) (participantIndex : Nat) : Action :=
  match services.getParticipantProperties participantIndex with
  | none => .throw s
  | some name =>
    match s.participants.find participantIndex with
    | some _ => .done s
    | none =>
      .done { s with
        participants := s.participants.assign participantIndex ⟨name, KeyMap.empty, none⟩ }

/-- `onUnbindParticipant`. -/
def onUnbindParticipant (participantIndex : Nat) : Action :=
  .done { s with participants := s.participants.erase participantIndex }

/-- `onBindDomain`. -/
def onBindDomain (services : Services) (participantIndex domainIndex : Nat) : Action :=
  match s.participants.find participantIndex with
  | none => .done s
  | some participant =>
    match (services.getDomainPropertiesSet participantIndex).bind fun set => set.find domainIndex with
    | none => .throw s
    | some domain =>
      let bound := { participant with domains := participant.domains.assign domainIndex domain }
      evaluate services participantIndex
        { s with participants := s.participants.assign participantIndex bound }

/-- `onUnbindDomain`. -/
def onUnbindDomain (services : Services) (participantIndex domainIndex : Nat) : Action :=
  match s.participants.find participantIndex with
  | none => .done s
  | some participant =>
    match services.getDomainPropertiesSet participantIndex with
    | none => .throw s
    | some _ =>
      let unbound := { participant with domains := participant.domains.erase domainIndex }
      .done { s with participants := s.participants.assign participantIndex unbound }

/-- `onOperatingSystemEmergencyCallModeChanged`. -/
def onOperatingSystemEmergencyCallModeChanged (services : Services) (emergencyCallMode : Bool) :
    Action :=
  if emergencyCallMode then .done { s with inEmergencyCallMode := true }
  else if s.inEmergencyCallMode then
    ({ s with inEmergencyCallMode := false } : CriticalPolicy).reEvaluateAllParticipants services
  else .done s

/-- `onParticipantSpecificInfoChanged`. -/
def onParticipantSpecificInfoChanged (services : Services) (participantIndex : Nat) : Action :=
  match s.participants.find participantIndex with
  | none => .done s
  | some participant =>
    match participant.getTripPoints (services.getParticipantSpecificInfo participantIndex) with
    | none => .throw s
    | some oldTrips =>
      let old := { participant with criticalTripPoints := some oldTrips }
      match services.refreshParticipantSpecificInfo participantIndex with
      | none => .throw { s with participants := s.participants.assign participantIndex old }
      | some newTrips =>
        let new := { participant with criticalTripPoints := some newTrips }
        let refreshed := { s with participants := s.participants.assign participantIndex new }
        if services.refreshHysteresis participantIndex = false then .throw refreshed
        else if oldTrips.specificInfo.entries ≠ newTrips.specificInfo.entries then
          evaluate services participantIndex refreshed
        else .done refreshed

/-- `onDomainTemperatureThresholdCrossed`. -/
def onDomainTemperatureThresholdCrossed (services : Services) (participantIndex : Nat) : Action :=
  match s.participants.find participantIndex with
  | none => .done s
  | some _ => evaluate services participantIndex s

/-- `onPolicyInitiatedCallback` of the timer, once its callback has come. -/
def onPolicyInitiatedCallback (services : Services) : Action :=
  ({ s with
      sleepRequested := false
      hibernateRequested := false
      isTimerStarted := false } : CriticalPolicy).reEvaluateAllParticipants services

/-- `onResume`. -/
def onResume : Action :=
  .done ({ s with sleepRequested := false, hibernateRequested := false } : CriticalPolicy).stopTimer

end CriticalPolicy

/-! ## The machine -/

/-- What the policy is told. -/
inductive Event
  | bindParticipant (participantIndex : Nat)
  | unbindParticipant (participantIndex : Nat)
  | bindDomain (participantIndex domainIndex : Nat)
  | unbindDomain (participantIndex domainIndex : Nat)
  | operatingSystemEmergencyCallModeChanged (emergencyCallMode : Bool)
  | participantSpecificInfoChanged (participantIndex : Nat)
  | domainTemperatureThresholdCrossed (participantIndex : Nat)
  | timer
  | resume
deriving DecidableEq

/-- What the policy does when it is told something. -/
def handle (s : CriticalPolicy) (services : Services) : Event → CriticalPolicy.Action
  | .bindParticipant p => s.onBindParticipant services p
  | .unbindParticipant p => s.onUnbindParticipant p
  | .bindDomain p d => s.onBindDomain services p d
  | .unbindDomain p d => s.onUnbindDomain services p d
  | .operatingSystemEmergencyCallModeChanged mode =>
    s.onOperatingSystemEmergencyCallModeChanged services mode
  | .participantSpecificInfoChanged p => s.onParticipantSpecificInfoChanged services p
  | .domainTemperatureThresholdCrossed p => s.onDomainTemperatureThresholdCrossed services p
  | .timer =>
    ({ s with scheduler := s.scheduler.fire } : CriticalPolicy).onPolicyInitiatedCallback services
  | .resume => s.onResume

/-- A callback of the timer comes only if one is outstanding; everything else can happen at any
time, with any answers of the services. -/
def step (s : CriticalPolicy) (action : Event × Services) : Option CriticalPolicy :=
  if action.1 = .timer ∧ s.scheduler.outstanding = [] then none
  else some (handle s action.2 action.1).state

end Critical

import Mathlib.Data.Prod.Lex
import Dptf.Lib.KeyMap

/-!
# The callbacks of the passive policy

`CallbackScheduler.cpp` with its `SourceAvailability.cpp` and `PolicyCallbackScheduler.cpp`, and what
it asks `ThermalRelationshipTable.cpp`.  Times and periods are in microseconds and an invalid one is
`none`; the exception of a function is `none` around its result.
-/

open Lib

namespace Passive

/-! ## The thermal relationship table -/

/-- A row of the table. -/
structure ThermalRelationshipTableEntry where
  targetDeviceIndex : Nat
  sourceDeviceIndex : Nat
  thermalSamplingPeriod : Option Nat

/-- The rows of the table. -/
abbrev ThermalRelationshipTable := List ThermalRelationshipTableEntry

namespace ThermalRelationshipTable

variable (trt : ThermalRelationshipTable)

/-- `getSampleTimeForRelationship`. -/
def getSampleTimeForRelationship (target source : Nat) : Option (Option Nat) :=
  (trt.find? fun entry =>
    entry.targetDeviceIndex = target && entry.sourceDeviceIndex = source).map
      ThermalRelationshipTableEntry.thermalSamplingPeriod

/-- `samplingPeriod < shortest` in the loops; `none` is the exception. -/
def isShorter : Option Nat → Option Nat → Option Bool
  | some samplingPeriod, some shortest => some (samplingPeriod < shortest)
  | _, _ => none

/-- The loop that keeps the shortest period of the rows that it looks at. -/
def shortestPeriod (selected : ThermalRelationshipTableEntry → Bool) :
    ThermalRelationshipTable → Option Nat → Option (Option Nat)
  | [], shortest => some shortest
  | entry :: entries, shortest =>
    if selected entry then
      let samplingPeriod := entry.thermalSamplingPeriod
      if shortest = none then shortestPeriod selected entries samplingPeriod
      else
        (isShorter samplingPeriod shortest).bind fun shorter =>
          shortestPeriod selected entries (if shorter then samplingPeriod else shortest)
    else shortestPeriod selected entries shortest

/-- `getShortestSamplePeriodForTarget`. -/
def getShortestSamplePeriodForTarget (target : Nat) : Option (Option Nat) :=
  shortestPeriod (fun entry => entry.targetDeviceIndex = target) trt none

/-- `getMinimumActiveSamplePeriodForSource`. -/
def getMinimumActiveSamplePeriodForSource (sourceIndex : Nat) (activeTargets : List Nat) :
    Option (Option Nat) :=
  shortestPeriod (fun entry => entry.sourceDeviceIndex = sourceIndex &&
    activeTargets.contains entry.targetDeviceIndex) trt none

end ThermalRelationshipTable

/-! ## Busy sources -/

/-- Until when each source is busy. -/
abbrev SourceAvailability := KeyMap Nat Nat

namespace SourceAvailability

variable (schedule : SourceAvailability)

/-- `setSourceAsBusy`. -/
def setSourceAsBusy (source time : Nat) : SourceAvailability := schedule.assign source time

/-- `remove`. -/
def remove (source : Nat) : SourceAvailability :=
  if (schedule.find source).isSome then schedule.erase source else schedule

/-- `isBusy`. -/
def isBusy (source time : Nat) : Bool :=
  match schedule.find source with
  | none => false
  | some sourceSchedule => if time < sourceSchedule then true else false

end SourceAvailability

/-! ## The schedule of callbacks -/

/-- `ParticipantCallback`. -/
structure ParticipantCallback where
  timeDelta : Nat
  timeStamp : Nat
  callbackHandle : Nat

/-- A deferred callback that the manager has queued. -/
structure DeferredCallback where
  participantIndex : Nat
  dueTime : Nat

/-- The schedule, all of whose roles are `EventCode::NA`, and the callbacks that are outstanding. -/
structure PolicyCallbackScheduler where
  schedule : KeyMap Nat ParticipantCallback
  outstanding : KeyMap Nat DeferredCallback

namespace PolicyCallbackScheduler

/-- Nothing is scheduled. -/
def empty : PolicyCallbackScheduler := ⟨KeyMap.empty, KeyMap.empty⟩

variable (s : PolicyCallbackScheduler)

/-- `createPolicyInitiatedDeferredCallback`, which returns the handle. -/
def createPolicyInitiatedDeferredCallback (callbackHandle participantIndex now timeDelta : Nat) :
    PolicyCallbackScheduler :=
  { s with outstanding := s.outstanding.assign callbackHandle ⟨participantIndex, now + timeDelta⟩ }

/-- `removePolicyInitiatedCallback`. -/
def removePolicyInitiatedCallback (callbackHandle : Nat) : PolicyCallbackScheduler :=
  { s with outstanding := s.outstanding.erase callbackHandle }

/-- `acknowledgeCallback`. -/
def acknowledgeCallback (participantIndex : Nat) : PolicyCallbackScheduler :=
  { s with schedule := s.schedule.erase participantIndex }

/-- `cancelCallback`. -/
def cancelCallback (participantIndex : Nat) : PolicyCallbackScheduler :=
  match s.schedule.find participantIndex with
  | some row =>
    (s.removePolicyInitiatedCallback row.callbackHandle).acknowledgeCallback participantIndex
  | none => s

/-- `cancelAllCallbackRequests`. -/
def cancelAllCallbackRequests : PolicyCallbackScheduler :=
  s.schedule.entries.foldl (fun s callbackRequest => s.cancelCallback callbackRequest.1) s

/-- `scheduleCallback`, at the current time. -/
def scheduleCallback (callbackHandle participantIndex currentTime pollTime : Nat) :
    PolicyCallbackScheduler :=
  let created :=
    s.createPolicyInitiatedDeferredCallback callbackHandle participantIndex currentTime pollTime
  { created with
    schedule := created.schedule.assign participantIndex ⟨pollTime, currentTime, callbackHandle⟩ }

/-- `suspend`. -/
def suspend (callbackHandle participantIndex fromTime suspendTime : Nat) :
    PolicyCallbackScheduler :=
  (s.cancelCallback participantIndex).scheduleCallback callbackHandle participantIndex fromTime
    suspendTime

/-- `hasCallbackWithinTimeRange`. -/
def hasCallbackWithinTimeRange (target beginTime endTime : Nat) : Bool :=
  match s.schedule.find target with
  | none => false
  | some row =>
    let scheduledTime := row.timeStamp + row.timeDelta
    if beginTime ≤ scheduledTime ∧ scheduledTime ≤ endTime then true else false

end PolicyCallbackScheduler

/-! ## The scheduler -/

/-- `TargetSourceRelationship`. -/
structure TargetSourceRelationship where
  target : Nat
  source : Nat

namespace TargetSourceRelationship

/-- `operator<` compares the targets and then the sources. -/
instance : LinearOrder TargetSourceRelationship :=
  LinearOrder.lift' (fun r => toLex (r.target, r.source)) fun r r' h => by
    cases r
    cases r'
    cases h
    rfl

end TargetSourceRelationship

/-- `CallbackScheduler`. -/
structure CallbackScheduler where
  sourceAvailability : SourceAvailability
  trt : ThermalRelationshipTable
  targetScheduler : PolicyCallbackScheduler
  minSampleTime : Option Nat
  requestSchedule : KeyMap TargetSourceRelationship Nat

namespace CallbackScheduler

/-- The constructor. -/
def make (trt : ThermalRelationshipTable) (minSampleTime : Option Nat) : CallbackScheduler where
  sourceAvailability := KeyMap.empty
  trt := trt
  targetScheduler := PolicyCallbackScheduler.empty
  minSampleTime := minSampleTime
  requestSchedule := KeyMap.empty

variable (s : CallbackScheduler)

/-- `isFreeForRequests`. -/
def isFreeForRequests (target source time : Nat) : Bool :=
  match s.requestSchedule.find ⟨target, source⟩ with
  | none => true
  | some timeBusyUntil => time ≥ timeBusyUntil

/-- `markBusyForRequests`; `none` is the exception. -/
def markBusyForRequests (target source time : Nat) : Option CallbackScheduler :=
  (s.trt.getSampleTimeForRelationship target source).bind fun sampleTime =>
    sampleTime.map fun sampleTime =>
      { s with requestSchedule := s.requestSchedule.assign ⟨target, source⟩ (time + sampleTime) }

/-- The sample time that the `ensure` functions use: at least the minimum. -/
def effectiveSampleTime (sampleTime : Option Nat) : Option Nat :=
  match sampleTime, s.minSampleTime with
  | none, minSampleTime => minSampleTime
  | some sampleTime, some minSampleTime =>
    if sampleTime < minSampleTime then some minSampleTime else some sampleTime
  | some sampleTime, none => some sampleTime

/-- What the `ensure` functions do with a valid sample time. -/
def ensureCallbackWithin (callbackHandle target time sampleTime : Nat) : CallbackScheduler :=
  if s.targetScheduler.hasCallbackWithinTimeRange target time (time + sampleTime) = false then
    { s with
      targetScheduler :=
        (s.targetScheduler.cancelCallback target).suspend callbackHandle target time sampleTime }
  else s

/-- `ensureCallbackByNextSamplePeriod`; `none` is the exception. -/
def ensureCallbackByNextSamplePeriod (callbackHandle target source time : Nat) :
    Option CallbackScheduler :=
  (s.trt.getSampleTimeForRelationship target source).bind fun sampleTime =>
    (s.effectiveSampleTime sampleTime).map fun sampleTime =>
      s.ensureCallbackWithin callbackHandle target time sampleTime

/-- `ensureCallbackByShortestSamplePeriod`; `none` is the exception. -/
def ensureCallbackByShortestSamplePeriod (callbackHandle target time : Nat) :
    Option CallbackScheduler :=
  (s.trt.getShortestSamplePeriodForTarget target).map fun sampleTime =>
    match s.effectiveSampleTime sampleTime with
    | some sampleTime => s.ensureCallbackWithin callbackHandle target time sampleTime
    | none => s

/-- `isFreeForCommits`. -/
def isFreeForCommits (source time : Nat) : Bool := !s.sourceAvailability.isBusy source time

/-- `removeParticipantFromSchedule`. -/
def removeParticipantFromSchedule (participant : Nat) : CallbackScheduler :=
  { s with
    sourceAvailability := s.sourceAvailability.remove participant
    targetScheduler := s.targetScheduler.cancelCallback participant }

/-- `markSourceAsBusy`, with the targets that are monitored; `none` is the exception. -/
def markSourceAsBusy (source : Nat) (monitoredTargets : List Nat) (time : Nat) :
    Option CallbackScheduler :=
  (s.trt.getMinimumActiveSamplePeriodForSource source monitoredTargets).bind
    fun minimumSamplePeriod =>
      minimumSamplePeriod.map fun minimumSamplePeriod =>
        { s with
          sourceAvailability :=
            s.sourceAvailability.setSourceAsBusy source (time + minimumSamplePeriod) }

/-- `acknowledgeCallback`. -/
def acknowledgeCallback (target : Nat) : CallbackScheduler :=
  { s with targetScheduler := s.targetScheduler.acknowledgeCallback target }

/-- `cancelAllCallbackRequests`. -/
def cancelAllCallbackRequests : CallbackScheduler :=
  { s with targetScheduler := s.targetScheduler.cancelAllCallbackRequests }

/-- `setTrt`. -/
def setTrt (trt : ThermalRelationshipTable) : CallbackScheduler := { s with trt := trt }

end CallbackScheduler

end Passive

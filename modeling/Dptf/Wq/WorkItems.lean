import Dptf.Mgr.CapsArbitrators

/-!
# Work items

`WorkItem.cpp`, its subclasses as far as they differ in `matches`, `WorkItemMatchCriteria.cpp`,
and the wrappers `ImmediateWorkItem.cpp` and `DeferredWorkItem.cpp`.
-/

open Mgr (UIntN invalidIndex)

namespace Wq

/-- `FrameworkEvent::Type`. -/
inductive FrameworkEvent
  | dptfConnectedStandbyEntry
  | dptfConnectedStandbyExit
  | dptfLowPowerModeEntry
  | dptfLowPowerModeExit
  | dptfSuspend
  | dptfResume
  | dptfGetStatus
  | dptfLogVerbosityChanged
  | dptfParticipantActivityLoggingEnabled
  | dptfParticipantActivityLoggingDisabled
  | dptfPolicyActivityLoggingEnabled
  | dptfPolicyActivityLoggingDisabled
  | dptfSupportedPoliciesChanged
  | dptfEnvironmentProfileChanged
  | dptfSendParticipantCreate
  | dptfSendParticipantDelete
  | participantAllocate
  | participantCreate
  | participantDestroy
  | participantSpecificInfoChanged
  | dptfParticipantControlAction
  | domainAllocate
  | domainCreate
  | domainDestroy
  | domainCoreControlCapabilityChanged
  | domainDisplayControlCapabilityChanged
  | domainDisplayStatusChanged
  | domainPerformanceControlCapabilityChanged
  | domainPerformanceControlsChanged
  | domainPowerControlCapabilityChanged
  | domainPriorityChanged
  | domainRadioConnectionStatusChanged
  | domainRfProfileChanged
  | domainTemperatureThresholdCrossed
  | domainVirtualSensorCalibrationTableChanged
  | domainVirtualSensorPollingTableChanged
  | domainVirtualSensorRecalcChanged
  | domainBatteryStatusChanged
  | domainBatteryInformationChanged
  | domainBatteryHighFrequencyImpedanceChanged
  | domainBatteryNoLoadVoltageChanged
  | domainMaxBatteryPeakCurrentChanged
  | domainPlatformPowerSourceChanged
  | domainAdapterPowerRatingChanged
  | domainChargerTypeChanged
  | domainPlatformRestOfPowerChanged
  | domainMaxBatteryPowerChanged
  | domainPlatformBatterySteadyStateChanged
  | domainACNominalVoltageChanged
  | domainACOperationalCurrentChanged
  | domainAC1msPercentageOverloadChanged
  | domainAC2msPercentageOverloadChanged
  | domainAC10msPercentageOverloadChanged
  | domainEnergyThresholdCrossed
  | domainFanCapabilityChanged
  | domainSocWorkloadClassificationChanged
  | domainEppSensitivityHintChanged
  | domainExtendedWorkloadPredictionChanged
  | domainFanOperatingModeChanged
  | domainHardwareSocWorkloadHintChanged
  | domainSocPowerFloorChanged
  | domainPcieThrottleRequested
  | policyCreate
  | policyDestroy
  | policyCoolingModePolicyChanged
  | policyForegroundApplicationChanged
  | policyInitiatedCallback
  | policySensorOrientationChanged
  | policySensorMotionChanged
  | policySensorSpatialOrientationChanged
  | policyOperatingSystemPowerSourceChanged
  | policyOperatingSystemLidStateChanged
  | policyOperatingSystemBatteryPercentageChanged
  | policyOperatingSystemPlatformTypeChanged
  | policyOperatingSystemDockModeChanged
  | policyOperatingSystemMobileNotification
  | policyOperatingSystemMixedRealityModeChanged
  | policyOperatingSystemPowerSchemePersonalityChanged
  | policyOperatingSystemUserPresenceChanged
  | policyOperatingSystemSessionStateChanged
  | policyOperatingSystemScreenStateChanged
  | policyOperatingSystemBatteryCountChanged
  | policyOperatingSystemPowerSliderChanged
  | policyProcessLoadNotification
  | dptfPolicyLoadedUnloadedEvent
  | policyEmergencyCallModeTableChanged
  | powerLimitChanged
  | powerLimitTimeWindowChanged
  | performanceCapabilitiesChanged
  | policyWorkloadHintConfigurationChanged
  | policyOperatingSystemGameModeChanged
  | policyPlatformUserPresenceChanged
  | policyExternalMonitorStateChanged
  | policyUserInteractionChanged
  | policyForegroundRatioChanged
  | policySystemModeChanged
  | policyTableObjectChanged
  | policyCollaborationChanged
  | policyThirdPartyGraphicsPowerStateChanged
  | policyOemVariablesChanged
  | policySwOemVariablesChanged
  | policyThirdPartyGraphicsTPPLimitChanged
  | dptfAppBroadcastUnprivileged
  | dptfAppBroadcastPrivileged
  | dptfAppLoaded
  | dptfAppUnloaded
  | dptfAppUnloading
  | dptfAppAliveRequest
  | dptfCommand
deriving DecidableEq

/-! ## Items -/

/-- What the subclasses of `WorkItem` add for `matches`: nothing, a participant, a domain of a
participant, or a policy. -/
inductive WorkItemSubject
  | none
  | participant (participantIndex : UIntN)
  | domain (participantIndex domainIndex : UIntN)
  | policy (policyIndex : UIntN)
deriving DecidableEq

/-- `WorkItem`.  The completion semaphore is that of the caller with the number. -/
structure WorkItem where
  frameworkEventType : FrameworkEvent
  uniqueId : UInt64
  subject : WorkItemSubject
  completionSemaphore : Option Nat
  /-- Only `WIDomainTemperatureThresholdCrossed` has this event, a `DomainWorkItem`. -/
  crossed : frameworkEventType = .domainTemperatureThresholdCrossed →
    ∃ participantIndex domainIndex, subject = .domain participantIndex domainIndex
deriving DecidableEq

/-- `signalAtCompletion`. -/
def WorkItem.signalAtCompletion (w : WorkItem) (semaphore : Nat) : WorkItem :=
  { w with completionSemaphore := some semaphore }

/-- `PolicyDestroy` and `ParticipantDestroy`, the events that are let in after shutdown. -/
def WorkItem.IsDestroy (w : WorkItem) : Prop :=
  w.frameworkEventType = .policyDestroy ∨ w.frameworkEventType = .participantDestroy

instance (w : WorkItem) : Decidable w.IsDestroy := inferInstanceAs (Decidable (_ ∨ _))

/-! ## Criteria -/

/-- `WorkItemMatchCriteria`; what is not tested is `none`. -/
structure WorkItemMatchCriteria where
  frameworkEventType : Option FrameworkEvent
  uniqueId : Option UInt64
  participantIndex : Option UIntN
  domainIndex : Option UIntN
  policyIndex : Option UIntN

namespace WorkItemMatchCriteria

/-- `WorkItemMatchCriteria()`. -/
def empty : WorkItemMatchCriteria := ⟨none, none, none, none, none⟩

/-- `addFrameworkEventTypeToMatchList`. -/
def addFrameworkEventType (c : WorkItemMatchCriteria) (frameworkEventType : FrameworkEvent) :
    WorkItemMatchCriteria :=
  { c with frameworkEventType := some frameworkEventType }

/-- `addParticipantIndexToMatchList`; an invalid index is not tested. -/
def addParticipantIndex (c : WorkItemMatchCriteria) (participantIndex : UIntN) :
    WorkItemMatchCriteria :=
  if participantIndex ≠ invalidIndex then { c with participantIndex := some participantIndex }
  else c

/-- Whether something was added. -/
def added (c : WorkItemMatchCriteria) : Bool :=
  c.frameworkEventType.isSome || c.uniqueId.isSome || c.participantIndex.isSome ||
    c.domainIndex.isSome || c.policyIndex.isSome

/-- Whether a test of an index passes. -/
def indexPasses (tested : Option UIntN) (index : UIntN) : Bool :=
  match tested with
  | none => true
  | some i => index ≠ invalidIndex && i = index

/-- `testAgainstMatchList`. -/
def testAgainstMatchList (c : WorkItemMatchCriteria) (frameworkEventType : FrameworkEvent)
    (uniqueId : UInt64) (participantIndex domainIndex policyIndex : UIntN) : Bool :=
  c.added && (c.frameworkEventType = none || c.frameworkEventType = some frameworkEventType) &&
    (c.uniqueId = none || c.uniqueId = some uniqueId) &&
    indexPasses c.participantIndex participantIndex && indexPasses c.domainIndex domainIndex &&
    indexPasses c.policyIndex policyIndex

end WorkItemMatchCriteria

namespace WorkItem

/-- `getParticipantIndex`, of items that have one. -/
def participantIndex (w : WorkItem) : UIntN :=
  match w.subject with
  | .participant participantIndex => participantIndex
  | .domain participantIndex _ => participantIndex
  | _ => invalidIndex

/-- `matches`. -/
def isMatch (w : WorkItem) (c : WorkItemMatchCriteria) : Bool :=
  match w.subject with
  | .none =>
    c.testAgainstMatchList w.frameworkEventType w.uniqueId invalidIndex invalidIndex invalidIndex
  | .participant participantIndex =>
    c.testAgainstMatchList w.frameworkEventType w.uniqueId participantIndex invalidIndex
      invalidIndex
  | .domain participantIndex domainIndex =>
    c.testAgainstMatchList w.frameworkEventType w.uniqueId participantIndex domainIndex
      invalidIndex
  | .policy policyIndex =>
    c.testAgainstMatchList w.frameworkEventType w.uniqueId invalidIndex invalidIndex policyIndex

end WorkItem

/-! ## Items in queues -/

/-- `DeferredWorkItem`. -/
structure DeferredWorkItem where
  workItem : WorkItem
  deferredProcessingTime : Int
  /-- Only callbacks of policies are deferred, and nobody waits for them. -/
  event : workItem.frameworkEventType ≠ .domainTemperatureThresholdCrossed
  unawaited : workItem.completionSemaphore = none
deriving DecidableEq

/-- `WIPolicyInitiatedCallback`, deferred. -/
def policyInitiatedCallback (policyIndex : UIntN) (uniqueId : UInt64)
    (deferredProcessingTime : Int) : DeferredWorkItem where
  workItem :=
    { frameworkEventType := .policyInitiatedCallback
      uniqueId := uniqueId
      subject := .policy policyIndex
      completionSemaphore := none
      crossed := nofun }
  deferredProcessingTime := deferredProcessingTime
  event := nofun
  unawaited := rfl

/-- What an `ImmediateWorkItem` wraps: an item, or one that was deferred. -/
inductive WrappedItem
  | direct (workItem : WorkItem)
  | deferred (item : DeferredWorkItem)
deriving DecidableEq

namespace WrappedItem

/-- The item inside, which answers for its event, its number and `matches`. -/
def workItem : WrappedItem → WorkItem
  | .direct workItem => workItem
  | .deferred item => item.workItem

/-- The semaphore that `signal` signals; `DeferredWorkItem::signal` does nothing. -/
def signal : WrappedItem → Option Nat
  | .direct workItem => workItem.completionSemaphore
  | .deferred _ => none

/-- The semaphore that `execute` signals at the end, and if `onExecute` throws. -/
def completion (w : WrappedItem) : Option Nat := w.workItem.completionSemaphore

end WrappedItem

/-- `ImmediateWorkItem`. -/
structure ImmediateWorkItem where
  item : WrappedItem
  priority : UIntN
deriving DecidableEq

namespace ImmediateWorkItem

/-- The item inside. -/
def workItem (i : ImmediateWorkItem) : WorkItem := i.item.workItem

/-- `matches`. -/
def isMatch (i : ImmediateWorkItem) (c : WorkItemMatchCriteria) : Bool := i.workItem.isMatch c

end ImmediateWorkItem

end Wq

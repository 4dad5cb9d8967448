import Dptf.Mgr.PowerCapsArbitrator

/-!
# The setters of a domain

`Domain.cpp`.  A policy sets a control; the domain arbitrates, writes the participant if the
arbitrated value is another one than before, and keeps the request.  The setters of locks keep
the request first.
-/

open Lib

namespace Mgr

/-! ## A domain and its participant -/

/-- The arbitrators of a domain, and `m_performanceControlDynamicCaps`. -/
structure Domain where
  coreControl : CoreControlArbitrator
  performanceControl : PerformanceControlArbitrator
  performanceCapabilities : PerformanceControlCapabilitiesArbitrator
  displayCapabilities : DisplayControlCapabilitiesArbitrator
  powerControl : PowerControlArbitrator
  powerCapabilities : PowerControlCapabilitiesArbitrator
  peakPowerControl : PeakPowerControlArbitrator

/-- A domain after its creation. -/
def Domain.empty : Domain where
  coreControl := CoreControlArbitrator.empty
  performanceControl := PerformanceControlArbitrator.empty
  performanceCapabilities := PerformanceControlCapabilitiesArbitrator.empty
  displayCapabilities := DisplayControlCapabilitiesArbitrator.empty
  powerControl := PowerControlArbitrator.empty
  powerCapabilities := PowerControlCapabilitiesArbitrator.empty
  peakPowerControl := PeakPowerControlArbitrator.empty

/-- What the participant was last set to, if it was set.  A power limit may be an invalid one,
which is `some none`. -/
structure Participant where
  activeCoreControl : Option UIntN
  performanceControl : Option UIntN
  performanceControlDynamicCaps : Option PerformanceControlDynamicCaps
  displayControlDynamicCaps : Option DisplayControlDynamicCaps
  powerLimit : PowerControlType → Option (Option Power)
  powerLimitTimeWindow : PowerControlType → Option TimeSpan
  powerLimitDutyCycle : PowerControlType → Option Percentage
  acPeakPower : Option Power
  dcPeakPower : Option Power
  displayCapsLock : Option Bool
  performanceCapsLock : Option Bool
  powerCapsLock : Option Bool

/-- A participant that was not set to anything. -/
def Participant.unset : Participant where
  activeCoreControl := none
  performanceControl := none
  performanceControlDynamicCaps := none
  displayControlDynamicCaps := none
  powerLimit _ := none
  powerLimitTimeWindow _ := none
  powerLimitDutyCycle _ := none
  acPeakPower := none
  dcPeakPower := none
  displayCapsLock := none
  performanceCapsLock := none
  powerCapsLock := none

/-- The domain, its participant and what it caches of it. -/
structure DomainState where
  domain : Domain
  participant : Participant
  performanceCapsCache : Option PerformanceControlDynamicCaps

/-- What came of a call: the state then, whether it threw, and whether it called a setter of the
participant. -/
structure CallResult where
  state : DomainState
  threw : Bool
  written : Bool

/-! ## The body of the setters -/

/-- What the setters of different controls do in their own way.  The functions stand for the
calls with the policy and the request filled in; those of the arbitrator may throw. -/
structure ControlSetter (W : Type) where
  hasArbitrated : Domain → Bool
  getArbitrated : Domain → Option W
  arbitrate : Domain → Option W
  /-- `operator==`. -/
  same : W → W → Bool
  /-- The setter of the participant, and what is cleared of the cache then. -/
  write : W → DomainState → DomainState
  commit : Domain → Domain

namespace ControlSetter

variable {W : Type}

/-- The value to write, if there is one to write; nothing at all, if the arbitrator throws. -/
def newValue (c : ControlSetter W) (d : Domain) : Option (Option W) :=
  if c.hasArbitrated d then do
    let current ← c.getArbitrated d
    let new ← c.arbitrate d
    return if c.same current new then none else some new
  else do
    let new ← c.arbitrate d
    return some new

/-- The body: the arbitrator is told of the request after the participant was written.  `works`
says whether the participant takes the value or throws. -/
def call (c : ControlSetter W) (works : Bool) (s : DomainState) : CallResult :=
  match c.newValue s.domain with
  | none => ⟨s, true, false⟩
  | some none => ⟨{ s with domain := c.commit s.domain }, false, false⟩
  | some (some new) =>
    if works then
      let s := c.write new s
      ⟨{ s with domain := c.commit s.domain }, false, true⟩
    else ⟨s, true, true⟩

end ControlSetter

/-- The body of the lock setters: the arbitrator is told of the request first. -/
def lockCall (locks : Domain → LockRequests) (setLocks : LockRequests → Domain → Domain)
    (write : Bool → DomainState → DomainState) (policyIndex : PolicyIndex) (lock works : Bool)
    (s : DomainState) : CallResult :=
  let (requests, updated) := (locks s.domain).arbitrateLockRequests policyIndex lock
  let s := { s with domain := setLocks requests s.domain }
  if updated then
    if works then ⟨write requests.getArbitratedLock s, false, true⟩ else ⟨s, true, true⟩
  else ⟨s, false, false⟩

/-! ## The setters -/

/-- `Domain::setActiveCoreControl`. -/
def setActiveCoreControl (policyIndex : PolicyIndex) (status : UIntN) : ControlSetter UIntN where
  hasArbitrated d := d.coreControl.hasArbitratedCoreCount
  getArbitrated d := some d.coreControl.arbitratedActiveCoreCount
  arbitrate d := some (d.coreControl.arbitrate policyIndex status)
  same a b := a = b
  write v s := { s with participant := { s.participant with activeCoreControl := some v } }
  commit d := { d with coreControl := d.coreControl.commitPolicyRequest policyIndex status }

/-- `Domain::setPerformanceControl`. -/
def setPerformanceControl (policyIndex : PolicyIndex) (index : UIntN) : ControlSetter UIntN where
  hasArbitrated d := d.performanceControl.hasArbitratedPerformanceControlIndex
  getArbitrated d := some d.performanceControl.arbitratedPerformanceControlIndex
  arbitrate d := some (d.performanceControl.arbitrate policyIndex index)
  same a b := a = b
  write v s :=
    { s with
      participant := { s.participant with performanceControl := some v }
      performanceCapsCache := none }
  commit d :=
    { d with performanceControl := d.performanceControl.commitPolicyRequest policyIndex index }

/-- `Domain::setPerformanceControlDynamicCaps`, once it has the current capabilities. -/
def setPerformanceControlDynamicCaps (policyIndex : PolicyIndex)
    (newCapabilities currentCaps : PerformanceControlDynamicCaps) :
    ControlSetter PerformanceControlDynamicCaps where
  hasArbitrated d := d.performanceCapabilities.hasArbitrated
  getArbitrated d := some (d.performanceCapabilities.getArbitrated currentCaps)
  arbitrate d :=
    some (d.performanceCapabilities.arbitrate policyIndex newCapabilities currentCaps)
  same a b := a = b
  write v s :=
    { s with
      participant := { s.participant with performanceControlDynamicCaps := some v }
      performanceCapsCache := none }
  commit d :=
    { d with
      performanceCapabilities :=
        d.performanceCapabilities.commitPolicyRequest policyIndex newCapabilities }

/-- `Domain::setDisplayControlDynamicCaps`. -/
def setDisplayControlDynamicCaps (policyIndex : PolicyIndex)
    (newCapabilities : DisplayControlDynamicCaps) : ControlSetter DisplayControlDynamicCaps where
  hasArbitrated d := d.displayCapabilities.hasArbitrated
  getArbitrated d := some d.displayCapabilities.getArbitrated
  arbitrate d := some (d.displayCapabilities.arbitrate policyIndex newCapabilities)
  same a b := a = b
  write v s := { s with participant := { s.participant with displayControlDynamicCaps := some v } }
  commit d :=
    { d with
      displayCapabilities := d.displayCapabilities.commitPolicyRequest policyIndex newCapabilities }

/-- `Domain::setPowerLimit`. -/
def setPowerLimit (policyIndex : PolicyIndex) (controlType : PowerControlType)
    (powerLimit : Power) : ControlSetter Power where
  hasArbitrated d := d.powerControl.powerLimits.hasArbitrated controlType
  getArbitrated d := d.powerControl.powerLimits.getArbitrated controlType
  arbitrate d := d.powerControl.powerLimits.arbitrate policyIndex controlType powerLimit
  same := RequestValue.same
  write v s :=
    { s with
      participant := { s.participant with
        powerLimit := Function.update s.participant.powerLimit controlType (some (some v)) } }
  commit d :=
    { d with
      powerControl := d.powerControl.apply (.commitPowerLimit policyIndex controlType powerLimit) }

/-- `Domain::setPowerLimitTimeWindow`. -/
def setPowerLimitTimeWindow (policyIndex : PolicyIndex) (controlType : PowerControlType)
    (timeWindow : TimeSpan) : ControlSetter TimeSpan where
  hasArbitrated d := d.powerControl.timeWindows.hasArbitrated controlType
  getArbitrated d := d.powerControl.timeWindows.getArbitrated controlType
  arbitrate d := d.powerControl.timeWindows.arbitrate policyIndex controlType timeWindow
  same := RequestValue.same
  write v s :=
    { s with
      participant := { s.participant with
        powerLimitTimeWindow :=
          Function.update s.participant.powerLimitTimeWindow controlType (some v) } }
  commit d :=
    { d with
      powerControl := d.powerControl.apply (.commitTimeWindow policyIndex controlType timeWindow) }

/-- `Domain::setPowerLimitDutyCycle`. -/
def setPowerLimitDutyCycle (policyIndex : PolicyIndex) (controlType : PowerControlType)
    (dutyCycle : Percentage) : ControlSetter Percentage where
  hasArbitrated d := d.powerControl.dutyCycles.hasArbitrated controlType
  getArbitrated d := d.powerControl.dutyCycles.getArbitrated controlType
  arbitrate d := d.powerControl.dutyCycles.arbitrate policyIndex controlType dutyCycle
  same := RequestValue.same
  write v s :=
    { s with
      participant := { s.participant with
        powerLimitDutyCycle :=
          Function.update s.participant.powerLimitDutyCycle controlType (some v) } }
  commit d :=
    { d with
      powerControl := d.powerControl.apply (.commitDutyCycle policyIndex controlType dutyCycle) }

/-- `Domain::setACPeakPower`. -/
def setACPeakPower (policyIndex : PolicyIndex) (acPeakPower : Power) : ControlSetter Power where
  hasArbitrated d := d.peakPowerControl.peakPowers.hasArbitrated .pl4ACPower
  getArbitrated d := d.peakPowerControl.peakPowers.getArbitrated .pl4ACPower
  arbitrate d := d.peakPowerControl.peakPowers.arbitrate policyIndex .pl4ACPower acPeakPower
  same := RequestValue.same
  write v s := { s with participant := { s.participant with acPeakPower := some v } }
  commit d :=
    { d with
      peakPowerControl :=
        d.peakPowerControl.apply (.commitPolicyRequest policyIndex .pl4ACPower acPeakPower) }

/-- `Domain::setDCPeakPower`. -/
def setDCPeakPower (policyIndex : PolicyIndex) (dcPeakPower : Power) : ControlSetter Power where
  hasArbitrated d := d.peakPowerControl.peakPowers.hasArbitrated .pl4DCPower
  getArbitrated d := d.peakPowerControl.peakPowers.getArbitrated .pl4DCPower
  arbitrate d := d.peakPowerControl.peakPowers.arbitrate policyIndex .pl4DCPower dcPeakPower
  same := RequestValue.same
  write v s := { s with participant := { s.participant with dcPeakPower := some v } }
  commit d :=
    { d with
      peakPowerControl :=
        d.peakPowerControl.apply (.commitPolicyRequest policyIndex .pl4DCPower dcPeakPower) }

/-- `Domain::setDisplayCapsLock`. -/
def setDisplayCapsLock : PolicyIndex → Bool → Bool → DomainState → CallResult :=
  lockCall (fun d => d.displayCapabilities.requestedLocks)
    (fun locks d =>
      { d with displayCapabilities := { d.displayCapabilities with requestedLocks := locks } })
    fun lock s => { s with participant := { s.participant with displayCapsLock := some lock } }

/-- `Domain::setPerformanceCapsLock`. -/
def setPerformanceCapsLock : PolicyIndex → Bool → Bool → DomainState → CallResult :=
  lockCall (fun d => d.performanceCapabilities.requestedLocks)
    (fun locks d =>
      { d with
        performanceCapabilities := { d.performanceCapabilities with requestedLocks := locks } })
    fun lock s => { s with participant := { s.participant with performanceCapsLock := some lock } }

/-- `Domain::setPowerCapsLock`. -/
def setPowerCapsLock : PolicyIndex → Bool → Bool → DomainState → CallResult :=
  lockCall (fun d => d.powerCapabilities.requestedLocks)
    (fun locks d =>
      { d with powerCapabilities := { d.powerCapabilities with requestedLocks := locks } })
    fun lock s => { s with participant := { s.participant with powerCapsLock := some lock } }

/-- A call of a setter. -/
inductive SetterCall
  | activeCoreControl (policyIndex : PolicyIndex) (status : UIntN)
  | performanceControl (policyIndex : PolicyIndex) (index : UIntN)
  | performanceControlDynamicCaps (policyIndex : PolicyIndex) (caps : PerformanceControlDynamicCaps)
  | displayControlDynamicCaps (policyIndex : PolicyIndex) (caps : DisplayControlDynamicCaps)
  | powerLimit (policyIndex : PolicyIndex) (controlType : PowerControlType) (v : Power)
  | powerLimitTimeWindow (policyIndex : PolicyIndex) (controlType : PowerControlType) (v : TimeSpan)
  | powerLimitDutyCycle (policyIndex : PolicyIndex) (controlType : PowerControlType) (v : Percentage)
  | acPeakPower (policyIndex : PolicyIndex) (v : Power)
  | dcPeakPower (policyIndex : PolicyIndex) (v : Power)
  | displayCapsLock (policyIndex : PolicyIndex) (lock : Bool)
  | performanceCapsLock (policyIndex : PolicyIndex) (lock : Bool)
  | powerCapsLock (policyIndex : PolicyIndex) (lock : Bool)

/-- What the participant does during a call: the capabilities it reports, if it does not throw
then, and whether it takes what it is set to. -/
structure ParticipantReply where
  performanceCaps : Option PerformanceControlDynamicCaps
  works : Bool

/-- `Domain::getPerformanceControlDynamicCaps` and the setter that begins with it. -/
def DomainState.callPerformanceCaps (s : DomainState) (policyIndex : PolicyIndex)
    (caps : PerformanceControlDynamicCaps) (reply : ParticipantReply) : CallResult :=
  match s.performanceCapsCache.or reply.performanceCaps with
  | none => ⟨s, true, false⟩
  | some currentCaps =>
    (setPerformanceControlDynamicCaps policyIndex caps currentCaps).call reply.works
      { s with performanceCapsCache := some currentCaps }

/-- A call of a setter. -/
def DomainState.call (s : DomainState) (c : SetterCall) (reply : ParticipantReply) : CallResult :=
  match c with
  | .activeCoreControl p status => (setActiveCoreControl p status).call reply.works s
  | .performanceControl p index => (setPerformanceControl p index).call reply.works s
  | .performanceControlDynamicCaps p caps => s.callPerformanceCaps p caps reply
  | .displayControlDynamicCaps p caps => (setDisplayControlDynamicCaps p caps).call reply.works s
  | .powerLimit p k v => (setPowerLimit p k v).call reply.works s
  | .powerLimitTimeWindow p k v => (setPowerLimitTimeWindow p k v).call reply.works s
  | .powerLimitDutyCycle p k v => (setPowerLimitDutyCycle p k v).call reply.works s
  | .acPeakPower p v => (setACPeakPower p v).call reply.works s
  | .dcPeakPower p v => (setDCPeakPower p v).call reply.works s
  | .displayCapsLock p lock => setDisplayCapsLock p lock reply.works s
  | .performanceCapsLock p lock => setPerformanceCapsLock p lock reply.works s
  | .powerCapsLock p lock => setPowerCapsLock p lock reply.works s

/-! ## Taking requests back -/

/-- `Domain::getArbitratedPowerLimit`: without requests the most that the capability allows, and
an invalid power if there is no capability. -/
def Domain.getArbitratedPowerLimit (d : Domain) (caps : PowerControlType → Option Power)
    (controlType : PowerControlType) : Option Power :=
  match d.powerControl.powerLimits.getArbitrated controlType with
  | some limit => some limit
  | none => caps controlType

/-- `Domain::removePowerLimitPolicyRequest`, with a participant that takes every value. -/
def DomainState.removePowerLimitPolicyRequest (s : DomainState)
    (caps : PowerControlType → Option Power) (policyIndex : PolicyIndex)
    (controlType : PowerControlType) : DomainState :=
  let currentLimit := s.domain.getArbitratedPowerLimit caps controlType
  let domain : Domain := { s.domain with
    powerControl :=
      s.domain.powerControl.apply (.removePowerLimitRequestForPolicy policyIndex controlType) }
  let newLimit := domain.getArbitratedPowerLimit caps controlType
  if currentLimit ≠ newLimit then
    { s with
      domain := domain
      participant := { s.participant with
        powerLimit := Function.update s.participant.powerLimit controlType (some newLimit) } }
  else { s with domain := domain }

/-- `Arbitrator::clearPolicyCachedData`. -/
def Domain.clearPolicyCachedData (d : Domain) (policyIndex : PolicyIndex) : Domain where
  coreControl := d.coreControl.clearPolicyCachedData policyIndex
  performanceControl := d.performanceControl.clearPolicyCachedData policyIndex
  performanceCapabilities := d.performanceCapabilities.removeRequestsForPolicy policyIndex
  displayCapabilities := d.displayCapabilities.removeRequestsForPolicy policyIndex
  powerControl := d.powerControl.apply (.removeRequestsForPolicy policyIndex)
  powerCapabilities := d.powerCapabilities.removeRequestsForPolicy policyIndex
  peakPowerControl := d.peakPowerControl.apply (.clearPolicyCachedData policyIndex)

/-- `Domain::clearArbitrationDataForPolicy`; the participant is not written. -/
def DomainState.clearArbitrationDataForPolicy (s : DomainState) (policyIndex : PolicyIndex) :
    DomainState :=
  { s with domain := s.domain.clearPolicyCachedData policyIndex }

end Mgr

import Dptf.Mgr.PowerArbitrators

/-!
# The arbitrators of core, performance and display controls

`CoreControlArbitrator.cpp`, `PerformanceControlArbitrator.cpp` and the arbitrators of
capabilities: each keeps one number, or one pair of numbers, for a policy, of which
`Constants::Invalid` is none, and the locks that policies ask for.
-/

open Lib

namespace Mgr

/-- `UIntN`. -/
abbrev UIntN := UInt32

/-- `Constants::Invalid`. -/
def invalidIndex : UIntN := 0xFFFFFFFF

/-- The requests of the policies, one number each. -/
abbrev IndexRequests := KeyMap PolicyIndex UIntN

/-! ## Active cores -/

/-- `CoreControlArbitrator`. -/
structure CoreControlArbitrator where
  requestedActiveCoreCount : IndexRequests
  arbitratedActiveCoreCount : UIntN

namespace CoreControlArbitrator

/-- `CoreControlArbitrator()`. -/
def empty : CoreControlArbitrator := ⟨KeyMap.empty, invalidIndex⟩

/-- `getMinActiveCoreCount`. -/
def getMinActiveCoreCount (requests : IndexRequests) : UIntN :=
  requests.values.foldl (fun least current =>
    if current ≠ invalidIndex ∧ (least = invalidIndex ∨ current < least) then current
    else least) invalidIndex

/-- `hasArbitratedCoreCount`. -/
def hasArbitratedCoreCount (a : CoreControlArbitrator) : Bool :=
  a.arbitratedActiveCoreCount ≠ invalidIndex

/-- `arbitrate`; a `CoreControlStatus` is its number of cores. -/
def arbitrate (a : CoreControlArbitrator) (policyIndex : PolicyIndex) (status : UIntN) : UIntN :=
  getMinActiveCoreCount (a.requestedActiveCoreCount.assign policyIndex status)

/-- `commitPolicyRequest`. -/
def commitPolicyRequest (a : CoreControlArbitrator) (policyIndex : PolicyIndex)
    (status : UIntN) : CoreControlArbitrator :=
  let requested := a.requestedActiveCoreCount.assign policyIndex status
  ⟨requested, getMinActiveCoreCount requested⟩

/-- `clearPolicyCachedData`. -/
def clearPolicyCachedData (a : CoreControlArbitrator) (policyIndex : PolicyIndex) :
    CoreControlArbitrator :=
  match a.requestedActiveCoreCount.find policyIndex with
  | none => a
  | some _ => a.commitPolicyRequest policyIndex invalidIndex

end CoreControlArbitrator

/-! ## Performance states -/

/-- `PerformanceControlArbitrator`. -/
structure PerformanceControlArbitrator where
  requestedPerformanceControlIndex : IndexRequests
  arbitratedPerformanceControlIndex : UIntN

namespace PerformanceControlArbitrator

/-- `PerformanceControlArbitrator()`. -/
def empty : PerformanceControlArbitrator := ⟨KeyMap.empty, invalidIndex⟩

/-- `getMaxRequestedPerformanceControlIndex`. -/
def getMaxRequestedPerformanceControlIndex (requests : IndexRequests) : UIntN :=
  requests.values.foldl (fun greatest request =>
    if request ≠ invalidIndex ∧ (greatest = invalidIndex ∨ request > greatest) then request
    else greatest) invalidIndex

/-- `hasArbitratedPerformanceControlIndex`. -/
def hasArbitratedPerformanceControlIndex (a : PerformanceControlArbitrator) : Bool :=
  a.arbitratedPerformanceControlIndex ≠ invalidIndex

/-- `arbitrate`. -/
def arbitrate (a : PerformanceControlArbitrator) (policyIndex : PolicyIndex) (index : UIntN) :
    UIntN :=
  getMaxRequestedPerformanceControlIndex
    (a.requestedPerformanceControlIndex.assign policyIndex index)

/-- `commitPolicyRequest`. -/
def commitPolicyRequest (a : PerformanceControlArbitrator) (policyIndex : PolicyIndex)
    (index : UIntN) : PerformanceControlArbitrator :=
  let requested := a.requestedPerformanceControlIndex.assign policyIndex index
  ⟨requested, getMaxRequestedPerformanceControlIndex requested⟩

/-- `clearPolicyCachedData`. -/
def clearPolicyCachedData (a : PerformanceControlArbitrator) (policyIndex : PolicyIndex) :
    PerformanceControlArbitrator :=
  match a.requestedPerformanceControlIndex.find policyIndex with
  | none => a
  | some _ => a.commitPolicyRequest policyIndex invalidIndex

end PerformanceControlArbitrator

/-! ## Locks -/

/-- `m_requestedLocks`. -/
abbrev LockRequests := KeyMap PolicyIndex Bool

namespace LockRequests

/-- `getArbitratedLock`: some policy asks for the lock. -/
def getArbitratedLock (requests : LockRequests) : Bool := requests.values.any (· = true)

/-- `arbitrateLockRequests`: the requests with the one of a policy set, and whether the lock
changed by it. -/
def arbitrateLockRequests (requests : LockRequests) (policyIndex : PolicyIndex) (lock : Bool) :
    LockRequests × Bool :=
  let previousLock := getArbitratedLock requests
  let requests := requests.assign policyIndex lock
  let newLock := getArbitratedLock requests
  (requests, previousLock != newLock)

end LockRequests

/-! ## Limits of the performance states -/

/-- `PerformanceControlDynamicCaps`. -/
structure PerformanceControlDynamicCaps where
  currentLowerLimitIndex : UIntN
  currentUpperLimitIndex : UIntN
deriving DecidableEq, Repr

/-- `PerformanceControlCapabilitiesArbitrator`. -/
structure PerformanceControlCapabilitiesArbitrator where
  requestedUpperPState : IndexRequests
  requestedLowerPState : IndexRequests
  requestedLocks : LockRequests

namespace PerformanceControlCapabilitiesArbitrator

/-- `PerformanceControlCapabilitiesArbitrator()`. -/
def empty : PerformanceControlCapabilitiesArbitrator := ⟨KeyMap.empty, KeyMap.empty, KeyMap.empty⟩

/-- `updatePolicyRequest`: the upper and the lower requests then. -/
def updatePolicyRequest (caps : PerformanceControlDynamicCaps) (policyIndex : PolicyIndex)
    (upperRequests lowerRequests : IndexRequests) : IndexRequests × IndexRequests :=
  let newMax := caps.currentUpperLimitIndex
  let newMin := caps.currentLowerLimitIndex
  if newMax = invalidIndex ∧ newMin = invalidIndex then
    (upperRequests.erase policyIndex, lowerRequests.erase policyIndex)
  else (upperRequests.assign policyIndex newMax, lowerRequests.assign policyIndex newMin)

/-- `getBiggestUpperPStateIndex`. -/
def getBiggestUpperPStateIndex (upperRequests : IndexRequests) : UIntN :=
  upperRequests.values.foldl (fun biggest request =>
    if biggest = invalidIndex then request
    else if request ≠ invalidIndex then max biggest request
    else biggest) invalidIndex

/-- `getSmallestLowerPStateIndex`. -/
def getSmallestLowerPStateIndex (lowerRequests : IndexRequests) : UIntN :=
  lowerRequests.values.foldl (fun smallest request =>
    if smallest = invalidIndex then request
    else if request ≠ invalidIndex then min smallest request
    else smallest) invalidIndex

/-- `createNewArbitratedCapabilities`. -/
def createNewArbitratedCapabilities (upperRequests lowerRequests : IndexRequests)
    (currentCaps : PerformanceControlDynamicCaps) : PerformanceControlDynamicCaps :=
  let lower := getSmallestLowerPStateIndex lowerRequests
  let lower := if lower = invalidIndex then currentCaps.currentLowerLimitIndex else lower
  let upper := getBiggestUpperPStateIndex upperRequests
  let upper := if upper = invalidIndex then currentCaps.currentUpperLimitIndex else upper
  if upper ≠ invalidIndex ∧ lower ≠ invalidIndex ∧ upper > lower then ⟨upper, upper⟩
  else ⟨lower, upper⟩

/-- `hasArbitratedPerformanceControlCapabilities`. -/
def hasArbitrated (a : PerformanceControlCapabilitiesArbitrator) : Bool :=
  !(a.requestedLowerPState.isEmpty && a.requestedUpperPState.isEmpty)

/-- `getArbitratedPerformanceControlCapabilities`. -/
def getArbitrated (a : PerformanceControlCapabilitiesArbitrator)
    (currentCaps : PerformanceControlDynamicCaps) : PerformanceControlDynamicCaps :=
  createNewArbitratedCapabilities a.requestedUpperPState a.requestedLowerPState currentCaps

/-- `arbitrate`. -/
def arbitrate (a : PerformanceControlCapabilitiesArbitrator) (policyIndex : PolicyIndex)
    (requestedCaps currentCaps : PerformanceControlDynamicCaps) : PerformanceControlDynamicCaps :=
  let requests := updatePolicyRequest requestedCaps policyIndex a.requestedUpperPState
    a.requestedLowerPState
  createNewArbitratedCapabilities requests.1 requests.2 currentCaps

/-- `commitPolicyRequest`. -/
def commitPolicyRequest (a : PerformanceControlCapabilitiesArbitrator) (policyIndex : PolicyIndex)
    (caps : PerformanceControlDynamicCaps) : PerformanceControlCapabilitiesArbitrator :=
  let requests := updatePolicyRequest caps policyIndex a.requestedUpperPState
    a.requestedLowerPState
  { a with requestedUpperPState := requests.1, requestedLowerPState := requests.2 }

/-- `removeRequestsForPolicy`. -/
def removeRequestsForPolicy (a : PerformanceControlCapabilitiesArbitrator)
    (policyIndex : PolicyIndex) : PerformanceControlCapabilitiesArbitrator where
  requestedUpperPState := a.requestedUpperPState.erase policyIndex
  requestedLowerPState := a.requestedLowerPState.erase policyIndex
  requestedLocks := a.requestedLocks.erase policyIndex

end PerformanceControlCapabilitiesArbitrator

/-! ## Limits of the brightness -/

/-- `DisplayControlDynamicCaps`. -/
structure DisplayControlDynamicCaps where
  currentUpperLimit : UIntN
  currentLowerLimit : UIntN
deriving DecidableEq, Repr

/-- `DisplayControlCapabilitiesArbitrator`. -/
structure DisplayControlCapabilitiesArbitrator where
  requestedMaxDisplayIndex : IndexRequests
  requestedMinDisplayIndex : IndexRequests
  requestedLocks : LockRequests

namespace DisplayControlCapabilitiesArbitrator

/-- `DisplayControlCapabilitiesArbitrator()`. -/
def empty : DisplayControlCapabilitiesArbitrator := ⟨KeyMap.empty, KeyMap.empty, KeyMap.empty⟩

/-- `updatePolicyRequest`: the requests for the least and the greatest index then. -/
def updatePolicyRequest (caps : DisplayControlDynamicCaps) (policyIndex : PolicyIndex)
    (minRequests maxRequests : IndexRequests) : IndexRequests × IndexRequests :=
  let newMax := caps.currentUpperLimit
  let newMin := caps.currentLowerLimit
  if newMax = invalidIndex ∧ newMin = invalidIndex then
    (minRequests.erase policyIndex, maxRequests.erase policyIndex)
  else (minRequests.assign policyIndex newMin, maxRequests.assign policyIndex newMax)

/-- `getLowestMaxDisplayIndex`; the brightest level has the least index. -/
def getLowestMaxDisplayIndex (maxRequests : IndexRequests) : UIntN :=
  maxRequests.values.foldl (fun lowestMax request =>
    if lowestMax = invalidIndex then request else max lowestMax request) invalidIndex

/-- `getHighestMinDisplayIndex`. -/
def getHighestMinDisplayIndex (minRequests : IndexRequests) : UIntN :=
  minRequests.values.foldl (fun highestMin request =>
    if highestMin = invalidIndex then request else min highestMin request) invalidIndex

/-- What `arbitrate` and `getArbitratedDisplayControlCapabilities` make of the requests. -/
def capabilities (minRequests maxRequests : IndexRequests) : DisplayControlDynamicCaps :=
  let minDisplayIndex := getHighestMinDisplayIndex minRequests
  let maxDisplayIndex := getLowestMaxDisplayIndex maxRequests
  if maxDisplayIndex > minDisplayIndex then ⟨maxDisplayIndex, maxDisplayIndex⟩
  else ⟨maxDisplayIndex, minDisplayIndex⟩

/-- `hasArbitratedDisplayCapabilities`. -/
def hasArbitrated (a : DisplayControlCapabilitiesArbitrator) : Bool :=
  !(a.requestedMinDisplayIndex.isEmpty && a.requestedMaxDisplayIndex.isEmpty)

/-- `getArbitratedDisplayControlCapabilities`. -/
def getArbitrated (a : DisplayControlCapabilitiesArbitrator) : DisplayControlDynamicCaps :=
  capabilities a.requestedMinDisplayIndex a.requestedMaxDisplayIndex

/-- `arbitrate`. -/
def arbitrate (a : DisplayControlCapabilitiesArbitrator) (policyIndex : PolicyIndex)
    (caps : DisplayControlDynamicCaps) : DisplayControlDynamicCaps :=
  let requests := updatePolicyRequest caps policyIndex a.requestedMinDisplayIndex
    a.requestedMaxDisplayIndex
  capabilities requests.1 requests.2

/-- `commitPolicyRequest`. -/
def commitPolicyRequest (a : DisplayControlCapabilitiesArbitrator) (policyIndex : PolicyIndex)
    (caps : DisplayControlDynamicCaps) : DisplayControlCapabilitiesArbitrator :=
  let requests := updatePolicyRequest caps policyIndex a.requestedMinDisplayIndex
    a.requestedMaxDisplayIndex
  { a with requestedMinDisplayIndex := requests.1, requestedMaxDisplayIndex := requests.2 }

/-- `removeRequestsForPolicy`. -/
def removeRequestsForPolicy (a : DisplayControlCapabilitiesArbitrator)
    (policyIndex : PolicyIndex) : DisplayControlCapabilitiesArbitrator where
  requestedMaxDisplayIndex := a.requestedMaxDisplayIndex.erase policyIndex
  requestedMinDisplayIndex := a.requestedMinDisplayIndex.erase policyIndex
  requestedLocks := a.requestedLocks.erase policyIndex

end DisplayControlCapabilitiesArbitrator

end Mgr

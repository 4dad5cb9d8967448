import Dptf.Lib.Tightest
import Dptf.Mgr.CapsArbitrators

/-!
# The arbitrator of the power capabilities

`PowerControlCapabilitiesArbitrator.cpp`.  A policy requests limits of the power, the step and
limits of the time window for each control type; the arbitrator keeps each field in a map of its
own, by policy and control type.
-/

open Lib

namespace Mgr

/-- `PowerControlDynamicCaps` without the control type it is kept under; `none` is an invalid
value. -/
structure PowerControlDynamicCaps where
  minPowerLimit : Option Power
  maxPowerLimit : Option Power
  powerStepSize : Option Power
  minTimeWindow : Option TimeSpan
  maxTimeWindow : Option TimeSpan
  minDutyCycle : Option Percentage
  maxDutyCycle : Option Percentage

/-- `PowerControlDynamicCapsSet`. -/
abbrev PowerControlDynamicCapsSet := KeyMap PowerControlType PowerControlDynamicCaps

/-! ## The requests for one field -/

/-- The requests of the policies for one field, by control type. -/
abbrev FieldRequests (V : Type) := KeyMap PolicyIndex (KeyMap PowerControlType (Option V))

section FieldRequests

variable {V : Type}

/-- `requests[policyIndex][controlType] = value`. -/
def setFieldRequest (requests : FieldRequests V) (policyIndex : PolicyIndex)
    (controlType : PowerControlType) (value : Option V) : FieldRequests V :=
  let policyRequests := (requests.find policyIndex).getD KeyMap.empty
  requests.assign policyIndex (policyRequests.assign controlType value)

/-- The body of `getLowestMaxPowerLimit` and the four functions like it. -/
def tightestRequest (pick : V → V → V) (controlType : PowerControlType)
    (requests : FieldRequests V) : Option V :=
  requests.values.foldl (fun tightest policyRequests =>
    match policyRequests.find controlType with
    | none => tightest
    | some request =>
      match tightest, request with
      | none, _ => request
      | some t, some r => some (pick t r)
      | some t, none => some t) none

/-- Whether some policy has a request for a control type. -/
def hasControlType (requests : FieldRequests V) (controlType : PowerControlType) : Bool :=
  requests.values.any fun policyRequests => (policyRequests.find controlType).isSome

end FieldRequests

/-- `getLowestMaxPowerLimit`. -/
def getLowestMaxPowerLimit : PowerControlType → FieldRequests Power → Option Power :=
  tightestRequest min

/-- `getLowestMinPowerLimit`. -/
def getLowestMinPowerLimit : PowerControlType → FieldRequests Power → Option Power :=
  tightestRequest min

/-- `getHighestPowerLimitStep`. -/
def getHighestPowerLimitStep : PowerControlType → FieldRequests Power → Option Power :=
  tightestRequest max

/-- `getLowestMaxTimeWindow`. -/
def getLowestMaxTimeWindow : PowerControlType → FieldRequests TimeSpan → Option TimeSpan :=
  tightestRequest min

/-- `getHighestMinTimeWindow`. -/
def getHighestMinTimeWindow : PowerControlType → FieldRequests TimeSpan → Option TimeSpan :=
  tightestRequest max

/-! ## The requests for all fields -/

/-- The five maps of requests. -/
structure PowerCapsRequests where
  maxPowerLimit : FieldRequests Power
  minPowerLimit : FieldRequests Power
  powerLimitStep : FieldRequests Power
  maxTimeWindow : FieldRequests TimeSpan
  minTimeWindow : FieldRequests TimeSpan

namespace PowerCapsRequests

/-- The maps with the request of a policy for one control type set. -/
def set (r : PowerCapsRequests) (policyIndex : PolicyIndex) (controlType : PowerControlType)
    (capability : PowerControlDynamicCaps) : PowerCapsRequests where
  maxPowerLimit := setFieldRequest r.maxPowerLimit policyIndex controlType capability.maxPowerLimit
  minPowerLimit := setFieldRequest r.minPowerLimit policyIndex controlType capability.minPowerLimit
  powerLimitStep :=
    setFieldRequest r.powerLimitStep policyIndex controlType capability.powerStepSize
  maxTimeWindow := setFieldRequest r.maxTimeWindow policyIndex controlType capability.maxTimeWindow
  minTimeWindow := setFieldRequest r.minTimeWindow policyIndex controlType capability.minTimeWindow

/-- `updatePolicyRequest`, which `arbitrate` repeats on copies of the maps. -/
def updatePolicyRequest (r : PowerCapsRequests) (policyIndex : PolicyIndex)
    (capSet : PowerControlDynamicCapsSet) : PowerCapsRequests :=
  capSet.entries.foldl (fun r entry => r.set policyIndex entry.1 entry.2) r

/-- The maps without the requests of a policy. -/
def erase (r : PowerCapsRequests) (policyIndex : PolicyIndex) : PowerCapsRequests where
  maxPowerLimit := r.maxPowerLimit.erase policyIndex
  minPowerLimit := r.minPowerLimit.erase policyIndex
  powerLimitStep := r.powerLimitStep.erase policyIndex
  maxTimeWindow := r.maxTimeWindow.erase policyIndex
  minTimeWindow := r.minTimeWindow.erase policyIndex

/-- `getControlTypes`. -/
def getControlTypes (r : PowerCapsRequests) : List PowerControlType :=
  (ControlType.types (K := PowerControlType)).filter fun controlType =>
    hasControlType r.maxPowerLimit controlType || hasControlType r.minPowerLimit controlType ||
      hasControlType r.powerLimitStep controlType || hasControlType r.maxTimeWindow controlType ||
      hasControlType r.minTimeWindow controlType

/-- The least value, once the greatest one is known: "set both min and max to the most limited of
the two values". -/
def leastNotAbove {V : Type} [LinearOrder V] : Option V → Option V → Option V
  | some greatest, some least => if greatest < least then some greatest else some least
  | _, least => least

/-- What `createNewArbitratedCapabilitites` makes of the requests for one control type. -/
def arbitratedCapability (r : PowerCapsRequests) (controlType : PowerControlType)
    (currentCapSet : PowerControlDynamicCapsSet) : PowerControlDynamicCaps :=
  let current := currentCapSet.find controlType
  let maxPowerLimit := (getLowestMaxPowerLimit controlType r.maxPowerLimit).or
    (current.bind PowerControlDynamicCaps.maxPowerLimit)
  let minPowerLimit := (getLowestMinPowerLimit controlType r.minPowerLimit).or
    (current.bind PowerControlDynamicCaps.minPowerLimit)
  let minPowerLimit := leastNotAbove maxPowerLimit minPowerLimit
  let stepSize := (getHighestPowerLimitStep controlType r.powerLimitStep).or
    (current.bind PowerControlDynamicCaps.powerStepSize)
  let maxTimeWindow := (getLowestMaxTimeWindow controlType r.maxTimeWindow).or
    (current.bind PowerControlDynamicCaps.maxTimeWindow)
  let minTimeWindow := (getHighestMinTimeWindow controlType r.minTimeWindow).or
    (current.bind PowerControlDynamicCaps.minTimeWindow)
  let minTimeWindow := leastNotAbove maxTimeWindow minTimeWindow
  { minPowerLimit := minPowerLimit
    maxPowerLimit := maxPowerLimit
    powerStepSize := stepSize
    minTimeWindow := minTimeWindow
    maxTimeWindow := maxTimeWindow
    minDutyCycle := some (0 : ℚ)
    maxDutyCycle := some (0 : ℚ) }

/-- `createNewArbitratedCapabilitites`. -/
def createNewArbitratedCapabilities (r : PowerCapsRequests)
    (currentCapSet : PowerControlDynamicCapsSet) : PowerControlDynamicCapsSet :=
  r.getControlTypes.foldl (fun allCaps controlType =>
    allCaps.assign controlType (r.arbitratedCapability controlType currentCapSet)) KeyMap.empty

end PowerCapsRequests

/-! ## The arbitrator -/

/-- `PowerControlCapabilitiesArbitrator`. -/
structure PowerControlCapabilitiesArbitrator where
  requested : PowerCapsRequests
  requestedLocks : LockRequests

namespace PowerControlCapabilitiesArbitrator

/-- `PowerControlCapabilitiesArbitrator()`. -/
def empty : PowerControlCapabilitiesArbitrator where
  requested := ⟨KeyMap.empty, KeyMap.empty, KeyMap.empty, KeyMap.empty, KeyMap.empty⟩
  requestedLocks := KeyMap.empty

/-- `hasArbitratedPowerControlCapabilities`. -/
def hasArbitrated (a : PowerControlCapabilitiesArbitrator) : Bool :=
  !(a.requested.maxPowerLimit.isEmpty && a.requested.minPowerLimit.isEmpty &&
    a.requested.powerLimitStep.isEmpty && a.requested.maxTimeWindow.isEmpty &&
    a.requested.minTimeWindow.isEmpty)

/-- `getArbitratedPowerControlCapabilities`. -/
def getArbitrated (a : PowerControlCapabilitiesArbitrator)
    (currentCapSet : PowerControlDynamicCapsSet) : PowerControlDynamicCapsSet :=
  a.requested.createNewArbitratedCapabilities currentCapSet

/-- `arbitrate`. -/
def arbitrate (a : PowerControlCapabilitiesArbitrator) (policyIndex : PolicyIndex)
    (requestedCapSet currentCapSet : PowerControlDynamicCapsSet) : PowerControlDynamicCapsSet :=
  (a.requested.updatePolicyRequest policyIndex requestedCapSet).createNewArbitratedCapabilities
    currentCapSet

/-- `commitPolicyRequest`. -/
def commitPolicyRequest (a : PowerControlCapabilitiesArbitrator) (policyIndex : PolicyIndex)
    (capSet : PowerControlDynamicCapsSet) : PowerControlCapabilitiesArbitrator :=
  { a with requested := a.requested.updatePolicyRequest policyIndex capSet }

/-- `removeRequestsForPolicy`. -/
def removeRequestsForPolicy (a : PowerControlCapabilitiesArbitrator) (policyIndex : PolicyIndex) :
    PowerControlCapabilitiesArbitrator where
  requested := a.requested.erase policyIndex
  requestedLocks := a.requestedLocks.erase policyIndex

end PowerControlCapabilitiesArbitrator

/-! ## The loops in closed form -/

section FieldRequests

variable {V : Type}

/-- What a policy requests for a control type, valid or not. -/
def fieldRequest (requests : FieldRequests V) (policyIndex : PolicyIndex)
    (controlType : PowerControlType) : Option (Option V) :=
  (requests.find policyIndex).bind fun policyRequests => policyRequests.find controlType

theorem fieldRequest_setFieldRequest (requests : FieldRequests V) (p : PolicyIndex)
    (k : PowerControlType) (value : Option V) (q : PolicyIndex) (k' : PowerControlType) :
    fieldRequest (setFieldRequest requests p k value) q k' =
      if q = p ∧ k' = k then some value else fieldRequest requests q k' := by
  rw [fieldRequest, setFieldRequest, KeyMap.find_assign]
  by_cases hq : q = p
  · rw [if_pos hq, Option.bind_some, KeyMap.find_assign]
    by_cases hk : k' = k
    · rw [if_pos hk, if_pos ⟨hq, hk⟩]
    · rw [if_neg hk, if_neg fun h => hk h.2, fieldRequest, hq]
      cases requests.find p <;> rfl
  · rw [if_neg hq, if_neg fun h => hq h.1, fieldRequest]

theorem fieldRequest_erase (requests : FieldRequests V) (p q : PolicyIndex) (k : PowerControlType) :
    fieldRequest (requests.erase p) q k = if q = p then none else fieldRequest requests q k := by
  rw [fieldRequest, KeyMap.find_erase]
  split
  · rfl
  · rfl

theorem hasControlType_iff (requests : FieldRequests V) (k : PowerControlType) :
    hasControlType requests k ↔ ∃ p, (fieldRequest requests p k).isSome := by
  rw [hasControlType, List.any_eq_true]
  constructor
  · rintro ⟨policyRequests, hmem, hsome⟩
    obtain ⟨p, hp⟩ := (requests.mem_values_iff policyRequests).1 hmem
    exact ⟨p, by rw [fieldRequest, hp]; exact hsome⟩
  · rintro ⟨p, hp⟩
    obtain ⟨request, hrequest⟩ := Option.isSome_iff_exists.1 hp
    obtain ⟨policyRequests, hfind, hk⟩ := Option.bind_eq_some_iff.1 hrequest
    exact ⟨policyRequests, (requests.mem_values_iff policyRequests).2 ⟨p, hfind⟩, by rw [hk]; rfl⟩

theorem tightestRequest_eq (pick : V → V → V) (k : PowerControlType) (requests : FieldRequests V) :
    tightestRequest pick k requests =
      (requests.values.map fun policyRequests => (policyRequests.find k).join).foldl
        (Option.merge pick) none := by
  rw [tightestRequest, List.foldl_map]
  congr 1
  funext tightest policyRequests
  cases policyRequests.find k with
  | none => cases tightest <;> rfl
  | some request =>
    cases tightest with
    | none => cases request <;> rfl
    | some t => cases request <;> rfl

/-- **The loop** finds the tightest of the valid requests. -/
theorem isTightest_tightestRequest {tighter : V → V → Prop} {pick : V → V → V}
    (hpick : Picks tighter pick) (k : PowerControlType) (requests : FieldRequests V) :
    IsTightest tighter (Requested fun p => (fieldRequest requests p k).join)
      (tightestRequest pick k requests) := by
  rw [tightestRequest_eq]
  have hrequest : (fun p => (fieldRequest requests p k).join) = fun p =>
      (requests.find p).bind fun policyRequests => (policyRequests.find k).join := by
    funext p
    rw [fieldRequest]
    cases requests.find p <;> rfl
  rw [hrequest]
  exact isTightest_foldl_values hpick requests _

/-- What a policy requests after all fields of a set of capabilities were set: those of the set,
and for the other control types what it requested before. -/
theorem fieldRequest_foldl_set (field : PowerControlDynamicCaps → Option V) (p : PolicyIndex)
    {es : List (PowerControlType × PowerControlDynamicCaps)}
    (hes : es.Pairwise fun a b => a.1 < b.1) (requests : FieldRequests V) (q : PolicyIndex)
    (k : PowerControlType) :
    fieldRequest (es.foldl (fun r e => setFieldRequest r p e.1 (field e.2)) requests) q k =
      if q = p then (((⟨es, hes⟩ : PowerControlDynamicCapsSet).find k).map field).or
        (fieldRequest requests q k)
      else fieldRequest requests q k := by
  induction es generalizing requests with
  | nil =>
    split
    · rfl
    · rfl
  | cons e es ih =>
    obtain ⟨hhead, htail⟩ := List.pairwise_cons.1 hes
    rw [List.foldl_cons, ih htail, fieldRequest_setFieldRequest, KeyMap.find_cons]
    by_cases hq : q = p
    · rw [if_pos hq, if_pos hq]
      by_cases hk : k = e.1
      · have hnone : (⟨es, htail⟩ : PowerControlDynamicCapsSet).find k = none := by
          rw [Option.eq_none_iff_forall_ne_some]
          intro caps hfind
          have hmem := (KeyMap.mem_entries_iff ⟨es, htail⟩ k caps).2 hfind
          exact (hhead _ hmem).ne hk.symm
        rw [if_pos ⟨hq, hk⟩, if_pos hk, hnone]
        rfl
      · rw [if_neg fun h => hk h.2, if_neg hk]
    · rw [if_neg hq, if_neg hq, if_neg fun h => hq h.1]

end FieldRequests

theorem find_foldl_assign {V : Type} (value : PowerControlType → V) (ks : List PowerControlType)
    (m : KeyMap PowerControlType V) (k : PowerControlType) :
    (ks.foldl (fun m k' => m.assign k' (value k')) m).find k =
      if k ∈ ks then some (value k) else m.find k := by
  induction ks generalizing m with
  | nil => simp
  | cons k' ks ih =>
    rw [List.foldl_cons, ih, KeyMap.find_assign]
    by_cases hmem : k ∈ ks
    · rw [if_pos hmem, if_pos (List.mem_cons_of_mem _ hmem)]
    · by_cases hk : k = k'
      · rw [if_neg hmem, if_pos hk, if_pos (hk ▸ List.mem_cons_self ..), hk]
      · rw [if_neg hmem, if_neg hk, if_neg]
        intro h
        exact (List.mem_cons.1 h).elim hk hmem

/-- The control types that are requested have a capability, and no others. -/
theorem find_createNewArbitratedCapabilities (r : PowerCapsRequests)
    (currentCapSet : PowerControlDynamicCapsSet) (k : PowerControlType) :
    (r.createNewArbitratedCapabilities currentCapSet).find k =
      if k ∈ r.getControlTypes then some (r.arbitratedCapability k currentCapSet) else none := by
  rw [PowerCapsRequests.createNewArbitratedCapabilities, find_foldl_assign]
  rfl

end Mgr

import Dptf.Mgr.CapsRequests

/-!
# The windows that are arbitrated

The arbitrators of capabilities are to give the tightest window of the valid requests.

* `capabilityArbitration_iff` — the third one does it just if no live request has an invalid upper
  and a valid lower limit.
-/

open Lib

namespace Mgr

/-! ## The windows -/

/-- The window of performance states: the largest upper and the smallest lower index. -/
def PerformanceWindow (live : PolicyIndex → Option PerformanceControlDynamicCaps)
    (current result : PerformanceControlDynamicCaps) : Prop :=
  IsWindow (V := UIntN) (· ≥ ·) (· ≤ ·) (· ≤ ·)
    (fun p => (live p).bind fun caps => validIndex caps.currentUpperLimitIndex)
    (fun p => (live p).bind fun caps => validIndex caps.currentLowerLimitIndex)
    (validIndex current.currentUpperLimitIndex) (validIndex current.currentLowerLimitIndex)
    (validIndex result.currentUpperLimitIndex) (validIndex result.currentLowerLimitIndex)

/-- The window of brightness levels, which does not fall back to anything. -/
def DisplayWindow (live : PolicyIndex → Option DisplayControlDynamicCaps)
    (result : DisplayControlDynamicCaps) : Prop :=
  IsWindow (V := UIntN) (· ≥ ·) (· ≤ ·) (· ≤ ·)
    (fun p => (live p).bind fun caps => validIndex caps.currentUpperLimit)
    (fun p => (live p).bind fun caps => validIndex caps.currentLowerLimit) none none
    (validIndex result.currentUpperLimit) (validIndex result.currentLowerLimit)

/-- What the policies request for a field of a control type. -/
def powerFieldRequests {V : Type} (live : PolicyIndex → Option PowerCapsByType)
    (k : PowerControlType) (field : PowerControlDynamicCaps → Option V) (p : PolicyIndex) :
    Option V :=
  ((live p).bind fun caps => caps k).bind field

/-- The windows of powers and of times and the step, for the control types that are requested. -/
structure PowerWindows (live : PolicyIndex → Option PowerCapsByType)
    (current result : PowerControlDynamicCapsSet) : Prop where
  types : ∀ k, (result.find k).isSome ↔ ∃ p, ((live p).bind fun caps => caps k).isSome
  powerLimits : ∀ k caps, result.find k = some caps →
    IsWindow (V := Power) (· ≤ ·) (· ≤ ·) (· ≥ ·)
      (powerFieldRequests live k PowerControlDynamicCaps.maxPowerLimit)
      (powerFieldRequests live k PowerControlDynamicCaps.minPowerLimit)
      ((current.find k).bind PowerControlDynamicCaps.maxPowerLimit)
      ((current.find k).bind PowerControlDynamicCaps.minPowerLimit)
      caps.maxPowerLimit caps.minPowerLimit
  stepSize : ∀ k caps, result.find k = some caps → ∃ step,
    IsTightest (V := Power) (· ≥ ·)
      (Requested (powerFieldRequests live k PowerControlDynamicCaps.powerStepSize)) step ∧
    caps.powerStepSize = step.or ((current.find k).bind PowerControlDynamicCaps.powerStepSize)
  timeWindows : ∀ k caps, result.find k = some caps →
    IsWindow (V := TimeSpan) (· ≤ ·) (· ≥ ·) (· ≥ ·)
      (powerFieldRequests live k PowerControlDynamicCaps.maxTimeWindow)
      (powerFieldRequests live k PowerControlDynamicCaps.minTimeWindow)
      ((current.find k).bind PowerControlDynamicCaps.maxTimeWindow)
      ((current.find k).bind PowerControlDynamicCaps.minTimeWindow)
      caps.maxTimeWindow caps.minTimeWindow

/-- What the arbitrators are to do after a history: each result is the window of the live requests,
it is the same for every history with the same requests of other policies, and `arbitrate` is what
a commit would lead to. -/
structure CapabilityArbitration (ops : List ArbitrationOp) : Prop where
  performance : ∀ current, PerformanceWindow (liveCaps ops).performance current
    ((Domain.arbitrated ops).performanceCapabilities.getArbitrated current)
  power : ∀ current, PowerWindows (liveCaps ops).power current
    ((Domain.arbitrated ops).powerCapabilities.getArbitrated current)
  display : DisplayWindow (liveCaps ops).display
    (Domain.arbitrated ops).displayCapabilities.getArbitrated
  performance_anonymous : ∀ ops' (σ : Equiv.Perm PolicyIndex),
    (liveCaps ops').performance = (liveCaps ops).performance ∘ σ → ∀ current,
      (Domain.arbitrated ops').performanceCapabilities.getArbitrated current =
        (Domain.arbitrated ops).performanceCapabilities.getArbitrated current
  power_anonymous : ∀ ops' (σ : Equiv.Perm PolicyIndex),
    (liveCaps ops').power = (liveCaps ops).power ∘ σ → ∀ current,
      (Domain.arbitrated ops').powerCapabilities.getArbitrated current =
        (Domain.arbitrated ops).powerCapabilities.getArbitrated current
  display_anonymous : ∀ ops' (σ : Equiv.Perm PolicyIndex),
    (liveCaps ops').display = (liveCaps ops).display ∘ σ →
      (Domain.arbitrated ops').displayCapabilities.getArbitrated =
        (Domain.arbitrated ops).displayCapabilities.getArbitrated
  performance_arbitrate : ∀ p caps current,
    (Domain.arbitrated ops).performanceCapabilities.arbitrate p caps current =
      (Domain.arbitrated
        (ops ++ [.performanceCapabilities (.commit p caps)])).performanceCapabilities.getArbitrated
          current
  power_arbitrate : ∀ p capSet current,
    (Domain.arbitrated ops).powerCapabilities.arbitrate p capSet current =
      (Domain.arbitrated
        (ops ++ [.powerCapabilities (.commit p capSet)])).powerCapabilities.getArbitrated current
  display_arbitrate : ∀ p caps,
    (Domain.arbitrated ops).displayCapabilities.arbitrate p caps =
      (Domain.arbitrated
        (ops ++ [.displayCapabilities (.commit p caps)])).displayCapabilities.getArbitrated

/-! ## Requests that are recorded -/

section RecordsPair

variable {C : Type} {first second : C → UIntN} {firstRequests secondRequests : IndexRequests}
  {live : PolicyIndex → Option C}

theorem RecordsPair.first_requests
    (h : RecordsPair first second firstRequests secondRequests live) :
    (fun p => (firstRequests.find p).bind validIndex) =
      fun p => (live p).bind fun caps => validIndex (first caps) := by
  funext p
  rw [(h p).1]
  cases live p with
  | none => rfl
  | some caps =>
    rw [Option.bind_some, Option.bind_some, keptIndex]
    split_ifs with hinvalid
    · rw [hinvalid.1]
      rfl
    · rfl

theorem RecordsPair.second_requests
    (h : RecordsPair first second firstRequests secondRequests live) :
    (fun p => (secondRequests.find p).bind validIndex) =
      fun p => (live p).bind fun caps => validIndex (second caps) := by
  funext p
  rw [(h p).2]
  cases live p with
  | none => rfl
  | some caps =>
    rw [Option.bind_some, Option.bind_some, keptIndex]
    split_ifs with hinvalid
    · rw [hinvalid.2]
      rfl
    · rfl

end RecordsPair

theorem RecordsField.requests {V : Type} {field : PowerControlDynamicCaps → Option V}
    {requests : FieldRequests V} {live : PolicyIndex → Option PowerCapsByType}
    (h : RecordsField field requests live) (k : PowerControlType) :
    (fun p => (fieldRequest requests p k).join) = powerFieldRequests live k field := by
  funext p
  rw [h p k, powerFieldRequests]
  cases (live p).bind fun caps => caps k <;> rfl

/-- A control type is requested in each map or in none. -/
theorem RecordsField.hasControlType_iff {V : Type} {field : PowerControlDynamicCaps → Option V}
    {requests : FieldRequests V} {live : PolicyIndex → Option PowerCapsByType}
    (h : RecordsField field requests live) (k : PowerControlType) :
    hasControlType requests k ↔ ∃ p, ((live p).bind fun caps => caps k).isSome := by
  rw [Mgr.hasControlType_iff]
  refine exists_congr fun p => ?_
  rw [h p k, Option.isSome_map]

/-! ## Performance states -/

theorem validIndex_or (i current : UIntN) :
    validIndex (if i = invalidIndex then current else i) =
      (validIndex i).or (validIndex current) := by
  split_ifs with h
  · rw [h, validIndex_invalid, Option.none_or]
  · rw [validIndex_of_ne h, Option.some_or]

/-- The lower end is moved, unless one of the ends is missing. -/
theorem validIndex_ordered (upper lower : UIntN) :
    validIndex (if upper ≠ invalidIndex ∧ lower ≠ invalidIndex ∧ upper > lower then upper
      else lower) = ordered (· ≤ ·) (validIndex upper) (validIndex lower) := by
  by_cases hu : upper = invalidIndex
  · rw [if_neg fun h => h.1 hu, hu]
    cases validIndex lower <;> rfl
  · by_cases hl : lower = invalidIndex
    · rw [if_neg fun h => h.2.1 hl, hl, validIndex_of_ne hu]
      rfl
    · rw [validIndex_of_ne hu, validIndex_of_ne hl, ordered]
      by_cases hlt : upper > lower
      · rw [if_pos ⟨hu, hl, hlt⟩, if_neg (UInt32.not_le.2 hlt), validIndex_of_ne hu]
      · rw [if_neg fun h => hlt h.2.2, if_pos (UInt32.not_lt.1 hlt), validIndex_of_ne hl]

/-- **The window of performance states** is the one that the live requests leave. -/
theorem performanceWindow_getArbitrated (ops : List ArbitrationOp)
    (current : PerformanceControlDynamicCaps) :
    PerformanceWindow (liveCaps ops).performance current
      ((Domain.arbitrated ops).performanceCapabilities.getArbitrated current) := by
  have hrecords := (recordsLive_arbitrated ops).performance
  have hupper := isTightest_getBiggestUpperPStateIndex
    (Domain.arbitrated ops).performanceCapabilities.requestedUpperPState
  have hlower := isTightest_getSmallestLowerPStateIndex
    (Domain.arbitrated ops).performanceCapabilities.requestedLowerPState
  rw [hrecords.first_requests] at hupper
  rw [hrecords.second_requests] at hlower
  refine ⟨_, _, hupper, hlower, ?_, ?_⟩
  · rw [← validIndex_or, PerformanceControlCapabilitiesArbitrator.getArbitrated,
      PerformanceControlCapabilitiesArbitrator.createNewArbitratedCapabilities,
      apply_ite PerformanceControlDynamicCaps.currentUpperLimitIndex, ite_self]
  · rw [← validIndex_or, ← validIndex_or, ← validIndex_ordered,
      PerformanceControlCapabilitiesArbitrator.getArbitrated,
      PerformanceControlCapabilitiesArbitrator.createNewArbitratedCapabilities,
      apply_ite PerformanceControlDynamicCaps.currentLowerLimitIndex]

/-- Requests for the ends that somebody else makes lead to the same end. -/
theorem eq_of_requested_comp {tighter : UIntN → UIntN → Prop} {pick : UIntN → UIntN → UIntN}
    (hpick : Picks tighter pick) {requests requests' : PolicyIndex → Option UIntN}
    {σ : Equiv.Perm PolicyIndex} (hσ : requests' = requests ∘ σ) {i i' : UIntN}
    (h : IsTightest tighter (Requested requests) (validIndex i))
    (h' : IsTightest tighter (Requested requests') (validIndex i')) : i' = i := by
  rw [hσ, requested_comp] at h'
  exact validIndex_inj (h'.unique hpick.antisymm h)

theorem performance_anonymous (ops ops' : List ArbitrationOp) (σ : Equiv.Perm PolicyIndex)
    (hσ : (liveCaps ops').performance = (liveCaps ops).performance ∘ σ)
    (current : PerformanceControlDynamicCaps) :
    (Domain.arbitrated ops').performanceCapabilities.getArbitrated current =
      (Domain.arbitrated ops).performanceCapabilities.getArbitrated current := by
  have hrecords := (recordsLive_arbitrated ops).performance
  have hrecords' := (recordsLive_arbitrated ops').performance
  have hupper := eq_of_requested_comp picks_max_index
    (by rw [hrecords'.first_requests, hrecords.first_requests, hσ]; rfl)
    (isTightest_getBiggestUpperPStateIndex
      (Domain.arbitrated ops).performanceCapabilities.requestedUpperPState)
    (isTightest_getBiggestUpperPStateIndex
      (Domain.arbitrated ops').performanceCapabilities.requestedUpperPState)
  have hlower := eq_of_requested_comp picks_min_index
    (by rw [hrecords'.second_requests, hrecords.second_requests, hσ]; rfl)
    (isTightest_getSmallestLowerPStateIndex
      (Domain.arbitrated ops).performanceCapabilities.requestedLowerPState)
    (isTightest_getSmallestLowerPStateIndex
      (Domain.arbitrated ops').performanceCapabilities.requestedLowerPState)
  rw [PerformanceControlCapabilitiesArbitrator.getArbitrated,
    PerformanceControlCapabilitiesArbitrator.getArbitrated,
    PerformanceControlCapabilitiesArbitrator.createNewArbitratedCapabilities,
    PerformanceControlCapabilitiesArbitrator.createNewArbitratedCapabilities, hupper, hlower]

/-! ## Powers -/

section Power

variable {V : Type} [LinearOrder V]

/-- The second end is moved, if it lies beyond the first one. -/
theorem leastNotAbove_eq_ordered (greatest least : Option V) :
    PowerCapsRequests.leastNotAbove greatest least = ordered (· ≥ ·) greatest least := by
  cases greatest with
  | none => cases least <;> rfl
  | some g =>
    cases least with
    | none => rfl
    | some l =>
      rw [PowerCapsRequests.leastNotAbove, ordered]
      by_cases h : g < l
      · rw [if_pos h, if_neg (not_le.2 h)]
      · rw [if_neg h, if_pos (not_lt.1 h)]

end Power

theorem mem_getControlTypes_iff (ops : List ArbitrationOp) (k : PowerControlType) :
    k ∈ (Domain.arbitrated ops).powerCapabilities.requested.getControlTypes ↔
      ∃ p, (((liveCaps ops).power p).bind fun caps => caps k).isSome := by
  have hrecords := recordsLive_arbitrated ops
  have hiff := hrecords.maxPowerLimit.hasControlType_iff k
  rw [PowerCapsRequests.getControlTypes, List.mem_filter, and_iff_right (ControlType.mem_types k)]
  simp only [Bool.or_eq_true]
  rw [hiff, hrecords.minPowerLimit.hasControlType_iff k,
    hrecords.powerLimitStep.hasControlType_iff k, hrecords.maxTimeWindow.hasControlType_iff k,
    hrecords.minTimeWindow.hasControlType_iff k]
  simp only [or_self]

/-- A capability that is arbitrated is made of the requests for its control type. -/
theorem eq_arbitratedCapability {r : PowerCapsRequests} {current : PowerControlDynamicCapsSet}
    {k : PowerControlType} {caps : PowerControlDynamicCaps}
    (h : (r.createNewArbitratedCapabilities current).find k = some caps) :
    caps = r.arbitratedCapability k current := by
  rw [find_createNewArbitratedCapabilities] at h
  split_ifs at h
  exact (Option.some.inj h).symm

/-- The loop over a map that records live requests. -/
theorem RecordsField.isTightest {V : Type} {field : PowerControlDynamicCaps → Option V}
    {requests : FieldRequests V} {live : PolicyIndex → Option PowerCapsByType}
    (h : RecordsField field requests live) {tighter : V → V → Prop} {pick : V → V → V}
    (hpick : Picks tighter pick) (k : PowerControlType) :
    IsTightest tighter (Requested (powerFieldRequests live k field))
      (tightestRequest pick k requests) := by
  rw [← h.requests k]
  exact isTightest_tightestRequest hpick k requests

/-- **The windows of powers and times** are those that the live requests leave. -/
theorem powerWindows_getArbitrated (ops : List ArbitrationOp)
    (current : PowerControlDynamicCapsSet) :
    PowerWindows (liveCaps ops).power current
      ((Domain.arbitrated ops).powerCapabilities.getArbitrated current) := by
  have hrecords := recordsLive_arbitrated ops
  refine ⟨fun k => ?_, fun k caps hcaps => ?_, fun k caps hcaps => ?_, fun k caps hcaps => ?_⟩
  · rw [← mem_getControlTypes_iff, PowerControlCapabilitiesArbitrator.getArbitrated,
      find_createNewArbitratedCapabilities]
    split_ifs with hmem
    · exact iff_of_true rfl hmem
    · exact iff_of_false Bool.false_ne_true hmem
  · obtain rfl := eq_arbitratedCapability hcaps
    exact ⟨_, _, hrecords.maxPowerLimit.isTightest picks_min k,
      hrecords.minPowerLimit.isTightest picks_min k, rfl,
      leastNotAbove_eq_ordered _ _⟩
  · obtain rfl := eq_arbitratedCapability hcaps
    exact ⟨_, hrecords.powerLimitStep.isTightest picks_max k, rfl⟩
  · obtain rfl := eq_arbitratedCapability hcaps
    exact ⟨_, _, hrecords.maxTimeWindow.isTightest picks_min k,
      hrecords.minTimeWindow.isTightest picks_max k, rfl,
      leastNotAbove_eq_ordered _ _⟩

/-- Requests for a field that somebody else makes lead to the same value. -/
theorem RecordsField.tightestRequest_comp {V : Type} {field : PowerControlDynamicCaps → Option V}
    {requests requests' : FieldRequests V} {live live' : PolicyIndex → Option PowerCapsByType}
    (h : RecordsField field requests live) (h' : RecordsField field requests' live')
    {σ : Equiv.Perm PolicyIndex} (hσ : live' = live ∘ σ) {tighter : V → V → Prop}
    {pick : V → V → V} (hpick : Picks tighter pick) (k : PowerControlType) :
    tightestRequest pick k requests' = tightestRequest pick k requests := by
  have htightest := h.isTightest hpick k
  have htightest' := h'.isTightest hpick k
  have hrequests : powerFieldRequests live' k field = powerFieldRequests live k field ∘ σ := by
    rw [hσ]
    rfl
  rw [hrequests, requested_comp] at htightest'
  exact htightest'.unique hpick.antisymm htightest

theorem power_anonymous (ops ops' : List ArbitrationOp) (σ : Equiv.Perm PolicyIndex)
    (hσ : (liveCaps ops').power = (liveCaps ops).power ∘ σ) (current : PowerControlDynamicCapsSet) :
    (Domain.arbitrated ops').powerCapabilities.getArbitrated current =
      (Domain.arbitrated ops).powerCapabilities.getArbitrated current := by
  have h := recordsLive_arbitrated ops
  have h' := recordsLive_arbitrated ops'
  apply KeyMap.ext_find
  intro k
  have htypes : k ∈ (Domain.arbitrated ops').powerCapabilities.requested.getControlTypes ↔
      k ∈ (Domain.arbitrated ops).powerCapabilities.requested.getControlTypes := by
    rw [mem_getControlTypes_iff, mem_getControlTypes_iff, hσ]
    exact σ.exists_congr_left.trans (by simp)
  rw [PowerControlCapabilitiesArbitrator.getArbitrated,
    PowerControlCapabilitiesArbitrator.getArbitrated, find_createNewArbitratedCapabilities,
    find_createNewArbitratedCapabilities, if_congr htypes _ rfl]
  congr 1
  rw [PowerCapsRequests.arbitratedCapability, PowerCapsRequests.arbitratedCapability,
    getLowestMaxPowerLimit, getLowestMinPowerLimit, getHighestPowerLimitStep,
    getLowestMaxTimeWindow, getHighestMinTimeWindow,
    h.maxPowerLimit.tightestRequest_comp h'.maxPowerLimit hσ picks_min k,
    h.minPowerLimit.tightestRequest_comp h'.minPowerLimit hσ picks_min k,
    h.powerLimitStep.tightestRequest_comp h'.powerLimitStep hσ picks_max k,
    h.maxTimeWindow.tightestRequest_comp h'.maxTimeWindow hσ picks_min k,
    h.minTimeWindow.tightestRequest_comp h'.minTimeWindow hσ picks_max k]

/-! ## Brightness levels -/

/-- No policy requests an invalid upper and a valid lower limit. -/
def UpperLimitsRequested (live : PolicyIndex → Option DisplayControlDynamicCaps) : Prop :=
  ∀ p caps, live p = some caps → caps.currentLowerLimit ≠ invalidIndex →
    caps.currentUpperLimit ≠ invalidIndex

/-- Then no request that is kept has an invalid upper limit. -/
theorem UpperLimitsRequested.valid {live : PolicyIndex → Option DisplayControlDynamicCaps}
    (h : UpperLimitsRequested live) {maxRequests minRequests : IndexRequests}
    (hrecords : RecordsPair DisplayControlDynamicCaps.currentUpperLimit
      DisplayControlDynamicCaps.currentLowerLimit maxRequests minRequests live)
    {i : UIntN} (hi : i ∈ maxRequests.values) : i ≠ invalidIndex := by
  obtain ⟨p, hp⟩ := (maxRequests.mem_values_iff i).1 hi
  rw [(hrecords p).1] at hp
  obtain ⟨caps, hcaps, hkept⟩ := Option.bind_eq_some_iff.1 hp
  rw [keptIndex] at hkept
  split_ifs at hkept with hinvalid
  cases hkept
  intro hupper
  exact h p caps hcaps (fun hlower => hinvalid ⟨hupper, hlower⟩) hupper

/-- Without invalid requests the loop finds the largest upper limit. -/
theorem isTightest_getLowestMaxDisplayIndex {maxRequests : IndexRequests}
    (hvalid : ∀ i ∈ maxRequests.values, i ≠ invalidIndex) :
    IsTightest (· ≥ ·) (Requested fun p => (maxRequests.find p).bind validIndex)
      (validIndex (DisplayControlCapabilitiesArbitrator.getLowestMaxDisplayIndex maxRequests)) := by
  rw [DisplayControlCapabilitiesArbitrator.getLowestMaxDisplayIndex,
    @validIndex_foldl max _ _ fun r hr t => ?_, validIndex_invalid]
  · exact isTightest_foldl_values picks_max_index maxRequests validIndex
  · rw [validIndex_of_ne (hvalid r hr)]
    by_cases ht : t = invalidIndex
    · rw [if_pos ht, ht, validIndex_of_ne (hvalid r hr), validIndex_invalid, Option.merge_none_left]
    · rw [if_neg ht, validIndex_of_ne ht, Option.merge_some_some, validIndex_of_ne]
      rcases picks_max_index.mem t r with h | h
      · rwa [h]
      · rw [h]
        exact hvalid r hr

/-- The upper limit is kept, and the lower one moved without a test for invalid limits. -/
theorem validIndex_displayOrdered {upper lower : UIntN}
    (h : upper = invalidIndex → lower = invalidIndex) :
    validIndex (if upper > lower then upper else lower) =
      ordered (· ≤ ·) (validIndex upper) (validIndex lower) := by
  rw [← validIndex_ordered]
  by_cases hlt : upper > lower
  · have hlower : lower ≠ invalidIndex := by
      rintro rfl
      exact UInt32.not_lt.2 (le_invalidIndex upper) hlt
    rw [if_pos hlt, if_pos ⟨fun hupper => hlower (h hupper), hlower, hlt⟩]
  · rw [if_neg hlt, if_neg fun hall => hlt hall.2.2]

theorem capabilities_upper (minRequests maxRequests : IndexRequests) :
    (DisplayControlCapabilitiesArbitrator.capabilities minRequests maxRequests).currentUpperLimit =
      DisplayControlCapabilitiesArbitrator.getLowestMaxDisplayIndex maxRequests := by
  rw [DisplayControlCapabilitiesArbitrator.capabilities,
    apply_ite DisplayControlDynamicCaps.currentUpperLimit, ite_self]

theorem capabilities_lower (minRequests maxRequests : IndexRequests) :
    (DisplayControlCapabilitiesArbitrator.capabilities minRequests maxRequests).currentLowerLimit =
      if DisplayControlCapabilitiesArbitrator.getLowestMaxDisplayIndex maxRequests >
          DisplayControlCapabilitiesArbitrator.getHighestMinDisplayIndex minRequests
        then DisplayControlCapabilitiesArbitrator.getLowestMaxDisplayIndex maxRequests
        else DisplayControlCapabilitiesArbitrator.getHighestMinDisplayIndex minRequests := by
  rw [DisplayControlCapabilitiesArbitrator.capabilities,
    apply_ite DisplayControlDynamicCaps.currentLowerLimit]

/-- **The window of brightness levels**, if no invalid upper limit is requested with a valid lower
one. -/
theorem displayWindow_getArbitrated {ops : List ArbitrationOp}
    (h : UpperLimitsRequested (liveCaps ops).display) :
    DisplayWindow (liveCaps ops).display
      (Domain.arbitrated ops).displayCapabilities.getArbitrated := by
  have hrecords := (recordsLive_arbitrated ops).display
  have hupper := isTightest_getLowestMaxDisplayIndex fun i hi => h.valid hrecords hi
  have hlower := isTightest_getHighestMinDisplayIndex
    (Domain.arbitrated ops).displayCapabilities.requestedMinDisplayIndex
  rw [hrecords.first_requests] at hupper
  rw [hrecords.second_requests] at hlower
  refine ⟨_, _, hupper, hlower, ?_, ?_⟩
  · rw [Option.or_none, DisplayControlCapabilitiesArbitrator.getArbitrated, capabilities_upper]
  · rw [Option.or_none, Option.or_none, ← validIndex_displayOrdered,
      DisplayControlCapabilitiesArbitrator.getArbitrated, capabilities_lower]
    -- Without upper limits there are no lower ones.
    intro hnone
    rw [hnone] at hupper
    by_contra hlower'
    rw [validIndex_of_ne hlower'] at hlower
    obtain ⟨p, hp⟩ := hlower.1
    obtain ⟨caps, hcaps, hvalid⟩ := Option.bind_eq_some_iff.1 hp
    have hcaps' := (validIndex_eq_some_iff.1 hvalid)
    refine hupper caps.currentUpperLimit ⟨p, ?_⟩
    beta_reduce
    rw [hcaps, Option.bind_some]
    exact validIndex_of_ne (h p caps hcaps (hcaps'.1 ▸ hcaps'.2))

theorem UpperLimitsRequested.comp {live : PolicyIndex → Option DisplayControlDynamicCaps}
    (h : UpperLimitsRequested live) (σ : Equiv.Perm PolicyIndex) :
    UpperLimitsRequested (live ∘ σ) := fun p => h (σ p)

theorem display_anonymous {ops : List ArbitrationOp}
    (h : UpperLimitsRequested (liveCaps ops).display) (ops' : List ArbitrationOp)
    (σ : Equiv.Perm PolicyIndex) (hσ : (liveCaps ops').display = (liveCaps ops).display ∘ σ) :
    (Domain.arbitrated ops').displayCapabilities.getArbitrated =
      (Domain.arbitrated ops).displayCapabilities.getArbitrated := by
  have h' : UpperLimitsRequested (liveCaps ops').display := hσ ▸ h.comp σ
  have hrecords := (recordsLive_arbitrated ops).display
  have hrecords' := (recordsLive_arbitrated ops').display
  have hupper := eq_of_requested_comp picks_max_index
    (by rw [hrecords'.first_requests, hrecords.first_requests, hσ]; rfl)
    (isTightest_getLowestMaxDisplayIndex fun i hi => h.valid hrecords hi)
    (isTightest_getLowestMaxDisplayIndex fun i hi => h'.valid hrecords' hi)
  have hlower := eq_of_requested_comp picks_min_index
    (by rw [hrecords'.second_requests, hrecords.second_requests, hσ]; rfl)
    (isTightest_getHighestMinDisplayIndex
      (Domain.arbitrated ops).displayCapabilities.requestedMinDisplayIndex)
    (isTightest_getHighestMinDisplayIndex
      (Domain.arbitrated ops').displayCapabilities.requestedMinDisplayIndex)
  rw [DisplayControlCapabilitiesArbitrator.getArbitrated,
    DisplayControlCapabilitiesArbitrator.getArbitrated,
    DisplayControlCapabilitiesArbitrator.capabilities,
    DisplayControlCapabilitiesArbitrator.capabilities, hupper, hlower]

/-! ## The policy that comes last -/

theorem CapsOp.live_eventually_none {C R : Type} (request : Option R → C → R)
    {live : PolicyIndex → Option R} (h : ∃ n, ∀ q, n ≤ q → live q = none) (op : CapsOp C) :
    ∃ n, ∀ q, n ≤ q → op.live request live q = none := by
  obtain ⟨n, hn⟩ := h
  cases op with
  | commit p caps =>
    refine ⟨max n (p + 1), fun q hq => ?_⟩
    have hpq : p < q := lt_of_lt_of_le (Nat.lt_succ_self p) ((le_max_right _ _).trans hq)
    rw [CapsOp.live, Function.update_of_ne hpq.ne', hn q ((le_max_left _ _).trans hq)]
  | lock p lock => exact ⟨n, hn⟩
  | remove p =>
    refine ⟨n, fun q hq => ?_⟩
    rw [CapsOp.live, Function.update_apply, hn q hq, ite_self]

/-- After a history only so many policies have requests. -/
theorem display_eventually_none (ops : List ArbitrationOp) :
    ∃ n, ∀ q, n ≤ q → (liveCaps ops).display q = none := by
  induction ops using List.reverseRecOn with
  | nil => exact ⟨0, fun _ _ => rfl⟩
  | append_singleton ops op ih =>
    rw [liveCaps_concat]
    cases op with
    | displayCapabilities op => exact CapsOp.live_eventually_none (fun _ caps => caps) ih op
    | clearPolicyCachedData p =>
      exact CapsOp.live_eventually_none (fun _ caps => caps) ih (.remove p)
    | coreControl op => exact ih
    | performanceControl op => exact ih
    | performanceCapabilities op => exact ih
    | powerCapabilities op => exact ih

/-- The loop keeps the last request, if that one is invalid. -/
theorem getLowestMaxDisplayIndex_assign_invalid {maxRequests : IndexRequests} {q : PolicyIndex}
    (h : ∀ k v, maxRequests.find k = some v → k < q) :
    DisplayControlCapabilitiesArbitrator.getLowestMaxDisplayIndex
      (maxRequests.assign q invalidIndex) = invalidIndex := by
  rw [DisplayControlCapabilitiesArbitrator.getLowestMaxDisplayIndex, KeyMap.values_assign_of_gt h,
    List.foldl_append]
  show (if _ then invalidIndex else max _ invalidIndex) = invalidIndex
  split
  · rfl
  · exact if_pos (le_invalidIndex _)

/-- A history that ends with the request of a policy above all others. -/
def moveLast (ops : List ArbitrationOp) (p q : PolicyIndex) (caps : DisplayControlDynamicCaps) :
    List ArbitrationOp :=
  ops ++ [.displayCapabilities (.remove p), .displayCapabilities (.commit q caps)]

theorem display_moveLast {ops : List ArbitrationOp} {p q : PolicyIndex}
    {caps : DisplayControlDynamicCaps} (hcaps : (liveCaps ops).display p = some caps)
    (hq : (liveCaps ops).display q = none) :
    (liveCaps (moveLast ops p q caps)).display = (liveCaps ops).display ∘ Equiv.swap p q := by
  have hpq : q ≠ p := by
    rintro rfl
    rw [hcaps] at hq
    cases hq
  rw [moveLast, List.append_cons, liveCaps_concat, liveCaps_concat]
  show Function.update (Function.update (liveCaps ops).display p none) q (some caps) = _
  funext r
  rw [Function.comp_apply]
  by_cases hrq : r = q
  · rw [hrq, Function.update_self, Equiv.swap_apply_right, hcaps]
  · rw [Function.update_of_ne hrq]
    by_cases hrp : r = p
    · rw [hrp, Function.update_self, Equiv.swap_apply_left, hq]
    · rw [Function.update_of_ne hrp, Equiv.swap_apply_of_ne_of_ne hrp hrq]

/-- An invalid upper limit of the last policy is arbitrated, whatever the others request. -/
theorem upper_moveLast {ops : List ArbitrationOp} {p q : PolicyIndex}
    {caps : DisplayControlDynamicCaps} (hupper : caps.currentUpperLimit = invalidIndex)
    (hlower : caps.currentLowerLimit ≠ invalidIndex)
    (hq : ∀ r, q ≤ r → (liveCaps ops).display r = none) : (Domain.arbitrated
      (moveLast ops p q caps)).displayCapabilities.getArbitrated.currentUpperLimit =
        invalidIndex := by
  have hrecords := (recordsLive_arbitrated ops).display
  rw [DisplayControlCapabilitiesArbitrator.getArbitrated, capabilities_upper, moveLast,
    List.append_cons, Domain.arbitrated_concat, Domain.arbitrated_concat]
  show DisplayControlCapabilitiesArbitrator.getLowestMaxDisplayIndex
    (ite _ _ _ : IndexRequests × IndexRequests).2 = _
  rw [if_neg fun h => hlower h.2, hupper]
  apply getLowestMaxDisplayIndex_assign_invalid
  intro k v hfind
  have herase : ((Domain.arbitrated ops).displayCapabilities.requestedMaxDisplayIndex.erase p).find
      k = some v := hfind
  rw [KeyMap.find_erase] at herase
  split_ifs at herase
  rw [(hrecords k).1] at herase
  by_contra hlt
  rw [hq k (not_lt.1 hlt)] at herase
  cases herase

/-- A window without an upper limit has no lower limit either, the way it is arbitrated. -/
theorem lower_eq_invalid {ops : List ArbitrationOp}
    (h : (Domain.arbitrated ops).displayCapabilities.getArbitrated.currentUpperLimit =
      invalidIndex) :
    (Domain.arbitrated ops).displayCapabilities.getArbitrated.currentLowerLimit =
      invalidIndex := by
  rw [DisplayControlCapabilitiesArbitrator.getArbitrated, capabilities_upper] at h
  rw [DisplayControlCapabilitiesArbitrator.getArbitrated, capabilities_lower, h]
  split_ifs with hlt
  · rfl
  · exact UInt32.le_antisymm (le_invalidIndex _) (UInt32.not_lt.1 hlt)

/-- **A window without an upper limit is one without requests.** -/
theorem DisplayWindow.none_requested {live : PolicyIndex → Option DisplayControlDynamicCaps}
    {result : DisplayControlDynamicCaps} (h : DisplayWindow live result)
    (hupper : result.currentUpperLimit = invalidIndex)
    (hlower : result.currentLowerLimit = invalidIndex) {p : PolicyIndex}
    {caps : DisplayControlDynamicCaps} (hp : live p = some caps) :
    caps.currentLowerLimit = invalidIndex := by
  obtain ⟨upper, lower, -, hlower', hu, hl⟩ := h
  rw [hupper, validIndex_invalid, Option.or_none] at hu
  rw [hlower, validIndex_invalid, ← hu, Option.none_or, Option.or_none] at hl
  have hnone : lower = none := by
    cases lower with
    | none => rfl
    | some l => cases hl
  rw [hnone] at hlower'
  by_contra hvalid
  refine hlower' caps.currentLowerLimit ⟨p, ?_⟩
  beta_reduce
  rw [hp, Option.bind_some, validIndex_of_ne hvalid]

/-! ## The arbitrators of capabilities -/

/-- **The arbitrators give the tightest windows, whoever requests what, just if** no live request
for the display has an invalid upper and a valid lower limit. -/
theorem capabilityArbitration_iff (ops : List ArbitrationOp) :
    CapabilityArbitration ops ↔ UpperLimitsRequested (liveCaps ops).display := by
  constructor
  · intro h p caps hcaps hlower hupper
    obtain ⟨q, hq⟩ := display_eventually_none ops
    have hsame := h.display_anonymous _ _ (display_moveLast hcaps (hq q (le_refl q)))
    have hinvalid := upper_moveLast (p := p) hupper hlower hq
    rw [hsame] at hinvalid
    exact hlower (h.display.none_requested hinvalid (lower_eq_invalid hinvalid) hcaps)
  · intro h
    exact {
      performance := performanceWindow_getArbitrated ops
      power := powerWindows_getArbitrated ops
      display := displayWindow_getArbitrated h
      performance_anonymous := performance_anonymous ops
      power_anonymous := power_anonymous ops
      display_anonymous := display_anonymous h
      performance_arbitrate := fun p caps current => by
        rw [Domain.arbitrated_concat]
        rfl
      power_arbitrate := fun p capSet current => by
        rw [Domain.arbitrated_concat]
        rfl
      display_arbitrate := fun p caps => by
        rw [Domain.arbitrated_concat]
        rfl }

/-- The second policy requests no upper limit, and the upper limit of the first one is lost. -/
theorem not_capabilityArbitration_invalid_upper :
    ¬ CapabilityArbitration
      [.displayCapabilities (.commit 0 ⟨5, 10⟩),
        .displayCapabilities (.commit 1 ⟨invalidIndex, 8⟩)] := by
  intro h
  have hlive : (liveCaps [.displayCapabilities (.commit 0 ⟨5, 10⟩),
      .displayCapabilities (.commit 1 ⟨invalidIndex, 8⟩)]).display 0 = some ⟨5, 10⟩ := rfl
  have hlower := h.display.none_requested (by decide) (by decide) hlive
  exact absurd hlower (by decide)

end Mgr

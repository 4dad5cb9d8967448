import Dptf.Mgr.Domain

/-!
# Histories of requests

What is asked of the arbitrators of a domain, and which requests for capabilities live after it.
-/

open Lib

namespace Mgr

/-! ## Operations -/

/-- What is asked of an arbitrator of one number. -/
inductive IndexOp
  | commit (policyIndex : PolicyIndex) (index : UIntN)
  | clear (policyIndex : PolicyIndex)

/-- What is asked of an arbitrator of capabilities. -/
inductive CapsOp (C : Type)
  | commit (policyIndex : PolicyIndex) (caps : C)
  | lock (policyIndex : PolicyIndex) (lock : Bool)
  | remove (policyIndex : PolicyIndex)

/-- What is asked of the arbitrators of a domain, the last one of all of them. -/
inductive ArbitrationOp
  | coreControl (op : IndexOp)
  | performanceControl (op : IndexOp)
  | performanceCapabilities (op : CapsOp PerformanceControlDynamicCaps)
  | displayCapabilities (op : CapsOp DisplayControlDynamicCaps)
  | powerCapabilities (op : CapsOp PowerControlDynamicCapsSet)
  | clearPolicyCachedData (policyIndex : PolicyIndex)

/-- An operation on a `CoreControlArbitrator`. -/
def CoreControlArbitrator.apply (a : CoreControlArbitrator) : IndexOp → CoreControlArbitrator
  | .commit policyIndex status => a.commitPolicyRequest policyIndex status
  | .clear policyIndex => a.clearPolicyCachedData policyIndex

/-- An operation on a `PerformanceControlArbitrator`. -/
def PerformanceControlArbitrator.apply (a : PerformanceControlArbitrator) :
    IndexOp → PerformanceControlArbitrator
  | .commit policyIndex index => a.commitPolicyRequest policyIndex index
  | .clear policyIndex => a.clearPolicyCachedData policyIndex

/-- An operation on a `PerformanceControlCapabilitiesArbitrator`. -/
def PerformanceControlCapabilitiesArbitrator.apply (a : PerformanceControlCapabilitiesArbitrator) :
    CapsOp PerformanceControlDynamicCaps → PerformanceControlCapabilitiesArbitrator
  | .commit policyIndex caps => a.commitPolicyRequest policyIndex caps
  | .lock policyIndex lock =>
    { a with requestedLocks := (a.requestedLocks.arbitrateLockRequests policyIndex lock).1 }
  | .remove policyIndex => a.removeRequestsForPolicy policyIndex

/-- An operation on a `DisplayControlCapabilitiesArbitrator`. -/
def DisplayControlCapabilitiesArbitrator.apply (a : DisplayControlCapabilitiesArbitrator) :
    CapsOp DisplayControlDynamicCaps → DisplayControlCapabilitiesArbitrator
  | .commit policyIndex caps => a.commitPolicyRequest policyIndex caps
  | .lock policyIndex lock =>
    { a with requestedLocks := (a.requestedLocks.arbitrateLockRequests policyIndex lock).1 }
  | .remove policyIndex => a.removeRequestsForPolicy policyIndex

/-- An operation on a `PowerControlCapabilitiesArbitrator`. -/
def PowerControlCapabilitiesArbitrator.apply (a : PowerControlCapabilitiesArbitrator) :
    CapsOp PowerControlDynamicCapsSet → PowerControlCapabilitiesArbitrator
  | .commit policyIndex capSet => a.commitPolicyRequest policyIndex capSet
  | .lock policyIndex lock =>
    { a with requestedLocks := (a.requestedLocks.arbitrateLockRequests policyIndex lock).1 }
  | .remove policyIndex => a.removeRequestsForPolicy policyIndex

/-- An operation on a domain. -/
def Domain.arbitrate (d : Domain) : ArbitrationOp → Domain
  | .coreControl op => { d with coreControl := d.coreControl.apply op }
  | .performanceControl op => { d with performanceControl := d.performanceControl.apply op }
  | .performanceCapabilities op =>
    { d with performanceCapabilities := d.performanceCapabilities.apply op }
  | .displayCapabilities op => { d with displayCapabilities := d.displayCapabilities.apply op }
  | .powerCapabilities op => { d with powerCapabilities := d.powerCapabilities.apply op }
  | .clearPolicyCachedData policyIndex => d.clearPolicyCachedData policyIndex

/-- A domain after a history. -/
def Domain.arbitrated (ops : List ArbitrationOp) : Domain :=
  ops.foldl Domain.arbitrate Domain.empty

theorem Domain.arbitrated_concat (ops : List ArbitrationOp) (op : ArbitrationOp) :
    Domain.arbitrated (ops ++ [op]) = (Domain.arbitrated ops).arbitrate op :=
  List.foldl_append ..

/-! ## The requests that live -/

section Live

variable {C R : Type}

/-- What becomes of the live requests; `request` says what a policy requests after a commit, and
before. -/
def CapsOp.live (request : Option R → C → R) (live : PolicyIndex → Option R) :
    CapsOp C → PolicyIndex → Option R
  | .commit policyIndex caps =>
    Function.update live policyIndex (some (request (live policyIndex) caps))
  | .lock _ _ => live
  | .remove policyIndex => Function.update live policyIndex none

end Live

/-- The requests for power capabilities of one policy, by control type. -/
abbrev PowerCapsByType := PowerControlType → Option PowerControlDynamicCaps

/-- What a policy requests once it commits a set of capabilities: those, and for the other control
types what it requested before. -/
def powerRequest (before : Option PowerCapsByType) (capSet : PowerControlDynamicCapsSet) :
    PowerCapsByType :=
  fun controlType => (capSet.find controlType).or (before.bind fun caps => caps controlType)

/-- The last requests for capabilities of the policies that were not removed. -/
structure LiveCaps where
  performance : PolicyIndex → Option PerformanceControlDynamicCaps
  display : PolicyIndex → Option DisplayControlDynamicCaps
  power : PolicyIndex → Option PowerCapsByType

/-- What an operation makes of the live requests. -/
def LiveCaps.apply (live : LiveCaps) : ArbitrationOp → LiveCaps
  | .performanceCapabilities op =>
    { live with performance := op.live (fun _ caps => caps) live.performance }
  | .displayCapabilities op => { live with display := op.live (fun _ caps => caps) live.display }
  | .powerCapabilities op => { live with power := op.live powerRequest live.power }
  | .clearPolicyCachedData policyIndex =>
    { performance := Function.update live.performance policyIndex none
      display := Function.update live.display policyIndex none
      power := Function.update live.power policyIndex none }
  | _ => live

/-- The live requests after a history. -/
def liveCaps (ops : List ArbitrationOp) : LiveCaps :=
  ops.foldl LiveCaps.apply ⟨fun _ => none, fun _ => none, fun _ => none⟩

theorem liveCaps_concat (ops : List ArbitrationOp) (op : ArbitrationOp) :
    liveCaps (ops ++ [op]) = (liveCaps ops).apply op :=
  List.foldl_append ..

/-! ## What the maps record -/

/-- A pair of requests is kept, unless both are invalid; `index` is the one of interest. -/
def keptIndex (first second index : UIntN) : Option UIntN :=
  if first = invalidIndex ∧ second = invalidIndex then none else some index

/-- Two maps record the live requests for two indexes. -/
def RecordsPair {C : Type} (first second : C → UIntN) (firstRequests secondRequests : IndexRequests)
    (live : PolicyIndex → Option C) : Prop :=
  ∀ p, firstRequests.find p =
      ((live p).bind fun caps => keptIndex (first caps) (second caps) (first caps)) ∧
    secondRequests.find p =
      ((live p).bind fun caps => keptIndex (first caps) (second caps) (second caps))

/-- A map records the live requests for a field. -/
def RecordsField {V : Type} (field : PowerControlDynamicCaps → Option V)
    (requests : FieldRequests V) (live : PolicyIndex → Option PowerCapsByType) : Prop :=
  ∀ p k, fieldRequest requests p k = ((live p).bind fun caps => caps k).map field

/-- The maps of the arbitrators record the live requests. -/
structure RecordsLive (d : Domain) (live : LiveCaps) : Prop where
  performance : RecordsPair PerformanceControlDynamicCaps.currentUpperLimitIndex
    PerformanceControlDynamicCaps.currentLowerLimitIndex
    d.performanceCapabilities.requestedUpperPState d.performanceCapabilities.requestedLowerPState
    live.performance
  display : RecordsPair DisplayControlDynamicCaps.currentUpperLimit
    DisplayControlDynamicCaps.currentLowerLimit d.displayCapabilities.requestedMaxDisplayIndex
    d.displayCapabilities.requestedMinDisplayIndex live.display
  maxPowerLimit : RecordsField PowerControlDynamicCaps.maxPowerLimit
    d.powerCapabilities.requested.maxPowerLimit live.power
  minPowerLimit : RecordsField PowerControlDynamicCaps.minPowerLimit
    d.powerCapabilities.requested.minPowerLimit live.power
  powerLimitStep : RecordsField PowerControlDynamicCaps.powerStepSize
    d.powerCapabilities.requested.powerLimitStep live.power
  maxTimeWindow : RecordsField PowerControlDynamicCaps.maxTimeWindow
    d.powerCapabilities.requested.maxTimeWindow live.power
  minTimeWindow : RecordsField PowerControlDynamicCaps.minTimeWindow
    d.powerCapabilities.requested.minTimeWindow live.power

section RecordsPair

variable {C : Type} {first second : C → UIntN} {firstRequests secondRequests : IndexRequests}
  {live : PolicyIndex → Option C}

/-- A commit sets both requests of a policy, or erases them if both are invalid. -/
theorem RecordsPair.commit (h : RecordsPair first second firstRequests secondRequests live)
    (p : PolicyIndex) (caps : C) :
    RecordsPair first second
      (if first caps = invalidIndex ∧ second caps = invalidIndex then firstRequests.erase p
        else firstRequests.assign p (first caps))
      (if first caps = invalidIndex ∧ second caps = invalidIndex then secondRequests.erase p
        else secondRequests.assign p (second caps))
      (Function.update live p (some caps)) := by
  intro q
  by_cases hq : q = p
  · subst hq
    rw [Function.update_self, Option.bind_some, Option.bind_some, keptIndex, keptIndex]
    split_ifs with hinvalid
    · rw [KeyMap.find_erase, KeyMap.find_erase, if_pos rfl, if_pos rfl]
      exact ⟨rfl, rfl⟩
    · rw [KeyMap.find_assign, KeyMap.find_assign, if_pos rfl, if_pos rfl]
      exact ⟨rfl, rfl⟩
  · rw [Function.update_of_ne hq]
    split_ifs with hinvalid
    · rw [KeyMap.find_erase, KeyMap.find_erase, if_neg hq, if_neg hq]
      exact h q
    · rw [KeyMap.find_assign, KeyMap.find_assign, if_neg hq, if_neg hq]
      exact h q

theorem RecordsPair.erase (h : RecordsPair first second firstRequests secondRequests live)
    (p : PolicyIndex) :
    RecordsPair first second (firstRequests.erase p) (secondRequests.erase p)
      (Function.update live p none) := by
  intro q
  rw [KeyMap.find_erase, KeyMap.find_erase]
  by_cases hq : q = p
  · rw [if_pos hq, if_pos hq, hq, Function.update_self]
    exact ⟨rfl, rfl⟩
  · rw [if_neg hq, if_neg hq, Function.update_of_ne hq]
    exact h q

end RecordsPair

section RecordsField

variable {V : Type} {field : PowerControlDynamicCaps → Option V} {requests : FieldRequests V}
  {live : PolicyIndex → Option PowerCapsByType}

theorem RecordsField.commit (h : RecordsField field requests live) (p : PolicyIndex)
    (capSet : PowerControlDynamicCapsSet) :
    RecordsField field
      (capSet.entries.foldl (fun r e => setFieldRequest r p e.1 (field e.2)) requests)
      (Function.update live p (some (powerRequest (live p) capSet))) := by
  intro q k
  rw [fieldRequest_foldl_set field p capSet.ascending]
  by_cases hq : q = p
  · subst hq
    rw [if_pos rfl, h q k, Function.update_self, Option.bind_some, powerRequest]
    cases capSet.find k <;> rfl
  · rw [if_neg hq, Function.update_of_ne hq]
    exact h q k

/-- The maps are set in one loop, which is one loop for each of them. -/
theorem RecordsField.updatePolicyRequest {requests : PowerCapsRequests → FieldRequests V}
    {r : PowerCapsRequests} (h : RecordsField field (requests r) live) (p : PolicyIndex)
    (capSet : PowerControlDynamicCapsSet)
    (hset : ∀ r e, setFieldRequest (requests r) p (Prod.fst e) (field (Prod.snd e)) =
      requests (r.set p (Prod.fst e) (Prod.snd e))) :
    RecordsField field (requests (r.updatePolicyRequest p capSet))
      (Function.update live p (some (powerRequest (live p) capSet))) := by
  have hloop : capSet.entries.foldl (fun m e => setFieldRequest m p e.1 (field e.2)) (requests r) =
      requests (capSet.entries.foldl (fun r e => r.set p e.1 e.2) r) :=
    List.foldl_hom requests hset
  rw [PowerCapsRequests.updatePolicyRequest, ← hloop]
  exact h.commit p capSet

theorem RecordsField.erase (h : RecordsField field requests live) (p : PolicyIndex) :
    RecordsField field (requests.erase p) (Function.update live p none) := by
  intro q k
  rw [fieldRequest_erase]
  by_cases hq : q = p
  · rw [if_pos hq, hq, Function.update_self]
    rfl
  · rw [if_neg hq, Function.update_of_ne hq]
    exact h q k

end RecordsField

/-- Removing a policy removes it from the live requests. -/
theorem RecordsLive.clear {d : Domain} {live : LiveCaps} (h : RecordsLive d live)
    (p : PolicyIndex) :
    RecordsLive (d.clearPolicyCachedData p) (live.apply (.clearPolicyCachedData p)) where
  performance := h.performance.erase p
  display := h.display.erase p
  maxPowerLimit := h.maxPowerLimit.erase p
  minPowerLimit := h.minPowerLimit.erase p
  powerLimitStep := h.powerLimitStep.erase p
  maxTimeWindow := h.maxTimeWindow.erase p
  minTimeWindow := h.minTimeWindow.erase p

theorem RecordsLive.performanceCapabilities {d : Domain} {live : LiveCaps} (h : RecordsLive d live)
    (op : CapsOp PerformanceControlDynamicCaps) :
    RecordsLive (d.arbitrate (.performanceCapabilities op))
      (live.apply (.performanceCapabilities op)) := by
  refine { h with performance := ?_ }
  cases op with
  | commit p caps =>
    have hcommit := h.performance.commit p caps
    show RecordsPair _ _ (ite _ _ _ : IndexRequests × IndexRequests).1
      (ite _ _ _ : IndexRequests × IndexRequests).2 _
    rw [apply_ite Prod.fst, apply_ite Prod.snd]
    exact hcommit
  | lock p lock => exact h.performance
  | remove p => exact h.performance.erase p

theorem RecordsLive.displayCapabilities {d : Domain} {live : LiveCaps} (h : RecordsLive d live)
    (op : CapsOp DisplayControlDynamicCaps) :
    RecordsLive (d.arbitrate (.displayCapabilities op)) (live.apply (.displayCapabilities op)) := by
  refine { h with display := ?_ }
  cases op with
  | commit p caps =>
    have hcommit := h.display.commit p caps
    show RecordsPair _ _ (ite _ _ _ : IndexRequests × IndexRequests).2
      (ite _ _ _ : IndexRequests × IndexRequests).1 _
    rw [apply_ite Prod.fst, apply_ite Prod.snd]
    exact hcommit
  | lock p lock => exact h.display
  | remove p => exact h.display.erase p

theorem RecordsLive.powerCapabilities {d : Domain} {live : LiveCaps} (h : RecordsLive d live)
    (op : CapsOp PowerControlDynamicCapsSet) :
    RecordsLive (d.arbitrate (.powerCapabilities op)) (live.apply (.powerCapabilities op)) := by
  cases op with
  | commit p capSet =>
    exact {
      performance := h.performance
      display := h.display
      maxPowerLimit := h.maxPowerLimit.updatePolicyRequest p capSet fun _ _ => rfl
      minPowerLimit := h.minPowerLimit.updatePolicyRequest p capSet fun _ _ => rfl
      powerLimitStep := h.powerLimitStep.updatePolicyRequest p capSet fun _ _ => rfl
      maxTimeWindow := h.maxTimeWindow.updatePolicyRequest p capSet fun _ _ => rfl
      minTimeWindow := h.minTimeWindow.updatePolicyRequest p capSet fun _ _ => rfl }
  | lock p lock => exact { h with }
  | remove p =>
    exact {
      performance := h.performance
      display := h.display
      maxPowerLimit := h.maxPowerLimit.erase p
      minPowerLimit := h.minPowerLimit.erase p
      powerLimitStep := h.powerLimitStep.erase p
      maxTimeWindow := h.maxTimeWindow.erase p
      minTimeWindow := h.minTimeWindow.erase p }

/-- An operation keeps the maps in step with the live requests. -/
theorem RecordsLive.arbitrate {d : Domain} {live : LiveCaps} (h : RecordsLive d live)
    (op : ArbitrationOp) : RecordsLive (d.arbitrate op) (live.apply op) := by
  cases op with
  | coreControl op => exact { h with }
  | performanceControl op => exact { h with }
  | performanceCapabilities op => exact h.performanceCapabilities op
  | displayCapabilities op => exact h.displayCapabilities op
  | powerCapabilities op => exact h.powerCapabilities op
  | clearPolicyCachedData p => exact h.clear p

/-- **The maps record the live requests** after every history. -/
theorem recordsLive_arbitrated (ops : List ArbitrationOp) :
    RecordsLive (Domain.arbitrated ops) (liveCaps ops) := by
  induction ops using List.reverseRecOn with
  | nil =>
    exact ⟨fun _ => ⟨rfl, rfl⟩, fun _ => ⟨rfl, rfl⟩, fun _ _ => rfl, fun _ _ => rfl, fun _ _ => rfl,
      fun _ _ => rfl, fun _ _ => rfl⟩
  | append_singleton ops op ih =>
    rw [Domain.arbitrated_concat, liveCaps_concat]
    exact ih.arbitrate op

/-! ## The loops over indexes -/

/-- A valid index. -/
def validIndex (i : UIntN) : Option UIntN := if i = invalidIndex then none else some i

theorem validIndex_inj {i j : UIntN} (h : validIndex i = validIndex j) : i = j := by
  unfold validIndex at h
  split_ifs at h with hi hj hj
  · exact hi.trans hj.symm
  · exact Option.some.inj h

theorem validIndex_invalid : validIndex invalidIndex = none := rfl

/-- A loop over indexes that passes over invalid ones and keeps the tighter one of two others. -/
theorem validIndex_foldl {pick : UIntN → UIntN → UIntN} {body : UIntN → UIntN → UIntN}
    {is : List UIntN} (hbody : ∀ r ∈ is, ∀ t,
      validIndex (body t r) = Option.merge pick (validIndex t) (validIndex r)) (t : UIntN) :
    validIndex (is.foldl body t) = (is.map validIndex).foldl (Option.merge pick) (validIndex t) := by
  induction is generalizing t with
  | nil => rfl
  | cons i is ih =>
    rw [List.foldl_cons, ih fun r hr => hbody r (List.mem_cons_of_mem _ hr),
      hbody i (List.mem_cons_self ..), List.map_cons, List.foldl_cons]

theorem picks_min_index : Picks (V := UIntN) (· ≤ ·) min where
  mem _ _ := Std.min_eq_or
  left _ _ := Std.min_le_left
  right _ _ := Std.min_le_right
  trans _ _ _ := UInt32.le_trans
  antisymm _ _ := UInt32.le_antisymm

theorem max_index_eq (a b : UIntN) : max a b = if a ≤ b then b else a := rfl

theorem picks_max_index : Picks (V := UIntN) (· ≥ ·) max where
  mem a b := by
    rw [max_index_eq]
    split
    · exact Or.inr rfl
    · exact Or.inl rfl
  left a b := by
    rw [max_index_eq]
    split
    · assumption
    · exact UInt32.le_refl a
  right a b := by
    rw [max_index_eq]
    split
    · exact UInt32.le_refl b
    · exact (UInt32.le_total a b).resolve_left (by assumption)
  trans _ _ _ hab hbc := UInt32.le_trans hbc hab
  antisymm _ _ hab hba := UInt32.le_antisymm hba hab

theorem validIndex_of_ne {i : UIntN} (h : i ≠ invalidIndex) : validIndex i = some i := if_neg h

theorem validIndex_eq_some_iff {i j : UIntN} : validIndex i = some j ↔ i = j ∧ j ≠ invalidIndex := by
  unfold validIndex
  split_ifs with hi
  · exact iff_of_false nofun fun h => h.2 (h.1 ▸ hi)
  · refine Option.some_inj.trans ⟨fun h => ⟨h, h ▸ hi⟩, And.left⟩

theorem le_invalidIndex (i : UIntN) : i ≤ invalidIndex := by
  rw [UInt32.le_iff_toNat_le]
  exact Nat.le_of_lt_succ i.toNat_lt

/-- One turn of such a loop: how invalid indexes are passed over differs. -/
theorem validIndex_turn {tighter : UIntN → UIntN → Prop} {pick : UIntN → UIntN → UIntN}
    (hpick : Picks tighter pick) {body : UIntN → UIntN → UIntN}
    (hfirst : ∀ r, body invalidIndex r = r)
    (hinvalid : ∀ t, t ≠ invalidIndex → body t invalidIndex = t)
    (hboth : ∀ t r, t ≠ invalidIndex → r ≠ invalidIndex → body t r = pick t r) (t r : UIntN) :
    validIndex (body t r) = Option.merge pick (validIndex t) (validIndex r) := by
  by_cases ht : t = invalidIndex
  · rw [ht, hfirst, validIndex_invalid, Option.merge_none_left]
  · by_cases hr : r = invalidIndex
    · rw [hr, hinvalid t ht, validIndex_invalid, Option.merge_none_right]
    · rw [hboth t r ht hr, validIndex_of_ne ht, validIndex_of_ne hr, Option.merge_some_some]
      apply validIndex_of_ne
      rcases hpick.mem t r with h | h
      · rwa [h]
      · rwa [h]

theorem isTightest_foldl_index {tighter : UIntN → UIntN → Prop} {pick : UIntN → UIntN → UIntN}
    (hpick : Picks tighter pick) {body : UIntN → UIntN → UIntN}
    (hfirst : ∀ r, body invalidIndex r = r)
    (hinvalid : ∀ t, t ≠ invalidIndex → body t invalidIndex = t)
    (hboth : ∀ t r, t ≠ invalidIndex → r ≠ invalidIndex → body t r = pick t r)
    (requests : IndexRequests) :
    IsTightest tighter (Requested fun p => (requests.find p).bind validIndex)
      (validIndex (requests.values.foldl body invalidIndex)) := by
  rw [validIndex_foldl fun r _ t => validIndex_turn hpick hfirst hinvalid hboth t r,
    validIndex_invalid]
  exact isTightest_foldl_values hpick requests validIndex

theorem isTightest_getBiggestUpperPStateIndex (requests : IndexRequests) :
    IsTightest (· ≥ ·) (Requested fun p => (requests.find p).bind validIndex)
      (validIndex
        (PerformanceControlCapabilitiesArbitrator.getBiggestUpperPStateIndex requests)) := by
  refine isTightest_foldl_index picks_max_index (fun r => if_pos rfl) (fun t ht => ?_) ?_ requests
  · rw [if_neg ht, if_neg (not_not.2 rfl)]
  · intro t r ht hr
    rw [if_neg ht, if_pos hr]

theorem isTightest_getSmallestLowerPStateIndex (requests : IndexRequests) :
    IsTightest (· ≤ ·) (Requested fun p => (requests.find p).bind validIndex)
      (validIndex
        (PerformanceControlCapabilitiesArbitrator.getSmallestLowerPStateIndex requests)) := by
  refine isTightest_foldl_index picks_min_index (fun r => if_pos rfl) (fun t ht => ?_) ?_ requests
  · rw [if_neg ht, if_neg (not_not.2 rfl)]
  · intro t r ht hr
    rw [if_neg ht, if_pos hr]

/-- The loop does not test for invalid indexes, but they are greater than all others. -/
theorem isTightest_getHighestMinDisplayIndex (requests : IndexRequests) :
    IsTightest (· ≤ ·) (Requested fun p => (requests.find p).bind validIndex)
      (validIndex (DisplayControlCapabilitiesArbitrator.getHighestMinDisplayIndex requests)) := by
  refine isTightest_foldl_index picks_min_index (fun r => if_pos rfl) (fun t ht => ?_) ?_ requests
  · rw [if_neg ht]
    exact if_pos (le_invalidIndex t)
  · intro t r ht _
    rw [if_neg ht]

theorem isTightest_getMinActiveCoreCount (requests : IndexRequests) :
    IsTightest (· ≤ ·) (Requested fun p => (requests.find p).bind validIndex)
      (validIndex (CoreControlArbitrator.getMinActiveCoreCount requests)) := by
  refine isTightest_foldl_index picks_min_index (fun r => ?_) (fun t ht => ?_) ?_ requests
  · by_cases hr : r = invalidIndex
    · rw [if_neg fun h => h.1 hr, hr]
    · rw [if_pos ⟨hr, Or.inl rfl⟩]
  · rw [if_neg fun h => h.1 rfl]
  · intro t r ht hr
    show _ = if t ≤ r then t else r
    by_cases hlt : r < t
    · rw [if_pos ⟨hr, Or.inr hlt⟩, if_neg (UInt32.not_le.2 hlt)]
    · rw [if_neg, if_pos (UInt32.not_lt.1 hlt)]
      rintro ⟨-, h | h⟩
      · exact ht h
      · exact hlt h

theorem isTightest_getMaxRequestedPerformanceControlIndex (requests : IndexRequests) :
    IsTightest (· ≥ ·) (Requested fun p => (requests.find p).bind validIndex)
      (validIndex
        (PerformanceControlArbitrator.getMaxRequestedPerformanceControlIndex requests)) := by
  refine isTightest_foldl_index picks_max_index (fun r => ?_) (fun t ht => ?_) ?_ requests
  · by_cases hr : r = invalidIndex
    · rw [if_neg fun h => h.1 hr, hr]
    · rw [if_pos ⟨hr, Or.inl rfl⟩]
  · rw [if_neg fun h => h.1 rfl]
  · intro t r ht hr
    rw [max_index_eq]
    by_cases hlt : r > t
    · rw [if_pos ⟨hr, Or.inr hlt⟩, if_pos (UInt32.le_of_lt hlt)]
    · rw [if_neg]
      · split
        · exact UInt32.le_antisymm (by assumption) (UInt32.not_lt.1 hlt)
        · rfl
      · rintro ⟨-, h | h⟩
        · exact ht h
        · exact hlt h

end Mgr

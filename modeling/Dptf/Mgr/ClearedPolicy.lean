import Dptf.Mgr.CapsRequests

/-!
# A policy that is removed

`Arbitrator::clearPolicyCachedData`.  The arbitrators of capabilities erase the requests of the
policy; those of one number keep an invalid request in their place.  Neither can be told from a
history in which the policy did nothing.

* `sameArbitration_clearPolicyCachedData` — **a removed policy leaves no trace**.
-/

open Lib

namespace Mgr

/-- The policy an operation is of. -/
def IndexOp.policyIndex : IndexOp → PolicyIndex
  | .commit policyIndex _ => policyIndex
  | .clear policyIndex => policyIndex

/-- The policy an operation is of. -/
def CapsOp.policyIndex {C : Type} : CapsOp C → PolicyIndex
  | .commit policyIndex _ => policyIndex
  | .lock policyIndex _ => policyIndex
  | .remove policyIndex => policyIndex

/-- The policy an operation is of. -/
def ArbitrationOp.policyIndex : ArbitrationOp → PolicyIndex
  | .coreControl op => op.policyIndex
  | .performanceControl op => op.policyIndex
  | .performanceCapabilities op => op.policyIndex
  | .displayCapabilities op => op.policyIndex
  | .powerCapabilities op => op.policyIndex
  | .clearPolicyCachedData policyIndex => policyIndex

/-- The arbitrators of two domains give the same answers. -/
structure SameArbitration (d d' : Domain) : Prop where
  hasArbitratedCoreCount :
    d.coreControl.hasArbitratedCoreCount = d'.coreControl.hasArbitratedCoreCount
  arbitratedActiveCoreCount :
    d.coreControl.arbitratedActiveCoreCount = d'.coreControl.arbitratedActiveCoreCount
  coreControl : ∀ p status,
    d.coreControl.arbitrate p status = d'.coreControl.arbitrate p status
  hasArbitratedPerformanceControlIndex :
    d.performanceControl.hasArbitratedPerformanceControlIndex =
      d'.performanceControl.hasArbitratedPerformanceControlIndex
  arbitratedPerformanceControlIndex :
    d.performanceControl.arbitratedPerformanceControlIndex =
      d'.performanceControl.arbitratedPerformanceControlIndex
  performanceControl : ∀ p index,
    d.performanceControl.arbitrate p index = d'.performanceControl.arbitrate p index
  hasPerformanceCapabilities :
    d.performanceCapabilities.hasArbitrated = d'.performanceCapabilities.hasArbitrated
  getPerformanceCapabilities : ∀ current,
    d.performanceCapabilities.getArbitrated current =
      d'.performanceCapabilities.getArbitrated current
  performanceLock : d.performanceCapabilities.requestedLocks.getArbitratedLock =
    d'.performanceCapabilities.requestedLocks.getArbitratedLock
  performanceCapabilities : ∀ p caps current,
    d.performanceCapabilities.arbitrate p caps current =
      d'.performanceCapabilities.arbitrate p caps current
  hasDisplayCapabilities :
    d.displayCapabilities.hasArbitrated = d'.displayCapabilities.hasArbitrated
  getDisplayCapabilities :
    d.displayCapabilities.getArbitrated = d'.displayCapabilities.getArbitrated
  displayLock : d.displayCapabilities.requestedLocks.getArbitratedLock =
    d'.displayCapabilities.requestedLocks.getArbitratedLock
  displayCapabilities : ∀ p caps,
    d.displayCapabilities.arbitrate p caps = d'.displayCapabilities.arbitrate p caps
  hasPowerCapabilities :
    d.powerCapabilities.hasArbitrated = d'.powerCapabilities.hasArbitrated
  getPowerCapabilities : ∀ current,
    d.powerCapabilities.getArbitrated current = d'.powerCapabilities.getArbitrated current
  powerLock : d.powerCapabilities.requestedLocks.getArbitratedLock =
    d'.powerCapabilities.requestedLocks.getArbitratedLock
  powerCapabilities : ∀ p capSet current,
    d.powerCapabilities.arbitrate p capSet current =
      d'.powerCapabilities.arbitrate p capSet current

/-! ## An arbitrator of one number -/

/-- What `CoreControlArbitrator` and `PerformanceControlArbitrator` have in common; `fold` is how
the number is found among the requests. -/
structure IndexArbitrator where
  requested : IndexRequests
  arbitrated : UIntN

namespace IndexArbitrator

variable (fold : IndexRequests → UIntN)

/-- `commitPolicyRequest`. -/
def commit (a : IndexArbitrator) (p : PolicyIndex) (i : UIntN) : IndexArbitrator :=
  ⟨a.requested.assign p i, fold (a.requested.assign p i)⟩

/-- `clearPolicyCachedData`. -/
def clear (a : IndexArbitrator) (p : PolicyIndex) : IndexArbitrator :=
  match a.requested.find p with
  | none => a
  | some _ => a.commit fold p invalidIndex

/-- An operation. -/
def apply (a : IndexArbitrator) : IndexOp → IndexArbitrator
  | .commit p i => a.commit fold p i
  | .clear p => a.clear fold p

/-- The arbitrator without anything of a policy. -/
def forget (p : PolicyIndex) (a : IndexArbitrator) : IndexArbitrator :=
  ⟨a.requested.erase p, fold (a.requested.erase p)⟩

variable {fold}

theorem forget_apply_own (a : IndexArbitrator) (op : IndexOp) :
    (a.apply fold op).forget fold op.policyIndex = a.forget fold op.policyIndex := by
  have hcommit : ∀ p i, (a.commit fold p i).forget fold p = a.forget fold p := by
    intro p i
    rw [forget, forget, commit, KeyMap.erase_assign_self]
  cases op with
  | commit p i => exact hcommit p i
  | clear p =>
    show (a.clear fold p).forget fold p = a.forget fold p
    unfold clear
    split
    · rfl
    · exact hcommit p invalidIndex

theorem forget_apply_of_ne (a : IndexArbitrator) {op : IndexOp} {p : PolicyIndex}
    (h : op.policyIndex ≠ p) :
    (a.apply fold op).forget fold p = (a.forget fold p).apply fold op := by
  have hcommit : ∀ q i, q ≠ p →
      (a.commit fold q i).forget fold p = (a.forget fold p).commit fold q i := by
    intro q i hq
    rw [forget, forget, commit, commit, KeyMap.erase_assign_of_ne _ hq]
  cases op with
  | commit q i => exact hcommit q i h
  | clear q =>
    have hfind : (a.forget fold p).requested.find q = a.requested.find q :=
      KeyMap.find_erase_of_ne _ h
    show (a.clear fold q).forget fold p = (a.forget fold p).clear fold q
    unfold clear
    rw [hfind]
    split
    · rfl
    · exact hcommit q invalidIndex h

/-- What is cached is what the requests lead to. -/
def Current (fold : IndexRequests → UIntN) (a : IndexArbitrator) : Prop :=
  a.arbitrated = fold a.requested

theorem Current.apply {a : IndexArbitrator} (h : a.Current fold) (op : IndexOp) :
    (a.apply fold op).Current fold := by
  cases op with
  | commit p i => rfl
  | clear p =>
    show (a.clear fold p).Current fold
    unfold clear
    split
    · exact h
    · rfl

/-- An invalid request in the place of the policy is none. -/
theorem clear_requests (a : IndexArbitrator) (p q : PolicyIndex) :
    ((a.clear fold p).requested.find q).bind validIndex =
      ((a.forget fold p).requested.find q).bind validIndex := by
  rw [forget, KeyMap.find_erase]
  unfold clear
  split
  · rename_i hnone
    split_ifs with hq
    · rw [hq, hnone]
    · rfl
  · rw [commit, KeyMap.find_assign]
    split_ifs
    · rfl
    · rfl

/-- Two arbitrators have the same valid requests. -/
def SameRequests (a a' : IndexArbitrator) : Prop :=
  ∀ q, (a.requested.find q).bind validIndex = (a'.requested.find q).bind validIndex

/-- Then they come to the same with one more request. -/
theorem SameRequests.assign {a a' : IndexArbitrator} (h : a.SameRequests a')
    (hfold : ∀ m m' : IndexRequests,
      (∀ q, (m.find q).bind validIndex = (m'.find q).bind validIndex) → fold m = fold m')
    (p : PolicyIndex) (i : UIntN) :
    fold (a.requested.assign p i) = fold (a'.requested.assign p i) := by
  apply hfold
  intro q
  rw [KeyMap.find_assign, KeyMap.find_assign]
  split_ifs
  · rfl
  · exact h q

end IndexArbitrator

/-- A loop that finds the tightest request does not see invalid ones. -/
theorem eq_of_sameRequests {tighter : UIntN → UIntN → Prop} {pick : UIntN → UIntN → UIntN}
    (hpick : Picks tighter pick) {fold : IndexRequests → UIntN}
    (hfold : ∀ m : IndexRequests, IsTightest tighter
      (Requested fun p => (m.find p).bind validIndex) (validIndex (fold m)))
    (m m' : IndexRequests)
    (h : ∀ q, (m.find q).bind validIndex = (m'.find q).bind validIndex) : fold m = fold m' := by
  have hm := hfold m
  rw [funext h] at hm
  exact validIndex_inj (hm.unique hpick.antisymm (hfold m'))

/-! ## Views of a domain -/

section View

variable {σ : Type} {view : Domain → σ} {next : σ → ArbitrationOp → σ}

/-- A part of a domain that only its own operations change, after a history. -/
theorem view_arbitrated (hview : ∀ d op, next (view d) op = view (d.arbitrate op))
    (ops : List ArbitrationOp) :
    view (Domain.arbitrated ops) = ops.foldl next (view Domain.empty) :=
  (List.foldl_hom view hview).symm

/-- Forgetting a policy leads to the history of the others. -/
theorem forget_view (hview : ∀ d op, next (view d) op = view (d.arbitrate op)) {forget : σ → σ}
    {p : PolicyIndex}
    (hown : ∀ s (op : ArbitrationOp), op.policyIndex = p → forget (next s op) = forget s)
    (hother : ∀ s (op : ArbitrationOp), op.policyIndex ≠ p →
      forget (next s op) = next (forget s) op)
    (hempty : forget (view Domain.empty) = view Domain.empty) (ops : List ArbitrationOp) :
    forget (view (Domain.arbitrated ops)) =
      view (Domain.arbitrated (ops.filter fun op => op.policyIndex ≠ p)) := by
  rw [view_arbitrated hview, view_arbitrated hview, forget_foldl hown hother, hempty]

end View

/-! ## Active cores and performance states -/

section IndexView

variable {fold : IndexRequests → UIntN} {view : Domain → IndexArbitrator}
  {project : ArbitrationOp → Option IndexOp}

/-- What an operation does to an arbitrator of one number, if it is one of its own. -/
def indexNext (fold : IndexRequests → UIntN) (project : ArbitrationOp → Option IndexOp)
    (a : IndexArbitrator) (op : ArbitrationOp) : IndexArbitrator :=
  match project op with
  | none => a
  | some indexOp => a.apply fold indexOp

/-- After the removal of a policy an arbitrator of one number answers as one that never knew it. -/
theorem sameIndex_clear (hview : ∀ d op, indexNext fold project (view d) op = view (d.arbitrate op))
    (hempty : view Domain.empty = ⟨KeyMap.empty, invalidIndex⟩)
    (hfoldEmpty : fold KeyMap.empty = invalidIndex)
    (hproject : ∀ op o, project op = some o → o.policyIndex = op.policyIndex)
    (hclear : ∀ p, project (.clearPolicyCachedData p) = some (.clear p))
    (hfold : ∀ m m' : IndexRequests,
      (∀ q, (m.find q).bind validIndex = (m'.find q).bind validIndex) → fold m = fold m')
    (ops : List ArbitrationOp) (p : PolicyIndex) :
    let a := view (Domain.arbitrated (ops ++ [.clearPolicyCachedData p]))
    let a' := view (Domain.arbitrated (ops.filter fun op => op.policyIndex ≠ p))
    a.arbitrated = a'.arbitrated ∧
      ∀ q i, fold (a.requested.assign q i) = fold (a'.requested.assign q i) := by
  intro a a'
  have hcurrent : (view (Domain.arbitrated ops)).Current fold := by
    rw [view_arbitrated hview]
    induction ops using List.reverseRecOn with
    | nil =>
      rw [List.foldl_nil, hempty]
      exact hfoldEmpty.symm
    | append_singleton ops op ih =>
      rw [List.foldl_append, List.foldl_cons, List.foldl_nil, indexNext]
      split
      · exact ih
      · exact ih.apply _
  have ha : a = (view (Domain.arbitrated ops)).clear fold p := by
    show view (Domain.arbitrated (ops ++ [.clearPolicyCachedData p])) = _
    rw [Domain.arbitrated_concat, ← hview, indexNext, hclear]
    rfl
  have ha' : (view (Domain.arbitrated ops)).forget fold p = a' := by
    refine forget_view hview (fun s op hp => ?_) (fun s op hp => ?_) ?_ ops
    · rw [indexNext]
      split
      · rfl
      · rename_i o ho
        rw [← hp, ← hproject op o ho]
        exact s.forget_apply_own o
    · rw [indexNext, indexNext]
      split
      · rfl
      · rename_i o ho
        exact s.forget_apply_of_ne (hproject op o ho ▸ hp)
    · rw [hempty, IndexArbitrator.forget, KeyMap.erase_eq_self (KeyMap.find_empty p), hfoldEmpty]
  have hsame : a.SameRequests a' := by
    intro q
    rw [ha, ← ha']
    exact IndexArbitrator.clear_requests _ p q
  refine ⟨?_, fun q i => hsame.assign hfold q i⟩
  have hcleared : a.arbitrated = fold a.requested := ha ▸ hcurrent.apply (.clear p)
  have hforgot : a'.arbitrated = fold a'.requested := ha' ▸ rfl
  rw [hcleared, hforgot]
  exact hfold _ _ hsame

end IndexView

/-- The arbitrator of the active cores, and the operations on it. -/
def Domain.coreIndex (d : Domain) : IndexArbitrator :=
  ⟨d.coreControl.requestedActiveCoreCount, d.coreControl.arbitratedActiveCoreCount⟩

/-- The operations on the arbitrator of the active cores. -/
def ArbitrationOp.coreOp : ArbitrationOp → Option IndexOp
  | .coreControl op => some op
  | .clearPolicyCachedData p => some (.clear p)
  | _ => none

theorem coreIndex_arbitrate (d : Domain) (op : ArbitrationOp) :
    indexNext CoreControlArbitrator.getMinActiveCoreCount ArbitrationOp.coreOp d.coreIndex op =
      (d.arbitrate op).coreIndex := by
  have hclear : ∀ p, d.coreIndex.clear CoreControlArbitrator.getMinActiveCoreCount p =
      ⟨(d.coreControl.clearPolicyCachedData p).requestedActiveCoreCount,
        (d.coreControl.clearPolicyCachedData p).arbitratedActiveCoreCount⟩ := by
    intro p
    simp only [IndexArbitrator.clear, CoreControlArbitrator.clearPolicyCachedData, Domain.coreIndex]
    cases d.coreControl.requestedActiveCoreCount.find p <;> rfl
  cases op with
  | coreControl op =>
    cases op with
    | commit p i => rfl
    | clear p => exact hclear p
  | clearPolicyCachedData p => exact hclear p
  | performanceControl op => rfl
  | performanceCapabilities op => rfl
  | displayCapabilities op => rfl
  | powerCapabilities op => rfl

/-- The arbitrator of the performance states. -/
def Domain.performanceIndex (d : Domain) : IndexArbitrator :=
  ⟨d.performanceControl.requestedPerformanceControlIndex,
    d.performanceControl.arbitratedPerformanceControlIndex⟩

/-- The operations on the arbitrator of the performance states. -/
def ArbitrationOp.performanceOp : ArbitrationOp → Option IndexOp
  | .performanceControl op => some op
  | .clearPolicyCachedData p => some (.clear p)
  | _ => none

theorem performanceIndex_arbitrate (d : Domain) (op : ArbitrationOp) :
    indexNext PerformanceControlArbitrator.getMaxRequestedPerformanceControlIndex
        ArbitrationOp.performanceOp d.performanceIndex op =
      (d.arbitrate op).performanceIndex := by
  have hclear : ∀ p, d.performanceIndex.clear
      PerformanceControlArbitrator.getMaxRequestedPerformanceControlIndex p =
      ⟨(d.performanceControl.clearPolicyCachedData p).requestedPerformanceControlIndex,
        (d.performanceControl.clearPolicyCachedData p).arbitratedPerformanceControlIndex⟩ := by
    intro p
    simp only [IndexArbitrator.clear, PerformanceControlArbitrator.clearPolicyCachedData,
      Domain.performanceIndex]
    cases d.performanceControl.requestedPerformanceControlIndex.find p <;> rfl
  cases op with
  | performanceControl op =>
    cases op with
    | commit p i => rfl
    | clear p => exact hclear p
  | clearPolicyCachedData p => exact hclear p
  | coreControl op => rfl
  | performanceCapabilities op => rfl
  | displayCapabilities op => rfl
  | powerCapabilities op => rfl

/-- The core arbitrator after the removal of a policy. -/
theorem coreIndex_clear (ops : List ArbitrationOp) (p : PolicyIndex) :
    let a := (Domain.arbitrated (ops ++ [.clearPolicyCachedData p])).coreIndex
    let a' := (Domain.arbitrated (ops.filter fun op => op.policyIndex ≠ p)).coreIndex
    a.arbitrated = a'.arbitrated ∧ ∀ q i,
      CoreControlArbitrator.getMinActiveCoreCount (a.requested.assign q i) =
        CoreControlArbitrator.getMinActiveCoreCount (a'.requested.assign q i) := by
  refine sameIndex_clear coreIndex_arbitrate rfl rfl (fun op o ho => ?_) (fun _ => rfl)
    (eq_of_sameRequests picks_min_index isTightest_getMinActiveCoreCount) ops p
  cases op <;> cases ho <;> rfl

/-- The performance arbitrator after the removal of a policy. -/
theorem performanceIndex_clear (ops : List ArbitrationOp) (p : PolicyIndex) :
    let a := (Domain.arbitrated (ops ++ [.clearPolicyCachedData p])).performanceIndex
    let a' := (Domain.arbitrated (ops.filter fun op => op.policyIndex ≠ p)).performanceIndex
    a.arbitrated = a'.arbitrated ∧ ∀ q i,
      PerformanceControlArbitrator.getMaxRequestedPerformanceControlIndex
          (a.requested.assign q i) =
        PerformanceControlArbitrator.getMaxRequestedPerformanceControlIndex
          (a'.requested.assign q i) := by
  refine sameIndex_clear performanceIndex_arbitrate rfl rfl (fun op o ho => ?_) (fun _ => rfl)
    (eq_of_sameRequests picks_max_index isTightest_getMaxRequestedPerformanceControlIndex) ops p
  cases op <;> cases ho <;> rfl

/-! ## Capabilities -/

section CapsView

variable {A C : Type} {view : Domain → A} {apply : A → CapsOp C → A}
  {remove : A → PolicyIndex → A} {project : ArbitrationOp → Option (CapsOp C)}

/-- What an operation does to an arbitrator of capabilities, if it is one of its own. -/
def capsNext (apply : A → CapsOp C → A) (project : ArbitrationOp → Option (CapsOp C)) (a : A)
    (op : ArbitrationOp) : A :=
  match project op with
  | none => a
  | some capsOp => apply a capsOp

/-- After the removal of a policy an arbitrator of capabilities is one that never knew it. -/
theorem view_clear (hview : ∀ d op, capsNext apply project (view d) op = view (d.arbitrate op))
    (hempty : ∀ p, remove (view Domain.empty) p = view Domain.empty)
    (hproject : ∀ op o, project op = some o → o.policyIndex = op.policyIndex)
    (hclear : ∀ p, project (.clearPolicyCachedData p) = some (.remove p))
    (hremove : ∀ a p, apply a (.remove p) = remove a p)
    (hown : ∀ a (o : CapsOp C), remove (apply a o) o.policyIndex = remove a o.policyIndex)
    (hother : ∀ a (o : CapsOp C) p, o.policyIndex ≠ p → remove (apply a o) p = apply (remove a p) o)
    (ops : List ArbitrationOp) (p : PolicyIndex) :
    view (Domain.arbitrated (ops ++ [.clearPolicyCachedData p])) =
      view (Domain.arbitrated (ops.filter fun op => op.policyIndex ≠ p)) := by
  rw [Domain.arbitrated_concat, ← hview, capsNext, hclear]
  show apply (view (Domain.arbitrated ops)) (.remove p) = _
  rw [hremove]
  refine @forget_view _ view _ hview (fun a => remove a p) p (fun s op hp => ?_)
    (fun s op hp => ?_) (hempty p) ops
  · rw [capsNext]
    split
    · rfl
    · rename_i o ho
      rw [← hp, ← hproject op o ho]
      exact hown s o
  · rw [capsNext, capsNext]
    split
    · rfl
    · rename_i o ho
      exact hother s o p (hproject op o ho ▸ hp)

end CapsView

/-- The operations on the arbitrator of the performance capabilities. -/
def ArbitrationOp.performanceCapsOp :
    ArbitrationOp → Option (CapsOp PerformanceControlDynamicCaps)
  | .performanceCapabilities op => some op
  | .clearPolicyCachedData p => some (.remove p)
  | _ => none

/-- The operations on the arbitrator of the display capabilities. -/
def ArbitrationOp.displayCapsOp : ArbitrationOp → Option (CapsOp DisplayControlDynamicCaps)
  | .displayCapabilities op => some op
  | .clearPolicyCachedData p => some (.remove p)
  | _ => none

/-- The operations on the arbitrator of the power capabilities. -/
def ArbitrationOp.powerCapsOp : ArbitrationOp → Option (CapsOp PowerControlDynamicCapsSet)
  | .powerCapabilities op => some op
  | .clearPolicyCachedData p => some (.remove p)
  | _ => none

/-- What the arbitrators of performance and of display capabilities keep: two numbers and a lock
for each policy. -/
structure PairRequests where
  first : IndexRequests
  second : IndexRequests
  locks : LockRequests

namespace PairRequests

variable {C : Type} (off : C → Prop) [DecidablePred off] (limits : C → UIntN × UIntN)

/-- `removeRequestsForPolicy`. -/
def erase (r : PairRequests) (p : PolicyIndex) : PairRequests :=
  ⟨r.first.erase p, r.second.erase p, r.locks.erase p⟩

/-- The operations; capabilities that are `off` take the requests of the policy back. -/
def apply (r : PairRequests) : CapsOp C → PairRequests
  | .commit p caps =>
    let requests := if off caps then (r.first.erase p, r.second.erase p)
      else (r.first.assign p (limits caps).1, r.second.assign p (limits caps).2)
    ⟨requests.1, requests.2, r.locks⟩
  | .lock p lock => { r with locks := r.locks.assign p lock }
  | .remove p => r.erase p

theorem erase_apply_own (r : PairRequests) (op : CapsOp C) :
    (apply off limits r op).erase op.policyIndex = r.erase op.policyIndex := by
  cases op with
  | commit p caps =>
    simp only [apply, CapsOp.policyIndex]
    split
    · simp only [erase, KeyMap.erase_erase_self]
    · simp only [erase, KeyMap.erase_assign_self]
  | lock p lock => simp only [apply, erase, CapsOp.policyIndex, KeyMap.erase_assign_self]
  | remove p => simp only [apply, erase, CapsOp.policyIndex, KeyMap.erase_erase_self]

theorem erase_apply_of_ne (r : PairRequests) (op : CapsOp C) (p : PolicyIndex)
    (h : op.policyIndex ≠ p) : (apply off limits r op).erase p = apply off limits (r.erase p) op := by
  cases op with
  | commit q caps =>
    have hq : q ≠ p := h
    simp only [apply]
    split
    · simp only [erase, KeyMap.erase_comm _ q p]
    · simp only [erase, KeyMap.erase_assign_of_ne _ hq]
  | lock q lock =>
    have hq : q ≠ p := h
    simp only [apply, erase, KeyMap.erase_assign_of_ne _ hq]
  | remove q => simp only [apply, erase, KeyMap.erase_comm _ q p]

end PairRequests

/-- The requests for performance capabilities. -/
def PerformanceControlCapabilitiesArbitrator.requests
    (a : PerformanceControlCapabilitiesArbitrator) : PairRequests :=
  ⟨a.requestedUpperPState, a.requestedLowerPState, a.requestedLocks⟩

/-- The requests for display capabilities. -/
def DisplayControlCapabilitiesArbitrator.requests
    (a : DisplayControlCapabilitiesArbitrator) : PairRequests :=
  ⟨a.requestedMinDisplayIndex, a.requestedMaxDisplayIndex, a.requestedLocks⟩

namespace PowerControlCapabilitiesArbitrator

theorem erase_setFieldRequest_self {V : Type} (requests : FieldRequests V) (p : PolicyIndex)
    (k : PowerControlType) (value : Option V) :
    KeyMap.erase (setFieldRequest requests p k value) p = requests.erase p :=
  KeyMap.erase_assign_self ..

theorem erase_setFieldRequest_of_ne {V : Type} (requests : FieldRequests V) {p q : PolicyIndex}
    (h : q ≠ p) (k : PowerControlType) (value : Option V) :
    KeyMap.erase (setFieldRequest requests q k value) p =
      setFieldRequest (requests.erase p) q k value := by
  rw [setFieldRequest, setFieldRequest, KeyMap.erase_assign_of_ne _ h, KeyMap.find_erase_of_ne _ h]

theorem erase_updatePolicyRequest_self (r : PowerCapsRequests) (p : PolicyIndex)
    (capSet : PowerControlDynamicCapsSet) : (r.updatePolicyRequest p capSet).erase p = r.erase p := by
  rw [PowerCapsRequests.updatePolicyRequest]
  induction capSet.entries generalizing r with
  | nil => rfl
  | cons e es ih =>
    rw [List.foldl_cons, ih]
    simp only [PowerCapsRequests.erase, PowerCapsRequests.set, erase_setFieldRequest_self]

theorem erase_updatePolicyRequest_of_ne (r : PowerCapsRequests) {p q : PolicyIndex} (h : q ≠ p)
    (capSet : PowerControlDynamicCapsSet) :
    (r.updatePolicyRequest q capSet).erase p = (r.erase p).updatePolicyRequest q capSet := by
  refine (List.foldl_hom (fun r => PowerCapsRequests.erase r p) fun r e => ?_).symm
  simp only [PowerCapsRequests.erase, PowerCapsRequests.set, erase_setFieldRequest_of_ne _ h]

theorem remove_apply_own (a : PowerControlCapabilitiesArbitrator)
    (op : CapsOp PowerControlDynamicCapsSet) : (a.apply op).removeRequestsForPolicy op.policyIndex =
      a.removeRequestsForPolicy op.policyIndex := by
  cases op with
  | commit p capSet =>
    simp only [apply, commitPolicyRequest, removeRequestsForPolicy, CapsOp.policyIndex,
      erase_updatePolicyRequest_self]
  | lock p lock =>
    simp only [apply, removeRequestsForPolicy, CapsOp.policyIndex,
      LockRequests.arbitrateLockRequests, KeyMap.erase_assign_self]
  | remove p =>
    simp only [apply, removeRequestsForPolicy, CapsOp.policyIndex, PowerCapsRequests.erase,
      KeyMap.erase_erase_self]

theorem remove_apply_of_ne (a : PowerControlCapabilitiesArbitrator)
    (op : CapsOp PowerControlDynamicCapsSet) (p : PolicyIndex) (h : op.policyIndex ≠ p) :
    (a.apply op).removeRequestsForPolicy p = (a.removeRequestsForPolicy p).apply op := by
  cases op with
  | commit q capSet =>
    have hq : q ≠ p := h
    simp only [apply, commitPolicyRequest, removeRequestsForPolicy,
      erase_updatePolicyRequest_of_ne _ hq]
  | lock q lock =>
    have hq : q ≠ p := h
    simp only [apply, removeRequestsForPolicy, LockRequests.arbitrateLockRequests,
      KeyMap.erase_assign_of_ne _ hq]
  | remove q =>
    simp only [apply, removeRequestsForPolicy, PowerCapsRequests.erase, KeyMap.erase_comm _ q p]

end PowerControlCapabilitiesArbitrator

/-- The arbitrators of capabilities after the removal of a policy. -/
theorem performanceCapabilities_clear (ops : List ArbitrationOp) (p : PolicyIndex) :
    (Domain.arbitrated (ops ++ [.clearPolicyCachedData p])).performanceCapabilities =
      (Domain.arbitrated (ops.filter fun op => op.policyIndex ≠ p)).performanceCapabilities := by
  have hrequests := @view_clear _ _ (fun d => d.performanceCapabilities.requests)
    (PairRequests.apply
      (fun caps : PerformanceControlDynamicCaps =>
        caps.currentUpperLimitIndex = invalidIndex ∧ caps.currentLowerLimitIndex = invalidIndex)
      fun caps => (caps.currentUpperLimitIndex, caps.currentLowerLimitIndex))
    PairRequests.erase ArbitrationOp.performanceCapsOp
    (fun d op => by cases op with | performanceCapabilities op => cases op <;> rfl | _ => rfl)
    (fun _ => rfl) (fun op o ho => by cases op <;> cases ho <;> rfl) (fun _ => rfl)
    (fun _ _ => rfl) (PairRequests.erase_apply_own _ _) (PairRequests.erase_apply_of_ne _ _) ops p
  injection hrequests with hupper hlower hlocks
  rw [PerformanceControlCapabilitiesArbitrator.mk.injEq]
  exact ⟨hupper, hlower, hlocks⟩

theorem displayCapabilities_clear (ops : List ArbitrationOp) (p : PolicyIndex) :
    (Domain.arbitrated (ops ++ [.clearPolicyCachedData p])).displayCapabilities =
      (Domain.arbitrated (ops.filter fun op => op.policyIndex ≠ p)).displayCapabilities := by
  have hrequests := @view_clear _ _ (fun d => d.displayCapabilities.requests)
    (PairRequests.apply
      (fun caps : DisplayControlDynamicCaps =>
        caps.currentUpperLimit = invalidIndex ∧ caps.currentLowerLimit = invalidIndex)
      fun caps => (caps.currentLowerLimit, caps.currentUpperLimit))
    PairRequests.erase ArbitrationOp.displayCapsOp
    (fun d op => by cases op with | displayCapabilities op => cases op <;> rfl | _ => rfl)
    (fun _ => rfl) (fun op o ho => by cases op <;> cases ho <;> rfl) (fun _ => rfl)
    (fun _ _ => rfl) (PairRequests.erase_apply_own _ _) (PairRequests.erase_apply_of_ne _ _) ops p
  injection hrequests with hmin hmax hlocks
  rw [DisplayControlCapabilitiesArbitrator.mk.injEq]
  exact ⟨hmax, hmin, hlocks⟩

theorem powerCapabilities_clear (ops : List ArbitrationOp) (p : PolicyIndex) :
    (Domain.arbitrated (ops ++ [.clearPolicyCachedData p])).powerCapabilities =
      (Domain.arbitrated (ops.filter fun op => op.policyIndex ≠ p)).powerCapabilities := by
  refine @view_clear _ _ Domain.powerCapabilities
    PowerControlCapabilitiesArbitrator.apply
    PowerControlCapabilitiesArbitrator.removeRequestsForPolicy ArbitrationOp.powerCapsOp
    (fun d op => ?_) (fun _ => rfl) (fun op o ho => ?_) (fun _ => rfl) (fun _ _ => rfl)
    PowerControlCapabilitiesArbitrator.remove_apply_own
    PowerControlCapabilitiesArbitrator.remove_apply_of_ne ops p
  · cases op <;> rfl
  · cases op <;> cases ho <;> rfl

/-! ## All arbitrators -/

/-- **A removed policy leaves no trace in arbitration**: after its removal every answer is the one
after a history in which it did nothing. -/
theorem sameArbitration_clearPolicyCachedData (ops : List ArbitrationOp) (p : PolicyIndex) :
    SameArbitration (Domain.arbitrated (ops ++ [.clearPolicyCachedData p]))
      (Domain.arbitrated (ops.filter fun op => op.policyIndex ≠ p)) := by
  obtain ⟨hcore, hcoreRequests⟩ := coreIndex_clear ops p
  obtain ⟨hperformance, hperformanceRequests⟩ := performanceIndex_clear ops p
  have hperformanceCaps := performanceCapabilities_clear ops p
  have hdisplayCaps := displayCapabilities_clear ops p
  have hpowerCaps := powerCapabilities_clear ops p
  exact {
    hasArbitratedCoreCount := congrArg (fun i => decide (i ≠ invalidIndex)) hcore
    arbitratedActiveCoreCount := hcore
    coreControl := hcoreRequests
    hasArbitratedPerformanceControlIndex :=
      congrArg (fun i => decide (i ≠ invalidIndex)) hperformance
    arbitratedPerformanceControlIndex := hperformance
    performanceControl := hperformanceRequests
    hasPerformanceCapabilities := by rw [hperformanceCaps]
    getPerformanceCapabilities := fun current => by rw [hperformanceCaps]
    performanceLock := by rw [hperformanceCaps]
    performanceCapabilities := fun q caps current => by rw [hperformanceCaps]
    hasDisplayCapabilities := by rw [hdisplayCaps]
    getDisplayCapabilities := by rw [hdisplayCaps]
    displayLock := by rw [hdisplayCaps]
    displayCapabilities := fun q caps => by rw [hdisplayCaps]
    hasPowerCapabilities := by rw [hpowerCaps]
    getPowerCapabilities := fun current => by rw [hpowerCaps]
    powerLock := by rw [hpowerCaps]
    powerCapabilities := fun q capSet current => by rw [hpowerCaps] }

end Mgr

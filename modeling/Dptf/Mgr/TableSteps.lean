import Dptf.Mgr.RequestTable

/-!
# The steps of a request table

What each operation leaves in a table that arbitrates the least requests, and which of them keep
it so.
-/

open Lib

namespace Mgr

section TableSteps

variable {K V : Type} [ControlType K] [RequestValue V]

/-- What is recorded for a control type once a lowest request is set. -/
def settled (old : Option V) (lowestRequest : V) : Option V :=
  match old with
  | none => some lowestRequest
  | some o => if RequestValue.same o lowestRequest then some o else some lowestRequest

/-- A lowest request that `==` tells apart from the recorded value, or is that value. -/
def Distinct (old new : Option V) : Prop :=
  ∀ o l, old = some o → new = some l → RequestValue.same o l → o = l

theorem settled_eq_iff (old : Option V) (l : V) :
    settled old l = some l ↔ Distinct old (some l) := by
  cases old with
  | none => exact iff_of_true rfl fun o l ho => by contradiction
  | some o =>
    rw [settled]
    constructor
    · rintro h o' l' ho hl hsame
      cases ho
      cases hl
      rw [if_pos hsame] at h
      exact Option.some.inj h
    · intro h
      split_ifs with hsame
      · rw [h o l rfl rfl hsame]
      · rfl

theorem settled_settled (old : Option V) (l : V) : settled (settled old l) l = settled old l := by
  cases old with
  | none => exact if_pos (RequestValue.same_self l)
  | some o =>
    by_cases hsame : RequestValue.same o l
    · simp only [settled, if_pos hsame]
    · simp only [settled, if_neg hsame, if_pos (RequestValue.same_self l)]

namespace RequestTable

theorem find_setArbitratedRequest (t : RequestTable K V) (k : K) (l : V) (k' : K) :
    (t.setArbitratedRequest k l).arbitrated.find k' =
      if k' = k then settled (t.arbitrated.find k) l else t.arbitrated.find k' := by
  rw [setArbitratedRequest]
  cases hold : t.arbitrated.find k with
  | none => exact KeyMap.find_assign _ _ _ _
  | some o =>
    by_cases hsame : RequestValue.same o l
    · simp only [settled, if_pos hsame]
      by_cases hk : k' = k
      · rw [if_pos hk, hk, hold]
      · rw [if_neg hk]
    · simp only [settled, if_neg hsame]
      exact KeyMap.find_assign _ _ _ _

@[simp] theorem setArbitratedRequest_requested (t : RequestTable K V) (k : K) (l : V) :
    (t.setArbitratedRequest k l).requested = t.requested := by
  rw [setArbitratedRequest]
  split
  · rfl
  · split <;> rfl

@[simp] theorem setArbitratedForControlTypes_requested (t : RequestTable K V) (ks : List K) :
    (t.setArbitratedForControlTypes ks).requested = t.requested := by
  rw [setArbitratedForControlTypes]
  induction ks generalizing t with
  | nil => rfl
  | cons k ks ih =>
    rw [List.foldl_cons, ih]
    split
    · exact t.setArbitratedRequest_requested _ _
    · rfl

/-- Each type is settled on its own; one without requests keeps what is recorded. -/
theorem find_setArbitratedForControlTypes (t : RequestTable K V) (ks : List K) (k : K) :
    (t.setArbitratedForControlTypes ks).arbitrated.find k = if k ∈ ks then
        match getLowestRequest k t.requested with
        | some l => settled (t.arbitrated.find k) l
        | none => t.arbitrated.find k
      else t.arbitrated.find k := by
  induction ks generalizing t with
  | nil => rfl
  | cons k' ks ih =>
    rw [setArbitratedForControlTypes, List.foldl_cons]
    cases hl : getLowestRequest k' t.requested with
    | none =>
      have hih := ih t
      rw [setArbitratedForControlTypes] at hih
      simp only [hih, List.mem_cons]
      by_cases hk : k = k'
      · simp only [hk, true_or, if_true, hl]
        split <;> rfl
      · simp only [hk, false_or]
    | some l =>
      have hih := ih (t.setArbitratedRequest k' l)
      rw [setArbitratedForControlTypes] at hih
      simp only [hih, List.mem_cons, setArbitratedRequest_requested, find_setArbitratedRequest]
      by_cases hk : k = k'
      · simp only [hk, true_or, if_true, hl, settled_settled]
        split <;> rfl
      · simp only [hk, false_or, if_false]

theorem commitPolicyRequest_requested (t : RequestTable K V) (p : PolicyIndex) (k : K) (v : V) :
    (t.commitPolicyRequest p k v).requested = updatePolicyRequest p k v t.requested := by
  unfold commitPolicyRequest
  simp only
  split
  · rw [setArbitratedRequest_requested]
  · rfl

theorem removeRequests_of_find_none {t : RequestTable K V} {p : PolicyIndex}
    (h : t.requested.find p = none) : t.removeRequests p = t := by
  unfold removeRequests
  simp only [h]

theorem removeRequests_requested (t : RequestTable K V) (p : PolicyIndex) :
    (t.removeRequests p).requested = t.requested.erase p := by
  cases h : t.requested.find p with
  | none => rw [removeRequests_of_find_none h, KeyMap.erase_eq_self h]
  | some controls =>
    unfold removeRequests
    simp only [h]
    split
    · rw [setArbitratedForControlTypes_requested]
    · rfl

omit [RequestValue V] in
theorem live_of_find_none {requests : Requests K V} {p : PolicyIndex}
    (h : requests.find p = none) (k : K) : Requests.live requests p k = none := by
  rw [Requests.live, h]
  rfl

/-- The requests in the map are those that were made and not taken back. -/
theorem live_apply (t : RequestTable K V) (op : TableOp K V) :
    Requests.live (t.apply op).requested = op.live (Requests.live t.requested) := by
  cases op with
  | commit p k v =>
    rw [apply, commitPolicyRequest_requested, live_updatePolicyRequest]
  | removeOne p k =>
    rw [apply, removeRequestForPolicy]
    cases hfind : t.requested.find p with
    | none =>
      funext q l
      simp only [TableOp.live]
      split_ifs with h
      · rw [h.1, live_of_find_none hfind]
      · rfl
    | some controls =>
      simp only
      cases hcontrol : controls.find k with
      | none =>
        funext q l
        simp only [TableOp.live]
        split_ifs with h
        · rw [h.1, h.2, Requests.live, hfind, Option.bind_some, hcontrol]
        · rfl
      | some v => exact live_assign_erase hfind k
  | removeAll p => rw [apply, removeRequests_requested, live_erase]

/-! ## The invariant -/

/-- Every arbitrated value is the lowest request, and there is none where there is no request. -/
def Coupled (t : RequestTable K V) : Prop :=
  ∀ k, t.arbitrated.find k = getLowestRequest k t.requested

theorem coupled_empty : (empty : RequestTable K V).Coupled := fun _ => rfl

/-- For the requests in its map, a table arbitrates the least where it is coupled to the map. -/
theorem holds_iff_coupled (t : RequestTable K V) :
    t.Holds (Requests.live t.requested) ↔ t.Coupled := by
  refine forall_congr' fun k => ?_
  rw [hasArbitrated, getArbitrated]
  cases hlowest : getLowestRequest k t.requested with
  | none =>
    have hnone := (getLowestRequest_eq_none_iff k t.requested).1 hlowest
    constructor
    · rintro ⟨hiff, -⟩
      rw [← Option.not_isSome_iff_eq_none, hiff]
      rintro ⟨p, hp⟩
      rw [hnone p] at hp
      contradiction
    · intro h
      rw [h]
      refine ⟨iff_of_false Bool.false_ne_true ?_, fun v hv => by contradiction⟩
      rintro ⟨p, hp⟩
      rw [hnone p] at hp
      contradiction
  | some l =>
    have hleast := (getLowestRequest_eq_some_iff k t.requested l).1 hlowest
    obtain ⟨p, hp⟩ := hleast.1
    constructor
    · rintro ⟨hiff, hall⟩
      obtain ⟨v, hv⟩ := Option.isSome_iff_exists.1 (hiff.2 ⟨p, by rw [hp]; rfl⟩)
      rw [hv, (hall v hv).unique hleast]
    · intro h
      rw [h]
      refine ⟨iff_of_true rfl ⟨p, by rw [hp]; rfl⟩, ?_⟩
      rintro v hv
      cases hv
      exact hleast

theorem getLowestRequest_congr {requests requests' : Requests K V} {k : K}
    (h : ∀ p, Requests.live requests' p k = Requests.live requests p k) :
    getLowestRequest k requests' = getLowestRequest k requests := by
  have hleast : ∀ v, LeastLive (Requests.live requests') k v ↔ LeastLive (Requests.live requests) k v := by
    intro v
    simp only [LeastLive, h]
  ext v
  rw [getLowestRequest_eq_some_iff, getLowestRequest_eq_some_iff, hleast]

end RequestTable

/-- The least request before an operation and the least one after it are the same, if `==` takes
them for the same. -/
def TableOp.ToldApart (live : LiveRequests K V) (op : TableOp K V) (k : K) : Prop :=
  ∀ o l, LeastLive live k o → LeastLive (op.live live) k l → RequestValue.same o l → o = l

/-- The operations that leave the least requests arbitrated.  A request is recorded unless `==`
takes it for what is recorded; taking back one request changes nothing, so another policy must
have asked for as little; taking back all requests of a policy leaves a value standing where no
request is left, unless nothing at all is left. -/
def TableOp.Keeps (t : RequestTable K V) (live : LiveRequests K V) : TableOp K V → Prop
  | .commit p k v => (commit p k v).ToldApart live k
  | .removeOne p k => ∀ v, live p k = some v → ∃ q w, q ≠ p ∧ live q k = some w ∧ w ≤ v
  | .removeAll p => (t.requested.erase p).isEmpty ∨ ∀ k, (live p k).isSome →
      (∃ q, q ≠ p ∧ (live q k).isSome) ∧ (removeAll p).ToldApart live k

namespace RequestTable

variable {t : RequestTable K V} {p : PolicyIndex}

/-- A request makes a lowest one. -/
theorem arbitrate_isSome (t : RequestTable K V) (p : PolicyIndex) (k : K) (v : V) :
    ∃ l, t.arbitrate p k v = some l := by
  rw [← Option.isSome_iff_exists, Option.isSome_iff_ne_none, arbitrate, Ne,
    getLowestRequest_eq_none_iff]
  intro h
  have hp := h p
  rw [live_updatePolicyRequest, live_commit, if_pos ⟨rfl, rfl⟩] at hp
  contradiction

theorem coupled_commit_iff (h : t.Coupled) (p : PolicyIndex) (k : K) (v : V) :
    (t.commitPolicyRequest p k v).Coupled ↔ Distinct (t.getArbitrated k) (t.arbitrate p k v) := by
  obtain ⟨l, hl⟩ := t.arbitrate_isSome p k v
  have hcommit : t.commitPolicyRequest p k v =
      setArbitratedRequest ⟨updatePolicyRequest p k v t.requested, t.arbitrated⟩ k l := by
    unfold commitPolicyRequest
    rw [arbitrate] at hl
    simp only [hl]
  rw [hcommit, hl, getArbitrated, ← settled_eq_iff]
  constructor
  · intro hc
    have hk := hc k
    rwa [setArbitratedRequest_requested, find_setArbitratedRequest, if_pos rfl,
      show getLowestRequest k (updatePolicyRequest p k v t.requested) = some l from hl] at hk
  · intro hsettled k'
    rw [setArbitratedRequest_requested, find_setArbitratedRequest]
    by_cases hk : k' = k
    · rw [if_pos hk, hk]
      exact hsettled.trans hl.symm
    · rw [if_neg hk]
      refine (h k').trans (getLowestRequest_congr fun q => ?_).symm
      rw [live_updatePolicyRequest, live_commit, if_neg (fun hq => hk hq.2)]

/-- Without one policy the lowest request stays, if another one asks for as little. -/
theorem getLowestRequest_without_iff {requests requests' : Requests K V} {k : K}
    (h : ∀ q, Requests.live requests' q k = if q = p then none else Requests.live requests q k) :
    getLowestRequest k requests' = getLowestRequest k requests ↔
      ∀ v, Requests.live requests p k = some v →
        ∃ q w, q ≠ p ∧ Requests.live requests q k = some w ∧ w ≤ v := by
  have hother : ∀ {q}, q ≠ p → Requests.live requests' q k = Requests.live requests q k :=
    fun hq => (h _).trans (if_neg hq)
  cases hlowest : getLowestRequest k requests with
  | none =>
    have hnone := (getLowestRequest_eq_none_iff k requests).1 hlowest
    refine iff_of_true ((getLowestRequest_eq_none_iff k requests').2 fun q => ?_) fun v hv => ?_
    · rw [h, hnone q, ite_self]
    · rw [hnone p] at hv
      contradiction
  | some l =>
    have hleast := (getLowestRequest_eq_some_iff k requests l).1 hlowest
    rw [getLowestRequest_eq_some_iff]
    constructor
    · rintro ⟨⟨q, hq⟩, -⟩ v hv
      have hqp : q ≠ p := by
        rintro rfl
        rw [h, if_pos rfl] at hq
        contradiction
      exact ⟨q, l, hqp, by rw [← hother hqp, hq], hleast.2 ⟨p, hv⟩⟩
    · intro hcond
      constructor
      · obtain ⟨q, hq⟩ := hleast.1
        by_cases hqp : q = p
        · obtain ⟨q', w, hq', hw, hle⟩ := hcond l (hqp ▸ hq)
          have hlw := hleast.2 ⟨q', hw⟩
          exact ⟨q', by rw [hother hq', hw, le_antisymm hle hlw]⟩
        · exact ⟨q, by rw [hother hqp, hq]⟩
      · rintro w ⟨q, hq⟩
        by_cases hqp : q = p
        · rw [h, if_pos hqp] at hq
          contradiction
        · exact hleast.2 ⟨q, by rw [← hother hqp, hq]⟩

omit [RequestValue V] in
theorem removeRequestForPolicy_arbitrated (t : RequestTable K V) (p : PolicyIndex) (k : K) :
    (t.removeRequestForPolicy p k).arbitrated = t.arbitrated := by
  rw [removeRequestForPolicy]
  split
  · rfl
  · split <;> rfl

theorem coupled_removeOne_iff (h : t.Coupled) (p : PolicyIndex) (k : K) :
    (t.removeRequestForPolicy p k).Coupled ↔ ∀ v, Requests.live t.requested p k = some v →
        ∃ q w, q ≠ p ∧ Requests.live t.requested q k = some w ∧ w ≤ v := by
  have hlive : Requests.live (t.removeRequestForPolicy p k).requested = _ :=
    live_apply t (.removeOne p k)
  have harbitrated := t.removeRequestForPolicy_arbitrated p k
  have hk : ∀ q, Requests.live (t.removeRequestForPolicy p k).requested q k =
      if q = p then none else Requests.live t.requested q k := by
    intro q
    rw [hlive, live_removeOne]
    simp only [and_true]
  rw [← getLowestRequest_without_iff hk, ← h k, ← harbitrated]
  constructor
  · intro hc
    exact (hc k).symm
  · intro heq k'
    by_cases hk' : k' = k
    · rw [hk', heq]
    · rw [harbitrated, h k']
      refine (getLowestRequest_congr fun q => ?_).symm
      rw [hlive, live_removeOne, if_neg (fun hq => hk' hq.2)]

omit [RequestValue V] in
theorem mem_findControlTypesSetForPolicy (controls : KeyMap K V) (k : K) :
    k ∈ findControlTypesSetForPolicy controls ↔ (controls.find k).isSome := by
  rw [findControlTypesSetForPolicy, List.mem_filter, and_iff_right (ControlType.mem_types k)]

/-- Without the requests of a policy its types are arbitrated anew, unless no request of the type is
left; nothing stays arbitrated once no policy is left. -/
theorem getArbitrated_removeRequests (t : RequestTable K V) (p : PolicyIndex) (k : K) :
    (t.removeRequests p).getArbitrated k =
      if (t.requested.find p).isSome ∧ (t.requested.erase p).isEmpty then none
      else if Requests.live t.requested p k = none then t.getArbitrated k
      else (getLowestRequest k (t.requested.erase p)).elim (t.getArbitrated k)
        (settled (t.getArbitrated k)) := by
  cases hfind : t.requested.find p with
  | none =>
    rw [removeRequests_of_find_none hfind, if_neg (by simp), if_pos (live_of_find_none hfind k)]
  | some controls =>
    have hlive : Requests.live t.requested p k = controls.find k := by
      rw [Requests.live, hfind, Option.bind_some]
    unfold removeRequests
    simp only [hfind, Option.isSome_some, true_and]
    by_cases hempty : (t.requested.erase p).isEmpty
    · rw [if_neg (not_not.2 hempty), if_pos hempty]
      rfl
    · rw [if_pos hempty, if_neg hempty, getArbitrated, find_setArbitratedForControlTypes, hlive]
      simp only [mem_findControlTypesSetForPolicy]
      cases controls.find k with
      | none => rfl
      | some v => cases getLowestRequest k (t.requested.erase p) <;> rfl

omit [RequestValue V] in
theorem live_of_isEmpty {requests : Requests K V} (h : requests.isEmpty) (p : PolicyIndex) (k : K) :
    Requests.live requests p k = none :=
  live_of_find_none ((requests.isEmpty_iff).1 h p) k

theorem coupled_removeAll_iff (h : t.Coupled) (p : PolicyIndex) : (t.removeRequests p).Coupled ↔
      (t.requested.erase p).isEmpty ∨ ∀ k, (Requests.live t.requested p k).isSome →
        (∃ q, q ≠ p ∧ (Requests.live t.requested q k).isSome) ∧
          Distinct (t.getArbitrated k) (getLowestRequest k (t.requested.erase p)) := by
  have herase : ∀ q k, Requests.live (t.requested.erase p) q k =
      if q = p then none else Requests.live t.requested q k := by
    intro q k
    rw [live_erase, live_removeAll]
  have hother : ∀ k, Requests.live t.requested p k = none →
      getLowestRequest k (t.requested.erase p) = getLowestRequest k t.requested := by
    refine fun k hk => getLowestRequest_congr fun q => ?_
    rw [herase]
    split_ifs with hqp
    · rw [hqp, hk]
    · rfl
  have hcoupled : (t.removeRequests p).Coupled ↔ ∀ k, (t.removeRequests p).getArbitrated k =
      getLowestRequest k (t.requested.erase p) := by
    rw [← removeRequests_requested]
    rfl
  simp only [hcoupled, getArbitrated_removeRequests]
  by_cases hempty : (t.requested.erase p).isEmpty
  · refine iff_of_true (fun k => ?_) (Or.inl hempty)
    cases hfind : t.requested.find p with
    | none =>
      have hnone := live_of_find_none hfind k
      rw [if_neg (by simp), if_pos hnone, hother k hnone]
      exact h k
    | some controls =>
      rw [if_pos ⟨rfl, hempty⟩]
      exact ((getLowestRequest_eq_none_iff k _).2 fun q => live_of_isEmpty hempty q k).symm
  · rw [or_iff_right hempty]
    refine forall_congr' fun k => ?_
    rw [if_neg (fun hboth => hempty hboth.2)]
    by_cases hk : Requests.live t.requested p k = none
    · rw [if_pos hk, hk, hother k hk]
      exact iff_of_true (h k) fun hsome => by cases hsome
    · rw [if_neg hk, imp_iff_right (Option.isSome_iff_ne_none.2 hk)]
      cases hl : getLowestRequest k (t.requested.erase p) with
      | none =>
        refine iff_of_false (fun hold => hk ?_) ?_
        · -- the exception was swallowed, so the value of the policy still stands
          exact (getLowestRequest_eq_none_iff k _).1 ((h k).symm.trans hold) p
        · rintro ⟨⟨q, hqp, hq⟩, -⟩
          have hnone := (getLowestRequest_eq_none_iff k _).1 hl q
          rw [herase, if_neg hqp] at hnone
          rw [hnone] at hq
          contradiction
      | some l =>
        obtain ⟨q, hq⟩ := ((getLowestRequest_eq_some_iff k _ l).1 hl).1
        rw [herase] at hq
        split_ifs at hq with hqp
        rw [and_iff_right ⟨q, hqp, by rw [hq]; rfl⟩]
        exact settled_eq_iff _ _

/-- The recorded value is the lowest request before, the one to record that after. -/
theorem distinct_iff_toldApart (h : t.Coupled) {requests : Requests K V} {op : TableOp K V}
    (hlive : Requests.live requests = op.live (Requests.live t.requested)) (k : K) :
    Distinct (t.getArbitrated k) (getLowestRequest k requests) ↔
      op.ToldApart (Requests.live t.requested) k := by
  simp only [Distinct, TableOp.ToldApart, getArbitrated, h k, getLowestRequest_eq_some_iff, hlive]

/-- **The steps of a table.**  From a table that arbitrates the least requests, exactly the
operations that are said to keep it so do. -/
theorem coupled_apply_iff (h : t.Coupled) (op : TableOp K V) :
    (t.apply op).Coupled ↔ op.Keeps t (Requests.live t.requested) := by
  cases op with
  | commit p k v =>
    exact (coupled_commit_iff h p k v).trans
      (distinct_iff_toldApart h (live_updatePolicyRequest p k v t.requested) k)
  | removeOne p k => exact coupled_removeOne_iff h p k
  | removeAll p =>
    refine (coupled_removeAll_iff h p).trans (or_congr_right (forall_congr' fun k => ?_))
    exact imp_congr_right fun _ =>
      and_congr_right fun _ => distinct_iff_toldApart h (live_erase t.requested p) k

end RequestTable

end TableSteps

end Mgr

import Dptf.Mgr.Setters

/-!
# The power limits a participant runs at

A limit is written where the arbitrated value changes, which need not be where the written one is
another.

* `everyCallApplies_iff` — the runs in which the participant is at the limit after every call.
-/

open Lib

namespace Mgr

/-! ## Runs of calls -/

/-- What sets and takes back power limits. -/
inductive LimitCall
  | setPowerLimit (policyIndex : PolicyIndex) (controlType : PowerControlType) (powerLimit : Power)
  | removePowerLimitPolicyRequest (policyIndex : PolicyIndex) (controlType : PowerControlType)
  | clearArbitrationDataForPolicy (policyIndex : PolicyIndex)

/-- What a call means for the requests. -/
def LimitCall.tableOp : LimitCall → TableOp PowerControlType Power
  | setPowerLimit p k v => .commit p k v
  | removePowerLimitPolicyRequest p k => .removeOne p k
  | clearArbitrationDataForPolicy p => .removeAll p

/-- A domain with its participant, and the requests that live. -/
structure LimitState where
  domainState : DomainState
  live : LiveRequests PowerControlType Power

section Caps

variable (caps : PowerControlType → Option Power)

/-- A call, with a participant that takes every value. -/
def DomainState.limitCall (s : DomainState) : LimitCall → DomainState
  | .setPowerLimit p k v => ((Mgr.setPowerLimit p k v).call true s).state
  | .removePowerLimitPolicyRequest p k => s.removePowerLimitPolicyRequest caps p k
  | .clearArbitrationDataForPolicy p => s.clearArbitrationDataForPolicy p

/-- A call, and what it means for the requests. -/
def LimitState.next (s : LimitState) (call : LimitCall) : LimitState :=
  ⟨s.domainState.limitCall caps call, call.tableOp.live s.live⟩

/-- A domain nobody has called. -/
def LimitState.initial : LimitState := ⟨⟨Domain.empty, Participant.unset, none⟩, fun _ _ => none⟩

/-- A limit is the least live request, or the most that the capability allows if there is none. -/
def RunsAt (live : LiveRequests PowerControlType Power) (k : PowerControlType)
    (applied : Option Power) : Prop :=
  (∃ l, applied = some l ∧ LeastLive live k l) ∨ ((∀ p, live p k = none) ∧ applied = caps k)

/-- After a limit is set the participant was written and runs at the limit; after one is taken
back it does so if it was ever written. -/
def LimitCall.Applies (s : LimitState) (call : LimitCall) : Prop :=
  let s' := s.next caps call
  match call with
  | .setPowerLimit _ k _ =>
    ∃ applied, s'.domainState.participant.powerLimit k = some applied ∧
      RunsAt caps s'.live k applied
  | .removePowerLimitPolicyRequest _ k =>
    ∀ applied, s'.domainState.participant.powerLimit k = some applied →
      RunsAt caps s'.live k applied
  | .clearArbitrationDataForPolicy _ => True

/-- After every call of a run the participant is at the limit. -/
def EveryCallApplies (calls : List LimitCall) : Prop :=
  EveryStep (fun s call => some (LimitState.next caps s call)) (LimitCall.Applies caps)
    LimitState.initial calls

end Caps

/-! ## What the calls say -/

open Classical in
/-- The least live request for a type, if there is one. -/
noncomputable def leastOf (live : LiveRequests PowerControlType Power) (k : PowerControlType) :
    Option Power :=
  if h : ∃ l, LeastLive live k l then some h.choose else none

theorem leastOf_eq_some_iff (live : LiveRequests PowerControlType Power) (k : PowerControlType)
    (l : Power) : leastOf live k = some l ↔ LeastLive live k l := by
  rw [leastOf]
  split
  · rename_i h
    constructor
    · intro hl
      exact Option.some.inj hl ▸ h.choose_spec
    · intro hl
      rw [h.choose_spec.unique hl]
  · rename_i h
    exact iff_of_false (by simp) fun hl => h ⟨l, hl⟩

/-- The calls so far: the requests that live, the policies that have set a limit and were not
cleared since, the least request for a type when a limit of that type was set last, and the least
one when, after that, a policy with a request for the type was cleared and others had one. -/
structure LimitHistory where
  live : LiveRequests PowerControlType Power
  known : PolicyIndex → Prop
  setTo : PowerControlType → Option Power
  least : PowerControlType → Option Power

/-- Before the first call. -/
def LimitHistory.initial : LimitHistory :=
  ⟨fun _ _ => none, fun _ => False, fun _ => none, fun _ => none⟩

open Classical in
/-- One more call.  Once the only policy that is known is cleared, no limit is arbitrated. -/
noncomputable def LimitHistory.next (h : LimitHistory) (call : LimitCall) : LimitHistory :=
  let live := call.tableOp.live h.live
  match call with
  | .setPowerLimit p k _ =>
    { live
      known := fun q => q = p ∨ h.known q
      setTo := Function.update h.setTo k (leastOf live k)
      least := Function.update h.least k (leastOf live k) }
  | .removePowerLimitPolicyRequest _ _ => { h with live }
  | .clearArbitrationDataForPolicy p =>
    { h with
      live
      known := fun q => q ≠ p ∧ h.known q
      least := fun k =>
        if ∀ q, h.known q ↔ q = p then none
        else if h.live p k = none then h.least k
        else (leastOf live k).or (h.least k) }

/-- The calls that leave the participant at the limit.  A limit is set where the least request is
then not the one that was the least when a policy was cleared, unless it was already before that;
a request is taken back where another policy asks for the limit that was set last, or nobody asks
for any and it is the most that the capability allows. -/
def LimitCall.KeepsLimit (caps : PowerControlType → Option Power) (h : LimitHistory) :
    LimitCall → Prop
  | .setPowerLimit p k v => ∀ l, LeastLive ((TableOp.commit p k v).live h.live) k l →
      h.least k = some l → h.setTo k = some l
  | .removePowerLimitPolicyRequest p k => ∀ l, h.setTo k = some l →
      (∃ q, q ≠ p ∧ h.live q k = some l) ∨ (∀ q, q ≠ p → h.live q k = none) ∧ caps k = some l
  | .clearArbitrationDataForPolicy _ => True

/-- Every call of a run leaves the participant at the limit, by the calls before it. -/
def EveryCallKeepsLimit (caps : PowerControlType → Option Power) (calls : List LimitCall) : Prop :=
  EveryStep (fun h call => some (LimitHistory.next h call)) (LimitCall.KeepsLimit caps)
    LimitHistory.initial calls

/-! ## What a call does -/

section Calls

variable {caps : PowerControlType → Option Power}

/-- The value that is written is the lowest request, unless it is arbitrated already. -/
theorem newValue_setPowerLimit {d : Domain} {p : PolicyIndex} {k : PowerControlType} {v l : Power}
    (hl : d.powerControl.powerLimits.arbitrate p k v = some l) : (setPowerLimit p k v).newValue d =
      some (if d.powerControl.powerLimits.getArbitrated k = some l then none else some l) := by
  cases hold : d.powerControl.powerLimits.getArbitrated k with
  | none =>
    have hhas : (setPowerLimit p k v).hasArbitrated d = false := by
      show (d.powerControl.powerLimits.getArbitrated k).isSome = false
      rw [hold]
      rfl
    have hnew : (setPowerLimit p k v).arbitrate d = some l := hl
    rw [if_neg (by simp)]
    unfold ControlSetter.newValue
    rw [hhas, hnew]
    rfl
  | some current =>
    have hhas : (setPowerLimit p k v).hasArbitrated d = true := by
      show (d.powerControl.powerLimits.getArbitrated k).isSome = true
      rw [hold]
      rfl
    have hcurrent : (setPowerLimit p k v).getArbitrated d = some current := hold
    have hnew : (setPowerLimit p k v).arbitrate d = some l := hl
    unfold ControlSetter.newValue
    rw [hhas, hcurrent, hnew]
    show some (if RequestValue.same current l then none else some l) = _
    by_cases heq : current = l
    · rw [if_pos ((Power.same_iff current l).2 heq), heq, if_pos rfl]
    · rw [if_neg (mt (Power.same_iff current l).1 heq), if_neg (mt Option.some.inj heq)]

/-- A limit is set: the request is kept, and the participant is written if need be. -/
theorem call_setPowerLimit (s : DomainState) {p : PolicyIndex} {k : PowerControlType} {v l : Power}
    (hl : s.domain.powerControl.powerLimits.arbitrate p k v = some l) :
    let s' := ((setPowerLimit p k v).call true s).state
    s'.domain = (setPowerLimit p k v).commit s.domain ∧ s'.participant.powerLimit =
        if s.domain.powerControl.powerLimits.getArbitrated k = some l then
          s.participant.powerLimit
        else Function.update s.participant.powerLimit k (some (some l)) := by
  have hnew := newValue_setPowerLimit hl
  split_ifs at hnew ⊢
  · rw [ControlSetter.call_of_same hnew]
    exact ⟨rfl, rfl⟩
  · rw [ControlSetter.call_of_new hnew]
    exact ⟨rfl, rfl⟩

/-- One request is taken back, but the arbitrated values stay, so nothing is written. -/
theorem removePowerLimitPolicyRequest_eq (s : DomainState) (p : PolicyIndex)
    (k : PowerControlType) :
    s.removePowerLimitPolicyRequest caps p k =
      { s with
        domain := { s.domain with
          powerControl :=
            s.domain.powerControl.apply (.removePowerLimitRequestForPolicy p k) } } := by
  have harbitrated : (s.domain.powerControl.apply
      (.removePowerLimitRequestForPolicy p k)).powerLimits.arbitrated =
      s.domain.powerControl.powerLimits.arbitrated :=
    s.domain.powerControl.powerLimits.removeRequestForPolicy_arbitrated p k
  unfold DomainState.removePowerLimitPolicyRequest
  simp only [Domain.getArbitratedPowerLimit, RequestTable.getArbitrated, harbitrated]
  rw [if_neg (not_not.2 rfl)]

/-- What a call does to the requests for power limits. -/
theorem limitCall_powerLimits (s : DomainState) (call : LimitCall) :
    (s.limitCall caps call).domain.powerControl.powerLimits =
      s.domain.powerControl.powerLimits.apply call.tableOp := by
  cases call with
  | setPowerLimit p k v =>
    obtain ⟨l, hl⟩ := s.domain.powerControl.powerLimits.arbitrate_isSome p k v
    show ((setPowerLimit p k v).call true s).state.domain.powerControl.powerLimits = _
    rw [(call_setPowerLimit s hl).1]
    rfl
  | removePowerLimitPolicyRequest p k =>
    show (s.removePowerLimitPolicyRequest caps p k).domain.powerControl.powerLimits = _
    rw [removePowerLimitPolicyRequest_eq]
    rfl
  | clearArbitrationDataForPolicy p =>
    show (s.domain.powerControl.apply (.removeRequestsForPolicy p)).powerLimits = _
    rw [PowerControlArbitrator.apply_toLimitTables]
    rfl

/-! What is arbitrated then. -/

variable (t : RequestTable PowerControlType Power) (p : PolicyIndex) (k : PowerControlType)

theorem settled_power (old : Option Power) (l : Power) : settled old l = some l := by
  rw [settled_eq_iff]
  exact fun o l' _ _ hsame => (Power.same_iff o l').1 hsame

theorem getArbitrated_setPowerLimit (v : Power) (k' : PowerControlType) :
    (t.commitPolicyRequest p k v).getArbitrated k' =
      if k' = k then t.arbitrate p k v else t.getArbitrated k' := by
  obtain ⟨l, hl⟩ := t.arbitrate_isSome p k v
  rw [RequestTable.commitPolicyRequest_eq hl, RequestTable.getArbitrated,
    RequestTable.find_setArbitratedRequest, settled_power, hl]
  rfl

theorem getArbitrated_clearArbitrationDataForPolicy : (t.removeRequests p).getArbitrated k =
    if (t.requested.find p).isSome ∧ (t.requested.erase p).isEmpty then none
    else if Requests.live t.requested p k = none then t.getArbitrated k
    else (getLowestRequest k (t.requested.erase p)).or (t.getArbitrated k) := by
  rw [RequestTable.getArbitrated_removeRequests, funext (settled_power _)]
  cases getLowestRequest k (t.requested.erase p) <;> rfl

end Calls

/-! ## The limit after each call -/

/-- The requests in the arbitrator are those that live. -/
def LimitState.Mirrors (s : LimitState) : Prop :=
  Requests.live s.domainState.domain.powerControl.powerLimits.requested = s.live

section Limits

variable {caps : PowerControlType → Option Power}

theorem LimitState.mirrors_initial : LimitState.initial.Mirrors := rfl

theorem LimitState.mirrors_next {s : LimitState} (h : s.Mirrors) (call : LimitCall) :
    (s.next caps call).Mirrors := by
  unfold LimitState.Mirrors LimitState.next
  rw [limitCall_powerLimits, RequestTable.live_apply, h]

theorem RunsAt.of_least {live : LiveRequests PowerControlType Power} {k : PowerControlType}
    {l : Power} (h : LeastLive live k l) (applied : Option Power) :
    RunsAt caps live k applied ↔ applied = some l := by
  constructor
  · rintro (⟨l', rfl, hl'⟩ | ⟨hnone, -⟩)
    · rw [hl'.unique h]
    · obtain ⟨p, hp⟩ := h.1
      rw [hnone p] at hp
      contradiction
  · intro happlied
    exact Or.inl ⟨l, happlied, h⟩

/-- A domain and its participant that have come through the calls, and were at the limit after
each. -/
structure LimitHistory.Follows (h : LimitHistory) (s : LimitState) : Prop where
  live : h.live = s.live
  mirrors : s.Mirrors
  known : ∀ p, h.known p ↔ (s.domainState.domain.powerControl.powerLimits.requested.find p).isSome
  arbitrated : ∀ k, s.domainState.domain.powerControl.powerLimits.getArbitrated k = h.least k
  held : ∀ k, s.domainState.participant.powerLimit k = (h.setTo k).map some
  lower : ∀ k l, h.setTo k = some l → ∀ q v, h.live q k = some v → l ≤ v

theorem LimitHistory.follows_initial : LimitHistory.initial.Follows LimitState.initial where
  live := rfl
  mirrors := rfl
  known _ := iff_of_false id Bool.false_ne_true
  arbitrated _ := rfl
  held _ := rfl
  lower _ _ h := by cases h

section Follows

variable {h : LimitHistory} {s : LimitState}

/-- The least live request is the lowest one in the table. -/
theorem leastOf_live (requests : Requests PowerControlType Power) (k : PowerControlType) :
    leastOf (Requests.live requests) k = getLowestRequest k requests := by
  ext l
  rw [leastOf_eq_some_iff, getLowestRequest_eq_some_iff]

/-- What is arbitrated when a limit is set. -/
theorem LimitHistory.Follows.arbitrate_eq (hf : h.Follows s) (p : PolicyIndex) (k : PowerControlType)
    (v : Power) : s.domainState.domain.powerControl.powerLimits.arbitrate p k v =
      leastOf ((TableOp.commit p k v).live h.live) k := by
  rw [hf.live, ← hf.mirrors, ← live_updatePolicyRequest, leastOf_live]
  rfl

theorem LimitHistory.Follows.powerLimit_set (hf : h.Follows s) {p : PolicyIndex}
    {k : PowerControlType} {v l : Power} (hl : leastOf ((TableOp.commit p k v).live h.live) k = some l) :
    (s.domainState.limitCall caps (.setPowerLimit p k v)).participant.powerLimit =
      if h.least k = some l then s.domainState.participant.powerLimit
      else Function.update s.domainState.participant.powerLimit k (some (some l)) := by
  rw [← hf.arbitrate_eq] at hl
  rw [← hf.arbitrated]
  exact (call_setPowerLimit s.domainState hl).2

/-- A call leaves the participant at the limit just if the calls before it let it. -/
theorem LimitHistory.Follows.applies_iff (hf : h.Follows s) (call : LimitCall) :
    call.Applies caps s ↔ call.KeepsLimit caps h := by
  cases call with
  | setPowerLimit p k v =>
    obtain ⟨l, hl⟩ := s.domainState.domain.powerControl.powerLimits.arbitrate_isSome p k v
    rw [hf.arbitrate_eq] at hl
    have hleast := (leastOf_eq_some_iff _ k l).1 hl
    have happlies : (LimitCall.setPowerLimit p k v).Applies caps s ↔
        (s.domainState.limitCall caps (.setPowerLimit p k v)).participant.powerLimit k =
          some (some l) := by
      rw [hf.live] at hleast
      constructor
      · rintro ⟨applied, happlied, hruns⟩
        rw [(RunsAt.of_least hleast applied).1 hruns] at happlied
        exact happlied
      · intro happlied
        exact ⟨some l, happlied, (RunsAt.of_least hleast _).2 rfl⟩
    rw [happlies, hf.powerLimit_set hl]
    by_cases hold : h.least k = some l
    · rw [if_pos hold, hf.held, Option.map_eq_some_iff]
      constructor
      · rintro ⟨_, hset, ⟨⟩⟩ l' hl' -
        rw [hleast.unique hl'] at hset
        exact hset
      · exact fun hkeeps => ⟨l, hkeeps l hleast hold, rfl⟩
    · rw [if_neg hold, Function.update_self]
      exact iff_of_true rfl fun l' hl' hleast' => absurd (hleast.unique hl' ▸ hleast') hold
  | removePowerLimitPolicyRequest p k =>
    have hparticipant : (s.domainState.limitCall caps
        (.removePowerLimitPolicyRequest p k)).participant = s.domainState.participant := by
      show (s.domainState.removePowerLimitPolicyRequest caps p k).participant = _
      rw [removePowerLimitPolicyRequest_eq]
    have hlive : ∀ q, TableOp.live s.live (.removeOne p k) q k =
        if q = p then none else h.live q k := by
      intro q
      rw [hf.live, live_removeOne]
      simp only [and_true]
    show (∀ applied, (s.domainState.limitCall caps
      (.removePowerLimitPolicyRequest p k)).participant.powerLimit k = some applied →
        RunsAt caps (TableOp.live s.live (.removeOne p k)) k applied) ↔ _
    rw [hparticipant, hf.held]
    simp only [Option.map_eq_some_iff, LimitCall.KeepsLimit, forall_exists_index, and_imp,
      forall_apply_eq_imp_iff₂]
    refine forall_congr' fun l => imp_congr_right fun hset => ?_
    simp only [RunsAt, LeastLive, hlive]
    -- no request is below the limit that was set last
    have hlower := hf.lower k l hset
    refine or_congr ?_ (and_congr ?_ eq_comm)
    · constructor
      · rintro ⟨l', ⟨⟩, ⟨q, hq⟩, -⟩
        split_ifs at hq with hqp
        exact ⟨q, hqp, hq⟩
      · rintro ⟨q, hqp, hq⟩
        refine ⟨l, rfl, ⟨q, by rw [if_neg hqp, hq]⟩, ?_⟩
        rintro v ⟨q', hq'⟩
        split_ifs at hq' with hqp'
        exact hlower q' v hq'
    · refine forall_congr' fun q => ?_
      by_cases hqp : q = p
      · simp [hqp]
      · simp [hqp]
  | clearArbitrationDataForPolicy p => exact Iff.rfl

/-- The requests below the limit that was set last stay none. -/
theorem LimitHistory.Follows.lower_next (hf : h.Follows s) (call : LimitCall)
    (k : PowerControlType) (l : Power) (hl : (h.next call).setTo k = some l) (q : PolicyIndex)
    (v : Power) (hv : (h.next call).live q k = some v) : l ≤ v := by
  cases call with
  | setPowerLimit p k' v' =>
    by_cases hk : k = k'
    · subst hk
      have hleast : leastOf ((TableOp.commit p k v').live h.live) k = some l := by
        rw [← hl]
        exact (Function.update_self k _ h.setTo).symm
      exact ((leastOf_eq_some_iff _ k l).1 hleast).2 ⟨q, hv⟩
    · have hset : h.setTo k = some l := (Function.update_of_ne hk ..).symm.trans hl
      have hlive : TableOp.live h.live (.commit p k' v') q k = some v := hv
      rw [live_commit, if_neg (fun hboth => hk hboth.2)] at hlive
      exact hf.lower k l hset q v hlive
  | removePowerLimitPolicyRequest p k' =>
    have hlive : TableOp.live h.live (.removeOne p k') q k = some v := hv
    rw [live_removeOne] at hlive
    split_ifs at hlive
    exact hf.lower k l hl q v hlive
  | clearArbitrationDataForPolicy p =>
    have hlive : TableOp.live h.live (.removeAll p) q k = some v := hv
    rw [live_removeAll] at hlive
    split_ifs at hlive
    exact hf.lower k l hl q v hlive

/-- Which policies the table knows. -/
theorem LimitHistory.Follows.known_next (hf : h.Follows s) (call : LimitCall) (q : PolicyIndex) :
    (h.next call).known q ↔
      ((s.next caps call).domainState.domain.powerControl.powerLimits.requested.find q).isSome := by
  show _ ↔ ((s.domainState.limitCall caps call).domain.powerControl.powerLimits.requested.find
    q).isSome
  rw [limitCall_powerLimits]
  have hknown := hf.known
  generalize s.domainState.domain.powerControl.powerLimits = t at hknown ⊢
  cases call with
  | setPowerLimit p k v =>
    show q = p ∨ h.known q ↔ ((t.commitPolicyRequest p k v).requested.find q).isSome
    rw [RequestTable.commitPolicyRequest_requested, updatePolicyRequest, KeyMap.find_assign, hknown]
    by_cases hq : q = p <;> simp [hq]
  | removePowerLimitPolicyRequest p k =>
    show h.known q ↔ ((t.removeRequestForPolicy p k).requested.find q).isSome
    rw [hknown, RequestTable.removeRequestForPolicy]
    cases hfind : t.requested.find p with
    | none => rfl
    | some controls =>
      cases hcontrol : controls.find k with
      | none => simp only [hcontrol]
      | some v =>
        simp only [hcontrol, KeyMap.find_assign]
        by_cases hq : q = p
        · rw [if_pos hq, hq, hfind]
          rfl
        · rw [if_neg hq]
  | clearArbitrationDataForPolicy p =>
    show q ≠ p ∧ h.known q ↔ ((t.removeRequests p).requested.find q).isSome
    rw [hknown]
    rw [RequestTable.removeRequests_requested, KeyMap.find_erase]
    by_cases hq : q = p <;> simp [hq]

/-- A policy is the only one the table knows. -/
theorem LimitHistory.Follows.known_only_iff (hf : h.Follows s) (p : PolicyIndex) :
    let requested := s.domainState.domain.powerControl.powerLimits.requested
    (∀ q, h.known q ↔ q = p) ↔ (requested.find p).isSome ∧ (requested.erase p).isEmpty := by
  simp only [hf.known, KeyMap.isEmpty_iff, KeyMap.find_erase]
  constructor
  · intro honly
    refine ⟨(honly p).2 rfl, fun q => ?_⟩
    by_cases hq : q = p
    · rw [if_pos hq]
    · rw [if_neg hq, ← Option.not_isSome_iff_eq_none, honly]
      exact hq
  · rintro ⟨hp, hothers⟩ q
    by_cases hq : q = p
    · rw [hq]
      exact iff_of_true hp rfl
    · have hnone := hothers q
      rw [if_neg hq] at hnone
      rw [hnone]
      exact iff_of_false Bool.false_ne_true hq

/-- What a call leaves arbitrated. -/
theorem LimitHistory.Follows.arbitrated_next (hf : h.Follows s) (call : LimitCall)
    (k : PowerControlType) :
    (s.next caps call).domainState.domain.powerControl.powerLimits.getArbitrated k =
      (h.next call).least k := by
  show (s.domainState.limitCall caps call).domain.powerControl.powerLimits.getArbitrated k = _
  rw [limitCall_powerLimits]
  cases call with
  | setPowerLimit p k' v =>
    refine (getArbitrated_setPowerLimit _ p k' v k).trans ?_
    rw [hf.arbitrate_eq, hf.arbitrated]
    exact (Function.update_apply h.least k' _ k).symm
  | removePowerLimitPolicyRequest p k' =>
    refine Eq.trans ?_ (hf.arbitrated k)
    exact congrArg (fun arbitrated => KeyMap.find arbitrated k)
      (RequestTable.removeRequestForPolicy_arbitrated _ p k')
  | clearArbitrationDataForPolicy p =>
    refine (getArbitrated_clearArbitrationDataForPolicy _ p k).trans ?_
    have hlive : TableOp.live h.live (.removeAll p) =
        Requests.live (s.domainState.domain.powerControl.powerLimits.requested.erase p) := by
      rw [live_erase, hf.mirrors, hf.live]
    have hown : Requests.live s.domainState.domain.powerControl.powerLimits.requested p k =
        h.live p k := by
      rw [hf.mirrors, hf.live]
    simp only [LimitHistory.next, LimitCall.tableOp, hlive, leastOf_live, hf.arbitrated, hown]
    by_cases honly : ∀ q, h.known q ↔ q = p
    · rw [if_pos honly, if_pos ((hf.known_only_iff p).1 honly)]
    · rw [if_neg honly, if_neg (mt (hf.known_only_iff p).2 honly)]

/-- A call after which the participant is at the limit is followed. -/
theorem LimitHistory.Follows.next (hf : h.Follows s) {call : LimitCall}
    (happlies : call.Applies caps s) : (h.next call).Follows (s.next caps call) where
  live := by
    have hlive : (h.next call).live = call.tableOp.live h.live := by cases call <;> rfl
    rw [hlive, hf.live]
    rfl
  mirrors := s.mirrors_next hf.mirrors call
  known := hf.known_next call
  arbitrated := hf.arbitrated_next call
  lower := hf.lower_next call
  held k := by
    cases call with
    | setPowerLimit p k' v =>
      obtain ⟨l, hl⟩ := s.domainState.domain.powerControl.powerLimits.arbitrate_isSome p k' v
      rw [hf.arbitrate_eq] at hl
      have hset : (h.next (.setPowerLimit p k' v)).setTo = Function.update h.setTo k' (some l) := by
        rw [← hl]
        rfl
      show (s.domainState.limitCall caps (.setPowerLimit p k' v)).participant.powerLimit k = _
      rw [hset, Function.update_apply]
      by_cases hk : k = k'
      · subst hk
        obtain ⟨applied, happlied, hruns⟩ := happlies
        have hleast := (leastOf_eq_some_iff _ k l).1 hl
        rw [hf.live] at hleast
        rw [(RunsAt.of_least hleast applied).1 hruns] at happlied
        rw [if_pos rfl]
        exact happlied
      · rw [if_neg hk, hf.powerLimit_set hl]
        split
        · exact hf.held k
        · rw [Function.update_of_ne hk, hf.held]
    | removePowerLimitPolicyRequest p k' =>
      show (s.domainState.removePowerLimitPolicyRequest caps p k').participant.powerLimit k = _
      rw [removePowerLimitPolicyRequest_eq]
      exact hf.held k
    | clearArbitrationDataForPolicy p => exact hf.held k

end Follows

/-- **When the participant runs at the arbitrated limit.**  In a run of calls it does so after
every one, just if each call lets it, by which requests it makes and takes back. -/
theorem everyCallApplies_iff (calls : List LimitCall) :
    EveryCallApplies caps calls ↔ EveryCallKeepsLimit caps calls :=
  everyStep_iff_history (fun _ _ call hf => hf.applies_iff call)
    (fun _ _ _ hf happlies => hf.next happlies)
    LimitHistory.follows_initial calls

/-- A policy sets a limit and takes it back; the participant, capable of 45 W, stays at 10 W. -/
theorem not_everyCallApplies : ¬ EveryCallApplies (fun _ => some (watts 45))
    [.setPowerLimit 0 .pl1 (watts 10), .removePowerLimitPolicyRequest 0 .pl1] := by
  intro h
  have hruns := (h.2 _ rfl).1 (some (watts 10)) (by rfl)
  rcases hruns with ⟨l, -, ⟨p, hp⟩, -⟩ | ⟨-, happlied⟩
  · have hlive : (if p = 0 ∧ PowerControlType.pl1 = .pl1 then none else
        if p = 0 ∧ PowerControlType.pl1 = .pl1 then some (watts 10) else none) = some l := hp
    split_ifs at hlive
  · exact absurd happlied (by decide)

end Limits

end Mgr

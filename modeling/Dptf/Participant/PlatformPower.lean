import Dptf.Lib.Tightest
import Dptf.Mgr.RequestTable

/-!
# The requests for platform power ports

`ArbitratorPlatformPowerControl.cpp`.  Policies request a power limit for a port, which may be
invalid; for each port the lowest request wins.

* `Holds.commit`, `Holds.remove` — one call; `everyStep_lowest_reports` — **a run**, as long as no
  policy is removed that has a request outside of the ports 1 to 8, and no request is made
  invalid where there is no valid one.
-/

open Lib

namespace Participant

open Mgr (Power PolicyIndex LiveRequests)

/-! ## The arbitrator -/

/-- The number of a port, a `UInt32`. -/
abbrev PortNumber := Nat

/-- `MAX_PORT_NUMBER`. -/
def maxPortNumber : PortNumber := 8

/-- `m_requestedPowerLimits`; `none` is an invalid power. -/
abbrev PortRequests := KeyMap PolicyIndex (KeyMap PortNumber (Option Power))

/-- One turn of the loop in `getLowestRequest`: `lowestRequestSet` and `lowestRequest`. -/
def lowerRequest (lowest : Bool × Option Power) (request : Option Power) : Bool × Option Power :=
  if lowest.1 = false then (true, request)
  else
    match lowest.2, request with
    | some l, some r => if r < l then (true, some r) else lowest
    | none, some r => (true, some r)
    | _, none => lowest

/-- `getLowestRequest`. -/
def getLowestRequest (portNumber : PortNumber) (requests : PortRequests) : Option Power :=
  (requests.values.foldl (fun lowest portNumbers =>
    match portNumbers.find portNumber with
    | some request => lowerRequest lowest request
    | none => lowest) (false, none)).2

/-- `ArbitratorPlatformPowerControl`. -/
structure ArbitratorPlatformPowerControl where
  requestedPowerLimits : PortRequests
  arbitratedPowerLimits : KeyMap PortNumber (Option Power)
  arbitratedValueChanged : Bool

namespace ArbitratorPlatformPowerControl

/-- The constructor. -/
def create : ArbitratorPlatformPowerControl := ⟨KeyMap.empty, KeyMap.empty, false⟩

/-- `requests[policyIndex][portNumber] = powerLimit`. -/
def setRequest (policyIndex : PolicyIndex) (portNumber : PortNumber) (powerLimit : Option Power)
    (requests : PortRequests) : PortRequests :=
  requests.assign policyIndex
    (((requests.find policyIndex).getD KeyMap.empty).assign portNumber powerLimit)

/-- `getArbitratedValue`. -/
def getArbitratedValue (s : ArbitratorPlatformPowerControl) (portNumber : PortNumber) :
    Option Power :=
  (s.arbitratedPowerLimits.find portNumber).getD none

/-- `arbitrate`, which works on a copy of the requests. -/
def arbitrate (s : ArbitratorPlatformPowerControl) (policyIndex : PolicyIndex)
    (portNumber : PortNumber) (powerLimit : Option Power) : Option Power :=
  getLowestRequest portNumber (setRequest policyIndex portNumber powerLimit s.requestedPowerLimits)

/-- The request is set, and its port is arbitrated anew. -/
def rearbitrate (s : ArbitratorPlatformPowerControl) (policyIndex : PolicyIndex)
    (portNumber : PortNumber) (powerLimit : Option Power) : ArbitratorPlatformPowerControl :=
  let requests := setRequest policyIndex portNumber powerLimit s.requestedPowerLimits
  { s with
    requestedPowerLimits := requests
    arbitratedPowerLimits :=
      s.arbitratedPowerLimits.assign portNumber (getLowestRequest portNumber requests) }

/-- `commitPolicyRequest`. -/
def commitPolicyRequest (s : ArbitratorPlatformPowerControl) (policyIndex : PolicyIndex)
    (portNumber : PortNumber) (powerLimit : Option Power) : ArbitratorPlatformPowerControl :=
  let oldArbitratedValue := s.getArbitratedValue portNumber
  let s := s.rearbitrate policyIndex portNumber powerLimit
  { s with
    arbitratedValueChanged :=
      if oldArbitratedValue.isSome then
        decide (oldArbitratedValue ≠ s.getArbitratedValue portNumber)
      else true }

/-- `findPortNumbersSetForPolicy`. -/
def findPortNumbersSetForPolicy (portNumberRequests : KeyMap PortNumber (Option Power)) :
    List PortNumber :=
  (List.range' 1 maxPortNumber).filter fun portNumber =>
    (portNumberRequests.find portNumber).isSome

/-- One turn of the loop in `removeRequestAndGetAffectedPortNumbers`. -/
def removeAt (policyIndex : PolicyIndex) (s : ArbitratorPlatformPowerControl)
    (portNumber : PortNumber) : ArbitratorPlatformPowerControl :=
  let currentLimit := s.getArbitratedValue portNumber
  let s := s.rearbitrate policyIndex portNumber none
  if currentLimit ≠ s.getArbitratedValue portNumber then { s with arbitratedValueChanged := true }
  else s

/-- `removeRequestAndGetAffectedPortNumbers`. -/
def removeRequestAndGetAffectedPortNumbers (s : ArbitratorPlatformPowerControl)
    (policyIndex : PolicyIndex) : List PortNumber × ArbitratorPlatformPowerControl :=
  let s := { s with arbitratedValueChanged := false }
  match s.requestedPowerLimits.find policyIndex with
  | none => ([], s)
  | some policyRequests =>
    let affectedPortNumbers := findPortNumbersSetForPolicy policyRequests
    (affectedPortNumbers, affectedPortNumbers.foldl (removeAt policyIndex) s)

end ArbitratorPlatformPowerControl

/-! ## The lowest request -/

/-- The valid request of a policy for a port. -/
def validRequest (requests : PortRequests) (p : PolicyIndex) (k : PortNumber) : Option Power :=
  (requests.find p).bind fun portNumbers => (portNumbers.find k).getD none

theorem lowerRequest_snd {lowest : Bool × Option Power} (h : lowest.1 = false → lowest.2 = none)
    (request : Option Power) :
    (lowerRequest lowest request).2 = Option.merge min lowest.2 request := by
  obtain ⟨isSet, l⟩ := lowest
  cases isSet with
  | false =>
    obtain rfl : l = none := h rfl
    cases request <;> rfl
  | true =>
    cases l with
    | none => cases request <;> rfl
    | some l =>
      cases request with
      | none => rfl
      | some r =>
        simp only [lowerRequest, Option.merge_some_some, Bool.true_eq_false, if_false]
        split
        · rename_i hlt
          rw [min_eq_right hlt.le]
        · rename_i hle
          rw [min_eq_left (not_lt.1 hle)]

theorem lowerRequest_fst (lowest : Bool × Option Power) (request : Option Power) :
    (lowerRequest lowest request).1 = true := by
  obtain ⟨isSet, l⟩ := lowest
  cases isSet <;> cases l <;> cases request <;> simp [lowerRequest]
  split <;> rfl

/-- The loop keeps the least valid request. -/
theorem getLowestRequest_eq_foldl (k : PortNumber) (requests : PortRequests) :
    getLowestRequest k requests =
      (requests.values.map fun portNumbers => (portNumbers.find k).getD none).foldl
        (Option.merge min) none := by
  have hloop : ∀ (maps : List (KeyMap PortNumber (Option Power))) (lowest : Bool × Option Power),
      (lowest.1 = false → lowest.2 = none) →
      (maps.foldl (fun lowest portNumbers =>
        match portNumbers.find k with
        | some request => lowerRequest lowest request
        | none => lowest) lowest).2 =
        (maps.map fun portNumbers => (portNumbers.find k).getD none).foldl
          (Option.merge min) lowest.2 := by
    intro maps
    induction maps with
    | nil =>
      intro lowest _
      rfl
    | cons portNumbers maps ih =>
      intro lowest hlowest
      rw [List.foldl_cons, List.map_cons, List.foldl_cons]
      cases hfind : portNumbers.find k with
      | none =>
        rw [Option.getD_none, Option.merge_none_right]
        exact ih lowest hlowest
      | some request =>
        rw [Option.getD_some, ← lowerRequest_snd hlowest]
        refine ih _ fun hset => ?_
        rw [lowerRequest_fst] at hset
        cases hset
  exact hloop requests.values (false, none) fun _ => rfl

/-- **The lowest request is the least of the valid ones.** -/
theorem getLowestRequest_spec (k : PortNumber) (requests : PortRequests) :
    IsTightest (· ≤ ·) (Requested fun p => validRequest requests p k)
      (getLowestRequest k requests) := by
  rw [getLowestRequest_eq_foldl]
  exact isTightest_foldl_values picks_min requests fun portNumbers =>
    (portNumbers.find k).getD none

/-- It is fixed by the valid requests. -/
theorem getLowestRequest_congr {k : PortNumber} {requests requests' : PortRequests}
    (h : ∀ p, validRequest requests p k = validRequest requests' p k) :
    getLowestRequest k requests = getLowestRequest k requests' := by
  have hspec := getLowestRequest_spec k requests
  simp only [h] at hspec
  exact hspec.unique (fun _ _ => le_antisymm) (getLowestRequest_spec k requests')

/-! ## One request -/

open ArbitratorPlatformPowerControl

theorem validRequest_setRequest (p : PolicyIndex) (k : PortNumber) (v : Option Power)
    (requests : PortRequests) (q : PolicyIndex) (l : PortNumber) :
    validRequest (setRequest p k v requests) q l =
      if q = p ∧ l = k then v else validRequest requests q l := by
  have hfind : ∀ (requests : PortRequests) q l, validRequest requests q l =
      ((requests.find q).bind fun portNumbers => portNumbers.find l).getD none := by
    intro requests q l
    rw [validRequest]
    cases requests.find q <;> rfl
  rw [hfind, hfind, setRequest, KeyMap.find_assign_getD]
  split <;> rfl

theorem getArbitratedValue_rearbitrate (s : ArbitratorPlatformPowerControl) (p : PolicyIndex)
    (k : PortNumber) (v : Option Power) (l : PortNumber) :
    (s.rearbitrate p k v).getArbitratedValue l =
      if l = k then s.arbitrate p k v else s.getArbitratedValue l := by
  simp only [getArbitratedValue, rearbitrate, arbitrate, KeyMap.find_assign]
  split <;> rfl

@[simp] theorem getArbitratedValue_commitPolicyRequest (s : ArbitratorPlatformPowerControl)
    (p : PolicyIndex) (k : PortNumber) (v : Option Power) (l : PortNumber) :
    (s.commitPolicyRequest p k v).getArbitratedValue l =
      (s.rearbitrate p k v).getArbitratedValue l := rfl

@[simp] theorem getArbitratedValue_removeAt (p : PolicyIndex) (s : ArbitratorPlatformPowerControl)
    (k l : PortNumber) :
    (removeAt p s k).getArbitratedValue l = (s.rearbitrate p k none).getArbitratedValue l := by
  simp only [removeAt]
  split <;> rfl

@[simp] theorem requestedPowerLimits_removeAt (p : PolicyIndex)
    (s : ArbitratorPlatformPowerControl) (k : PortNumber) :
    (removeAt p s k).requestedPowerLimits = (s.rearbitrate p k none).requestedPowerLimits := by
  simp only [removeAt]
  split <;> rfl

/-- A request for one port. -/
def LiveRequests.set (live : LiveRequests PortNumber Power) (p : PolicyIndex) (k : PortNumber)
    (v : Option Power) : LiveRequests PortNumber Power :=
  fun q l => if q = p ∧ l = k then v else live q l

/-- The arbitrator has the live requests, and has arbitrated them. -/
structure Holds (live : LiveRequests PortNumber Power) (s : ArbitratorPlatformPowerControl) :
    Prop where
  requests : ∀ p k, validRequest s.requestedPowerLimits p k = live p k
  arbitrated : ∀ k, s.getArbitratedValue k = getLowestRequest k s.requestedPowerLimits

theorem holds_create : Holds (fun _ _ => none) create := ⟨fun _ _ => rfl, fun _ => rfl⟩

section Steps

variable {live : LiveRequests PortNumber Power} {s : ArbitratorPlatformPowerControl}

theorem Holds.congr {s' : ArbitratorPlatformPowerControl} (h : Holds live s)
    (hrequests : s'.requestedPowerLimits = s.requestedPowerLimits)
    (harbitrated : ∀ k, s'.getArbitratedValue k = s.getArbitratedValue k) : Holds live s' where
  requests p k := by rw [hrequests, h.requests]
  arbitrated k := by rw [harbitrated, hrequests, h.arbitrated]

/-- The lowest request is the least live one. -/
theorem Holds.isTightest (h : Holds live s) (k : PortNumber) :
    IsTightest (· ≤ ·) (Requested fun p => live p k) (s.getArbitratedValue k) := by
  have hspec := getLowestRequest_spec k s.requestedPowerLimits
  rw [← h.arbitrated] at hspec
  simpa only [h.requests] using hspec

/-- Nothing is arbitrated for a port just if nothing is requested for it. -/
theorem Holds.getArbitratedValue_eq_none_iff (h : Holds live s) (k : PortNumber) :
    s.getArbitratedValue k = none ↔ ∀ p, live p k = none := by
  have hleast := h.isTightest k
  constructor
  · intro hnone p
    rw [hnone] at hleast
    refine Option.eq_none_iff_forall_ne_some.2 fun v hv => hleast v ⟨p, hv⟩
  · intro hall
    cases hvalue : s.getArbitratedValue k with
    | none => rfl
    | some v =>
      rw [hvalue] at hleast
      obtain ⟨p, hp⟩ := hleast.1
      exact hp.symm.trans (hall p)

/-- One request is set, and the port arbitrated. -/
theorem Holds.rearbitrate (h : Holds live s) (p : PolicyIndex) (k : PortNumber)
    (v : Option Power) : Holds (LiveRequests.set live p k v) (s.rearbitrate p k v) where
  requests q l := by
    show validRequest (setRequest p k v s.requestedPowerLimits) q l = _
    rw [validRequest_setRequest, h.requests]
    rfl
  arbitrated l := by
    rw [getArbitratedValue_rearbitrate]
    by_cases hl : l = k
    · subst hl
      rw [if_pos rfl]
      rfl
    · rw [if_neg hl, h.arbitrated]
      refine getLowestRequest_congr fun q => ?_
      show _ = validRequest (setRequest p k v s.requestedPowerLimits) q l
      rw [validRequest_setRequest, if_neg (fun hkey => hl hkey.2)]

/-! ## A commit -/

theorem Holds.commitPolicyRequest (h : Holds live s) (p : PolicyIndex) (k : PortNumber)
    (v : Option Power) : Holds (LiveRequests.set live p k v) (s.commitPolicyRequest p k v) :=
  (h.rearbitrate p k v).congr rfl fun _ => rfl

/-- **The flag after a commit** is right just where a valid request was or is made. -/
theorem Holds.changed_commitPolicyRequest (h : Holds live s) (p : PolicyIndex) (k : PortNumber)
    (v : Option Power) : ((s.commitPolicyRequest p k v).arbitratedValueChanged = true ↔
      ∃ l, s.getArbitratedValue l ≠ (s.commitPolicyRequest p k v).getArbitratedValue l) ↔
      v ≠ none ∨ ∃ q, live q k ≠ none := by
  have hchanged : (∃ l, s.getArbitratedValue l ≠
      (s.commitPolicyRequest p k v).getArbitratedValue l) ↔
        s.getArbitratedValue k ≠ (s.commitPolicyRequest p k v).getArbitratedValue k := by
    constructor
    · rintro ⟨l, hl⟩
      by_cases hkey : l = k
      · exact hkey ▸ hl
      · rw [getArbitratedValue_commitPolicyRequest, getArbitratedValue_rearbitrate,
          if_neg hkey] at hl
        exact absurd rfl hl
    · exact fun hne => ⟨k, hne⟩
  have hafter := (h.commitPolicyRequest p k v).getArbitratedValue_eq_none_iff k
  have hbefore := h.getArbitratedValue_eq_none_iff k
  rw [hchanged]
  cases hold : s.getArbitratedValue k with
  | some old =>
    have hlive : ∃ q, live q k ≠ none := by
      by_contra hnone
      push Not at hnone
      rw [hbefore.2 hnone] at hold
      cases hold
    refine iff_of_true ?_ (Or.inr hlive)
    simp [ArbitratorPlatformPowerControl.commitPolicyRequest, hold]
    rfl
  | none =>
    have hlive := hbefore.1 hold
    have hflag : (s.commitPolicyRequest p k v).arbitratedValueChanged = true := by
      simp [ArbitratorPlatformPowerControl.commitPolicyRequest, hold]
    have hset : (∀ q, LiveRequests.set live p k v q k = none) ↔ v = none := by
      constructor
      · intro hall
        have hp := hall p
        rwa [LiveRequests.set, if_pos ⟨rfl, rfl⟩] at hp
      · rintro rfl q
        rw [LiveRequests.set]
        split
        · rfl
        · exact hlive q
    rw [iff_true_left hflag, ne_comm, ne_eq, hafter, hset]
    simp [hlive]

/-! ## A removal -/

/-- The requests after those of a policy for some ports were made invalid. -/
def LiveRequests.clear (live : LiveRequests PortNumber Power) (p : PolicyIndex)
    (ports : List PortNumber) : LiveRequests PortNumber Power :=
  fun q l => if q = p ∧ l ∈ ports then none else live q l

theorem getArbitratedValue_foldl_removeAt (p : PolicyIndex) {ports : List PortNumber}
    {l : PortNumber} (hl : l ∉ ports) (s : ArbitratorPlatformPowerControl) :
    (ports.foldl (removeAt p) s).getArbitratedValue l = s.getArbitratedValue l := by
  induction ports generalizing s with
  | nil => rfl
  | cons k ports ih =>
    obtain ⟨hne, hrest⟩ := not_or.1 (mt List.mem_cons.2 hl)
    rw [List.foldl_cons, ih hrest, getArbitratedValue_removeAt, getArbitratedValue_rearbitrate,
      if_neg hne]

/-- One turn after the other. -/
theorem Holds.foldl_removeAt (h : Holds live s) (p : PolicyIndex) (ports : List PortNumber) :
    Holds (LiveRequests.clear live p ports) (ports.foldl (removeAt p) s) := by
  induction ports generalizing live s with
  | nil =>
    have hsame : LiveRequests.clear live p [] = live := by
      funext q l
      exact if_neg (fun hmem => absurd hmem.2 List.not_mem_nil)
    rw [hsame]
    exact h
  | cons k ports ih =>
    have hturn := (h.rearbitrate p k none).congr (requestedPowerLimits_removeAt p s k)
      (getArbitratedValue_removeAt p s k)
    have hboth : LiveRequests.clear live p (k :: ports) =
        LiveRequests.clear (LiveRequests.set live p k none) p ports := by
      funext q l
      simp only [LiveRequests.clear, LiveRequests.set, List.mem_cons]
      split_ifs <;> first | rfl | tauto
    rw [hboth]
    exact ih hturn

/-- The flag after a turn. -/
theorem changed_removeAt (p : PolicyIndex) (s : ArbitratorPlatformPowerControl) (k : PortNumber) :
    (removeAt p s k).arbitratedValueChanged = true ↔ s.arbitratedValueChanged = true ∨
        s.getArbitratedValue k ≠ (removeAt p s k).getArbitratedValue k := by
  rw [getArbitratedValue_removeAt]
  simp only [removeAt]
  split
  · rename_i hne
    exact iff_of_true rfl (Or.inr hne)
  · rename_i hsame
    exact (or_iff_left hsame).symm

/-- **The flag after the loop**: no port is looked at twice. -/
theorem changed_foldl_removeAt (p : PolicyIndex) {ports : List PortNumber} (hports : ports.Nodup)
    (s : ArbitratorPlatformPowerControl) :
    (ports.foldl (removeAt p) s).arbitratedValueChanged = true ↔ s.arbitratedValueChanged = true ∨
        ∃ l, s.getArbitratedValue l ≠ (ports.foldl (removeAt p) s).getArbitratedValue l := by
  induction ports generalizing s with
  | nil => simp
  | cons k ports ih =>
    obtain ⟨hk, hrest⟩ := List.nodup_cons.1 hports
    have hlast := getArbitratedValue_foldl_removeAt p hk (removeAt p s k)
    have hother : ∀ l, l ≠ k → (removeAt p s k).getArbitratedValue l = s.getArbitratedValue l := by
      intro l hl
      rw [getArbitratedValue_removeAt, getArbitratedValue_rearbitrate, if_neg hl]
    rw [List.foldl_cons, ih hrest, changed_removeAt, or_assoc]
    refine or_congr_right ⟨?_, ?_⟩
    · rintro (hne | ⟨l, hl⟩)
      · exact ⟨k, hlast ▸ hne⟩
      · refine ⟨l, ?_⟩
        by_cases hkey : l = k
        · subst hkey
          exact absurd hlast.symm hl
        · rwa [hother l hkey] at hl
    · rintro ⟨l, hl⟩
      by_cases hkey : l = k
      · subst hkey
        rw [hlast] at hl
        exact Or.inl hl
      · refine Or.inr ⟨l, ?_⟩
        rwa [hother l hkey]

theorem mem_findPortNumbersSetForPolicy (m : KeyMap PortNumber (Option Power)) (k : PortNumber) :
    k ∈ findPortNumbersSetForPolicy m ↔ (1 ≤ k ∧ k ≤ maxPortNumber) ∧ (m.find k).isSome = true := by
  rw [findPortNumbersSetForPolicy, List.mem_filter, List.mem_range'_1]
  refine and_congr_left fun _ => and_congr_right fun _ => ?_
  rw [Nat.add_comm]
  exact Nat.lt_succ_iff

theorem nodup_findPortNumbersSetForPolicy (m : KeyMap PortNumber (Option Power)) :
    (findPortNumbersSetForPolicy m).Nodup :=
  List.Pairwise.filter _ List.nodup_range'

/-- **A removal reports what it changed**: the ports, and that there are some. -/
theorem reports_remove (s : ArbitratorPlatformPowerControl) (p : PolicyIndex) :
    (∀ k, s.getArbitratedValue k ≠
      (s.removeRequestAndGetAffectedPortNumbers p).2.getArbitratedValue k →
        k ∈ (s.removeRequestAndGetAffectedPortNumbers p).1) ∧
    ((s.removeRequestAndGetAffectedPortNumbers p).2.arbitratedValueChanged = true ↔
      ∃ k, s.getArbitratedValue k ≠
        (s.removeRequestAndGetAffectedPortNumbers p).2.getArbitratedValue k) := by
  unfold removeRequestAndGetAffectedPortNumbers
  dsimp only
  cases s.requestedPowerLimits.find p with
  | none => exact ⟨fun k hk => absurd rfl hk, by simp [getArbitratedValue]⟩
  | some policyRequests =>
    dsimp only
    constructor
    · intro k hk
      by_contra hmem
      rw [getArbitratedValue_foldl_removeAt p hmem] at hk
      exact hk rfl
    · rw [changed_foldl_removeAt p (nodup_findPortNumbersSetForPolicy policyRequests)]
      exact or_iff_right (by simp)

/-- **A removal takes the requests back** just if all of them are for the ports 1 to 8. -/
theorem Holds.remove_iff (h : Holds live s) (p : PolicyIndex) :
    Holds (fun q l => if q = p then none else live q l)
      (s.removeRequestAndGetAffectedPortNumbers p).2 ↔
      ∀ k, live p k ≠ none → 1 ≤ k ∧ k ≤ maxPortNumber := by
  unfold removeRequestAndGetAffectedPortNumbers
  dsimp only
  cases hfind : s.requestedPowerLimits.find p with
  | none =>
    have hnone : ∀ k, live p k = none := by
      intro k
      rw [← h.requests, validRequest, hfind]
      rfl
    have hsame : (fun q l => if q = p then none else live q l) = live := by
      funext q l
      split
      · rename_i hq
        rw [hq, hnone]
      · rfl
    rw [hsame]
    exact iff_of_true (h.congr rfl fun _ => rfl) fun k hk => absurd (hnone k) hk
  | some policyRequests =>
    have hlive : ∀ k, live p k = (policyRequests.find k).getD none := by
      intro k
      rw [← h.requests, validRequest, hfind]
      rfl
    have hset : ∀ k, live p k ≠ none → (policyRequests.find k).isSome = true := by
      intro k hk
      by_contra hnone
      rw [hlive, Option.not_isSome_iff_eq_none.1 hnone] at hk
      exact hk rfl
    have hcleared : Holds live { s with arbitratedValueChanged := false } :=
      h.congr rfl fun _ => rfl
    have hloop := hcleared.foldl_removeAt p (findPortNumbersSetForPolicy policyRequests)
    constructor
    · intro hafter k hk
      by_contra hrange
      have hkept := hloop.requests p k
      rw [hafter.requests, if_pos rfl, LiveRequests.clear, if_neg] at hkept
      · exact hk hkept.symm
      · rintro ⟨-, hmem⟩
        exact hrange ((mem_findPortNumbersSetForPolicy policyRequests k).1 hmem).1
    · intro hrange
      have hboth : LiveRequests.clear live p (findPortNumbersSetForPolicy policyRequests) =
          fun q l => if q = p then none else live q l := by
        funext q l
        rw [LiveRequests.clear]
        by_cases hq : q = p
        · subst hq
          rw [if_pos rfl]
          by_cases hl : live q l = none
          · rw [hl, ite_self]
          · have hmem := (mem_findPortNumbersSetForPolicy policyRequests l).2
              ⟨hrange l hl, hset l hl⟩
            rw [if_pos ⟨rfl, hmem⟩]
        · rw [if_neg (fun hmem => hq hmem.1), if_neg hq]
      rw [hboth] at hloop
      exact hloop

end Steps

/-! ## A run -/

/-- A call that changes the arbitrator. -/
inductive PortCall
  | commit (policyIndex : PolicyIndex) (portNumber : PortNumber) (powerLimit : Option Power)
  | remove (policyIndex : PolicyIndex)

/-- What a call means for the requests. -/
def PortCall.live (live : LiveRequests PortNumber Power) :
    PortCall → LiveRequests PortNumber Power
  | .commit p k v => LiveRequests.set live p k v
  | .remove p => fun q l => if q = p then none else live q l

/-- An arbitrator beside the live requests. -/
structure PortState where
  arbitrator : ArbitratorPlatformPowerControl
  live : LiveRequests PortNumber Power

namespace PortState

/-- Before the first call. -/
def create : PortState := ⟨ArbitratorPlatformPowerControl.create, fun _ _ => none⟩

/-- A call. -/
def next (s : PortState) (call : PortCall) : PortState where
  arbitrator :=
    match call with
    | .commit p k v => s.arbitrator.commitPolicyRequest p k v
    | .remove p => (s.arbitrator.removeRequestAndGetAffectedPortNumbers p).2
  live := call.live s.live

/-- **The lowest live request is kept**, and what `arbitrate` says comes true. -/
structure Lowest (s : PortState) : Prop where
  least : ∀ k, IsTightest (· ≤ ·) (Requested fun p => s.live p k) (s.arbitrator.getArbitratedValue k)
  arbitrate : ∀ p k v, s.arbitrator.arbitrate p k v =
    (s.arbitrator.commitPolicyRequest p k v).getArbitratedValue k

/-- **A call reports what it changes.** -/
structure Reports (s : PortState) (call : PortCall) : Prop where
  affected : ∀ p, call = .remove p → ∀ k,
    s.arbitrator.getArbitratedValue k ≠ (s.next call).arbitrator.getArbitratedValue k →
      k ∈ (s.arbitrator.removeRequestAndGetAffectedPortNumbers p).1
  changed : (s.next call).arbitrator.arbitratedValueChanged = true ↔
    ∃ k, s.arbitrator.getArbitratedValue k ≠ (s.next call).arbitrator.getArbitratedValue k

/-- A call for which both come out. -/
def Keeps (s : PortState) : PortCall → Prop
  | .commit _ k v => v ≠ none ∨ ∃ q, s.live q k ≠ none
  | .remove p => ∀ k, s.live p k ≠ none → 1 ≤ k ∧ k ≤ maxPortNumber

theorem lowest_of_holds {s : PortState} (h : Holds s.live s.arbitrator) : Lowest s where
  least := h.isTightest
  arbitrate p k v := by
    rw [getArbitratedValue_commitPolicyRequest, getArbitratedValue_rearbitrate, if_pos rfl]

/-- One call. -/
theorem holds_next {s : PortState} (h : Holds s.live s.arbitrator) {call : PortCall}
    (hkeeps : s.Keeps call) : Holds (s.next call).live (s.next call).arbitrator := by
  cases call with
  | commit p k v => exact h.commitPolicyRequest p k v
  | remove p => exact (h.remove_iff p).2 hkeeps

theorem reports_of_holds {s : PortState} (h : Holds s.live s.arbitrator) {call : PortCall}
    (hkeeps : s.Keeps call) : s.Reports call := by
  cases call with
  | commit p k v =>
    refine ⟨?_, (h.changed_commitPolicyRequest p k v).2 hkeeps⟩
    intro q hq
    cases hq
  | remove p =>
    obtain ⟨haffected, hchanged⟩ := reports_remove s.arbitrator p
    refine ⟨?_, hchanged⟩
    rintro q hq k hk
    cases hq
    exact haffected k hk

/-- **Platform power ports keep the lowest live request** in every run of such calls. -/
theorem everyStep_lowest_reports {calls : List PortCall}
    (hkeeps : EveryStep (fun s call => some (next s call)) Keeps create calls) :
    create.Lowest ∧
      EveryStep (fun s call => some (next s call))
        (fun s call => (s.next call).Lowest ∧ s.Reports call) create calls := by
  have hstep : ∀ (s : PortState) (call : PortCall) (s' : PortState), s.Keeps call →
      some (s.next call) = some s' → Holds s.live s.arbitrator →
        Holds s'.live s'.arbitrator := by
    rintro s call s' hcall hst h
    obtain rfl := Option.some.inj hst
    exact holds_next h hcall
  refine ⟨lowest_of_holds holds_create, hkeeps.imp_of_invariant hstep ?_ holds_create⟩
  intro s call hcall h
  exact ⟨lowest_of_holds (holds_next h hcall), reports_of_holds h hcall⟩

/-- A request that is made and taken back. -/
theorem lowest_reports_onePort :
    create.Lowest ∧
      EveryStep (fun s call => some (next s call))
        (fun s call => (s.next call).Lowest ∧ s.Reports call) create
        [.commit 0 1 (some ⟨5000, by decide⟩), .remove 0] := by
  refine everyStep_lowest_reports ⟨Or.inl (by simp), ?_⟩
  rintro s hs
  obtain rfl := Option.some.inj hs
  refine ⟨?_, fun _ _ => trivial⟩
  intro k hk
  by_cases hport : k = 1
  · subst hport
    decide
  · exact absurd (if_neg fun h => hport h.2) hk

/-- **A request is made invalid** where there is none, and a change is reported; **a policy is
removed** that has a request for port 9, and the request stays. -/
theorem invalid_or_ninePorts :
    ¬EveryStep (fun s call => some (next s call))
        (fun s call => (s.next call).Lowest ∧ s.Reports call) create [.commit 0 1 none] ∧
      ¬EveryStep (fun s call => some (next s call))
        (fun s call => (s.next call).Lowest ∧ s.Reports call) create
        [.commit 0 9 (some ⟨5000, by decide⟩), .remove 0] := by
  constructor
  · rintro ⟨⟨-, hreports⟩, -⟩
    have h := (holds_create.changed_commitPolicyRequest 0 1 none).1 hreports.changed
    simp at h
  · rintro ⟨-, hrest⟩
    obtain ⟨⟨hlowest, -⟩, -⟩ := hrest _ rfl
    have hleast := hlowest.least 9
    have hvalue : (((create.next (.commit 0 9 (some ⟨5000, by decide⟩))).next
        (.remove 0)).arbitrator.getArbitratedValue 9) = some ⟨5000, by decide⟩ := rfl
    rw [hvalue] at hleast
    obtain ⟨p, hp⟩ := hleast.1
    have hnone : ((create.next (.commit 0 9 (some ⟨5000, by decide⟩))).next
        (.remove 0)).live p 9 = none := by
      show (if p = 0 then none else if p = 0 ∧ 9 = 9 then _ else none) = none
      by_cases hzero : p = 0
      · rw [if_pos hzero]
      · rw [if_neg hzero, if_neg fun h => hzero h.1]
    exact absurd (hnone.symm.trans hp) (by simp)

end PortState

end Participant

import Dptf.Lib.Tightest
import Dptf.Passive.DomainProxy

/-!
# What is committed

Targets limit and unlimit the knobs and their requests are adjusted and cleared, while the
capabilities change and limits are committed.

* `not_limitsCommitted` — a limit on the cores stays when the requests are cleared.
* `CoresCommittable`, `limitsCommitted_iff` — **exactly when** a `commitLimits` that succeeds sets
  them, after every history.
-/

open Lib
open Mgr (Power)

namespace Passive

variable {V : Type}

/-! ## Histories -/

/-- A knob of the proxy. -/
inductive Knob
  | power
  | performance (controlType : PerformanceControlType)
  | core

namespace PassiveRequests

/-- `limit` of a knob; an exception leaves the requests. -/
def limit (c : PassiveCapabilities) (r : PassiveRequests) (target : Nat) : Knob → PassiveRequests
  | .power => (r.limitPower c target).getD r
  | .performance controlType => r.limitPerformance c controlType target
  | .core => (r.limitCore c target).getD r

/-- `unlimit` of a knob; an exception leaves the requests. -/
def unlimit (c : PassiveCapabilities) (r : PassiveRequests) (target : Nat) : Knob → PassiveRequests
  | .power => (r.unlimitPower c target).getD r
  | .performance controlType => r.unlimitPerformance c controlType target
  | .core => (r.unlimitCore c target).getD r

/-- `adjustRequestsToCapabilities` of a knob. -/
def adjust (c : PassiveCapabilities) (r : PassiveRequests) : Knob → PassiveRequests
  | .power => r.adjustPowerRequests c
  | .performance _ =>
    { r with
      performance :=
        PerformanceControlKnob.adjustRequestsToCapabilities c.performance r.performance }
  | .core => r.adjustCoreRequests c

/-- `clearRequestForTarget` of a knob. -/
def clear (r : PassiveRequests) (target : Nat) : Knob → PassiveRequests
  | .power => { r with power := r.power.erase target }
  | .performance _ => { r with performance := r.performance.erase target }
  | .core => { r with core := r.core.erase target }

end PassiveRequests

/-- An operation on the knobs of a proxy, a change of its capabilities, or a commit. -/
inductive CommitOp
  | limit (knob : Knob) (target : Nat)
  | unlimit (knob : Knob) (target : Nat)
  | adjustRequestsToCapabilities (knob : Knob)
  | clearRequestForTarget (knob : Knob) (target : Nat)
  | setCapabilities (capabilities : PassiveCapabilities)
  | commitLimits (answers : CommitAnswers)

/-- A proxy with its requests, and its domain. -/
structure PassiveProxy where
  capabilities : PassiveCapabilities
  requests : PassiveRequests
  domain : PassiveDomain

namespace PassiveProxy

/-- A new proxy: nothing was issued on the performance control or set on the cores. -/
def make (capabilities : PassiveCapabilities) (powerLimit : Power) : PassiveProxy where
  capabilities := capabilities
  requests := PassiveRequests.empty
  domain := ⟨powerLimit, 2 ^ 32 - 1, 0, false⟩

/-- What a commit does, and whether there was no exception. -/
def commitLimits (s : PassiveProxy) (answers : CommitAnswers) : PassiveProxy × Bool :=
  let r := s.domain.commitLimits s.capabilities s.requests answers
  ({ s with domain := r.1 }, r.2)

/-- What an operation does. -/
def step (s : PassiveProxy) : CommitOp → PassiveProxy
  | .limit knob target => { s with requests := s.requests.limit s.capabilities target knob }
  | .unlimit knob target => { s with requests := s.requests.unlimit s.capabilities target knob }
  | .adjustRequestsToCapabilities knob =>
    { s with requests := s.requests.adjust s.capabilities knob }
  | .clearRequestForTarget knob target => { s with requests := s.requests.clear target knob }
  | .setCapabilities capabilities => { s with capabilities := capabilities }
  | .commitLimits answers => (s.commitLimits answers).1

/-- What a history leads to. -/
def run (capabilities : PassiveCapabilities) (powerLimit : Power) (ops : List CommitOp) :
    PassiveProxy :=
  ops.foldl step (make capabilities powerLimit)

end PassiveProxy

/-! ## The limits -/

/-- The most limiting request brought into the range, or the least limited value of the range when
nothing is requested. -/
def IsLimit {V : Type} [LinearOrder V] (tighter : V → V → Prop) (requests : Nat → Option V)
    (least lower upper value : V) : Prop :=
  ∃ t, IsTightest tighter (Requested requests) t ∧
    value = t.elim least fun v => max lower (min v upper)

/-- The most limiting requests are set on the domain. -/
structure LimitsCommitted (s : PassiveProxy) : Prop where
  power : s.capabilities.power.supportsPowerControls = true →
    IsLimit (· ≤ ·) s.requests.power.find s.capabilities.power.maxPowerLimit
      s.capabilities.power.minPowerLimit s.capabilities.power.maxPowerLimit s.domain.powerLimit
  performance : s.capabilities.performance.supportsPerformanceControls = true →
    IsLimit (· ≥ ·) s.requests.performance.find s.capabilities.performance.currentUpperLimitIndex
      s.capabilities.performance.currentUpperLimitIndex
      s.capabilities.performance.currentLowerLimitIndex s.domain.performanceIndex
  cores : s.capabilities.core.supportsCoreControls = true →
    IsLimit (· ≤ ·) s.requests.core.find s.capabilities.core.maxActiveCores
      s.capabilities.core.minActiveCores s.capabilities.core.maxActiveCores s.domain.activeCores

/-- A domain with 8 cores, of which half are switched at a time, and nothing else to control. -/
def eightCores : PassiveCapabilities where
  power :=
    { supportsPowerControls := false
      minPowerLimit := ⟨0, Mgr.Power.valid_zero⟩
      maxPowerLimit := ⟨0, Mgr.Power.valid_zero⟩
      powerStepSize := none
      averagePower := none
      ordered := le_refl _ }
  performance :=
    { supportsPerformanceControls := false
      controls := []
      currentUpperLimitIndex := 0
      currentLowerLimitIndex := 0
      utilization := none
      tstateUtilizationThreshold := (0 : Rat)
      ordered := le_refl _ }
  core :=
    { implementsCoreControlInterface := true
      isLpoEnabled := true
      startPState := 0
      stepSize := some (1 / 2 : Rat)
      totalLogicalProcessors := 8
      minActiveCores := 1
      maxActiveCores := 8
      ordered := by decide
      countable := by decide }

/-- All calls come back. -/
def allAnswers : CommitAnswers := ⟨true, true, true, true, true, true⟩

/-- A target limits the cores, which is committed, and its request is cleared. -/
def limitedThenCleared : List CommitOp :=
  [.limit .core 0, .commitLimits allAnswers, .clearRequestForTarget .core 0]

/-- **The limit on the cores stays** when the request for it was cleared. -/
theorem not_limitsCommitted :
    ¬ ∀ (capabilities : PassiveCapabilities) (powerLimit : Power) (ops : List CommitOp)
        (answers : CommitAnswers),
      ((PassiveProxy.run capabilities powerLimit ops).commitLimits answers).2 = true →
        LimitsCommitted ((PassiveProxy.run capabilities powerLimit ops).commitLimits answers).1 := by
  intro h
  have hsucceeds : ((PassiveProxy.run eightCores ⟨0, by decide⟩ limitedThenCleared).commitLimits
      allAnswers).2 = true := by decide +kernel
  obtain ⟨t, ht, hcores⟩ := (h eightCores ⟨0, by decide⟩ limitedThenCleared allAnswers
    hsucceeds).cores rfl
  have hnone : (PassiveProxy.run eightCores ⟨0, by decide⟩
      limitedThenCleared).requests.core.entries = [] := by decide +kernel
  have hfour : ((PassiveProxy.run eightCores ⟨0, by decide⟩ limitedThenCleared).commitLimits
      allAnswers).1.domain.activeCores = 4 := by decide +kernel
  cases t with
  | none => exact absurd (hfour.symm.trans hcores) (by decide)
  | some n =>
    obtain ⟨target, htarget⟩ := ht.1
    have hfind : (PassiveProxy.run eightCores ⟨0, by decide⟩
        limitedThenCleared).requests.core.find target = none := by
      rw [KeyMap.find, hnone, List.lookup_nil]
    cases hfind.symm.trans htarget

/-! ## What the knobs find -/

/-- A value that is first kept from above and then from below. -/
theorem clamp_upper_lower [LinearOrder V] {lower upper : V} (h : lower ≤ upper) (v : V) :
    (if (if v > upper then upper else v) < lower then lower
      else if v > upper then upper else v) = max lower (min v upper) := by
  by_cases hv : v > upper
  · rw [if_pos hv, if_neg (not_lt.2 h), min_eq_right hv.le, max_eq_right h]
  · rw [if_neg hv, min_eq_left (not_lt.1 hv)]
    by_cases hl : v < lower
    · rw [if_pos hl, max_eq_left hl.le]
    · rw [if_neg hl, max_eq_right (not_lt.1 hl)]

/-- The same in the other order. -/
theorem clamp_lower_upper [LinearOrder V] {lower upper : V} (h : lower ≤ upper) (v : V) :
    (if (if v < lower then lower else v) > upper then upper
      else if v < lower then lower else v) = max lower (min v upper) := by
  by_cases hv : v < lower
  · rw [if_pos hv, if_neg (not_lt.2 h), min_eq_left (hv.le.trans h), max_eq_left hv.le]
  · rw [if_neg hv]
    by_cases hu : v > upper
    · rw [if_pos hu, min_eq_right hu.le, max_eq_right h]
    · rw [if_neg hu, min_eq_left (not_lt.1 hu), max_eq_right (not_lt.1 hv)]

/-- The tightest request, for an operation that picks the tighter one of two. -/
def tightestRequest {V : Type} (pick : V → V → V) (requests : KeyMap Nat V) : Option V :=
  (requests.values.map some).foldl (Option.merge pick) none

theorem isTightest_tightestRequest {tighter : V → V → Prop} {pick : V → V → V}
    (hpick : Picks tighter pick) (requests : KeyMap Nat V) :
    IsTightest tighter (Requested requests.find) (tightestRequest pick requests) := by
  have h := isTightest_foldl_values hpick requests some
  have hbind : (fun k => (requests.find k).bind some) = requests.find := by
    funext k
    cases requests.find k <;> rfl
  rwa [hbind] at h

theorem tightestRequest_of_isEmpty (pick : V → V → V) {requests : KeyMap Nat V}
    (h : requests.isEmpty = true) : tightestRequest pick requests = none := by
  rw [tightestRequest, KeyMap.values, List.isEmpty_iff.1 h]
  rfl

theorem tightestRequest_of_not_isEmpty (pick : V → V → V) {requests : KeyMap Nat V}
    (h : ¬ requests.isEmpty = true) : ∃ v, tightestRequest pick requests = some v := by
  cases hentries : requests.entries with
  | nil => exact absurd (List.isEmpty_iff.2 hentries) h
  | cons e es =>
    refine ⟨(es.map Prod.snd).foldl pick e.2, ?_⟩
    rw [tightestRequest, KeyMap.values, hentries]
    exact foldl_merge_some pick e.2 (es.map Prod.snd)

theorem findLowestPowerLimitRequest_eq (c : PowerControl) (requests : KeyMap Nat Power) :
    PowerControlKnob.findLowestPowerLimitRequest c requests =
      (tightestRequest min requests).getD c.maxPowerLimit := by
  have hkeep : PowerControlKnob.keepLowest = fun lowest request =>
      Option.merge min lowest (some request) := by
    funext lowest request
    cases lowest with
    | none => rfl
    | some lowest =>
      rw [PowerControlKnob.keepLowest, Option.merge_some_some]
      split_ifs with hlt
      · rw [min_eq_right hlt.le]
      · rw [min_eq_left (not_lt.1 hlt)]
  rw [PowerControlKnob.findLowestPowerLimitRequest, hkeep, tightestRequest, List.foldl_map]

theorem findHighestPerformanceIndexRequest_eq (c : PerformanceControl) (requests : KeyMap Nat Nat) :
    PerformanceControlKnob.findHighestPerformanceIndexRequest c requests =
      (tightestRequest max requests).getD c.currentUpperLimitIndex := by
  have hkeep : (fun highestIndex request : Nat =>
      if request > highestIndex then request else highestIndex) = max := by
    funext highestIndex request
    split_ifs with hlt
    · rw [max_eq_right (le_of_lt hlt)]
    · rw [max_eq_left (not_lt.1 hlt)]
  rw [PerformanceControlKnob.findHighestPerformanceIndexRequest, hkeep]
  split_ifs with hempty
  · rw [tightestRequest_of_isEmpty max hempty, Option.getD_none]
  · obtain ⟨v, hv⟩ := tightestRequest_of_not_isEmpty max hempty
    rw [foldl_eq_elim]
    show (tightestRequest max requests).elim 0 (max 0) = _
    rw [hv, Option.elim_some, Option.getD_some, Nat.zero_max]

theorem findLowestActiveCoresRequest_eq (requests : KeyMap Nat Nat) (status : Nat) :
    CoreControlKnob.findLowestActiveCoresRequest requests status =
      (tightestRequest min requests).elim status (min (2 ^ 32 - 1)) := by
  have hkeep : (fun lowestActiveCores request : Nat =>
      if request < lowestActiveCores then request else lowestActiveCores) = min := by
    funext lowestActiveCores request
    split_ifs with hlt
    · rw [min_eq_right hlt.le]
    · rw [min_eq_left (not_lt.1 hlt)]
  rw [CoreControlKnob.findLowestActiveCoresRequest, hkeep]
  split_ifs with hempty
  · rw [tightestRequest_of_isEmpty min hempty, Option.elim_none]
  · obtain ⟨v, hv⟩ := tightestRequest_of_not_isEmpty min hempty
    rw [foldl_eq_elim]
    show (tightestRequest min requests).elim _ _ = _
    rw [hv, Option.elim_some, Option.elim_some]

/-! ## What a commit sets -/

/-- There is only one limit. -/
theorem IsLimit.unique [LinearOrder V] {tighter : V → V → Prop}
    (hanti : ∀ a b, tighter a b → tighter b a → a = b) {requests : Nat → Option V}
    {least lower upper value value' : V} (h : IsLimit tighter requests least lower upper value)
    (h' : IsLimit tighter requests least lower upper value') : value = value' := by
  obtain ⟨t, ht, rfl⟩ := h
  obtain ⟨t', ht', rfl⟩ := h'
  rw [ht.unique hanti ht']

/-- What the power knob commits. -/
theorem isLimit_power (c : PowerControl) (requests : KeyMap Nat Power) :
    IsLimit (· ≤ ·) requests.find c.maxPowerLimit c.minPowerLimit c.maxPowerLimit
      (PowerControlKnob.snapToCapabilitiesBounds c
        (PowerControlKnob.findLowestPowerLimitRequest c requests)) := by
  refine ⟨tightestRequest min requests, isTightest_tightestRequest picks_min requests, ?_⟩
  have hsnap : ∀ v, PowerControlKnob.snapToCapabilitiesBounds c v =
      max c.minPowerLimit (min v c.maxPowerLimit) := clamp_upper_lower c.ordered
  rw [hsnap, findLowestPowerLimitRequest_eq]
  cases tightestRequest min requests with
  | none => rw [Option.getD_none, Option.elim_none, min_self, max_eq_right c.ordered]
  | some v => rfl

/-- What the performance knobs commit. -/
theorem isLimit_performance (c : PerformanceControl) (requests : KeyMap Nat Nat) :
    IsLimit (· ≥ ·) requests.find c.currentUpperLimitIndex c.currentUpperLimitIndex
      c.currentLowerLimitIndex
      (PerformanceControlKnob.snapToCapabilitiesBounds c
        (PerformanceControlKnob.findHighestPerformanceIndexRequest c requests)) := by
  refine ⟨tightestRequest max requests, isTightest_tightestRequest picks_max requests, ?_⟩
  have hsnap : ∀ v, PerformanceControlKnob.snapToCapabilitiesBounds c v =
      max c.currentUpperLimitIndex (min v c.currentLowerLimitIndex) := clamp_upper_lower c.ordered
  rw [hsnap, findHighestPerformanceIndexRequest_eq]
  cases tightestRequest max requests with
  | none => rw [Option.getD_none, Option.elim_none, min_eq_left c.ordered, max_self]
  | some v => rfl

/-- What the core knob commits is the limit, unless no target has a request. -/
theorem isLimit_core_iff (c : CoreControl) (requests : KeyMap Nat Nat) (status : Nat) :
    IsLimit (· ≤ ·) requests.find c.maxActiveCores c.minActiveCores c.maxActiveCores
        (CoreControlKnob.snapToCapabilitiesBounds c
          (CoreControlKnob.findLowestActiveCoresRequest requests status)) ↔
      (∃ target, (requests.find target).isSome) ∨ c.maxActiveCores ≤ status ∨
        c.maxActiveCores ≤ c.minActiveCores := by
  have hsnap : ∀ v, CoreControlKnob.snapToCapabilitiesBounds c v =
      max c.minActiveCores (min v c.maxActiveCores) := clamp_lower_upper c.ordered
  have htightest := isTightest_tightestRequest picks_min requests
  rw [hsnap, findLowestActiveCoresRequest_eq]
  cases ht : tightestRequest min requests with
  | none =>
    -- nothing is requested, and what is set last is committed again
    rw [ht] at htightest
    have hrequests : ¬ ∃ target, (requests.find target).isSome := by
      rintro ⟨target, htarget⟩
      obtain ⟨v, hv⟩ := Option.isSome_iff_exists.1 htarget
      exact htightest v ⟨target, hv⟩
    rw [Option.elim_none, or_iff_right hrequests]
    constructor
    · intro h
      have hmax := h.unique (fun _ _ => le_antisymm) ⟨none, htightest, rfl⟩
      rw [Option.elim_none] at hmax
      omega
    · intro h
      refine ⟨none, htightest, ?_⟩
      rw [Option.elim_none]
      have hordered := c.ordered
      omega
  | some v =>
    rw [ht] at htightest
    obtain ⟨target, htarget⟩ := htightest.1
    refine iff_of_true ⟨some v, htightest, ?_⟩ (Or.inl ⟨target, by rw [htarget]; rfl⟩)
    have hcountable := c.countable
    have hordered := c.ordered
    rw [Option.elim_some, Option.elim_some]
    omega

namespace PassiveDomain

variable {d : PassiveDomain} {answers : CommitAnswers}

theorem commitPower_of_succeeds {c : PowerControl} {requests : KeyMap Nat Power}
    (h : (d.commitPower c requests answers).2 = true) :
    (d.commitPower c requests answers).1 = { d with
      powerLimit :=
        if c.supportsPowerControls then
          PowerControlKnob.snapToCapabilitiesBounds c
            (PowerControlKnob.findLowestPowerLimitRequest c requests)
        else d.powerLimit } := by
  unfold commitPower at h ⊢
  by_cases hsupports : c.supportsPowerControls = true
  · rw [if_pos hsupports] at h ⊢
    simp only at h ⊢
    split_ifs at h ⊢ with hget hne hset
    · rfl
    · rw [← not_not.1 hne]
  · rw [if_neg hsupports, if_neg hsupports]

theorem commitPerformance_of_succeeds {c : PerformanceControl} {requests : KeyMap Nat Nat}
    {setControl : Bool} (h : (d.commitPerformance c requests setControl).2 = true) :
    (d.commitPerformance c requests setControl).1 = { d with
      performanceIndex :=
        if c.supportsPerformanceControls then
          PerformanceControlKnob.snapToCapabilitiesBounds c
            (PerformanceControlKnob.findHighestPerformanceIndexRequest c requests)
        else d.performanceIndex } := by
  unfold commitPerformance at h ⊢
  by_cases hsupports : c.supportsPerformanceControls = true
  · rw [if_pos hsupports] at h ⊢
    simp only at h ⊢
    split_ifs at h ⊢ with hne hset
    · rfl
    · rw [← not_not.1 hne]
  · rw [if_neg hsupports, if_neg hsupports]

/-- The number of active cores that the facade starts from. -/
def startCores (d : PassiveDomain) (c : CoreControl) : Nat :=
  if d.coresInitialized = false then c.maxActiveCores
  else max c.minActiveCores (min d.activeCores c.maxActiveCores)

theorem initializeCoresIfNeeded_of_succeeds {c : CoreControl} {setCores : Bool}
    (h : (d.initializeCoresIfNeeded c setCores).2 = true) :
    (d.initializeCoresIfNeeded c setCores).1 =
      { d with activeCores := d.startCores c, coresInitialized := true } := by
  have hordered := c.ordered
  unfold initializeCoresIfNeeded at h ⊢
  unfold startCores
  split_ifs at h ⊢ with hinit hset hmax hset hmin hset
  · rfl
  · rw [min_eq_right hmax.le, max_eq_right hordered, eq_true_of_ne_false hinit]
  · rw [min_eq_left (not_lt.1 hmax), max_eq_left hmin.le, eq_true_of_ne_false hinit]
  · rw [min_eq_left (not_lt.1 hmax), max_eq_right (not_lt.1 hmin), ← eq_true_of_ne_false hinit]

theorem commitCores_of_succeeds {c : CoreControl} {requests : KeyMap Nat Nat}
    (h : (d.commitCores c requests answers).2 = true) : (d.commitCores c requests answers).1 =
      if c.supportsCoreControls then
        { d with
          activeCores :=
            CoreControlKnob.snapToCapabilitiesBounds c
              (CoreControlKnob.findLowestActiveCoresRequest requests (d.startCores c))
          coresInitialized := true }
      else d := by
  unfold commitCores at h ⊢
  by_cases hsupports : c.supportsCoreControls = true
  · have hlpo : c.isLpoEnabled = true := (Bool.and_eq_true_iff.1 hsupports).2
    rw [if_pos ⟨hsupports, hlpo⟩] at h ⊢
    rw [if_pos hsupports]
    simp only at h ⊢
    split_ifs at h ⊢ with hstatus hne hset
    · rw [initializeCoresIfNeeded_of_succeeds hstatus]
    · rw [initializeCoresIfNeeded_of_succeeds hstatus] at hne ⊢
      rw [← not_not.1 hne]
  · rw [if_neg fun hboth => hsupports hboth.1, if_neg hsupports]

/-- What a commit that succeeds leaves on the domain. -/
theorem commitLimits_of_succeeds {c : PassiveCapabilities} {r : PassiveRequests}
    (h : (d.commitLimits c r answers).2 = true) : (c.power.supportsPowerControls = true →
      (d.commitLimits c r answers).1.powerLimit = PowerControlKnob.snapToCapabilitiesBounds c.power
          (PowerControlKnob.findLowestPowerLimitRequest c.power r.power)) ∧
    (c.performance.supportsPerformanceControls = true →
      (d.commitLimits c r answers).1.performanceIndex =
        PerformanceControlKnob.snapToCapabilitiesBounds c.performance
          (PerformanceControlKnob.findHighestPerformanceIndexRequest c.performance
            r.performance)) ∧
    (c.core.supportsCoreControls = true → (d.commitLimits c r answers).1.activeCores =
        CoreControlKnob.snapToCapabilitiesBounds c.core
          (CoreControlKnob.findLowestActiveCoresRequest r.core (d.startCores c.core))) := by
  unfold commitLimits at h ⊢
  simp only at h ⊢
  split_ifs at h ⊢ with hpower hpstate hcore
  -- each knob is set last by its own commit
  · refine ⟨fun hsupports => ?_, fun hsupports => ?_, fun hsupports => ?_⟩
    · rw [commitPerformance_of_succeeds h, commitCores_of_succeeds hcore,
        commitPerformance_of_succeeds hpstate, commitPower_of_succeeds hpower]
      split_ifs <;> rfl
    · rw [commitPerformance_of_succeeds h, if_pos hsupports]
    · rw [commitPerformance_of_succeeds h, commitCores_of_succeeds hcore, if_pos hsupports,
        commitPerformance_of_succeeds hpstate, commitPower_of_succeeds hpower]
      rfl
  · exact absurd h hcore
  · exact absurd h hpstate
  · exact absurd h hpower

end PassiveDomain

/-! ## When they are committed -/

/-- Some target has a request for the cores, or nothing is to be lifted: the control is not
supported or not initialized, the cores are not limited, or there is only one number of them. -/
def CoresCommittable (s : PassiveProxy) : Prop :=
  s.capabilities.core.supportsCoreControls = true →
    (∃ target, (s.requests.core.find target).isSome) ∨ s.domain.coresInitialized = false ∨
      s.capabilities.core.maxActiveCores ≤ s.domain.activeCores ∨
      s.capabilities.core.maxActiveCores ≤ s.capabilities.core.minActiveCores

namespace PassiveProxy

/-- After a commit that succeeds. -/
theorem limitsCommitted_step_iff {s : PassiveProxy} {answers : CommitAnswers}
    (h : (s.commitLimits answers).2 = true) :
    LimitsCommitted (s.commitLimits answers).1 ↔ CoresCommittable s := by
  obtain ⟨hpower, hperformance, hcores⟩ := PassiveDomain.commitLimits_of_succeeds h
  have hcore_iff : IsLimit (· ≤ ·) s.requests.core.find s.capabilities.core.maxActiveCores
        s.capabilities.core.minActiveCores s.capabilities.core.maxActiveCores
        (CoreControlKnob.snapToCapabilitiesBounds s.capabilities.core
          (CoreControlKnob.findLowestActiveCoresRequest s.requests.core
            (s.domain.startCores s.capabilities.core))) ↔
      (∃ target, (s.requests.core.find target).isSome) ∨ s.domain.coresInitialized = false ∨
        s.capabilities.core.maxActiveCores ≤ s.domain.activeCores ∨
        s.capabilities.core.maxActiveCores ≤ s.capabilities.core.minActiveCores := by
    rw [isLimit_core_iff, PassiveDomain.startCores]
    split_ifs with hinit
    · simp [hinit]
    · refine or_congr_right ?_
      rw [or_iff_right hinit]
      omega
  constructor
  · intro hcommitted hsupports
    have hlimit := hcommitted.cores hsupports
    change IsLimit _ _ _ _ _ (s.domain.commitLimits s.capabilities s.requests answers).1.activeCores
      at hlimit
    rw [hcores hsupports] at hlimit
    exact hcore_iff.1 hlimit
  · intro hcommittable
    refine ⟨fun hsupports => ?_, fun hsupports => ?_, fun hsupports => ?_⟩
    · exact (hpower hsupports).symm ▸ isLimit_power s.capabilities.power s.requests.power
    · exact (hperformance hsupports).symm ▸
        isLimit_performance s.capabilities.performance s.requests.performance
    · exact (hcores hsupports).symm ▸ hcore_iff.2 (hcommittable hsupports)

end PassiveProxy

/-- **After every history**, a commit that succeeds sets the most limiting requests exactly when
there is a request for the cores or no limit on them to lift. -/
theorem limitsCommitted_iff (capabilities : PassiveCapabilities) (powerLimit : Power)
    (ops : List CommitOp) (answers : CommitAnswers)
    (h : ((PassiveProxy.run capabilities powerLimit ops).commitLimits answers).2 = true) :
    LimitsCommitted ((PassiveProxy.run capabilities powerLimit ops).commitLimits answers).1 ↔
      CoresCommittable (PassiveProxy.run capabilities powerLimit ops) :=
  PassiveProxy.limitsCommitted_step_iff h

/-- Four cores are set while a target requests them. -/
theorem limitsCommitted_iff_whileRequested :
    LimitsCommitted ((PassiveProxy.run eightCores ⟨0, by decide⟩
      [.limit .core 0, .limit .core 1, .clearRequestForTarget .core 1]).commitLimits
        allAnswers).1 ∧
    ((PassiveProxy.run eightCores ⟨0, by decide⟩
      [.limit .core 0, .limit .core 1, .clearRequestForTarget .core 1]).commitLimits
        allAnswers).1.domain.activeCores = 4 := by
  have hsucceeds : ((PassiveProxy.run eightCores ⟨0, by decide⟩
      [.limit .core 0, .limit .core 1, .clearRequestForTarget .core 1]).commitLimits
        allAnswers).2 = true := by decide +kernel
  refine ⟨(limitsCommitted_iff _ _ _ _ hsucceeds).2 ?_, by decide +kernel⟩
  intro _
  refine Or.inl ⟨0, ?_⟩
  decide +kernel

end Passive

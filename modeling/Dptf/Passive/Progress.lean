import Mathlib.Data.List.Induction
import Dptf.Passive.ProxySteps

/-!
# Limiting and unlimiting make progress

Targets limit and unlimit a proxy whose capabilities stay as they are, and their requests are
adjusted and cleared.

* `not_makesProgress` — a power step of 0 keeps the knobs after it from being tried.
* `StepsWork`, `makesProgress_iff` — **exactly when** they make progress, after every history.
-/

open Lib
open Mgr (Power Percentage)

namespace Passive

/-- Valid capabilities: the limits are inside the control set, which has its P-states first. -/
structure SteadyCapabilities extends PassiveCapabilities where
  inside : performance.supportsPerformanceControls = true →
    performance.currentLowerLimitIndex < performance.controls.length
  pstatesFirst : performance.supportsPerformanceControls = true →
    ∃ pstates tstates, performance.controls =
      List.replicate pstates .performanceState ++ List.replicate tstates .throttleState

/-- An operation on the requests of a proxy. -/
inductive PassiveOp
  | requestLimit (target : Nat)
  | requestUnlimit (target : Nat)
  | adjustPowerRequests
  | adjustPerformanceRequests
  | adjustCoreRequests
  | clearAllRequestsForTarget (target : Nat)

namespace PassiveRequests

/-- What an operation does. -/
def apply (c : PassiveCapabilities) (r : PassiveRequests) : PassiveOp → PassiveRequests
  | .requestLimit target => r.requestLimit c target
  | .requestUnlimit target => r.requestUnlimit c target
  | .adjustPowerRequests => r.adjustPowerRequests c
  | .adjustPerformanceRequests => r.adjustPerformanceRequests c
  | .adjustCoreRequests => r.adjustCoreRequests c
  | .clearAllRequestsForTarget target => r.clearAllRequestsForTarget target

/-- The requests that a history leads to. -/
def history (c : PassiveCapabilities) (ops : List PassiveOp) : PassiveRequests :=
  ops.foldl (apply c) empty

/-! ## Progress -/

variable (c : PassiveCapabilities) (r : PassiveRequests) (target : Nat)

/-- Some request of the target is limited. -/
def Limited : Prop :=
  r.powerRequest c target < c.power.maxPowerLimit ∨
    c.performance.currentUpperLimitIndex < r.performanceRequest c target ∨
    r.coreRequest c target < c.core.maxActiveCores

/-- A request of the target is more limited in `r'` than in `r`, and none is less limited. -/
structure MoreLimited (r r' : PassiveRequests) : Prop where
  power : r'.powerRequest c target ≤ r.powerRequest c target
  performance : r.performanceRequest c target ≤ r'.performanceRequest c target
  core : r'.coreRequest c target ≤ r.coreRequest c target
  changed : r'.powerRequest c target < r.powerRequest c target ∨
    r.performanceRequest c target < r'.performanceRequest c target ∨
    r'.coreRequest c target < r.coreRequest c target

/-- Limiting and unlimiting a target make progress. -/
structure MakesProgress : Prop where
  inRange : r.InRange c
  limits : r.canLimit c target = true → MoreLimited c target r (r.requestLimit c target)
  unlimits : r.canUnlimit c target = true → MoreLimited c target (r.requestUnlimit c target) r
  drains : ∃ n, ¬ ((fun r' => requestUnlimit c r' target)^[n] r).Limited c target

end PassiveRequests

/-- The limits where there are no cores. -/
theorem noCores_ordered : 0 ≤ 0 := Nat.le_refl 0

/-- A power limit between 5 W and 15 W with steps of nothing, and four P-states. -/
def zeroStep : SteadyCapabilities where
  power :=
    { supportsPowerControls := true
      minPowerLimit := ⟨5000, by decide⟩
      maxPowerLimit := ⟨15000, Mgr.Power.valid_fifteen⟩
      powerStepSize := some ⟨0, Mgr.Power.valid_zero⟩
      averagePower := some ⟨10000, by decide⟩
      ordered := (by decide : 5000 ≤ 15000) }
  performance :=
    { supportsPerformanceControls := true
      controls := List.replicate 4 .performanceState
      currentUpperLimitIndex := 0
      currentLowerLimitIndex := 3
      utilization := none
      tstateUtilizationThreshold := (0 : Rat)
      ordered := by decide }
  core :=
    { implementsCoreControlInterface := false
      isLpoEnabled := false
      startPState := 0
      stepSize := none
      totalLogicalProcessors := 0
      minActiveCores := 0
      maxActiveCores := 0
      ordered := noCores_ordered
      countable := by decide }
  inside _ := by decide
  pstatesFirst _ := ⟨4, 0, rfl⟩

/-- **The second limit changes nothing**, although the P-states could be limited. -/
theorem not_makesProgress :
    ¬ ∀ (c : SteadyCapabilities) (ops : List PassiveOp) (target : Nat),
      (PassiveRequests.history c.toPassiveCapabilities ops).MakesProgress
        c.toPassiveCapabilities target := by
  intro h
  have hchanged := ((h zeroStep [.requestLimit 0] 0).limits (by decide +kernel)).changed
  exact absurd hchanged (by decide +kernel)

namespace PassiveRequests

/-! ## When they make progress -/

section StepsWork

variable (c : PassiveCapabilities) (r : PassiveRequests) (target : Nat)

/-- A step of the knobs after power leads somewhere: P-states come first, cores that can be limited
have a step, and T-states follow when they have none. -/
def OthersLower : Prop :=
  r.pstateCanLimit c target = true ∨ (r.coreCanLimit c target = true ∧ c.core.Steps) ∨
    ((r.coreCanLimit c target = true → c.core.stepSize = none) ∧ r.tstateCanLimit c target = true)

/-- The knob that is stopped at leads somewhere: the power knob, unless it cannot limit or throws. -/
def LimitWorks : Prop :=
  r.canLimit c target = true →
    (r.powerCanLimit c target = true ∧ c.power.LimitLowers (r.powerRequest c target)) ∨
      ((r.powerCanLimit c target = true → c.power.LimitThrows (r.powerRequest c target)) ∧
        r.OthersLower c target)

/-- Steps lead the power and the cores back to the maximum. -/
def UnlimitWorks : Prop :=
  (r.powerCanUnlimit c target = true → c.power.UnlimitRises (r.powerRequest c target)) ∧
    (r.coreCanUnlimit c target = true → c.core.Steps)

/-- The steps that limit and unlimit the target lead somewhere. -/
def StepsWork : Prop := r.LimitWorks c target ∧ r.UnlimitWorks c target

end StepsWork

section Steps

variable {c : PassiveCapabilities} {r : PassiveRequests} {target : Nat}
variable {r' : PassiveRequests}

/-! ## Limiting -/

theorem OthersLimited.moreLimited_iff (h : OthersLimited c target r r') (hr : r.InRange c) :
    MoreLimited c target r r' ↔ r.OthersLower c target := by
  cases h with
  | @pstates cores hcan hrange hlowered =>
    refine iff_of_true ⟨le_refl _, ?_, ?_, Or.inr (Or.inl ?_)⟩ (Or.inl hcan)
    · rw [performanceRequest_assign]
      exact Nat.le_succ _
    · rcases hlowered with rfl | ⟨v, -, hle, rfl⟩
      · exact le_refl _
      · rw [coreRequest_assign]
        exact hle
    · rw [performanceRequest_assign]
      exact Nat.lt_succ_self _
  | @cores amount hpstates hcan hstep =>
    obtain ⟨-, hle⟩ := lowerCores_inRange hcan hr amount
    obtain ⟨-, hlt⟩ := CoreControlKnob.lt_of_canLimit hcan
    have hlower : r.lowerCores c target amount < r.coreRequest c target ↔ c.core.Steps := by
      rw [← CoreControlKnob.stepAmount_pos_iff hstep, lowerCores]
      change c.core.minActiveCores < r.coreRequest c target at hlt
      omega
    constructor
    · intro hmore
      rcases hmore.changed with hlt | hlt | hlt
      · exact absurd hlt (lt_irrefl _)
      · exact absurd hlt (lt_irrefl _)
      · rw [coreRequest_assign, hlower] at hlt
        exact Or.inr (Or.inl ⟨hcan, hlt⟩)
    · intro hothers
      have hsteps : c.core.Steps := by
        rcases hothers with hp | ⟨-, hsteps⟩ | ⟨hnone, -⟩
        · exact absurd (hpstates.symm.trans hp) (by decide)
        · exact hsteps
        · rw [← CoreControlKnob.stepAmount_eq_none_iff, hstep] at hnone
          cases hnone hcan
      refine ⟨le_refl _, le_refl _, ?_, Or.inr (Or.inr ?_)⟩
      · rw [coreRequest_assign]
        exact hle
      · rw [coreRequest_assign, hlower]
        exact hsteps
  | tstates hpstates hcores hcan hrange =>
    refine iff_of_true ⟨le_refl _, ?_, le_refl _, Or.inr (Or.inl ?_)⟩ (Or.inr (Or.inr ⟨?_, hcan⟩))
    · rw [performanceRequest_assign]
      exact Nat.le_succ _
    · rw [performanceRequest_assign]
      exact Nat.lt_succ_self _
    · exact fun hcore => CoreControlKnob.stepAmount_eq_none_iff.1 (hcores hcore)
  | nothing hpstates hcores htstates =>
    refine iff_of_false (fun hmore => ?_) ?_
    · exact hmore.changed.elim (lt_irrefl _) fun h => h.elim (lt_irrefl _) (lt_irrefl _)
    · rintro (hp | ⟨hcore, hsteps⟩ | ⟨-, ht⟩)
      · exact absurd (hpstates.symm.trans hp) (by decide)
      · exact CoreControlKnob.stepAmount_ne_none hsteps (hcores hcore)
      · exact absurd (htstates.symm.trans ht) (by decide)

/-- A request of the power knob. -/
theorem moreLimited_power_iff {v : Power} (hle : v ≤ r.powerRequest c target) :
    MoreLimited c target r { r with power := r.power.assign target v } ↔
      v < r.powerRequest c target := by
  constructor
  · intro hmore
    rcases hmore.changed with hlt | hlt | hlt
    · rwa [powerRequest_assign] at hlt
    · exact absurd hlt (lt_irrefl _)
    · exact absurd hlt (lt_irrefl _)
  · intro hlt
    refine ⟨?_, le_refl _, le_refl _, Or.inl ?_⟩
    · rwa [powerRequest_assign]
    · rwa [powerRequest_assign]

/-- **Limiting** makes progress exactly when the knob that is stopped at leads somewhere. -/
theorem limits_iff (hr : r.InRange c) :
    (r.canLimit c target = true → MoreLimited c target r (r.requestLimit c target)) ↔
      r.LimitWorks c target := by
  refine imp_congr_right fun _ => ?_
  rcases requestLimit_cases hr with ⟨hpower, v, hv, heq⟩ | ⟨hnone, hothers⟩
  · rw [heq]
    rcases PowerControlKnob.nextLimit_cases hr.power hpower with
      ⟨hnext, -⟩ | ⟨v', hv', hthrows, -, hle, hlt⟩
    · cases hv.symm.trans hnext
    · obtain rfl := Option.some.inj (hv.symm.trans hv')
      rw [moreLimited_power_iff hle]
      constructor
      · exact fun hlower => Or.inl ⟨hpower, hlt.1 hlower⟩
      · rintro (⟨-, hlowers⟩ | ⟨hthrow, -⟩)
        · exact hlt.2 hlowers
        · exact absurd (hthrow hpower) hthrows
  · have hthrow : r.powerCanLimit c target = true →
        c.power.LimitThrows (r.powerRequest c target) := by
      intro hpower
      rcases PowerControlKnob.nextLimit_cases hr.power hpower with ⟨-, h⟩ | ⟨v, hv, -⟩
      · exact h
      · cases (hnone hpower).symm.trans hv
    rw [hothers.moreLimited_iff hr]
    constructor
    · exact fun hlower => Or.inr ⟨hthrow, hlower⟩
    · rintro (⟨hpower, hlowers⟩ | ⟨-, hlower⟩)
      · exact absurd hlowers (c.power.not_limitLowers_of_limitThrows (hthrow hpower))
      · exact hlower

/-! ## Unlimiting -/

/-- Whether the steps lead back is the same before and after an `unlimit`. -/
theorem Unlimited.unlimitWorks_iff (h : Unlimited c target r r') :
    r'.UnlimitWorks c target ↔ r.UnlimitWorks c target := by
  cases h with
  | performance hlimited hrange => exact Iff.rfl
  | @cores amount performance hcan hstep hraised =>
    have hcan' : (r.coreCanUnlimit c target = true → c.core.Steps) ↔ c.core.Steps :=
      ⟨fun h => h hcan, fun h _ => h⟩
    refine and_congr_right fun _ => ?_
    rw [hcan']
    refine ⟨fun hafter => ?_, fun hsteps _ => hsteps⟩
    -- without a step the cores are as limited as before
    by_contra hsteps
    have hzero : amount = 0 := by
      rw [← CoreControlKnob.stepAmount_pos_iff hstep] at hsteps
      omega
    obtain ⟨hsupports, hlt⟩ := (CoreControlKnob.canUnlimit_iff target).1 hcan
    refine hsteps (hafter ((CoreControlKnob.canUnlimit_iff target).2 ⟨hsupports, ?_⟩))
    rw [CoreControlKnob.getTargetRequest_assign, raiseCores, hzero, Nat.add_zero]
    exact lt_of_le_of_lt (min_le_left _ _) hlt
  | @power v hcan hnext =>
    obtain ⟨hsupports, hlt⟩ := (PowerControlKnob.canUnlimit_iff target).1 hcan
    refine and_congr_left fun _ => ?_
    rw [powerRequest_assign]
    have hcan' : PassiveRequests.powerCanUnlimit c { r with power := r.power.assign target v }
        target = true ↔ v < c.power.maxPowerLimit := by
      rw [powerCanUnlimit, PowerControlKnob.canUnlimit_iff, and_iff_right hsupports,
        PowerControlKnob.getTargetRequest_assign]
    rw [hcan', ← PowerControlKnob.unlimitRises_iff hlt hnext]
    exact ⟨fun hrises _ => hrises, fun h => h hcan⟩
  | nothing htstates hcores hpstates hpower => exact Iff.rfl

/-- **Unlimiting** makes progress when the steps lead back. -/
theorem Unlimited.moreLimited (h : Unlimited c target r r') (hr : r.InRange c)
    (hworks : r.UnlimitWorks c target) (hcan : r.canUnlimit c target = true) :
    MoreLimited c target r' r := by
  cases h with
  | performance hlimited hrange =>
    refine ⟨le_refl _, ?_, le_refl _, Or.inr (Or.inl ?_)⟩
    · rw [performanceRequest_assign]
      exact Nat.sub_le _ _
    · rw [performanceRequest_assign]
      omega
  | @cores amount performance hcores hstep hraised =>
    obtain ⟨-, hle⟩ := raiseCores_inRange hcores hr amount
    obtain ⟨-, hlt⟩ := (CoreControlKnob.canUnlimit_iff target).1 hcores
    have hpos := (CoreControlKnob.stepAmount_pos_iff hstep).2 (hworks.2 hcores)
    refine ⟨le_refl _, ?_, ?_, Or.inr (Or.inr ?_)⟩
    · rcases hraised with rfl | ⟨-, rfl⟩
      · exact le_refl _
      · rw [performanceRequest_assign]
        exact Nat.sub_le _ _
    · rw [coreRequest_assign]
      exact hle
    · rw [coreRequest_assign, raiseCores]
      exact lt_min (Nat.lt_add_of_pos_right hpos) hlt
  | @power v hpower hnext =>
    obtain ⟨-, hlt⟩ := (PowerControlKnob.canUnlimit_iff target).1 hpower
    obtain ⟨v', hnext', hv⟩ := PowerControlKnob.exists_nextUnlimit hlt (hworks.1 hpower)
    obtain rfl := Option.some.inj (hnext.symm.trans hnext')
    refine ⟨?_, le_refl _, le_refl _, Or.inl ?_⟩
    · rw [powerRequest_assign]
      exact hv.le
    · rw [powerRequest_assign]
      exact hv
  | nothing htstates hcores hpstates hpower =>
    rw [canUnlimit, htstates, hpstates, Bool.false_or, Bool.or_false, Bool.or_eq_true] at hcan
    rcases hcan with hcan | hcan
    · exact absurd (hcores hcan) (CoreControlKnob.stepAmount_ne_none (hworks.2 hcan))
    · obtain ⟨-, hlt⟩ := (PowerControlKnob.canUnlimit_iff target).1 hcan
      obtain ⟨v, hnext, -⟩ := PowerControlKnob.exists_nextUnlimit hlt (hworks.1 hcan)
      cases (hpower hcan).symm.trans hnext

/-! ## Coming to an end -/

/-- How far the requests of a target are limited. -/
def limitation (c : PassiveCapabilities) (target : Nat) (r : PassiveRequests) : Nat :=
  (c.power.maxPowerLimit.1 - (r.powerRequest c target).1) +
    (r.performanceRequest c target - c.performance.currentUpperLimitIndex) +
    (c.core.maxActiveCores - r.coreRequest c target)

theorem limitation_lt (hmore : MoreLimited c target r r') (hr : r.InRange c) :
    limitation c target r < limitation c target r' := by
  have hpower : (r.powerRequest c target).1 ≤ c.power.maxPowerLimit.1 :=
    (PowerControlKnob.getTargetRequest_bounds hr.power target).2
  have hperformance : c.performance.currentUpperLimitIndex ≤ r.performanceRequest c target :=
    (PerformanceControlKnob.getTargetRequest_bounds hr.performance target).1
  have hcore : r.coreRequest c target ≤ c.core.maxActiveCores :=
    (CoreControlKnob.getTargetRequest_bounds hr.core target).2
  obtain ⟨hpowers, hindices, hcores, hchanged⟩ := hmore
  rw [power_le_iff] at hpowers
  rw [power_lt_iff] at hchanged
  unfold limitation
  omega

/-- A target that is limited can be unlimited. -/
theorem canUnlimit_of_limited {c : SteadyCapabilities} (hr : r.InRange c.toPassiveCapabilities)
    (hlimited : r.Limited c.toPassiveCapabilities target) :
    r.canUnlimit c.toPassiveCapabilities target = true := by
  rw [canUnlimit]
  rcases hlimited with hlt | hlt | hlt
  · have hcan : r.powerCanUnlimit c.toPassiveCapabilities target = true :=
      PowerControlKnob.canUnlimit_of_limited hr.power hlt
    rw [hcan, Bool.or_true]
  · have hsupports := PerformanceControlKnob.supports_of_limited hr.performance hlt
    have hle := (PerformanceControlKnob.getTargetRequest_bounds hr.performance target).2
    have hlower : r.performanceRequest c.toPassiveCapabilities target - 1 <
        c.performance.controls.length :=
      lt_of_le_of_lt ((Nat.sub_le _ _).trans hle) (c.inside hsupports)
    obtain ⟨controlType, hget⟩ : ∃ controlType, c.performance.controls[
        r.performanceRequest c.toPassiveCapabilities target - 1]? = some controlType :=
      ⟨_, List.getElem?_eq_getElem hlower⟩
    -- the control before the requested one is of one of the two types
    have htype : controlType = .performanceState ∨ controlType = .throttleState := by
      obtain ⟨pstates, tstates, hcontrols⟩ := c.pstatesFirst hsupports
      have hmem := List.mem_of_getElem? hget
      rw [hcontrols, List.mem_append, List.mem_replicate, List.mem_replicate] at hmem
      exact hmem.imp And.right And.right
    rcases htype with rfl | rfl
    · have hcan : r.pstateCanUnlimit c.toPassiveCapabilities target = true :=
        PerformanceControlKnob.canUnlimit_of_limited hr.performance hlt hget
      rw [hcan, Bool.or_true, Bool.true_or]
    · have hcan : r.tstateCanUnlimit c.toPassiveCapabilities target = true :=
        PerformanceControlKnob.canUnlimit_of_limited hr.performance hlt hget
      rw [hcan, Bool.true_or, Bool.true_or, Bool.true_or]
  · have hcan : r.coreCanUnlimit c.toPassiveCapabilities target = true :=
      CoreControlKnob.canUnlimit_of_limited hr.core hlt
    rw [hcan, Bool.or_true, Bool.true_or, Bool.true_or]

/-- Unlimiting comes to an end when the steps lead back: the limitation becomes less. -/
theorem drains_of_unlimitWorks {c : SteadyCapabilities} (limit : Nat) :
    ∀ r : PassiveRequests, r.InRange c.toPassiveCapabilities →
      r.UnlimitWorks c.toPassiveCapabilities target →
      limitation c.toPassiveCapabilities target r ≤ limit →
      ∃ n, ¬ ((fun r' => requestUnlimit c.toPassiveCapabilities r' target)^[n] r).Limited
        c.toPassiveCapabilities target := by
  induction limit with
  | zero =>
    intro r hr hworks hlimit
    refine ⟨0, fun hlimited => ?_⟩
    have hafter : Unlimited _ target r _ := unlimited_requestUnlimit hr
    have hmore := hafter.moreLimited hr hworks (canUnlimit_of_limited hr hlimited)
    have hlt := limitation_lt hmore (hafter.inRange hr)
    exact Nat.not_lt_zero _ (hlt.trans_le hlimit)
  | succ limit ih =>
    intro r hr hworks hlimit
    by_cases hlimited : r.Limited c.toPassiveCapabilities target
    · have hafter : Unlimited _ target r _ := unlimited_requestUnlimit hr
      have hmore := hafter.moreLimited hr hworks (canUnlimit_of_limited hr hlimited)
      have hlt := limitation_lt hmore (hafter.inRange hr)
      obtain ⟨n, hn⟩ := ih (r.requestUnlimit c.toPassiveCapabilities target) (hafter.inRange hr)
        (hafter.unlimitWorks_iff.2 hworks) (Nat.le_of_lt_succ (hlt.trans_le hlimit))
      exact ⟨n + 1, hn⟩
    · exact ⟨0, hlimited⟩

/-- Steps that come to an end lead back: what they do to a request does not depend on the turn. -/
theorem unlimitWorks_of_drains {c : PassiveCapabilities} {n : Nat} :
    ∀ r : PassiveRequests, r.InRange c →
      ¬ ((fun r' => requestUnlimit c r' target)^[n] r).Limited c target →
      r.UnlimitWorks c target := by
  induction n with
  | zero =>
    intro r hr hdone
    have hnone : ¬ r.Limited c target := hdone
    refine ⟨fun hcan => ?_, fun hcan => ?_⟩
    · exact absurd (Or.inl ((PowerControlKnob.canUnlimit_iff target).1 hcan).2) hnone
    · exact absurd (Or.inr (Or.inr ((CoreControlKnob.canUnlimit_iff target).1 hcan).2)) hnone
  | succ n ih =>
    intro r hr hdone
    have hafter : Unlimited _ target r _ := unlimited_requestUnlimit hr
    exact hafter.unlimitWorks_iff.1 (ih _ (hafter.inRange hr) hdone)

end Steps

/-! ## Every history -/

theorem empty_inRange (c : PassiveCapabilities) : empty.InRange c :=
  ⟨KeyMap.allValues_empty, KeyMap.allValues_empty, KeyMap.allValues_empty⟩

/-- Every operation leaves the requests in the range of the capabilities. -/
theorem apply_inRange {c : PassiveCapabilities} {r : PassiveRequests} (hr : r.InRange c)
    (op : PassiveOp) : (r.apply c op).InRange c := by
  cases op with
  | requestLimit target => exact requestLimit_inRange hr
  | requestUnlimit target => exact (unlimited_requestUnlimit hr).inRange hr
  | adjustPowerRequests =>
    refine ⟨hr.power.mapValues fun v hv => ?_, hr.performance, hr.core⟩
    have hsnap : PowerControlKnob.snapToCapabilitiesBounds c.power v = v := by
      unfold PowerControlKnob.snapToCapabilitiesBounds
      simp only
      rw [if_neg (not_lt.2 hv.2.2), if_neg (not_lt.2 hv.2.1)]
    rwa [hsnap]
  | adjustPerformanceRequests =>
    refine ⟨hr.power, hr.performance.mapValues fun v hv => ?_, hr.core⟩
    rw [max_eq_left hv.2.1, min_eq_left hv.2.2]
    exact hv
  | adjustCoreRequests =>
    refine ⟨hr.power, hr.performance, hr.core.mapValues fun v hv => ?_⟩
    have hsnap : CoreControlKnob.snapToCapabilitiesBounds c.core v = v := by
      unfold CoreControlKnob.snapToCapabilitiesBounds
      simp only
      rw [if_neg (not_lt.2 hv.2.1), if_neg (not_lt.2 hv.2.2)]
    rwa [hsnap]
  | clearAllRequestsForTarget target =>
    exact ⟨hr.power.erase target, hr.performance.erase target, hr.core.erase target⟩

theorem history_inRange (c : PassiveCapabilities) (ops : List PassiveOp) :
    (history c ops).InRange c := by
  induction ops using List.reverseRecOn with
  | nil => exact empty_inRange c
  | append_singleton ops op ih =>
    rw [history, List.foldl_append]
    exact apply_inRange ih op

end PassiveRequests

/-- **After every history**, limiting and unlimiting a target make progress exactly when the steps of
the knobs that are stopped at lead somewhere. -/
theorem makesProgress_iff (c : SteadyCapabilities) (ops : List PassiveOp) (target : Nat) :
    (PassiveRequests.history c.toPassiveCapabilities ops).MakesProgress c.toPassiveCapabilities
        target ↔
      (PassiveRequests.history c.toPassiveCapabilities ops).StepsWork c.toPassiveCapabilities
        target := by
  have hr := PassiveRequests.history_inRange c.toPassiveCapabilities ops
  constructor
  · intro hprogress
    obtain ⟨n, hn⟩ := hprogress.drains
    exact ⟨(PassiveRequests.limits_iff hr).1 hprogress.limits,
      PassiveRequests.unlimitWorks_of_drains _ hr hn⟩
  · rintro ⟨hlimit, hunlimit⟩
    have hafter : PassiveRequests.Unlimited _ target _ _ :=
      PassiveRequests.unlimited_requestUnlimit hr
    exact ⟨hr, (PassiveRequests.limits_iff hr).2 hlimit, hafter.moreLimited hr hunlimit,
      PassiveRequests.drains_of_unlimitWorks _ _ hr hunlimit le_rfl⟩

end Passive

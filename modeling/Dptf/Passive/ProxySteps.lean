import Dptf.Passive.DomainProxy
import Dptf.Passive.KnobSteps

/-!
# What the proxy does to the requests of a target

`requestLimit` and `requestUnlimit`, when the requests are in the range of the capabilities.
-/

open Lib
open Mgr (Power Percentage)

namespace Passive

namespace PassiveRequests

section Requests

variable (c : PassiveCapabilities) (r : PassiveRequests) (target : Nat)

/-- The power that a target requests. -/
def powerRequest : Power := PowerControlKnob.getTargetRequest c.power r.power target

/-- The performance index that a target requests. -/
def performanceRequest : Nat :=
  PerformanceControlKnob.getTargetRequest c.performance r.performance target

/-- The number of cores that a target requests. -/
def coreRequest : Nat := CoreControlKnob.getTargetRequest c.core r.core target

/-- Every request is in the range of its capabilities. -/
structure InRange : Prop where
  power : r.power.AllValues c.power.InRange
  performance : r.performance.AllValues c.performance.InRange
  core : r.core.AllValues c.core.InRange

end Requests

/-! ## What a step is -/

section Steps

variable {c : PassiveCapabilities} {r : PassiveRequests} {target : Nat}

/-- The cores after a P-state was limited. -/
def CoresLowered (c : PassiveCapabilities) (target : Nat) (r : PassiveRequests)
    (cores : KeyMap Nat Nat) : Prop :=
  cores = r.core ∨ ∃ v, c.core.InRange v ∧ v ≤ r.coreRequest c target ∧
    cores = r.core.assign target v

/-- The request of the cores after a step down. -/
def lowerCores (c : PassiveCapabilities) (r : PassiveRequests) (target amount : Nat) : Nat :=
  max (r.coreRequest c target - amount) c.core.minActiveCores

/-- The request of the cores after a step up. -/
def raiseCores (c : PassiveCapabilities) (r : PassiveRequests) (target amount : Nat) : Nat :=
  min (r.coreRequest c target + amount) c.core.maxActiveCores

theorem limitCore_eq (hcan : r.coreCanLimit c target = true) :
    r.limitCore c target = (CoreControlKnob.stepAmount c.core).map fun amount =>
      { r with core := r.core.assign target (r.lowerCores c target amount) } := by
  rw [limitCore, CoreControlKnob.limit_of_canLimit hcan, Option.map_map]
  rfl

theorem unlimitCore_eq (hcan : r.coreCanUnlimit c target = true) :
    r.unlimitCore c target = (CoreControlKnob.stepAmount c.core).map fun amount =>
      { r with core := r.core.assign target (r.raiseCores c target amount) } := by
  rw [unlimitCore, CoreControlKnob.unlimit_of_canUnlimit hcan, Option.map_map]
  rfl

theorem limitPower_eq (hcan : r.powerCanLimit c target = true) :
    r.limitPower c target = (PowerControlKnob.nextLimit c.power r.power target).map fun v =>
      { r with power := r.power.assign target v } := by
  rw [powerCanLimit] at hcan
  rw [limitPower, PowerControlKnob.limit, if_pos hcan, Option.map_map]
  rfl

theorem unlimitPower_eq (hcan : r.powerCanUnlimit c target = true) :
    r.unlimitPower c target = (PowerControlKnob.nextUnlimit c.power r.power target).map fun v =>
      { r with power := r.power.assign target v } := by
  rw [powerCanUnlimit] at hcan
  rw [unlimitPower, PowerControlKnob.unlimit, if_pos hcan, Option.map_map]
  rfl

theorem lowerCores_inRange (hcan : r.coreCanLimit c target = true) (hr : r.InRange c)
    (amount : Nat) :
    c.core.InRange (r.lowerCores c target amount) ∧
      r.lowerCores c target amount ≤ r.coreRequest c target := by
  obtain ⟨hsupports, hlt⟩ := CoreControlKnob.lt_of_canLimit hcan
  have hmax := (CoreControlKnob.getTargetRequest_bounds hr.core target).2
  have hle : r.lowerCores c target amount ≤ r.coreRequest c target := max_le (Nat.sub_le _ _) hlt.le
  exact ⟨⟨hsupports, le_max_right _ _, hle.trans hmax⟩, hle⟩

theorem raiseCores_inRange (hcan : r.coreCanUnlimit c target = true) (hr : r.InRange c)
    (amount : Nat) :
    c.core.InRange (r.raiseCores c target amount) ∧
      r.coreRequest c target ≤ r.raiseCores c target amount := by
  obtain ⟨hsupports, hlt⟩ := (CoreControlKnob.canUnlimit_iff target).1 hcan
  have hmin := (CoreControlKnob.getTargetRequest_bounds hr.core target).1
  have hle : r.coreRequest c target ≤ r.raiseCores c target amount :=
    le_min (Nat.le_add_right _ _) hlt.le
  exact ⟨⟨hsupports, hmin.trans hle, min_le_right _ _⟩, hle⟩

/-- What `requestLimit` does after the power knob. -/
inductive OthersLimited (c : PassiveCapabilities) (target : Nat) (r : PassiveRequests) :
    PassiveRequests → Prop
  | pstates {cores : KeyMap Nat Nat} (can : r.pstateCanLimit c target = true)
      (inRange : c.performance.InRange (r.performanceRequest c target + 1))
      (lowered : CoresLowered c target r cores) :
      OthersLimited c target r
        ⟨r.power, r.performance.assign target (r.performanceRequest c target + 1), cores⟩
  | cores {amount : Nat} (pstates : r.pstateCanLimit c target = false)
      (can : r.coreCanLimit c target = true)
      (step : CoreControlKnob.stepAmount c.core = some amount) :
      OthersLimited c target r
        { r with core := r.core.assign target (r.lowerCores c target amount) }
  | tstates (pstates : r.pstateCanLimit c target = false)
      (cores : r.coreCanLimit c target = true → CoreControlKnob.stepAmount c.core = none)
      (can : r.tstateCanLimit c target = true)
      (inRange : c.performance.InRange (r.performanceRequest c target + 1)) :
      OthersLimited c target r
        { r with performance := r.performance.assign target (r.performanceRequest c target + 1) }
  | nothing (pstates : r.pstateCanLimit c target = false)
      (cores : r.coreCanLimit c target = true → CoreControlKnob.stepAmount c.core = none)
      (tstates : r.tstateCanLimit c target = false) : OthersLimited c target r r

/-- What `requestLimit` does after the power knob. -/
def limitOthers (c : PassiveCapabilities) (r : PassiveRequests) (target : Nat) : PassiveRequests :=
  let pstates := r.requestLimitPstatesWithCoresAndShouldContinue c target
  if pstates.2 then
    let cores := pstates.1.requestLimitCoresAndShouldContinue c target
    if cores.2 then (cores.1.requestLimitTstatesAndContinue c target).1 else cores.1
  else pstates.1

theorem othersLimited_tstates (hr : r.InRange c) (hpstates : r.pstateCanLimit c target = false)
    (hcores : r.coreCanLimit c target = true → CoreControlKnob.stepAmount c.core = none) :
    OthersLimited c target r (r.requestLimitTstatesAndContinue c target).1 := by
  unfold requestLimitTstatesAndContinue
  cases hcan : r.tstateCanLimit c target with
  | true =>
    obtain ⟨hlimit, hrange⟩ := PerformanceControlKnob.limit_of_canLimit hr.performance hcan
    rw [if_pos rfl, limitPerformance, hlimit]
    exact OthersLimited.tstates hpstates hcores hcan hrange
  | false => exact OthersLimited.nothing hpstates hcores hcan

/-- A P-state is limited, and the cores are limited as well if they can be. -/
theorem requestLimitPstates_of_can (hr : r.InRange c) (hcan : r.pstateCanLimit c target = true) :
    c.performance.InRange (r.performanceRequest c target + 1) ∧
      ∃ cores, CoresLowered c target r cores ∧
        r.requestLimitPstatesWithCoresAndShouldContinue c target =
          (⟨r.power, r.performance.assign target (r.performanceRequest c target + 1), cores⟩,
            false) := by
  obtain ⟨hlimit, hrange⟩ := PerformanceControlKnob.limit_of_canLimit hr.performance hcan
  refine ⟨hrange, ?_⟩
  have hlimited : r.limitPerformance c .performanceState target =
      ⟨r.power, r.performance.assign target (r.performanceRequest c target + 1), r.core⟩ := by
    rw [limitPerformance, hlimit]
    rfl
  unfold requestLimitPstatesWithCoresAndShouldContinue
  rw [if_pos hcan, hlimited]
  generalize hpstate : PassiveRequests.mk r.power
    (r.performance.assign target (r.performanceRequest c target + 1)) r.core = limited
  have hinRange : limited.InRange c := by
    rw [← hpstate]
    exact ⟨hr.power, hr.performance.assign target hrange, hr.core⟩
  cases hcores : limited.coreCanLimit c target with
  | false =>
    refine ⟨r.core, Or.inl rfl, ?_⟩
    simp only [hcores, Bool.false_eq_true, if_false, hpstate]
  | true =>
    simp only [hcores, if_true]
    rw [limitCore_eq hcores]
    cases CoreControlKnob.stepAmount c.core with
    | none => exact ⟨r.core, Or.inl rfl, by rw [hpstate]; rfl⟩
    | some amount =>
      obtain ⟨hlowered, hle⟩ := lowerCores_inRange hcores hinRange amount
      refine ⟨limited.core.assign target (limited.lowerCores c target amount), ?_, ?_⟩
      · subst hpstate
        exact Or.inr ⟨_, hlowered, hle, rfl⟩
      · subst hpstate
        rfl

theorem othersLimited_limitOthers (hr : r.InRange c) :
    OthersLimited c target r (r.limitOthers c target) := by
  unfold limitOthers
  cases hpstates : r.pstateCanLimit c target with
  | true =>
    obtain ⟨hrange, cores, hlowered, heq⟩ := requestLimitPstates_of_can hr hpstates
    rw [heq]
    exact OthersLimited.pstates hpstates hrange hlowered
  | false =>
    have heq : r.requestLimitPstatesWithCoresAndShouldContinue c target = (r, true) := by
      rw [requestLimitPstatesWithCoresAndShouldContinue, if_neg (by rw [hpstates]; decide)]
    rw [heq]
    simp only [if_true]
    unfold requestLimitCoresAndShouldContinue
    cases hcores : r.coreCanLimit c target with
    | true =>
      rw [if_pos rfl, limitCore_eq hcores]
      cases hstep : CoreControlKnob.stepAmount c.core with
      | none => exact othersLimited_tstates hr hpstates fun _ => hstep
      | some amount => exact OthersLimited.cores hpstates hcores hstep
    | false =>
      refine othersLimited_tstates hr hpstates fun h => ?_
      exact absurd (hcores.symm.trans h) (by decide)

/-- What `requestLimit` does. -/
theorem requestLimit_cases (hr : r.InRange c) : (r.powerCanLimit c target = true ∧
      ∃ v, PowerControlKnob.nextLimit c.power r.power target = some v ∧
        r.requestLimit c target = { r with power := r.power.assign target v }) ∨
    ((r.powerCanLimit c target = true → PowerControlKnob.nextLimit c.power r.power target = none) ∧
      OthersLimited c target r (r.requestLimit c target)) := by
  have hothers : OthersLimited c target r (r.limitOthers c target) := othersLimited_limitOthers hr
  unfold requestLimit requestLimitPowerAndShouldContinue
  cases hpower : r.powerCanLimit c target with
  | true =>
    rw [if_pos rfl, limitPower_eq hpower]
    cases hnext : PowerControlKnob.nextLimit c.power r.power target with
    | none => exact Or.inr ⟨fun _ => rfl, hothers⟩
    | some v => exact Or.inl ⟨rfl, v, rfl, rfl⟩
  | false => exact Or.inr ⟨fun h => absurd h (by decide), hothers⟩

/-! ## Limiting -/

@[simp] theorem powerRequest_assign (power : KeyMap Nat Power) (v : Power)
    (performance core : KeyMap Nat Nat) :
    (PassiveRequests.mk (power.assign target v) performance core).powerRequest c target = v :=
  PowerControlKnob.getTargetRequest_assign target v

@[simp] theorem performanceRequest_assign (power : KeyMap Nat Power) (v : Nat)
    (performance core : KeyMap Nat Nat) :
    (PassiveRequests.mk power (performance.assign target v) core).performanceRequest c target = v :=
  PerformanceControlKnob.getTargetRequest_assign target v

@[simp] theorem coreRequest_assign (power : KeyMap Nat Power) (v : Nat)
    (performance core : KeyMap Nat Nat) :
    (PassiveRequests.mk power performance (core.assign target v)).coreRequest c target = v :=
  CoreControlKnob.getTargetRequest_assign target v

theorem OthersLimited.inRange {r' : PassiveRequests} (h : OthersLimited c target r r')
    (hr : r.InRange c) : r'.InRange c := by
  cases h with
  | pstates hcan hrange hlowered =>
    refine ⟨hr.power, hr.performance.assign target hrange, ?_⟩
    rcases hlowered with heq | ⟨v, hv, -, heq⟩
    · exact heq ▸ hr.core
    · exact heq ▸ hr.core.assign target hv
  | cores hpstates hcan hstep =>
    exact ⟨hr.power, hr.performance, hr.core.assign target (lowerCores_inRange hcan hr _).1⟩
  | tstates hpstates hcores hcan hrange =>
    exact ⟨hr.power, hr.performance.assign target hrange, hr.core⟩
  | nothing hpstates hcores htstates => exact hr

theorem requestLimit_inRange (hr : r.InRange c) : (r.requestLimit c target).InRange c := by
  rcases requestLimit_cases hr with ⟨hpower, v, hv, heq⟩ | ⟨-, hothers⟩
  · obtain ⟨hsupports, -⟩ := (PowerControlKnob.canLimit_iff target).1 hpower
    have hmax := (PowerControlKnob.getTargetRequest_bounds hr.power target).2
    rcases PowerControlKnob.nextLimit_cases hr.power hpower with
      ⟨hnext, -⟩ | ⟨v', hv', -, hmin, hle, -⟩
    · cases hv.symm.trans hnext
    · obtain rfl := Option.some.inj (hv.symm.trans hv')
      rw [heq]
      exact ⟨hr.power.assign target ⟨hsupports, hmin, hle.trans hmax⟩, hr.performance, hr.core⟩
  · exact hothers.inRange hr

/-! ## Unlimiting -/

/-- The performance requests after the cores were unlimited. -/
def PerformanceRaised (c : PassiveCapabilities) (target : Nat) (r : PassiveRequests)
    (performance : KeyMap Nat Nat) : Prop :=
  performance = r.performance ∨
    c.performance.InRange (r.performanceRequest c target - 1) ∧
      performance = r.performance.assign target (r.performanceRequest c target - 1)

/-- What `requestUnlimit` does. -/
inductive Unlimited (c : PassiveCapabilities) (target : Nat) (r : PassiveRequests) :
    PassiveRequests → Prop
  | performance (limited : c.performance.currentUpperLimitIndex < r.performanceRequest c target)
      (inRange : c.performance.InRange (r.performanceRequest c target - 1)) :
      Unlimited c target r
        { r with performance := r.performance.assign target (r.performanceRequest c target - 1) }
  | cores {amount : Nat} {performance : KeyMap Nat Nat} (can : r.coreCanUnlimit c target = true)
      (step : CoreControlKnob.stepAmount c.core = some amount)
      (raised : PerformanceRaised c target r performance) :
      Unlimited c target r
        ⟨r.power, performance, r.core.assign target (r.raiseCores c target amount)⟩
  | power {v : Power} (can : r.powerCanUnlimit c target = true)
      (next : PowerControlKnob.nextUnlimit c.power r.power target = some v) :
      Unlimited c target r { r with power := r.power.assign target v }
  | nothing (tstates : r.tstateCanUnlimit c target = false)
      (cores : r.coreCanUnlimit c target = true → CoreControlKnob.stepAmount c.core = none)
      (pstates : r.pstateCanUnlimit c target = false)
      (power : r.powerCanUnlimit c target = true →
        PowerControlKnob.nextUnlimit c.power r.power target = none) : Unlimited c target r r

theorem unlimited_performance (hr : r.InRange c) {controlType : PerformanceControlType}
    (hcan : PerformanceControlKnob.canUnlimit c.performance r.performance controlType target =
      true) :
    Unlimited c target r (r.unlimitPerformance c controlType target) := by
  obtain ⟨hunlimit, hrange, hlimited⟩ :=
    PerformanceControlKnob.unlimit_of_canUnlimit hr.performance hcan
  rw [unlimitPerformance, hunlimit]
  exact Unlimited.performance hlimited hrange

/-- The cores are unlimited, and a P-state is unlimited as well if it can be. -/
theorem unlimited_cores (hr : r.InRange c) (hcan : r.coreCanUnlimit c target = true) {amount : Nat}
    (hstep : CoreControlKnob.stepAmount c.core = some amount) :
    ∃ unlimited, Unlimited c target r unlimited ∧
      r.requestUnlimitCoresWithPstatesAndShouldContinue c target = (unlimited, false) := by
  unfold requestUnlimitCoresWithPstatesAndShouldContinue
  rw [if_pos hcan, unlimitCore_eq hcan, hstep, Option.map_some]
  simp only
  split_ifs with hpstates
  · obtain ⟨hunlimit, hrange, -⟩ :=
      PerformanceControlKnob.unlimit_of_canUnlimit hr.performance hpstates
    refine ⟨_, Unlimited.cores hcan hstep (Or.inr ⟨hrange, rfl⟩), ?_⟩
    rw [unlimitPerformance, hunlimit]
    rfl
  · exact ⟨_, Unlimited.cores hcan hstep (Or.inl rfl), rfl⟩

/-- What `requestUnlimit` does after the T-states and the cores. -/
theorem unlimited_pstatesThenPower (hr : r.InRange c)
    (htstates : r.tstateCanUnlimit c target = false)
    (hcores : r.coreCanUnlimit c target = true → CoreControlKnob.stepAmount c.core = none) :
    Unlimited c target r
      (if (r.requestUnlimitPstatesAndShouldContinue c target).2 then
        ((r.requestUnlimitPstatesAndShouldContinue c target).1.requestUnlimitPowerAndShouldContinue
          c target).1
      else (r.requestUnlimitPstatesAndShouldContinue c target).1) := by
  unfold requestUnlimitPstatesAndShouldContinue
  cases hpstates : r.pstateCanUnlimit c target with
  | true => exact unlimited_performance hr hpstates
  | false =>
    simp only [Bool.false_eq_true, if_false, if_true]
    unfold requestUnlimitPowerAndShouldContinue
    cases hpower : r.powerCanUnlimit c target with
    | true =>
      rw [if_pos rfl, unlimitPower_eq hpower]
      cases hnext : PowerControlKnob.nextUnlimit c.power r.power target with
      | none => exact Unlimited.nothing htstates hcores hpstates fun _ => hnext
      | some v => exact Unlimited.power hpower hnext
    | false =>
      refine Unlimited.nothing htstates hcores hpstates fun h => ?_
      exact absurd (hpower.symm.trans h) (by decide)

theorem unlimited_requestUnlimit (hr : r.InRange c) :
    Unlimited c target r (r.requestUnlimit c target) := by
  unfold requestUnlimit requestUnlimitTstatesAndContinue
  cases htstates : r.tstateCanUnlimit c target with
  | true => exact unlimited_performance hr htstates
  | false =>
    simp only [Bool.false_eq_true, if_false, if_true]
    by_cases hcores : r.coreCanUnlimit c target = true ∧ CoreControlKnob.stepAmount c.core ≠ none
    · obtain ⟨amount, hstep⟩ := Option.ne_none_iff_exists'.1 hcores.2
      obtain ⟨unlimited, hunlimited, heq⟩ := unlimited_cores hr hcores.1 hstep
      rw [heq]
      exact hunlimited
    · have hnone : r.coreCanUnlimit c target = true → CoreControlKnob.stepAmount c.core = none := by
        intro hcan
        by_contra hstep
        exact hcores ⟨hcan, hstep⟩
      have heq : r.requestUnlimitCoresWithPstatesAndShouldContinue c target = (r, true) := by
        unfold requestUnlimitCoresWithPstatesAndShouldContinue
        split_ifs with hcan
        · rw [unlimitCore_eq hcan, hnone hcan]
          rfl
        · rfl
      rw [heq]
      exact unlimited_pstatesThenPower hr htstates hnone

theorem Unlimited.inRange {r' : PassiveRequests} (h : Unlimited c target r r')
    (hr : r.InRange c) : r'.InRange c := by
  cases h with
  | performance hlimited hrange =>
    exact ⟨hr.power, hr.performance.assign target hrange, hr.core⟩
  | @cores amount performance hcan hstep hraised =>
    refine ⟨hr.power, ?_, hr.core.assign target (raiseCores_inRange hcan hr amount).1⟩
    rcases hraised with heq | ⟨hrange, heq⟩
    · exact heq ▸ hr.performance
    · exact heq ▸ hr.performance.assign target hrange
  | @power v hcan hnext =>
    obtain ⟨hsupports, hlt⟩ := (PowerControlKnob.canUnlimit_iff target).1 hcan
    obtain ⟨hmin, -⟩ := PowerControlKnob.getTargetRequest_bounds hr.power target
    obtain ⟨step, -, -, hv⟩ := (PowerControlKnob.nextUnlimit_eq_some_iff target v).1 hnext
    refine ⟨hr.power.assign target ⟨hsupports, ?_, ?_⟩, hr.performance, hr.core⟩
    · rw [power_le_iff] at hmin ⊢
      rw [power_lt_iff] at hlt
      omega
    · rw [power_le_iff]
      omega
  | nothing htstates hcores hpstates hpower => exact hr

end Steps

end PassiveRequests

end Passive

import Dptf.Passive.Knobs

/-!
# What a step of a knob does

`limit` and `unlimit` of each knob, when its requests are in the range of the capabilities.
-/

open Lib
open Mgr (Power Percentage)

namespace Passive

/-! ## Power -/

theorem power_le_iff (a b : Power) : a ≤ b ↔ a.1 ≤ b.1 := Iff.rfl

theorem power_lt_iff (a b : Power) : a < b ↔ a.1 < b.1 := Iff.rfl

theorem power_max (a b : Power) : (max a b).1 = max a.1 b.1 := by
  rcases le_total a b with h | h
  · rw [max_eq_right h, max_eq_right ((power_le_iff a b).1 h)]
  · rw [max_eq_left h, max_eq_left ((power_le_iff b a).1 h)]

theorem power_min (a b : Power) : (min a b).1 = min a.1 b.1 := by
  rcases le_total a b with h | h
  · rw [min_eq_left h, min_eq_left ((power_le_iff a b).1 h)]
  · rw [min_eq_right h, min_eq_right ((power_le_iff b a).1 h)]

theorem power_of_le {milliwatts : Nat} (h : milliwatts ≤ 10000000) :
    ∃ v, power milliwatts = some v ∧ v.1 = milliwatts :=
  ⟨⟨milliwatts, h⟩, dif_pos h, rfl⟩

theorem subPower_of_lt {a b : Power} (h : a < b) : subPower a b = none :=
  if_pos ((power_lt_iff a b).1 h)

theorem subPower_of_le {a b : Power} (h : b ≤ a) :
    ∃ v, subPower a b = some v ∧ v.1 = a.1 - b.1 := by
  rw [subPower, if_neg (not_lt.2 ((power_le_iff b a).1 h))]
  exact power_of_le ((Nat.sub_le _ _).trans a.2)

namespace PowerControl

variable (c : PowerControl)

/-- A request that the capabilities allow. -/
def InRange (request : Power) : Prop :=
  c.supportsPowerControls = true ∧ c.minPowerLimit ≤ request ∧ request ≤ c.maxPowerLimit

/-- No step down can be calculated: the average power is not known, or it is more than the minimum
and the step is not known or is more than the maximum but not more than the average. -/
def LimitThrows (request : Power) : Prop :=
  request ≥ c.maxPowerLimit ∧ ∀ average, c.averagePower = some average →
    c.minPowerLimit < average ∧
      ∀ step, c.powerStepSize = some step → step ≤ average ∧ c.maxPowerLimit < step

/-- A step down leads below the request. -/
def LimitLowers (request : Power) : Prop :=
  if request ≥ c.maxPowerLimit then
    ∃ average, c.averagePower = some average ∧ (average ≤ c.minPowerLimit ∨
      ∃ step, c.powerStepSize = some step ∧
        (average < step ∨ step ≤ c.maxPowerLimit ∧ (0 < step.1 ∨ average < c.maxPowerLimit)))
  else ∃ step, c.powerStepSize = some step ∧ 0 < step.1

theorem not_limitLowers_of_limitThrows {request : Power} (h : c.LimitThrows request) :
    ¬ c.LimitLowers request := by
  rw [LimitLowers, if_pos h.1]
  rintro ⟨average, haverage, hlowers⟩
  obtain ⟨hgt, hsteps⟩ := h.2 average haverage
  rcases hlowers with hle | ⟨step, hstep, hlowers⟩
  · exact absurd hgt (not_lt.2 hle)
  · obtain ⟨hle, hlt⟩ := hsteps step hstep
    exact hlowers.elim (not_lt.2 hle) fun h => not_le.2 hlt h.1

/-- Some number of steps up leads to the maximum without leaving the powers there are. -/
def UnlimitRises (request : Power) : Prop :=
  ∃ step, c.powerStepSize = some step ∧
    ∃ n, c.maxPowerLimit.1 ≤ request.1 + n * step.1 ∧ request.1 + n * step.1 ≤ 10000000

end PowerControl

namespace PowerControlKnob

variable {c : PowerControl} {requests : KeyMap Nat Power}
variable {target : Nat}

theorem getTargetRequest_assign (target : Nat) (v : Power) :
    getTargetRequest c (requests.assign target v) target = v := by
  rw [getTargetRequest, KeyMap.find_assign, if_pos rfl]

theorem getTargetRequest_bounds (h : requests.AllValues c.InRange) (target : Nat) :
    c.minPowerLimit ≤ getTargetRequest c requests target ∧
      getTargetRequest c requests target ≤ c.maxPowerLimit := by
  rw [getTargetRequest]
  cases hfind : requests.find target with
  | none => exact ⟨c.ordered, le_refl _⟩
  | some request => exact (h target request hfind).2

theorem canLimit_iff (target : Nat) :
    canLimit c requests target = true ↔ c.supportsPowerControls = true ∧
      c.minPowerLimit < getTargetRequest c requests target := by
  rw [canLimit, Bool.and_eq_true, decide_eq_true_iff]

theorem canUnlimit_iff (target : Nat) :
    canUnlimit c requests target = true ↔ c.supportsPowerControls = true ∧
      getTargetRequest c requests target < c.maxPowerLimit := by
  rw [canUnlimit, Bool.and_eq_true, decide_eq_true_iff]

theorem canUnlimit_of_limited (h : requests.AllValues c.InRange)
    (hlimited : getTargetRequest c requests target < c.maxPowerLimit) :
    canUnlimit c requests target = true := by
  refine (canUnlimit_iff target).2 ⟨?_, hlimited⟩
  cases hfind : requests.find target with
  | none =>
    rw [getTargetRequest, hfind] at hlimited
    exact absurd hlimited (lt_irrefl _)
  | some request => exact (h target request hfind).1

theorem calculateNextLowerPowerLimit_of_le {average : Power} (h : average ≤ c.minPowerLimit) :
    calculateNextLowerPowerLimit average c.minPowerLimit c.powerStepSize c.maxPowerLimit =
      some c.minPowerLimit := by
  rw [calculateNextLowerPowerLimit, if_neg (not_lt.2 h)]

theorem calculateNextLowerPowerLimit_of_gt {average : Power} (h : c.minPowerLimit < average) :
    calculateNextLowerPowerLimit average c.minPowerLimit c.powerStepSize c.maxPowerLimit =
      c.powerStepSize.bind fun step =>
        if step > average then some c.minPowerLimit
        else
          (subPower c.maxPowerLimit step).bind fun fromLimit =>
            (subPower average step).bind fun fromPower =>
              some (max c.minPowerLimit (min fromLimit fromPower)) := by
  rw [calculateNextLowerPowerLimit, if_pos h]

/-- What a step from the maximum is, given the average power. -/
theorem calculateNextLowerPowerLimit_cases (average : Power)
    (hordered : c.minPowerLimit < c.maxPowerLimit) :
    (calculateNextLowerPowerLimit average c.minPowerLimit c.powerStepSize c.maxPowerLimit = none ∧
      c.minPowerLimit < average ∧
        ∀ step, c.powerStepSize = some step → step ≤ average ∧ c.maxPowerLimit < step) ∨
    ∃ v, calculateNextLowerPowerLimit average c.minPowerLimit c.powerStepSize c.maxPowerLimit =
        some v ∧ c.minPowerLimit ≤ v ∧ v ≤ c.maxPowerLimit ∧
      (average ≤ c.minPowerLimit ∨
        ∃ step, c.powerStepSize = some step ∧ (average < step ∨ step ≤ c.maxPowerLimit)) ∧
      (v < c.maxPowerLimit ↔ average ≤ c.minPowerLimit ∨ ∃ step, c.powerStepSize = some step ∧
        (average < step ∨ step ≤ c.maxPowerLimit ∧ (0 < step.1 ∨ average < c.maxPowerLimit))) := by
  by_cases haverage : average ≤ c.minPowerLimit
  · right
    refine ⟨c.minPowerLimit, calculateNextLowerPowerLimit_of_le haverage, le_refl _, hordered.le,
      Or.inl haverage, iff_of_true hordered (Or.inl haverage)⟩
  · have hgt : c.minPowerLimit < average := not_le.1 haverage
    rw [calculateNextLowerPowerLimit_of_gt hgt]
    cases hstep : c.powerStepSize with
    | none =>
      left
      exact ⟨rfl, hgt, fun step h => by cases h⟩
    | some step =>
      rw [Option.bind_some]
      by_cases hover : step > average
      · right
        rw [if_pos hover]
        exact ⟨c.minPowerLimit, rfl, le_refl _, hordered.le, Or.inr ⟨step, rfl, Or.inl hover⟩,
          iff_of_true hordered (Or.inr ⟨step, rfl, Or.inl hover⟩)⟩
      · rw [if_neg hover]
        by_cases hmax : c.maxPowerLimit < step
        · left
          rw [subPower_of_lt hmax]
          refine ⟨rfl, hgt, ?_⟩
          rintro step' h
          cases h
          exact ⟨not_lt.1 hover, hmax⟩
        · right
          obtain ⟨fromLimit, hfromLimit, hlimit⟩ := subPower_of_le (not_lt.1 hmax)
          obtain ⟨fromPower, hfromPower, hpower⟩ := subPower_of_le (not_lt.1 hover)
          rw [hfromLimit, hfromPower, Option.bind_some, Option.bind_some]
          refine ⟨_, rfl, le_max_left _ _, ?_, Or.inr ⟨step, rfl, Or.inr (not_lt.1 hmax)⟩, ?_⟩
          · refine max_le hordered.le ((min_le_left _ _).trans ?_)
            rw [power_le_iff, hlimit]
            exact Nat.sub_le _ _
          · have hsome : (∃ step', some step = some step' ∧ (average < step' ∨
                step' ≤ c.maxPowerLimit ∧ (0 < step'.1 ∨ average < c.maxPowerLimit))) ↔
                0 < step.1 ∨ average < c.maxPowerLimit := by
              constructor
              · rintro ⟨step', h, hlt | ⟨_, hpos⟩⟩
                · exact absurd (Option.some.inj h ▸ hlt) hover
                · exact Option.some.inj h ▸ hpos
              · exact fun hpos => ⟨step, rfl, Or.inr ⟨not_lt.1 hmax, hpos⟩⟩
            rw [hsome, or_iff_right haverage, power_lt_iff, power_max, power_min, hlimit, hpower,
              power_lt_iff]
            rw [power_lt_iff] at hordered hgt
            rw [gt_iff_lt, power_lt_iff] at hover
            rw [power_lt_iff] at hmax
            omega

theorem nextLimit_cases (h : requests.AllValues c.InRange)
    (hcan : canLimit c requests target = true) : (nextLimit c requests target = none ∧
      c.LimitThrows (getTargetRequest c requests target)) ∨
    ∃ v, nextLimit c requests target = some v ∧
      ¬ c.LimitThrows (getTargetRequest c requests target) ∧
      c.minPowerLimit ≤ v ∧ v ≤ getTargetRequest c requests target ∧
      (v < getTargetRequest c requests target ↔
        c.LimitLowers (getTargetRequest c requests target)) := by
  obtain ⟨-, hmin⟩ := (canLimit_iff target).1 hcan
  obtain ⟨-, hmax⟩ := getTargetRequest_bounds h target
  unfold nextLimit PowerControl.LimitThrows PowerControl.LimitLowers
  simp only
  generalize getTargetRequest c requests target = request at hmin hmax ⊢
  by_cases hfull : request ≥ c.maxPowerLimit
  · -- the first step starts from the average power
    obtain rfl : request = c.maxPowerLimit := le_antisymm hmax hfull
    rw [if_pos hfull, if_pos hfull]
    cases haverage : c.averagePower with
    | none =>
      left
      exact ⟨rfl, hfull, fun average h => by cases h⟩
    | some average =>
      rw [Option.bind_some]
      rcases calculateNextLowerPowerLimit_cases average hmin with
        ⟨hnone, hgt, hstep⟩ | ⟨v, hv, hlow, hhigh, hmoves, hlt⟩
      · left
        refine ⟨hnone, hfull, ?_⟩
        rintro average' heq
        cases heq
        exact ⟨hgt, hstep⟩
      · right
        refine ⟨v, hv, ?_, hlow, hhigh, ?_⟩
        · rintro ⟨-, hthrows⟩
          obtain ⟨hgt, hsteps⟩ := hthrows average rfl
          rcases hmoves with hle | ⟨step, hstep, hmoves⟩
          · exact absurd hgt (not_lt.2 hle)
          · obtain ⟨hle, hlt⟩ := hsteps step hstep
            exact hmoves.elim (not_lt.2 hle) (not_le.2 hlt)
        · rw [hlt]
          constructor
          · exact fun hlowers => ⟨average, rfl, hlowers⟩
          · rintro ⟨average', heq, hlowers⟩
            exact Option.some.inj heq ▸ hlowers
  · -- every other step starts from the request
    right
    rw [if_neg hfull, if_neg hfull]
    have hnumber : (max ((request.1 : Int) - milliwatts c.powerStepSize) c.minPowerLimit.1).toNat =
        max (request.1 - milliwatts c.powerStepSize) c.minPowerLimit.1 := by omega
    rw [power_lt_iff] at hmin
    have hle : max (request.1 - milliwatts c.powerStepSize) c.minPowerLimit.1 ≤ request.1 := by
      omega
    obtain ⟨v, hv, hval⟩ := power_of_le (hle.trans request.2)
    refine ⟨v, by rw [hnumber, hv], fun hthrows => hfull hthrows.1, ?_, ?_, ?_⟩
    · rw [power_le_iff, hval]
      exact le_max_right _ _
    · rw [power_le_iff, hval]
      exact hle
    · rw [power_lt_iff, hval]
      cases hstep : c.powerStepSize with
      | none =>
        refine iff_of_false ?_ (by simp)
        show ¬ max (request.1 - 0) c.minPowerLimit.1 < request.1
        omega
      | some step =>
        have hsome : (∃ step', some step = some step' ∧ 0 < step'.1) ↔ 0 < step.1 :=
          ⟨fun ⟨step', heq, hpos⟩ => Option.some.inj heq ▸ hpos, fun hpos => ⟨step, rfl, hpos⟩⟩
        rw [hsome]
        show max (request.1 - step.1) c.minPowerLimit.1 < request.1 ↔ _
        omega

/-- What `unlimit` requests next. -/
theorem nextUnlimit_eq_some_iff (target : Nat) (v : Power) :
    nextUnlimit c requests target = some v ↔ ∃ step, c.powerStepSize = some step ∧
      (getTargetRequest c requests target).1 + step.1 ≤ 10000000 ∧
      v.1 = min ((getTargetRequest c requests target).1 + step.1) c.maxPowerLimit.1 := by
  rw [nextUnlimit]
  cases hstep : c.powerStepSize with
  | none => simp
  | some step =>
    rw [Option.bind_some, addPower]
    have hsome : (∃ step', some step = some step' ∧
        (getTargetRequest c requests target).1 + step'.1 ≤ 10000000 ∧
        v.1 = min ((getTargetRequest c requests target).1 + step'.1) c.maxPowerLimit.1) ↔
        (getTargetRequest c requests target).1 + step.1 ≤ 10000000 ∧
        v.1 = min ((getTargetRequest c requests target).1 + step.1) c.maxPowerLimit.1 :=
      ⟨fun ⟨step', heq, hv⟩ => Option.some.inj heq ▸ hv, fun hv => ⟨step, rfl, hv⟩⟩
    rw [hsome]
    by_cases hle : (getTargetRequest c requests target).1 + step.1 ≤ 10000000
    · obtain ⟨next, hnext, hval⟩ := power_of_le hle
      rw [hnext, Option.map_some, and_iff_right hle, ← hval, ← power_min, Option.some.injEq]
      exact ⟨fun heq => congrArg Subtype.val heq.symm, fun heq => (Subtype.ext heq).symm⟩
    · rw [power, dif_neg hle]
      exact iff_of_false (by simp) fun hv => hle hv.1

/-- Steps that lead to the maximum start with one that leads above the request. -/
theorem exists_nextUnlimit (hlt : getTargetRequest c requests target < c.maxPowerLimit)
    (hrises : c.UnlimitRises (getTargetRequest c requests target)) :
    ∃ v, nextUnlimit c requests target = some v ∧ getTargetRequest c requests target < v := by
  obtain ⟨step, hstep, n, hreach, hstay⟩ := hrises
  rw [power_lt_iff] at hlt
  cases n with
  | zero => omega
  | succ n =>
    rw [Nat.succ_mul] at hreach hstay
    have hpos : 0 < step.1 := by
      by_contra hzero
      rw [Nat.eq_zero_of_not_pos hzero] at hreach
      omega
    have hmin : min ((getTargetRequest c requests target).1 + step.1) c.maxPowerLimit.1 ≤
        10000000 := (min_le_right _ _).trans c.maxPowerLimit.2
    obtain ⟨v, -, hv⟩ := power_of_le hmin
    refine ⟨v, (nextUnlimit_eq_some_iff target v).2 ⟨step, hstep, by omega, hv⟩, ?_⟩
    rw [power_lt_iff, hv]
    omega

/-- A step leaves it as it is whether steps lead to the maximum. -/
theorem unlimitRises_iff {v : Power} (hlt : getTargetRequest c requests target < c.maxPowerLimit)
    (hnext : nextUnlimit c requests target = some v) :
    c.UnlimitRises (getTargetRequest c requests target) ↔
      (v < c.maxPowerLimit → c.UnlimitRises v) := by
  obtain ⟨step, hstep, hstay, hv⟩ := (nextUnlimit_eq_some_iff target v).1 hnext
  rw [power_lt_iff] at hlt ⊢
  constructor
  · rintro ⟨step', hstep', n, hreach, hn⟩ hmax
    obtain rfl := Option.some.inj (hstep.symm.trans hstep')
    cases n with
    | zero => omega
    | succ n =>
      rw [Nat.succ_mul] at hreach hn
      exact ⟨step, hstep, n, by omega, by omega⟩
  · intro hrises
    by_cases hmax : v.1 < c.maxPowerLimit.1
    · obtain ⟨step', hstep', n, hreach, hn⟩ := hrises hmax
      obtain rfl := Option.some.inj (hstep.symm.trans hstep')
      refine ⟨step, hstep, n + 1, ?_, ?_⟩
      · rw [Nat.succ_mul]
        omega
      · rw [Nat.succ_mul]
        omega
    · refine ⟨step, hstep, 1, ?_, ?_⟩
      · rw [Nat.one_mul]
        omega
      · rwa [Nat.one_mul]

end PowerControlKnob

/-! ## Performance -/

namespace PerformanceControl

variable (c : PerformanceControl)

/-- A request that the capabilities allow. -/
def InRange (request : Nat) : Prop :=
  c.supportsPerformanceControls = true ∧ c.currentUpperLimitIndex ≤ request ∧
    request ≤ c.currentLowerLimitIndex

end PerformanceControl

namespace PerformanceControlKnob

variable {c : PerformanceControl} {requests : KeyMap Nat Nat}
variable {target : Nat} {controlType : PerformanceControlType}

theorem getTargetRequest_assign (target v : Nat) :
    getTargetRequest c (requests.assign target v) target = v := by
  rw [getTargetRequest, KeyMap.find_assign, if_pos rfl]

theorem getTargetRequest_bounds (h : requests.AllValues c.InRange) (target : Nat) :
    c.currentUpperLimitIndex ≤ getTargetRequest c requests target ∧
      getTargetRequest c requests target ≤ c.currentLowerLimitIndex := by
  rw [getTargetRequest]
  cases hfind : requests.find target with
  | none => exact ⟨le_refl _, c.ordered⟩
  | some request => exact (h target request hfind).2

/-- A knob that can limit requests the next index. -/
theorem limit_of_canLimit (h : requests.AllValues c.InRange)
    (hcan : canLimit c requests controlType target = true) :
    limit c requests controlType target =
        requests.assign target (getTargetRequest c requests target + 1) ∧
      c.InRange (getTargetRequest c requests target + 1) := by
  have hupper := (getTargetRequest_bounds h target).1
  have hcurrent : max (getTargetRequest c requests target) c.currentUpperLimitIndex =
      getTargetRequest c requests target := max_eq_left hupper
  have hlower : c.supportsPerformanceControls = true ∧
      getTargetRequest c requests target < c.currentLowerLimitIndex := by
    unfold canLimit at hcan
    by_cases hsupports : c.supportsPerformanceControls = true
    · rw [if_pos hsupports] at hcan
      simp only [hcurrent] at hcan
      by_cases hlower : getTargetRequest c requests target ≥ c.currentLowerLimitIndex
      · rw [if_pos hlower] at hcan
        cases hcan
      · exact ⟨hsupports, not_le.1 hlower⟩
    · rw [if_neg hsupports] at hcan
      cases hcan
  refine ⟨?_, hlower.1, hupper.trans (Nat.le_succ _), hlower.2⟩
  rw [limit, if_pos hcan]
  simp only [hcurrent]
  rw [min_eq_left hlower.2]

/-- A knob that can unlimit requests the index before. -/
theorem unlimit_of_canUnlimit (h : requests.AllValues c.InRange)
    (hcan : canUnlimit c requests controlType target = true) :
    unlimit c requests controlType target =
        requests.assign target (getTargetRequest c requests target - 1) ∧
      c.InRange (getTargetRequest c requests target - 1) ∧
      c.currentUpperLimitIndex < getTargetRequest c requests target := by
  have hlower := (getTargetRequest_bounds h target).2
  have hcurrent : min (getTargetRequest c requests target) c.currentLowerLimitIndex =
      getTargetRequest c requests target := min_eq_left hlower
  have hupper : c.supportsPerformanceControls = true ∧
      c.currentUpperLimitIndex < getTargetRequest c requests target := by
    unfold canUnlimit at hcan
    by_cases hsupports : c.supportsPerformanceControls = true
    · rw [if_pos hsupports] at hcan
      simp only [hcurrent] at hcan
      by_cases hupper : getTargetRequest c requests target ≤ c.currentUpperLimitIndex
      · rw [if_pos hupper] at hcan
        cases hcan
      · exact ⟨hsupports, not_le.1 hupper⟩
    · rw [if_neg hsupports] at hcan
      cases hcan
  refine ⟨?_, ⟨hupper.1, Nat.le_sub_one_of_lt hupper.2, (Nat.sub_le _ _).trans hlower⟩, hupper.2⟩
  rw [unlimit, if_pos hcan]
  simp only [hcurrent]
  rw [max_eq_left (Nat.le_sub_one_of_lt hupper.2)]

theorem supports_of_limited (h : requests.AllValues c.InRange)
    (hlimited : c.currentUpperLimitIndex < getTargetRequest c requests target) :
    c.supportsPerformanceControls = true := by
  cases hfind : requests.find target with
  | none =>
    rw [getTargetRequest, hfind] at hlimited
    exact absurd hlimited (lt_irrefl _)
  | some request => exact (h target request hfind).1

/-- A request that is limited is unlimited by the knob for the control before it. -/
theorem canUnlimit_of_limited (h : requests.AllValues c.InRange)
    (hlimited : c.currentUpperLimitIndex < getTargetRequest c requests target)
    (htype : c.controls[getTargetRequest c requests target - 1]? = some controlType) :
    canUnlimit c requests controlType target = true := by
  have hlower := (getTargetRequest_bounds h target).2
  unfold canUnlimit
  rw [if_pos (supports_of_limited h hlimited)]
  simp only [min_eq_left hlower]
  rw [if_neg (not_le.2 hlimited), htype]
  exact decide_eq_true rfl

end PerformanceControlKnob

/-! ## Cores -/

namespace CoreControl

variable (c : CoreControl)

/-- A request that the capabilities allow. -/
def InRange (request : Nat) : Prop :=
  c.supportsCoreControls = true ∧ c.minActiveCores ≤ request ∧ request ≤ c.maxActiveCores

/-- The step is more than none of the cores. -/
def Steps : Prop :=
  ∃ stepSize : Percentage, c.stepSize = some stepSize ∧
    (0 : ℚ) < Rat.mul stepSize c.totalLogicalProcessors

end CoreControl

namespace CoreControlKnob

variable {c : CoreControl} {requests : KeyMap Nat Nat}
variable {target : Nat} {performance : PerformanceControl} {performanceRequests : KeyMap Nat Nat}

theorem getTargetRequest_assign (target v : Nat) :
    getTargetRequest c (requests.assign target v) target = v := by
  rw [getTargetRequest, KeyMap.find_assign, if_pos rfl]

theorem getTargetRequest_bounds (h : requests.AllValues c.InRange) (target : Nat) :
    c.minActiveCores ≤ getTargetRequest c requests target ∧
      getTargetRequest c requests target ≤ c.maxActiveCores := by
  rw [getTargetRequest]
  cases hfind : requests.find target with
  | none => exact ⟨c.ordered, le_refl _⟩
  | some request => exact (h target request hfind).2

theorem calculateStepAmount_pos_iff (stepSize : Percentage) (totalAvailableCores : Nat) :
    0 < calculateStepAmount stepSize totalAvailableCores ↔
      (0 : ℚ) < Rat.mul stepSize totalAvailableCores := by
  rw [calculateStepAmount, Int.lt_toNat, ← roundDouble_pos_iff]
  exact Rat.lt_ceil_iff

theorem stepAmount_eq_none_iff : stepAmount c = none ↔ c.stepSize = none :=
  Option.map_eq_none_iff

theorem stepAmount_pos_iff {amount : Nat} (h : stepAmount c = some amount) :
    0 < amount ↔ c.Steps := by
  obtain ⟨stepSize, hstep, rfl⟩ := Option.map_eq_some_iff.1 h
  rw [calculateStepAmount_pos_iff, CoreControl.Steps, hstep]
  exact ⟨fun hpos => ⟨stepSize, rfl, hpos⟩,
    fun ⟨stepSize', heq, hpos⟩ => Option.some.inj heq ▸ hpos⟩

theorem stepAmount_ne_none (h : c.Steps) : stepAmount c ≠ none := by
  obtain ⟨stepSize, hstep, -⟩ := h
  rw [Ne, stepAmount_eq_none_iff, hstep]
  simp

theorem canUnlimit_iff (target : Nat) :
    canUnlimit c requests target = true ↔ c.supportsCoreControls = true ∧
      getTargetRequest c requests target < c.maxActiveCores := by
  unfold canUnlimit
  split_ifs with h
  · refine iff_of_false (by simp) fun hboth => ?_
    have hlpo : c.isLpoEnabled = true := (Bool.and_eq_true_iff.1 hboth.1).2
    rcases h with h | h
    · exact absurd (hboth.1.symm.trans h) (by simp)
    · exact absurd (hlpo.symm.trans h) (by simp)
  · rw [not_or] at h
    rw [decide_eq_true_iff]
    exact ⟨fun hlt => ⟨eq_true_of_ne_false h.1, hlt⟩, And.right⟩

theorem canUnlimit_of_limited (h : requests.AllValues c.InRange)
    (hlimited : getTargetRequest c requests target < c.maxActiveCores) :
    canUnlimit c requests target = true := by
  refine (canUnlimit_iff target).2 ⟨?_, hlimited⟩
  cases hfind : requests.find target with
  | none =>
    rw [getTargetRequest, hfind] at hlimited
    exact absurd hlimited (lt_irrefl _)
  | some request => exact (h target request hfind).1

/-- A knob that can limit is supported and above the minimum. -/
theorem lt_of_canLimit (hcan : canLimit c requests performance performanceRequests target = true) :
    c.supportsCoreControls = true ∧ c.minActiveCores < getTargetRequest c requests target := by
  unfold canLimit at hcan
  split_ifs at hcan with h
  all_goals
    rw [not_or] at h
    simp only [Bool.and_eq_true, decide_eq_true_iff] at hcan
    exact ⟨eq_true_of_ne_false h.1, hcan.2⟩

/-- What a knob that can limit requests. -/
theorem limit_of_canLimit (hcan : canLimit c requests performance performanceRequests target = true)
    :
    limit c requests performance performanceRequests target =
      (stepAmount c).map fun amount => requests.assign target
        (max (getTargetRequest c requests target - amount) c.minActiveCores) := by
  rw [limit, if_pos hcan]
  cases stepAmount c with
  | none => rfl
  | some amount =>
    have hnumber : (max ((getTargetRequest c requests target : Int) - amount)
        c.minActiveCores).toNat =
        max (getTargetRequest c requests target - amount) c.minActiveCores := by omega
    rw [Option.map_some, Option.map_some, hnumber]

/-- What a knob that can unlimit requests. -/
theorem unlimit_of_canUnlimit (hcan : canUnlimit c requests target = true) :
    unlimit c requests target = (stepAmount c).map fun amount => requests.assign target
      (min (getTargetRequest c requests target + amount) c.maxActiveCores) := by
  rw [unlimit, if_pos hcan]

end CoreControlKnob

end Passive

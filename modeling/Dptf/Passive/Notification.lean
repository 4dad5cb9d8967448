import Dptf.Thermal.SpecificInfo
import Mathlib.Tactic.Ring

/-!
# The window around a passive trip point

`PassivePolicy::setParticipantTemperatureThresholdNotification`: above the passive trip point a
participant is to report when its temperature leaves a window of the width it asks for, which a
loop finds from the trip point on, step by step.

* `raiseLowerBound_ends_iff` — **the loop comes to an end just if the step is not zero**.
* `findsWindow_iff` — when the window is found.
-/

open Lib

namespace Thermal

namespace Temperature

/-- `CELSIUS_TO_TENTH_KELVIN`. -/
def celsiusToTenthKelvin : Nat := 2732

/-- `Temperature(temperatureInTenthKelvin)`; `none` is the exception. -/
def ofTenthKelvin (temperatureInTenthKelvin : Nat) : Option Temperature :=
  if h : minValidTemperature ≤ temperatureInTenthKelvin ∧
      temperatureInTenthKelvin ≤ maxValidTemperature ∨ temperatureInTenthKelvin = maxUInt32 then
    some ⟨temperatureInTenthKelvin, h⟩
  else none

/-- `operator+`, in 32 bits; `none` is the exception. -/
def add (a b : Temperature) : Option Temperature :=
  let thisTemperature := if a.1 = maxUInt32 then 0 else a.1
  let rhsTemperature := if b.1 = maxUInt32 then 0 else b.1
  if thisTemperature = 0 ∨ rhsTemperature = 0 then
    ofTenthKelvin ((thisTemperature + rhsTemperature) % 2 ^ 32)
  else
    ofTenthKelvin ((thisTemperature + rhsTemperature + 2 ^ 32 - celsiusToTenthKelvin) % 2 ^ 32)

/-- The step that is added, in tenths of a degree. -/
def step (t : Temperature) : Int := (t.1 : Int) - celsiusToTenthKelvin

theorem ofTenthKelvin_eq_some_iff {n : Nat} {t : Temperature} :
    ofTenthKelvin n = some t ↔ t.1 = n := by
  constructor
  · intro h
    unfold ofTenthKelvin at h
    split at h
    · exact congrArg Subtype.val (Option.some.inj h).symm
    · cases h
  · rintro rfl
    exact dif_pos t.2

/-- A sum of readings is that of the numbers above 0 °C, or there is none. -/
theorem add_eq_some_iff {a b : Temperature} (ha : a.IsReading) (hb : b.IsReading)
    (c : Temperature) : a.add b = some c ↔ (c.1 : Int) = a.1 + b.step ∧ c.IsReading := by
  obtain ⟨hminA, hmaxA⟩ := ha.range
  obtain ⟨hminB, hmaxB⟩ := hb.range
  simp only [minValidTemperature, maxValidTemperature] at hminA hmaxA hminB hmaxB
  have hplainA : a.1 ≠ maxUInt32 := by
    unfold maxUInt32
    omega
  have hplainB : b.1 ≠ maxUInt32 := by
    unfold maxUInt32
    omega
  have hneither : ¬(a.1 = 0 ∨ b.1 = 0) := by omega
  have hsum : (a.1 + b.1 + 2 ^ 32 - celsiusToTenthKelvin) % 2 ^ 32 = a.1 + b.1 - 2732 := by
    unfold celsiusToTenthKelvin
    omega
  simp only [add, if_neg hplainA, if_neg hplainB, if_neg hneither, hsum]
  rw [ofTenthKelvin_eq_some_iff, step, celsiusToTenthKelvin]
  constructor
  · intro hc
    refine ⟨by omega, ?_⟩
    rintro rfl
    simp only [unsupported, maxUInt32] at hc
    omega
  · rintro ⟨hc, -⟩
    omega

/-- There is one as long as it is not too high. -/
theorem exists_add {a b : Temperature} (ha : a.IsReading) (hb : b.IsReading) (hpos : 0 ≤ b.step)
    (hmax : a.1 + b.step ≤ maxValidTemperature) :
    ∃ c, a.add b = some c ∧ (c.1 : Int) = a.1 + b.step ∧ c.IsReading := by
  obtain ⟨hmin, -⟩ := ha.range
  obtain ⟨n, hn⟩ : ∃ n : Nat, (n : Int) = a.1 + b.step := ⟨_, Int.toNat_of_nonneg (by omega)⟩
  have hvalid : minValidTemperature ≤ n ∧ n ≤ maxValidTemperature := by omega
  have hread : IsReading ⟨n, Or.inl hvalid⟩ := by
    intro heq
    have hvalue : n = maxUInt32 := congrArg Subtype.val heq
    simp only [hvalue, maxValidTemperature, maxUInt32] at hvalid
    omega
  exact ⟨⟨n, Or.inl hvalid⟩, (add_eq_some_iff ha hb _).2 ⟨hn, hread⟩, hn, hread⟩

end Temperature

end Thermal

namespace Passive

open Thermal

/-- The bounds that are set; `none` is an invalid temperature. -/
abbrev Bounds := Option Temperature × Option Temperature

/-- The loop, for at most so many turns: the lower bound, or the exception of `operator+`. -/
def raiseLowerBound (ntt currentTemperature : Temperature) :
    Nat → Temperature → Option (Except Unit Temperature)
  | 0, _ => none
  | turns + 1, lowerBoundTemperature =>
    match lowerBoundTemperature.add ntt with
    | none => some (.error ())
    | some sum =>
      if sum ≤ currentTemperature then raiseLowerBound ntt currentTemperature turns sum
      else some (.ok lowerBoundTemperature)

/-- `setParticipantTemperatureThresholdNotification` up to the call of `setTemperatureThresholds`
with the bounds. -/
def setParticipantTemperatureThresholdNotification (turns : Nat) (passiveTripPoints : SpecificInfo)
    (currentTemperature : Option Temperature) : Option (Except Unit Bounds) :=
  match passiveTripPoints.specificInfo.find .psv, currentTemperature with
  | some psv, some currentTemperature =>
    if psv ≤ currentTemperature then
      match passiveTripPoints.specificInfo.find .ntt with
      | some ntt =>
        if ntt ≠ Temperature.unsupported then do
          match ← raiseLowerBound ntt currentTemperature turns psv with
          | .error e => some (.error e)
          | .ok lowerBoundTemperature =>
            match lowerBoundTemperature.add ntt with
            | none => some (.error ())
            | some upperBoundTemperature =>
              some (.ok (some lowerBoundTemperature, some upperBoundTemperature))
        else some (.ok (some psv, none))
      | none => some (.ok (some psv, none))
    else some (.ok (none, some psv))
  | _, _ => some (.error ())

/-! ## The loop -/

section Loop

variable {ntt currentTemperature lower : Temperature}

theorem raiseLowerBound_of_none {turns : Nat} (h : lower.add ntt = none) :
    raiseLowerBound ntt currentTemperature (turns + 1) lower = some (.error ()) := by
  rw [raiseLowerBound, h]

theorem raiseLowerBound_of_some {turns : Nat} {sum : Temperature} (h : lower.add ntt = some sum) :
    raiseLowerBound ntt currentTemperature (turns + 1) lower =
      if sum ≤ currentTemperature then raiseLowerBound ntt currentTemperature turns sum
      else some (.ok lower) := by
  rw [raiseLowerBound, h]

/-- **The loop goes up step by step**, to the last one that is not above the temperature. -/
theorem raiseLowerBound_reaches (hntt : ntt.IsReading) {n : Nat} (hlower : lower.IsReading)
    (hbelow : lower.1 + n * ntt.step ≤ currentTemperature.1)
    (habove : currentTemperature.1 < lower.1 + (n + 1) * ntt.step)
    (hrange : lower.1 + (n + 1) * ntt.step ≤ maxValidTemperature) :
    ∃ last : Temperature, last.IsReading ∧ (last.1 : Int) = lower.1 + n * ntt.step ∧
      raiseLowerBound ntt currentTemperature (n + 1) lower = some (.ok last) := by
  have hpos : 0 < ntt.step := by
    have hstep : (lower.1 : Int) + (n + 1) * ntt.step = lower.1 + n * ntt.step + ntt.step := by ring
    omega
  induction n generalizing lower with
  | zero =>
    simp only [Nat.cast_zero, zero_add, one_mul, zero_mul, add_zero] at habove hrange ⊢
    obtain ⟨sum, hsum, hvalue, -⟩ := Temperature.exists_add hlower hntt hpos.le hrange
    refine ⟨lower, hlower, rfl, ?_⟩
    rw [raiseLowerBound_of_some hsum, if_neg]
    rw [Temperature.le_iff]
    omega
  | succ n ih =>
    have hnext : ∀ x : Int, x + ((n + 1 : Nat) : Int) * ntt.step = x + ntt.step + n * ntt.step := by
      intro x
      push_cast
      ring
    have hlast : ∀ x : Int, x + (((n + 1 : Nat) : Int) + 1) * ntt.step =
        x + ntt.step + (n + 1) * ntt.step := by
      intro x
      push_cast
      ring
    rw [hnext] at hbelow
    rw [hlast] at habove hrange
    have hnonneg : 0 ≤ (n : Int) * ntt.step := Int.mul_nonneg (Int.natCast_nonneg n) hpos.le
    have hlater : (n + 1 : Int) * ntt.step = n * ntt.step + ntt.step := by ring
    obtain ⟨sum, hsum, hvalue, hread⟩ :=
      Temperature.exists_add hlower hntt hpos.le (by omega)
    rw [← hvalue] at hbelow habove hrange
    obtain ⟨last, hlastRead, hlastValue, hloop⟩ := ih hread hbelow habove hrange
    refine ⟨last, hlastRead, ?_, ?_⟩
    · rw [hlastValue, hnext, hvalue]
    · rw [raiseLowerBound_of_some hsum, if_pos, hloop]
      rw [Temperature.le_iff]
      omega

/-- A step of zero is taken for ever. -/
theorem raiseLowerBound_never_ends (hntt : ntt.IsReading) (hzero : ntt.step = 0)
    (hlower : lower.IsReading) (hle : lower ≤ currentTemperature) (turns : Nat) :
    raiseLowerBound ntt currentTemperature turns lower = none := by
  induction turns with
  | zero => rfl
  | succ turns ih =>
    have hsum : lower.add ntt = some lower :=
      (Temperature.add_eq_some_iff hlower hntt lower).2 ⟨by omega, hlower⟩
    rw [raiseLowerBound_of_some hsum, if_pos hle, ih]

/-- The loop ends where each turn makes a number smaller. -/
theorem raiseLowerBound_ends (measure : Temperature → Nat)
    (hturn : ∀ lower sum, lower.IsReading → lower.add ntt = some sum → sum ≤ currentTemperature →
      sum.IsReading ∧ measure sum < measure lower)
    (hlower : lower.IsReading) {turns : Nat} (hturns : measure lower < turns) :
    ∃ r, raiseLowerBound ntt currentTemperature turns lower = some r := by
  induction turns generalizing lower with
  | zero => omega
  | succ turns ih =>
    cases hsum : lower.add ntt with
    | none => exact ⟨_, raiseLowerBound_of_none hsum⟩
    | some sum =>
      rw [raiseLowerBound_of_some hsum]
      split
      · rename_i hle
        obtain ⟨hread, hlt⟩ := hturn lower sum hlower hsum hle
        exact ih hread (by omega)
      · exact ⟨_, rfl⟩

/-- **The loop comes to an end just if the step is not zero.** -/
theorem raiseLowerBound_ends_iff (hntt : ntt.IsReading) (hlower : lower.IsReading)
    (hle : lower ≤ currentTemperature) :
    (∃ turns r, raiseLowerBound ntt currentTemperature turns lower = some r) ↔ ntt.step ≠ 0 := by
  constructor
  · rintro ⟨turns, r, hr⟩ hzero
    rw [raiseLowerBound_never_ends hntt hzero hlower hle] at hr
    cases hr
  · intro hstep
    rcases lt_or_gt_of_ne hstep with hdown | hup
    · -- a step down comes too low
      refine ⟨_, raiseLowerBound_ends (fun t => t.1) ?_ hlower (Nat.lt_succ_self _)⟩
      intro lower sum hlower hsum _
      obtain ⟨hvalue, hread⟩ := (Temperature.add_eq_some_iff hlower hntt sum).1 hsum
      exact ⟨hread, (by omega : sum.1 < lower.1)⟩
    · -- a step up comes above the temperature, or too high
      refine ⟨_, raiseLowerBound_ends (fun t => currentTemperature.1 + 1 - t.1) ?_ hlower
        (Nat.lt_succ_self _)⟩
      intro lower sum hlower hsum hle
      obtain ⟨hvalue, hread⟩ := (Temperature.add_eq_some_iff hlower hntt sum).1 hsum
      rw [Temperature.le_iff] at hle
      exact ⟨hread, (by omega :
        currentTemperature.1 + 1 - sum.1 < currentTemperature.1 + 1 - lower.1)⟩

end Loop

/-! ## The window -/

/-- The call comes to an end, and at or above the trip point it sets the window of the step that
the temperature is in. -/
structure FindsWindow (passiveTripPoints : SpecificInfo)
    (psv ntt currentTemperature : Temperature) : Prop where
  terminates : ∃ turns r, setParticipantTemperatureThresholdNotification turns passiveTripPoints
    (some currentTemperature) = some r
  window : psv ≤ currentTemperature → ∃ turns lower upper, ∃ k : Nat,
    setParticipantTemperatureThresholdNotification turns passiveTripPoints
      (some currentTemperature) = some (.ok (some lower, some upper)) ∧
    lower ≤ currentTemperature ∧ currentTemperature < upper ∧
    (lower.1 : Int) = psv.1 + k * ntt.step ∧ (upper.1 : Int) = psv.1 + (k + 1) * ntt.step

section Window

variable {passiveTripPoints : SpecificInfo} {psv ntt currentTemperature : Temperature}

/-- Below the trip point there is no loop. -/
theorem notification_of_lt (hpsv : passiveTripPoints.specificInfo.find .psv = some psv)
    (hlt : currentTemperature < psv) (turns : Nat) :
    setParticipantTemperatureThresholdNotification turns passiveTripPoints
      (some currentTemperature) = some (.ok (none, some psv)) := by
  simp only [setParticipantTemperatureThresholdNotification, hpsv]
  rw [if_neg (not_le.2 hlt)]

/-- What the loop finds is set. -/
theorem notification_of_ok (hpsv : passiveTripPoints.specificInfo.find .psv = some psv)
    (hntt : passiveTripPoints.specificInfo.find .ntt = some ntt) (hread : ntt.IsReading)
    (hle : psv ≤ currentTemperature) {turns : Nat} {lower upper : Temperature}
    (hloop : raiseLowerBound ntt currentTemperature turns psv = some (.ok lower))
    (hupper : lower.add ntt = some upper) :
    setParticipantTemperatureThresholdNotification turns passiveTripPoints
      (some currentTemperature) = some (.ok (some lower, some upper)) := by
  have hsupported : ntt ≠ Temperature.unsupported := hread
  simp only [setParticipantTemperatureThresholdNotification, hpsv, hntt]
  rw [if_pos hle, if_pos hsupported, hloop]
  simp [hupper]

/-- Without an end of the loop there is no call. -/
theorem notification_of_none (hpsv : passiveTripPoints.specificInfo.find .psv = some psv)
    (hntt : passiveTripPoints.specificInfo.find .ntt = some ntt) (hread : ntt.IsReading)
    (hle : psv ≤ currentTemperature) {turns : Nat}
    (hloop : raiseLowerBound ntt currentTemperature turns psv = none) :
    setParticipantTemperatureThresholdNotification turns passiveTripPoints
      (some currentTemperature) = none := by
  have hsupported : ntt ≠ Temperature.unsupported := hread
  simp only [setParticipantTemperatureThresholdNotification, hpsv, hntt]
  rw [if_pos hle, if_pos hsupported, hloop]
  rfl

/-- A window has a width, and its upper bound is a temperature. -/
theorem FindsWindow.step_pos (h : FindsWindow passiveTripPoints psv ntt currentTemperature)
    (hcurrent : currentTemperature.IsReading) (hntt : ntt.IsReading)
    (hle : psv ≤ currentTemperature) :
    0 < ntt.step ∧ psv.1 + (((currentTemperature.1 : Int) - psv.1) / ntt.step + 1) * ntt.step ≤
        maxValidTemperature := by
  obtain ⟨turns, lower, upper, k, -, hlow, hhigh, hlower, hupper⟩ := h.window hle
  rw [Temperature.le_iff] at hlow
  rw [Temperature.lt_iff] at hhigh
  have hwidth : (psv.1 : Int) + (k + 1) * ntt.step = psv.1 + k * ntt.step + ntt.step := by ring
  have hpos : 0 < ntt.step := by omega
  have hquotient : ((currentTemperature.1 : Int) - psv.1) / ntt.step = k := by
    have hfloor : (k : Int) ≤ (currentTemperature.1 - psv.1) / ntt.step :=
      (Int.le_ediv_iff_mul_le hpos).2 (by omega)
    have hceil : ((currentTemperature.1 : Int) - psv.1) / ntt.step < k + 1 :=
      Int.ediv_lt_of_lt_mul hpos (by omega)
    omega
  refine ⟨hpos, ?_⟩
  rw [hquotient, ← hupper]
  have hcurrentMax := hcurrent.range.2
  have hnttMax := hntt.range.2
  have hvalid := upper.2
  simp only [Temperature.step, Temperature.celsiusToTenthKelvin, minValidTemperature,
    maxValidTemperature, maxUInt32] at *
  omega

/-- **The window is found just if the step is up** and the first step above the temperature is
not too high. -/
theorem findsWindow_iff (hpsv : passiveTripPoints.specificInfo.find .psv = some psv)
    (hntt : passiveTripPoints.specificInfo.find .ntt = some ntt) (hpsvRead : psv.IsReading)
    (hnttRead : ntt.IsReading) (hcurrent : currentTemperature.IsReading) :
    FindsWindow passiveTripPoints psv ntt currentTemperature ↔
      (psv ≤ currentTemperature → 0 < ntt.step ∧
        psv.1 + (((currentTemperature.1 : Int) - psv.1) / ntt.step + 1) * ntt.step ≤
          maxValidTemperature) := by
  constructor
  · intro h hle
    exact h.step_pos hcurrent hnttRead hle
  · intro h
    by_cases hle : psv ≤ currentTemperature
    · obtain ⟨hpos, hrange⟩ := h hle
      rw [Temperature.le_iff] at hle
      obtain ⟨k, hk⟩ : ∃ k : Nat, (k : Int) = (currentTemperature.1 - psv.1) / ntt.step :=
        ⟨_, Int.toNat_of_nonneg (Int.ediv_nonneg (by omega) hpos.le)⟩
      rw [← hk] at hrange
      have hbelow : (psv.1 : Int) + k * ntt.step ≤ currentTemperature.1 := by
        have hfloor := Int.ediv_mul_le ((currentTemperature.1 : Int) - psv.1) hpos.ne'
        rw [← hk] at hfloor
        omega
      have habove : (currentTemperature.1 : Int) < psv.1 + (k + 1) * ntt.step := by
        have hceil := Int.lt_ediv_add_one_mul_self ((currentTemperature.1 : Int) - psv.1) hpos
        rw [← hk] at hceil
        omega
      obtain ⟨lower, hlowerRead, hlower, hloop⟩ :=
        raiseLowerBound_reaches hnttRead hpsvRead hbelow habove hrange
      have hwidth : (psv.1 : Int) + (k + 1) * ntt.step = psv.1 + k * ntt.step + ntt.step := by ring
      obtain ⟨upper, hsum, hupper, -⟩ :=
        Temperature.exists_add hlowerRead hnttRead hpos.le (by omega)
      have hset := notification_of_ok hpsv hntt hnttRead hle hloop hsum
      refine ⟨⟨_, _, hset⟩, fun _ => ⟨_, lower, upper, k, hset, ?_, ?_, hlower, ?_⟩⟩
      · rw [Temperature.le_iff]
        omega
      · rw [Temperature.lt_iff]
        omega
      · omega
    · exact ⟨⟨0, _, notification_of_lt hpsv (not_le.1 hle) 0⟩, fun hge => absurd hge hle⟩

end Window

/-- 50 °C. -/
def fiftyDegrees : Temperature := ⟨3232, Temperature.valid_fifty⟩

/-- 56.8 °C. -/
def aboveFifty : Temperature := ⟨3300, by decide⟩

/-- 5 °C. -/
def fiveDegrees : Temperature := ⟨2782, by decide⟩

/-- The loop with a step of 5 degrees. -/
theorem raiseLowerBound_ends_fiveDegrees :
    ∃ turns r, raiseLowerBound fiveDegrees aboveFifty turns fiftyDegrees = some r :=
  (raiseLowerBound_ends_iff (by decide) (by decide) (by decide)).mpr (by decide)

/-- 0 °C. -/
def zeroDegrees : Temperature := ⟨2732, by decide⟩

/-- A participant with a passive trip point of 50 °C and a step. -/
def withStep (ntt : Temperature) : SpecificInfo :=
  SpecificInfo.ofMap ((KeyMap.empty.assign .psv fiftyDegrees).assign .ntt ntt)

/-- A step of 5 degrees. -/
theorem findsWindow_fiveDegrees :
    FindsWindow (withStep fiveDegrees) fiftyDegrees fiveDegrees aboveFifty := by
  refine (findsWindow_iff rfl rfl ?_ ?_ ?_).2 fun _ => ?_
  · decide
  · decide
  · decide
  · decide

/-- **A step of 0 °C**: the loop never ends. -/
theorem zeroDegrees_not_findsWindow :
    (∀ turns, setParticipantTemperatureThresholdNotification turns (withStep zeroDegrees)
      (some aboveFifty) = none) ∧
    ¬FindsWindow (withStep zeroDegrees) fiftyDegrees zeroDegrees aboveFifty := by
  have hnever : ∀ turns, setParticipantTemperatureThresholdNotification turns
      (withStep zeroDegrees) (some aboveFifty) = none := by
    intro turns
    have hloop := @raiseLowerBound_never_ends zeroDegrees aboveFifty fiftyDegrees (by decide) rfl
      (by decide) (by decide) turns
    exact notification_of_none rfl rfl (by decide) (by decide) hloop
  refine ⟨hnever, fun h => ?_⟩
  obtain ⟨turns, r, hr⟩ := h.terminates
  rw [hnever turns] at hr
  cases hr

end Passive

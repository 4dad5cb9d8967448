import Mathlib.Tactic.Cases
import Dptf.Common.Types
import Mathlib.Algebra.Group.Int.Defs
import Mathlib.Algebra.Group.Nat.Defs

/-!
# Conversion of powers, times and percentages

`esif_power.h`, `esif_time.h` and `esif_percent.h`.  All three scale up in 64 bits before they
scale down.  A time or a percentage that does not fit 32 bits then is refused; a power is cut.
-/

namespace Cm

/-! ## Power -/

/-- `enum esif_power_unit_type`, and any other number. -/
inductive PowerType
  | w | deciW | centiW | milliW | microW | other
deriving DecidableEq, Repr

/-- The factors of both `switch` statements of `esif_convert_power`. -/
def PowerType.perWatt : PowerType → Option UInt64
  | .microW => some 1000000
  | .milliW => some 1000
  | .centiW => some 100
  | .deciW => some 10
  | .w => some 1
  | .other => none

/-- `esif_convert_power`: the result code and what the pointer holds then. -/
def convertPower (inType outType : PowerType) : Option UInt32 → EsifError × Option UInt32
  | none => (esifEParameterIsNull, none)
  | some power =>
    if power = 0 ∨ inType = outType then (esifOk, some power) else
    match outType.perWatt, inType.perWatt with
    | none, _ => (esifEUnsupportedResultPowerType, some power)
    | some _, none => (esifEUnsupportedRequestPowerType, some power)
    | some outFactor, some inFactor =>
      (esifOk, some (power.toUInt64 * outFactor / inFactor).toUInt32)

/-! ## Time -/

/-- `enum esif_time_type`, and any other number. -/
inductive TimeType
  | s | deciS | centiS | milliS | microS | other
deriving DecidableEq, Repr

/-- The microseconds in a unit, the factors of both `switch` statements of
`esif_convert_time`. -/
def TimeType.micros : TimeType → Option UInt64
  | .s => some 1000000
  | .deciS => some 100000
  | .centiS => some 10000
  | .milliS => some 1000
  | .microS => some 1
  | .other => none

/-- `esif_convert_time`. -/
def convertTime (inType outType : TimeType) : Option UInt32 → EsifError × Option UInt32
  | none => (esifEParameterIsNull, none)
  | some time =>
    if time = 0 ∨ inType = outType then (esifOk, some time) else
    match inType.micros, outType.micros with
    | none, _ => (esifEUnsupportedRequestTimeType, some time)
    | some _, none => (esifEUnsupportedResultTimeType, some time)
    | some inFactor, some outFactor =>
      let val := time.toUInt64 * inFactor / outFactor
      if val ≥ 0x100000000 then (esifEOverflowedResultType, some time)
      else (esifOk, some val.toUInt32)

/-! ## Percentages -/

/-- `enum esif_percent_type`, and any other number. -/
inductive PercentType
  | percent | deci | centi | milli | byte | other
deriving DecidableEq, Repr

/-- `ESIF_PERCENT_BYTE_CONV_FACTOR`. -/
def percentByteConvFactor : UInt64 := 255

/-- The first `switch` of `esif_convert_percent`: the value in thousandths of a percent. -/
def PercentType.toMilli (val : UInt64) : PercentType → Option UInt64
  | .percent => some (val * 1000)
  | .deci => some (val * 100)
  | .centi => some (val * 10)
  | .milli => some val
  | .byte => some (val * 100 * 1000 / percentByteConvFactor)
  | .other => none

/-- The second `switch` of `esif_convert_percent`. -/
def PercentType.ofMilli (val : UInt64) : PercentType → Option UInt64
  | .percent => some (val / 1000)
  | .deci => some (val / 100)
  | .centi => some (val / 10)
  | .milli => some val
  | .byte => some ((val * percentByteConvFactor / 100 + 500) / 1000)
  | .other => none

/-- `esif_convert_percent`. -/
def convertPercent (inType outType : PercentType) : Option UInt32 → EsifError × Option UInt32
  | none => (esifEParameterIsNull, none)
  | some value =>
    if value = 0 ∨ inType = outType then (esifOk, some value) else
    match inType.toMilli value.toUInt64 with
    | none => (esifEUnsupportedRequestPercentType, some value)
    | some val =>
      match outType.ofMilli val with
      | none => (esifEUnsupportedResultPercentType, some value)
      | some val =>
        if val ≥ 0x100000000 then (esifEOverflowedResultType, some value)
        else (esifOk, some val.toUInt32)

/-! ## The conversions without a bound -/

/-- A power in another unit. -/
def exactPower (inType outType : PowerType) (v : Nat) : Nat :=
  if inType = outType then v
  else v * (outType.perWatt.getD 1).toNat / (inType.perWatt.getD 1).toNat

/-- A time in another unit. -/
def exactTime (inType outType : TimeType) (v : Nat) : Nat :=
  if inType = outType then v
  else v * (inType.micros.getD 1).toNat / (outType.micros.getD 1).toNat

/-- A percentage in thousandths. -/
def PercentType.exactMilli (v : Nat) : PercentType → Nat
  | .percent => v * 1000
  | .deci => v * 100
  | .centi => v * 10
  | .byte => v * 100 * 1000 / 255
  | .milli | .other => v

/-- Thousandths of a percent in another unit. -/
def PercentType.ofExactMilli (v : Nat) : PercentType → Nat
  | .percent => v / 1000
  | .deci => v / 100
  | .centi => v / 10
  | .byte => (v * 255 / 100 + 500) / 1000
  | .milli | .other => v

/-- A percentage in another unit. -/
def exactPercent (inType outType : PercentType) (v : Nat) : Nat :=
  if inType = outType then v else outType.ofExactMilli (inType.exactMilli v)

/-! ## Where the routines are exact -/

/-- A factor a 32-bit number can be multiplied with in 64 bits. -/
theorem toNat_mul_div {v : UInt32} {m d : UInt64} (hm : m.toNat ≤ 1000000) :
    (v.toUInt64 * m / d).toNat = v.toNat * m.toNat / d.toNat := by
  have hlt : v.toNat * m.toNat < 2 ^ 64 :=
    calc v.toNat * m.toNat ≤ 2 ^ 32 * 1000000 := Nat.mul_le_mul (Nat.le_of_lt v.toNat_lt) hm
      _ < 2 ^ 64 := by decide
  rw [UInt64.toNat_div, UInt64.toNat_mul, UInt32.toNat_toUInt64, Nat.mod_eq_of_lt hlt]

theorem perWatt_some {t : PowerType} (h : t ≠ .other) :
    ∃ f, t.perWatt = some f ∧ f.toNat ≤ 1000000 := by
  cases t with
  | other => exact absurd rfl h
  | _ => exact ⟨_, rfl, by decide⟩

theorem micros_some {t : TimeType} (h : t ≠ .other) :
    ∃ f, t.micros = some f ∧ f.toNat ≤ 1000000 := by
  cases t with
  | other => exact absurd rfl h
  | _ => exact ⟨_, rfl, by decide⟩

/-- A power is always converted, and kept whole if it fits. -/
theorem convertPower_ok {inType outType : PowerType} (hin : inType ≠ .other)
    (hout : outType ≠ .other) (v : UInt32) :
    ∃ w, convertPower inType outType (some v) = (esifOk, some w) ∧
      w.toNat = exactPower inType outType v.toNat % 2 ^ 32 := by
  have hlt := v.toNat_lt
  by_cases hskip : v = 0 ∨ inType = outType
  · refine ⟨v, by rw [convertPower, if_pos hskip], ?_⟩
    rw [exactPower]
    split
    · omega
    · rcases hskip with rfl | h
      · simp
      · contradiction
  · obtain ⟨m, hm, hle⟩ := perWatt_some hout
    obtain ⟨d, hd, -⟩ := perWatt_some hin
    refine ⟨(v.toUInt64 * m / d).toUInt32, ?_, ?_⟩
    · rw [convertPower, if_neg hskip, hm, hd]
    · rw [UInt64.toNat_toUInt32, toNat_mul_div hle, exactPower, if_neg (not_or.1 hskip).2, hm, hd]
      rfl

/-- The check before a result of 64 bits is stored in 32. -/
theorem checked_toUInt32 (val : UInt64) (old : UInt32) :
    val.toNat < 2 ^ 32 ∧ (if val ≥ 0x100000000 then (esifEOverflowedResultType, some old)
          else (esifOk, some val.toUInt32)) = (esifOk, some val.toUInt32) ∧
        val.toUInt32.toNat = val.toNat ∨
      2 ^ 32 ≤ val.toNat ∧ (if val ≥ 0x100000000 then (esifEOverflowedResultType, some old)
          else (esifOk, some val.toUInt32)) = (esifEOverflowedResultType, some old) := by
  have hbound : (0x100000000 : UInt64) ≤ val ↔ 2 ^ 32 ≤ val.toNat := UInt64.le_iff_toNat_le
  by_cases h : 2 ^ 32 ≤ val.toNat
  · exact Or.inr ⟨h, if_pos (hbound.2 h)⟩
  · refine Or.inl ⟨by omega, if_neg (mt hbound.1 h), ?_⟩
    rw [UInt64.toNat_toUInt32, Nat.mod_eq_of_lt (by omega)]

/-- A time is converted if the result fits, and refused otherwise. -/
theorem convertTime_cases {inType outType : TimeType} (hin : inType ≠ .other)
    (hout : outType ≠ .other) (v : UInt32) :
    exactTime inType outType v.toNat < 2 ^ 32 ∧
        (∃ w, convertTime inType outType (some v) = (esifOk, some w) ∧
          w.toNat = exactTime inType outType v.toNat) ∨
      2 ^ 32 ≤ exactTime inType outType v.toNat ∧
        convertTime inType outType (some v) = (esifEOverflowedResultType, some v) := by
  have hlt := v.toNat_lt
  by_cases hskip : v = 0 ∨ inType = outType
  · have hexact : exactTime inType outType v.toNat = v.toNat := by
      rw [exactTime]
      split
      · rfl
      · rcases hskip with rfl | h
        · simp
        · contradiction
    rw [hexact]
    exact Or.inl ⟨hlt, v, by rw [convertTime, if_pos hskip], rfl⟩
  · obtain ⟨m, hm, hle⟩ := micros_some hin
    obtain ⟨d, hd, -⟩ := micros_some hout
    have hexact : exactTime inType outType v.toNat = (v.toUInt64 * m / d).toNat := by
      rw [toNat_mul_div hle, exactTime, if_neg (not_or.1 hskip).2, hm, hd]
      rfl
    rw [hexact, convertTime, if_neg hskip, hm, hd]
    rcases checked_toUInt32 (v.toUInt64 * m / d) v with ⟨hfit, hstored, hnat⟩ | ⟨hover, hstored⟩
    · exact Or.inl ⟨hfit, _, hstored, hnat⟩
    · exact Or.inr ⟨hover, hstored⟩

theorem toMilli_eq {t : PercentType} (h : t ≠ .other) (v : UInt32) :
    ∃ m, t.toMilli v.toUInt64 = some m ∧ m.toNat = t.exactMilli v.toNat ∧
      m.toNat ≤ 2 ^ 32 * 1000 := by
  have hlt := v.toNat_lt
  cases t with
  | other => exact absurd rfl h
  | percent | deci | centi =>
    refine ⟨_, rfl, ?_⟩
    rw [UInt64.toNat_mul, UInt32.toNat_toUInt64]
    simp only [PercentType.exactMilli, UInt64.reduceToNat]
    rw [Nat.mod_eq_of_lt (by omega)]
    omega
  | milli =>
    refine ⟨_, rfl, ?_⟩
    simp only [PercentType.exactMilli, UInt32.toNat_toUInt64, true_and]
    omega
  | byte =>
    refine ⟨_, rfl, ?_⟩
    rw [UInt64.toNat_div, UInt64.toNat_mul, UInt64.toNat_mul, UInt32.toNat_toUInt64]
    simp only [PercentType.exactMilli, percentByteConvFactor, UInt64.reduceToNat]
    rw [Nat.mod_eq_of_lt (a := v.toNat * 100) (by omega), Nat.mod_eq_of_lt (by omega)]
    omega

theorem ofMilli_eq {t : PercentType} (h : t ≠ .other) {m : UInt64} (hm : m.toNat ≤ 2 ^ 32 * 1000) :
    ∃ w, t.ofMilli m = some w ∧ w.toNat = t.ofExactMilli m.toNat := by
  cases t with
  | other => exact absurd rfl h
  | percent | deci | centi => exact ⟨_, rfl, UInt64.toNat_div _ _⟩
  | milli => exact ⟨_, rfl, rfl⟩
  | byte =>
    refine ⟨_, rfl, ?_⟩
    rw [UInt64.toNat_div, UInt64.toNat_add, UInt64.toNat_div, UInt64.toNat_mul]
    simp only [PercentType.ofExactMilli, percentByteConvFactor, UInt64.reduceToNat]
    rw [Nat.mod_eq_of_lt (a := m.toNat * 255) (by omega), Nat.mod_eq_of_lt (by omega)]

/-- A percentage is converted if the result fits, and refused otherwise. -/
theorem convertPercent_cases {inType outType : PercentType} (hin : inType ≠ .other)
    (hout : outType ≠ .other) (v : UInt32) :
    exactPercent inType outType v.toNat < 2 ^ 32 ∧
        (∃ w, convertPercent inType outType (some v) = (esifOk, some w) ∧
          w.toNat = exactPercent inType outType v.toNat) ∨
      2 ^ 32 ≤ exactPercent inType outType v.toNat ∧
        convertPercent inType outType (some v) = (esifEOverflowedResultType, some v) := by
  have hlt := v.toNat_lt
  by_cases hskip : v = 0 ∨ inType = outType
  · have hexact : exactPercent inType outType v.toNat = v.toNat := by
      rw [exactPercent]
      split
      · rfl
      · rcases hskip with rfl | h
        · cases inType <;> cases outType <;> rfl
        · contradiction
    rw [hexact]
    exact Or.inl ⟨hlt, v, by rw [convertPercent, if_pos hskip], rfl⟩
  · obtain ⟨m, hm, hmilli, hle⟩ := toMilli_eq hin v
    obtain ⟨w, hw, hnat⟩ := ofMilli_eq hout hle
    have hexact : exactPercent inType outType v.toNat = w.toNat := by
      rw [hnat, hmilli, exactPercent, if_neg (not_or.1 hskip).2]
    rw [hexact, convertPercent, if_neg hskip, hm]
    simp only [hw]
    rcases checked_toUInt32 w v with ⟨hfit, hstored, hsame⟩ | ⟨hover, hstored⟩
    · exact Or.inl ⟨hfit, _, hstored, hsame⟩
    · exact Or.inr ⟨hover, hstored⟩

end Cm

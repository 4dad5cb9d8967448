import Dptf.Common.Types
import Dptf.Lib.Rounding

/-!
# Conversion of temperatures

`esif_temp.h`.  A temperature is raised to thousandths of a degree, moved by 273.2 degrees when
it goes from one scale to the other, and divided again with half of the divisor added.  All of
it is done in unsigned 32-bit numbers, except on the way from Kelvin to Celsius.

* `Temp.convertsExactly_iff` — a conversion is exact where they do, and nowhere else.
-/

open Lib

namespace Cm

namespace Temp

variable {inType outType : TempType} {v x w : UInt32} {m t : Int}

/-- `enum esif_temperature_type`. -/
inductive TempType
  | k | deciK | centiK | milliK | c | deciC | centiC | milliC | thermistor
deriving DecidableEq, Repr

/-- `DPTF_KELVIN_BASE * 100`. -/
def kelvinBase : UInt32 := 273200

/-- `esif_temp_mc2c`. -/
def mc2c (outType : TempType) (val : UInt32) : UInt32 :=
  match outType with
  | .c => (val + 500) / 1000
  | .deciC => (val + 50) / 100
  | .centiC => (val + 5) / 10
  | _ => val

/-- `esif_temp_mk2c`; a signed sum that overflows wraps. -/
def mk2c (outType : TempType) (val : UInt32) : UInt32 :=
  let signedVal : Int32 := (val - kelvinBase).toInt32
  match outType with
  | .c => if 0 ≤ signedVal then ((signedVal + 500) / 1000).toUInt32
      else ((signedVal - 500) / 1000).toUInt32
  | .deciC => if 0 ≤ signedVal then ((signedVal + 50) / 100).toUInt32
      else ((signedVal - 50) / 100).toUInt32
  | .centiC => if 0 ≤ signedVal then ((signedVal + 5) / 10).toUInt32
      else ((signedVal - 5) / 10).toUInt32
  | .milliC => signedVal.toUInt32
  | _ => val

/-- `esif_temp_mc2k`. -/
def mc2k (outType : TempType) (val : UInt32) : UInt32 :=
  match outType with
  | .k => (val + kelvinBase + 500) / 1000
  | .deciK => (val + kelvinBase + 50) / 100
  | .centiK => (val + kelvinBase + 5) / 10
  | .milliK => val + kelvinBase
  | _ => val

/-- `esif_temp_mk2k`. -/
def mk2k (outType : TempType) (val : UInt32) : UInt32 :=
  match outType with
  | .k => (val + 500) / 1000
  | .deciK => (val + 50) / 100
  | .centiK => (val + 5) / 10
  | _ => val

/-- The first `switch` of `esif_convert_temp`: the value in thousandths. -/
def raiseToMilli (inType : TempType) (val : UInt32) : Option UInt32 :=
  match inType with
  | .c | .k => some (val * 1000)
  | .deciC | .deciK => some (val * 100)
  | .centiC | .centiK => some (val * 10)
  | .milliC | .milliK => some val
  | .thermistor => none

/-- The second `switch` of `esif_convert_temp`. -/
def normalizeToOutput (inType outType : TempType) (val : UInt32) : Option UInt32 :=
  match outType with
  | .c | .deciC | .centiC | .milliC =>
    match inType with
    | .k | .deciK | .centiK | .milliK => some (mk2c outType val)
    | _ => some (mc2c outType val)
  | .k | .deciK | .centiK | .milliK =>
    match inType with
    | .k | .deciK | .centiK | .milliK => some (mk2k outType val)
    | _ => some (mc2k outType val)
  | .thermistor => none

/-- `esif_convert_temp`: the result code and what the pointer holds then. -/
def convertTemp (inType outType : TempType) : Option UInt32 → EsifError × Option UInt32
  | none => (esifEParameterIsNull, none)
  | some temp =>
    if inType = outType then (esifOk, some temp) else
    match (raiseToMilli inType temp).bind (normalizeToOutput inType outType) with
    | some val => (esifOk, some val)
    | none => (esifEUnsupportedRequestTempType, some temp)

/-! ## What a conversion should give -/

/-- The units that can be converted. -/
def TempType.Supported (t : TempType) : Prop := t ≠ .thermistor

instance (t : TempType) : Decidable t.Supported := inferInstanceAs (Decidable (_ ≠ _))

/-- A unit of the Celsius scale. -/
def TempType.isCelsius : TempType → Bool
  | .c | .deciC | .centiC | .milliC => true
  | _ => false

/-- The thousandths of a degree in a unit. -/
def TempType.milli : TempType → Nat
  | .c | .k => 1000
  | .deciC | .deciK => 100
  | .centiC | .centiK => 10
  | .milliC | .milliK | .thermistor => 1

theorem TempType.milli_cases (t : TempType) :
    t.milli = 1 ∨ t.milli = 10 ∨ t.milli = 100 ∨ t.milli = 1000 := by
  cases t <;> simp [TempType.milli]

/-- The number a value stands for; those of the Celsius scale are in two's complement. -/
def TempType.read (t : TempType) (v : UInt32) : Int :=
  if t.isCelsius then v.toInt32.toInt else v.toNat

/-- The thousandths of a degree between the zeros of two scales; 0 C are 273.2 K. -/
def scaleOffset (inType outType : TempType) : Int :=
  (if inType.isCelsius then 273200 else 0) - if outType.isCelsius then 273200 else 0

/-- A temperature in thousandths of a degree on the scale of the result. -/
def exactMilli (inType outType : TempType) (t : Int) : Int :=
  t * inType.milli + scaleOffset inType outType

/-- The exact result, rounded half away from zero. -/
def exactTemp (inType outType : TempType) (t : Int) : Int :=
  roundAway (exactMilli inType outType t) outType.milli

/-- A conversion refuses and changes nothing, or it stores the exact result. -/
def ConvertsExactly (inType outType : TempType) (v : UInt32) : Prop :=
  (convertTemp inType outType (some v)).1 ≠ esifOk ∧
      (convertTemp inType outType (some v)).2 = some v ∨
    (convertTemp inType outType (some v)).1 = esifOk ∧
      ∃ w, (convertTemp inType outType (some v)).2 = some w ∧
        outType.read w = exactTemp inType outType (inType.read v)

/-- Where a conversion has room for its numbers.  From Kelvin to Celsius they are signed; on the
other ways only what rounds to a number that is not negative can be divided, and only
thousandths of a degree Celsius are not divided. -/
def Fits (inType outType : TempType) (t : Int) : Prop :=
  inType = outType ∨
    if outType.isCelsius ∧ ¬ inType.isCelsius then
      exactMilli inType outType t + (outType.milli / 2 : Nat) < 2 ^ 31
    else if outType = .milliC then
      -2 ^ 31 ≤ exactMilli inType outType t ∧ exactMilli inType outType t < 2 ^ 31
    else
      -outType.milli < 2 * exactMilli inType outType t ∧
        exactMilli inType outType t + (outType.milli / 2 : Nat) < 2 ^ 32

instance (inType outType : TempType) (t : Int) : Decidable (Fits inType outType t) :=
  inferInstanceAs (Decidable (_ ∨ _))

/-! ## Values and the numbers they stand for -/

theorem toInt_toInt32 (v : UInt32) :
    v.toInt32.toInt = if v.toNat < 2 ^ 31 then (v.toNat : Int) else v.toNat - 2 ^ 32 := by
  have h : v.toInt32.toInt = v.toBitVec.toInt := rfl
  rw [h, BitVec.toInt_eq_toNat_cond]
  have hnat : v.toBitVec.toNat = v.toNat := rfl
  rw [hnat]
  split <;> split <;> omega

theorem TempType.read_emod (t : TempType) (v : UInt32) : t.read v % 2 ^ 32 = v.toNat := by
  have hlt := v.toNat_lt
  rw [TempType.read, toInt_toInt32]
  split
  · split <;> omega
  · omega

theorem TempType.read_injective (t : TempType) : Function.Injective t.read := by
  intro v w h
  have hv := t.read_emod v
  rw [h, t.read_emod w] at hv
  exact UInt32.toNat_inj.1 (by omega)

theorem TempType.read_of_lt (t : TempType) (h : v.toNat < 2 ^ 31) : t.read v = v.toNat := by
  rw [TempType.read, toInt_toInt32, if_pos h, ite_self]

theorem raiseToMilli_eq (h : inType.Supported) (v : UInt32) :
    ∃ x, raiseToMilli inType v = some x ∧ x.toNat = v.toNat * inType.milli % 2 ^ 32 := by
  have hlt := v.toNat_lt
  cases inType with
  | thermistor => exact absurd rfl h
  | c | k | deciC | deciK | centiC | centiK => exact ⟨_, rfl, UInt32.toNat_mul _ _⟩
  | milliC | milliK => exact ⟨_, rfl, by simp [TempType.milli]⟩

theorem normalizeToOutput_eq (hin : inType.Supported) (hout : outType.Supported) (x : UInt32) :
    normalizeToOutput inType outType x = some (if outType.isCelsius then
          if inType.isCelsius then mc2c outType x else mk2c outType x
        else if inType.isCelsius then mc2k outType x else mk2k outType x) := by
  cases outType with
  | thermistor => exact absurd rfl hout
  | _ => cases inType with
    | thermistor => exact absurd rfl hin
    | _ => rfl

/-! ## The four ways -/

/-- A division that rounds up from a half, in 32 bits. -/
def halfUp (outType : TempType) (x : Nat) : Nat :=
  (x + outType.milli / 2) % 2 ^ 32 / outType.milli

theorem mc2c_toNat (outType : TempType) (h : outType.isCelsius) (x : UInt32) :
    (mc2c outType x).toNat = halfUp outType x.toNat := by
  have hlt := x.toNat_lt
  cases outType with
  | c | deciC | centiC => simp [mc2c, halfUp, TempType.milli]
  | milliC =>
    simp only [mc2c, halfUp, TempType.milli]
    omega
  | _ => exact absurd h (by decide)

theorem mk2k_toNat (h : ¬ outType.isCelsius) (hs : outType.Supported) (x : UInt32) :
    (mk2k outType x).toNat = halfUp outType x.toNat := by
  have hlt := x.toNat_lt
  cases outType with
  | k | deciK | centiK => simp [mk2k, halfUp, TempType.milli]
  | milliK =>
    simp only [mk2k, halfUp, TempType.milli]
    omega
  | thermistor => exact absurd rfl hs
  | _ => exact absurd rfl h

theorem mc2k_eq_mk2k (h : ¬ outType.isCelsius) (hs : outType.Supported) (x : UInt32) :
    mc2k outType x = mk2k outType (x + kelvinBase) := by
  cases outType with
  | thermistor => exact absurd rfl hs
  | c | deciC | centiC | milliC => exact absurd rfl h
  | _ => rfl

/-- The numbers the signed way goes through: half of the divisor is added or taken, and the
quotient cut towards zero. -/
def signedHalf (outType : TempType) (s : Int32) : Int :=
  if 0 ≤ s.toInt then
    ((s.toInt + (outType.milli / 2 : Nat)).bmod (2 ^ 32)).tdiv outType.milli
  else
    ((s.toInt - (outType.milli / 2 : Nat)).bmod (2 ^ 32)).tdiv outType.milli

theorem mk2c_toInt (outType : TempType) (h : outType.isCelsius) (x : UInt32) :
    (mk2c outType x).toInt32.toInt = signedHalf outType (x - kelvinBase).toInt32 := by
  cases outType with
  | c | deciC | centiC =>
    simp only [mk2c, signedHalf, Int32.le_iff_toInt_le, Int32.toInt_zero]
    split
    · rw [Int32.toInt32_toUInt32, Int32.toInt_div_of_ne_right _ _ (by decide), Int32.toInt_add]
      rfl
    · rw [Int32.toInt32_toUInt32, Int32.toInt_div_of_ne_right _ _ (by decide), Int32.toInt_sub]
      rfl
  | milliC =>
    simp [mk2c, signedHalf, TempType.milli]
  | _ => exact absurd h (by decide)

theorem halfUp_eq_roundAway_iff (outType : TempType) {x : Nat} (hx : m % 2 ^ 32 = x) :
    (halfUp outType x : Int) = roundAway m outType.milli ↔
      -outType.milli < 2 * m ∧ m + (outType.milli / 2 : Nat) < 2 ^ 32 := by
  rw [halfUp, roundAway]
  rcases outType.milli_cases with hd | hd | hd | hd <;> rw [hd] <;> split <;> omega

theorem tdiv_eq_ite (n : Int) (d : Nat) : n.tdiv d = if 0 ≤ n then n / d else -(-n / d) := by
  split
  · exact Int.tdiv_eq_ediv_of_nonneg ‹_›
  · rw [← Int.tdiv_eq_ediv_of_nonneg (by omega), Int.neg_tdiv, neg_neg]

theorem bmod_eq_ite (n : Int) :
    n.bmod (2 ^ 32) = if n % 2 ^ 32 < 2 ^ 31 then n % 2 ^ 32 else n % 2 ^ 32 - 2 ^ 32 := by
  rw [Int.bmod_eq_emod]
  split <;> split <;> omega

theorem signedHalf_eq_roundAway_iff (outType : TempType) {s : Int32}
    (hs : m % 2 ^ 32 = s.toInt % 2 ^ 32) (hm : -273200 ≤ m) :
    signedHalf outType s = roundAway m outType.milli ↔ m + (outType.milli / 2 : Nat) < 2 ^ 31 := by
  have hlo := s.le_toInt
  have hhi := s.toInt_lt
  rw [signedHalf, tdiv_eq_ite, tdiv_eq_ite, bmod_eq_ite, bmod_eq_ite, roundAway]
  rcases outType.milli_cases with hd | hd | hd | hd <;> rw [hd] <;> split_ifs <;> omega

theorem read_mul_milli_emod (hx : x.toNat = v.toNat * inType.milli % 2 ^ 32) :
    inType.read v * inType.milli % 2 ^ 32 = x.toNat := by
  have hread := inType.read_emod v
  cases inType <;> simp only [TempType.milli] at hx ⊢ <;> omega

/-- The unsigned ways; what they divide stays below the numbers that are read as negative. -/
theorem unsigned_exact_iff {w y : UInt32} (hy : exactMilli inType outType t % 2 ^ 32 = y.toNat)
    (hw : w.toNat = halfUp outType y.toNat) (hout : outType ≠ .milliC) :
    outType.read w = exactTemp inType outType t ↔ -outType.milli < 2 * exactMilli inType outType t ∧
        exactMilli inType outType t + (outType.milli / 2 : Nat) < 2 ^ 32 := by
  have hread : outType.read w = halfUp outType y.toNat := by
    rw [← hw]
    cases outType with
    | milliC => exact absurd rfl hout
    | c | deciC | centiC =>
      refine TempType.read_of_lt _ ?_
      rw [hw, halfUp]
      simp only [TempType.milli]
      omega
    | _ => rfl
  rw [hread, exactTemp]
  exact halfUp_eq_roundAway_iff outType hy

theorem milliC_exact_iff (hw : exactMilli inType .milliC t % 2 ^ 32 = w.toNat) :
    TempType.milliC.read w = exactTemp inType .milliC t ↔
      -2 ^ 31 ≤ exactMilli inType .milliC t ∧ exactMilli inType .milliC t < 2 ^ 31 := by
  have hlt := w.toNat_lt
  have hround : exactTemp inType .milliC t = exactMilli inType .milliC t := by
    have h := roundAway_mul (d := 1) (by decide) (exactMilli inType .milliC t)
    rwa [Nat.cast_one, mul_one] at h
  have hread : TempType.milliC.read w = w.toInt32.toInt := rfl
  rw [hround, hread, toInt_toInt32]
  split <;> omega

theorem signed_exact_iff (hin : ¬ inType.isCelsius) (hout : outType.isCelsius)
    (hx : t * inType.milli % 2 ^ 32 = x.toNat) (ht : 0 ≤ t) :
    outType.read (mk2c outType x) = exactTemp inType outType t ↔
      exactMilli inType outType t + (outType.milli / 2 : Nat) < 2 ^ 31 := by
  have hpos : 0 ≤ t * inType.milli := mul_nonneg ht (Int.natCast_nonneg _)
  have hm : exactMilli inType outType t = t * inType.milli - 273200 := by
    rw [exactMilli, scaleOffset, if_neg hin, if_pos hout]
    rfl
  rw [TempType.read, if_pos hout, mk2c_toInt outType hout, exactTemp]
  refine signedHalf_eq_roundAway_iff outType ?_ (by omega)
  have hsub : (x - kelvinBase).toNat = (2 ^ 32 - 273200 + x.toNat) % 2 ^ 32 := UInt32.toNat_sub _ _
  rw [hm, toInt_toInt32]
  split <;> omega

theorem convertTemp_of_ne (hin : inType.Supported) (hout : outType.Supported)
    (hne : inType ≠ outType) (v : UInt32) :
    ∃ w, convertTemp inType outType (some v) = (esifOk, some w) ∧
      (outType.read w = exactTemp inType outType (inType.read v) ↔
        Fits inType outType (inType.read v)) := by
  obtain ⟨x, hraise, hx⟩ := raiseToMilli_eq hin v
  have hmilli := read_mul_milli_emod hx
  refine ⟨_, by rw [convertTemp, if_neg hne, hraise, Option.bind_some,
    normalizeToOutput_eq hin hout], ?_⟩
  rw [Fits, or_iff_right hne]
  by_cases hco : outType.isCelsius
  · by_cases hci : inType.isCelsius
    · rw [if_pos hco, if_pos hci, if_neg (by simp [hci])]
      have hm : exactMilli inType outType (inType.read v) % 2 ^ 32 = x.toNat := by
        rw [exactMilli, scaleOffset, if_pos hci, if_pos hco, sub_self, add_zero, hmilli]
      split
      · rename_i hmc
        subst hmc
        exact milliC_exact_iff hm
      · exact unsigned_exact_iff hm (mc2c_toNat outType hco x) ‹_›
    · rw [if_pos hco, if_neg hci, if_pos ⟨hco, hci⟩]
      exact signed_exact_iff hci hco hmilli (by simp [TempType.read, hci])
  · have hnmc : outType ≠ .milliC := by
      rintro rfl
      exact hco rfl
    have hway : ¬ (outType.isCelsius ∧ ¬ inType.isCelsius) := fun h => hco h.1
    rw [if_neg hco, if_neg hway, if_neg hnmc]
    by_cases hci : inType.isCelsius
    · rw [if_pos hci, mc2k_eq_mk2k hco hout]
      refine unsigned_exact_iff ?_ (mk2k_toNat hco hout _) hnmc
      have hadd : (x + kelvinBase).toNat = (x.toNat + 273200) % 2 ^ 32 := UInt32.toNat_add _ _
      rw [exactMilli, scaleOffset, if_pos hci, if_neg hco]
      omega
    · rw [if_neg hci]
      refine unsigned_exact_iff ?_ (mk2k_toNat hco hout _) hnmc
      rw [exactMilli, scaleOffset, if_neg hci, if_neg hco, sub_self, add_zero, hmilli]

/-! ## Exactness -/

theorem TempType.milli_pos (t : TempType) : 0 < t.milli := by
  cases t <;> decide

theorem exactTemp_self (t : TempType) (n : Int) : exactTemp t t n = n := by
  rw [exactTemp, exactMilli, scaleOffset, sub_self, add_zero]
  exact roundAway_mul t.milli_pos n

theorem convertTemp_ok (hin : inType.Supported) (hout : outType.Supported) (v : UInt32) :
    ∃ w, convertTemp inType outType (some v) = (esifOk, some w) ∧
      (outType.read w = exactTemp inType outType (inType.read v) ↔
        Fits inType outType (inType.read v)) := by
  by_cases hne : inType = outType
  · subst hne
    refine ⟨v, by rw [convertTemp, if_pos rfl], ?_⟩
    rw [exactTemp_self]
    exact iff_of_true rfl (Or.inl rfl)
  · exact convertTemp_of_ne hin hout hne v

theorem convertsExactly_iff_fits {inType outType : TempType} (hin : inType.Supported)
    (hout : outType.Supported) (v : UInt32) :
    ConvertsExactly inType outType v ↔ Fits inType outType (inType.read v) := by
  obtain ⟨w, hconv, hexact⟩ := convertTemp_ok hin hout v
  rw [← hexact, ConvertsExactly, hconv]
  simp

/-- Through a finer unit and back, the exact results are those one began with. -/
theorem exactTemp_exactTemp (h : outType.milli < inType.milli) (t : Int) :
    exactTemp outType inType (exactTemp inType outType t) = t := by
  have hback : scaleOffset outType inType = -scaleOffset inType outType := (neg_sub _ _).symm
  have hround := roundAway_roundAway outType.milli_pos h t (scaleOffset inType outType)
  rwa [sub_eq_add_neg, ← hback] at hround

/-- A conversion and the one back to the first unit give the value one began with. -/
def ComesBack (inType outType : TempType) (v : UInt32) : Prop :=
  ∃ w, convertTemp inType outType (some v) = (esifOk, some w) ∧
    convertTemp outType inType (some w) = (esifOk, some v)

/-- **When a conversion is exact.**  Between any two units and for any value, a conversion gives
the exact result, and through a finer unit and back the value itself, where the numbers have
room on both ways, and only there. -/
theorem convertsExactly_iff {inType outType : TempType} (hin : inType.Supported)
    (hout : outType.Supported) (v : UInt32) :
    ConvertsExactly inType outType v ∧
        (outType.milli < inType.milli → ComesBack inType outType v) ↔
      Fits inType outType (inType.read v) ∧
        (outType.milli < inType.milli →
          Fits outType inType (exactTemp inType outType (inType.read v))) := by
  rw [convertsExactly_iff_fits hin hout v]
  refine and_congr_right fun hfits => forall_congr' fun hfiner => ?_
  obtain ⟨w, hconv, hexact⟩ := convertTemp_ok hin hout v
  obtain ⟨u, hback, hexact'⟩ := convertTemp_ok hout hin w
  rw [hexact.2 hfits, exactTemp_exactTemp hfiner] at hexact'
  rw [← hexact', inType.read_injective.eq_iff]
  constructor
  · rintro ⟨w', hw', hv⟩
    rw [hconv] at hw'
    obtain rfl : w = w' := by simpa using hw'
    rw [hback] at hv
    simpa using hv
  · rintro rfl
    exact ⟨w, hconv, hback⟩

/-- 25 degrees Celsius in tenths of Kelvin and back. -/
theorem convertsExactly_iff_25 :
    ConvertsExactly .c .deciK 25 ∧
      (TempType.deciK.milli < TempType.c.milli → ComesBack .c .deciK 25) :=
  (@convertsExactly_iff .c .deciK (by decide) (by decide) 25).2 (by decide)

/-- Five degrees below zero are more than 42 million tenths of a degree: the division is unsigned. -/
theorem not_convertsExactly : ¬ ConvertsExactly .c .deciC (0 - 5) := by
  rw [@convertsExactly_iff_fits .c .deciC (by decide) (by decide) (0 - 5)]
  decide

end Temp

end Cm

import Dptf.Cm.Temp
import Dptf.Cm.Units

/-!
# Transforms of primitive data

`esif_uf_xform.c`.  The DSP says for each action in which unit a temperature, a power, a time or
a percentage is read and written; a transform converts between that unit and the normal one.

* `honest_iff` — what is reported as converted was, if the conversion had room.
-/

open Cm

namespace Uf

variable {type : UInt32} {c : Conversion}

/-- `enum esif_primitive_opcode`. -/
inductive PrimitiveOpcode
  | get | set
deriving DecidableEq, Repr

/-- What a transform uses of `EsifFpcAlgorithm`. -/
structure FpcAlgorithm where
  actionType : UInt32
  tempXform : UInt32
  percentXform : UInt32
  powerXform : UInt32
  timeXform : UInt32
deriving DecidableEq, Repr

/-- The algorithms of a DSP. -/
structure XformDsp where
  algoPtr : List FpcAlgorithm
deriving DecidableEq, Repr

/-- `get_algorithm`. -/
def XformDsp.getAlgorithm (dsp : XformDsp) (actionType : UInt32) : Option FpcAlgorithm :=
  dsp.algoPtr.find? fun algo => algo.actionType = actionType

/-- The participant, of which only the DSP is used. -/
structure XformUp where
  dsp : Option XformDsp
deriving DecidableEq, Repr

/-- The data of a primitive; the callers have checked that 32 bits are there. -/
structure TransformData where
  type : UInt32
  bufPtr : Option UInt32
deriving DecidableEq, Repr

def dataTemperature : UInt32 := 6
def dataPower : UInt32 := 26
def dataPercent : UInt32 := 29
def dataTime : UInt32 := 31

/-! ## The transforms -/

/-- `ESIF_ALGORITHM_TYPE_TEMP_…` and the units of the conversions. -/
def tempAlgorithms : List (UInt32 × Option Temp.TempType) :=
  [(18, some .c), (9, some .milliC), (14, some .deciC), (5, some .deciK), (6, none)]

/-- `ESIF_ALGORITHM_TYPE_POWER_…`. -/
def powerAlgorithms : List (UInt32 × Option PowerType) :=
  [(0, some .deciW), (25, some .microW), (1, some .milliW), (2, none)]

/-- `ESIF_ALGORITHM_TYPE_TIME_…`. -/
def timeAlgorithms : List (UInt32 × Option TimeType) :=
  [(16, some .deciS), (17, some .milliS), (8, none)]

/-- `ESIF_ALGORITHM_TYPE_PERCENT_…`. -/
def percentAlgorithms : List (UInt32 × Option PercentType) :=
  [(24, some .percent), (23, some .deci), (21, some .centi), (20, none)]

/-- `NORMALIZE_TEMP_TYPE`. -/
def normalizeTempType : Temp.TempType := .deciK

/-- `NORMALIZE_POWER_UNIT_TYPE`. -/
def normalizePowerUnitType : PowerType := .milliW

/-- `NORMALIZE_TIME_TYPE`. -/
def normalizeTimeType : TimeType := .milliS

/-- `NORMALIZE_PERCENT_TYPE`. -/
def normalizePercentType : PercentType := .centi

/-- The `switch` of a transform.  What is read comes in the unit of the algorithm, what is
written goes into it; the result code of the conversion is dropped. -/
def xform {U : Type} (convert : U → U → Option UInt32 → EsifError × Option UInt32)
    (algorithms : List (UInt32 × Option U)) (normal : U) (algoType : UInt32)
    (opcode : PrimitiveOpcode) (value : UInt32) : EsifError × Option UInt32 :=
  match algorithms.lookup algoType with
  | some (some unit) =>
    match opcode with
    | .get => (esifOk, (convert unit normal (some value)).2)
    | .set => (esifOk, (convert normal unit (some value)).2)
  | some none => (esifOk, some value)
  | none => (esifEUnsupportedAlgorithm, some value)

/-- `EsifUfXformTemp`. -/
def xformTemp (tempType : Temp.TempType) (algoType : UInt32) (opcode : PrimitiveOpcode)
    (up : Option XformUp) (tempPtr : Option UInt32) : EsifError × Option UInt32 :=
  match tempPtr, up with
  | some temp, some up =>
    match up.dsp with
    | none => (esifENeedDsp, some temp)
    | some _ => xform Temp.convertTemp tempAlgorithms tempType algoType opcode temp
  | _, _ => (esifEParameterIsNull, tempPtr)

/-- `EsifUfXformPower`. -/
def xformPower (powerType : PowerType) (algoType : UInt32) (opcode : PrimitiveOpcode)
    (up : Option XformUp) (powerPtr : Option UInt32) : EsifError × Option UInt32 :=
  match powerPtr, up with
  | some power, some _ => xform convertPower powerAlgorithms powerType algoType opcode power
  | _, _ => (esifEParameterIsNull, powerPtr)

/-- `EsifUfXformTime`, which does not look at the participant. -/
def xformTime (timeType : TimeType) (algoType : UInt32) (opcode : PrimitiveOpcode)
    (timePtr : Option UInt32) : EsifError × Option UInt32 :=
  match timePtr with
  | some time => xform convertTime timeAlgorithms timeType algoType opcode time
  | none => (esifEParameterIsNull, none)

/-- `EsifUfXformPercent`, which looks at neither the participant nor the unit it is given. -/
def xformPercent (algoType : UInt32) (opcode : PrimitiveOpcode) (valuePtr : Option UInt32) :
    EsifError × Option UInt32 :=
  match valuePtr with
  | some value => xform convertPercent percentAlgorithms normalizePercentType algoType opcode value
  | none => (esifEParameterIsNull, none)

/-- A type that is transformed. -/
def NeedsTransform (type : UInt32) : Prop :=
  type = dataTemperature ∨ type = dataPower ∨ type = dataTime ∨ type = dataPercent

instance (type : UInt32) : Decidable (NeedsTransform type) := inferInstanceAs (Decidable (_ ∨ _))

/-- The last `switch` of `EsifUfExecuteTransform`. -/
def transformByType (type : UInt32) (algo : FpcAlgorithm) (up : XformUp)
    (opcode : PrimitiveOpcode) (bufPtr : Option UInt32) : EsifError × Option UInt32 :=
  if type = dataTemperature then
    xformTemp normalizeTempType algo.tempXform opcode (some up) bufPtr
  else if type = dataPower then
    xformPower normalizePowerUnitType algo.powerXform opcode (some up) bufPtr
  else if type = dataTime then
    xformTime normalizeTimeType algo.timeXform opcode bufPtr
  else if type = dataPercent then
    xformPercent algo.percentXform opcode bufPtr
  else (esifEUnspecified, bufPtr)

/-- `EsifUfExecuteTransform`: the result code and the data then. -/
def executeTransform (data : Option TransformData) (up : Option XformUp) (actionType : UInt32)
    (opcode : PrimitiveOpcode) : EsifError × Option TransformData :=
  match data, up with
  | some data, some up =>
    if ¬ NeedsTransform data.type then (esifOk, some data) else
    match up.dsp with
    | none => (esifENeedDsp, some data)
    | some dsp =>
      match dsp.getAlgorithm actionType with
      | none => (esifENeedAlgorithm, some data)
      | some algo =>
        let result := transformByType data.type algo up opcode data.bufPtr
        (result.1, some { data with bufPtr := result.2 })
  | _, _ => (esifEParameterIsNull, data)

/-! ## What is asked for -/

/-- The routine that converts between two units, or none. -/
inductive Conversion
  | temp (inType outType : Temp.TempType)
  | power (inType outType : PowerType)
  | time (inType outType : TimeType)
  | percent (inType outType : PercentType)
  | keep
deriving DecidableEq, Repr

namespace Conversion

/-- The routine. -/
def run : Conversion → UInt32 → EsifError × Option UInt32
  | temp inType outType, v => Temp.convertTemp inType outType (some v)
  | power inType outType, v => convertPower inType outType (some v)
  | time inType outType, v => convertTime inType outType (some v)
  | percent inType outType, v => convertPercent inType outType (some v)
  | keep, v => (esifOk, some v)

/-- The number a result stands for. -/
def read : Conversion → UInt32 → Int
  | temp _ outType, w => outType.read w
  | _, w => w.toNat

/-- The number the result should stand for. -/
def exact : Conversion → UInt32 → Int
  | temp inType outType, v => Temp.exactTemp inType outType (inType.read v)
  | power inType outType, v => exactPower inType outType v.toNat
  | time inType outType, v => exactTime inType outType v.toNat
  | percent inType outType, v => exactPercent inType outType v.toNat
  | keep, v => v.toNat

/-- Whether there is room for the conversion. -/
def Fits : Conversion → UInt32 → Prop
  | temp inType outType, v => Temp.Fits inType outType (inType.read v)
  | power inType outType, v => exactPower inType outType v.toNat < 2 ^ 32
  | time inType outType, v => exactTime inType outType v.toNat < 2 ^ 32
  | percent inType outType, v => exactPercent inType outType v.toNat < 2 ^ 32
  | keep, _ => True

instance (c : Conversion) (v : UInt32) : Decidable (c.Fits v) :=
  match c with
  | temp _ _ => inferInstanceAs (Decidable (Temp.Fits _ _ _))
  | power _ _ | time _ _ | percent _ _ => inferInstanceAs (Decidable (_ < _))
  | keep => inferInstanceAs (Decidable True)

/-- The routine knows both units. -/
def Supported : Conversion → Prop
  | temp inType outType => inType.Supported ∧ outType.Supported
  | power inType outType => inType ≠ .other ∧ outType ≠ .other
  | time inType outType => inType ≠ .other ∧ outType ≠ .other
  | percent inType outType => inType ≠ .other ∧ outType ≠ .other
  | keep => True

instance (c : Conversion) : Decidable c.Supported :=
  match c with
  | temp _ _ | power _ _ | time _ _ | percent _ _ => inferInstanceAs (Decidable (_ ∧ _))
  | keep => inferInstanceAs (Decidable True)

/-- The conversion was made: no error, and the exact result. -/
def Made (c : Conversion) (v w : UInt32) : Prop :=
  (c.run v).1 = esifOk ∧ c.read w = c.exact v

end Conversion

/-- The conversion an algorithm asks for. -/
def algorithmConversion {U : Type} (between : U → U → Conversion)
    (algorithms : List (UInt32 × Option U)) (normal : U) (algoType : UInt32)
    (opcode : PrimitiveOpcode) : Option Conversion :=
  (algorithms.lookup algoType).map fun unit =>
    match unit, opcode with
    | none, _ => .keep
    | some unit, .get => between unit normal
    | some unit, .set => between normal unit

/-- The conversion for data of a type. -/
def conversionOf (type : UInt32) (algo : FpcAlgorithm) (opcode : PrimitiveOpcode) :
    Option Conversion :=
  if type = dataTemperature then
    algorithmConversion .temp tempAlgorithms normalizeTempType algo.tempXform opcode
  else if type = dataPower then
    algorithmConversion .power powerAlgorithms normalizePowerUnitType algo.powerXform opcode
  else if type = dataTime then
    algorithmConversion .time timeAlgorithms normalizeTimeType algo.timeXform opcode
  else if type = dataPercent then
    algorithmConversion .percent percentAlgorithms normalizePercentType algo.percentXform opcode
  else none

/-- The conversion that is asked for and the value it is asked for. -/
def demanded (data : Option TransformData) (up : Option XformUp) (actionType : UInt32)
    (opcode : PrimitiveOpcode) : Option (Conversion × UInt32) := do
  let data ← data
  let up ← up
  let dsp ← up.dsp
  let algo ← dsp.getAlgorithm actionType
  let c ← conversionOf data.type algo opcode
  let v ← data.bufPtr
  return (c, v)

/-! ## What a transform comes to -/

theorem Conversion.run_of_checked {v : UInt32} {n : Nat}
    (hrun : n < 2 ^ 32 ∧ (∃ w, c.run v = (esifOk, some w) ∧ w.toNat = n) ∨
      2 ^ 32 ≤ n ∧ c.run v = (esifEOverflowedResultType, some v)) (hread : ∀ w, c.read w = w.toNat)
    (hexact : c.exact v = n) (hfits : c.Fits v ↔ n < 2 ^ 32) :
    ∃ w, (c.run v).2 = some w ∧ (c.Made v w ↔ c.Fits v) := by
  rcases hrun with ⟨hlt, w, hw, hnat⟩ | ⟨hover, hv⟩
  · refine ⟨w, by rw [hw], iff_of_true ⟨by rw [hw], ?_⟩ (hfits.2 hlt)⟩
    rw [hread, hexact, hnat]
  · refine ⟨v, by rw [hv], iff_of_false (fun hmade => ?_) (fun h => ?_)⟩
    · have hrc := hmade.1
      rw [hv] at hrc
      exact absurd (show esifEOverflowedResultType = esifOk from hrc) (by decide)
    · have hlt := hfits.1 h
      omega

/-- A routine always leaves a number, and it made the conversion where there was room. -/
theorem Conversion.run_cases (h : c.Supported) (v : UInt32) :
    ∃ w, (c.run v).2 = some w ∧ (c.Made v w ↔ c.Fits v) := by
  cases c with
  | temp inType outType =>
    obtain ⟨w, hconv, hexact⟩ := Temp.convertTemp_ok h.1 h.2 v
    refine ⟨w, by rw [Conversion.run, hconv], ?_⟩
    rw [Conversion.Made, Conversion.run, hconv]
    exact (and_iff_right rfl).trans hexact
  | power inType outType =>
    obtain ⟨w, hconv, hnat⟩ := convertPower_ok h.1 h.2 v
    refine ⟨w, by rw [Conversion.run, hconv], ?_⟩
    rw [Conversion.Made, Conversion.run, hconv, and_iff_right rfl]
    simp only [Conversion.read, Conversion.exact, Conversion.Fits]
    omega
  | time inType outType =>
    exact run_of_checked (convertTime_cases h.1 h.2 v) (fun _ => rfl) rfl Iff.rfl
  | percent inType outType =>
    exact run_of_checked (convertPercent_cases h.1 h.2 v) (fun _ => rfl) rfl Iff.rfl
  | keep => exact ⟨v, rfl, iff_of_true ⟨rfl, rfl⟩ trivial⟩

section Algorithm

variable {U : Type} {between : U → U → Conversion} {algorithms : List (UInt32 × Option U)}
  {normal : U}

/-- Only units a routine knows are asked for. -/
theorem algorithmConversion_supported
    (h : ∀ p ∈ algorithms, ∀ u ∈ p.2, (between u normal).Supported ∧ (between normal u).Supported)
    {algoType : UInt32} {opcode : PrimitiveOpcode} {c : Conversion}
    (hc : algorithmConversion between algorithms normal algoType opcode = some c) :
    c.Supported := by
  rw [algorithmConversion, Option.map_eq_some_iff] at hc
  obtain ⟨unit, hlookup, rfl⟩ := hc
  cases unit with
  | none => trivial
  | some unit =>
    obtain ⟨before, after, rfl, -⟩ := List.lookup_eq_some_iff.1 hlookup
    have hmem : (algoType, some unit) ∈ before ++ (algoType, some unit) :: after := by simp
    cases opcode with
    | get => exact (h _ hmem unit rfl).1
    | set => exact (h _ hmem unit rfl).2

variable {convert : U → U → Option UInt32 → EsifError × Option UInt32}

theorem xform_eq (h : ∀ inType outType v, (between inType outType).run v =
      convert inType outType (some v)) (algoType : UInt32) (opcode : PrimitiveOpcode) (v : UInt32) :
    xform convert algorithms normal algoType opcode v =
      match algorithmConversion between algorithms normal algoType opcode with
      | none => (esifEUnsupportedAlgorithm, some v)
      | some c => (esifOk, (c.run v).2) := by
  rw [xform, algorithmConversion]
  cases algorithms.lookup algoType with
  | none => rfl
  | some unit =>
    cases unit with
    | none => rfl
    | some unit => cases opcode <;> simp [h]

end Algorithm

theorem conversionOf_supported {algo : FpcAlgorithm} {opcode : PrimitiveOpcode}
    (h : conversionOf type algo opcode = some c) : c.Supported := by
  rw [conversionOf] at h
  split_ifs at h
  · exact algorithmConversion_supported (by decide) h
  · exact algorithmConversion_supported (by decide) h
  · exact algorithmConversion_supported (by decide) h
  · exact algorithmConversion_supported (by decide) h

theorem transformByType_null (h : NeedsTransform type) (algo : FpcAlgorithm) (up : XformUp)
    (opcode : PrimitiveOpcode) :
    transformByType type algo up opcode none = (esifEParameterIsNull, none) := by
  rcases h with rfl | rfl | rfl | rfl <;> rfl

theorem transformByType_some (h : NeedsTransform type) (algo : FpcAlgorithm) {up : XformUp}
    {dsp : XformDsp} (hdsp : up.dsp = some dsp) (opcode : PrimitiveOpcode) (v : UInt32) :
    transformByType type algo up opcode (some v) = match conversionOf type algo opcode with
      | none => (esifEUnsupportedAlgorithm, some v)
      | some c => (esifOk, (c.run v).2) := by
  rcases h with rfl | rfl | rfl | rfl
  · have htemp : transformByType dataTemperature algo up opcode (some v) =
        xform Temp.convertTemp tempAlgorithms normalizeTempType algo.tempXform opcode v := by
      simp only [transformByType, xformTemp, hdsp, if_true]
    rw [htemp]
    exact @xform_eq _ .temp _ _ _ (fun _ _ _ => rfl) _ _ _
  · exact @xform_eq _ .power _ _ _ (fun _ _ _ => rfl) _ _ _
  · exact @xform_eq _ .time _ _ _ (fun _ _ _ => rfl) _ _ _
  · exact @xform_eq _ .percent _ _ _ (fun _ _ _ => rfl) _ _ _

/-- A transform fails where no conversion is asked for, and runs the routine where one is. -/
theorem executeTransform_cases {data : TransformData} (h : NeedsTransform data.type)
    (up : Option XformUp) (actionType : UInt32) (opcode : PrimitiveOpcode) :
    demanded (some data) up actionType opcode = none ∧
        (executeTransform (some data) up actionType opcode).1 ≠ esifOk ∨
      ∃ c v, demanded (some data) up actionType opcode = some (c, v) ∧ c.Supported ∧
        executeTransform (some data) up actionType opcode =
          (esifOk, some { data with bufPtr := (c.run v).2 }) := by
  cases up with
  | none => exact Or.inl ⟨rfl, by simp only [executeTransform]; decide⟩
  | some up =>
    simp only [executeTransform, demanded, if_neg (not_not.2 h), Option.bind_eq_bind,
      Option.bind_some]
    cases hdsp : up.dsp with
    | none => exact Or.inl ⟨rfl, by simp only; decide⟩
    | some dsp =>
      simp only [Option.bind_some]
      cases dsp.getAlgorithm actionType with
      | none => exact Or.inl ⟨rfl, by simp only; decide⟩
      | some algo =>
        simp only [Option.bind_some]
        cases data.bufPtr with
        | none =>
          rw [transformByType_null h]
          exact Or.inl ⟨by cases conversionOf data.type algo opcode <;> rfl, by simp only; decide⟩
        | some v =>
          rw [transformByType_some h algo hdsp]
          cases hc : conversionOf data.type algo opcode with
          | none => exact Or.inl ⟨rfl, by simp only; decide⟩
          | some c => exact Or.inr ⟨c, v, rfl, conversionOf_supported hc, rfl⟩

/-- A success is reported only for a conversion that was made. -/
def Honest (data : Option TransformData) (up : Option XformUp) (actionType : UInt32)
    (opcode : PrimitiveOpcode) : Prop :=
  ∀ out, executeTransform data up actionType opcode = (esifOk, out) →
    ∃ c v w, demanded data up actionType opcode = some (c, v) ∧
      out.bind TransformData.bufPtr = some w ∧ c.Made v w

/-- **When a transform is honest.**  For data of every type that is transformed, every
algorithm, both directions and every value, a success means that the conversion was made, if
there was room for it, and only then. -/
theorem honest_iff {data : TransformData} (h : NeedsTransform data.type) (up : Option XformUp)
    (actionType : UInt32) (opcode : PrimitiveOpcode) :
    Honest (some data) up actionType opcode ↔
      ∀ c v, demanded (some data) up actionType opcode = some (c, v) → c.Fits v := by
  rcases executeTransform_cases h up actionType opcode with
    ⟨hnone, hfail⟩ | ⟨c, v, hdemanded, hsupported, hok⟩
  · refine iff_of_true ?_ ?_
    · intro out hout
      exact absurd (by rw [hout]) hfail
    · intro c v hc
      rw [hnone] at hc
      contradiction
  · obtain ⟨w, hw, hmade⟩ := Conversion.run_cases hsupported v
    constructor
    · intro hhonest c' v' hc
      obtain ⟨c'', v'', w', hd, hbuf, hm⟩ := hhonest _ hok
      rw [hdemanded, Option.some.injEq, Prod.mk.injEq] at hd hc
      obtain ⟨rfl, rfl⟩ := hd
      obtain ⟨rfl, rfl⟩ := hc
      have hbuf' : (c.run v).2 = some w' := hbuf
      rw [hw, Option.some.injEq] at hbuf'
      rw [← hbuf'] at hm
      exact hmade.1 hm
    · intro hfits out hout
      rw [hok] at hout
      obtain rfl : _ = out := congrArg Prod.snd hout
      exact ⟨c, v, w, hdemanded, hw, hmade.2 (hfits c v hdemanded)⟩

/-- A participant whose temperatures come in degrees Celsius and whose times come in tenths of a
second. -/
def sensorUp : XformUp := ⟨some ⟨[⟨0, 18, 20, 2, 16⟩]⟩⟩

/-- 25 degrees are read. -/
theorem honest_iff_sensor : Honest (some ⟨dataTemperature, some 25⟩) (some sensorUp) 0 .get := by
  refine (@honest_iff ⟨dataTemperature, some 25⟩ (by decide) (some sensorUp) 0 .get).2 ?_
  intro c v hc
  have hd : demanded (some ⟨dataTemperature, some 25⟩) (some sensorUp) 0 .get =
      some (.temp .c .deciK, 25) := by decide
  rw [hd, Option.some.injEq, Prod.mk.injEq] at hc
  obtain ⟨rfl, rfl⟩ := hc
  decide

/-- A time of 42949673 tenths of a second is too long in thousandths; it is reported as it came. -/
theorem not_honest : ¬ Honest (some ⟨dataTime, some 42949673⟩) (some sensorUp) 0 .get := by
  intro hhonest
  obtain ⟨c, v, w, hc, hbuf, hmade⟩ := hhonest (some ⟨dataTime, some 42949673⟩) rfl
  have hd : demanded (some ⟨dataTime, some 42949673⟩) (some sensorUp) 0 .get =
      some (.time .deciS .milliS, 42949673) := by decide
  rw [hd, Option.some.injEq, Prod.mk.injEq] at hc
  obtain ⟨rfl, rfl⟩ := hc
  have hrc : (convertTime .deciS .milliS (some 42949673)).1 = esifOk := hmade.1
  exact absurd hrc (by decide)

end Uf

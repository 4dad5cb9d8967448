import Dptf.Lib.Rounding
import Dptf.Tables.Variant

/-!
# Performance controls out of firmware tables

`PerformanceControlSet.cpp`.  PSS and TSS rows have a fixed size, which the size of the buffer
has to be a multiple of.  A row of a PPSS has a string in it, and its length is read before
anything was checked.
-/

open Lib Lib.Parse

namespace Tables

/-- `PerformanceControlType`, as far as the parsers use it. -/
inductive PerformanceControlType
  | performanceState
  | throttleState
deriving DecidableEq, Repr

/-- `PerformanceControl`. -/
structure PerformanceControl where
  controlId : UInt32
  performanceControlType : PerformanceControlType
  tdpPower : UInt32
  /-- The number the `double` stands for. -/
  performancePercentage : ℚ
  transitionLatency : UInt32
  controlAbsoluteValue : UInt32
  valueUnits : List UInt8

/-! ## Fields -/

section Fields

variable (m : List UInt8)

/-- `integer.value` of the variant `i` of the row at `data`. -/
def integerValue (data i : Nat) : Parse UInt64 := checked (readU64 m (data + variantSize * i + 4))

variable {m}

theorem safe_integerValue {data i n : Nat} (hi : i < n) (h : data + variantSize * n ≤ m.length) :
    Safe (integerValue m data i) fun _ => True := by
  have hle : data + variantSize * i + 4 + 8 ≤ m.length := by
    rw [variantSize] at h ⊢
    omega
  exact (safe_checked ((isSome_readU64 m _).mpr hle)).mono fun _ _ => trivial

end Fields

/-! ## PSS -/

section Pss

variable (m : List UInt8)
variable {rows row data : Nat} {controls : List PerformanceControl}

/-- `sizeof(EsifDataBinaryPssPackage)`: frequency, power, latency, bus master latency, control
and status. -/
def pssRowSize : Nat := variantSize * 6

/-- `ratio`: of the frequency to that of the first control; 100 times it wraps at 64 bits. -/
def pssRatio (rows row : Nat) (controls : List PerformanceControl) (data : Nat) : Parse ℚ :=
  match controls with
  | [] => pure 1
  | front :: _ =>
    if front.controlAbsoluteValue ≠ 0 then do
      let coreFrequency ← integerValue m data 0
      let percent ← divided (100 * coreFrequency) front.controlAbsoluteValue.toUInt64
      pure (divDouble percent.toUInt32.toNat 100)
    else pure (divDouble (rows - row) rows)

/-- The body of the loop of `createFromProcessorPss`. -/
def readPssRow (rows row : Nat) (controls : List PerformanceControl) (data : Nat) :
    Parse PerformanceControl := do
  let ratio ← pssRatio m rows row controls data
  let control ← integerValue m data 4
  let power ← integerValue m data 1
  let latency ← integerValue m data 2
  let coreFrequency ← integerValue m data 0
  pure ⟨control.toUInt32, .performanceState, power.toUInt32, ratio, latency.toUInt32,
    coreFrequency.toUInt32, [77, 72, 122]⟩

/-- The loop, with `left` rows to go. -/
def readPssRows (rows : Nat) : Nat → List PerformanceControl → Nat → Parse (List PerformanceControl)
  | 0, controls, _ => pure controls
  | left + 1, controls, data => do
    let control ← readPssRow m rows (rows - (left + 1)) controls data
    readPssRows rows left (controls ++ [control]) (data + pssRowSize)

/-- `PerformanceControlSet::createFromProcessorPss`. -/
def createFromProcessorPss (buffer : DptfBuffer) : Parse (List PerformanceControl) :=
  if buffer.size = 0 then throw "Received empty PSS buffer."
  else
    let rows := buffer.size.toNat / pssRowSize
    if buffer.size.toNat % pssRowSize ≠ 0 then
      throw ("Failed to parse PSS object.  The length of data received does not match the " ++
        "expected data length.")
    else readPssRows buffer.get rows rows [] 0

variable {m}

theorem safe_pssRatio (h : data + pssRowSize ≤ m.length) :
    Safe (pssRatio m rows row controls data) fun _ => True := by
  cases controls with
  | nil => exact safe_pure trivial
  | cons front controls =>
    refine safe_ite (fun hne => ?_) (fun _ => safe_pure trivial)
    have hdivisor : front.controlAbsoluteValue.toUInt64 ≠ 0 := by
      intro hz
      apply hne
      have := congrArg UInt64.toUInt32 hz
      simpa using this
    refine (safe_integerValue (by decide : 0 < 6) h).bind fun coreFrequency _ => ?_
    exact (safe_divided hdivisor).bind fun percent _ => safe_pure trivial

theorem safe_readPssRow (h : data + pssRowSize ≤ m.length) :
    Safe (readPssRow m rows row controls data)
      fun control => control.performanceControlType = .performanceState := by
  refine (safe_pssRatio h).bind fun ratio _ => ?_
  refine (safe_integerValue (by decide : 4 < 6) h).bind fun control _ => ?_
  refine (safe_integerValue (by decide : 1 < 6) h).bind fun power _ => ?_
  refine (safe_integerValue (by decide : 2 < 6) h).bind fun latency _ => ?_
  exact (safe_integerValue (by decide : 0 < 6) h).bind fun coreFrequency _ => safe_pure rfl

theorem safe_readPssRows (rows left : Nat) (h : data + pssRowSize * left ≤ m.length)
    (hcontrols : ∀ c ∈ controls, c.performanceControlType = .performanceState) :
    Safe (readPssRows m rows left controls data) fun all =>
      all.length = controls.length + left ∧
        ∀ c ∈ all, c.performanceControlType = .performanceState := by
  induction left generalizing controls data with
  | zero => exact safe_pure ⟨rfl, hcontrols⟩
  | succ left ih =>
    rw [Nat.mul_succ] at h
    refine (safe_readPssRow (by omega)).bind fun control hcontrol => ?_
    refine (ih (by omega) fun c hc => ?_).mono fun all hall => ?_
    · rcases List.mem_append.mp hc with hc | hc
      · exact hcontrols c hc
      · rwa [List.mem_singleton.mp hc]
    · rw [List.length_append, List.length_singleton] at hall
      exact ⟨by omega, hall.2⟩

/-- **A PSS is parsed inside its buffer**, without a division by zero, and its controls are
P-states. -/
theorem safe_createFromProcessorPss (buffer : DptfBuffer) :
    Safe (createFromProcessorPss buffer) fun controls =>
      controls.length < 2 ^ 30 ∧ ∀ c ∈ controls, c.performanceControlType = .performanceState := by
  refine safe_guard fun _ => safe_guard fun _ => ?_
  have hsize := buffer.size.toNat_lt
  refine (safe_readPssRows _ _ ?_ (by simp)).mono fun controls h => ⟨?_, h.2⟩
  · rw [DptfBuffer.length_get, Nat.zero_add]
    exact Nat.mul_div_le _ _
  · rw [h.1, List.length_nil, pssRowSize, variantSize]
    omega

end Pss

/-! ## TSS -/

section Tss

variable (m : List UInt8)

/-- `sizeof(EsifDataBinaryTssPackage)`: percentage, power, latency, control and status. -/
def tssRowSize : Nat := variantSize * 5

/-- What multiplying an absolute value by a percentage gives in `double`s, as a `UIntN`. -/
abbrev Scaling := UInt32 → ℚ → UInt32

variable (scale : Scaling) (pN : PerformanceControl)

/-- The control of a row. -/
def readTssRow (data : Nat) : Parse PerformanceControl := do
  let percent ← integerValue m data 0
  let performancePercentage := divDouble percent.toUInt32.toNat 100
  let control ← integerValue m data 3
  let power ← integerValue m data 1
  let latency ← integerValue m data 2
  pure ⟨control.toUInt32, .throttleState, power.toUInt32, performancePercentage,
    latency.toUInt32, scale pN.controlAbsoluteValue performancePercentage, pN.valueUnits⟩

/-- The loop of `createFromProcessorTss`: a control whose absolute value is zero is dropped. -/
def readTssRows : Nat → Nat → Parse (List PerformanceControl)
  | 0, _ => pure []
  | left + 1, data => do
    let tStateControl ← readTssRow m scale pN data
    let controls ← readTssRows left (data + tssRowSize)
    pure (if tStateControl.controlAbsoluteValue ≠ 0 then tStateControl :: controls else controls)

/-- `PerformanceControlSet::createFromProcessorTss`. -/
def createFromProcessorTss (buffer : DptfBuffer) : Parse (List PerformanceControl) :=
  if buffer.size = 0 then throw "Received empty TSS buffer."
  else
    let rows := buffer.size.toNat / tssRowSize
    if buffer.size.toNat % tssRowSize ≠ 0 then
      throw ("Failed to parse TSS object.  The length of data received does not match the " ++
        "expected data length.")
    else readTssRows buffer.get scale pN rows 0

variable {m scale pN}

theorem safe_readTssRow {data : Nat} (h : data + tssRowSize ≤ m.length) :
    Safe (readTssRow m scale pN data)
      fun control => control.performanceControlType = .throttleState := by
  refine (safe_integerValue (by decide : 0 < 5) h).bind fun percent _ => ?_
  refine (safe_integerValue (by decide : 3 < 5) h).bind fun control _ => ?_
  refine (safe_integerValue (by decide : 1 < 5) h).bind fun power _ => ?_
  exact (safe_integerValue (by decide : 2 < 5) h).bind fun latency _ => safe_pure rfl

theorem safe_readTssRows (left : Nat) {data : Nat} (h : data + tssRowSize * left ≤ m.length) :
    Safe (readTssRows m scale pN left data) fun controls =>
      controls.length ≤ left ∧ ∀ c ∈ controls, c.performanceControlType = .throttleState := by
  induction left generalizing data with
  | zero => exact safe_pure ⟨le_rfl, by simp⟩
  | succ left ih =>
    rw [Nat.mul_succ] at h
    refine (safe_readTssRow (by omega)).bind fun control hcontrol => ?_
    refine (ih (by omega)).bind fun controls hcontrols => safe_pure ?_
    by_cases hne : control.controlAbsoluteValue ≠ 0
    · rw [if_pos hne]
      exact ⟨Nat.succ_le_succ hcontrols.1, List.forall_mem_cons.mpr ⟨hcontrol, hcontrols.2⟩⟩
    · rw [if_neg hne]
      exact ⟨Nat.le_succ_of_le hcontrols.1, hcontrols.2⟩

/-- **A TSS is parsed inside its buffer**, and its controls are T-states. -/
theorem safe_createFromProcessorTss (scale : Scaling) (pN : PerformanceControl)
    (buffer : DptfBuffer) : Safe (createFromProcessorTss scale pN buffer) fun controls =>
      controls.length < 2 ^ 30 ∧ ∀ c ∈ controls, c.performanceControlType = .throttleState := by
  refine safe_guard fun _ => safe_guard fun _ => ?_
  have hsize := buffer.size.toNat_lt
  refine (safe_readTssRows _ ?_).mono fun controls h => ⟨?_, h.2⟩
  · rw [DptfBuffer.length_get, Nat.zero_add]
    exact Nat.mul_div_le _ _
  · have hle := h.1
    rw [tssRowSize, variantSize] at hle
    omega

end Tss

/-! ## PPSS -/

section Ppss

variable (m : List UInt8)
variable {data : Nat} {bytesRemaining : Int} {length : UInt32}

/-- `sizeof(EsifDataBinaryPpssPackage)`: percentage, power, latency, linearity, control, raw
performance, raw units and a reserved variant. -/
def ppssRowSize : Nat := variantSize * 8

/-- `PerformanceControlSet::countPpssRows`.  The length of the raw units is read before it is
known that the row is there, and the second subtraction may wrap. -/
def countPpssRows (bytesRemaining : Int) (data : Nat) : Parse Nat :=
  if 0 < bytesRemaining then
    match h : readU32 m (data + 76) with
    | none => checked none
    | some length =>
      if asIntN length < 0 then throw "Expected string length invalid. (PPSS)"
      else
        let behindRow := wrapIntN (bytesRemaining - ppssRowSize - length.toNat)
        if 0 ≤ behindRow then do
          let rows ← countPpssRows behindRow (data + ppssRowSize + length.toNat)
          pure (rows + 1)
        else throw "Expected binary data size mismatch. (PPSS)"
  else pure 0
termination_by m.length - data
decreasing_by
  have hread : data + 76 + 4 ≤ m.length := (isSome_readU32 m (data + 76)).mp (h ▸ rfl)
  simp only [ppssRowSize, variantSize]
  omega

/-- The body of the loop of `createFromGenericPpss`: the control and the next row. -/
def readPpssRow (data : Nat) : Parse (PerformanceControl × Nat) := do
  let control ← integerValue m data 4
  let power ← integerValue m data 1
  let percent ← integerValue m data 0
  let latency ← integerValue m data 2
  let rawPerformance ← integerValue m data 5
  let length ← checked (readU32 m (data + 76))
  let rawUnits ← checked (readAt m (data + 84) length.toNat)
  pure (⟨control.toUInt32, .performanceState, power.toUInt32,
    divDouble percent.toUInt32.toNat 100, latency.toUInt32, rawPerformance.toUInt32, rawUnits⟩,
    data + ppssRowSize + length.toNat)

/-- The second walk. -/
def readPpssRows : Nat → Nat → Parse (List PerformanceControl)
  | 0, _ => pure []
  | left + 1, data => do
    let (control, next) ← readPpssRow m data
    let controls ← readPpssRows left next
    pure (control :: controls)

/-- `PerformanceControlSet::createFromGenericPpss`. -/
def createFromGenericPpss (buffer : DptfBuffer) : Parse (List PerformanceControl) :=
  if buffer.size = 0 then throw "Received empty PPSS buffer."
  else do
    let rows ← countPpssRows buffer.get (asIntN buffer.size) 0
    readPpssRows buffer.get rows 0

/-- Where the rows start that lie in the buffer one behind the other. -/
inductive PpssRowStart : Nat → Prop
  | first : PpssRowStart 0
  | next {data : Nat} {length : UInt32} (h : PpssRowStart data)
      (hread : readU32 m (data + 76) = some length)
      (hfit : data + ppssRowSize + length.toNat ≤ m.length) :
      PpssRowStart (data + ppssRowSize + length.toNat)

/-- Behind the rows that lie in the buffer there is nothing, or a row with its string length;
and if only the last few bytes of that row are missing, the length is not one that takes the
number of bytes remaining below the least `IntN`. -/
def PpssFits : Prop :=
  ∀ data, PpssRowStart m data → data < m.length →
    ∃ length, readU32 m (data + 76) = some length ∧
      ¬(length.toNat < 2 ^ 31 ∧ m.length + 2 ^ 31 < data + ppssRowSize + length.toNat)

variable {m}

theorem countPpssRows_none (hpos : 0 < bytesRemaining) (hread : readU32 m (data + 76) = none) :
    countPpssRows m bytesRemaining data = checked none := by
  rw [countPpssRows, if_pos hpos]
  split
  · rfl
  · case _ length hsome =>
    rw [hread] at hsome
    cases hsome

theorem countPpssRows_some (hpos : 0 < bytesRemaining) (hread : readU32 m (data + 76) = some length)
    :
    countPpssRows m bytesRemaining data =
      if asIntN length < 0 then throw "Expected string length invalid. (PPSS)"
      else if 0 ≤ wrapIntN (bytesRemaining - ppssRowSize - length.toNat) then do
        let rows ← countPpssRows m (wrapIntN (bytesRemaining - ppssRowSize - length.toNat))
          (data + ppssRowSize + length.toNat)
        pure (rows + 1)
      else throw "Expected binary data size mismatch. (PPSS)" := by
  rw [countPpssRows, if_pos hpos]
  split
  · case _ hnone =>
    rw [hread] at hnone
    cases hnone
  · case _ length' hsome =>
    obtain rfl := Option.some.inj (hread.symm.trans hsome)
    rfl

theorem not_safe_countPpssRows_none (hpos : 0 < bytesRemaining)
    (hread : readU32 m (data + 76) = none) {post : Nat → Prop} :
    ¬Safe (countPpssRows m bytesRemaining data) post := by
  rw [countPpssRows_none hpos hread]
  rintro ⟨r, hr, -⟩
  cases hr

/-- Past the end of the buffer a row cannot be counted. -/
theorem readU32_past (h : m.length ≤ data) : readU32 m (data + 76) = none := by
  rw [readU32_eq, if_neg (by omega)]

/-- If the walk is safe at a row, it is at the next one. -/
theorem safe_countPpssRows_next (hm : m.length < 2 ^ 31)
    (hread : readU32 m (data + 76) = some length)
    (hfit : data + ppssRowSize + length.toNat ≤ m.length)
    (h : Safe (countPpssRows m (m.length - data) data) fun _ => True) :
    Safe (countPpssRows m (m.length - (data + ppssRowSize + length.toNat : Nat))
      (data + ppssRowSize + length.toNat)) fun _ => True := by
  have hrow : ppssRowSize = 96 := rfl
  have hlen : asIntN length = length.toNat := asIntN_eq (by omega)
  have hwrap : wrapIntN (m.length - data - ppssRowSize - length.toNat) =
      m.length - (data + ppssRowSize + length.toNat : Nat) := by
    rw [wrapIntN]
    omega
  rw [countPpssRows_some (by omega) hread, if_neg (by omega), hwrap, if_pos (by omega)] at h
  exact h.of_bind.mono fun _ _ => trivial

theorem PpssRowStart.le (h : PpssRowStart m data) : data ≤ m.length := by
  cases h with
  | first => exact Nat.zero_le _
  | next _ _ hfit => exact hfit

/-- The walk is safe at each of the rows if it is at the first one. -/
theorem PpssRowStart.safe_count (h : PpssRowStart m data) (hm : m.length < 2 ^ 31)
    (hfirst : Safe (countPpssRows m m.length 0) fun _ => True) :
    Safe (countPpssRows m (m.length - data) data) fun _ => True := by
  induction h with
  | first => simpa using hfirst
  | next _ hread hfit ih => exact safe_countPpssRows_next hm hread hfit ih

/-- A walk that is safe meets only rows that fit. -/
theorem ppssFits_of_safe (hm : m.length < 2 ^ 31)
    (hfirst : Safe (countPpssRows m m.length 0) fun _ => True) : PpssFits m := by
  intro data hstart hlt
  have hsafe := hstart.safe_count hm hfirst
  have hpos : (0 : Int) < m.length - data := by omega
  cases hread : readU32 m (data + 76) with
  | none => exact absurd hsafe (not_safe_countPpssRows_none hpos hread)
  | some length =>
    refine ⟨length, rfl, ?_⟩
    rintro ⟨hlen, hwrap⟩
    have hrow : ppssRowSize = 96 := rfl
    -- the number of bytes remaining has become positive again
    have hpos' : 0 < wrapIntN (m.length - data - ppssRowSize - length.toNat) := by
      rw [wrapIntN]
      omega
    have hneg : ¬asIntN length < 0 := not_lt.mpr ((asIntN_nonneg_iff length).mpr hlen)
    rw [countPpssRows_some hpos hread, if_neg hneg, if_pos hpos'.le] at hsafe
    exact not_safe_countPpssRows_none hpos' (readU32_past (by omega)) hsafe.of_bind

/-- A row that lies in the buffer is read. -/
theorem safe_readPpssRow (hread : readU32 m (data + 76) = some length)
    (hfit : data + ppssRowSize + length.toNat ≤ m.length) :
    Safe (readPpssRow m data) fun r => r.2 = data + ppssRowSize + length.toNat := by
  have hrow : data + variantSize * 8 ≤ m.length := by
    have : ppssRowSize = variantSize * 8 := rfl
    omega
  have hunits : readAt m (data + 84) length.toNat = some (peekAt m (data + 84) length.toNat) := by
    have : ppssRowSize = 96 := rfl
    exact if_pos (Or.inr (by omega))
  refine (safe_integerValue (by decide : 4 < 8) hrow).bind fun control _ => ?_
  refine (safe_integerValue (by decide : 1 < 8) hrow).bind fun power _ => ?_
  refine (safe_integerValue (by decide : 0 < 8) hrow).bind fun percent _ => ?_
  refine (safe_integerValue (by decide : 2 < 8) hrow).bind fun latency _ => ?_
  refine (safe_integerValue (by decide : 5 < 8) hrow).bind fun rawPerformance _ => ?_
  exact safe_checked_bind hread (safe_checked_bind hunits (safe_pure rfl))

/-- **What the first walk counts, the second one reads**, if the rows fit. -/
theorem safe_countPpssRows (hm : m.length < 2 ^ 31) (hfits : PpssFits m)
    (hstart : PpssRowStart m data) :
    Safe (countPpssRows m (m.length - data) data) fun rows =>
      Safe (readPpssRows m rows data) fun _ => True := by
  induction hn : m.length - data using Nat.strong_induction_on generalizing data with
  | h n ih =>
  subst hn
  have hle := hstart.le
  by_cases hlt : data < m.length
  · obtain ⟨length, hread, hnowrap⟩ := hfits data hstart hlt
    have hrow : ppssRowSize = 96 := rfl
    rw [countPpssRows_some (by omega) hread]
    refine safe_guard fun hlen => ?_
    have hlength := (asIntN_nonneg_iff length).mp (not_lt.mp hlen)
    refine safe_ite (fun hnn => ?_) (fun _ => safe_throw _ _)
    have hfit : data + ppssRowSize + length.toNat ≤ m.length := by
      rw [wrapIntN] at hnn
      omega
    have hwrap : wrapIntN (m.length - data - ppssRowSize - length.toNat) =
        m.length - (data + ppssRowSize + length.toNat : Nat) := by
      rw [wrapIntN]
      omega
    rw [hwrap]
    refine (ih _ (by omega) (hstart.next hread hfit) rfl).bind fun rows hrows => safe_pure ?_
    refine (safe_readPpssRow hread hfit).bind ?_
    rintro ⟨control, next⟩ rfl
    exact hrows.bind fun controls _ => safe_pure trivial
  · rw [countPpssRows, if_neg (by omega)]
    exact safe_pure (safe_pure trivial)

/-- **When a PPSS is parsed inside its buffer**: the rows fit, or the buffer is so large that
none is looked at. -/
theorem safePpss_iff (buffer : DptfBuffer) :
    Safe (createFromGenericPpss buffer) (fun _ => True) ↔
      PpssFits buffer.get ∨ 2 ^ 31 ≤ buffer.size.toNat := by
  by_cases hlarge : 2 ^ 31 ≤ buffer.size.toNat
  · have hneg : ¬0 < asIntN buffer.size := by
      have hlt : buffer.size.toNat < 2 ^ 32 := buffer.size.toNat_lt
      rw [asIntN, if_neg (by omega)]
      omega
    refine ⟨fun _ => Or.inr hlarge, fun _ => safe_guard fun _ => ?_⟩
    rw [countPpssRows, if_neg hneg]
    have hnone : Safe (pure 0) fun rows => rows = 0 := safe_pure rfl
    refine hnone.bind ?_
    rintro _ rfl
    exact safe_pure trivial
  · have hm : buffer.get.length < 2 ^ 31 := by
      rw [DptfBuffer.length_get]
      omega
    have hsize : asIntN buffer.size = buffer.get.length := by
      rw [DptfBuffer.length_get]
      exact asIntN_eq (by omega)
    constructor
    · intro hsafe
      left
      unfold createFromGenericPpss at hsafe
      by_cases hzero : buffer.size = 0
      · intro data _ hlt
        rw [DptfBuffer.length_get, hzero] at hlt
        exact absurd hlt (Nat.not_lt_zero _)
      · rw [if_neg hzero, hsize] at hsafe
        exact ppssFits_of_safe hm (hsafe.of_bind.mono fun _ _ => trivial)
    · rintro (hfits | h)
      · refine safe_guard fun _ => ?_
        rw [hsize]
        have hcount := safe_countPpssRows hm hfits .first
        simp only [Nat.cast_zero, sub_zero] at hcount
        exact hcount.bind fun rows hrows => hrows
      · exact absurd h hlarge

end Ppss

end Tables

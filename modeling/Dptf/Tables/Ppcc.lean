import Dptf.Lib.KeyMap
import Dptf.Tables.Variant
import Mathlib.Data.List.Perm.Subperm

/-!
# The power capability table

`PowerControlDynamicCapsSet.cpp`.  A revision, and a row for each power control type.  Firmware
may leave out rows; the decoder puts defaults in their places, and the place of a row decides
which, not its type.
-/

open Lib Lib.Parse

namespace Tables

/-! ## Values -/

/-- `MaxValidPower`. -/
def maxValidPower : UInt32 := 10000000

/-- A valid `Power`, in milliwatts. -/
abbrev Power := { p : UInt32 // p ≤ maxValidPower }

/-- `Power::Power(UInt32)`. -/
def newPower (power : UInt32) : Parse Power :=
  if h : power ≤ maxValidPower then pure ⟨power, h⟩
  else throw ("Power value " ++ toString power.toNat ++ " out of valid range.")

/-- `TimeSpan::createFromMilliseconds`. -/
def createFromMilliseconds (milliseconds : Int) : TimeSpan := some (milliseconds * 1000)

/-- `Constants::Invalid`. -/
def invalid : UInt32 := 0xFFFFFFFF

/-- `PowerControlDynamicCaps`.  The type is the number of an enumerator. -/
structure PowerControlDynamicCaps where
  powerControlType : Nat
  minPowerLimit : Option Power
  maxPowerLimit : Option Power
  powerStepSize : Option Power
  minTimeWindow : TimeSpan
  maxTimeWindow : TimeSpan
deriving DecidableEq

/-- `PowerControlDynamicCapsSet`: each of the capabilities under its own type. -/
structure PowerControlDynamicCapsSet where
  capabilities : KeyMap Nat PowerControlDynamicCaps
  type_eq : ∀ k c, capabilities.find k = some c → c.powerControlType = k

namespace PowerControlDynamicCapsSet

def empty : PowerControlDynamicCapsSet := ⟨.empty, fun k c h => by simp at h⟩

/-- `setCapability`. -/
def setCapability (s : PowerControlDynamicCapsSet) (c : PowerControlDynamicCaps) :
    PowerControlDynamicCapsSet where
  capabilities := s.capabilities.assign c.powerControlType c
  type_eq := by
    intro k c' h
    rw [KeyMap.find_assign] at h
    split at h
    · rw [← Option.some.inj h]
      exact Eq.symm ‹_›
    · exact s.type_eq k c' h

/-- The set of some capabilities, one after the other. -/
def ofList (controls : List PowerControlDynamicCaps) : PowerControlDynamicCapsSet :=
  controls.foldl setCapability empty

/-- `getCapability`, `none` for a type that is missing. -/
def find (s : PowerControlDynamicCapsSet) (k : Nat) : Option PowerControlDynamicCaps :=
  s.capabilities.find k

/-- The capabilities in the order of their types. -/
def values (s : PowerControlDynamicCapsSet) : List PowerControlDynamicCaps := s.capabilities.values

end PowerControlDynamicCapsSet

open PowerControlDynamicCapsSet

/-! ## Decoding -/

section Decoding

variable (m : List UInt8)

/-- `sizeof(EsifDataBinaryPpccPackage)`. -/
def ppccRowSize : Nat := variantSize * 6

/-- The low half of `integer.value` of variant `i`. -/
def readUIntN (data i : Nat) : Parse UInt32 := do
  let value ← checked (readU64 m (data + variantSize * i + 4))
  pure value.toUInt32

/-- A power, unless the number says that there is none. -/
def rowPower (value : UInt32) : Parse (Option Power) :=
  if value ≠ invalid then do
    let power ← newPower value
    pure (some power)
  else pure none

/-- A time window, unless the number says that there is none. -/
def rowTime (value : UInt32) : TimeSpan :=
  if value ≠ invalid then createFromMilliseconds value.toNat else none

/-- `getPpccPlRowValues`. -/
def getPpccPlRowValues (data : Nat) : Parse PowerControlDynamicCaps := do
  let powerMin ← readUIntN m data 1 >>= rowPower
  let powerMax ← readUIntN m data 2 >>= rowPower
  let powerStep ← readUIntN m data 5 >>= rowPower
  let timeMin ← readUIntN m data 3
  let timeMax ← readUIntN m data 4
  let index ← readUIntN m data 0
  pure ⟨index.toNat, powerMin, powerMax, powerStep, rowTime timeMin, rowTime timeMax⟩

/-- `getDefaultPpccRowValues`. -/
def getDefaultPpccRowValues (type : Nat) : PowerControlDynamicCaps :=
  ⟨type, none, none, none, none, none⟩

/-- The step size of a default row for PL4. -/
def defaultStep : Power := ⟨500, by decide⟩

/-- `getDefaultPpccPl4RowValues`: the number in the power limit, whether it is valid or not. -/
def getDefaultPpccPl4RowValues (pl4PowerLimit : Option Power) : PowerControlDynamicCaps :=
  let limit : Power := pl4PowerLimit.getD ⟨0, by decide⟩
  ⟨3, some limit, some limit, some defaultStep, createFromMilliseconds 0, createFromMilliseconds 0⟩

variable (pl4PowerLimit : Option Power)

/-- The default that stands in the place of row `i`. -/
def defaultRow (i : Nat) : PowerControlDynamicCaps :=
  if i = 3 then getDefaultPpccPl4RowValues pl4PowerLimit else getDefaultPpccRowValues i

/-- `temp` in round `i`. -/
def ppccRow (originalRowCount i : Nat) : Parse PowerControlDynamicCaps :=
  if originalRowCount < 2 ∧ i = 1 ∨ originalRowCount < 3 ∧ i = 2 ∨ originalRowCount < 4 ∧ i = 3 then
    pure (defaultRow pl4PowerLimit i)
  else getPpccPlRowValues m (variantSize + ppccRowSize * i)

/-- `controls` after a round. -/
def addControl (controls : List PowerControlDynamicCaps) (temp : PowerControlDynamicCaps) :
    List PowerControlDynamicCaps :=
  match controls with
  | [] => [temp]
  | front :: _ =>
    if front.powerControlType < temp.powerControlType then controls ++ [temp] else temp :: controls

/-- The bytes behind the revision, as a `size_t`. -/
def behindRevision (size : UInt32) : Nat := (size.toNat + 2 ^ 64 - variantSize) % 2 ^ 64

/-- The four rounds of the loop, `left` of them to go. -/
def readPpccRows (originalRowCount : Nat) :
    Nat → List PowerControlDynamicCaps → Parse (List PowerControlDynamicCaps)
  | 0, controls => pure controls
  | left + 1, controls => do
    let temp ← ppccRow m pl4PowerLimit originalRowCount (3 - left)
    readPpccRows originalRowCount left (addControl controls temp)

/-- `PowerControlDynamicCapsSet::createFromPpcc`. -/
def createFromPpcc (buffer : DptfBuffer) : Parse PowerControlDynamicCapsSet :=
  if buffer.size = 0 then throw "Received empty PPCC buffer."
  else if behindRevision buffer.size % ppccRowSize ≠ 0 then
    throw "Expected binary data size mismatch. (PPCC)"
  else do
    let originalRowCount := behindRevision buffer.size / ppccRowSize % 2 ^ 32
    let controls ← readPpccRows buffer.get pl4PowerLimit originalRowCount 4 []
    pure (ofList controls)

end Decoding

/-! ## Encoding -/

/-- The number a power is encoded as. -/
def encodedPower : Option Power → UInt64
  | some power => power.val.toUInt64
  | none => invalid.toUInt64

/-- The number a time window is encoded as; the quotient is exact in a `double` up to 2⁵³
microseconds. -/
def encodedTime : TimeSpan → UInt64
  | some microseconds => UInt64.ofInt (microseconds.tdiv 1000)
  | none => invalid.toUInt64

/-- `package`. -/
def ppccPackage (c : PowerControlDynamicCaps) : List Field :=
  [UInt64.ofNat c.powerControlType, encodedPower c.minPowerLimit, encodedPower c.maxPowerLimit,
    encodedTime c.minTimeWindow, encodedTime c.maxTimeWindow,
    encodedPower c.powerStepSize].flatMap numberVariant

/-- `packages`. -/
def ppccPackages (s : PowerControlDynamicCapsSet) : List UInt8 :=
  s.values.flatMap fun c => pack (ppccPackage c)

/-- `PowerControlDynamicCapsSet::toPpccBinary`. -/
def toPpccBinary (s : PowerControlDynamicCapsSet) : DptfBuffer :=
  let sizeOfRevision : UInt32 := 12
  let sizeOfPackages : UInt32 := UInt32.ofNat s.values.length * 72
  let buffer := DptfBuffer.allocate (sizeOfRevision + sizeOfPackages).toNat
  (buffer.put 0 (pack (numberVariant 2)) sizeOfRevision).put sizeOfRevision (ppccPackages s)
    sizeOfPackages

/-! ## Any buffer -/

section AnyBuffer

variable {m : List UInt8} {pl4PowerLimit : Option Power}
variable {data i count : Nat}

theorem safe_readUIntN (hi : i < 6) (h : data + ppccRowSize ≤ m.length) :
    Safe (readUIntN m data i) fun _ => True := by
  have hle : data + variantSize * i + 4 + 8 ≤ m.length := by
    rw [ppccRowSize, variantSize] at h
    rw [variantSize]
    omega
  exact (safe_checked ((isSome_readU64 m _).mpr hle)).bind fun value _ => safe_pure trivial

theorem safe_newPower (value : UInt32) : Safe (newPower value) fun _ => True := by
  unfold newPower
  split
  · exact safe_pure trivial
  · exact safe_throw _ _

theorem safe_rowPower (value : UInt32) : Safe (rowPower value) fun _ => True :=
  safe_ite (fun _ => (safe_newPower value).bind fun _ _ => safe_pure trivial)
    fun _ => safe_pure trivial

theorem safe_getPpccPlRowValues (h : data + ppccRowSize ≤ m.length) :
    Safe (getPpccPlRowValues m data) fun _ => True := by
  refine ((safe_readUIntN (by decide : 1 < 6) h).bind fun v _ => safe_rowPower v).bind
    fun powerMin _ => ?_
  refine ((safe_readUIntN (by decide : 2 < 6) h).bind fun v _ => safe_rowPower v).bind
    fun powerMax _ => ?_
  refine ((safe_readUIntN (by decide : 5 < 6) h).bind fun v _ => safe_rowPower v).bind
    fun powerStep _ => ?_
  refine (safe_readUIntN (by decide : 3 < 6) h).bind fun timeMin _ => ?_
  refine (safe_readUIntN (by decide : 4 < 6) h).bind fun timeMax _ => ?_
  exact (safe_readUIntN (by decide : 0 < 6) h).bind fun index _ => safe_pure trivial

theorem safe_ppccRow (hi : i < 4) (hpos : 0 < count)
    (h : variantSize + ppccRowSize * count ≤ m.length) :
    Safe (ppccRow m pl4PowerLimit count i) fun _ => True := by
  refine safe_ite (fun _ => safe_pure trivial) fun hread => ?_
  have hlt : i < count := by omega
  have hmul : ppccRowSize * (i + 1) ≤ ppccRowSize * count := Nat.mul_le_mul_left _ hlt
  rw [Nat.mul_succ] at hmul
  exact safe_getPpccPlRowValues (by omega)

theorem safe_readPpccRows (hpos : 0 < count) (h : variantSize + ppccRowSize * count ≤ m.length)
    (left : Nat) (controls : List PowerControlDynamicCaps) :
    Safe (readPpccRows m pl4PowerLimit count left controls) fun _ => True := by
  induction left generalizing controls with
  | zero => exact safe_pure trivial
  | succ left ih =>
    exact (safe_ppccRow (by omega) hpos h).bind fun temp _ => ih _

/-- The rows of a buffer that has them without a remainder. -/
theorem behindRevision_eq {size : UInt32} (hne : size ≠ 0)
    (hmod : behindRevision size % ppccRowSize = 0) :
    variantSize ≤ size.toNat ∧ behindRevision size = size.toNat - variantSize := by
  have hlt : size.toNat < 2 ^ 32 := size.toNat_lt
  have hpos : size.toNat ≠ 0 := fun hz => hne (UInt32.toNat_inj.mp hz)
  -- a difference that wraps leaves a remainder
  have hwraps : ∀ n < 12, n ≠ 0 → (n + 2 ^ 64 - 12) % 2 ^ 64 % 72 ≠ 0 := by decide
  have hle : 12 ≤ size.toNat := by
    by_contra hshort
    exact hwraps size.toNat (not_le.mp hshort) hpos hmod
  refine ⟨hle, ?_⟩
  simp only [behindRevision, variantSize]
  omega

/-- **When a PPCC is parsed inside its buffer**: unless that is a revision alone. -/
theorem safePpcc_iff (buffer : DptfBuffer) (pl4PowerLimit : Option Power) :
    Safe (createFromPpcc pl4PowerLimit buffer) (fun _ => True) ↔ buffer.size.toNat ≠ 12 := by
  have hvariant : variantSize = 12 := rfl
  have hrow : ppccRowSize = 72 := rfl
  constructor
  · intro hsafe hsize
    have hne : buffer.size ≠ 0 := by
      intro hz
      rw [hz] at hsize
      cases hsize
    have hbehind : behindRevision buffer.size = 0 := by
      rw [behindRevision, hsize]
      decide
    unfold createFromPpcc at hsafe
    rw [if_neg hne, hbehind, if_neg (by decide)] at hsafe
    have hread : readU64 buffer.get (variantSize + ppccRowSize * 0 + variantSize * 1 + 4) = none := by
      rw [readU64_eq, DptfBuffer.length_get, hsize]
      rfl
    exact not_safe_checked_bind hread hsafe.of_bind.of_bind.of_bind.of_bind
  · intro hsize
    refine safe_guard fun hne => safe_guard fun hmod => ?_
    obtain ⟨hle, hbehind⟩ := behindRevision_eq hne (not_not.mp hmod)
    have hlt : buffer.size.toNat < 2 ^ 32 := buffer.size.toNat_lt
    rw [not_not] at hmod
    rw [hbehind, hrow] at hmod ⊢
    have hcount : (buffer.size.toNat - variantSize) / 72 % 2 ^ 32 =
        (buffer.size.toNat - variantSize) / 72 := Nat.mod_eq_of_lt (by omega)
    rw [hcount]
    refine (safe_readPpccRows (by omega) ?_ 4 []).bind fun controls _ => safe_pure trivial
    rw [DptfBuffer.length_get, hrow]
    omega

end AnyBuffer

/-! ## Sets that come back -/

/-- A time window the encoding has a number for: invalid, or whole milliseconds. -/
def WholeMilliseconds (t : TimeSpan) : Prop :=
  ∀ microseconds, t = some microseconds → ∃ ms : UInt32, microseconds = ms.toNat * 1000

/-- What a set should be: PL1 and any of the other three, with such time windows. -/
structure EncodablePpcc (s : PowerControlDynamicCapsSet) : Prop where
  pl1 : (s.find 0).isSome
  types : ∀ k c, s.find k = some c → k < 4
  times : ∀ k c, s.find k = some c →
    WholeMilliseconds c.minTimeWindow ∧ WholeMilliseconds c.maxTimeWindow

/-- What is decoded agrees with the set on each type of it. -/
def AgreesPpcc (pl4PowerLimit : Option Power) (s : PowerControlDynamicCapsSet) : Prop :=
  ∃ s', Returns (createFromPpcc pl4PowerLimit (toPpccBinary s)) s' ∧
    ∀ k c, s.find k = some c → s'.find k = some c

/-- The milliseconds that stand for an invalid time window. -/
def invalidTime : TimeSpan := createFromMilliseconds invalid.toNat

/-- No time window is taken for an invalid one, and no type lies in the place of a default row
with other values. -/
structure PpccFits (pl4PowerLimit : Option Power) (s : PowerControlDynamicCapsSet) : Prop where
  times : ∀ k c, s.find k = some c → c.minTimeWindow ≠ invalidTime ∧ c.maxTimeWindow ≠ invalidTime
  defaults : ∀ k c, s.find k = some c → s.values.length ≤ k → c = defaultRow pl4PowerLimit k

/-! ## What is found in a set -/

section Find

variable {s : PowerControlDynamicCapsSet} {controls : List PowerControlDynamicCaps}
variable {c : PowerControlDynamicCaps}

theorem find_setCapability (s : PowerControlDynamicCapsSet) (c : PowerControlDynamicCaps) (k : Nat) :
    (s.setCapability c).find k = if k = c.powerControlType then some c else s.find k :=
  KeyMap.find_assign _ _ _ _

theorem find_foldl_of_ne {k : Nat} (h : ∀ c ∈ controls, c.powerControlType ≠ k) :
    (controls.foldl setCapability s).find k = s.find k := by
  induction controls generalizing s with
  | nil => rfl
  | cons c controls ih =>
    rw [List.foldl_cons, ih fun c' hc' => h c' (List.mem_cons_of_mem c hc'), find_setCapability,
      if_neg (h c List.mem_cons_self).symm]

theorem find_foldl_of_mem (h : controls.Pairwise fun a b => a.powerControlType ≠ b.powerControlType)
    (hc : c ∈ controls) : (controls.foldl setCapability s).find c.powerControlType = some c := by
  induction controls generalizing s with
  | nil => cases hc
  | cons c' controls ih =>
    obtain ⟨hhead, htail⟩ := List.pairwise_cons.mp h
    rcases List.mem_cons.mp hc with rfl | hmem
    · rw [List.foldl_cons, find_foldl_of_ne fun c'' hc'' => (hhead c'' hc'').symm,
        find_setCapability, if_pos rfl]
    · exact ih htail hmem

theorem mem_values_iff : c ∈ s.values ↔ s.find c.powerControlType = some c := by
  rw [PowerControlDynamicCapsSet.values, KeyMap.mem_values_iff]
  constructor
  · rintro ⟨k, hk⟩
    rw [s.type_eq k c hk]
    exact hk
  · exact fun h => ⟨_, h⟩

/-- The values come in the order of their types. -/
theorem ascending_values (s : PowerControlDynamicCapsSet) :
    s.values.Pairwise fun a b => a.powerControlType < b.powerControlType := by
  refine List.pairwise_map.mpr (s.capabilities.ascending.imp_of_mem ?_)
  rintro ⟨k, c⟩ ⟨k', c'⟩ hmem hmem' hlt
  have hk := s.type_eq k c ((KeyMap.mem_entries_iff _ k c).mp hmem)
  have hk' := s.type_eq k' c' ((KeyMap.mem_entries_iff _ k' c').mp hmem')
  rw [hk, hk']
  exact hlt

end Find

/-! ## Reading a row back -/

section Rows

variable {m : List UInt8} {pl4PowerLimit : Option Power} {s : PowerControlDynamicCapsSet}

/-- What is read of a row: a time window may have become invalid. -/
def readBack (c : PowerControlDynamicCaps) : PowerControlDynamicCaps :=
  { c with
    minTimeWindow := rowTime (encodedTime c.minTimeWindow).toUInt32
    maxTimeWindow := rowTime (encodedTime c.maxTimeWindow).toUInt32 }

theorem rowTime_encodedTime {t : TimeSpan} (h : WholeMilliseconds t) :
    rowTime (encodedTime t).toUInt32 = if t = invalidTime then none else t := by
  cases t with
  | none => rfl
  | some microseconds =>
    obtain ⟨ms, rfl⟩ := h microseconds rfl
    have hms : (encodedTime (some ((ms.toNat : Int) * 1000))).toUInt32 = ms := by
      show (UInt64.ofInt (((ms.toNat : Int) * 1000).tdiv 1000)).toUInt32 = ms
      rw [Int.mul_tdiv_cancel _ (by decide), toUInt32_ofInt]
    have hinvalid : invalidTime = some ((invalid.toNat : Int) * 1000) := rfl
    rw [hms, rowTime, hinvalid]
    by_cases hi : ms = invalid
    · rw [hi, if_neg (not_not.mpr rfl), if_pos rfl]
    · have hne : ¬(some ((ms.toNat : Int) * 1000) : TimeSpan) = some ((invalid.toNat : Int) * 1000) := by
        intro heq
        have hmul := Option.some.inj heq
        exact hi (UInt32.toNat_inj.mp (by omega))
      rw [if_pos hi, if_neg hne]
      rfl

theorem rowTime_eq_iff {t : TimeSpan} (h : WholeMilliseconds t) :
    rowTime (encodedTime t).toUInt32 = t ↔ t ≠ invalidTime := by
  rw [rowTime_encodedTime h]
  by_cases ht : t = invalidTime
  · rw [if_pos ht, ht]
    simp [invalidTime, createFromMilliseconds]
  · simp [ht]

theorem returns_rowPower (power : Option Power) :
    Returns (rowPower (encodedPower power).toUInt32) power := by
  cases power with
  | none => exact returns_pure_iff.mpr rfl
  | some power =>
    obtain ⟨value, hvalue⟩ := power
    have hback : (encodedPower (some ⟨value, hvalue⟩)).toUInt32 = value := by
      simp [encodedPower]
    have hne : value ≠ invalid := by
      rintro rfl
      exact absurd hvalue (by decide)
    rw [hback, rowPower, if_pos hne, newPower, dif_pos hvalue]
    exact (returns_pure_iff.mpr rfl).bind (returns_pure_iff.mpr rfl)

/-- **A row is read back**, but for time windows that are taken for invalid ones. -/
theorem returns_getPpccPlRowValues {c : PowerControlDynamicCaps} {data : Nat}
    (hat : HasAt m data (pack (ppccPackage c))) (htype : c.powerControlType < 4) :
    Returns (getPpccPlRowValues m data) (readBack c) := by
  have hread : ∀ (i : Nat) (v : UInt64), fieldAt (ppccPackage c) (variantSize * i + 4) =
      some (.u64 v) → Returns (readUIntN m data i) v.toUInt32 := by
    intro i v hfield
    have hvalue : readU64 m (data + (variantSize * i + 4)) = some v := (hat.field _ hfield).readU64
    exact (returns_checked_iff.mpr (by rwa [Nat.add_assoc])).bind (returns_pure_iff.mpr rfl)
  have hindex : (UInt64.ofNat c.powerControlType).toUInt32.toNat = c.powerControlType := by
    rw [UInt64.toNat_toUInt32, UInt64.toNat_ofNat', Nat.mod_eq_of_lt (by omega : _ < 2 ^ 64),
      Nat.mod_eq_of_lt (by omega)]
  refine ((hread 1 _ rfl).bind (returns_rowPower c.minPowerLimit)).bind ?_
  refine ((hread 2 _ rfl).bind (returns_rowPower c.maxPowerLimit)).bind ?_
  refine ((hread 5 _ rfl).bind (returns_rowPower c.powerStepSize)).bind ?_
  refine (hread 3 _ rfl).bind ((hread 4 _ rfl).bind ((hread 0 _ rfl).bind ?_))
  exact returns_pure_iff.mpr (by rw [hindex]; rfl)

theorem length_ppccPackage (c : PowerControlDynamicCaps) : (pack (ppccPackage c)).length = 72 := by
  simp [ppccPackage, List.flatMap_cons, pack_append, variantSize]

/-- Each of the rows is in its place. -/
theorem hasAt_ppccPackage {cs : List PowerControlDynamicCaps} {data : Nat}
    (hat : HasAt m data (cs.flatMap fun c => pack (ppccPackage c))) {i : Nat}
    (hi : i < cs.length) : HasAt m (data + ppccRowSize * i) (pack (ppccPackage cs[i])) := by
  induction cs generalizing data i with
  | nil => exact absurd hi (Nat.not_lt_zero i)
  | cons c cs ih =>
    rw [List.flatMap_cons] at hat
    cases i with
    | zero => exact hat.left
    | succ i =>
      have hnext := ih hat.right (Nat.lt_of_succ_lt_succ hi)
      rw [length_ppccPackage] at hnext
      have hrow : ppccRowSize = 72 := rfl
      rwa [show data + 72 + ppccRowSize * i = data + ppccRowSize * (i + 1) by
        rw [hrow]
        omega] at hnext

end Rows

/-! ## The rounds -/

section Rounds

variable {pl4PowerLimit : Option Power} {s : PowerControlDynamicCapsSet}
variable {c : PowerControlDynamicCaps}

theorem length_values_le (h : EncodablePpcc s) : s.values.length ≤ 4 := by
  have hnodup : (s.values.map (·.powerControlType)).Nodup :=
    List.pairwise_map.mpr ((ascending_values s).imp fun h => Nat.ne_of_lt h)
  have hsub : s.values.map (·.powerControlType) ⊆ List.range 4 := by
    intro k hk
    obtain ⟨c, hc, rfl⟩ := List.mem_map.mp hk
    exact List.mem_range.mpr (h.types _ _ (mem_values_iff.mp hc))
  simpa using (List.subperm_of_subset hnodup hsub).length_le

/-- PL1 comes first. -/
theorem exists_values_eq_cons (h : EncodablePpcc s) :
    ∃ front more, s.values = front :: more ∧ front.powerControlType = 0 := by
  obtain ⟨pl1, hpl1⟩ := Option.isSome_iff_exists.mp h.pl1
  have htype : pl1.powerControlType = 0 := s.type_eq 0 pl1 hpl1
  have hmem : pl1 ∈ s.values := mem_values_iff.mpr (by rw [htype]; exact hpl1)
  have hascending := ascending_values s
  cases hvalues : s.values with
  | nil => simp [hvalues] at hmem
  | cons front more =>
    refine ⟨front, more, rfl, ?_⟩
    rw [hvalues] at hmem hascending
    rcases List.mem_cons.mp hmem with rfl | hmore
    · exact htype
    · have := (List.pairwise_cons.mp hascending).1 pl1 hmore
      omega

/-- What stands in place `i` of the controls. -/
def rowOf (pl4PowerLimit : Option Power) (s : PowerControlDynamicCapsSet) (i : Nat) :
    PowerControlDynamicCaps :=
  ((s.values.map readBack)[i]?).getD (defaultRow pl4PowerLimit i)

theorem rowOf_of_lt {i : Nat} (h : i < s.values.length) :
    rowOf pl4PowerLimit s i = readBack s.values[i] := by
  simp [rowOf, h]

theorem rowOf_of_le {i : Nat} (h : s.values.length ≤ i) :
    rowOf pl4PowerLimit s i = defaultRow pl4PowerLimit i := by
  simp [rowOf, h]

theorem type_defaultRow (pl4PowerLimit : Option Power) (i : Nat) :
    (defaultRow pl4PowerLimit i).powerControlType = i := by
  unfold defaultRow
  split
  · exact Eq.symm ‹_›
  · rfl

/-- All the rows but the first have another type than PL1. -/
theorem type_rowOf (pl4PowerLimit : Option Power) (h : EncodablePpcc s) :
    (rowOf pl4PowerLimit s 0).powerControlType = 0 ∧
      ∀ i, 0 < i → 0 < (rowOf pl4PowerLimit s i).powerControlType := by
  obtain ⟨front, more, hvalues, hfront⟩ := exists_values_eq_cons h
  have hascending := ascending_values s
  rw [hvalues] at hascending
  constructor
  · simp [rowOf, hvalues, readBack, hfront]
  · intro i hi
    obtain ⟨j, rfl⟩ : ∃ j, i = j + 1 := ⟨i - 1, by omega⟩
    by_cases hlt : j < more.length
    · have hmem : more[j] ∈ more := List.getElem_mem hlt
      have := (List.pairwise_cons.mp hascending).1 _ hmem
      simp only [rowOf, hvalues, List.map_cons, List.getElem?_cons_succ, List.getElem?_map,
        List.getElem?_eq_getElem hlt, Option.map_some, Option.getD_some, readBack]
      omega
    · rw [rowOf_of_le (by rw [hvalues, List.length_cons]; omega), type_defaultRow]
      exact hi

theorem length_ppccPackages (s : PowerControlDynamicCapsSet) :
    (ppccPackages s).length = 72 * s.values.length := by
  rw [ppccPackages, List.length_flatMap]
  simp [length_ppccPackage, Nat.mul_comm]

/-- **What is encoded.** -/
theorem bytes_toPpccBinary (h : EncodablePpcc s) :
    (toPpccBinary s).bytes = pack (numberVariant 2) ++ ppccPackages s := by
  have hle := length_values_le h
  have hlength := length_ppccPackages s
  refine DptfBuffer.bytes_behind_revision (length_numberVariant 2) ?_ (by omega)
  have hseventy : (72 : UInt32).toNat = 72 := rfl
  rw [UInt32.toNat_mul, UInt32.toNat_ofNat', hseventy, hlength]
  omega

theorem toNat_size_toPpccBinary (h : EncodablePpcc s) :
    (toPpccBinary s).size.toNat = 12 + 72 * s.values.length ∧
      (toPpccBinary s).get = (toPpccBinary s).bytes := by
  have hle := length_values_le h
  have hlength : (toPpccBinary s).bytes.length = 12 + 72 * s.values.length := by
    rw [bytes_toPpccBinary h, List.length_append, length_ppccPackages]
    rfl
  have hlt : (toPpccBinary s).bytes.length < 2 ^ 32 := by omega
  exact ⟨by rw [DptfBuffer.toNat_size_of_lt hlt, hlength], DptfBuffer.get_eq hlt⟩

/-- Each round gives the row of its place. -/
theorem returns_ppccRow (h : EncodablePpcc s) {i : Nat} (hi : i < 4) :
    Returns (ppccRow (toPpccBinary s).get pl4PowerLimit s.values.length i)
      (rowOf pl4PowerLimit s i) := by
  obtain ⟨front, more, hvalues, -⟩ := exists_values_eq_cons h
  have hpos : 0 < s.values.length := by simp [hvalues]
  unfold ppccRow
  by_cases hlt : i < s.values.length
  · have hbytes : HasAt (toPpccBinary s).get 0 (pack (numberVariant 2) ++ ppccPackages s) := by
      rw [(toNat_size_toPpccBinary h).2, bytes_toPpccBinary h]
      exact hasAt_self _
    have hright := hbytes.right
    rw [length_numberVariant, Nat.zero_add] at hright
    have htype := h.types _ _ (mem_values_iff.mp (List.getElem_mem hlt))
    rw [if_neg (by omega), rowOf_of_lt hlt]
    exact returns_getPpccPlRowValues (hasAt_ppccPackage hright hlt) htype
  · rw [if_pos (by omega), rowOf_of_le (not_lt.mp hlt)]
    exact returns_pure_iff.mpr rfl

/-- **What is decoded**: the rows in their places. -/
theorem returns_createFromPpcc (h : EncodablePpcc s) :
    Returns (createFromPpcc pl4PowerLimit (toPpccBinary s))
      (ofList ((List.range 4).map (rowOf pl4PowerLimit s))) := by
  have hle := length_values_le h
  have hsize := (toNat_size_toPpccBinary h).1
  have hne : (toPpccBinary s).size ≠ 0 := by
    intro hz
    rw [hz] at hsize
    have : (0 : UInt32).toNat = 0 := rfl
    omega
  have hbehind : behindRevision (toPpccBinary s).size = 72 * s.values.length := by
    rw [behindRevision, hsize, variantSize]
    omega
  have hrow : ppccRowSize = 72 := rfl
  have hcount : 72 * s.values.length / 72 % 2 ^ 32 = s.values.length := by omega
  have hcontrols : Returns (readPpccRows (toPpccBinary s).get pl4PowerLimit s.values.length 4 [])
      ((List.range 4).map (rowOf pl4PowerLimit s)) := by
    obtain ⟨hfirst, hmore⟩ := type_rowOf pl4PowerLimit h
    refine (returns_ppccRow h (by decide : 0 < 4)).bind ?_
    refine (returns_ppccRow h (by decide : 1 < 4)).bind ?_
    refine (returns_ppccRow h (by decide : 2 < 4)).bind ?_
    refine (returns_ppccRow h (by decide : 3 < 4)).bind (returns_pure_iff.mpr ?_)
    simp [addControl, hfirst, hmore 1, hmore 2, hmore 3, List.range_succ]
  unfold createFromPpcc
  rw [if_neg hne, hbehind, hrow, if_neg (by omega), hcount]
  exact hcontrols.bind (returns_pure_iff.mpr rfl)

/-- What is found in it: the default in the place of a missing row, else the row. -/
theorem find_rows (h : EncodablePpcc s) {k : Nat} (hfind : s.find k = some c) :
    (ofList ((List.range 4).map (rowOf pl4PowerLimit s))).find k =
      some (if s.values.length ≤ k then defaultRow pl4PowerLimit k else readBack c) := by
  have hle := length_values_le h
  obtain ⟨n, hn⟩ : ∃ n, s.values.length + n = 4 := ⟨4 - s.values.length, by omega⟩
  have hsplit : (List.range 4).map (rowOf pl4PowerLimit s) = s.values.map readBack ++
      (List.range n).map fun j => defaultRow pl4PowerLimit (s.values.length + j) := by
    rw [← hn, List.range_add, List.map_append, List.map_map]
    congr 1
    · apply List.ext_getElem
      · simp
      · intro i hi hi'
        simp only [List.length_map, List.length_range] at hi
        simp [rowOf_of_lt hi]
    · exact List.map_congr_left fun j _ => rowOf_of_le (Nat.le_add_right _ j)
  have htype : c.powerControlType = k := s.type_eq k c hfind
  have hmem : readBack c ∈ s.values.map readBack :=
    List.mem_map_of_mem (mem_values_iff.mpr (by rw [htype]; exact hfind))
  have hread : (s.values.map readBack).Pairwise fun a b =>
      a.powerControlType ≠ b.powerControlType :=
    List.pairwise_map.mpr ((ascending_values s).imp fun h => Nat.ne_of_lt h)
  have hdefaults : ((List.range n).map fun j => defaultRow pl4PowerLimit (s.values.length + j))
      |>.Pairwise fun a b => a.powerControlType ≠ b.powerControlType := by
    refine List.pairwise_map.mpr (List.pairwise_lt_range.imp fun {a b} hlt => ?_)
    rw [type_defaultRow, type_defaultRow]
    omega
  rw [hsplit, ofList, List.foldl_append]
  by_cases hdefault : s.values.length ≤ k
  · have hk := h.types k c hfind
    have hin : defaultRow pl4PowerLimit k ∈
        (List.range n).map fun j => defaultRow pl4PowerLimit (s.values.length + j) :=
      List.mem_map.mpr ⟨k - s.values.length, List.mem_range.mpr (by omega), by
        rw [Nat.add_sub_cancel' hdefault]⟩
    have hfound := find_foldl_of_mem (s := (s.values.map readBack).foldl setCapability empty)
      hdefaults hin
    rw [type_defaultRow] at hfound
    rw [hfound, if_pos hdefault]
  · rw [find_foldl_of_ne, if_neg hdefault, ← htype]
    · exact find_foldl_of_mem hread hmem
    · intro d hd
      obtain ⟨j, -, rfl⟩ := List.mem_map.mp hd
      rw [type_defaultRow]
      omega

theorem readBack_eq_iff (hmin : WholeMilliseconds c.minTimeWindow)
    (hmax : WholeMilliseconds c.maxTimeWindow) :
    readBack c = c ↔ c.minTimeWindow ≠ invalidTime ∧ c.maxTimeWindow ≠ invalidTime := by
  rw [← rowTime_eq_iff hmin, ← rowTime_eq_iff hmax]
  obtain ⟨type, minPower, maxPower, step, minTime, maxTime⟩ := c
  simp [readBack]

/-- The default rows have no time window that is taken for an invalid one. -/
theorem defaultRow_times (pl4PowerLimit : Option Power) (k : Nat) :
    (defaultRow pl4PowerLimit k).minTimeWindow ≠ invalidTime ∧
      (defaultRow pl4PowerLimit k).maxTimeWindow ≠ invalidTime := by
  have hzero : createFromMilliseconds 0 ≠ invalidTime := by decide
  have hnone : (none : TimeSpan) ≠ invalidTime := by decide
  unfold defaultRow
  split
  · exact ⟨hzero, hzero⟩
  · exact ⟨hnone, hnone⟩

/-- **When a set comes back**: if no time window is taken for an invalid one, and a type in the
place of a default row has the values of that. -/
theorem agreesPpcc_iff (h : EncodablePpcc s) (pl4PowerLimit : Option Power) :
    AgreesPpcc pl4PowerLimit s ↔ PpccFits pl4PowerLimit s := by
  constructor
  · rintro ⟨s', hdec, hagrees⟩
    rw [hdec.unique (returns_createFromPpcc h)] at hagrees
    have hvalue : ∀ k c, s.find k = some c →
        (if s.values.length ≤ k then defaultRow pl4PowerLimit k else readBack c) = c :=
      fun k c hfind => Option.some.inj ((find_rows h hfind).symm.trans (hagrees k c hfind))
    constructor
    · intro k c hfind
      have hc := hvalue k c hfind
      by_cases hk : s.values.length ≤ k
      · rw [if_pos hk] at hc
        rw [← hc]
        exact defaultRow_times pl4PowerLimit k
      · rw [if_neg hk] at hc
        obtain ⟨hmin, hmax⟩ := h.times k c hfind
        exact (readBack_eq_iff hmin hmax).mp hc
    · intro k c hfind hk
      have hc := hvalue k c hfind
      rw [if_pos hk] at hc
      exact hc.symm
  · intro hfits
    refine ⟨_, returns_createFromPpcc h, fun k c hfind => ?_⟩
    rw [find_rows h hfind]
    by_cases hk : s.values.length ≤ k
    · rw [if_pos hk, hfits.defaults k c hfind hk]
    · obtain ⟨hmin, hmax⟩ := h.times k c hfind
      rw [if_neg hk, (readBack_eq_iff hmin hmax).mpr (hfits.times k c hfind)]

end Rounds

/-- **The codec of the power capability table.** -/
theorem ppccCodec (buffer : DptfBuffer) {s : PowerControlDynamicCapsSet} (h : EncodablePpcc s)
    (pl4PowerLimit : Option Power) :
    (Safe (createFromPpcc pl4PowerLimit buffer) (fun _ => True) ↔ buffer.size.toNat ≠ 12) ∧
      (AgreesPpcc pl4PowerLimit s ↔ PpccFits pl4PowerLimit s) :=
  ⟨safePpcc_iff buffer pl4PowerLimit, agreesPpcc_iff h pl4PowerLimit⟩

/-- PL1 with nothing, and PL2 with a minimum of one watt. -/
def twoTypes : PowerControlDynamicCapsSet :=
  ofList [⟨0, none, none, none, none, none⟩,
    ⟨1, some ⟨1000, by decide⟩, none, none, none, none⟩]

theorem find_twoTypes (k : Nat) : twoTypes.find k =
    if k = 1 then some ⟨1, some ⟨1000, by decide⟩, none, none, none, none⟩
    else if k = 0 then some ⟨0, none, none, none, none, none⟩ else none := by
  rw [twoTypes, ofList, List.foldl_cons, List.foldl_cons, List.foldl_nil, find_setCapability,
    find_setCapability]
  rfl

theorem encodable_twoTypes : EncodablePpcc twoTypes where
  pl1 := by rw [find_twoTypes]; rfl
  types := by
    intro k c h
    rw [find_twoTypes] at h
    split at h
    · omega
    · split at h
      · omega
      · cases h
  times := by
    have hnone : WholeMilliseconds none := fun _ h => by cases h
    intro k c h
    rw [find_twoTypes] at h
    split at h
    · cases h
      exact ⟨hnone, hnone⟩
    · split at h
      · cases h
        exact ⟨hnone, hnone⟩
      · cases h

theorem fits_twoTypes : PpccFits none twoTypes where
  times := by
    intro k c h
    rw [find_twoTypes] at h
    split at h
    · cases h
      exact ⟨by decide, by decide⟩
    · split at h
      · cases h
        exact ⟨by decide, by decide⟩
      · cases h
  defaults := by
    intro k c h hk
    have hlength : twoTypes.values.length = 2 := by decide
    rw [find_twoTypes] at h
    split at h
    · omega
    · split at h
      · omega
      · cases h

/-- Both rows come back, and a buffer of one byte is read inside. -/
theorem ppccCodec_twoTypes :
    Safe (createFromPpcc none ⟨[0]⟩) (fun _ => True) ∧ AgreesPpcc none twoTypes := by
  obtain ⟨hsafe, hagrees⟩ := ppccCodec ⟨[0]⟩ encodable_twoTypes none
  exact ⟨hsafe.mpr (by decide), hagrees.mpr fits_twoTypes⟩

/-- A revision alone is read past its end. -/
theorem not_ppccCodec :
    ¬∀ (buffer : DptfBuffer) (s : PowerControlDynamicCapsSet) (pl4PowerLimit : Option Power),
      EncodablePpcc s →
        Safe (createFromPpcc pl4PowerLimit buffer) (fun _ => True) ∧
          AgreesPpcc pl4PowerLimit s := by
  intro hall
  have hsafe := (hall (.allocate 12) twoTypes none encodable_twoTypes).1
  exact (safePpcc_iff (.allocate 12) none).mp hsafe rfl

end Tables

import Dptf.Tables.StringRows

/-!
# The thermal relationship table

`ThermalRelationshipTable.cpp`.  The table has a row for each source and target device, with
its influence and its sampling period.

* `trtCodec` — the decoder throws or reads the buffer to its end, and gives back what was
  encoded, exactly as long as the size of the buffer is a number of type `IntN`.
-/

open Lib Lib.Parse

namespace Tables

/-- `ThermalRelationshipTableEntry`; the indexes and domain types of a new entry are all
invalid. -/
structure ThermalRelationshipTableEntry where
  sourceDeviceScope : Scope
  targetDeviceScope : Scope
  thermalInfluence : UInt32
  thermalSamplingPeriod : TimeSpan
deriving DecidableEq

/-- `EsifDataBinaryTrtPackage`: influence, sampling period and four reserved numbers. -/
def trtLayout : RowLayout where
  numbers := 6
  used := 2
  used_le := by decide
  message := "Expected binary data size mismatch. (TRT)"

namespace ThermalRelationshipTableEntry

/-- `isSameAs`. -/
def isSameAs (e e' : ThermalRelationshipTableEntry) : Bool :=
  e.sourceDeviceScope = e'.sourceDeviceScope ∧ e.targetDeviceScope = e'.targetDeviceScope

/-- The entry made of a row. -/
def ofRow (row : Row) : ThermalRelationshipTableEntry where
  sourceDeviceScope := normalizeAcpiScope row.source
  targetDeviceScope := normalizeAcpiScope row.target
  thermalInfluence := (row.numbers.getD 0 0).toUInt32
  thermalSamplingPeriod := createFromTenthSeconds (row.numbers.getD 1 0).toUInt32.toNat

/-- The row of an entry whose sampling period is this many tenths of a second. -/
def row (e : ThermalRelationshipTableEntry) (tenthSeconds : Int) : Row where
  source := e.sourceDeviceScope
  target := e.targetDeviceScope
  numbers := [e.thermalInfluence.toUInt64, UInt64.ofInt tenthSeconds, 0, 0, 0, 0]

/-- `entryPackage`. -/
def toRow (e : ThermalRelationshipTableEntry) : Parse Row := do
  let tenthSeconds ← asTenthSecondsInt e.thermalSamplingPeriod
  pure (e.row tenthSeconds)

/-- The bytes an entry takes. -/
def size (e : ThermalRelationshipTableEntry) : Nat :=
  trtLayout.rowSize + e.sourceDeviceScope.length + e.targetDeviceScope.length

end ThermalRelationshipTableEntry

open ThermalRelationshipTableEntry

/-- `countTrtRows` and the loop after it. -/
def readTrtRows (m : List UInt8) (size : UInt32) : Parse (List Row × Nat) :=
  readTable trtLayout m (asIntN size) 0

/-- `ThermalRelationshipTable::createTrtFromDptfBuffer`: the entries, and where `data` points
at the end. -/
def createTrtFromDptfBuffer (buffer : DptfBuffer) :
    Parse (List ThermalRelationshipTableEntry × Nat) :=
  if buffer.size ≠ 0 then do
    let (rows, data) ← readTrtRows buffer.get buffer.size
    pure ((rows.map ofRow).foldl (addEntry isSameAs) [], data)
  else pure ([], 0)

/-- `ThermalRelationshipTable::toTrtBinary`. -/
def toTrtBinary (reserved : UInt32) (entries : List ThermalRelationshipTableEntry) :
    Parse DptfBuffer := do
  let rows ← entries.mapM toRow
  let packages := writePackages trtLayout reserved rows
  pure ((DptfBuffer.allocate packages.size.toNat).put 0 packages.bytes packages.size)

/-! ## Decoding any buffer -/

/-- The buffer is parsed to its end, or refused. -/
def ParsesTrt (buffer : DptfBuffer) : Prop :=
  Safe (createTrtFromDptfBuffer buffer) fun r => r.2 = buffer.size.toNat

/-- The bytes the entries take. -/
def trtSize (entries : List ThermalRelationshipTableEntry) : Nat := (entries.map size).sum

theorem size_ofRow (row : Row) : (ofRow row).size ≤ row.size trtLayout + 8 := by
  have hs := length_normalizeAcpiScope row.source
  have ht := length_normalizeAcpiScope row.target
  simp only [ThermalRelationshipTableEntry.size, ofRow, Row.size]
  omega

/-- A buffer whose size is an `IntN` is parsed, and what is made of it is not much larger. -/
theorem safe_createTrt {buffer : DptfBuffer} (h : buffer.size.toNat < 2 ^ 31) :
    Safe (createTrtFromDptfBuffer buffer) fun r =>
      r.2 = buffer.size.toNat ∧ trtSize r.1 ≤ 2 * buffer.size.toNat := by
  unfold createTrtFromDptfBuffer
  refine safe_ite (fun _ => ?_) (fun hzero => ?_)
  · have hnn : 0 ≤ asIntN buffer.size := (asIntN_nonneg_iff _).mpr h
    have hsum : ((0 : Nat) : Int) + asIntN buffer.size = buffer.size.toNat := by
      rw [asIntN_eq h]
      omega
    refine (safe_readTable buffer.length_get.ge hsum hnn).bind ?_
    rintro ⟨rows, data⟩ ⟨hdata, hrows⟩
    refine safe_pure ⟨hdata, ?_⟩
    have hle : trtSize ((rows.map ofRow).foldl (addEntry isSameAs) []) ≤
        2 * (rows.map (Row.size trtLayout)).sum := sum_foldl_addEntry_le size_ofRow rows
    rw [Nat.zero_add] at hrows
    rwa [hrows] at hle
  · rw [not_not.mp hzero]
    exact safe_pure ⟨rfl, Nat.zero_le _⟩

/-- Of a larger buffer nothing is read. -/
theorem createTrt_large {buffer : DptfBuffer} (h : 2 ^ 31 ≤ buffer.size.toNat) :
    Returns (createTrtFromDptfBuffer buffer) ([], 0) := by
  have hne : buffer.size ≠ 0 := by
    rintro hz
    rw [hz] at h
    simp at h
  have hneg : asIntN buffer.size ≤ 0 := by
    have hlt : ¬0 ≤ asIntN buffer.size := fun hnn =>
      absurd ((asIntN_nonneg_iff _).mp hnn) (not_lt.mpr h)
    exact (not_le.mp hlt).le
  unfold createTrtFromDptfBuffer
  rw [if_pos hne]
  exact (readTable_neg hneg 0).bind (returns_pure_iff.mpr rfl)

theorem parsesTrt_iff (buffer : DptfBuffer) : ParsesTrt buffer ↔ buffer.size.toNat < 2 ^ 31 := by
  constructor
  · intro hparses
    by_contra hlarge
    have hzero : 0 = buffer.size.toNat := hparses.of_returns (createTrt_large (not_lt.mp hlarge))
    omega
  · intro hsmall
    exact (safe_createTrt hsmall).mono fun r hr => hr.1

/-! ## Decoding what was encoded -/

/-- What a table should be: entries for different devices, normalized scopes, sampling periods
of whole tenths of a second. -/
structure EncodableTrt (entries : List ThermalRelationshipTableEntry) : Prop where
  different : entries.Pairwise fun e e' => isSameAs e' e = false
  source_normal : ∀ e ∈ entries, normalizeAcpiScope e.sourceDeviceScope = e.sourceDeviceScope
  target_normal : ∀ e ∈ entries, normalizeAcpiScope e.targetDeviceScope = e.targetDeviceScope
  period : ∀ e ∈ entries, ∃ k : UInt32, e.thermalSamplingPeriod = createFromTenthSeconds k.toNat

/-- The table comes back as it was. -/
def RoundTripsTrt (reserved : UInt32) (entries : List ThermalRelationshipTableEntry) : Prop :=
  ∃ buffer data, Returns (toTrtBinary reserved entries) buffer ∧
    Returns (createTrtFromDptfBuffer buffer) (entries, data)

/-- The tenths of a second of an entry. -/
def tenthSeconds (e : ThermalRelationshipTableEntry) : Int :=
  (e.thermalSamplingPeriod.getD 0).tdiv 100000

theorem tdiv_mul_tenth (k : Int) : (k * 100000).tdiv 100000 = k :=
  Int.mul_tdiv_cancel k (by decide)

/-- What the entries are written as. -/
def trtRows (entries : List ThermalRelationshipTableEntry) : List Row :=
  entries.map fun e => e.row (tenthSeconds e)

section RoundTrip

variable {entries : List ThermalRelationshipTableEntry}

theorem returns_toRows (h : EncodableTrt entries) :
    Returns (entries.mapM toRow) (trtRows entries) := by
  refine returns_mapM fun e he => ?_
  obtain ⟨k, hk⟩ := h.period e he
  rw [toRow, tenthSeconds, hk]
  exact (returns_pure_iff.mpr rfl).bind (returns_pure_iff.mpr rfl)

theorem sum_trtRows (entries : List ThermalRelationshipTableEntry) :
    ((trtRows entries).map (Row.size trtLayout)).sum = trtSize entries := by
  rw [trtRows, trtSize, List.map_map]
  rfl

theorem length_numbers_trtRows (entries : List ThermalRelationshipTableEntry) :
    ∀ row ∈ trtRows entries, row.numbers.length = trtLayout.numbers := by
  intro row hrow
  obtain ⟨e, -, rfl⟩ := List.mem_map.mp hrow
  rfl

theorem length_trtRows (entries : List ThermalRelationshipTableEntry) (reserved : UInt32) :
    ((trtRows entries).flatMap (Row.bytes reserved)).length = trtSize entries := by
  rw [length_rows (length_numbers_trtRows entries), sum_trtRows]

/-- **What is encoded**, where the addresses do not wrap. -/
theorem returns_toTrtBinary (h : EncodableTrt entries) (reserved : UInt32)
    (hsize : trtSize entries < 2 ^ 32) :
    Returns (toTrtBinary reserved entries)
      ⟨(trtRows entries).flatMap (Row.bytes reserved)⟩ := by
  have hpackages : (writePackages trtLayout reserved (trtRows entries)).bytes =
      (trtRows entries).flatMap (Row.bytes reserved) :=
    bytes_writePackages (length_numbers_trtRows entries) ((sum_trtRows entries).symm ▸ hsize)
  have hlength := length_trtRows entries reserved
  refine (returns_toRows h).bind (returns_pure_iff.mpr ?_)
  rw [DptfBuffer.mk.injEq, DptfBuffer.bytes_copy (by rw [hpackages, hlength]; exact hsize),
    hpackages]

/-- An entry is made of its row again. -/
theorem ofRow_read (h : EncodableTrt entries) {e : ThermalRelationshipTableEntry}
    (he : e ∈ entries) : ofRow ((e.row (tenthSeconds e)).read trtLayout) = e := by
  obtain ⟨k, hk⟩ := h.period e he
  have htenth : tenthSeconds e = k.toNat := by
    rw [tenthSeconds, hk]
    exact tdiv_mul_tenth _
  obtain ⟨source, target, influence, period⟩ := e
  have hsource : normalizeAcpiScope source = source := h.source_normal _ he
  have htarget : normalizeAcpiScope target = target := h.target_normal _ he
  have hk' : period = createFromTenthSeconds k.toNat := hk
  rw [htenth]
  simp only [ofRow, Row.read, ThermalRelationshipTableEntry.row, trtLayout, hsource, htarget, hk',
    List.take_succ_cons, List.take_zero, List.getD_cons_zero, List.getD_cons_succ]
  rw [toUInt32_ofInt k]
  simp

/-- **What is decoded again**, of a table that is small enough. -/
theorem returns_createTrt (h : EncodableTrt entries) (reserved : UInt32)
    (hsize : trtSize entries < 2 ^ 31) :
    Returns (createTrtFromDptfBuffer ⟨(trtRows entries).flatMap (Row.bytes reserved)⟩)
      (entries, trtSize entries) := by
  have hlength := length_trtRows entries reserved
  have hbuffer : (DptfBuffer.mk ((trtRows entries).flatMap (Row.bytes reserved))).size.toNat =
      trtSize entries := by
    rw [DptfBuffer.toNat_size_of_lt (by rw [hlength]; omega), hlength]
  have hwritable : ∀ row ∈ trtRows entries, row.Writable trtLayout := by
    intro row hrow
    have hle : row.size trtLayout ≤ trtSize entries := by
      rw [← sum_trtRows]
      exact List.le_sum_of_mem (List.mem_map_of_mem hrow)
    have hrow' : row.size trtLayout = 96 + row.source.length + row.target.length := rfl
    obtain ⟨e, -, rfl⟩ := List.mem_map.mp hrow
    exact ⟨rfl, by omega, by omega⟩
  by_cases hzero : (DptfBuffer.mk ((trtRows entries).flatMap (Row.bytes reserved))).size = 0
  · -- no bytes, no entries
    have hnone : trtSize entries = 0 := by
      rw [← hbuffer, hzero]
      rfl
    have hnil : entries = [] := by
      cases entries with
      | nil => rfl
      | cons e more =>
        simp only [trtSize, List.map_cons, List.sum_cons, ThermalRelationshipTableEntry.size,
          trtLayout, RowLayout.rowSize, variantSize] at hnone
        omega
    rw [createTrtFromDptfBuffer, if_neg (not_not.mpr hzero), hnone, hnil]
    exact returns_pure_iff.mpr rfl
  · have hread := readTable_flatMap hwritable
      (hasAt_self ((trtRows entries).flatMap (Row.bytes reserved)))
    rw [sum_trtRows, Nat.zero_add] at hread
    have hback : ((trtRows entries).map (Row.read trtLayout)).map ofRow = entries := by
      rw [trtRows, List.map_map, List.map_map]
      exact (List.map_congr_left fun e he => ofRow_read h he).trans (List.map_id entries)
    rw [createTrtFromDptfBuffer, if_pos hzero, readTrtRows, asIntN_eq (by rw [hbuffer]; exact hsize),
      hbuffer, DptfBuffer.get_eq (by rw [hlength]; omega)]
    refine hread.bind (returns_pure_iff.mpr ?_)
    rw [hback, foldl_addEntry h.different, List.nil_append]

/-- **The codec of the thermal relationship table**: what is written is read back, exactly when
its size is an `IntN`. -/
theorem roundTripsTrt_iff (h : EncodableTrt entries) (reserved : UInt32) :
    RoundTripsTrt reserved entries ↔ trtSize entries < 2 ^ 31 := by
  constructor
  · rintro ⟨buffer, data, henc, hdec⟩
    by_cases hsmall : buffer.size.toNat < 2 ^ 31
    · -- a table that was decoded is too small for the addresses of the encoder to wrap
      have hle : trtSize entries ≤ 2 * buffer.size.toNat :=
        ((safe_createTrt hsmall).of_returns hdec).2
      have hbuffer := henc.unique (returns_toTrtBinary h reserved (by omega))
      have hlength : buffer.bytes.length = trtSize entries := by
        rw [hbuffer]
        exact length_trtRows entries reserved
      rw [DptfBuffer.toNat_size_of_lt (by omega)] at hsmall
      omega
    · have hnil : entries = [] :=
        (Prod.mk.inj (hdec.unique (createTrt_large (not_lt.mp hsmall)))).1
      rw [hnil]
      decide
  · intro hsize
    exact ⟨_, _, returns_toTrtBinary h reserved (by omega), returns_createTrt h reserved hsize⟩

end RoundTrip

/-- **The codec of the thermal relationship table.**  A buffer is parsed to its end or refused,
and a table comes back, exactly while the size is a number an `IntN` can hold. -/
theorem trtCodec (buffer : DptfBuffer) {entries : List ThermalRelationshipTableEntry}
    (h : EncodableTrt entries) (reserved : UInt32) :
    (ParsesTrt buffer ↔ buffer.size.toNat < 2 ^ 31) ∧
      (RoundTripsTrt reserved entries ↔ trtSize entries < 2 ^ 31) :=
  ⟨parsesTrt_iff buffer, roundTripsTrt_iff h reserved⟩

/-- `CPU_` heats `SKIN`, and `GFX_` heats `DIMM`. -/
def trtExample : List ThermalRelationshipTableEntry :=
  [⟨[67, 80, 85, 95], [83, 75, 73, 78], 100, createFromTenthSeconds 30⟩,
    ⟨[71, 70, 88, 95], [68, 73, 77, 77], 50, createFromTenthSeconds 60⟩]

theorem encodable_trtExample : EncodableTrt trtExample where
  different := by decide
  source_normal := by decide
  target_normal := by decide
  period := by
    intro e he
    rcases List.mem_pair.mp he with rfl | rfl
    · exact ⟨30, rfl⟩
    · exact ⟨60, rfl⟩

theorem trtCodec_example : ParsesTrt ⟨[0]⟩ ∧ RoundTripsTrt 0 trtExample := by
  obtain ⟨hparses, hround⟩ := trtCodec ⟨[0]⟩ encodable_trtExample 0
  exact ⟨hparses.mpr (by decide), hround.mpr (by decide)⟩

/-- Of a buffer of 2 GB nothing is read, and nothing is thrown. -/
theorem not_parsesTrt : ¬∀ buffer : DptfBuffer, ParsesTrt buffer := by
  intro hall
  obtain ⟨n, hn⟩ : ∃ n : Nat, n = 2 ^ 31 := ⟨_, rfl⟩
  have hsmall := (parsesTrt_iff (.allocate n)).mp (hall (.allocate n))
  rw [DptfBuffer.toNat_size, DptfBuffer.allocate, List.length_replicate] at hsmall
  omega

end Tables

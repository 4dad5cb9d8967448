import Dptf.Tables.PerformanceControlSet
import Dptf.Tables.StringRows

/-!
# The active relationship table

`ActiveRelationshipTable.cpp`.  A revision, and a row for each fan and target with a weight and
a fan speed for each of the ten active trip points.

* `performanceAndFanTables` — these, and what holds of the parsers of performance tables.
-/

open Lib Lib.Parse

namespace Tables

/-- `ActiveRelationshipTableEntry`; the indexes and domain types of a new entry are all
invalid. -/
structure ActiveRelationshipTableEntry where
  sourceDeviceScope : Scope
  targetDeviceScope : Scope
  weight : UInt32
  /-- `m_acEntries`, from AC0 to AC9. -/
  acEntries : Vector UInt32 10

/-- `EsifDataBinaryArtPackage`: weight and ten fan speeds. -/
def artLayout : RowLayout where
  numbers := 11
  used := 11
  used_le := by decide
  message := "Expected binary data size mismatch. (ART)"

namespace ActiveRelationshipTableEntry

/-- `isSameAs`. -/
def isSameAs (e e' : ActiveRelationshipTableEntry) : Bool :=
  e.sourceDeviceScope = e'.sourceDeviceScope ∧ e.targetDeviceScope = e'.targetDeviceScope

/-- The entry made of a row. -/
def ofRow (row : Row) : ActiveRelationshipTableEntry where
  sourceDeviceScope := normalizeAcpiScope row.source
  targetDeviceScope := normalizeAcpiScope row.target
  weight := (row.numbers.getD 0 0).toUInt32
  acEntries := Vector.ofFn fun i => (row.numbers.getD (i + 1) 0).toUInt32

/-- `entryPackage`. -/
def toRow (e : ActiveRelationshipTableEntry) : Row where
  source := e.sourceDeviceScope
  target := e.targetDeviceScope
  numbers := e.weight.toUInt64 :: e.acEntries.toList.map UInt32.toUInt64

/-- The bytes an entry takes. -/
def size (e : ActiveRelationshipTableEntry) : Nat := e.toRow.size artLayout

end ActiveRelationshipTableEntry

open ActiveRelationshipTableEntry

/-- `countArtRows` and the loop after it.  The type of the revision is read before anything was
checked, and its size may be taken from a negative number. -/
def readArtRows (m : List UInt8) (size : UInt32) : Parse (List Row × Nat) := do
  let type ← checked (readU32 m 0)
  if type = dataUInt32 ∨ type = dataUInt64 then do
    let bytesRemaining := wrapIntN (asIntN size - variantSize)
    throwIfOutOfRange artLayout bytesRemaining
    readTable artLayout m bytesRemaining variantSize
  else throw "Revision Field is Missing. (ART)"

/-- `ActiveRelationshipTable::createArtFromDptfBuffer`: the entries, and where `data` points at
the end. -/
def createArtFromDptfBuffer (buffer : DptfBuffer) :
    Parse (List ActiveRelationshipTableEntry × Nat) :=
  if buffer.size = 0 then throw "There is no data to process."
  else do
    let (rows, data) ← readArtRows buffer.get buffer.size
    pure ((rows.map ofRow).foldl (addEntry isSameAs) [], data)

/-- `revisionField`. -/
def revisionField : List UInt8 := pack (numberVariant 1)

/-- `ActiveRelationshipTable::toArtBinary`. -/
def toArtBinary (reserved : UInt32) (entries : List ActiveRelationshipTableEntry) : DptfBuffer :=
  let packages := writePackages artLayout reserved (entries.map toRow)
  let sizeOfRevision : UInt32 := 12
  let buffer := DptfBuffer.allocate (sizeOfRevision + packages.size).toNat
  (buffer.put 0 revisionField sizeOfRevision).put sizeOfRevision packages.bytes packages.size

/-! ## Decoding any buffer -/

/-- The bytes the entries take. -/
def artSize (entries : List ActiveRelationshipTableEntry) : Nat := (entries.map size).sum

theorem size_ofRow_art (row : Row) : (ofRow row).size ≤ row.size artLayout + 8 := by
  have hs := length_normalizeAcpiScope row.source
  have ht := length_normalizeAcpiScope row.target
  simp only [ActiveRelationshipTableEntry.size, ofRow, toRow, Row.size]
  omega

/-- What is left behind the revision, where that is not negative. -/
theorem wrapIntN_size {size : UInt32} (h : 0 ≤ wrapIntN (asIntN size - variantSize)) :
    wrapIntN (asIntN size - variantSize) = size.toNat - variantSize ∧
      variantSize ≤ size.toNat ∧ size.toNat < 2 ^ 31 + variantSize := by
  have hlt : size.toNat < 2 ^ 32 := size.toNat_lt
  have hvariant : variantSize = 12 := rfl
  unfold wrapIntN asIntN at h ⊢
  split at h
  · case isTrue hsmall =>
    rw [if_pos hsmall]
    omega
  · case isFalse hlarge =>
    rw [if_neg hlarge]
    omega

/-- A buffer that is not too short for the type of its revision. -/
theorem safe_createArt {buffer : DptfBuffer} (h : buffer.size = 0 ∨ 4 ≤ buffer.size.toNat) :
    Safe (createArtFromDptfBuffer buffer) fun r =>
      variantSize ≤ buffer.size.toNat ∧ buffer.size.toNat < 2 ^ 31 + variantSize ∧
        artSize r.1 ≤ 2 * (buffer.size.toNat - variantSize) := by
  refine safe_guard fun hzero => ?_
  have hfour : 0 + 4 ≤ buffer.get.length := by
    rw [DptfBuffer.length_get]
    exact (h.resolve_left hzero).trans' (le_refl 4)
  have hrows : Safe (readArtRows buffer.get buffer.size) fun r =>
      variantSize ≤ buffer.size.toNat ∧ buffer.size.toNat < 2 ^ 31 + variantSize ∧
        variantSize + (r.1.map (Row.size artLayout)).sum = buffer.size.toNat := by
    refine (safe_checked ((isSome_readU32 _ 0).mpr hfour)).bind fun type _ => ?_
    refine safe_ite (fun _ => ?_) (fun _ => safe_throw _ _)
    refine (safe_throwIfOutOfRange _).bind fun _ hnn => ?_
    obtain ⟨hremaining, hle, hlt⟩ := wrapIntN_size hnn
    have hstop : (variantSize : Int) + wrapIntN (asIntN buffer.size - variantSize) =
        buffer.size.toNat := by
      rw [hremaining]
      omega
    exact (safe_readTable buffer.length_get.ge hstop hnn).mono fun r hr => ⟨hle, hlt, hr.2⟩
  refine hrows.bind ?_
  rintro ⟨rows, data⟩ ⟨hle, hlt, hsum⟩
  refine safe_pure ⟨hle, hlt, ?_⟩
  have hkept : artSize ((rows.map ofRow).foldl (addEntry isSameAs) []) ≤
      2 * (rows.map (Row.size artLayout)).sum := sum_foldl_addEntry_le size_ofRow_art rows
  show artSize ((rows.map ofRow).foldl (addEntry isSameAs) []) ≤ _
  simp only at hsum
  omega

/-- **When an ART is parsed inside its buffer**: unless it is too short for the type of the
revision. -/
theorem safeArt_iff (buffer : DptfBuffer) :
    Safe (createArtFromDptfBuffer buffer) (fun _ => True) ↔
      buffer.size = 0 ∨ 4 ≤ buffer.size.toNat := by
  constructor
  · intro hsafe
    by_cases hzero : buffer.size = 0
    · exact Or.inl hzero
    · right
      by_contra hshort
      have hread : readU32 buffer.get 0 = none := by
        rw [readU32_eq, if_neg (by rw [DptfBuffer.length_get]; omega)]
      unfold createArtFromDptfBuffer at hsafe
      rw [if_neg hzero] at hsafe
      exact not_safe_checked_bind hread hsafe.of_bind
  · intro h
    exact (safe_createArt h).mono fun _ _ => trivial

/-! ## Decoding what was encoded -/

/-- What a table should be: entries for different devices, and normalized scopes. -/
structure EncodableArt (entries : List ActiveRelationshipTableEntry) : Prop where
  different : entries.Pairwise fun e e' => isSameAs e' e = false
  source_normal : ∀ e ∈ entries, normalizeAcpiScope e.sourceDeviceScope = e.sourceDeviceScope
  target_normal : ∀ e ∈ entries, normalizeAcpiScope e.targetDeviceScope = e.targetDeviceScope

/-- The table comes back as it was. -/
def RoundTripsArt (reserved : UInt32) (entries : List ActiveRelationshipTableEntry) : Prop :=
  ∃ data, Returns (createArtFromDptfBuffer (toArtBinary reserved entries)) (entries, data)

section RoundTrip

variable {entries : List ActiveRelationshipTableEntry}

theorem length_numbers_toRow (entries : List ActiveRelationshipTableEntry) :
    ∀ row ∈ entries.map toRow, row.numbers.length = artLayout.numbers := by
  intro row hrow
  obtain ⟨e, -, rfl⟩ := List.mem_map.mp hrow
  simp [toRow, artLayout]

theorem sum_toRow (entries : List ActiveRelationshipTableEntry) :
    ((entries.map toRow).map (Row.size artLayout)).sum = artSize entries := by
  rw [artSize, List.map_map]
  rfl

theorem length_artRows (entries : List ActiveRelationshipTableEntry) (reserved : UInt32) :
    ((entries.map toRow).flatMap (Row.bytes reserved)).length = artSize entries := by
  rw [length_rows (length_numbers_toRow entries), sum_toRow]

/-- The rows as they are written. -/
theorem bytes_artPackages (entries : List ActiveRelationshipTableEntry) (reserved : UInt32)
    (hsize : artSize entries < 2 ^ 32) :
    (writePackages artLayout reserved (entries.map toRow)).bytes =
      (entries.map toRow).flatMap (Row.bytes reserved) :=
  bytes_writePackages (length_numbers_toRow entries) ((sum_toRow entries).symm ▸ hsize)

/-- **What is encoded**, where the addresses do not wrap. -/
theorem bytes_toArtBinary (reserved : UInt32) (hsize : variantSize + artSize entries < 2 ^ 32) :
    (toArtBinary reserved entries).bytes =
      revisionField ++ (entries.map toRow).flatMap (Row.bytes reserved) := by
  have hvariant : variantSize = 12 := rfl
  have hpackages := bytes_artPackages entries reserved (by omega)
  have hlength := length_artRows entries reserved
  have hpsize : (writePackages artLayout reserved (entries.map toRow)).size.toNat =
      artSize entries := by
    rw [DptfBuffer.toNat_size_of_lt (by rw [hpackages, hlength]; omega), hpackages, hlength]
  unfold toArtBinary
  simp only
  rw [DptfBuffer.bytes_behind_revision rfl (by rw [hpsize, hpackages, hlength])
    (by rw [hpackages, hlength, ← hvariant]; exact hsize), hpackages]

/-- If the last address wraps, only the revision is written. -/
theorem bytes_toArtBinary_wrapped (reserved : UInt32) (hsize : artSize entries < 2 ^ 32)
    (hwrap : 2 ^ 32 ≤ variantSize + artSize entries) :
    (toArtBinary reserved entries).bytes = revisionField := by
  have hvariant : variantSize = 12 := rfl
  have hpackages := bytes_artPackages entries reserved hsize
  have hlength := length_artRows entries reserved
  have hpsize : (writePackages artLayout reserved (entries.map toRow)).size.toNat =
      artSize entries := by
    rw [DptfBuffer.toNat_size_of_lt (by rw [hpackages, hlength]; exact hsize), hpackages, hlength]
  obtain ⟨k, hk⟩ : ∃ k, 12 + artSize entries = 2 ^ 32 + k := ⟨12 + artSize entries - 2 ^ 32, by omega⟩
  have hall : (12 + (writePackages artLayout reserved (entries.map toRow)).size).toNat = k := by
    have htwelve : (12 : UInt32).toNat = 12 := rfl
    rw [UInt32.toNat_add, hpsize, htwelve, hk]
    omega
  have hzeros : (DptfBuffer.allocate k).bytes = [] ++ List.replicate k 0 := rfl
  have hallocated : (DptfBuffer.allocate k).bytes.length < 2 ^ 32 := by
    rw [hzeros, List.nil_append, List.length_replicate]
    omega
  have hrevision : (DptfBuffer.put (.allocate k) 0 revisionField 12).bytes = revisionField := by
    have hlast : k - revisionField.length = 0 := by
      show k - 12 = 0
      omega
    rw [DptfBuffer.put_eq hzeros rfl rfl hallocated (by decide), List.drop_replicate, hlast]
    rfl
  have hstop : ¬(12 : UInt32) < 12 + (writePackages artLayout reserved (entries.map toRow)).size := by
    rw [UInt32.lt_iff_toNat_lt, hall]
    show ¬12 < k
    omega
  have hrevisionSize : (DptfBuffer.put (.allocate k) 0 revisionField 12).size = 12 := by
    rw [DptfBuffer.size, hrevision]
    rfl
  unfold toArtBinary
  simp only [hall]
  rw [DptfBuffer.put_wrapped _ (by rw [hrevisionSize]; exact hstop) hstop, hrevision]

/-- An entry is made of its row again. -/
theorem ofRow_toRow (h : EncodableArt entries) {e : ActiveRelationshipTableEntry}
    (he : e ∈ entries) : ofRow (e.toRow.read artLayout) = e := by
  obtain ⟨source, target, weight, acEntries⟩ := e
  have hsource : normalizeAcpiScope source = source := h.source_normal _ he
  have htarget : normalizeAcpiScope target = target := h.target_normal _ he
  have hnumbers : (ActiveRelationshipTableEntry.mk source target weight acEntries).toRow.read
      artLayout = ⟨source, target, weight.toUInt64 :: acEntries.toList.map UInt32.toUInt64⟩ := by
    have hlen : (weight.toUInt64 :: acEntries.toList.map UInt32.toUInt64).length ≤ 11 := by simp
    simp only [Row.read, toRow, artLayout, List.take_of_length_le hlen]
  rw [hnumbers]
  simp only [ofRow, hsource, htarget, List.getD_cons_zero, List.getD_cons_succ,
    ActiveRelationshipTableEntry.mk.injEq, true_and]
  refine ⟨by simp, ?_⟩
  ext i hi
  simp

theorem toNat_size_artRows (reserved : UInt32) (hsize : variantSize + artSize entries < 2 ^ 32) :
    (toArtBinary reserved entries).size.toNat = variantSize + artSize entries := by
  have hlength : (toArtBinary reserved entries).bytes.length = variantSize + artSize entries := by
    rw [bytes_toArtBinary reserved hsize, List.length_append, length_artRows]
    rfl
  rw [DptfBuffer.toNat_size_of_lt (by rw [hlength]; exact hsize), hlength]

/-- **What is decoded again**, of a table that is small enough. -/
theorem returns_createArt (h : EncodableArt entries) (reserved : UInt32)
    (hsize : artSize entries < 2 ^ 31) :
    Returns (createArtFromDptfBuffer (toArtBinary reserved entries))
      (entries, variantSize + artSize entries) := by
  have hvariant : variantSize = 12 := rfl
  have hbytes : (toArtBinary reserved entries).bytes =
      revisionField ++ (entries.map toRow).flatMap (Row.bytes reserved) :=
    bytes_toArtBinary reserved (by omega)
  have htotal : (toArtBinary reserved entries).size.toNat = variantSize + artSize entries :=
    toNat_size_artRows reserved (by omega)
  have hget : (toArtBinary reserved entries).get = (toArtBinary reserved entries).bytes := by
    apply DptfBuffer.get_eq
    rw [hbytes, List.length_append, length_artRows]
    show 12 + artSize entries < 2 ^ 32
    omega
  have hzero : (toArtBinary reserved entries).size ≠ 0 := by
    intro hz
    rw [hz] at htotal
    have : (0 : UInt32).toNat = 0 := rfl
    omega
  have hwritable : ∀ row ∈ entries.map toRow, row.Writable artLayout := by
    intro row hrow
    have hle : row.size artLayout ≤ artSize entries := by
      rw [← sum_toRow]
      exact List.le_sum_of_mem (List.mem_map_of_mem hrow)
    have hrow' : row.size artLayout = 156 + row.source.length + row.target.length := rfl
    exact ⟨length_numbers_toRow entries row hrow, by omega, by omega⟩
  have hself : HasAt (toArtBinary reserved entries).get 0
      (revisionField ++ (entries.map toRow).flatMap (Row.bytes reserved)) := by
    rw [hget, hbytes]
    exact hasAt_self _
  have htype : readU32 (toArtBinary reserved entries).get 0 = some dataUInt64 :=
    (hself.left.field 0 rfl).readU32
  have hread := readTable_flatMap hwritable hself.right
  rw [sum_toRow] at hread
  have hremaining : wrapIntN (asIntN (toArtBinary reserved entries).size - variantSize) =
      artSize entries := by
    unfold wrapIntN asIntN
    rw [htotal]
    split <;> omega
  have hback : ((entries.map toRow).map (Row.read artLayout)).map ofRow = entries := by
    rw [List.map_map, List.map_map]
    exact (List.map_congr_left fun e he => ofRow_toRow h he).trans (List.map_id entries)
  have hrows : Returns (readArtRows (toArtBinary reserved entries).get
      (toArtBinary reserved entries).size)
      ((entries.map toRow).map (Row.read artLayout), variantSize + artSize entries) := by
    refine (returns_checked_iff.mpr htype).bind ?_
    rw [if_pos (Or.inr rfl), hremaining]
    exact (returns_throwIfOutOfRange (by omega)).bind hread
  rw [createArtFromDptfBuffer, if_neg hzero]
  refine hrows.bind (returns_pure_iff.mpr ?_)
  rw [hback, foldl_addEntry h.different, List.nil_append]

/-- **The codec of the active relationship table**: what is written is read back, exactly when
the size of the rows is an `IntN`. -/
theorem roundTripsArt_iff (h : EncodableArt entries) (reserved : UInt32) :
    RoundTripsArt reserved entries ↔ artSize entries < 2 ^ 31 := by
  have hvariant : variantSize = 12 := rfl
  constructor
  · rintro ⟨data, hdec⟩
    have hfour := (safeArt_iff _).mp (hdec.safe trivial)
    obtain ⟨hle, hlt, hart⟩ := (safe_createArt hfour).of_returns hdec
    have hart' : artSize entries ≤
        2 * ((toArtBinary reserved entries).size.toNat - variantSize) := hart
    by_cases hwrap : variantSize + artSize entries < 2 ^ 32
    · rw [toNat_size_artRows reserved hwrap] at hlt
      omega
    · -- only the revision would be written, and no entry read
      have hsize : (toArtBinary reserved entries).size = 12 := by
        rw [DptfBuffer.size, bytes_toArtBinary_wrapped reserved (by omega) (by omega)]
        rfl
      rw [hsize] at hart'
      have htwelve : (12 : UInt32).toNat = 12 := rfl
      omega
  · intro hsize
    exact ⟨_, returns_createArt h reserved hsize⟩

end RoundTrip

/-! ## All the tables -/

/-- **The parsers of performance and fan tables.**  PSS and TSS are read inside any buffer, a
PPSS where its rows fit, an ART unless it is too short for the type of its revision; and an ART
comes back exactly while the size of its rows is an `IntN`. -/
theorem performanceAndFanTables (buffer : DptfBuffer) (scale : Scaling) (pN : PerformanceControl)
    {entries : List ActiveRelationshipTableEntry} (h : EncodableArt entries) (reserved : UInt32) :
    Safe (createFromProcessorPss buffer) (fun _ => True) ∧
      Safe (createFromProcessorTss scale pN buffer) (fun _ => True) ∧
      (Safe (createFromGenericPpss buffer) (fun _ => True) ↔
        PpssFits buffer.get ∨ 2 ^ 31 ≤ buffer.size.toNat) ∧
      (Safe (createArtFromDptfBuffer buffer) (fun _ => True) ↔
        buffer.size = 0 ∨ 4 ≤ buffer.size.toNat) ∧
      (RoundTripsArt reserved entries ↔ artSize entries < 2 ^ 31) :=
  ⟨(safe_createFromProcessorPss buffer).mono fun _ _ => trivial,
    (safe_createFromProcessorTss scale pN buffer).mono fun _ _ => trivial,
    safePpss_iff buffer, safeArt_iff buffer, roundTripsArt_iff h reserved⟩

/-- The fan `TFN1` cools `SKIN`, and `TFN2` cools `DIMM`. -/
def artExample : List ActiveRelationshipTableEntry :=
  [⟨[84, 70, 78, 49], [83, 75, 73, 78], 100, Vector.replicate 10 50⟩,
    ⟨[84, 70, 78, 50], [68, 73, 77, 77], 80, Vector.replicate 10 40⟩]

theorem encodable_artExample : EncodableArt artExample where
  different := by decide
  source_normal := by decide
  target_normal := by decide

/-- A buffer of one byte. -/
def shortBuffer : DptfBuffer := ⟨[0]⟩

theorem performanceAndFanTables_example :
    Safe (createFromProcessorPss shortBuffer) (fun _ => True) ∧
      Safe (createFromProcessorTss (fun _ _ => 0) ⟨0, .performanceState, 0, 1, 0, 0, []⟩
        shortBuffer) (fun _ => True) ∧
      ¬Safe (createFromGenericPpss shortBuffer) (fun _ => True) ∧
      ¬Safe (createArtFromDptfBuffer shortBuffer) (fun _ => True) ∧ RoundTripsArt 0 artExample := by
  obtain ⟨hpss, htss, hppss, hart, hround⟩ :=
    performanceAndFanTables shortBuffer (fun _ _ => 0) ⟨0, .performanceState, 0, 1, 0, 0, []⟩
      encodable_artExample 0
  refine ⟨hpss, htss, hppss.not.mpr ?_, hart.not.mpr (by decide), hround.mpr (by decide)⟩
  rintro (hfits | hlarge)
  · -- the length of the string of the first row is not there
    obtain ⟨length, hread, -⟩ := hfits 0 .first (by decide)
    have hnone : readU32 shortBuffer.get (0 + 76) = none := by decide
    rw [hnone] at hread
    cases hread
  · exact absurd hlarge (by decide)

/-- One byte is too short for either of the parsers that look before they check. -/
theorem shortBuffer_not_safe :
    ¬∀ buffer : DptfBuffer, Safe (createFromGenericPpss buffer) (fun _ => True) ∧
      Safe (createArtFromDptfBuffer buffer) (fun _ => True) := by
  intro hall
  rcases (safeArt_iff shortBuffer).mp (hall shortBuffer).2 with h | h
  · exact absurd h (by decide)
  · exact absurd h (by decide)

end Tables

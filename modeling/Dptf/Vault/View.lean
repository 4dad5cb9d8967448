import Dptf.Vault.Opened

/-!
# What is shown of a row

`DataVault_GetValue` goes by the flags, the type, the length and the bytes of a row.
The bytes are in memory, or in the file at an offset, and the snapshot of a call has
them once more.
-/

open Lib

namespace Vault

variable {δ : Type}

/-! ## Views -/

/-- What `DataVault_GetValue` goes by. -/
structure View where
  flags : UInt32
  type : UInt32
  dataLen : Nat
  /-- The bytes it copies. -/
  content : Option (List UInt8)
  /-- The bytes at the pointer a static vault hands out. -/
  pointed : List UInt8
deriving DecidableEq, Repr

namespace DataVault

/-- What is shown of a row. -/
def view (v : DataVault δ) (e : DataCacheEntry) : View where
  flags := e.flags
  type := e.value.type
  dataLen := e.value.dataLen
  content := v.content e
  pointed := if v.isStatic then e.value.bufPtr.read v.image e.value.dataLen else []

/-- What is shown under a key. -/
def viewAt (v : DataVault δ) (k : CName) : Option View :=
  (DataCache.getValue v.cache k).map v.view

/-- `DataVault_GetValue` gives the same of two vaults, whatever type and buffer it is asked
for. -/
def ShowsSame (v w : DataVault δ) (k : CName) : Prop :=
  ∀ type bufLen allocated,
    w.getValue k type bufLen allocated = v.getValue k type bufLen allocated

/-- **Nothing else is shown.** -/
theorem showsSame_of_viewAt {v w : DataVault δ} {k : CName} (hstatic : w.isStatic = v.isStatic)
    (h : w.viewAt k = v.viewAt k) : ShowsSame v w k := by
  intro type bufLen allocated
  unfold viewAt at h
  unfold getValue
  cases hv : DataCache.getValue v.cache k with
  | none =>
    rw [hv, Option.map_none, Option.map_eq_none_iff] at h
    rw [h]
  | some e =>
    rw [hv, Option.map_some, Option.map_eq_some_iff] at h
    obtain ⟨e', hw, hview⟩ := h
    obtain ⟨hflags, htype, hlen, hcontent, hpointed⟩ := View.mk.inj hview
    rw [hstatic] at hpointed
    simp only [hw, hflags, htype, hlen, hcontent, hstatic]
    by_cases hst : v.isStatic = true
    · rw [if_pos hst, if_pos hst] at hpointed
      rw [hlen] at hpointed
      rw [hpointed]
    · simp only [hst, Bool.false_eq_true, false_and, if_false]

end DataVault

/-! ## Values in the file -/

/-- A value in the file can be read, and the next flush takes it along. -/
def Steady (v : DataVault δ) (e : DataCacheEntry) : Prop :=
  inFile e = true → e.has ServiceConfig.persist = true ∧ v.dataclass = payloadClassKeys ∧
    ∃ bytes, loadValue v.file e = some bytes ∧ v.content e = some (scrambleIf e bytes)

section Rows

variable {env : Env δ} {v w : DataVault δ} {k : CName} {e e' : DataCacheEntry}

theorem nocache_of_inFile (h : inFile e = true) : e.has ServiceConfig.nocache = true :=
  (Bool.and_eq_true_iff.mp h).1

theorem not_inFile_of_bufLen (h : 0 < e.value.bufLen) : inFile e = false := by
  have hne : e.value.bufLen ≠ 0 := by omega
  simp [inFile, hne]

/-- What is shown of a row depends on the bytes of the row, and on the file if it lies there.
Once the stream is open they are read from the file. -/
theorem view_congr (hstatic : w.isStatic = v.isStatic)
    (hread : e.value.bufPtr.read w.image e.value.dataLen =
      e.value.bufPtr.read v.image e.value.dataLen)
    (hfile : inFile e = true → w.file = v.file ∧
      (w.stream.type = .null → v.stream.type = .null) ∧
      (v.stream.type = .null → w.stream.type = .null ∨ Steady v e)) : w.view e = v.view e := by
  have hcontent : w.content e = v.content e := by
    by_cases hin : inFile e = true
    · obtain ⟨hfile, hnull, hopened⟩ := hfile hin
      by_cases hw : w.stream.type = .null
      · unfold DataVault.content
        rw [if_neg fun h => h.2 hw, if_neg fun h => h.2 (hnull hw), hread]
      by_cases hv : v.stream.type = .null
      · obtain ⟨_, _, bytes, hload, hcontent⟩ := (hopened hv).resolve_left hw hin
        rw [hcontent, DataVault.content, if_pos ⟨hin, hw⟩, hfile, hload]
        rfl
      · unfold DataVault.content
        rw [if_pos ⟨hin, hw⟩, if_pos ⟨hin, hv⟩, hfile]
    · unfold DataVault.content
      rw [if_neg fun h => hin h.1, if_neg fun h => hin h.1, hread]
  unfold DataVault.view
  rw [hstatic, hread, hcontent]

/-- A copied buffer holds the bytes of the row. -/
theorem read_cloned (h : Owned (· ≤ ·) e) (hpos : 0 < e.value.bufLen) (image image' : List UInt8) :
    (DataCache.cloned image e).value.bufPtr.read image' e.value.dataLen =
      e.value.bufPtr.read image' e.value.dataLen := by
  obtain ⟨bytes, hp, hlen, hle⟩ := h.block_of_bufLen hpos
  have hnot : ¬ (e.value.bufPtr = .null ∨ e.value.bufLen = 0) := by
    rw [hp]
    simp
    omega
  simp only [DataCache.cloned, DataCache.cloneCacheData, if_neg hnot]
  rw [hp]
  simp only [BufPtr.read, DataCache.mallocCopy]
  rw [List.take_append_of_le_length (by rw [List.length_take]; omega), List.take_take, Nat.min_self]

/-- A row with its buffer copied is shown like the row. -/
theorem view_cloned (h : Owned (· ≤ ·) e) (w : DataVault δ) (image : List UInt8) :
    w.view (DataCache.cloned image e) = w.view e := by
  rcases Nat.eq_zero_or_pos e.value.bufLen with hzero | hpos
  · rw [DataCache.cloned, cloneCacheData_of_bufLen hzero]
  · have hin := not_inFile_of_bufLen hpos
    have hin' : inFile (DataCache.cloned image e) = false := by
      refine not_inFile_of_bufLen ?_
      simpa [DataCache.cloned] using hpos
    have hlen : (DataCache.cloned image e).value.dataLen = e.value.dataLen :=
      cloneCacheData_dataLen image e.value
    have htype : (DataCache.cloned image e).value.type = e.value.type :=
      cloneCacheData_type image e.value
    unfold DataVault.view DataVault.content
    rw [hlen, htype, read_cloned h hpos, hin, hin']
    rfl

/-- The snapshot of a row takes the place of what a flush that failed made of it. -/
theorem restoreOffset_kept (hkept : Kept e e') (hno : e.has ServiceConfig.nocache = true)
    (image : List UInt8) :
    DataCache.restoreOffset (DataCache.cloned image e) e' = DataCache.cloned image e := by
  have hclone : DataCache.cloned image e =
      { e with
        value :=
          { (DataCache.cloneCacheData image e.value) with type := e.value.type } } := by
    rw [← cloneCacheData_type image e.value]
    rfl
  rcases hkept with rfl | ⟨_, offset, rfl⟩
  · rw [DataCache.restoreOffset, if_pos hno]
    exact hclone.symm
  · have hno' : (placed offset e).has ServiceConfig.nocache = true := by
      rw [DataCacheEntry.has, placed_flags]
      exact hno
    rw [DataCache.restoreOffset, if_pos hno', placed, if_pos hno]
    exact hclone.symm

/-- What is under a key once the snapshot is put back, if a flush or nothing at all was made
of the row: its clone, or the row itself. -/
theorem getValue_restore (hs : DataCache.Sorted v.cache) (hs' : DataCache.Sorted w.cache)
    (he : DataCache.getValue v.cache k = some e) (he' : DataCache.getValue w.cache k = some e')
    (hkept : Kept e e') : ∃ e'', DataCache.getValue (w.restore v).cache k = some e'' ∧
      (e'' = e ∨ e'' = DataCache.cloned v.image e) := by
  unfold DataVault.restore
  rw [DataCache.getValue_restoreOffsets hs' hs, he, he']
  by_cases hno : e.has ServiceConfig.nocache = true
  · rw [Option.filter_some, if_pos hno]
    exact ⟨_, congrArg some (restoreOffset_kept hkept hno v.image), Or.inr rfl⟩
  · rw [Option.filter_some, if_neg hno]
    exact ⟨_, rfl, Or.inl (hkept.eq_of_not_nocache (by simpa using hno))⟩

/-- What is shown of a row once the snapshot is put back. -/
theorem view_restore (howned : Owned (· ≤ ·) e) (hs : DataCache.Sorted v.cache)
    (hs' : DataCache.Sorted w.cache) (he : DataCache.getValue v.cache k = some e)
    (he' : DataCache.getValue w.cache k = some e') (hkept : Kept e e')
    (hview : w.view e = v.view e) : ∃ e'',
      DataCache.getValue (w.restore v).cache k = some e'' ∧ (w.restore v).view e'' = v.view e := by
  obtain ⟨e'', hget, rfl | rfl⟩ := getValue_restore hs hs' he he' hkept
  · exact ⟨e'', hget, hview⟩
  · exact ⟨_, hget, (view_cloned howned w v.image).trans hview⟩

end Rows

end Vault

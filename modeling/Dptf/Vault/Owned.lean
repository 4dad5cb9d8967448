import Dptf.Vault.Rewritten

/-!
# Values and the memory they own

What `buf_len` says of the buffer of a row, and that `DataVault_SetValue` keeps it
true as long as it allocates what it says.
-/

open Lib

namespace Vault

variable {δ : Type}

/-! ## Rows -/

/-- A row has the memory its lengths say.  `fits` compares `buf_len` with the allocation. -/
def Owned (fits : Nat → Nat → Prop) (e : DataCacheEntry) : Prop :=
  match e.value.bufPtr with
  | .null => e.value.bufLen = 0 ∧ e.value.dataLen = 0
  | .block bytes =>
    0 < e.value.bufLen ∧ fits e.value.bufLen bytes.length ∧ e.value.dataLen ≤ e.value.bufLen
  | .offset _ => e.value.bufLen = 0 ∧ e.has ServiceConfig.nocache = true
  | .image _ owned => e.value.bufLen = 0 ∧ e.value.dataLen ≤ owned

theorem length_mallocCopy {size : Nat} {bytes : List UInt8} (h : bytes.length ≤ size) :
    (DataCache.mallocCopy size bytes).length = size := by
  simp only [DataCache.mallocCopy, List.length_append, List.length_replicate]
  omega

theorem BufPtr.length_read_le (p : BufPtr) (image : List UInt8) (len : Nat) :
    (p.read image len).length ≤ len := by
  cases p with
  | null => simp [BufPtr.read]
  | block bytes => simp [BufPtr.read]
  | offset pos => simp [BufPtr.read]
  | image start owned => simp [BufPtr.read, peekAt]

theorem cloneCacheData_of_bufLen {d : CacheData} (h : d.bufLen = 0) (image : List UInt8) :
    DataCache.cloneCacheData image d = d := by
  rw [DataCache.cloneCacheData, if_pos (Or.inr h)]

@[simp] theorem cloneCacheData_type (image : List UInt8) (d : CacheData) :
    (DataCache.cloneCacheData image d).type = d.type := by
  unfold DataCache.cloneCacheData
  split <;> rfl

@[simp] theorem cloneCacheData_bufLen (image : List UInt8) (d : CacheData) :
    (DataCache.cloneCacheData image d).bufLen = d.bufLen := by
  unfold DataCache.cloneCacheData
  split <;> rfl

@[simp] theorem cloneCacheData_dataLen (image : List UInt8) (d : CacheData) :
    (DataCache.cloneCacheData image d).dataLen = d.dataLen := by
  unfold DataCache.cloneCacheData
  split <;> rfl

section Rows

variable {fits : Nat → Nat → Prop} {e : DataCacheEntry}

/-- What is not a buffer is not owned. -/
theorem Owned.block_of_bufLen (h : Owned fits e) (hlen : 0 < e.value.bufLen) :
    ∃ bytes, e.value.bufPtr = .block bytes ∧ fits e.value.bufLen bytes.length ∧
      e.value.dataLen ≤ e.value.bufLen := by
  unfold Owned at h
  cases hp : e.value.bufPtr with
  | block bytes =>
    rw [hp] at h
    exact ⟨bytes, rfl, h.2⟩
  | null | offset _ | image _ _ =>
    rw [hp] at h
    omega

theorem Owned.mono {fits' : Nat → Nat → Prop} (himp : ∀ m n, fits m n → fits' m n)
    (h : Owned fits e) : Owned fits' e := by
  unfold Owned at h ⊢
  cases hp : e.value.bufPtr with
  | block bytes =>
    rw [hp] at h
    exact ⟨h.1, himp _ _ h.2.1, h.2.2⟩
  | null | offset _ | image _ _ =>
    rw [hp] at h
    exact h

/-- What matters of a row is its value, and that a row in the file is not cached. -/
theorem Owned.congr {e' : DataCacheEntry} (h : Owned fits e) (hp : e'.value.bufPtr = e.value.bufPtr)
    (hb : e'.value.bufLen = e.value.bufLen) (hd : e'.value.dataLen = e.value.dataLen)
    (hno : e.has ServiceConfig.nocache = true → e'.has ServiceConfig.nocache = true) :
    Owned fits e' := by
  unfold Owned at h ⊢
  rw [hp, hb, hd]
  cases hptr : e.value.bufPtr with
  | offset pos =>
    rw [hptr] at h
    exact ⟨h.1, hno h.2⟩
  | null | block _ | image _ _ =>
    rw [hptr] at h
    exact h

/-- A copied buffer is as long as `buf_len` says. -/
theorem Owned.cloned (hrefl : ∀ n, fits n n) (h : Owned fits e) (image : List UInt8) :
    Owned fits (DataCache.cloned image e) := by
  rcases Nat.eq_zero_or_pos e.value.bufLen with hzero | hpos
  · have hsame : DataCache.cloned image e = e := by
      rw [DataCache.cloned, cloneCacheData_of_bufLen hzero]
    rwa [hsame]
  · obtain ⟨bytes, hp, _, hle⟩ := h.block_of_bufLen hpos
    have hnot : ¬ (e.value.bufPtr = .null ∨ e.value.bufLen = 0) := by
      rw [hp]
      simp
      omega
    have hlen := length_mallocCopy (le_trans (e.value.bufPtr.length_read_le image e.value.dataLen)
      (Nat.le_max_right e.value.bufLen e.value.dataLen))
    unfold Owned
    simp only [DataCache.cloned, DataCache.cloneCacheData, if_neg hnot]
    refine ⟨hpos, ?_, hle⟩
    rw [hlen, Nat.max_eq_left hle]
    exact hrefl _

theorem Owned.placed (h : Owned fits e) (pos : Nat) : Owned fits (placed pos e) := by
  unfold Vault.placed
  split
  · rename_i hno
    exact ⟨rfl, hno⟩
  · exact h

theorem Owned.kept {e' : DataCacheEntry} (h : Owned fits e) (hk : Kept e e') : Owned fits e' := by
  rcases hk with rfl | ⟨_, pos, rfl⟩
  · exact h
  · exact h.placed pos

/-- A row with the buffer of a cloned one. -/
theorem Owned.restoreOffset {c : DataCacheEntry} (h : Owned fits e) (hc : Owned fits c) :
    Owned fits (DataCache.restoreOffset c e) := by
  unfold DataCache.restoreOffset
  split
  · rename_i hno
    exact hc.congr rfl rfl rfl fun _ => hno
  · exact h

end Rows

/-! ## Caches -/

/-- All rows of a cache have their memory. -/
def AllOwned (fits : Nat → Nat → Prop) (cache : DataCache) : Prop := ∀ e ∈ cache, Owned fits e

section Caches

variable {fits : Nat → Nat → Prop} {cache : DataCache}

theorem AllOwned.touched {file : Option (DvFile δ)} {io : Nat → PairIo} {out : DataCache}
    (h : AllOwned fits cache) (ht : Touched file io cache out) : AllOwned fits out := by
  intro e' he'
  obtain ⟨e, he, hk⟩ := ht.mem e' he'
  exact (h e he).kept hk

theorem AllOwned.cloneOffsets (hrefl : ∀ n, fits n n) (hs : DataCache.Sorted cache)
    (h : AllOwned fits cache) (image : List UInt8) :
    AllOwned fits (DataCache.cloneOffsets image cache) := by
  intro c hc
  obtain ⟨e, he, _, rfl⟩ := (DataCache.mem_cloneOffsets hs).mp hc
  exact (h e he).cloned hrefl image

theorem AllOwned.modifyValue (hs : DataCache.Sorted cache) (h : AllOwned fits cache)
    (key : CName) {f : DataCacheEntry → DataCacheEntry}
    (hf : ∀ e ∈ cache, e.folded = key.folded → Owned fits (f e)) :
    AllOwned fits (DataCache.modifyValue cache key f) := by
  rw [DataCache.modifyValue_eq_map hs]
  intro e' he'
  obtain ⟨e, he, rfl⟩ := List.mem_map.mp he'
  split
  · rename_i hk
    exact hf e he hk
  · exact h e he

/-- Restoring takes no row's memory away. -/
theorem AllOwned.restoreOffsets (hs : DataCache.Sorted cache) (h : AllOwned fits cache)
    {clone : DataCache} (hc : AllOwned fits clone) :
    AllOwned fits (DataCache.restoreOffsets cache clone) := by
  induction clone generalizing cache with
  | nil => exact h
  | cons c clone ih =>
    rw [DataCache.restoreOffsets, List.foldl_cons]
    refine ih (hs.modifyValue c.key (DataCache.restoreOffset_key c)) ?_
      fun c' hc' => hc c' (by simp [hc'])
    exact h.modifyValue hs c.key fun e he _ => (h e he).restoreOffset (hc c (by simp))

end Caches

/-! ## The update of a row -/

/-- The update of a plan has the memory for the value: a new buffer is allocated with the
capacity of the caller's, and what lies in the image is overwritten in place. -/
def Plan.Fits (fits : Nat → Nat → Prop) (io : SetIo) : Plan → Prop
  | .update _ e d =>
    if needsBuffer d e e.value then
      io.malloc = true ∧ fits (max 1 d.dataLen.toNat) d.bufLen.toNat
    else ∀ start owned, e.value.bufPtr = .image start owned → d.dataLen.toNat ≤ owned
  | _ => True

theorem length_copyTo (bytes old : List UInt8) :
    ((bytes ++ old.drop bytes.length).take old.length).length = old.length := by
  simp only [List.length_take, List.length_append, List.length_drop]
  omega

theorem length_reallocBlock (size : Nat) (bytes : List UInt8) :
    (reallocBlock size (.block bytes)).length = size := by
  simp only [reallocBlock, List.length_append, List.length_take, List.length_replicate]
  omega

section Update

variable {fits : Nat → Nat → Prop} {io : SetIo} {d : SetData} {e : DataCacheEntry}

theorem needsBuffer_of_bufLen {value : CacheData} (h : 0 < value.bufLen) :
    needsBuffer d e value = false := by
  have hne : value.bufLen ≠ 0 := by omega
  simp [needsBuffer, hne]

theorem resize_of_bufLen_zero (h : e.value.bufLen = 0) : resize io d e.value = some e.value := by
  rw [resize, if_neg (by omega)]

/-- The buffer a value is copied to, if the row has one that is allocated. -/
theorem resize_block {bytes : List UInt8} {value : CacheData} (hrefl : ∀ n, fits n n)
    (hp : e.value.bufPtr = .block bytes) (hpos : 0 < e.value.bufLen)
    (hfits : fits e.value.bufLen bytes.length) (h : resize io d e.value = some value) :
    ∃ bytes', value.bufPtr = .block bytes' ∧ 0 < value.bufLen ∧
      fits value.bufLen bytes'.length ∧ d.dataLen.toNat ≤ value.bufLen := by
  unfold resize at h
  split at h
  · split at h
    · cases h
      refine ⟨_, rfl, by simp, ?_, Nat.le_max_right _ _⟩
      rw [hp, length_reallocBlock]
      exact hrefl _
    · cases h
  · rename_i hsame
    cases h
    exact ⟨bytes, hp, hpos, hfits, by omega⟩

/-- **An updated row has its memory**, and the value was copied into it. -/
theorem Owned.updated (hrefl : ∀ n, fits n n) (hle : ∀ m n, fits m n → m ≤ n)
    (h : Owned fits e) {key : CName} (hplan : (Plan.update key e d).Fits fits io)
    {value : CacheData} (hresize : resize io d e.value = some value) (flags : UInt32) :
    Owned fits (updated d flags (ownBuffer io d e value) e) ∧
      d.dataLen.toNat ≤ (ownBuffer io d e value).bufPtr.room := by
  -- a buffer of any kind that is long enough will do
  have hblock : ∀ (value : CacheData) (bytes : List UInt8), value.bufPtr = .block bytes →
      0 < value.bufLen → fits value.bufLen bytes.length → d.dataLen.toNat ≤ value.bufLen →
      Owned fits (Vault.updated d flags value e) ∧ d.dataLen.toNat ≤ value.bufPtr.room := by
    intro value bytes hp hpos hfits hlen
    refine ⟨?_, ?_⟩
    · unfold Owned
      simp only [Vault.updated, hp, copyTo]
      refine ⟨hpos, ?_, hlen⟩
      rwa [length_copyTo]
    · rw [hp]
      exact le_trans hlen (hle _ _ hfits)
  rcases Nat.eq_zero_or_pos e.value.bufLen with hzero | hpos
  · rw [resize_of_bufLen_zero hzero] at hresize
    cases hresize
    simp only [Plan.Fits] at hplan
    by_cases hneeds : needsBuffer d e e.value = true
    · rw [if_pos hneeds] at hplan
      rw [ownBuffer, if_pos hneeds, if_pos hplan.1]
      refine hblock _ _ rfl ?_ ?_ ?_
      · simp
      · simpa using hplan.2
      · exact Nat.le_max_right _ _
    · rw [if_neg hneeds] at hplan
      rw [ownBuffer, if_neg hneeds]
      unfold Owned at h ⊢
      simp only [Vault.updated]
      cases hp : e.value.bufPtr with
      | null =>
        have hempty : d.dataLen.toNat = 0 := by
          by_contra hne
          refine hneeds ?_
          have hlt : 0 < d.dataLen := UInt32.lt_iff_toNat_lt.mpr (Nat.pos_of_ne_zero hne)
          simp [needsBuffer, hp, hzero, hlt]
        simp [copyTo, hzero, hempty, BufPtr.room]
      | block bytes =>
        rw [hp] at h
        omega
      | offset pos =>
        rw [hp] at h
        exact absurd (by simp [needsBuffer, h.2, hzero]) hneeds
      | image start owned =>
        exact ⟨⟨hzero, hplan start owned hp⟩, hplan start owned hp⟩
  · obtain ⟨bytes, hp, hfits, _⟩ := h.block_of_bufLen hpos
    obtain ⟨bytes', hp', hpos', hfits', hlen'⟩ := resize_block hrefl hp hpos hfits hresize
    rw [ownBuffer, needsBuffer_of_bufLen hpos', if_neg (by simp)]
    exact hblock value bytes' hp' hpos' hfits' hlen'

/-- What a clone of a value that is not null is in the cache. -/
theorem clonedValue_cases (hbuf : d.bufPtr ≠ none) :
    (d.bufLen = 0 ∧ d.dataLen = 0 ∧ clonedValue d = ⟨d.type, .null, 0, 0⟩) ∨
      ∃ bytes, clonedValue d =
          ⟨d.type, .block bytes, max d.bufLen.toNat d.dataLen.toNat, d.dataLen.toNat⟩ ∧
        0 < max d.bufLen.toNat d.dataLen.toNat ∧ bytes.take d.dataLen.toNat = d.bytes := by
  obtain ⟨buffer, hbuffer⟩ := Option.ne_none_iff_exists'.mp hbuf
  have hmax : d.toEsifData.cloneLen.toNat = max d.bufLen.toNat d.dataLen.toNat :=
    UInt32.toNat_max ..
  have hbytes : d.bytes = buffer.take d.dataLen.toNat := by
    rw [SetData.bytes, hbuffer, Option.getD_some]
  have hlen : d.bytes.length = d.dataLen.toNat := SetData.length_bytes hbuf
  by_cases hzero : d.toEsifData.cloneLen = 0
  · have hboth : max d.bufLen.toNat d.dataLen.toNat = 0 := by rw [← hmax, hzero]; rfl
    have hb : d.bufLen = 0 := UInt32.toNat_inj.mp (show _ = 0 by omega)
    have hd : d.dataLen = 0 := UInt32.toNat_inj.mp (show _ = 0 by omega)
    have hclone : d.clone = { d.toEsifData with bufPtr := none } := by
      rw [EsifData.clone, hbuffer]
      exact if_pos hzero
    refine Or.inl ⟨hb, hd, ?_⟩
    rw [clonedValue, hclone]
    simp [hb, hd]
  · have hclone : d.clone =
        { d.toEsifData with
          bufLen := d.toEsifData.cloneLen,
          bufPtr := some (d.toEsifData.cloneBytes buffer) } := by
      rw [EsifData.clone, hbuffer]
      exact if_neg hzero
    refine Or.inr ⟨d.toEsifData.cloneBytes buffer, ?_, ?_, ?_⟩
    · rw [clonedValue, hclone]
      simp only [hmax]
    · rw [← hmax]
      exact Nat.pos_of_ne_zero fun h => hzero (UInt32.toNat_inj.mp h)
    · rw [EsifData.cloneBytes, ← hbytes, List.take_append_of_le_length (by omega),
        List.take_of_length_le (by omega)]

/-- A row that is added has its memory, and the value was copied into it. -/
theorem owned_added (hrefl : ∀ n, fits n n) (image : List UInt8) (hbuf : d.bufPtr ≠ none)
    (key : CName) (flags : UInt32) :
    Owned fits ⟨flags, key, DataCache.cloneCacheData image (clonedValue d)⟩ ∧
      d.dataLen.toNat ≤ (DataCache.cloneCacheData image (clonedValue d)).bufPtr.room := by
  have hlen : d.bytes.length = d.dataLen.toNat := SetData.length_bytes hbuf
  rcases clonedValue_cases hbuf with ⟨_, hd, hv⟩ | ⟨bytes, hv, hpos, htake⟩
  · rw [hv, cloneCacheData_of_bufLen rfl, hd]
    exact ⟨⟨rfl, rfl⟩, Nat.le_refl 0⟩
  · have hnot : ¬ ((BufPtr.block bytes : BufPtr) = .null ∨
        max d.bufLen.toNat d.dataLen.toNat = 0) := by
      simp
      omega
    rw [hv, DataCache.cloneCacheData]
    simp only [if_neg hnot, BufPtr.read, htake, BufPtr.room]
    rw [length_mallocCopy (by omega)]
    refine ⟨?_, by omega⟩
    unfold Owned
    simp only
    rw [length_mallocCopy (by omega), Nat.max_eq_left (Nat.le_max_right _ _)]
    exact ⟨hpos, hrefl _, Nat.le_max_right _ _⟩

end Update

/-! ## The call -/

section Call

variable {fits : Nat → Nat → Prop} {env : Env δ} {io : SetIo} {v : DataVault δ} {c : SetCall}

/-- What a call makes of the cache has its memory, and it copied no more than there is room
for. -/
theorem Changed.owned {ch : Change} (hrefl : ∀ n, fits n n) (hle : ∀ m n, fits m n → m ≤ n)
    (hch : Changed env io v c ch) (hs : DataCache.Sorted v.cache)
    (h : AllOwned fits v.cache) (hfits : (v.plan env io c).Fits fits io) :
    AllOwned fits ch.cache ∧ ∀ cp ∈ ch.copies, cp.Inside := by
  cases hch with
  | unchanged _ => exact ⟨h, by simp [DataVault.unchanged]⟩
  | deleted _ _ =>
    exact ⟨fun e he => h e ((DataCache.mem_deleteValue hs).mp he).1, by simp⟩
  | deletedMatching _ _ => exact ⟨fun e he => h e (List.mem_filter.mp he).1, by simp⟩
  | @updated key e d value hplan hplanned hresize =>
    cases hplanned with
    | update _ _ _ _ _ _ hget _ =>
      obtain ⟨he, hk⟩ := (DataCache.getValue_eq_some_iff hs).mp hget
      rw [hplan] at hfits
      obtain ⟨hrow, hroom⟩ := (h e he).updated hrefl hle hfits hresize c.flags
      refine ⟨h.modifyValue hs key fun e' he' hk' => ?_, by simpa [Copy.Inside] using hroom⟩
      rw [Ascending.eq_of_key_eq hs he' he (hk'.trans hk.symm)]
      exact hrow
  | @added key d _ hplanned _ _ =>
    cases hplanned with
    | add _ _ _ _ _ hbuf _ =>
      obtain ⟨hrow, hroom⟩ := owned_added hrefl v.image hbuf key (itemFlags c.flags)
      refine ⟨fun e he => ?_, by simpa [Copy.Inside] using hroom⟩
      rcases DataCache.mem_insertValue.mp he with rfl | he
      · exact hrow
      · exact h e he

theorem FlushEnds.owned {io : FlushIo} {w : DataVault δ} {r : EsifError × DataVault δ}
    (hends : DataVault.FlushEnds env io w r) (h : AllOwned fits w.cache) :
    AllOwned fits r.2.cache := by
  cases hends with
  | refused => exact h
  | failed _ _ ht _ => exact h.touched ht
  | done _ _ _ _ hrows _ _ =>
    unfold DataVault.RowsWritten at hrows
    rw [DataVault.openStream_cache] at hrows
    split at hrows
    · exact h.touched hrows.touched
    · rw [hrows.1]
      exact h

theorem Finished.owned {io : FlushIo} {ch : Change} {r : EsifError × DataVault δ}
    (hrefl : ∀ n, fits n n) (hfin : DataVault.Finished env io v ch r)
    (hs : DataCache.Sorted v.cache) (hs' : DataCache.Sorted ch.cache)
    (h : AllOwned fits v.cache) (h' : AllOwned fits ch.cache) : AllOwned fits r.2.cache := by
  have hclone := h.cloneOffsets hrefl hs v.image
  cases hfin with
  | kept _ => exact h'
  | delayed _ _ _ => exact AllOwned.restoreOffsets hs' h' hclone
  | flushed _ _ _ hends => exact FlushEnds.owned hends h'
  | failed _ _ _ _ hends =>
    exact AllOwned.restoreOffsets (hends.sorted hs') (FlushEnds.owned hends h') hclone

end Call

end Vault

import Dptf.Lib.SortedList
import Dptf.Vault.Types

/-!
# The cache of a DataVault

The rows of a vault, in an array sorted by key without case and searched by
bisection.
-/

open Lib

namespace Vault

/-- A cache. -/
abbrev DataCache := List DataCacheEntry

/-- The key as the search sees it. -/
def DataCacheEntry.folded (e : DataCacheEntry) : List UInt8 := e.key.folded

namespace DataCache

variable {cache clone : DataCache} {key : CName} {e : DataCacheEntry} {image : List UInt8}

/-! ## The functions -/

/-- `DataCache_GetValue`. -/
def getValue (cache : DataCache) (key : CName) : Option DataCacheEntry :=
  lookup DataCacheEntry.folded key.folded cache

/-- What `malloc` of a size and a copy to its start leave. -/
def mallocCopy (size : Nat) (bytes : List UInt8) : List UInt8 :=
  bytes ++ List.replicate (size - bytes.length) 0

/-- `CloneCacheData`.  Where `buf_len` is 0 the pointer is copied and not what it points to. -/
def cloneCacheData (image : List UInt8) (d : CacheData) : CacheData :=
  if d.bufPtr = .null ∨ d.bufLen = 0 then d
  else
    { d with
      bufPtr := .block (mallocCopy (max d.bufLen d.dataLen) (d.bufPtr.read image d.dataLen)) }

/-- `DataCache_InsertValue`, with its allocations succeeding. -/
def insertValue (image : List UInt8) (cache : DataCache) (key : CName) (value : CacheData)
    (flags : UInt32) : DataCache :=
  insertKey DataCacheEntry.folded ⟨flags, key, cloneCacheData image value⟩ cache

/-- `DataCache_DeleteValue`. -/
def deleteValue (cache : DataCache) (key : CName) : DataCache :=
  eraseKey DataCacheEntry.folded key.folded cache

/-- What is done to the row a pointer of `DataCache_GetValue` leads to. -/
def modifyValue (cache : DataCache) (key : CName) (f : DataCacheEntry → DataCacheEntry) :
    DataCache :=
  modifyKey DataCacheEntry.folded key.folded f cache

/-- `DataCache_CloneOffsets`, with its allocations succeeding: the `NOCACHE` rows. -/
def cloneOffsets (image : List UInt8) (cache : DataCache) : DataCache :=
  cache.foldl (fun clone e =>
    if e.has ServiceConfig.nocache then insertValue image clone e.key e.value e.flags
    else clone) []

/-- The row gets the buffer of a cloned row, if it is `NOCACHE` still. -/
def restoreOffset (c e : DataCacheEntry) : DataCacheEntry :=
  if e.has ServiceConfig.nocache then
    { e with
      value :=
        { e.value with
          bufPtr := c.value.bufPtr, dataLen := c.value.dataLen, bufLen := c.value.bufLen } }
  else e

/-- `DataCache_RestoreOffsets`. -/
def restoreOffsets (cache clone : DataCache) : DataCache :=
  clone.foldl (fun cache c => modifyValue cache c.key (restoreOffset c)) cache

/-! ## Order -/

/-- Sorted by key, each key once. -/
def Sorted (cache : DataCache) : Prop := Ascending DataCacheEntry.folded cache

theorem sorted_nil : Sorted [] := List.Pairwise.nil

theorem getValue_eq_some_iff (hs : Sorted cache) :
    getValue cache key = some e ↔ e ∈ cache ∧ e.folded = key.folded :=
  lookup_eq_some_iff hs

theorem getValue_eq_none_iff (hs : Sorted cache) :
    getValue cache key = none ↔ ∀ e ∈ cache, e.folded ≠ key.folded :=
  lookup_eq_none_iff hs

theorem getValue_nil (key : CName) : getValue [] key = none :=
  (getValue_eq_none_iff sorted_nil).mpr (by simp)

/-! ## Inserting, changing, deleting -/

theorem mem_insertValue {value : CacheData} {flags : UInt32} :
    e ∈ insertValue image cache key value flags ↔
      e = ⟨flags, key, cloneCacheData image value⟩ ∨ e ∈ cache :=
  mem_insertKey

theorem Sorted.insertValue (hs : Sorted cache) (hnew : getValue cache key = none)
    (image : List UInt8) (value : CacheData) (flags : UInt32) :
    Sorted (insertValue image cache key value flags) :=
  hs.insertKey ((getValue_eq_none_iff hs).mp hnew)

theorem getValue_insertValue (hs : Sorted cache) (hnew : getValue cache key = none)
    (image : List UInt8) (value : CacheData) (flags : UInt32) (k : CName) :
    getValue (insertValue image cache key value flags) k =
      if key.folded = k.folded then some ⟨flags, key, cloneCacheData image value⟩
      else getValue cache k :=
  lookup_insertKey hs ((getValue_eq_none_iff hs).mp hnew) k.folded

theorem modifyValue_eq_map (hs : Sorted cache) (key : CName) (f : DataCacheEntry → DataCacheEntry) :
    modifyValue cache key f = cache.map fun e => if e.folded = key.folded then f e else e :=
  modifyKey_eq_map hs _ f

theorem Sorted.map (hs : Sorted cache) {f : DataCacheEntry → DataCacheEntry}
    (hf : ∀ e, (f e).key = e.key) : Sorted (cache.map f) :=
  Ascending.map hs fun e => congrArg CName.folded (hf e)

theorem getValue_map (hs : Sorted cache) {f : DataCacheEntry → DataCacheEntry}
    (hf : ∀ e, (f e).key = e.key) (k : CName) :
    getValue (cache.map f) k = (getValue cache k).map f :=
  lookup_map hs (fun e => congrArg CName.folded (hf e)) k.folded

theorem Sorted.modifyValue (hs : Sorted cache) (key : CName) {f : DataCacheEntry → DataCacheEntry}
    (hf : ∀ e, (f e).key = e.key) : Sorted (modifyValue cache key f) := by
  rw [modifyValue_eq_map hs]
  refine hs.map fun e => ?_
  split
  · exact hf e
  · rfl

/-- A change of one row is seen under its key only. -/
theorem getValue_modifyValue (hs : Sorted cache) (key : CName) {f : DataCacheEntry → DataCacheEntry}
    (hf : ∀ e, (f e).key = e.key) (k : CName) :
    getValue (modifyValue cache key f) k =
      if key.folded = k.folded then (getValue cache k).map f else getValue cache k := by
  have hkey : ∀ e : DataCacheEntry, (if e.folded = key.folded then f e else e).key = e.key := by
    intro e
    split
    · exact hf e
    · rfl
  rw [modifyValue_eq_map hs, getValue_map hs hkey]
  cases h : getValue cache k with
  | none => simp
  | some e =>
    have hk := ((getValue_eq_some_iff hs).mp h).2
    simp only [Option.map_some, hk, eq_comm (a := k.folded)]
    split <;> rfl

theorem mem_deleteValue (hs : Sorted cache) :
    e ∈ deleteValue cache key ↔ e ∈ cache ∧ e.folded ≠ key.folded := by
  rw [deleteValue, eraseKey_eq_filter hs, List.mem_filter, decide_eq_true_eq]

theorem Sorted.deleteValue (hs : Sorted cache) (key : CName) : Sorted (deleteValue cache key) := by
  rw [DataCache.deleteValue, eraseKey_eq_filter hs]
  exact hs.sublist List.filter_sublist

theorem getValue_deleteValue (hs : Sorted cache) (key k : CName) :
    getValue (deleteValue cache key) k =
      if key.folded = k.folded then none else getValue cache k := by
  rw [deleteValue, eraseKey_eq_filter hs, getValue, lookup_filter hs, ← getValue]
  cases h : getValue cache k with
  | none => simp
  | some e =>
    have hk := ((getValue_eq_some_iff hs).mp h).2
    by_cases hkey : key.folded = k.folded
    · rw [if_pos hkey, Option.filter_some, if_neg (by simp [hk, hkey])]
    · rw [if_neg hkey, Option.filter_some, if_pos (by simpa [hk] using fun heq => hkey heq.symm)]

/-! ## The snapshot -/

/-- A row with its buffer copied. -/
def cloned (image : List UInt8) (e : DataCacheEntry) : DataCacheEntry :=
  { e with value := cloneCacheData image e.value }

/-- The snapshot taken row by row: what was cloned before stays in it. -/
theorem foldl_cloneOffsets {image : List UInt8} {cache clone : DataCache} (hs : Sorted cache)
    (hclone : Sorted clone) (hnew : ∀ c ∈ clone, ∀ e ∈ cache, c.folded ≠ e.folded) :
    Sorted (cache.foldl (fun clone e =>
        if e.has ServiceConfig.nocache then insertValue image clone e.key e.value e.flags
        else clone) clone) ∧
      ∀ c, c ∈ cache.foldl (fun clone e =>
        if e.has ServiceConfig.nocache then insertValue image clone e.key e.value e.flags
        else clone) clone ↔
        c ∈ clone ∨ ∃ e ∈ cache, e.has ServiceConfig.nocache ∧ c = cloned image e := by
  induction cache generalizing clone with
  | nil => exact ⟨hclone, by simp⟩
  | cons e cache ih =>
    obtain ⟨hhead, htail⟩ := List.pairwise_cons.mp hs
    have hne : ∀ e' ∈ cache, e.folded ≠ e'.folded := by
      intro e' he' heq
      have hlt := hhead e' he'
      rw [heq, compare_key_self] at hlt
      cases hlt
    rw [List.foldl_cons]
    by_cases hno : e.has ServiceConfig.nocache
    · rw [if_pos hno]
      have hfree : getValue clone e.key = none :=
        (getValue_eq_none_iff hclone).mpr fun c hc => hnew c hc e (by simp)
      have hnew' : ∀ c ∈ insertValue image clone e.key e.value e.flags, ∀ e' ∈ cache,
          c.folded ≠ e'.folded := by
        intro c hc e' he'
        rcases mem_insertValue.mp hc with rfl | hc
        · exact hne e' he'
        · exact hnew c hc e' (by simp [he'])
      obtain ⟨hsorted, hmem⟩ := ih htail (hclone.insertValue hfree image e.value e.flags) hnew'
      refine ⟨hsorted, fun c => ?_⟩
      rw [hmem, mem_insertValue]
      simp only [List.mem_cons, exists_eq_or_imp, hno, true_and, cloned]
      tauto
    · rw [if_neg hno]
      obtain ⟨hsorted, hmem⟩ :=
        ih htail hclone fun c hc e' he' => hnew c hc e' (by simp [he'])
      refine ⟨hsorted, fun c => ?_⟩
      rw [hmem]
      simp [hno]

theorem Sorted.cloneOffsets (hs : Sorted cache) (image : List UInt8) :
    Sorted (cloneOffsets image cache) :=
  (foldl_cloneOffsets hs sorted_nil (by simp)).1

theorem mem_cloneOffsets (hs : Sorted cache) {c : DataCacheEntry} : c ∈ cloneOffsets image cache ↔
      ∃ e ∈ cache, e.has ServiceConfig.nocache ∧ c = cloned image e := by
  have h := (@foldl_cloneOffsets image cache [] hs sorted_nil (by simp)).2 c
  rw [cloneOffsets]
  simpa using h

/-- What the snapshot has under a key. -/
theorem getValue_cloneOffsets (hs : Sorted cache) (k : CName) :
    getValue (cloneOffsets image cache) k =
      ((getValue cache k).filter fun e => e.has ServiceConfig.nocache).map (cloned image) := by
  apply Option.ext
  intro c
  rw [getValue_eq_some_iff (hs.cloneOffsets image), mem_cloneOffsets hs, Option.map_eq_some_iff]
  constructor
  · rintro ⟨⟨e, he, hno, rfl⟩, hk⟩
    refine ⟨e, ?_, rfl⟩
    rw [Option.filter_eq_some_iff]
    exact ⟨(getValue_eq_some_iff hs).mpr ⟨he, hk⟩, hno⟩
  · rintro ⟨e, he, rfl⟩
    obtain ⟨he, hno⟩ := Option.filter_eq_some_iff.mp he
    obtain ⟨he, hk⟩ := (getValue_eq_some_iff hs).mp he
    exact ⟨⟨e, he, hno, rfl⟩, hk⟩

@[simp] theorem restoreOffset_key (c e : DataCacheEntry) : (restoreOffset c e).key = e.key := by
  unfold restoreOffset
  split <;> rfl

/-- What is restored is seen under the keys of the snapshot, each once. -/
theorem sorted_getValue_restoreOffsets (hs : Sorted cache) (hclone : Sorted clone) :
    Sorted (restoreOffsets cache clone) ∧ ∀ k, getValue (restoreOffsets cache clone) k =
        match getValue clone k with
        | some c => (getValue cache k).map (restoreOffset c)
        | none => getValue cache k := by
  induction clone generalizing cache with
  | nil => exact ⟨hs, fun k => by rw [getValue_nil]; rfl⟩
  | cons c clone ih =>
    obtain ⟨hhead, htail⟩ := List.pairwise_cons.mp hclone
    have hfirst := hs.modifyValue c.key (restoreOffset_key c)
    obtain ⟨hsorted, hget⟩ := ih hfirst htail
    refine ⟨hsorted, fun k => ?_⟩
    rw [restoreOffsets, List.foldl_cons, ← restoreOffsets, hget,
      getValue_modifyValue hs c.key (restoreOffset_key c)]
    by_cases hk : c.key.folded = k.folded
    · have hc : getValue (c :: clone) k = some c :=
        (getValue_eq_some_iff hclone).mpr ⟨by simp, hk⟩
      have hrest : getValue clone k = none := by
        rw [getValue_eq_none_iff htail]
        intro c' hc' heq
        have hlt := hhead c' hc'
        rw [heq, ← hk, DataCacheEntry.folded, compare_key_self] at hlt
        cases hlt
      rw [hc, hrest, if_pos hk]
    · have hsame : getValue (c :: clone) k = getValue clone k := by
        refine lookup_congr hclone htail fun e he => ?_
        have hne : e ≠ c := fun heq => hk (heq ▸ he)
        simp [hne]
      rw [hsame, if_neg hk]

theorem Sorted.restoreOffsets (hs : Sorted cache) (hclone : Sorted clone) :
    Sorted (restoreOffsets cache clone) :=
  (sorted_getValue_restoreOffsets hs hclone).1

/-- **What is under a key once a snapshot was put back**: a row that is `NOCACHE` and was has
the buffer it had. -/
theorem getValue_restoreOffsets {cache before : DataCache} (hs : Sorted cache)
    (hbefore : Sorted before) (k : CName) :
    getValue (restoreOffsets cache (cloneOffsets image before)) k =
      match (getValue before k).filter fun e => e.has ServiceConfig.nocache with
      | some c => (getValue cache k).map (restoreOffset (cloned image c))
      | none => getValue cache k := by
  rw [(sorted_getValue_restoreOffsets hs (hbefore.cloneOffsets image)).2,
    getValue_cloneOffsets hbefore]
  cases (getValue before k).filter fun e => e.has ServiceConfig.nocache <;> rfl

end DataCache

end Vault

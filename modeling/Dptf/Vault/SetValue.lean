import Dptf.Vault.Flush

/-!
# Getting and setting values

`DataVault_GetValue` and `DataVault_SetValue`.  The second is cut in three: what it
changes in the cache, the flush if the row is persisted, and the restoring of the
`NOCACHE` rows.
-/

open Lib

namespace Vault

variable {δ : Type}

/-! ## Getting -/

/-- What `DataVault_GetValue` hands out. -/
structure Got where
  type : UInt32
  bytes : List UInt8
  flags : UInt32
deriving DecidableEq, Repr

/-- An error of `DataVault_GetValue`, with the length a larger buffer needs. -/
structure GetError where
  rc : EsifError
  dataLen : Nat
deriving DecidableEq, Repr

namespace DataVault

/-- The vault is static. -/
def isStatic (v : DataVault δ) : Bool := flagsTest v.flags ServiceConfig.static

/-- The vault is read-only. -/
def isReadonly (v : DataVault δ) : Bool := flagsTest v.flags ServiceConfig.readonly

/-- The bytes of a row: from the file if it is not cached and the vault has one, else from
where the pointer points. -/
def content (v : DataVault δ) (e : DataCacheEntry) : Option (List UInt8) :=
  if inFile e ∧ v.stream.type ≠ .null then (loadValue v.file e).map (scrambleIf e)
  else some (e.value.bufPtr.read v.image e.value.dataLen)

/-- `DataVault_GetValue` into a value with a type and a buffer length.  A static vault hands
out the pointer itself. -/
def getValue (v : DataVault δ) (key : CName) (type bufLen : UInt32) (allocated : Bool) :
    Except GetError Got :=
  match DataCache.getValue v.cache key with
  | none => .error ⟨esifENotFound, 0⟩
  | some e =>
    if type ≠ e.value.type ∧ type ≠ esifDataAuto then
      .error ⟨esifEUnsupportedResultDataType, 0⟩
    else if bufLen.toNat < e.value.dataLen ∧ bufLen ≠ esifDataAllocate then
      .error ⟨esifENeedLargerBuffer, e.value.dataLen⟩
    else if v.isStatic ∧ type = esifDataAuto ∧ bufLen = esifDataAllocate then
      .ok ⟨e.value.type, e.value.bufPtr.read v.image e.value.dataLen, e.flags⟩
    else if bufLen = esifDataAllocate ∧ ¬ allocated then .error ⟨esifENoMemory, 0⟩
    else
      match v.content e with
      | none => .error ⟨esifENotFound, 0⟩
      | some bytes => .ok ⟨e.value.type, bytes, e.flags⟩

/-- `DataVault_GetValue` with an `AUTO` type and auto-allocation. -/
def read (v : DataVault δ) (key : CName) : Except GetError Got :=
  v.getValue key esifDataAuto esifDataAllocate true

end DataVault

/-! ## Outcomes and calls -/

/-- How the allocations and the file operations of a call end. -/
structure SetIo where
  /-- The snapshot of the `NOCACHE` rows. -/
  cloneOffsets : Bool
  /-- The buffer for a file a value is loaded from. -/
  fileMalloc : Bool
  /-- Opening and reading that file. -/
  fileRead : Bool
  realloc : Bool
  malloc : Bool
  /-- `EsifData_Clone`. -/
  cloneValue : Bool
  /-- `DataCache_InsertValue`. -/
  insertValue : Bool
  flush : FlushIo

/-- All succeed. -/
def SetIo.ok : SetIo := ⟨true, true, true, true, true, true, true, .ok⟩

/-- A call of `DataVault_SetValue`. -/
structure SetCall where
  /-- `none` is the null pointer: flush only. -/
  key : Option CName
  value : Option SetData
  flags : UInt32

/-- A copy to the buffer of a row: the bytes there are at its address, and the bytes copied. -/
structure Copy where
  room : Nat
  len : Nat
deriving DecidableEq, Repr

/-- The copy stays within the buffer. -/
def Copy.Inside (c : Copy) : Prop := c.len ≤ c.room

instance (c : Copy) : Decidable c.Inside := inferInstanceAs (Decidable (c.len ≤ c.room))

/-! ## Values from files -/

/-- A name of the source, in bytes. -/
def ascii (cs : List Char) : List UInt8 := cs.map fun c => UInt8.ofNat c.toNat

/-- The path types a file name can start with, in their order. -/
def pathTokens : List (List UInt8) :=
  [ascii ['$', 'b', 'i', 'n'], ascii ['$', 'd', 'v'], ascii ['$', 'l', 'o', 'g'],
    ascii ['$', 'c', 'm', 'd'], ascii ['$', 'd', 's', 'p'], ascii ['$', 'd', 'a', 't', 'a']]

/-- `isalpha`. -/
def isalpha (b : UInt8) : Bool := (65 ≤ b && b ≤ 90) || (97 ≤ b && b ≤ 122)

/-- `DataVault_TranslatePath`.  Absolute names and names with `..` are refused; a name is
looked for under the path its first characters say, or under the default one. -/
def translatePath (env : Env δ) (filename : List UInt8) : Except EsifError (List UInt8) :=
  if filename.tails.any (List.isPrefixOf [46, 46]) ∨ filename.head? = some 47 ∨
      filename.head? = some 92 ∨ (filename.head?.any isalpha ∧ filename[1]? = some 58) then
    .error esifEIoInvalidName
  else
    let translated : Except EsifError (List UInt8) :=
      if filename.head? = some 36 then
        match pathTokens.find? fun token =>
          (filename.take token.length).map tolower = token.map tolower with
        | some token => .ok (env.buildPath token ++ filename.drop token.length)
        | none => .error esifEIoInvalidName
      else .ok []
    match translated with
    | .ok [] => .ok (env.defaultPath ++ filename)
    | result => result

/-- `ReadFileIntoBuffer`, up to what it puts in front of the contents. -/
def readFile (env : Env δ) (io : SetIo) (filename : List UInt8) :
    Except EsifError (List UInt8) :=
  match translatePath env filename with
  | .error rc => .error rc
  | .ok path =>
    if io.fileMalloc then
      match env.files path with
      | none => .error esifEIoError
      | some contents => if io.fileRead then .ok contents else .error esifEIoError
    else .error esifENoMemory

/-- The value becomes the contents of a file, with an `esif_data_variant` in front of them
or none.  A string gets its NUL. -/
def SetData.ofFile (type : UInt32) (variant : Bool) (contents : List UInt8) : SetData :=
  let offset := if variant then 12 else 0
  let buflen := UInt32.ofNat (contents.length + offset)
  let head :=
    if variant ∧ offset < buflen.toNat then
      leEnc 4 type.toNat ++ leEnc 8 (buflen.toNat - offset)
    else List.replicate offset 0
  let len := if type = esifDataString then buflen + 1 else buflen
  { type := type, bufPtr := some (head ++ contents ++ [0]), bufLen := len, dataLen := len,
    readable := by
      intro bytes hbytes
      obtain rfl := Option.some.inj hbytes
      have hhead : head.length = offset := by
        show (if variant ∧ offset < buflen.toNat then _ else _ : List UInt8).length = _
        split
        · rename_i hv
          simp [offset, hv.1]
        · simp
      have hle : buflen.toNat ≤ contents.length + offset := Nat.mod_le _ _
      have hlen : len.toNat ≤ buflen.toNat + 1 := by
        show (if type = esifDataString then _ else _ : UInt32).toNat ≤ _
        split
        · rw [UInt32.toNat_add]
          exact Nat.mod_le _ _
        · omega
      simp only [List.length_append, List.length_cons, List.length_nil, hhead]
      omega }

/-- The value begins with `<<`. -/
def SetData.namesFile (d : SetData) : Bool := (d.bufPtr.getD []).take 2 = [60, 60]

/-- The value of a call once a file it names was read. -/
def SetData.loaded (env : Env δ) (io : SetIo) (d : SetData) : Except EsifError SetData :=
  if d.namesFile then
    let filename := (CName.ofBuffer ((d.bufPtr.getD []).drop 2)).bytes
    let variant := filename.head? = some 60
    match readFile env io (if variant then filename.tail else filename) with
    | .error rc => .error rc
    | .ok contents => .ok (.ofFile d.type variant contents)
  else .ok d

theorem translatePath_error {env : Env δ} {filename : List UInt8} {rc : EsifError}
    (h : translatePath env filename = .error rc) : rc = esifEIoInvalidName := by
  unfold translatePath at h
  split at h
  · exact (Except.error.inj h).symm
  · simp only at h
    split at h
    · cases h
    · split at h
      · split at h
        · cases h
        · exact (Except.error.inj h).symm
      · cases h

/-- What a file that is not read is reported as. -/
theorem SetData.loaded_error_mem {env : Env δ} {io : SetIo} {d : SetData} {rc : EsifError}
    (h : d.loaded env io = .error rc) : rc ∈ [esifEIoInvalidName, esifENoMemory, esifEIoError] := by
  have hread : ∀ filename, readFile env io filename = .error rc →
      rc ∈ [esifEIoInvalidName, esifENoMemory, esifEIoError] := by
    intro filename h
    unfold readFile at h
    split at h
    · rename_i rc' hpath
      obtain rfl := Except.error.inj h
      simp [translatePath_error hpath]
    · split at h
      · split at h
        · obtain rfl := Except.error.inj h
          simp
        · split at h
          · cases h
          · obtain rfl := Except.error.inj h
            simp
      · obtain rfl := Except.error.inj h
        simp
  unfold SetData.loaded at h
  split at h
  · simp only at h
    split at h
    · rename_i rc' hfile
      obtain rfl := Except.error.inj h
      exact hread _ hfile
    · cases h
  · cases h

/-- A file that is not read is reported. -/
theorem SetData.loaded_error {env : Env δ} {io : SetIo} {d : SetData} {rc : EsifError}
    (h : d.loaded env io = .error rc) : rc ≠ esifOk := by
  have hmem := SetData.loaded_error_mem h
  simp only [List.mem_cons, List.not_mem_nil, or_false] at hmem
  rcases hmem with rfl | rfl | rfl <;> decide

/-! ## Rows -/

/-- What `realloc` to a size leaves at an address. -/
def reallocBlock (size : Nat) : BufPtr → List UInt8
  | .block bytes => bytes.take size ++ List.replicate (size - bytes.length) 0
  | _ => List.replicate size 0

/-- A buffer that was allocated grows or shrinks to the value. -/
def resize (io : SetIo) (d : SetData) (value : CacheData) : Option CacheData :=
  if 0 < value.bufLen ∧ d.dataLen.toNat ≠ value.bufLen then
    if io.realloc then
      some
        { value with
          bufPtr := .block (reallocBlock (max 1 d.dataLen.toNat) value.bufPtr),
          bufLen := max 1 d.dataLen.toNat }
    else none
  else some value

/-- The row is to get a buffer of its own in place of a file offset or a null pointer. -/
def needsBuffer (d : SetData) (e : DataCacheEntry) (value : CacheData) : Bool :=
  (e.has ServiceConfig.nocache || value.bufPtr = .null && 0 < d.dataLen) && value.bufLen = 0

/-- The buffer such a row gets.  It is allocated with the capacity of the caller's buffer, and
`malloc` is not checked. -/
def ownBuffer (io : SetIo) (d : SetData) (e : DataCacheEntry) (value : CacheData) : CacheData :=
  if needsBuffer d e value then
    { value with
      bufLen := max 1 d.dataLen.toNat,
      bufPtr := if io.malloc then .block (List.replicate d.bufLen.toNat 0) else .null }
  else value

/-- `memcpy` to an address that is a buffer of its own. -/
def copyTo (bytes : List UInt8) : BufPtr → BufPtr
  | .block old => .block ((bytes ++ old.drop bytes.length).take old.length)
  | p => p

/-- `memcpy` to an address inside the image. -/
def copyToImage (image bytes : List UInt8) : BufPtr → List UInt8
  | .image start _ => (overwrite image start bytes).take image.length
  | _ => image

/-- The updated row. -/
def updated (d : SetData) (flags : UInt32) (value : CacheData) (e : DataCacheEntry) :
    DataCacheEntry :=
  { e with
    flags := itemFlags flags,
    value := ⟨d.type, copyTo d.bytes value.bufPtr, value.bufLen, d.dataLen.toNat⟩ }

/-- A clone of the caller's value as a value of the cache. -/
def clonedValue (d : SetData) : CacheData where
  type := d.clone.type
  bufPtr :=
    match d.clone.bufPtr with
    | none => .null
    | some bytes => .block bytes
  bufLen := d.clone.bufLen.toNat
  dataLen := d.clone.dataLen.toNat

/-- The loop that deletes all rows a pattern matches, and whose flags say whether one of them
was persisted. -/
def deleteLoop (pattern : CName) : Nat → Nat → DataCache → UInt32 → DataCache × UInt32
  | 0, _, cache, flags => (cache, flags)
  | fuel + 1, item, cache, flags =>
    match cache[item]? with
    | none => (cache, flags)
    | some e =>
      if e.key.matchesPattern pattern then
        let flags := flagsSet flags (e.flags &&& ServiceConfig.persist)
        if (DataCache.getValue cache e.key).isSome then
          deleteLoop pattern fuel item (DataCache.deleteValue cache e.key) flags
        else deleteLoop pattern fuel (item + 1) cache flags
      else deleteLoop pattern fuel (item + 1) cache flags

/-- Delete all rows a pattern matches. -/
def deleteMatching (pattern : CName) (cache : DataCache) (flags : UInt32) : DataCache × UInt32 :=
  deleteLoop pattern cache.length 0 cache flags

/-! ## Deciding -/

/-- What a call comes to do to the cache. -/
inductive Plan
  /-- Nothing, with or without an error. -/
  | stop (rc : EsifError)
  /-- Delete a row. -/
  | delete (key : CName) (e : DataCacheEntry)
  /-- Delete all rows of a pattern. -/
  | deleteMatching (pattern : CName)
  /-- Update a row. -/
  | update (key : CName) (e : DataCacheEntry) (d : SetData)
  /-- Insert a row. -/
  | add (key : CName) (d : SetData)
deriving DecidableEq

/-- The size of the type, if it has one, is more than the buffer holds. -/
def tooSmall (d : SetData) : Bool :=
  0 < esifDataTypeSizeof d.type && d.bufLen < esifDataTypeSizeof d.type

/-- A buffer length that is not one, or a type that is none. -/
def isAuto (d : SetData) : Bool := d.type = esifDataAuto || d.bufLen = esifDataAllocate

namespace DataVault

/-- The value of a call, which a delete ignores. -/
def valueOf (c : SetCall) : Option SetData :=
  if flagsTest c.flags ServiceConfig.delete then none else c.value

/-- What is done under a key without wildcards. -/
def decideKey (v : DataVault δ) (key : CName) (value : Option SetData) (flags : UInt32) : Plan :=
  match DataCache.getValue v.cache key with
  | some e =>
    if e.has ServiceConfig.readonly then .stop esifEReadonly
    else if flagsTest flags ServiceConfig.delete then .delete key e
    else
      match value with
      | none => .stop esifOk
      | some d => if d.bufPtr = none then .stop esifOk else .update key e d
  | none =>
    match value with
    | none => .stop esifOk
    | some d => if d.bufPtr = none then .stop esifOk else .add key d

/-- The checks, from the null key on, and the value the caller is left with. -/
def decide (env : Env δ) (io : SetIo) (v : DataVault δ) (c : SetCall) :
    Plan × Option EsifData :=
  let caller := c.value.map SetData.toEsifData
  match c.key with
  | none => (.stop esifOk, caller)
  | some key =>
    if (valueOf c).any isAuto then (.stop esifEUnsupportedResultDataType, caller)
    else if (valueOf c).any tooSmall then
      (.stop esifENeedLargerBuffer,
        caller.map fun d => { d with dataLen := esifDataTypeSizeof d.type })
    else if key.hasWildcard then
      (if flagsTest c.flags ServiceConfig.delete then .deleteMatching key
        else .stop esifENotSupported, caller)
    else
      match valueOf c with
      | none => (v.decideKey key none c.flags, caller)
      | some d =>
        match d.loaded env io with
        | .error rc => (.stop rc, caller)
        | .ok d => (v.decideKey key (some d) c.flags, some d.toEsifData)

/-- What the call comes to do. -/
def plan (env : Env δ) (io : SetIo) (v : DataVault δ) (c : SetCall) : Plan :=
  (v.decide env io c).1

end DataVault

/-- A call that passes its checks and finds nothing to do: there is no key, no such row to
delete or no value. -/
def DataVault.Idle (env : Env δ) (io : SetIo) (v : DataVault δ) (c : SetCall) : Prop :=
  ∀ key, c.key = some key → key.hasWildcard = false ∧
    ((flagsTest c.flags ServiceConfig.delete = true ∧ DataCache.getValue v.cache key = none) ∨
      (flagsTest c.flags ServiceConfig.delete = false ∧
        ∀ d₀ d, c.value = some d₀ → d₀.loaded env io = .ok d → d.bufPtr = none))

/-- When a call comes to a plan. -/
inductive Planned (env : Env δ) (io : SetIo) (v : DataVault δ) (c : SetCall) : Plan → Prop
  | stop {rc : EsifError} : (rc = esifOk → v.Idle env io c) → Planned env io v c (.stop rc)
  | delete {key : CName} {e : DataCacheEntry} :
    c.key = some key → key.hasWildcard = false →
      flagsTest c.flags ServiceConfig.delete = true →
      DataCache.getValue v.cache key = some e → e.has ServiceConfig.readonly = false →
      Planned env io v c (.delete key e)
  | deleteMatching {pattern : CName} :
    c.key = some pattern → pattern.hasWildcard = true →
      flagsTest c.flags ServiceConfig.delete = true →
      Planned env io v c (.deleteMatching pattern)
  | update {key : CName} {e : DataCacheEntry} {d₀ d : SetData} :
    c.key = some key → key.hasWildcard = false →
      flagsTest c.flags ServiceConfig.delete = false → c.value = some d₀ →
      d₀.loaded env io = .ok d → d.bufPtr ≠ none →
      DataCache.getValue v.cache key = some e → e.has ServiceConfig.readonly = false →
      Planned env io v c (.update key e d)
  | add {key : CName} {d₀ d : SetData} :
    c.key = some key → key.hasWildcard = false →
      flagsTest c.flags ServiceConfig.delete = false → c.value = some d₀ →
      d₀.loaded env io = .ok d → d.bufPtr ≠ none → DataCache.getValue v.cache key = none →
      Planned env io v c (.add key d)

namespace DataVault

theorem valueOf_of_delete {c : SetCall} (h : flagsTest c.flags ServiceConfig.delete = true) :
    valueOf c = none := by
  rw [valueOf, if_pos h]

theorem valueOf_of_not_delete {c : SetCall}
    (h : flagsTest c.flags ServiceConfig.delete = false) : valueOf c = c.value := by
  rw [valueOf, if_neg (by simp [h])]

/-- **What the checks come to.** -/
theorem plan_planned (env : Env δ) (io : SetIo) (v : DataVault δ) (c : SetCall) :
    Planned env io v c (v.plan env io c) := by
  unfold plan Vault.DataVault.decide
  simp only
  cases hkey : c.key with
  | none => exact .stop fun _ key hk => by simp [hkey] at hk
  | some key =>
    simp only
    split
    · exact .stop fun h => absurd h (by decide)
    split
    · exact .stop fun h => absurd h (by decide)
    split
    · rename_i hwild
      split
      · rename_i hdel
        exact .deleteMatching hkey hwild hdel
      · exact .stop fun h => absurd h (by decide)
    rename_i hwild
    have hwild : key.hasWildcard = false := by simpa using hwild
    cases hdel : flagsTest c.flags ServiceConfig.delete with
    | true =>
      rw [valueOf_of_delete hdel]
      unfold decideKey
      cases hget : DataCache.getValue v.cache key with
      | none =>
        refine .stop fun _ k hk => ?_
        obtain rfl := Option.some.inj (hkey.symm.trans hk)
        exact ⟨hwild, Or.inl ⟨hdel, hget⟩⟩
      | some e =>
        simp only
        split
        · exact .stop fun h => absurd h (by decide)
        · rename_i hro
          exact .delete hkey hwild hdel hget (by simpa using hro)
    | false =>
      rw [valueOf_of_not_delete hdel]
      have hidle : (∀ d₀ d, c.value = some d₀ → d₀.loaded env io = .ok d → d.bufPtr = none) →
          v.Idle env io c := by
        intro h k hk
        obtain rfl := Option.some.inj (hkey.symm.trans hk)
        exact ⟨hwild, Or.inr ⟨hdel, h⟩⟩
      cases hval : c.value with
      | none =>
        have hnone := hidle fun d₀ d h _ => by simp [hval] at h
        unfold decideKey
        cases DataCache.getValue v.cache key with
        | none => exact .stop fun _ => hnone
        | some e =>
          simp only [hdel, Bool.false_eq_true, if_false]
          split
          · exact .stop fun h => absurd h (by decide)
          · exact .stop fun _ => hnone
      | some d₀ =>
        simp only
        cases hload : d₀.loaded env io with
        | error rc => exact .stop fun h => absurd h (SetData.loaded_error hload)
        | ok d =>
          simp only
          unfold decideKey
          by_cases hbuf : d.bufPtr = none
          · have hnone := hidle fun d₀' d' h h' => by
              obtain rfl := Option.some.inj (hval.symm.trans h)
              obtain rfl := Except.ok.inj (hload.symm.trans h')
              exact hbuf
            cases DataCache.getValue v.cache key with
            | none =>
              simp only [if_pos hbuf]
              exact .stop fun _ => hnone
            | some e =>
              simp only [hdel, Bool.false_eq_true, if_false, if_pos hbuf]
              split
              · exact .stop fun h => absurd h (by decide)
              · exact .stop fun _ => hnone
          · cases hget : DataCache.getValue v.cache key with
            | none =>
              simp only [if_neg hbuf]
              exact .add hkey hwild hdel hval hload hbuf hget
            | some e =>
              simp only [hdel, Bool.false_eq_true, if_false, if_neg hbuf]
              split
              · exact .stop fun h => absurd h (by decide)
              · rename_i hro
                exact .update hkey hwild hdel hval hload hbuf hget (by simpa using hro)

end DataVault

/-! ## Setting -/

/-- The state of a call at its `exit:` label. -/
structure Change where
  rc : EsifError
  flags : UInt32
  cache : DataCache
  image : List UInt8
  copies : List Copy

namespace DataVault

/-- Nothing is changed. -/
def unchanged (v : DataVault δ) (rc : EsifError) (flags : UInt32) : Change :=
  ⟨rc, flags, v.cache, v.image, []⟩

/-- Carry a plan out.  That a row cannot be inserted is not reported. -/
def carryOut (io : SetIo) (v : DataVault δ) (flags : UInt32) : Plan → Change
  | .stop rc => v.unchanged rc flags
  | .delete key e =>
    ⟨esifOk, flagsSet flags e.flags, DataCache.deleteValue v.cache key, v.image, []⟩
  | .deleteMatching pattern =>
    let deleted := Vault.deleteMatching pattern v.cache flags
    ⟨esifOk, deleted.2, deleted.1, v.image, []⟩
  | .update key e d =>
    match resize io d e.value with
    | none => v.unchanged esifENeedLargerBuffer flags
    | some resized =>
      let value := ownBuffer io d e resized
      ⟨esifOk, flagsSet flags (e.flags &&& ServiceConfig.persist),
        DataCache.modifyValue v.cache key (updated d flags value),
        copyToImage v.image d.bytes value.bufPtr, [⟨value.bufPtr.room, d.dataLen.toNat⟩]⟩
  | .add key d =>
    if io.cloneValue then
      if io.insertValue then
        let value := DataCache.cloneCacheData v.image (clonedValue d)
        ⟨esifOk, flags,
          DataCache.insertValue v.image v.cache key (clonedValue d) (itemFlags flags), v.image,
          [⟨value.bufPtr.room, d.dataLen.toNat⟩]⟩
      else v.unchanged esifOk flags
    else v.unchanged esifENoMemory flags

/-- The state at the `exit:` label. -/
def change (env : Env δ) (io : SetIo) (v : DataVault δ) (c : SetCall) : Change :=
  v.carryOut io c.flags (v.plan env io c)

/-- The vault at the `exit:` label. -/
def withChange (v : DataVault δ) (c : Change) : DataVault δ :=
  { v with cache := c.cache, image := c.image }

/-- The `NOCACHE` rows are put back as they were in a vault. -/
def restore (v : DataVault δ) (before : DataVault δ) : DataVault δ :=
  { v with
    cache := DataCache.restoreOffsets v.cache (DataCache.cloneOffsets before.image before.cache) }

/-- From the `exit:` label on.  A delayed write does not flush, but the rows are put back. -/
def finish [DecidableEq δ] (env : Env δ) (io : FlushIo) (v : DataVault δ) (c : Change) :
    EsifError × DataVault δ :=
  if c.rc = esifOk ∧ flagsTest c.flags ServiceConfig.persist then
    if flagsTest c.flags ServiceConfig.delaywrite then (esifOk, (v.withChange c).restore v)
    else
      let r := (v.withChange c).repoFlush env io
      if r.1 = esifOk then r else (r.1, r.2.restore v)
  else (c.rc, v.withChange c)

/-- What `DataVault_SetValue` leaves. -/
structure SetResult (δ : Type) where
  rc : EsifError
  vault : DataVault δ
  /-- The caller's value. -/
  value : Option EsifData
  /-- The cache at the `exit:` label. -/
  atExit : DataCache
  copies : List Copy

/-- `DataVault_SetValue`. -/
def setValue [DecidableEq δ] (env : Env δ) (io : SetIo) (v : DataVault δ) (c : SetCall) :
    SetResult δ :=
  let caller := c.value.map SetData.toEsifData
  if v.isReadonly then ⟨esifEReadonly, v, caller, v.cache, []⟩
  else if io.cloneOffsets then
    let change := v.change env io c
    let (rc, v') := v.finish env io.flush change
    ⟨rc, v', (v.decide env io c).2, change.cache, change.copies⟩
  else ⟨esifENoMemory, v, caller, v.cache, []⟩

end DataVault

end Vault

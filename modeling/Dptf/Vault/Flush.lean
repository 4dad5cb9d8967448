import Dptf.Vault.DataCache

/-!
# Writing a DataVault to its file

`DataVault_RepoFlush` writes the persisted rows to a temporary file and renames it
over the old one.  A `NOCACHE` row lies in the old file before and in the new one
after, and is told its new place while it is written.
-/

open Lib

namespace Vault

/-! ## Outcomes -/

/-- How the operations end that one pair takes. -/
structure PairIo where
  /-- The buffer for a value of the old file is allocated. -/
  malloc : Bool
  /-- The old file can be opened and read. -/
  loadBlock : Bool
  /-- All in front of the value is written. -/
  writeHead : Bool
  /-- The buffer for a scrambled copy is allocated. -/
  scrambleMalloc : Bool
  /-- The value is written. -/
  writeData : Bool
deriving DecidableEq, Repr

/-- How the operations of a flush end. -/
structure FlushIo where
  createTemp : Bool
  openTemp : Bool
  writeHeader : Bool
  /-- The pair of a turn of the loop. -/
  pair : Nat → PairIo
  rewriteHeader : Bool
  /-- The header of the current file is read back to be compared. -/
  readCurrent : Bool
  /-- `file.dv.tmp` is renamed to the name of the rollback file. -/
  renameTemp : Bool
  unlinkOld : Bool
  /-- The rollback file is renamed to `file.dv`. -/
  renameRollback : Bool

/-- All succeed. -/
def PairIo.ok : PairIo := ⟨true, true, true, true, true⟩

/-- All succeed. -/
def FlushIo.ok : FlushIo := ⟨true, true, true, fun _ => .ok, true, true, true, true, true⟩

/-- What a vault takes from the rest of the program. -/
structure Env (δ : Type) where
  /-- `esif_sha256_init`, `_update` and `_finish` on the bytes of a payload. -/
  sha256 : List UInt8 → δ
  /-- The files a value can be loaded from, by their full names. -/
  files : List UInt8 → Option (List UInt8)
  /-- `esif_build_path` for the path types a file name can start with. -/
  buildPath : List UInt8 → List UInt8
  /-- `esif_build_path` for other file names. -/
  defaultPath : List UInt8

/-! ## One pair -/

/-- The bytes are scrambled in the file if the row says so. -/
def scrambleIf (e : DataCacheEntry) (bytes : List UInt8) : List UInt8 :=
  if e.has ServiceConfig.scramble then complement bytes else bytes

@[simp] theorem scrambleIf_scrambleIf (e : DataCacheEntry) (bytes : List UInt8) :
    scrambleIf e (scrambleIf e bytes) = bytes := by
  unfold scrambleIf
  split
  · exact complement_complement bytes
  · rfl

/-- All of a pair in front of its value: the signature of a version 2 item, the flags, the
key with its length, the type and the length of the value. -/
def pairHead (major : UInt32) (e : DataCacheEntry) : List UInt8 :=
  (if major = 2 then leEnc 2 itemSignature.toNat else []) ++ leEnc 4 e.flags.toNat ++
    leEnc 4 e.key.size ++ (e.key.bytes ++ [0]) ++ leEnc 4 e.value.type.toNat ++
    leEnc 4 e.value.dataLen

/-- The row lies in the file at an offset, if it is not to be cached. -/
def placed (offset : Nat) (e : DataCacheEntry) : DataCacheEntry :=
  if e.has ServiceConfig.nocache then
    { e with value := { e.value with bufPtr := .offset offset, bufLen := 0 } }
  else e

/-- The row's value is to be read from the old file. -/
def inFile (e : DataCacheEntry) : Bool := e.has ServiceConfig.nocache && e.value.bufLen = 0

section

variable {δ : Type}
variable {e e' : DataCacheEntry}

/-- The value of such a row as it lies in the file. -/
def loadValue (file : Option (DvFile δ)) (e : DataCacheEntry) : Option (List UInt8) :=
  e.value.bufPtr.asOffset.bind fun pos => DvFile.loadBlock file pos e.value.dataLen

/-- What `DataVault_WriteKeyValuePair` does. -/
inductive PairResult
  /-- `ESIF_OK`: the row as it is now, and the bytes written. -/
  | written (e : DataCacheEntry) (bytes : List UInt8)
  /-- `ESIF_E_IO_OPEN_FAILED`: the value cannot be read any more. -/
  | unreadable
  | failed (rc : EsifError) (e : DataCacheEntry)

/-- The last step: the row is told where its value will be, and the value is written, which
a null pointer fails. -/
def writeValue (io : PairIo) (offset : Nat) (head data : List UInt8) (e : DataCacheEntry) :
    PairResult :=
  let e' := placed (offset + head.length) e
  if io.writeData ∧ data.length = e.value.dataLen then .written e' (head ++ data)
  else .failed esifEIoError e'

/-- `DataVault_WriteKeyValuePair` at an offset of the new file.  A value of the old file is
unscrambled and scrambled again. -/
def writeKeyValuePair (major : UInt32) (image : List UInt8) (file : Option (DvFile δ))
    (io : PairIo) (offset : Nat) (e : DataCacheEntry) : PairResult :=
  let head := pairHead major e
  if inFile e then
    if io.malloc then
      match if io.loadBlock then loadValue file e else none with
      | none => .unreadable
      | some buffer =>
        if io.writeHead then
          writeValue io offset head (scrambleIf e (scrambleIf e buffer)) e
        else .failed esifEIoError e
    else .failed esifENoMemory e
  else if io.writeHead then
    if e.has ServiceConfig.scramble ∧ ¬ e.has ServiceConfig.nocache ∧ ¬ io.scrambleMalloc then
      .failed esifENoMemory e
    else
      writeValue io offset head (scrambleIf e (e.value.bufPtr.read image e.value.dataLen)) e
  else .failed esifEIoError e

/-! ## All pairs -/

/-- The result of the loop over the rows. -/
structure PairsResult where
  rc : EsifError
  cache : DataCache
  payload : List UInt8

/-- The loop over the rows from `idx` on, with the payload written so far.  A row that cannot
be read is deleted and the loop goes on with the one that is at its place then. -/
def writePairsLoop (major : UInt32) (base : Nat) (image : List UInt8)
    (file : Option (DvFile δ)) (io : Nat → PairIo) :
    Nat → Nat → Nat → DataCache → List UInt8 → PairsResult
  | 0, _, _, cache, payload => ⟨esifOk, cache, payload⟩
  | fuel + 1, turn, idx, cache, payload =>
    match cache[idx]? with
    | none => ⟨esifOk, cache, payload⟩
    | some e =>
      if e.has ServiceConfig.persist then
        match writeKeyValuePair major image file (io turn) (base + payload.length) e with
        | .written e' bytes =>
          writePairsLoop major base image file io fuel (turn + 1) (idx + 1) (cache.set idx e')
            (payload ++ bytes)
        | .unreadable =>
          if (DataCache.getValue cache e.key).isSome then
            writePairsLoop major base image file io fuel (turn + 1) idx
              (DataCache.deleteValue cache e.key) payload
          else ⟨esifEIoOpenFailed, cache, payload⟩
        | .failed rc e' => ⟨rc, cache.set idx e', payload⟩
      else writePairsLoop major base image file io fuel (turn + 1) (idx + 1) cache payload

/-- The loop, from the first row on. -/
def writePairs (major : UInt32) (base : Nat) (image : List UInt8) (file : Option (DvFile δ))
    (io : Nat → PairIo) (cache : DataCache) : PairsResult :=
  writePairsLoop major base image file io cache.length 0 0 cache []

/-! ## The flush -/

namespace DataVault

/-- The major version. -/
def major (v : DataVault δ) : UInt32 := esifhdrGetMajor v.version

/-- `headersize` of the header the vault writes. -/
def headersize (v : DataVault δ) : Nat := if v.major = 1 then sizeofHeaderV1 else sizeofHeaderV2

/-- A string in a field of so many characters. -/
def nameField (n : Nat) (s : CName) : CName := .ofBuffer (s.bytes.take n)

/-- The header over a payload, as it is when the file is complete. -/
def headerFor (env : Env δ) (v : DataVault δ) (payload : List UInt8) : DataVaultHeader δ :=
  let segmentid := if v.segmentid.bytes.isEmpty then v.name else v.segmentid
  if v.major = 1 then
    { signature := headerSignature, headersize := sizeofHeaderV1, version := v.version,
      flags := v.flags, v2 := none }
  else
    { signature := headerSignature, headersize := sizeofHeaderV2, version := v.version,
      flags := flagsClear v.flags ServiceConfig.compressed,
      v2 := some
        { segmentid := nameField nameLen segmentid, comment := nameField descLen v.comment,
          payloadHash := env.sha256 payload, payloadSize := .ofNat payload.length,
          payloadClass := v.dataclass } }

/-- The stream is set to the vault's file with its first persisted write. -/
def openStream (v : DataVault δ) : DataVault δ :=
  if v.stream.type = .null then
    { v with
      stream := ⟨.file, .readWrite⟩,
      version := if v.major < 2 then currentVersion else v.version }
  else v

/-- The pass over the rows, in a vault whose payload is keys. -/
def visitRows (io : FlushIo) (v : DataVault δ) : PairsResult :=
  if v.dataclass = payloadClassKeys then
    writePairs v.major v.headersize v.image v.file io.pair v.cache
  else ⟨esifOk, v.cache, []⟩

/-- The vault after the pass.  The first persisted row clears the flag of a compressed
payload. -/
def withRows (v : DataVault δ) (cache : DataCache) : DataVault δ :=
  { v with
    cache := cache,
    flags :=
      if v.dataclass = payloadClassKeys ∧ v.cache.any fun e => e.has ServiceConfig.persist then
        flagsClear v.flags ServiceConfig.compressed
      else v.flags }

/-- The end of the flush: the temporary file takes the place of the old one.  That a rename
fails is not reported; the old file is gone already when the second one does. -/
def replaceFile (io : FlushIo) (v : DataVault δ) (new : DvFile δ) : EsifError × DataVault δ :=
  if io.renameTemp then
    if v.file.isSome ∧ ¬ io.unlinkOld then (esifEIoDeleteFailed, v)
    else (esifOk, { v with file := if io.renameRollback then some new else none })
  else (esifOk, v)

/-- The flush once its temporary file is there.  A file with the same header is left alone,
as it has the same payload. -/
def writeTemp [DecidableEq δ] (env : Env δ) (io : FlushIo) (v : DataVault δ) :
    EsifError × DataVault δ :=
  let pairs := v.visitRows io
  let header := v.headerFor env pairs.payload
  let v' := v.withRows pairs.cache
  if pairs.rc ≠ esifOk then (pairs.rc, v')
  else if v.major = 2 ∧ ¬ io.rewriteHeader then (esifEIoError, v')
  else if v.major = 2 ∧ io.readCurrent ∧ v.file.map DvFile.header = some header then
    (esifOk, v')
  else v'.replaceFile io ⟨header, pairs.payload⟩

/-- `DataVault_RepoFlush` without a payload of its own. -/
def repoFlush [DecidableEq δ] (env : Env δ) (io : FlushIo) (v : DataVault δ) :
    EsifError × DataVault δ :=
  if flagsTest v.flags (ServiceConfig.static ||| ServiceConfig.readonly) ∨
      v.stream.type ≠ .null ∧ v.stream.store = .static then (esifEReadonly, v)
  else
    let v := v.openStream
    if v.stream.type ≠ .file then (esifEParameterIsNull, v)
    else if v.major ≠ 1 ∧ v.major ≠ 2 then (esifENotSupported, v)
    else if ¬ io.createTemp then (esifENoMemory, v)
    else if ¬ io.openTemp then (esifEIoOpenFailed, v)
    else if ¬ io.writeHeader then (esifEIoError, v)
    else v.writeTemp env io

end DataVault

/-! ## What a pass over the rows does -/

@[simp] theorem placed_key (offset : Nat) (e : DataCacheEntry) : (placed offset e).key = e.key := by
  unfold placed
  split <;> rfl

@[simp] theorem placed_flags (offset : Nat) (e : DataCacheEntry) :
    (placed offset e).flags = e.flags := by
  unfold placed
  split <;> rfl

@[simp] theorem placed_type (offset : Nat) (e : DataCacheEntry) :
    (placed offset e).value.type = e.value.type := by
  unfold placed
  split <;> rfl

@[simp] theorem placed_dataLen (offset : Nat) (e : DataCacheEntry) :
    (placed offset e).value.dataLen = e.value.dataLen := by
  unfold placed
  split <;> rfl

theorem placed_of_not_nocache (h : e.has ServiceConfig.nocache = false) (offset : Nat) :
    placed offset e = e := by
  rw [placed, if_neg (by simp [h])]

/-- What a pass over the rows can leave of a row. -/
def Kept (e e' : DataCacheEntry) : Prop :=
  e' = e ∨ e.has ServiceConfig.persist = true ∧ ∃ offset, e' = placed offset e

theorem Kept.key (h : Kept e e') : e'.key = e.key := by
  rcases h with rfl | ⟨_, offset, rfl⟩
  · rfl
  · exact placed_key offset e

/-- A row that is cached is left as it is. -/
theorem Kept.eq_of_not_nocache (h : Kept e e') (hno : e.has ServiceConfig.nocache = false) :
    e' = e := by
  rcases h with rfl | ⟨_, offset, rfl⟩
  · rfl
  · exact placed_of_not_nocache hno offset

/-- The value of the row cannot be read from the old file at some turn. -/
def Lost (file : Option (DvFile δ)) (io : Nat → PairIo) (e : DataCacheEntry) : Prop :=
  inFile e = true ∧ e.has ServiceConfig.persist = true ∧
    (loadValue file e = none ∨ ∃ turn, (io turn).loadBlock = false)

/-- Where a pass has come: rows are kept, rows are dropped, and the last ones are as they
were. -/
inductive Touched (file : Option (DvFile δ)) (io : Nat → PairIo) :
    DataCache → DataCache → Prop
  | stop (rest : DataCache) : Touched file io rest rest
  | keep {e e' : DataCacheEntry} {rest out : DataCache} :
    Kept e e' → Touched file io rest out → Touched file io (e :: rest) (e' :: out)
  | drop {e : DataCacheEntry} {rest out : DataCache} :
    Lost file io e → Touched file io rest out → Touched file io (e :: rest) out

/-- The bytes a row is to have in the new file. -/
def stored (image : List UInt8) (file : Option (DvFile δ)) (e : DataCacheEntry) :
    Option (List UInt8) :=
  if inFile e then loadValue file e
  else some (scrambleIf e (e.value.bufPtr.read image e.value.dataLen))

/-- What a pass that succeeds writes from an offset on, and what it makes of the rows. -/
inductive WritesTo (major : UInt32) (image : List UInt8) (file : Option (DvFile δ))
    (io : Nat → PairIo) : Nat → DataCache → DataCache → List UInt8 → Prop
  | nil (pos : Nat) : WritesTo major image file io pos [] [] []
  | skip {pos : Nat} {e : DataCacheEntry} {rest out : DataCache} {bytes : List UInt8} :
    e.has ServiceConfig.persist = false → WritesTo major image file io pos rest out bytes →
      WritesTo major image file io pos (e :: rest) (e :: out) bytes
  | drop {pos : Nat} {e : DataCacheEntry} {rest out : DataCache} {bytes : List UInt8} :
    Lost file io e → WritesTo major image file io pos rest out bytes →
      WritesTo major image file io pos (e :: rest) out bytes
  | write {pos : Nat} {e : DataCacheEntry} {rest out : DataCache} {data bytes : List UInt8} :
    e.has ServiceConfig.persist = true → stored image file e = some data →
      data.length = e.value.dataLen →
      WritesTo major image file io (pos + (pairHead major e).length + data.length) rest out
        bytes →
      WritesTo major image file io pos (e :: rest)
        (placed (pos + (pairHead major e).length) e :: out)
        (pairHead major e ++ data ++ bytes)

theorem writeValue_cases (io : PairIo) (offset : Nat) (head data : List UInt8)
    (e : DataCacheEntry) : (data.length = e.value.dataLen ∧ writeValue io offset head data e =
      .written (placed (offset + head.length) e) (head ++ data)) ∨
    writeValue io offset head data e = .failed esifEIoError (placed (offset + head.length) e) := by
  unfold writeValue
  by_cases hok : io.writeData = true ∧ data.length = e.value.dataLen
  · exact Or.inl ⟨hok.2, if_pos hok⟩
  · exact Or.inr (if_neg hok)

/-- How a pair ends: it is written, its value cannot be read, or the flush has failed. -/
inductive PairEnds (major : UInt32) (image : List UInt8) (file : Option (DvFile δ))
    (io : PairIo) (offset : Nat) (e : DataCacheEntry) : PairResult → Prop
  | written {data : List UInt8} :
    stored image file e = some data → data.length = e.value.dataLen →
      PairEnds major image file io offset e
        (.written (placed (offset + (pairHead major e).length) e) (pairHead major e ++ data))
  | unreadable :
    inFile e = true → (loadValue file e = none ∨ io.loadBlock = false) →
      PairEnds major image file io offset e .unreadable
  | failed {rc : EsifError} {e' : DataCacheEntry} :
    rc ≠ esifOk → (e' = e ∨ ∃ pos, e' = placed pos e) →
      PairEnds major image file io offset e (.failed rc e')

theorem pairEnds_writeValue {major : UInt32} {image : List UInt8} {file : Option (DvFile δ)}
    {io : PairIo} {offset : Nat} {data : List UInt8} (h : stored image file e = some data) :
    PairEnds major image file io offset e
      (writeValue io offset (pairHead major e) data e) := by
  rcases writeValue_cases io offset (pairHead major e) data e with ⟨hlen, hw⟩ | hw
  · rw [hw]
    exact .written h hlen
  · rw [hw]
    exact .failed (by decide) (Or.inr ⟨_, rfl⟩)

/-- **What `DataVault_WriteKeyValuePair` can do.** -/
theorem writeKeyValuePair_ends (major : UInt32) (image : List UInt8)
    (file : Option (DvFile δ)) (io : PairIo) (offset : Nat) (e : DataCacheEntry) :
    PairEnds major image file io offset e
      (writeKeyValuePair major image file io offset e) := by
  unfold writeKeyValuePair
  by_cases hin : inFile e = true
  · rw [if_pos hin]
    split
    · split
      · rename_i hload
        refine .unreadable hin ?_
        cases hb : io.loadBlock with
        | false => exact Or.inr rfl
        | true => exact Or.inl (by simpa [hb] using hload)
      · rename_i buffer hload
        have hread : loadValue file e = some buffer := by
          cases hb : io.loadBlock with
          | false => simp [hb] at hload
          | true => simpa [hb] using hload
        split
        · rw [scrambleIf_scrambleIf]
          exact pairEnds_writeValue ((if_pos hin).trans hread)
        · exact .failed (by decide) (Or.inl rfl)
    · exact .failed (by decide) (Or.inl rfl)
  · rw [if_neg hin]
    split
    · split
      · exact .failed (by decide) (Or.inl rfl)
      · exact pairEnds_writeValue (if_neg hin)
    · exact .failed (by decide) (Or.inl rfl)

/-- **The loop over the rows**, from some row on: what it touches, and what it has written
if it succeeds. -/
theorem writePairsLoop_spec (major : UInt32) (base : Nat) (image : List UInt8)
    (file : Option (DvFile δ)) (io : Nat → PairIo) (rest : DataCache) :
    ∀ (turn : Nat) (before : DataCache) (payload : List UInt8), DataCache.Sorted (before ++ rest) →
      let r := writePairsLoop major base image file io rest.length turn before.length
        (before ++ rest) payload
      ∃ out bytes, r.cache = before ++ out ∧ r.payload = payload ++ bytes ∧
        Touched file io rest out ∧
        (r.rc = esifOk → WritesTo major image file io (base + payload.length) rest out bytes) := by
  induction rest with
  | nil =>
    intro turn before payload _
    exact ⟨[], [], rfl, (List.append_nil payload).symm, .stop [], fun _ => .nil _⟩
  | cons e rest ih =>
    intro turn before payload hs
    have hget : (before ++ e :: rest)[before.length]? = some e := by simp
    have hnext : ∀ e' : DataCacheEntry, before ++ e' :: rest = (before ++ [e']) ++ rest := by
      simp
    have hlen : ∀ e' : DataCacheEntry, before.length + 1 = (before ++ [e']).length := by simp
    simp only [List.length_cons, writePairsLoop, hget]
    by_cases hp : e.has ServiceConfig.persist = true
    · rw [if_pos hp]
      have hends := writeKeyValuePair_ends major image file (io turn) (base + payload.length) e
      cases hr : writeKeyValuePair major image file (io turn) (base + payload.length) e with
      | written e' bytes =>
        rw [hr] at hends
        cases hends with
        | @written data hstored hdata =>
          obtain ⟨e', he'⟩ : ∃ e', e' = placed (base + payload.length + (pairHead major e).length) e :=
            ⟨_, rfl⟩
          have hkey : e'.folded = e.folded := congrArg CName.folded (he' ▸ placed_key _ e)
          have hset : (before ++ e :: rest).set before.length e' = (before ++ [e']) ++ rest := by
            simp
          have hs' : DataCache.Sorted ((before ++ [e']) ++ rest) := by
            rw [← hnext]
            exact Ascending.replace hs hkey
          obtain ⟨out, bytes, hcache, hpay, htouched, hwrites⟩ :=
            ih (turn + 1) (before ++ [e']) (payload ++ (pairHead major e ++ data)) hs'
          simp only [← he', hset]
          rw [hlen e']
          refine ⟨e' :: out, pairHead major e ++ data ++ bytes, ?_, ?_,
            .keep (Or.inr ⟨hp, _, he'⟩) htouched, ?_⟩
          · rw [hcache, List.append_assoc]
            rfl
          · rw [hpay, List.append_assoc]
          · intro hok
            have hpos : base + (payload ++ (pairHead major e ++ data)).length =
                base + payload.length + (pairHead major e).length + data.length := by
              simp only [List.length_append]
              omega
            rw [he']
            exact .write hp hstored hdata (hpos ▸ hwrites hok)
      | unreadable =>
        rw [hr] at hends
        cases hends with
        | unreadable hin hlost =>
          have hfound : (DataCache.getValue (before ++ e :: rest) e.key).isSome = true := by
            rw [(DataCache.getValue_eq_some_iff hs).mpr ⟨by simp, rfl⟩]
            rfl
          have herase : DataCache.deleteValue (before ++ e :: rest) e.key = before ++ rest :=
            eraseKey_append_cons hs
          obtain ⟨out, bytes, hcache, hpay, htouched, hwrites⟩ :=
            ih (turn + 1) before payload (hs.sublist (by simp))
          have hlost : Lost file io e := ⟨hin, hp, hlost.imp_right fun h => ⟨turn, h⟩⟩
          simp only [if_pos hfound, herase]
          exact ⟨out, bytes, hcache, hpay, .drop hlost htouched,
            fun hok => .drop hlost (hwrites hok)⟩
      | failed rc e' =>
        rw [hr] at hends
        cases hends with
        | failed hrc he' =>
          have hkept : Kept e e' := he'.imp_right fun h => ⟨hp, h⟩
          refine ⟨e' :: rest, [], by simp, by simp, .keep hkept (.stop rest), ?_⟩
          intro hok
          exact absurd hok hrc
    · rw [if_neg hp]
      obtain ⟨out, bytes, hcache, hpay, htouched, hwrites⟩ :=
        ih (turn + 1) (before ++ [e]) payload (by rwa [← hnext])
      rw [hlen, hnext]
      refine ⟨e :: out, bytes, ?_, hpay, .keep (Or.inl rfl) htouched, ?_⟩
      · rw [hcache]
        simp
      · exact fun hok => .skip (by simpa using hp) (hwrites hok)

/-- The loop over all rows. -/
theorem writePairs_spec (major : UInt32) (base : Nat) (image : List UInt8)
    (file : Option (DvFile δ)) (io : Nat → PairIo) {cache : DataCache}
    (hs : DataCache.Sorted cache) :
    let r := writePairs major base image file io cache
    Touched file io cache r.cache ∧
      (r.rc = esifOk → WritesTo major image file io base cache r.cache r.payload) := by
  obtain ⟨out, bytes, hcache, hpay, htouched, hwrites⟩ :=
    writePairsLoop_spec major base image file io cache 0 [] [] hs
  obtain rfl : (writePairs major base image file io cache).cache = out := hcache
  obtain rfl : (writePairs major base image file io cache).payload = bytes := hpay
  exact ⟨htouched, hwrites⟩

end

end Vault

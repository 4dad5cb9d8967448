import Dptf.Vault.Owned

/-!
# Loading a DataVault

A segment, a header with its payload of keys, is read into a vault: from the
vault's own file, whose values that are not to be cached stay in it, or from a
memory image, into which the values of a static vault point.  Compressed payloads
and payloads that are repositories are left out.
-/

open Lib

namespace Vault

/-! ## One pair -/

/-- `ImportType`. -/
inductive ImportType
  /-- A key that exists is left alone, and nothing is persisted. -/
  | merge
  /-- A key that exists is replaced. -/
  | copy
deriving DecidableEq, Repr

/-- Why no pair is read. -/
inductive ReadEnd
  /-- `ESIF_E_ITERATION_DONE`. -/
  | done
  | failed (rc : EsifError)
deriving DecidableEq, Repr

/-- What the reading of a payload goes by. -/
structure Reading where
  major : UInt32
  /-- `payload_size` of the header. -/
  payloadSize : Nat
  /-- The flags of the vault, which may be those of another segment. -/
  flags : UInt32
  /-- The stream is in memory. -/
  memory : Bool
  /-- Values that are not to be cached stay in the file. -/
  inPlace : Bool
  /-- Where the payload begins in the file or the image. -/
  base : Nat

/-- Pointers into the image are taken in place of copies. -/
def Reading.static (r : Reading) : Bool := r.memory && flagsTest r.flags ServiceConfig.static

/-- Where the reading of a payload has come, and all that went into the digest. -/
structure ReadPos where
  pos : Nat
  hashed : List UInt8

/-- So many bytes on, with these added to the digest. -/
def ReadPos.advance (p : ReadPos) (n : Nat) (bytes : List UInt8) : ReadPos :=
  ⟨p.pos + n, p.hashed ++ bytes⟩

/-- `IOStream_Read` where the payload may end. -/
def readFirst (contents : List UInt8) (pos n : Nat) : Except ReadEnd (List UInt8) :=
  let bytes := peekAt contents pos n
  if bytes.length = n then .ok bytes
  else if bytes = [] then .error .done
  else .error (.failed esifEIoError)

/-- `IOStream_Read` inside a pair.  A pointer that leaves the image is an error here too. -/
def readRest (contents : List UInt8) (pos n : Nat) : Except ReadEnd (List UInt8) :=
  let bytes := peekAt contents pos n
  if bytes.length = n then .ok bytes else .error (.failed esifEIoError)

/-- The signature of a version 2 item, or the end of the payload. -/
def readSignature (r : Reading) (contents : List UInt8) (p : ReadPos) :
    Except ReadEnd ReadPos :=
  if r.major = 2 then
    if flagsTest r.flags ServiceConfig.compressed = false ∧ r.payloadSize ≤ p.hashed.length then
      .error .done
    else do
      let bytes ← readFirst contents p.pos 2
      let signature := UInt16.ofNat (leDec bytes)
      if signature = headerSignature then .error .done
      else if signature ≠ itemSignature then .error (.failed esifEIoError)
      else .ok (p.advance 2 bytes)
  else .ok p

/-- The flags.  Version 1 ends at the signature of a header, and takes unknown flags for
damage.  The digest is of the flags that are not ignored. -/
def readFlags (r : Reading) (contents : List UInt8) (p : ReadPos) :
    Except ReadEnd (UInt32 × ReadPos) := do
  let bytes ← readFirst contents p.pos 4
  let flags := UInt32.ofNat (leDec bytes)
  if r.major = 1 ∧ flags.toUInt16 = headerSignature then .error .done
  else if r.major = 1 ∧ flagsTestValid flags validItemFlagsV1 = false then
    .error (.failed esifENotSupported)
  else .ok (itemFlags flags, p.advance 4 (leEnc 4 (itemFlags flags).toNat))

/-- The key, which ends in a NUL. -/
def readKey (contents : List UInt8) (p : ReadPos) : Except ReadEnd (CName × ReadPos) := do
  let bytes ← readRest contents p.pos 4
  let len := leDec bytes
  let p := p.advance 4 bytes
  if maxLen < len ∨ len ≤ 1 then .error (.failed esifEParameterIsOutOfBounds)
  else do
    let key ← readRest contents p.pos len
    if key.getLast? ≠ some 0 then .error (.failed esifEParameterIsOutOfBounds)
    else .ok (CName.ofBuffer key, p.advance len key)

/-- Unscramble, or scramble. -/
def scrambled (flags : UInt32) (bytes : List UInt8) : List UInt8 :=
  if flagsTest flags ServiceConfig.scramble then complement bytes else bytes

/-- The value: its place in the file, a pointer into the image, or a copy.  That the file ends
inside a value that stays in it is not noticed here. -/
def readData (r : Reading) (contents : List UInt8) (flags type : UInt32) (len : Nat)
    (p : ReadPos) : Except ReadEnd (CacheData × ReadPos) :=
  if flagsTest flags ServiceConfig.nocache ∧ r.inPlace then
    let bytes := peekAt contents p.pos len
    .ok (⟨type, .offset (r.base + p.pos), 0, len⟩, p.advance bytes.length bytes)
  else do
    let bytes ← readRest contents p.pos len
    let value : CacheData :=
      if r.static ∧ flagsTest flags ServiceConfig.scramble = false then
        ⟨type, .image (r.base + p.pos) len, 0, len⟩
      else
        ⟨type, .block (DataCache.mallocCopy (max 1 len) (scrambled flags bytes)), max 1 len, len⟩
    .ok (value, p.advance len bytes)

/-- The type, the length and the value. -/
def readValue (r : Reading) (contents : List UInt8) (flags : UInt32) (p : ReadPos) :
    Except ReadEnd (CacheData × ReadPos) := do
  let type ← readRest contents p.pos 4
  let p := p.advance 4 type
  let len ← readRest contents p.pos 4
  let p := p.advance 4 len
  if maxLen < leDec len then .error (.failed esifEParameterIsOutOfBounds)
  else readData r contents flags (UInt32.ofNat (leDec type)) (leDec len) p

/-- `DataVault_ReadKeyValuePair` from an uncompressed payload. -/
def readKeyValuePair (r : Reading) (contents : List UInt8) (p : ReadPos) :
    Except ReadEnd (DataCacheEntry × ReadPos) := do
  let p ← readSignature r contents p
  let (flags, p) ← readFlags r contents p
  let (key, p) ← readKey contents p
  let flags := if r.static then flagsClear flags ServiceConfig.nocache else flags
  let (value, p) ← readValue r contents flags p
  return (⟨flags, key, value⟩, p)

/-! ## What a pair read is -/

section Pair

variable {r : Reading} {contents : List UInt8} {p p' : ReadPos}

/-- One step of a reading after another: both succeed. -/
theorem bind_eq_ok {ε α β : Type} {x : Except ε α} {f : α → Except ε β} {b : β} :
    (x >>= f) = .ok b ↔ ∃ a, x = .ok a ∧ f a = .ok b := by
  cases x with
  | error err =>
    constructor
    · intro h
      cases h
    · rintro ⟨a, ha, _⟩
      cases ha
  | ok a =>
    constructor
    · intro h
      exact ⟨a, rfl, h⟩
    · rintro ⟨a', ha, h⟩
      cases ha
      exact h

/-- As many bytes as asked for are there. -/
theorem le_of_length_peekAt {m : List UInt8} {pos n : Nat} (h : (peekAt m pos n).length = n)
    (hpos : pos ≤ m.length) : pos + n ≤ m.length := by
  simp only [peekAt, List.length_take, List.length_drop] at h
  omega

theorem readFirst_ok {n : Nat} {bytes : List UInt8} (h : readFirst contents p.pos n = .ok bytes) :
    bytes = peekAt contents p.pos n ∧ (peekAt contents p.pos n).length = n := by
  unfold readFirst at h
  simp only at h
  split at h
  · rename_i hlen
    exact ⟨(Except.ok.inj h).symm, hlen⟩
  · split at h <;> cases h

theorem readRest_ok {pos n : Nat} {bytes : List UInt8} (h : readRest contents pos n = .ok bytes) :
    bytes = peekAt contents pos n ∧ (peekAt contents pos n).length = n := by
  unfold readRest at h
  simp only at h
  split at h
  · rename_i hlen
    exact ⟨(Except.ok.inj h).symm, hlen⟩
  · cases h

/-- Each part of a pair is read inside the contents, further on. -/
def Onward (contents : List UInt8) (p p' : ReadPos) : Prop :=
  p.pos ≤ p'.pos ∧ p'.pos ≤ contents.length

theorem readSignature_onward (h : readSignature r contents p = .ok p')
    (hp : p.pos ≤ contents.length) : Onward contents p p' := by
  unfold readSignature at h
  split at h
  · split at h
    · cases h
    · obtain ⟨bytes, hread, h⟩ := bind_eq_ok.mp h
      obtain ⟨_, hlen⟩ := readFirst_ok hread
      simp only at h
      split at h
      · cases h
      · split at h
        · cases h
        · obtain rfl := Except.ok.inj h
          exact ⟨by simp [ReadPos.advance], le_of_length_peekAt hlen hp⟩
  · obtain rfl := Except.ok.inj h
    exact ⟨Nat.le_refl _, hp⟩

theorem readFlags_onward {flags : UInt32} (h : readFlags r contents p = .ok (flags, p'))
    (hp : p.pos ≤ contents.length) : Onward contents p p' := by
  unfold readFlags at h
  obtain ⟨bytes, hread, h⟩ := bind_eq_ok.mp h
  obtain ⟨_, hlen⟩ := readFirst_ok hread
  simp only at h
  split at h
  · cases h
  · split at h
    · cases h
    · obtain ⟨_, rfl⟩ := Prod.mk.inj (Except.ok.inj h)
      exact ⟨by simp [ReadPos.advance], le_of_length_peekAt hlen hp⟩

theorem readKey_onward {key : CName} (h : readKey contents p = .ok (key, p'))
    (hp : p.pos ≤ contents.length) : Onward contents p p' := by
  unfold readKey at h
  obtain ⟨bytes, hread, h⟩ := bind_eq_ok.mp h
  obtain ⟨_, hlen⟩ := readRest_ok hread
  have hfour := le_of_length_peekAt hlen hp
  simp only at h
  split at h
  · cases h
  · obtain ⟨name, hread, h⟩ := bind_eq_ok.mp h
    obtain ⟨_, hlen⟩ := readRest_ok hread
    have hname := le_of_length_peekAt hlen (by simpa [ReadPos.advance] using hfour)
    split at h
    · cases h
    · obtain ⟨_, rfl⟩ := Prod.mk.inj (Except.ok.inj h)
      refine ⟨?_, ?_⟩
      · simp only [ReadPos.advance]
        omega
      · simpa [ReadPos.advance] using hname

/-- A value that was read has its memory, and one in the image lies where it was read. -/
structure ReadValue (r : Reading) (contents : List UInt8) (flags : UInt32) (p p' : ReadPos)
    (value : CacheData) : Prop where
  onward : Onward contents p p'
  owned : ∀ key, Owned Eq ⟨flags, key, value⟩
  inPlace : ∀ pos, value.bufPtr = .offset pos → r.inPlace = true
  image : ∀ start owned, value.bufPtr = .image start owned →
    r.memory = true ∧ r.base + p.pos ≤ start ∧ start + owned = r.base + p'.pos

theorem length_scrambled (flags : UInt32) (bytes : List UInt8) :
    (scrambled flags bytes).length = bytes.length := by
  unfold scrambled
  split
  · exact length_complement bytes
  · rfl

theorem readData_ok {flags type : UInt32} {len : Nat} {value : CacheData}
    (h : readData r contents flags type len p = .ok (value, p'))
    (hp : p.pos ≤ contents.length) : ReadValue r contents flags p p' value := by
  unfold readData at h
  split at h
  · rename_i hplace
    obtain ⟨rfl, rfl⟩ := Prod.mk.inj (Except.ok.inj h)
    refine ⟨⟨by simp [ReadPos.advance], ?_⟩, fun _ => ⟨rfl, hplace.1⟩, fun _ _ => hplace.2, ?_⟩
    · simp only [ReadPos.advance, peekAt, List.length_take, List.length_drop]
      omega
    · intro start owned himage
      cases himage
  · obtain ⟨bytes, hread, h⟩ := bind_eq_ok.mp h
    obtain ⟨rfl, hlen⟩ := readRest_ok hread
    have hend := le_of_length_peekAt hlen hp
    obtain ⟨rfl, rfl⟩ := Prod.mk.inj (Except.ok.inj h)
    have honward : Onward contents p (p.advance len (peekAt contents p.pos len)) :=
      ⟨by simp [ReadPos.advance], hend⟩
    split
    · rename_i hstatic
      refine ⟨honward, fun _ => ⟨rfl, Nat.le_refl len⟩, ?_, ?_⟩
      · intro pos hpos
        cases hpos
      · intro start owned himage
        cases himage
        have hmemory : r.memory = true := by
          have h := hstatic.1
          simp only [Reading.static, Bool.and_eq_true] at h
          exact h.1
        refine ⟨hmemory, Nat.le_refl _, ?_⟩
        simp only [ReadPos.advance]
        omega
    · have hcopy : (DataCache.mallocCopy (max 1 len)
          (scrambled flags (peekAt contents p.pos len))).length = max 1 len :=
        length_mallocCopy (by rw [length_scrambled]; omega)
      refine ⟨honward, fun _ => ⟨?_, hcopy.symm, Nat.le_max_right 1 len⟩, ?_, ?_⟩
      · exact Nat.lt_of_lt_of_le Nat.one_pos (Nat.le_max_left 1 len)
      · intro pos hpos
        cases hpos
      · intro start owned himage
        cases himage

theorem readValue_ok {flags : UInt32} {value : CacheData}
    (h : readValue r contents flags p = .ok (value, p')) (hp : p.pos ≤ contents.length) :
    ReadValue r contents flags p p' value := by
  unfold readValue at h
  obtain ⟨type, hread, h⟩ := bind_eq_ok.mp h
  obtain ⟨_, hlen⟩ := readRest_ok hread
  have htype := le_of_length_peekAt hlen hp
  obtain ⟨len, hread, h⟩ := bind_eq_ok.mp h
  obtain ⟨_, hlen⟩ := readRest_ok hread
  have hlen := le_of_length_peekAt hlen (by simpa [ReadPos.advance] using htype)
  simp only at h
  split at h
  · cases h
  · obtain ⟨honward, howned, hplace, himage⟩ := readData_ok h (by simpa [ReadPos.advance] using hlen)
    have hback : p.pos ≤ ((p.advance 4 type).advance 4 len).pos := by
      simp only [ReadPos.advance]
      omega
    refine ⟨⟨le_trans hback honward.1, honward.2⟩, howned, hplace, fun start owned hptr => ?_⟩
    obtain ⟨hmemory, hstart, hend⟩ := himage start owned hptr
    exact ⟨hmemory, by omega, hend⟩

/-- **What a pair that was read is**: its value has its memory. -/
theorem readKeyValuePair_ok {e : DataCacheEntry} (h : readKeyValuePair r contents p = .ok (e, p'))
    (hp : p.pos ≤ contents.length) : ReadValue r contents e.flags p p' e.value := by
  unfold readKeyValuePair at h
  obtain ⟨p₁, hsignature, h⟩ := bind_eq_ok.mp h
  have h₁ := readSignature_onward hsignature hp
  obtain ⟨⟨flags, p₂⟩, hflags, h⟩ := bind_eq_ok.mp h
  have h₂ := readFlags_onward hflags h₁.2
  obtain ⟨⟨key, p₃⟩, hkey, h⟩ := bind_eq_ok.mp h
  have h₃ := readKey_onward hkey h₂.2
  obtain ⟨⟨value, p₄⟩, hvalue, h⟩ := bind_eq_ok.mp h
  obtain ⟨honward, howned, hplace, himage⟩ := readValue_ok hvalue h₃.2
  obtain ⟨rfl, rfl⟩ := Prod.mk.inj (Except.ok.inj h)
  have hback : p.pos ≤ p₃.pos := le_trans h₁.1 (le_trans h₂.1 h₃.1)
  refine ⟨⟨le_trans hback honward.1, honward.2⟩, howned, hplace, fun start owned hptr => ?_⟩
  obtain ⟨hmemory, hstart, hend⟩ := himage start owned hptr
  exact ⟨hmemory, by omega, hend⟩

end Pair

/-! ## All pairs -/

/-- The flags of a row that was merged. -/
def mergedFlags (flags : UInt32) : UInt32 :=
  flagsClear flags (ServiceConfig.persist ||| ServiceConfig.nocache ||| ServiceConfig.scramble)

/-- A pair is added to the cache, with the allocations succeeding. -/
def addPair (mode : ImportType) (image : List UInt8) (cache : DataCache) (e : DataCacheEntry) :
    DataCache :=
  match mode with
  | .merge =>
    if (DataCache.getValue cache e.key).isNone then
      DataCache.insertValue image cache e.key e.value (mergedFlags e.flags)
    else cache
  | .copy =>
    let cache :=
      if (DataCache.getValue cache e.key).isSome then DataCache.deleteValue cache e.key
      else cache
    DataCache.insertValue image cache e.key e.value e.flags

/-- The result of the loop over the pairs. -/
structure ReadResult where
  rc : EsifError
  cache : DataCache
  hashed : List UInt8

/-- Where the reading is when there is no further pair: behind a signature that has no flags. -/
def pairsEnd (r : Reading) (contents : List UInt8) (p : ReadPos) : ReadPos :=
  match readSignature r contents p with
  | .error _ => p
  | .ok p => p

/-- The loop over the pairs.  Each moves the reading on, so it is at an end after as many
turns as there are bytes and one.  What a pair that failed had added to the digest is left out. -/
def readPairs (r : Reading) (mode : ImportType) (image contents : List UInt8) :
    Nat → ReadPos → DataCache → ReadResult
  | 0, p, cache => ⟨esifOk, cache, p.hashed⟩
  | fuel + 1, p, cache =>
    match readKeyValuePair r contents p with
    | .error .done => ⟨esifOk, cache, (pairsEnd r contents p).hashed⟩
    | .error (.failed rc) => ⟨rc, cache, p.hashed⟩
    | .ok (e, p) => readPairs r mode image contents fuel p (addPair mode image cache e)

/-! ## Headers -/

/-- `ESIFDV_MAX_HEADER`. -/
def maxHeader : Nat := 0xfffe

/-- `DataVault_IsAscii`. -/
def isAscii (s : CName) : Bool := s.bytes.all fun b => 32 ≤ b && b < 127

section

variable {δ : Type}

/-- `DataRepo_ReadHeader`: the checks of a header, and what is read of it.  A version 1 header
is read no further than it goes. -/
def readHeader (h : DataVaultHeader δ) : Except EsifError (DataVaultHeader δ) :=
  let major := esifhdrGetMajor h.version
  if h.signature ≠ headerSignature then .error esifENotSupported
  else if h.version < esifhdrVersion 1 0 0 ∨ esifhdrVersion 2 0 0xFFFF < h.version then
    .error esifENotSupported
  else if maxHeader < h.headersize then .error esifEParameterIsOutOfBounds
  else if major = 1 ∧ h.headersize ≠ sizeofHeaderV1 then .error esifENotSupported
  else if major = 2 ∧ h.headersize < sizeofHeaderV2 then .error esifENotSupported
  else if major = 1 then
    if flagsTestValid h.flags validHeaderFlagsV1 then
      .ok { h with flags := flagsClear h.flags ignoredHeaderFlags, v2 := none }
    else .error esifENotSupported
  else
    match h.v2 with
    | none => .error esifEIoError
    | some v2 =>
      if isAscii v2.segmentid ∧ isAscii v2.comment then
        .ok { h with flags := flagsClear h.flags ignoredHeaderFlags }
      else .error esifENotSupported

namespace DataVault

/-- `DataVault_IsSegmentMatch`.  The version it asks for is the whole word and not its major
part. -/
def isSegmentMatch (v : DataVault δ) (h : DataVaultHeader δ) : Bool :=
  match h.v2 with
  | none => true
  | some v2 =>
    ¬ (h.version = 2 ∧ v2.segmentid.bytes ≠ [] ∧
      v.name.folded.take nameLen ≠ v2.segmentid.folded.take nameLen)

/-- The vault takes the values of a header: when its digest is empty, or from its own file. -/
def takeHeader (emptyDigest : Bool) (mode : ImportType) (v : DataVault δ)
    (h : DataVaultHeader δ) : DataVault δ :=
  match h.v2 with
  | none =>
    if emptyDigest ∨ mode = .copy then
      { v with version := h.version, flags := h.flags, dataclass := payloadClassKeys }
    else v
  | some v2 =>
    if emptyDigest ∨ v.isSegmentMatch h ∧ mode = .copy then
      { v with
        version := h.version, flags := h.flags, segmentid := v2.segmentid,
        comment := v2.comment, dataclass := v2.payloadClass }
    else v

end DataVault

/-- `DataVault_ValidatePayload`.  A payload of an unknown class is skipped. -/
def validatePayload [DecidableEq δ] (env : Env δ) (seg : DvFile δ) : Except ReadEnd Unit :=
  match seg.header.v2 with
  | none => .ok ()
  | some v2 =>
    if maxLen < v2.payloadSize.toNat then .error (.failed esifEParameterIsOutOfBounds)
    else if v2.payloadClass ≠ payloadClassKeys ∧ v2.payloadClass ≠ payloadClassRepo then
      .error (if v2.payloadSize = 0 then .failed esifENotSupported else .done)
    else
      let bytes := peekAt seg.payload 0 v2.payloadSize.toNat
      if bytes.length ≠ v2.payloadSize.toNat then .error (.failed esifEIoError)
      else if env.sha256 bytes ≠ v2.payloadHash then .error (.failed esifEIoHashFailed)
      else .ok ()

/-- `DataVault_ValidateHash` of all that was read. -/
def validateHash [DecidableEq δ] (env : Env δ) (h : DataVaultHeader δ) (hashed : List UInt8) :
    EsifError :=
  match h.v2 with
  | none => esifOk
  | some v2 =>
    if env.sha256 hashed ≠ v2.payloadHash ∨ v2.payloadSize ≠ UInt32.ofNat hashed.length then
      esifEIoHashFailed
    else esifOk

namespace DataVault

/-- What the reading of a segment's payload goes by. -/
def reading (mode : ImportType) (memory : Bool) (v : DataVault δ) (h : DataVaultHeader δ) :
    Reading where
  major := esifhdrGetMajor h.version
  payloadSize := (h.v2.map fun v2 => v2.payloadSize.toNat).getD 0
  flags := v.flags
  memory := memory
  inPlace := v.stream.type ≠ .null ∧ mode = .copy
  base := if memory then v.image.length else h.headersize

/-- `DataVault_ReadPayload` of keys; `none` is a payload that is left out here. -/
def readPayload [DecidableEq δ] (env : Env δ) (mode : ImportType) (memory : Bool)
    (v : DataVault δ) (seg : DvFile δ) : Option (EsifError × DataVault δ) :=
  if seg.header.v2.any fun v2 =>
      flagsTest seg.header.flags ServiceConfig.compressed ∨ v2.payloadClass = payloadClassRepo
  then none
  else
    let image := if memory then v.image ++ seg.payload else v.image
    let r := readPairs (v.reading mode memory seg.header) mode image seg.payload
      (seg.payload.length + 1) ⟨0, []⟩ v.cache
    let rc := if r.rc = esifOk then validateHash env seg.header r.hashed else r.rc
    some (rc, { v with cache := r.cache, image := image })

/-- `DataVault_ReadSegment`. -/
def readSegment [DecidableEq δ] (env : Env δ) (emptyDigest : Bool) (mode : ImportType)
    (memory : Bool) (v : DataVault δ) (seg : DvFile δ) : Option (EsifError × DataVault δ) :=
  let v := v.takeHeader emptyDigest mode seg.header
  match validatePayload env seg with
  | .error .done => some (esifOk, v)
  | .error (.failed rc) => some (rc, v)
  | .ok () => v.readPayload env mode memory seg

/-- `DataVault_ImportStream`: the vault is read from its own file. -/
def importStream [DecidableEq δ] (env : Env δ) (emptyDigest : Bool) (v : DataVault δ) :
    Option (EsifError × DataVault δ) :=
  match v.file with
  | none => some (esifENotFound, { v with stream := ⟨.null, .readOnly⟩ })
  | some f =>
    let v := { v with stream := ⟨.file, .readWrite⟩ }
    match readHeader f.header with
    | .error rc => some (rc, v)
    | .ok h => v.readSegment env emptyDigest .copy false ⟨h, f.payload⟩

/-- The part of `DataRepo_LoadSegments` for one segment of a repository that is not the
vault's own.  What lies in static memory makes a static vault. -/
def loadSegment [DecidableEq δ] (env : Env δ) (emptyDigest : Bool) (stream : IOStream)
    (v : DataVault δ) (seg : DvFile δ) : Option (EsifError × DataVault δ) :=
  match readHeader seg.header with
  | .error rc => some (rc, v)
  | .ok h =>
    let memory : Bool := stream.type = .memory
    let flags :=
      if memory ∧ stream.store = .static then flagsSet h.flags ServiceConfig.static else h.flags
    v.readSegment env emptyDigest .merge memory ⟨{ h with flags := flags }, seg.payload⟩

end DataVault

end

end Vault

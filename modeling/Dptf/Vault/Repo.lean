import Dptf.Vault.TwoHashes

/-!
# Loading a repository

`DataRepo_LoadSegments` reads the segments of a stream into the vaults of the
DataBank.  A payload may be a repository again, which is loaded by a call of the same
function, made while the vault of its segment is locked.

All allocations succeed and all bytes of a stream can be read.
-/

open Lib

namespace Vault

/-! ## Streams -/

/-- `MAX_OFFSET_MEMORYSTREAM`. -/
def maxOffsetMemorystream : Nat := 2 ^ 63 - 2

/-- An `IOStream` of a file or of memory that is open. -/
structure OpenStream extends IOStream where
  contents : List UInt8
  offset : Nat
deriving DecidableEq, Repr

namespace OpenStream

/-- What `IOStream_Read` gives. -/
def peek (s : OpenStream) (n : Nat) : List UInt8 := peekAt s.contents s.offset n

/-- All that is still to be read. -/
def rest (s : OpenStream) : List UInt8 := s.contents.drop s.offset

/-- The stream so many bytes on, which may be behind its end. -/
def skip (s : OpenStream) (n : Nat) : OpenStream := { s with offset := s.offset + n }

/-- `IOStream_Seek` goes back to a position. -/
def canSeek (s : OpenStream) (offset : Nat) : Bool :=
  offset ≤ if s.type = .memory then maxOffsetMemorystream else maxOffsetFilestream

/-- The bytes of the stream that are not read. -/
def left (s : OpenStream) : Nat := s.contents.length - s.offset

end OpenStream

/-! ## Headers -/

/-- A number of a header: the bytes that are there, over zeros. -/
def headerField (bytes : List UInt8) (pos n : Nat) : Nat := leDec (peekAt bytes pos n)

/-- A `DataVaultHeader` in memory.  Of a header that is not there in full the hash is short; it is
not looked at. -/
def parseHeader (bytes : List UInt8) : DataVaultHeader (List UInt8) :=
  let version := UInt32.ofNat (headerField bytes 4 4)
  { signature := .ofNat (headerField bytes 0 2)
    headersize := headerField bytes 2 2
    version := version
    flags := .ofNat (headerField bytes 8 4)
    v2 :=
      if esifhdrGetMajor version = 2 then
        some {
          segmentid := .ofBuffer (peekAt bytes 12 nameLen)
          comment := .ofBuffer (peekAt bytes 44 descLen)
          payloadHash := peekAt bytes 108 32
          payloadSize := .ofNat (headerField bytes 140 4)
          payloadClass := .ofNat (headerField bytes 144 4) }
      else none }

/-- The checks `DataRepo_ReadHeader` makes of the first eight bytes. -/
def commonError (h : DataVaultHeader (List UInt8)) : Option EsifError :=
  let major := esifhdrGetMajor h.version
  if h.signature ≠ headerSignature then some esifENotSupported
  else if h.version < esifhdrVersion 1 0 0 ∨ esifhdrVersion 2 0 0xFFFF < h.version then
    some esifENotSupported
  else if maxHeader < h.headersize then some esifEParameterIsOutOfBounds
  else if major = 1 ∧ h.headersize ≠ sizeofHeaderV1 then some esifENotSupported
  else if major = 2 ∧ h.headersize < sizeofHeaderV2 then some esifENotSupported
  else none

namespace OpenStream

/-- `DataRepo_ReadHeader`: the common part, a rewind, and the whole header.  What a newer revision
has behind it is skipped. -/
def readHeader (s : OpenStream) :
    Except ReadEnd (DataVaultHeader (List UInt8) × OpenStream) :=
  let common := s.peek 8
  if common = [] then .error .done
  else if common.length ≠ 8 then .error (.failed esifEIoError)
  else if s.canSeek s.offset = false then .error (.failed esifEIoError)
  else
    match commonError (parseHeader common) with
    | some rc => .error (.failed rc)
    | none =>
      let size := min (parseHeader common).headersize sizeofHeaderV2
      let bytes := s.peek size
      let short : Bool := bytes.length ≠ size
      -- A short header of version 1 has no flags to check; the names of version 2 are checked.
      if short ∧ esifhdrGetMajor (parseHeader common).version = 1 then
        .error (.failed esifEIoError)
      else
        match Vault.readHeader (parseHeader bytes) with
        | .error rc => .error (.failed rc)
        | .ok h => if short then .error (.failed esifEIoError) else .ok (h, s.skip h.headersize)

end OpenStream

/-! ## The DataBank -/

/-- What a load takes from the rest of the program. -/
structure LoadEnv extends Env (List UInt8) where
  /-- `EsifData_Decompress`. -/
  decompress : List UInt8 → Except EsifError (List UInt8)
  /-- What is on disk under the name of a vault. -/
  onDisk : CName → Option (DvFile (List UInt8))
  /-- `DataVault_SetDefaultComment`. -/
  defaultComment : CName → CName

/-- `ESIF_NAME_LEN`. -/
def esifNameLen : Nat := 64

/-- The DataBank: the vaults by their addresses, and the array of those that have a name. -/
structure DataBank where
  heap : Nat → DigestedVault (List UInt8)
  /-- The first address that is free. -/
  top : Nat
  elements : List Nat

namespace DataBank

/-- A vault is changed. -/
def set (b : DataBank) (ptr : Nat) (v : DigestedVault (List UInt8)) : DataBank :=
  { b with heap := Function.update b.heap ptr v }

/-- `DataBank_GetDataVault`. -/
def getDataVault (b : DataBank) (nameSpace : CName) : Option Nat :=
  b.elements.find? fun ptr => nameSpace.folded = (b.heap ptr).name.folded

/-- `DataVault_Create`: the name is cut to its field and in lower case. -/
def createDataVault (env : LoadEnv) (nameSpace : CName) : DigestedVault (List UInt8) :=
  let name := CName.ofBuffer (nameSpace.folded.take nameLen)
  ⟨.created name (env.defaultComment name) (env.onDisk name), none⟩

/-- `DataBank_OpenDataVault`: the vault of a name, or a new one in alphabetical order. -/
def openDataVault (env : LoadEnv) (b : DataBank) (nameSpace : CName) : Option (Nat × DataBank) :=
  match b.getDataVault nameSpace with
  | some ptr => some (ptr, b)
  | none =>
    if isAscii nameSpace ∧ nameSpace.bytes.length < esifNameLen then
      let v := createDataVault env nameSpace
      let before : Nat → Bool := fun ptr => ¬ v.name.folded < (b.heap ptr).name.folded
      some (b.top,
        { heap := Function.update b.heap b.top v
          top := b.top + 1
          elements := b.elements.takeWhile before ++ b.top :: b.elements.dropWhile before })
    else none

/-- `DataBank_CloseDataVault`. -/
def closeDataVault (b : DataBank) (nameSpace : CName) : DataBank :=
  match b.getDataVault nameSpace with
  | none => b
  | some ptr => { b with elements := b.elements.erase ptr }

end DataBank

/-! ## The state of a load -/

/-- The local variables of a call of `DataRepo_LoadSegments`. -/
structure Frame where
  /-- The name of the repository. -/
  name : CName
  stream : OpenStream
  segmentid : CName
  /-- `PrimaryDV`, empty if there is none. -/
  primaryDV : CName
  segments : Nat
deriving DecidableEq, Repr

/-- The local variables of a call of `DataVault_ReadSegment` and of the turn it is made in. -/
structure SegmentRead where
  /-- The vault, which is locked. -/
  ptr : Nat
  /-- The primary stream the vault had before. -/
  currentStream : IOStream
  header : DataVaultHeader (List UInt8)
  mode : ImportType
  /-- The vault took the header, and keeps the new digest. -/
  taken : Bool
  currentDigest : Option (List UInt8)
deriving DecidableEq, Repr

/-- The loop over the pairs of a payload. -/
structure KeysLoop where
  reading : Reading
  contents : List UInt8
  pos : ReadPos
  /-- They are read from `uncompressed_stream`. -/
  compressed : Bool

/-- Where a call of `DataRepo_LoadSegments` is. -/
inductive Phase
  /-- In front of the next header. -/
  | head
  /-- In the loop over the pairs of a segment. -/
  | keys (seg : SegmentRead) (loop : KeysLoop)
  /-- Behind the loop, to return `rc`. -/
  | ended (rc : EsifError)

/-- The state of a load.  Each call but the last one is in a segment whose payload is the
repository of the next one. -/
inductive LoadState
  | running (bank : DataBank) (frame : Frame) (phase : Phase) (below : List (Frame × SegmentRead))
  | finished (bank : DataBank) (rc : EsifError)

/-- The vaults that are locked by the calls below. -/
def held (below : List (Frame × SegmentRead)) : List Nat := below.map fun g => g.2.ptr

/-! ## The end of a segment -/

/-- The end of a turn of `DataRepo_LoadSegments`, with the result of `DataVault_ReadSegment`. -/
def endSegment (b : DataBank) (f : Frame) (seg : SegmentRead) (rc : EsifError)
    (below : List (Frame × SegmentRead)) : LoadState :=
  let v := (b.heap seg.ptr).leave seg.taken seg.currentDigest
  let v := { v with stream := seg.currentStream }
  let b := b.set seg.ptr v
  let b := if rc = esifEIoHashFailed ∧ v.cache = [] then b.closeDataVault f.segmentid else b
  if rc = esifOk then .running b { f with segments := f.segments + 1 } .head below
  else .running b { f with primaryDV := ⟨[], CName.nul_free_nil⟩ } (.ended rc) below

/-! ## Keys -/

/-- `DataVault_ReadKeyValuePair`, with some flags banned. -/
def readKeyValuePairOf (banned : UInt32) (r : Reading) (contents : List UInt8) (p : ReadPos) :
    Except ReadEnd (DataCacheEntry × ReadPos) := do
  let p ← readSignature r contents p
  let (flags, _) ← readFlags r contents p
  let flags := flagsClear flags banned
  let (key, p) ← readKey contents (p.advance 4 (leEnc 4 flags.toNat))
  let flags := if r.static then flagsClear flags ServiceConfig.nocache else flags
  let (value, p) ← readValue r contents flags p
  return (⟨flags, key, value⟩, p)

/-- The end was found by the signature of a header, and the stream goes back in front of it. -/
def rewinds (r : Reading) (contents : List UInt8) (p : ReadPos) : Bool :=
  peekAt contents p.pos 2 = leEnc 2 headerSignature.toNat ∧
    if r.major = 2 then flagsTest r.flags ServiceConfig.compressed ∨
      p.hashed.length < r.payloadSize
    else (peekAt contents p.pos 4).length = 4

/-- A turn of the loop over the pairs in `DataVault_ReadPayload`, and what is behind it. -/
def keysTurn (env : LoadEnv) (b : DataBank) (f : Frame) (seg : SegmentRead) (loop : KeysLoop)
    (below : List (Frame × SegmentRead)) : LoadState :=
  let v := b.heap seg.ptr
  let banned := if loop.compressed then ServiceConfig.nocache else 0
  match readKeyValuePairOf banned loop.reading loop.contents loop.pos with
  | .ok (e, p) =>
    .running (b.set seg.ptr { v with cache := addPair seg.mode v.image v.cache e }) f
      (.keys seg { loop with pos := p }) below
  | .error (.failed rc) =>
    endSegment (b.set seg.ptr { v with digest := some loop.pos.hashed }) f seg rc below
  | .error .done =>
    let p := pairsEnd loop.reading loop.contents loop.pos
    let b := b.set seg.ptr { v with digest := some p.hashed }
    if loop.compressed then endSegment b f seg esifOk below
    else
      let f' := { f with stream := f.stream.skip p.pos }
      if rewinds loop.reading loop.contents loop.pos ∧
          f.stream.canSeek (f.stream.offset + loop.pos.pos) = false then
        endSegment b f' seg esifEIoError below
      else endSegment b f' seg (validateHash env.toEnv seg.header p.hashed) below

/-! ## Segments -/

/-- `payload_size`, 0 for version 1. -/
def payloadSize (h : DataVaultHeader (List UInt8)) : Nat :=
  (h.v2.map fun v2 => v2.payloadSize.toNat).getD 0

/-- The payload has to be decompressed. -/
def isCompressed (h : DataVaultHeader (List UInt8)) : Bool :=
  h.v2.isSome && flagsTest h.flags ServiceConfig.compressed

/-- The payload is a repository. -/
def isRepo (h : DataVaultHeader (List UInt8)) : Bool :=
  h.v2.any fun v2 => v2.payloadClass = payloadClassRepo

/-- The call of `DataRepo_LoadSegments` for the repository in a payload. -/
def nestedFrame (bytes : List UInt8) : Frame where
  -- The characters `##repo`.
  name := ⟨[35, 35, 114, 101, 112, 111], by decide⟩
  stream := ⟨⟨.memory, .readOnly⟩, bytes, 0⟩
  segmentid := ⟨[35, 35, 114, 101, 112, 111], by decide⟩
  primaryDV := ⟨[], CName.nul_free_nil⟩
  segments := 0

/-- `DataVault_ReadPayload` up to its loop or its call, with the stream at the payload.  Keys are
read as far as the stream goes, a repository as far as its size says. -/
def readPayload (env : LoadEnv) (b : DataBank) (f : Frame) (seg : SegmentRead)
    (below : List (Frame × SegmentRead)) : LoadState :=
  let size := payloadSize seg.header
  let behind := { f with stream := f.stream.skip size }
  let payload := f.stream.peek size
  match if isCompressed seg.header then env.decompress payload else .ok payload with
  | .error rc => endSegment b behind seg rc below
  | .ok bytes =>
    if isRepo seg.header then
      if bytes = [] then endSegment b behind seg esifOk below
      else .running b (nestedFrame bytes) .head ((behind, seg) :: below)
    else
      let v := b.heap seg.ptr
      let memory : Bool := isCompressed seg.header ∨ f.stream.type = .memory
      let contents := if isCompressed seg.header then bytes else f.stream.rest
      let reading := { v.reading seg.mode memory seg.header with
        base := if memory then v.image.length else f.stream.offset }
      let image := if memory then v.image ++ contents else v.image
      .running (b.set seg.ptr { v with image := image })
        (if isCompressed seg.header then behind else f)
        (.keys seg ⟨reading, contents, ⟨0, []⟩, isCompressed seg.header⟩) below

/-- The `importMode` of a vault for a segment of a repository. -/
def importMode (v : DataVault (List UInt8)) (repo : DataRepo)
    (h : DataVaultHeader (List UInt8)) : ImportType :=
  if v.isPrimary repo h then .copy else .merge

/-- The vault with the stream of the repository, if it is its primary one. -/
def assignStream (v : DigestedVault (List UInt8)) (repo : DataRepo)
    (h : DataVaultHeader (List UInt8)) : DigestedVault (List UInt8) :=
  if v.isPrimary repo h then { v with stream := repo.stream } else v

/-- The part of a turn in which the vault is locked, up to the payload: the repository may become
the primary stream, the header is taken and the payload validated. -/
def readSegment (env : LoadEnv) (b : DataBank) (f : Frame)
    (h : DataVaultHeader (List UInt8)) (ptr : Nat) (below : List (Frame × SegmentRead)) :
    LoadState :=
  let repo : DataRepo := ⟨f.name, f.stream.toIOStream⟩
  let mode := importMode (b.heap ptr).toDataVault repo h
  let v := assignStream (b.heap ptr) repo h
  let file : DvFile (List UInt8) := ⟨h, f.stream.rest⟩
  let f := if mode = .copy then { f with primaryDV := repo.getName nameLen } else f
  let seg : SegmentRead := ⟨ptr, (b.heap ptr).stream, h, mode, v.takesHeader mode h, v.digest⟩
  let b := b.set ptr ((v.enter mode h).validated file)
  match validatePayload env.toEnv file with
  | .error (.failed rc) => endSegment b f seg rc below
  | .error .done =>
    endSegment b { f with stream := f.stream.skip (payloadSize h) } seg esifOk below
  | .ok () =>
    -- The payload of version 2 was read for its hash, and the stream goes back.
    if h.v2.isSome ∧ f.stream.canSeek f.stream.offset = false then
      endSegment b f seg esifEIoError below
    else readPayload env b f seg below

/-! ## Turns -/

/-- The next header, with what the loop of `DataRepo_LoadSegments` makes of it: what lies in static
memory makes a static vault, and a segment without a name has that of the one before. -/
def Frame.nextHeader (f : Frame) : Except ReadEnd (DataVaultHeader (List UInt8) × Frame) :=
  match f.stream.readHeader with
  | .error e => .error e
  | .ok (h, stream) =>
    let major := esifhdrGetMajor h.version
    let flags :=
      if f.stream.type = .memory ∧ f.stream.store = .static then
        flagsSet h.flags ServiceConfig.static
      else h.flags
    if major ≠ 1 ∧ major ≠ 2 then .error (.failed esifENotSupported)
    else
      let segmentid :=
        match h.v2 with
        | none => f.segmentid
        | some v2 => if v2.segmentid.bytes = [] then f.segmentid else v2.segmentid
      .ok ({ h with flags := flags }, { f with stream := stream, segmentid := segmentid })

/-- A turn of the loop of `DataRepo_LoadSegments`, up to the payload.  `esif_ccb_write_lock` does
not come back from a lock its own thread holds: it tries again and again. -/
def headTurn (env : LoadEnv) (b : DataBank) (f : Frame) (below : List (Frame × SegmentRead)) :
    LoadState :=
  match f.nextHeader with
  | .error e => .running b f (.ended e.rc) below
  | .ok (h, f') =>
    match b.openDataVault env f'.segmentid with
    | none => .running b { f' with segments := f'.segments + 1 } .head below
    | some (ptr, b') =>
      if ptr ∈ held below then .running b f .head below
      else readSegment env b' f' h ptr below

/-- What `DataRepo_LoadSegments` does behind its loop: the stream goes to the primary vault. -/
def transferStream (b : DataBank) (f : Frame) : DataBank :=
  if f.primaryDV.bytes = [] then b
  else
    match b.getDataVault f.primaryDV with
    | none => b
    | some ptr =>
      let store : StoreType :=
        if 1 < f.segments ∧ f.stream.store = .readWrite then .readOnly else f.stream.store
      b.set ptr { b.heap ptr with stream := ⟨f.stream.type, store⟩ }

/-- The return from a call of `DataRepo_LoadSegments`, to the segment whose payload it was for. -/
def returnTurn (b : DataBank) (f : Frame) (rc : EsifError)
    (below : List (Frame × SegmentRead)) : LoadState :=
  match below with
  | [] => .finished (transferStream b f) rc
  | (g, seg) :: below => endSegment (transferStream b f) g seg rc below

/-- One turn of a load. -/
def next (env : LoadEnv) : LoadState → LoadState
  | .running b f .head below => headTurn env b f below
  | .running b f (.keys seg loop) below => keysTurn env b f seg loop below
  | .running b f (.ended rc) below => returnTurn b f rc below
  | .finished b rc => .finished b rc

/-- The characters of the name of a `DataRepo`, `MAX_PATH` without the NUL. -/
def repoNameLen : Nat := 259

/-- A load of a repository whose stream was opened. -/
def loadSegments (b : DataBank) (name : CName) (type : StreamType) (store : StoreType)
    (contents : List UInt8) : LoadState :=
  let repo : DataRepo := ⟨name, ⟨type, store⟩⟩
  .running b ⟨name, ⟨⟨type, store⟩, contents, 0⟩, repo.getName repoNameLen,
    ⟨[], CName.nul_free_nil⟩, 0⟩
    .head []

end Vault

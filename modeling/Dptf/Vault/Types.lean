import Dptf.Common.CString
import Dptf.Common.EsifData
import Dptf.Lib.Layout

/-!
# DataVaults: the data

A DataVault is a named cache of keys and values, some of which it keeps in a file
of its own.  A value lies in one of three places, and the C structure tells them
apart by `buf_len` and the flags of its entry only; `BufPtr` says which place an
address belongs to, so that a copy to the wrong one can be seen.
-/

open Lib

namespace Vault

/-! ## Flags -/

namespace ServiceConfig

/-- `ESIF_SERVICE_CONFIG_PERSIST`. -/
def persist : UInt32 := 0x00000001
/-- `ESIF_SERVICE_CONFIG_SCRAMBLE`. -/
def scramble : UInt32 := 0x00000002
/-- `ESIF_SERVICE_CONFIG_READONLY`. -/
def readonly : UInt32 := 0x00000004
/-- `ESIF_SERVICE_CONFIG_NOCACHE`. -/
def nocache : UInt32 := 0x00000008
/-- `ESIF_SERVICE_CONFIG_DELETE`. -/
def delete : UInt32 := 0x00010000
/-- `ESIF_SERVICE_CONFIG_DELAYWRITE`. -/
def delaywrite : UInt32 := 0x20000000
/-- `ESIF_SERVICE_CONFIG_COMPRESSED`. -/
def compressed : UInt32 := 0x40000000
/-- `ESIF_SERVICE_CONFIG_STATIC`. -/
def static : UInt32 := 0x80000000

end ServiceConfig

/-- `FLAGS_TEST`, as a condition. -/
def flagsTest (flags mask : UInt32) : Bool := flags &&& mask ≠ 0

/-- `FLAGS_SET`. -/
def flagsSet (flags mask : UInt32) : UInt32 := flags ||| mask

/-- `FLAGS_CLEAR`. -/
def flagsClear (flags mask : UInt32) : UInt32 := flags &&& ~~~mask

/-- `FLAGS_TESTVALID`. -/
def flagsTestValid (flags mask : UInt32) : Bool := flags &&& mask = flags

/-- `ESIFDV_VALID_HEADER_FLAGS_V1`. -/
def validHeaderFlagsV1 : UInt32 :=
  ServiceConfig.persist ||| ServiceConfig.scramble ||| ServiceConfig.readonly |||
    ServiceConfig.nocache ||| ServiceConfig.static

/-- `ESIFDV_VALID_ITEM_FLAGS_V1`. -/
def validItemFlagsV1 : UInt32 :=
  ServiceConfig.persist ||| ServiceConfig.scramble ||| ServiceConfig.readonly |||
    ServiceConfig.nocache

/-- `ESIFDV_IGNORED_HEADER_FLAGS`. -/
def ignoredHeaderFlags : UInt32 :=
  ServiceConfig.delete ||| ServiceConfig.persist ||| ServiceConfig.scramble |||
    ServiceConfig.delaywrite

/-- `ESIFDV_IGNORED_ITEM_FLAGS`. -/
def ignoredItemFlags : UInt32 :=
  ServiceConfig.delete ||| ServiceConfig.static ||| ServiceConfig.compressed |||
    ServiceConfig.delaywrite

/-- The flags an entry is given. -/
def itemFlags (flags : UInt32) : UInt32 := flagsClear flags ignoredItemFlags

/-! ## Constants -/

/-- `ESIF_DATA_STRING`. -/
def esifDataString : UInt32 := 8
/-- `ESIF_DATA_AUTO`. -/
def esifDataAuto : UInt32 := 36
/-- `ESIF_DATA_ALLOCATE`, in place of a buffer length. -/
def esifDataAllocate : UInt32 := 0xFFFFFFFF
/-- `ESIFDV_PAYLOAD_CLASS_KEYS`, the characters `KEYS`. -/
def payloadClassKeys : UInt32 := 0x5359454B
/-- `ESIFDV_PAYLOAD_CLASS_REPO`, the characters `REPO`. -/
def payloadClassRepo : UInt32 := 0x4F504552
/-- `ESIFDV_HEADER_SIGNATURE`. -/
def headerSignature : UInt16 := 0x1FE5
/-- `ESIFDV_ITEM_KEYS_REV0_SIGNATURE`. -/
def itemSignature : UInt16 := 0xA0D8
/-- `ESIFDV_NAME_LEN`. -/
def nameLen : Nat := 32
/-- `ESIFDV_DESC_LEN`. -/
def descLen : Nat := 64
/-- `ESIFDV_MAX_KEYLEN`, `ESIFDV_MAX_DATALEN` and `ESIFDV_MAX_PAYLOAD`. -/
def maxLen : Nat := 0x7ffffffe
/-- `MAX_OFFSET_FILESTREAM`. -/
def maxOffsetFilestream : Nat := 0x7FFFFFFF
/-- `sizeof(DataVaultHeaderV1)`. -/
def sizeofHeaderV1 : Nat := 12
/-- `sizeof(DataVaultHeaderV2)`. -/
def sizeofHeaderV2 : Nat := 148

/-- `ESIFHDR_VERSION`. -/
def esifhdrVersion (major minor revision : UInt32) : UInt32 :=
  ((major &&& 0xFF) <<< 24) ||| ((minor &&& 0xFF) <<< 16) ||| (revision &&& 0xFFFF)

/-- `ESIFHDR_GET_MAJOR`. -/
def esifhdrGetMajor (version : UInt32) : UInt32 := (version >>> 24) &&& 0xFF

/-- The version of new files. -/
def currentVersion : UInt32 := esifhdrVersion 2 0 0

/-- `esif_data_type_sizeof`: the sizes of the types that have one, pointers being 8 bytes. -/
def esifDataTypeSizeof (type : UInt32) : UInt32 :=
  if type ∈ [41, 39, 19, 16, 29, 26, 6, 31, 13, 3] then 4
  else if type ∈ [40, 14, 18, 15, 4] then 8
  else if type ∈ [5, 17] then 16
  else if type ∈ [30, 12, 28, 2] then 2
  else if type ∈ [11, 1] then 1
  else 0

/-! ## Values and entries -/

/-- What the `buf_ptr` of a value in the cache is. -/
inductive BufPtr
  /-- The null pointer. -/
  | null
  /-- The address of an allocation, with its bytes. -/
  | block (bytes : List UInt8)
  /-- No address but a position in the vault's file. -/
  | offset (pos : Nat)
  /-- An address inside the memory image, with the bytes the value had when it was loaded. -/
  | image (start owned : Nat)
deriving DecidableEq, Repr

/-- The `EsifData` of a value in the cache.  Both lengths are `u32`s of a caller. -/
structure CacheData where
  type : UInt32
  bufPtr : BufPtr
  /-- `buf_len`, 0 for what the entry does not own. -/
  bufLen : Nat
  dataLen : Nat
deriving DecidableEq, Repr

/-- `DataCacheEntry`. -/
structure DataCacheEntry where
  flags : UInt32
  key : CName
  value : CacheData
deriving DecidableEq, Repr

/-- The entry has a flag. -/
def DataCacheEntry.has (e : DataCacheEntry) (mask : UInt32) : Bool := flagsTest e.flags mask

/-- A value a caller hands in.  Of its buffer `data_len` bytes can be read. -/
structure SetData extends EsifData where
  readable : ∀ bytes, bufPtr = some bytes → dataLen.toNat ≤ bytes.length
deriving DecidableEq

/-- The bytes of a value. -/
def SetData.bytes (d : SetData) : List UInt8 := (d.bufPtr.getD []).take d.dataLen.toNat

theorem SetData.length_bytes {d : SetData} (h : d.bufPtr ≠ none) :
    d.bytes.length = d.dataLen.toNat := by
  obtain ⟨bytes, hbytes⟩ := Option.ne_none_iff_exists'.mp h
  have hle := d.readable bytes hbytes
  rw [SetData.bytes, hbytes, Option.getD_some, List.length_take]
  omega

/-! ## Files -/

section

variable (δ : Type)

/-- The part of a `DataVaultHeaderV2` a `DataVaultHeaderV1` lacks.  The two character arrays
are filled up with zeros. -/
structure HeaderV2 where
  segmentid : CName
  comment : CName
  payloadHash : δ
  payloadSize : UInt32
  payloadClass : UInt32
deriving DecidableEq, Repr

/-- `DataVaultHeader`. -/
structure DataVaultHeader where
  signature : UInt16
  headersize : Nat
  version : UInt32
  flags : UInt32
  v2 : Option (HeaderV2 δ)
deriving DecidableEq, Repr

/-- A `.dv` file of one segment: its header and the bytes behind it. -/
structure DvFile where
  header : DataVaultHeader δ
  payload : List UInt8
deriving DecidableEq, Repr

end

/-- `StreamType`. -/
inductive StreamType
  | null
  | file
  | memory
deriving DecidableEq, Repr

/-- `StoreType`. -/
inductive StoreType
  | readOnly
  | readWrite
  | static
deriving DecidableEq, Repr

/-- An `IOStream` as far as a vault asks for it. -/
structure IOStream where
  type : StreamType
  store : StoreType
deriving DecidableEq, Repr

/-- `DataVault`, with what its pointers lead to. -/
structure DataVault (δ : Type) where
  version : UInt32
  flags : UInt32
  name : CName
  comment : CName
  segmentid : CName
  cache : List DataCacheEntry
  /-- The primary stream. -/
  stream : IOStream
  dataclass : UInt32
  /-- What is on disk under the name of the primary stream, `name.dv`. -/
  file : Option (DvFile δ)
  /-- The memory image a static vault was loaded from. -/
  image : List UInt8
deriving DecidableEq, Repr

section

variable {δ : Type}

/-- `IOStream_LoadBlock` on a vault's file: the `len` bytes at an offset.  No bytes are read
from any offset as long as the file can be opened.  What values are read from lies behind
the header. -/
def DvFile.loadBlock (file : Option (DvFile δ)) (pos len : Nat) : Option (List UInt8) :=
  match file with
  | none => none
  | some f =>
    if maxOffsetFilestream < pos then none
    else if len = 0 then some []
    else if pos < f.header.headersize then none
    else readAt f.payload (pos - f.header.headersize) len

/-- `buf_ptr` taken for a file offset.  No file reaches up to the address of a buffer. -/
def BufPtr.asOffset : BufPtr → Option Nat
  | .null => some 0
  | .offset pos => some pos
  | .block _ => none
  | .image _ _ => none

/-- The bytes at an address, as many as there are up to `len`. -/
def BufPtr.read (image : List UInt8) (len : Nat) : BufPtr → List UInt8
  | .null => []
  | .block bytes => bytes.take len
  | .offset _ => []
  | .image start _ => peekAt image start len

/-- The bytes a value may be copied to at an address. -/
def BufPtr.room : BufPtr → Nat
  | .null => 0
  | .block bytes => bytes.length
  | .offset _ => 0
  | .image _ owned => owned

/-- `~` on every byte. -/
def complement (bytes : List UInt8) : List UInt8 := bytes.map fun b => ~~~b

@[simp] theorem length_complement (bytes : List UInt8) :
    (complement bytes).length = bytes.length := by
  simp [complement]

/-- Scrambling twice is doing nothing. -/
@[simp] theorem complement_complement (bytes : List UInt8) :
    complement (complement bytes) = bytes := by
  simp [complement, Function.comp_def]

end

/-! ## Testing flags -/

/-- A test for any of two masks is two tests. -/
theorem flagsTest_or (flags mask mask' : UInt32) :
    flagsTest flags (mask ||| mask') = (flagsTest flags mask || flagsTest flags mask') := by
  have hdistrib : flags &&& (mask ||| mask') = (flags &&& mask) ||| (flags &&& mask') :=
    UInt32.toBitVec_inj.mp BitVec.and_or_distrib_left
  rw [Bool.eq_iff_iff, flagsTest, hdistrib]
  simp only [flagsTest, ne_eq, UInt32.or_eq_zero_iff, decide_eq_true_eq, Bool.or_eq_true]
  tauto

/-- Clearing other flags is not seen. -/
theorem flagsTest_flagsClear {cleared mask : UInt32} (h : ~~~cleared &&& mask = mask)
    (flags : UInt32) : flagsTest (flagsClear flags cleared) mask = flagsTest flags mask := by
  rw [flagsTest, flagsClear, UInt32.and_assoc, h, flagsTest]

end Vault

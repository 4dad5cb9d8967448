import Mathlib.Data.List.Forall2
import Dptf.Ipc.Message

/-!
# The structures an application is created with

`AppData`, `AppParticipantData` and `AppDomainData` are records with `EsifData`
members, and their data shares one area behind the record.  Each travels alone
or behind a function message that points to it.

* `app_structures_round_trip` — every structure, alone and inside its message,
  as long as less than 2^32 bytes are appended.  From there on the offsets wrap:
  `app_domain_data_wraps`.
-/

open Lib

/-- What every member of a structure has after decoding. -/
theorem EsifData.forall₂_received_same {ds : List EsifData} (h : ∀ d ∈ ds, d.WellFormed) :
    List.Forall₂ EsifData.Same (ds.map EsifData.received) ds := by
  rw [List.forall₂_map_left_iff, List.forall₂_same]
  exact fun d hd => (h d hd).toHasBuffer.received_same

namespace Irpc

/-! ## The structures -/

/-- `AppData`. -/
structure AppData where
  fPathHome : EsifData
  fLogLevel : UInt32

/-- `AppParticipantData`. -/
structure AppParticipantData where
  fVersion : UInt8
  fReserved : Vector UInt8 3
  fDriverType : EsifData
  fDeviceType : EsifData
  fName : EsifData
  fDesc : EsifData
  fDriverName : EsifData
  fDeviceName : EsifData
  fDevicePath : EsifData
  fDomainCount : UInt8
  fReserved2 : Vector UInt8 3
  fBusEnumerator : UInt32
  fAcpiDevice : EsifData
  fAcpiScope : EsifData
  fAcpiUID : EsifData
  fAcpiType : UInt32
  fPciVendor : UInt16
  fPciDevice : UInt16
  fPciBus : UInt8
  fPciBusDevice : UInt8
  fPciFunction : UInt8
  fPciRevision : UInt8
  fPciClass : UInt8
  fPciSubClass : UInt8
  fPciProgIf : UInt8
  fReserved3 : Vector UInt8 1

/-- `AppDomainData`. -/
structure AppDomainData where
  fVersion : UInt8
  fReserved : Vector UInt8 3
  fName : EsifData
  fDescription : EsifData
  fGuid : EsifData
  fType : UInt32
  fCapability : UInt32
  fCapabilityBytes : Vector UInt8 32

namespace AppData

def params (data : AppData) : List Param := [.inline data.fPathHome, .scalar (.u32 data.fLogLevel)]

/-- The members are well formed. -/
def WellFormed (data : AppData) : Prop := data.fPathHome.WellFormed

/-- What the other side holds after decoding. -/
def received (data : AppData) : AppData := { data with fPathHome := data.fPathHome.received }

/-- The scalars agree, and the members as a reader of their data sees them. -/
structure Same (a b : AppData) : Prop where
  fPathHome : a.fPathHome.Same b.fPathHome
  fLogLevel : a.fLogLevel = b.fLogLevel

end AppData

namespace AppParticipantData

def params (data : AppParticipantData) : List Param :=
  [.scalar (.u8 data.fVersion), .scalar (.vec data.fReserved), .inline data.fDriverType,
    .inline data.fDeviceType, .inline data.fName, .inline data.fDesc, .inline data.fDriverName,
    .inline data.fDeviceName, .inline data.fDevicePath, .scalar (.u8 data.fDomainCount),
    .scalar (.vec data.fReserved2), .scalar (.u32 data.fBusEnumerator), .inline data.fAcpiDevice,
    .inline data.fAcpiScope, .inline data.fAcpiUID, .scalar (.u32 data.fAcpiType),
    .scalar (.u16 data.fPciVendor), .scalar (.u16 data.fPciDevice), .scalar (.u8 data.fPciBus),
    .scalar (.u8 data.fPciBusDevice), .scalar (.u8 data.fPciFunction),
    .scalar (.u8 data.fPciRevision), .scalar (.u8 data.fPciClass), .scalar (.u8 data.fPciSubClass),
    .scalar (.u8 data.fPciProgIf), .scalar (.vec data.fReserved3)]

/-- The members that are structures. -/
def members (data : AppParticipantData) : List EsifData :=
  [data.fDriverType, data.fDeviceType, data.fName, data.fDesc, data.fDriverName,
    data.fDeviceName, data.fDevicePath, data.fAcpiDevice, data.fAcpiScope, data.fAcpiUID]

def WellFormed (data : AppParticipantData) : Prop := ∀ d ∈ data.members, d.WellFormed

/-- Everything else. -/
def scalars (data : AppParticipantData) : AppParticipantData :=
  { data with
    fDriverType := .zero, fDeviceType := .zero, fName := .zero, fDesc := .zero
    fDriverName := .zero, fDeviceName := .zero, fDevicePath := .zero
    fAcpiDevice := .zero, fAcpiScope := .zero, fAcpiUID := .zero }

structure Same (a b : AppParticipantData) : Prop where
  scalars : a.scalars = b.scalars
  members : List.Forall₂ EsifData.Same a.members b.members

def received (data : AppParticipantData) : AppParticipantData :=
  { data with
    fDriverType := data.fDriverType.received, fDeviceType := data.fDeviceType.received
    fName := data.fName.received, fDesc := data.fDesc.received
    fDriverName := data.fDriverName.received, fDeviceName := data.fDeviceName.received
    fDevicePath := data.fDevicePath.received, fAcpiDevice := data.fAcpiDevice.received
    fAcpiScope := data.fAcpiScope.received, fAcpiUID := data.fAcpiUID.received }

theorem received_same (data : AppParticipantData) (h : data.WellFormed) :
    data.received.Same data := by
  refine ⟨rfl, ?_⟩
  show List.Forall₂ EsifData.Same (data.members.map EsifData.received) data.members
  exact EsifData.forall₂_received_same h

end AppParticipantData

namespace AppDomainData

def params (data : AppDomainData) : List Param :=
  [.scalar (.u8 data.fVersion), .scalar (.vec data.fReserved), .inline data.fName,
    .inline data.fDescription, .inline data.fGuid, .scalar (.u32 data.fType),
    .scalar (.u32 data.fCapability), .scalar (.vec data.fCapabilityBytes)]

def members (data : AppDomainData) : List EsifData := [data.fName, data.fDescription, data.fGuid]

def WellFormed (data : AppDomainData) : Prop := ∀ d ∈ data.members, d.WellFormed

def scalars (data : AppDomainData) : AppDomainData :=
  { data with fName := .zero, fDescription := .zero, fGuid := .zero }

structure Same (a b : AppDomainData) : Prop where
  scalars : a.scalars = b.scalars
  members : List.Forall₂ EsifData.Same a.members b.members

def received (data : AppDomainData) : AppDomainData :=
  { data with
    fName := data.fName.received, fDescription := data.fDescription.received
    fGuid := data.fGuid.received }

theorem received_same (data : AppDomainData) (h : data.WellFormed) : data.received.Same data := by
  refine ⟨rfl, ?_⟩
  show List.Forall₂ EsifData.Same (data.members.map EsifData.received) data.members
  exact EsifData.forall₂_received_same h

end AppDomainData

/-! ## Their encoders and decoders -/

/-- `Irpc_Encode_AppData`: the structure, then the path as long as it says. -/
def encodeAppData (blob : IBinary) (data : AppData) : IBinary :=
  let encoded := pack ((castEsifData data.fPathHome 4).fields ++ [.u32 data.fLogLevel])
  let appended := blob.append encoded
  match data.fPathHome.bufPtr with
  | none => appended
  | some buf =>
    if data.fPathHome.dataLen = 0 then appended
    else appended.append (buf.take data.fPathHome.dataLen.toNat)

/-- `Irpc_Decode_AppData`, of the record at `encoded`. -/
def decodeAppData (m : List UInt8) (encoded : Nat) : Option AppData := do
  let fPathHome ← uncastEsifData m encoded (encoded + 16)
  let fLogLevel ← readU32 m (encoded + 16)
  pure ⟨fPathHome, fLogLevel⟩

/-- `Irpc_Encode_AppParticipantData`. -/
def encodeAppParticipantData (blob : IBinary) (data : AppParticipantData) : IBinary :=
  encodeRecord .procRequest blob [] data.params

/-- `Irpc_Decode_AppParticipantData`, of the record at `encoded`. -/
def decodeAppParticipantData (m : List UInt8) (encoded : Nat) : Option AppParticipantData := do
  let fVersion ← readU8 m encoded
  let fReserved ← readVec m (encoded + 1) 3
  let fDriverType ← uncastEsifData m (encoded + 4) (encoded + 20)
  let fDeviceType ← uncastEsifData m (encoded + 20) (encoded + 36)
  let fName ← uncastEsifData m (encoded + 36) (encoded + 52)
  let fDesc ← uncastEsifData m (encoded + 52) (encoded + 68)
  let fDriverName ← uncastEsifData m (encoded + 68) (encoded + 84)
  let fDeviceName ← uncastEsifData m (encoded + 84) (encoded + 100)
  let fDevicePath ← uncastEsifData m (encoded + 100) (encoded + 116)
  let fDomainCount ← readU8 m (encoded + 116)
  let fReserved2 ← readVec m (encoded + 117) 3
  let fBusEnumerator ← readU32 m (encoded + 120)
  let fAcpiDevice ← uncastEsifData m (encoded + 124) (encoded + 140)
  let fAcpiScope ← uncastEsifData m (encoded + 140) (encoded + 156)
  let fAcpiUID ← uncastEsifData m (encoded + 156) (encoded + 172)
  let fAcpiType ← readU32 m (encoded + 172)
  let fPciVendor ← readU16 m (encoded + 176)
  let fPciDevice ← readU16 m (encoded + 178)
  let fPciBus ← readU8 m (encoded + 180)
  let fPciBusDevice ← readU8 m (encoded + 181)
  let fPciFunction ← readU8 m (encoded + 182)
  let fPciRevision ← readU8 m (encoded + 183)
  let fPciClass ← readU8 m (encoded + 184)
  let fPciSubClass ← readU8 m (encoded + 185)
  let fPciProgIf ← readU8 m (encoded + 186)
  let fReserved3 ← readVec m (encoded + 187) 1
  pure ⟨fVersion, fReserved, fDriverType, fDeviceType, fName, fDesc, fDriverName, fDeviceName,
    fDevicePath, fDomainCount, fReserved2, fBusEnumerator, fAcpiDevice, fAcpiScope, fAcpiUID,
    fAcpiType, fPciVendor, fPciDevice, fPciBus, fPciBusDevice, fPciFunction, fPciRevision,
    fPciClass, fPciSubClass, fPciProgIf, fReserved3⟩

/-- `Irpc_Encode_AppDomainData`. -/
def encodeAppDomainData (blob : IBinary) (data : AppDomainData) : IBinary :=
  encodeRecord .procRequest blob [] data.params

/-- `Irpc_Decode_AppDomainData`, of the record at `encoded`. -/
def decodeAppDomainData (m : List UInt8) (encoded : Nat) : Option AppDomainData := do
  let fVersion ← readU8 m encoded
  let fReserved ← readVec m (encoded + 1) 3
  let fName ← uncastEsifData m (encoded + 4) (encoded + 20)
  let fDescription ← uncastEsifData m (encoded + 20) (encoded + 36)
  let fGuid ← uncastEsifData m (encoded + 36) (encoded + 52)
  let fType ← readU32 m (encoded + 52)
  let fCapability ← readU32 m (encoded + 56)
  let fCapabilityBytes ← readVec m (encoded + 60) 32
  pure ⟨fVersion, fReserved, fName, fDescription, fGuid, fType, fCapability, fCapabilityBytes⟩

/-! ## The messages that carry them -/

/-- `Irpc_Encode_EsifIfaceHdr` and the functions of `AppInterfaceSet`: which are set. -/
structure AppInterfaceSet where
  fIfaceType : UInt32
  fIfaceVersion : UInt16
  fIfaceSize : UInt16
  appIface : Vector Bool 15
  esifIface : Vector Bool 8

/-- `IrpcFuncPtr2Id` of an interface: its functions are numbered from `first` on. -/
def funcPtrs2Ids (first : Nat) (iface : List Bool) : List Field :=
  iface.mapIdx fun i isSet => .u32 (if isSet then UInt32.ofNat (first + i) else 0)

/-- `Encoded_AppInterfaceSet`. -/
def AppInterfaceSet.fields (s : AppInterfaceSet) : List Field :=
  [.u32 s.fIfaceType, .u16 s.fIfaceVersion, .u16 s.fIfaceSize] ++
    funcPtrs2Ids 0x40 s.appIface.toList ++ funcPtrs2Ids 0x20 s.esifIface.toList

/-- `IBinary_Append` of a packed structure. -/
def appendFields (fs : List Field) : Appender where
  write blob := blob.append (pack fs)
  bytes := pack fs
  contents_eq blob := blob.contents_append (pack fs)

/-- What the `Irpc_Encode_App…Func` encoders share. -/
def encodeAppFunc (trx : IrpcTransaction) (funcId : UInt32) (params : List Param) :
    Option (IrpcTransaction × Nat) :=
  trx.target.map fun (msgtype, blob) =>
    (trx.setTarget (encodeRecord msgtype blob (irpcHdr msgtype funcId trx) params), blob.getLen)

/-- The bytes of `Irpc_Encode_AppData`. -/
def AppData.bytes (data : AppData) : List UInt8 :=
  pack ((castEsifData data.fPathHome 4).fields ++ [.u32 data.fLogLevel]) ++
    data.fPathHome.bytes.take data.fPathHome.dataLen.toNat

theorem encodeAppData_contents (data : AppData) (blob : IBinary) :
    (encodeAppData blob data).contents = blob.contents ++ data.bytes := by
  unfold encodeAppData AppData.bytes
  cases hbuf : data.fPathHome.bufPtr with
  | none => simp [EsifData.bytes, hbuf]
  | some buf =>
    by_cases hz : data.fPathHome.dataLen = 0
    · simp [hz]
    · simp [hz, EsifData.bytes, hbuf]

/-- The bytes of a structure that is encoded as a record. -/
def recordBytes (params : List Param) : List UInt8 :=
  pack (paramFields .procRequest (widths params) 0 0 params) ++ wires .procRequest params

theorem encodeRecord_recordBytes (params : List Param) (blob : IBinary) :
    (encodeRecord .procRequest blob [] params).contents = blob.contents ++ recordBytes params := by
  rw [encodeRecord_contents]
  simp [recordBytes, hdrSize]

theorem recordBytes_isRecord (params : List Param) :
    IsRecord .procRequest [] params (recordBytes params) := by
  obtain ⟨msg, hcontents, hmsg⟩ := encodeRecord_isRecord .procRequest .create [] params
  rw [encodeRecord_recordBytes] at hcontents
  rwa [List.append_cancel_left hcontents]

/-! ## A codec of a structure -/

/-- An encoder and a decoder: what was encoded decodes wherever it lies, as long as the offsets
in it fit. -/
structure StructCodec (α : Type) where
  encode : IBinary → α → IBinary
  bytes : α → List UInt8
  decode : List UInt8 → Nat → Option α
  WellFormed : α → Prop
  Same : α → α → Prop
  encode_contents : ∀ data blob, (encode blob data).contents = blob.contents ++ bytes data
  decode_bytes : ∀ {data : α} {m : List UInt8} {base : Nat}, WellFormed data →
    (bytes data).length < 2 ^ 32 → HasAt m base (bytes data) →
      ∃ data', decode m base = some data' ∧ Same data' data

/-- A structure as something a message can point to. -/
def StructCodec.appender {α : Type} (c : StructCodec α) (data : α) : Appender where
  write blob := c.encode blob data
  bytes := c.bytes data
  contents_eq := c.encode_contents data

/-- **Alone in a blob**, whatever stands before it and is appended after it. -/
theorem StructCodec.alone {α : Type} (c : StructCodec α) {data : α} (hwf : c.WellFormed data)
    (blob : IBinary) (hfit : (c.encode blob data).getLen < blob.getLen + 2 ^ 32)
    (after : List UInt8) : ∃ data',
      c.decode ((c.encode blob data).contents ++ after) blob.getLen = some data' ∧
        c.Same data' data := by
  have hcontents := c.encode_contents data blob
  have hlen : (c.encode blob data).getLen = blob.getLen + (c.bytes data).length := by
    rw [← IBinary.length_contents, hcontents, List.length_append, IBinary.length_contents]
  apply c.decode_bytes hwf (by omega)
  rw [hcontents, ← IBinary.length_contents]
  exact hasAt_append _ _ _

/-- The structure a field of a message points to. -/
def StructCodec.pointed {α : Type} (c : StructCodec α) (m : List UInt8) (field : Nat) :
    Option α := do
  let offset ← readU32 m field
  c.decode m (field + 4 + offset.toNat)

/-- **Behind a message**, where the message points. -/
theorem StructCodec.inMessage {α : Type} (c : StructCodec α) {data : α}
    (hwf : c.WellFormed data) {trx : IrpcTransaction} {blob : IBinary}
    (htrx : trx.target = some (.procRequest, blob)) (funcId : UInt32) (before after : List Param)
    (hwfs : ∀ q ∈ before ++ .constNested (some (c.appender data)) :: after, q.WellFormed)
    {field : Nat} (hfield : 34 + widths before = field) :
    ∃ trx' blob', encodeAppFunc trx funcId
        (before ++ .constNested (some (c.appender data)) :: after) = some (trx', blob.getLen) ∧
      trx'.request = some blob' ∧
      (blob'.getLen < blob.getLen + 2 ^ 32 → ∀ behind, ∃ data',
        c.pointed (blob'.contents ++ behind) (blob.getLen + field) = some data' ∧
          c.Same data' data) := by
  generalize hparams : before ++ .constNested (some (c.appender data)) :: after = params at hwfs ⊢
  obtain ⟨msg, hcontents, hmsg⟩ := encodeRecord_isRecord .procRequest blob
    (irpcHdr .procRequest funcId trx) params
  have hencode : encodeAppFunc trx funcId params = some (trx.setTarget
      (encodeRecord .procRequest blob (irpcHdr .procRequest funcId trx) params), blob.getLen) := by
    simp [encodeAppFunc, htrx]
  generalize encodeRecord .procRequest blob (irpcHdr .procRequest funcId trx) params = blob'
    at hcontents hencode
  have hrequest : (trx.setTarget blob').request = some blob' := by
    cases hresponse : trx.response with
    | none => simp [IrpcTransaction.setTarget, hresponse]
    | some answered => simp [IrpcTransaction.target, hresponse] at htrx
  refine ⟨_, blob', hencode, hrequest, ?_⟩
  intro hfit behind
  have hlen : blob'.getLen = blob.getLen + msg.length := by
    rw [← IBinary.length_contents, hcontents, List.length_append, IBinary.length_contents]
  have hmsgFit : msg.length < 2 ^ 32 := by omega
  have hat : HasAt (blob'.contents ++ behind) blob.getLen msg := by
    rw [hcontents, ← IBinary.length_contents]
    exact hasAt_append _ _ _
  obtain ⟨offset, hread, hnested⟩ := hmsg.nested_at hat hwfs hmsgFit before hparams.symm
  have hpos : hdrSize (irpcHdr .procRequest funcId trx) + widths before = field := hfield
  rw [hpos] at hread hnested
  have hbytes : (c.bytes data).length ≤ msg.length := by
    have hwires : wires .procRequest params = wires .procRequest before ++
        (c.bytes data ++ wires .procRequest after) := by
      rw [← hparams]
      simp [wires, Param.wire, StructCodec.appender]
    have hmsgLen := hmsg.length_eq
    rw [hwires] at hmsgLen
    simp only [List.length_append] at hmsgLen
    omega
  obtain ⟨data', hdecode, hsame⟩ := c.decode_bytes hwf (by omega) hnested
  exact ⟨data', by simp [pointed, hread, hdecode], hsame⟩

/-! ### The three of them -/

theorem AppData.bytes_eq {data : AppData} (h : data.WellFormed) :
    data.bytes = recordBytes data.params := by
  have hpayload : data.fPathHome.payload =
      data.fPathHome.bytes.take data.fPathHome.dataLen.toNat := by
    simp [EsifData.payload, EsifData.WellFormed.dataLen_le h]
  rw [AppData.bytes, ← hpayload]
  simp [recordBytes, AppData.params, paramFields, widths, wires, Param.width, Param.fields,
    Param.wire]

/-- `AppData`. -/
def appDataCodec : StructCodec AppData where
  encode := encodeAppData
  bytes := AppData.bytes
  decode := decodeAppData
  WellFormed := AppData.WellFormed
  Same := AppData.Same
  encode_contents := encodeAppData_contents
  decode_bytes := by
    intro data m base h hfit hat
    rw [AppData.bytes_eq h] at hfit hat
    have hrec := recordBytes_isRecord data.params
    have hwf : ∀ q ∈ data.params, q.WellFormed := by
      simp only [AppData.params, List.forall_mem_cons]
      exact ⟨h, trivial, by simp⟩
    have hdecodes : Decodes m base 0 data.params := hrec.decodes hat hwf hfit
    simp only [AppData.params, Decodes, Param.DecodesAt, Param.width, Nat.add_zero,
      Nat.zero_add] at hdecodes
    obtain ⟨hfPathHome, hfLogLevel, -⟩ := hdecodes
    refine ⟨data.received, ?_, h.toHasBuffer.received_same, rfl⟩
    simp [decodeAppData, hfPathHome, hfLogLevel.readU32, AppData.received]

/-- `AppDomainData`. -/
def appDomainDataCodec : StructCodec AppDomainData where
  encode := encodeAppDomainData
  bytes data := recordBytes data.params
  decode := decodeAppDomainData
  WellFormed := AppDomainData.WellFormed
  Same := AppDomainData.Same
  encode_contents data := encodeRecord_recordBytes data.params
  decode_bytes := by
    intro data m base h hfit hat
    have hrec := recordBytes_isRecord data.params
    have hwf : ∀ q ∈ data.params, q.WellFormed := by
      have hmembers := h
      simp only [AppDomainData.WellFormed, AppDomainData.members, List.forall_mem_cons] at hmembers
      simpa [AppDomainData.params, Param.WellFormed] using hmembers
    have hdecodes : Decodes m base 0 data.params := hrec.decodes hat hwf hfit
    simp only [AppDomainData.params, Decodes, Param.DecodesAt, Param.width, Field.width_u8,
      Field.width_u32, Field.width_vec, Nat.add_zero, Nat.zero_add, Nat.reduceAdd] at hdecodes
    obtain ⟨hfVersion, hfReserved, hfName, hfDescription, hfGuid, hfType, hfCapability,
      hfCapabilityBytes, -⟩ := hdecodes
    refine ⟨data.received, ?_, data.received_same h⟩
    simp [decodeAppDomainData, hfVersion.readU8, hfReserved.readVec, hfName, hfDescription, hfGuid,
      hfType.readU32, hfCapability.readU32, hfCapabilityBytes.readVec, AppDomainData.received]

theorem decodeAppParticipantData_bytes {data : AppParticipantData} {m : List UInt8} {base : Nat}
    (h : data.WellFormed) (hfit : (recordBytes data.params).length < 2 ^ 32)
    (hat : HasAt m base (recordBytes data.params)) :
    decodeAppParticipantData m base = some data.received := by
  have hrec := recordBytes_isRecord data.params
  have hwf : ∀ q ∈ data.params, q.WellFormed := by
    have hmembers := h
    simp only [AppParticipantData.WellFormed, AppParticipantData.members,
      List.forall_mem_cons] at hmembers
    simpa [AppParticipantData.params, Param.WellFormed] using hmembers
  have hdecodes : Decodes m base 0 data.params := hrec.decodes hat hwf hfit
  simp only [AppParticipantData.params, Decodes, Param.DecodesAt, Param.width, Field.width_u8,
    Field.width_u16, Field.width_u32, Field.width_vec, Nat.add_zero, Nat.zero_add,
    Nat.reduceAdd] at hdecodes
  obtain ⟨hfVersion, hfReserved, hfDriverType, hfDeviceType, hfName, hfDesc, hfDriverName,
    hfDeviceName, hfDevicePath, hfDomainCount, hfReserved2, hfBusEnumerator, hfAcpiDevice,
    hfAcpiScope, hfAcpiUID, hfAcpiType, hfPciVendor, hfPciDevice, hfPciBus, hfPciBusDevice,
    hfPciFunction, hfPciRevision, hfPciClass, hfPciSubClass, hfPciProgIf, hfReserved3, -⟩ := hdecodes
  simp [decodeAppParticipantData, hfVersion.readU8, hfReserved.readVec, hfDriverType, hfDeviceType,
    hfName, hfDesc, hfDriverName, hfDeviceName, hfDevicePath, hfDomainCount.readU8,
    hfReserved2.readVec, hfBusEnumerator.readU32, hfAcpiDevice, hfAcpiScope, hfAcpiUID,
    hfAcpiType.readU32, hfPciVendor.readU16, hfPciDevice.readU16, hfPciBus.readU8,
    hfPciBusDevice.readU8, hfPciFunction.readU8, hfPciRevision.readU8, hfPciClass.readU8,
    hfPciSubClass.readU8, hfPciProgIf.readU8, hfReserved3.readVec, AppParticipantData.received]

/-- `AppParticipantData`. -/
def appParticipantDataCodec : StructCodec AppParticipantData where
  encode := encodeAppParticipantData
  bytes data := recordBytes data.params
  decode := decodeAppParticipantData
  WellFormed := AppParticipantData.WellFormed
  Same := AppParticipantData.Same
  encode_contents data := encodeRecord_recordBytes data.params
  decode_bytes h hfit hat :=
    ⟨_, decodeAppParticipantData_bytes h hfit hat, AppParticipantData.received_same _ h⟩

/-! ## The messages -/

/-- `Irpc_Encode_AppCreateFunc`. -/
def encodeAppCreateFunc (trx : IrpcTransaction) (ifaceSet : Option AppInterfaceSet)
    (esifHandle : EsifHandle) (appHandle : Option EsifHandle) (appData : Option AppData)
    (initialAppState : UInt32) : Option (IrpcTransaction × Nat) :=
  encodeAppFunc trx Func.appCreate
    [.scalar (.u32 esifOk), .nested (ifaceSet.map fun set => appendFields set.fields),
      .scalar (.u64 esifHandle), .nested (appHandle.map fun handle => appendFields [.u64 handle]),
      .constNested (appData.map appDataCodec.appender), .scalar (.u32 initialAppState)]

/-- `Irpc_Encode_AppParticipantCreateFunc`. -/
def encodeAppParticipantCreateFunc (trx : IrpcTransaction) (appHandle participantHandle : EsifHandle)
    (participantData : Option AppParticipantData) (participantInitialState : UInt32) :
    Option (IrpcTransaction × Nat) :=
  encodeAppFunc trx Func.appParticipantCreate
    [.scalar (.u32 esifOk), .scalar (.u64 appHandle), .scalar (.u64 participantHandle),
      .constNested (participantData.map appParticipantDataCodec.appender),
      .scalar (.u32 participantInitialState)]

/-- `Irpc_Encode_AppDomainCreateFunc`. -/
def encodeAppDomainCreateFunc (trx : IrpcTransaction)
    (appHandle participantHandle domainHandle : EsifHandle) (domainData : Option AppDomainData)
    (domainInitialState : UInt32) : Option (IrpcTransaction × Nat) :=
  encodeAppFunc trx Func.appDomainCreate
    [.scalar (.u32 esifOk), .scalar (.u64 appHandle), .scalar (.u64 participantHandle),
      .scalar (.u64 domainHandle), .constNested (domainData.map appDomainDataCodec.appender),
      .scalar (.u32 domainInitialState)]

section Responses

variable (m : List UInt8) (ipcbuf : Nat)

/-- `decoded_appData` of `Irpc_Response_AppCreate`. -/
def responseAppCreateData : Option AppData := do
  let offset ← readU32 m (ipcbuf + 54)
  decodeAppData m (ipcbuf + 54 + 4 + offset.toNat)

/-- `decoded_participantData` of `Irpc_Response_AppParticipantCreate`. -/
def responseAppParticipantCreateData : Option AppParticipantData := do
  let offset ← readU32 m (ipcbuf + 54)
  decodeAppParticipantData m (ipcbuf + 54 + 4 + offset.toNat)

/-- `decoded_domainDataPtr` of `Irpc_Response_AppDomainCreate`. -/
def responseAppDomainCreateData : Option AppDomainData := do
  let offset ← readU32 m (ipcbuf + 62)
  decodeAppDomainData m (ipcbuf + 62 + 4 + offset.toNat)

end Responses

/-! ## The round trips -/

/-- **Every structure decodes to what was encoded**, at any position of a blob, alone and behind
its message, as long as less than 2^32 bytes were appended. -/
theorem app_structures_round_trip (blob : IBinary) (after : List UInt8) :
    (∀ data : AppData, data.WellFormed →
      ((encodeAppData blob data).getLen < blob.getLen + 2 ^ 32 → ∃ data',
        decodeAppData ((encodeAppData blob data).contents ++ after) blob.getLen = some data' ∧
          data'.Same data) ∧
      ∀ trx ifaceSet esifHandle appHandle state, trx.target = some (.procRequest, blob) →
        ∃ trx' blob', encodeAppCreateFunc trx ifaceSet esifHandle appHandle (some data) state =
            some (trx', blob.getLen) ∧ trx'.request = some blob' ∧
          (blob'.getLen < blob.getLen + 2 ^ 32 → ∃ data',
            responseAppCreateData (blob'.contents ++ after) blob.getLen = some data' ∧
              data'.Same data)) ∧
    (∀ data : AppParticipantData, data.WellFormed →
      ((encodeAppParticipantData blob data).getLen < blob.getLen + 2 ^ 32 → ∃ data',
        decodeAppParticipantData ((encodeAppParticipantData blob data).contents ++ after)
          blob.getLen = some data' ∧ data'.Same data) ∧
      ∀ trx appHandle participantHandle state, trx.target = some (.procRequest, blob) →
        ∃ trx' blob', encodeAppParticipantCreateFunc trx appHandle participantHandle (some data)
            state = some (trx', blob.getLen) ∧ trx'.request = some blob' ∧
          (blob'.getLen < blob.getLen + 2 ^ 32 → ∃ data',
            responseAppParticipantCreateData (blob'.contents ++ after) blob.getLen = some data' ∧
              data'.Same data)) ∧
    ∀ data : AppDomainData, data.WellFormed →
      ((encodeAppDomainData blob data).getLen < blob.getLen + 2 ^ 32 → ∃ data',
        decodeAppDomainData ((encodeAppDomainData blob data).contents ++ after) blob.getLen =
          some data' ∧ data'.Same data) ∧
      ∀ trx appHandle participantHandle domainHandle state,
        trx.target = some (.procRequest, blob) →
        ∃ trx' blob', encodeAppDomainCreateFunc trx appHandle participantHandle domainHandle
            (some data) state = some (trx', blob.getLen) ∧ trx'.request = some blob' ∧
          (blob'.getLen < blob.getLen + 2 ^ 32 → ∃ data',
            responseAppDomainCreateData (blob'.contents ++ after) blob.getLen = some data' ∧
              data'.Same data) := by
  refine ⟨?app, ?participant, ?domain⟩
  case app =>
    intro data hwf
    refine ⟨fun hfit => appDataCodec.alone hwf blob hfit after, ?_⟩
    intro trx ifaceSet esifHandle appHandle state htrx
    obtain ⟨trx', blob', hencode, hrequest, hdecode⟩ := appDataCodec.inMessage hwf htrx
      Func.appCreate [.scalar (.u32 esifOk), .nested (ifaceSet.map fun set => appendFields set.fields),
        .scalar (.u64 esifHandle), .nested (appHandle.map fun handle => appendFields [.u64 handle])]
      [.scalar (.u32 state)] (by simp [Param.WellFormed]) rfl
    exact ⟨trx', blob', hencode, hrequest, fun hfit => hdecode hfit after⟩
  case participant =>
    intro data hwf
    refine ⟨fun hfit => appParticipantDataCodec.alone hwf blob hfit after, ?_⟩
    intro trx appHandle participantHandle state htrx
    obtain ⟨trx', blob', hencode, hrequest, hdecode⟩ := appParticipantDataCodec.inMessage hwf htrx
      Func.appParticipantCreate [.scalar (.u32 esifOk), .scalar (.u64 appHandle),
        .scalar (.u64 participantHandle)]
      [.scalar (.u32 state)] (by simp [Param.WellFormed]) rfl
    exact ⟨trx', blob', hencode, hrequest, fun hfit => hdecode hfit after⟩
  case domain =>
    intro data hwf
    refine ⟨fun hfit => appDomainDataCodec.alone hwf blob hfit after, ?_⟩
    intro trx appHandle participantHandle domainHandle state htrx
    obtain ⟨trx', blob', hencode, hrequest, hdecode⟩ := appDomainDataCodec.inMessage hwf htrx
      Func.appDomainCreate [.scalar (.u32 esifOk), .scalar (.u64 appHandle),
        .scalar (.u64 participantHandle), .scalar (.u64 domainHandle)]
      [.scalar (.u32 state)] (by simp [Param.WellFormed]) rfl
    exact ⟨trx', blob', hencode, hrequest, fun hfit => hdecode hfit after⟩

/-- A domain whose name takes two bytes, behind one byte of a blob. -/
theorem app_structures_round_trip_domain :
    ∃ data', decodeAppDomainData ((encodeAppDomainData (IBinary.create.append [7])
        ⟨1, Vector.replicate 3 0, ⟨8, some [0x41, 0], 2, 2⟩, .zero, .zero, 5, 6,
          Vector.replicate 32 9⟩).contents ++ []) 1 = some data' ∧
      data'.Same ⟨1, Vector.replicate 3 0, ⟨8, some [0x41, 0], 2, 2⟩, .zero, .zero, 5, 6,
        Vector.replicate 32 9⟩ := by
  have hname : EsifData.WellFormed ⟨8, some [0x41, 0], 2, 2⟩ :=
    ⟨⟨by decide, by rintro _ ⟨⟩; rfl⟩, by decide⟩
  have hzero : EsifData.zero.WellFormed := ⟨⟨by decide, by rintro _ ⟨⟩⟩, by decide⟩
  refine ((app_structures_round_trip (IBinary.create.append [7]) []).2.2 _ ?_).1 (by decide +kernel)
  simpa [AppDomainData.WellFormed, AppDomainData.members] using ⟨hname, hzero⟩

/-- `n` zero bytes. -/
def zeroBytes (n : UInt32) : EsifData := ⟨0, some (List.replicate n.toNat 0), n, n⟩

theorem zeroBytes_wellFormed {n : UInt32} (hn : n ≠ 0) : (zeroBytes n).WellFormed where
  null_iff := by
    constructor
    · intro h
      cases h
    · intro h
      exact absurd h hn
  length_eq bytes h := by
    rw [← Option.some.inj h, List.length_replicate]
    rfl
  dataLen_le := UInt32.le_refl n

theorem payload_zeroBytes (n : UInt32) : (zeroBytes n).payload = List.replicate n.toNat 0 := by
  simp [EsifData.payload, EsifData.bytes, zeroBytes]

/-- A domain whose first two members have `n` bytes of data each. -/
def domainWithZeros (n : UInt32) : AppDomainData :=
  ⟨0, Vector.replicate 3 0, zeroBytes n, zeroBytes n, ⟨0, some [1], 1, 1⟩, 0, 0,
    Vector.replicate 32 0⟩

theorem decodeAppDomainData_fGuid {m : List UInt8} {encoded : Nat} {data : AppDomainData}
    (h : decodeAppDomainData m encoded = some data) :
    uncastEsifData m (encoded + 36) (encoded + 52) = some data.fGuid := by
  simp only [decodeAppDomainData, Option.bind_eq_bind, Option.bind_eq_some_iff] at h
  obtain ⟨_, -, _, -, _, -, _, -, fGuid, hfGuid, _, -, _, -, _, -, hdata⟩ := h
  cases hdata
  exact hfGuid

/-- When the first two members fill the range of an offset, the third is read from the data of
the first. -/
theorem domainWithZeros_fGuid {n : UInt32} (hn : n ≠ 0) (hwrap : 2 * n.toNat = 2 ^ 32)
    (blob : IBinary) : uncastEsifData (encodeAppDomainData blob (domainWithZeros n)).contents
      (blob.getLen + 36) (blob.getLen + 52) = some ⟨0, some [0], 1, 1⟩ := by
  have hrec := recordBytes_isRecord (domainWithZeros n).params
  have hat : HasAt (encodeAppDomainData blob (domainWithZeros n)).contents blob.getLen
      (recordBytes (domainWithZeros n).params) := by
    rw [encodeAppDomainData, encodeRecord_recordBytes, ← IBinary.length_contents]
    simpa using hasAt_append blob.contents (recordBytes (domainWithZeros n).params) []
  have hbefore : ∀ q ∈ [Param.scalar (.u8 0), .scalar (.vec (Vector.replicate 3 0)),
      .inline (zeroBytes n), .inline (zeroBytes n)], q.WellFormed := by
    simpa [Param.WellFormed] using zeroBytes_wellFormed hn
  have hfields := hat.trans (hrec.fields _ (.inline ⟨0, some [1], 1, 1⟩) _ rfl hbefore)
  have hwire := hat.trans (hrec.wire [.scalar (.u8 0), .scalar (.vec (Vector.replicate 3 0))]
    (.inline (zeroBytes n)) _ rfl)
  -- 40 bytes from the end of `fGuid` to the end of the record, and `2^32` bytes of data.
  have hoffset : recordedOffset .procRequest [] (domainWithZeros n).params
      [Param.scalar (.u8 0), .scalar (.vec (Vector.replicate 3 0)), .inline (zeroBytes n),
        .inline (zeroBytes n)] (.inline ⟨0, some [1], 1, 1⟩) = 40 := by
    have hlen : (wires .procRequest [Param.scalar (.u8 0), .scalar (.vec (Vector.replicate 3 0)),
        .inline (zeroBytes n), .inline (zeroBytes n)]).length = 2 ^ 32 := by
      simp only [wires, List.flatMap_cons, List.flatMap_nil, Param.wire, payload_zeroBytes,
        List.length_append, List.length_replicate, List.length_nil]
      omega
    have hbehind : hdrSize [] + widths (domainWithZeros n).params - (hdrSize [] +
        widths [Param.scalar (.u8 0), .scalar (.vec (Vector.replicate 3 0)),
          .inline (zeroBytes n), .inline (zeroBytes n)] +
        (Param.inline ⟨0, some [1], 1, 1⟩).width) = 40 := rfl
    rw [recordedOffset, hlen, hbehind]
    decide
  have hfirst : HasAt (List.replicate n.toNat (0 : UInt8)) 0 [0] := by
    obtain ⟨k, hk⟩ : ∃ k, n.toNat = k + 1 := ⟨n.toNat - 1, by omega⟩
    rw [hk, List.replicate_succ]
    exact hasAt_append [] [0] _
  rw [hoffset] at hfields
  rw [Param.wire, payload_zeroBytes] at hwire
  have hrecord : hdrSize [] + widths (domainWithZeros n).params + (wires .procRequest
      [Param.scalar (.u8 0), .scalar (.vec (Vector.replicate 3 0))]).length = 92 := rfl
  have hplace : blob.getLen + 92 + 0 = blob.getLen + 52 + (40 : UInt32).toNat := by
    simp [Nat.add_assoc]
  have hdata := hwire.trans hfirst
  rw [hrecord, hplace] at hdata
  exact uncastEsifData_payload (d := ⟨0, some [0], 1, 1⟩) hfields hdata
    ⟨by decide, by rintro _ ⟨⟩; rfl⟩

/-- **The offsets wrap at `2^32`**, so a structure as large as that does not arrive. -/
theorem app_domain_data_wraps : ∃ (blob : IBinary) (data : AppDomainData), blob.contents ≠ [] ∧
    data.WellFormed ∧ ¬ ∃ data',
      decodeAppDomainData (encodeAppDomainData blob data).contents blob.getLen = some data' ∧
        data'.Same data := by
  have hn : (0x80000000 : UInt32) ≠ 0 := by decide
  refine ⟨IBinary.create.append [7], domainWithZeros 0x80000000, by simp, ?_, ?_⟩
  · have hguid : EsifData.WellFormed ⟨0, some [1], 1, 1⟩ :=
      ⟨⟨by decide, by rintro _ ⟨⟩; rfl⟩, by decide⟩
    have hzeros := zeroBytes_wellFormed hn
    simp only [AppDomainData.WellFormed, AppDomainData.members, List.forall_mem_cons]
    exact ⟨hzeros, hzeros, hguid, by simp⟩
  · rintro ⟨data', hdecode, hsame⟩
    have hguid := decodeAppDomainData_fGuid hdecode
    rw [domainWithZeros_fGuid hn (by decide)] at hguid
    have hmembers := hsame.members
    simp only [AppDomainData.members, List.forall₂_cons] at hmembers
    have hpayload := hmembers.2.2.1.payload_eq
    rw [← Option.some.inj hguid] at hpayload
    exact absurd hpayload (by decide)

end Irpc

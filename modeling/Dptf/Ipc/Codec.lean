import Dptf.Common.EsifData
import Dptf.Ipc.IBinary

/-!
# `EsifData` on the wire

`ipf_ipc_codec` turns a typed buffer into a packed header and its data, and a
parameter into the offset from the end of its own field to that header.

* `encodeEsifData`, `decodeEsifData` — the pair for a structure on its own, which the
  two programs do not call.  `roundTripsEncoded_iff` says when it works.
-/

open Lib

/-! ## Well-formed data, and what two of them share -/

namespace EsifData

variable {d : EsifData}

/-- The buffer is there when the capacity says so, and as long as it says. -/
structure HasBuffer (d : EsifData) : Prop where
  null_iff : d.bufPtr = none ↔ d.bufLen = 0
  length_eq : ∀ bytes, d.bufPtr = some bytes → bytes.length = d.bufLen.toNat

/-- A buffer as its capacity says, with the data inside. -/
structure WellFormed (d : EsifData) : Prop extends d.HasBuffer where
  dataLen_le : d.dataLen ≤ d.bufLen

/-- The bytes of the buffer, none for a null pointer. -/
def bytes (d : EsifData) : List UInt8 := d.bufPtr.getD []

/-- The first `data_len` bytes when they fit, nothing otherwise. -/
def payload (d : EsifData) : List UInt8 :=
  if d.dataLen ≤ d.bufLen then d.bytes.take d.dataLen.toNat else []

/-- Two structures a reader of the data cannot tell apart: they differ at most in the
buffer bytes behind it. -/
structure Same (d d' : EsifData) : Prop where
  type_eq : d.type = d'.type
  bufLen_eq : d.bufLen = d'.bufLen
  dataLen_eq : d.dataLen = d'.dataLen
  null_iff : d.bufPtr = none ↔ d'.bufPtr = none
  payload_eq : d.payload = d'.payload

theorem Same.trans {a b c : EsifData} (h : a.Same b) (h' : b.Same c) : a.Same c :=
  ⟨h.type_eq.trans h'.type_eq, h.bufLen_eq.trans h'.bufLen_eq, h.dataLen_eq.trans h'.dataLen_eq,
    h.null_iff.trans h'.null_iff, h.payload_eq.trans h'.payload_eq⟩

theorem HasBuffer.length_bytes (h : d.HasBuffer) : d.bytes.length = d.bufLen.toNat := by
  cases hbuf : d.bufPtr with
  | none => simp [bytes, hbuf, h.null_iff.mp hbuf]
  | some bs => simp [bytes, hbuf, h.length_eq bs hbuf]

theorem HasBuffer.length_payload (h : d.HasBuffer) :
    d.payload.length = if d.dataLen ≤ d.bufLen then d.dataLen.toNat else 0 := by
  unfold payload
  split
  case isTrue hle =>
    have hnat : d.dataLen.toNat ≤ d.bufLen.toNat := UInt32.le_iff_toNat_le.mp hle
    rw [List.length_take, h.length_bytes, Nat.min_eq_left hnat]
  case isFalse => rfl

theorem WellFormed.length_payload (h : d.WellFormed) : d.payload.length = d.dataLen.toNat := by
  rw [h.toHasBuffer.length_payload, if_pos h.dataLen_le]

/-- What the other side holds after decoding: a zero-filled buffer of the same capacity with
the data copied in. -/
def received (d : EsifData) : EsifData :=
  { d with bufPtr :=
      if d.bufLen = 0 then none
      else some (d.payload ++ List.replicate (d.bufLen.toNat - d.payload.length) 0) }

theorem HasBuffer.received (h : d.HasBuffer) : d.received.HasBuffer := by
  have hlen := h.length_payload
  have hle : d.payload.length ≤ d.bufLen.toNat := by
    rw [hlen]
    split
    case isTrue hd => exact UInt32.le_iff_toNat_le.mp hd
    case isFalse => exact Nat.zero_le _
  unfold EsifData.received
  by_cases hz : d.bufLen = 0
  · constructor <;> simp [hz]
  · constructor
    · simp [hz]
    · intro bs hbs
      simp only [if_neg hz, Option.some.injEq] at hbs
      show bs.length = d.bufLen.toNat
      rw [← hbs, List.length_append, List.length_replicate]
      omega

/-- **Only the bytes behind the data can change on the way.** -/
theorem HasBuffer.received_same (h : d.HasBuffer) : d.received.Same d := by
  refine ⟨rfl, rfl, rfl, ?_, ?_⟩
  · rw [h.null_iff, h.received.null_iff]
    rfl
  · show (if d.dataLen ≤ d.bufLen then d.received.bytes.take d.dataLen.toNat else []) = d.payload
    have hlen := h.length_payload
    by_cases hle : d.dataLen ≤ d.bufLen
    · rw [if_pos hle] at hlen ⊢
      by_cases hz : d.bufLen = 0
      · have hnil : d.payload = [] := by
          have hd : d.dataLen.toNat ≤ d.bufLen.toNat := UInt32.le_iff_toNat_le.mp hle
          apply List.eq_nil_of_length_eq_zero
          rw [hlen]
          simpa [hz] using hd
        simp [bytes, EsifData.received, hz, hnil]
      · simp only [bytes, EsifData.received, if_neg hz, Option.getD_some]
        rw [← hlen, List.take_left']
        rfl
    · simp [payload, hle]

/-- `{ 0 }`, the structure the handlers start from. -/
def zero : EsifData := ⟨0, none, 0, 0⟩

end EsifData

namespace Irpc

/-- `IRPC_NULLVALUE`. -/
def nullValue : UInt32 := 0xFFFFFFFF

/-- `IRPC_MAXARRAY`. -/
def maxArray : UInt32 := 1024

/-! ## Encoding -/

/-- `Encoded_EsifData`, packed in 16 bytes. -/
structure EncodedEsifData where
  type : UInt32
  bufLen : UInt32
  dataLen : UInt32
  /-- From the end of this field to the data. -/
  offset : UInt32

namespace EncodedEsifData

def fields (e : EncodedEsifData) : List Field :=
  [.u32 e.type, .u32 e.bufLen, .u32 e.dataLen, .u32 e.offset]

def bytes (e : EncodedEsifData) : List UInt8 := pack e.fields

/-- `sizeof(Encoded_EsifData)`. -/
def size : Nat := 16

@[simp] theorem length_bytes (e : EncodedEsifData) : e.bytes.length = size := by
  rw [bytes, length_pack]
  rfl

end EncodedEsifData

/-- `Irpc_Cast_EsifData`. -/
def castEsifData (data : EsifData) (offset : UInt32) : EncodedEsifData :=
  ⟨data.type, data.bufLen, data.dataLen, offset⟩

/-- `Irpc_Serialize_EsifData`: the blob, the header with its offset moved on, and how many
bytes are counted. -/
def serializeEsifData (blob : IBinary) (data : EsifData) (encoded : EncodedEsifData)
    (varbinary : Nat) : IBinary × EncodedEsifData × Nat :=
  let moved := { encoded with offset := encoded.offset + UInt32.ofNat varbinary }
  match data.bufPtr with
  | none => (blob, moved, data.dataLen.toNat)
  | some buf =>
    if data.dataLen = 0 then (blob, moved, data.dataLen.toNat)
    else if data.dataLen ≤ data.bufLen then
      (blob.append (buf.take data.dataLen.toNat), moved, data.dataLen.toNat)
    else (blob, moved, 0)

/-- `Irpc_Serialize_EsifDataPtr`: the blob, the parameter's offset, the bytes counted. -/
def serializeEsifDataPtr (blob : IBinary) (data : Option EsifData) (encoded : UInt32)
    (offsetof varbinary : Nat) : IBinary × UInt32 × Nat :=
  match data with
  | none => (blob, encoded, 0)
  | some d =>
    let encodedData := castEsifData d 0
    let appended := blob.append encodedData.bytes
    let (blob', _, bytes) := serializeEsifData appended d encodedData 0
    (blob', UInt32.ofNat (offsetof + varbinary), EncodedEsifData.size + bytes)

/-- The loop of `Irpc_Serialize_EsifDataArray`. -/
def serializeElements (blob : IBinary) : List EsifData → IBinary × Nat
  | [] => (blob, 0)
  | d :: ds =>
    let encodedData := castEsifData d 0
    let appended := blob.append encodedData.bytes
    let (blob', _, bytes) := serializeEsifData appended d encodedData 0
    let (blob'', rest) := serializeElements blob' ds
    (blob'', EncodedEsifData.size + bytes + rest)

/-- `Irpc_Serialize_EsifDataArray`. -/
def serializeEsifDataArray (blob : IBinary) (data : Option (List EsifData)) (arrayLen : UInt32)
    (encoded : UInt32) (offsetof varbinary : Nat) : IBinary × UInt32 × Nat :=
  match data with
  | none => (blob, encoded, 0)
  | some ds =>
    if arrayLen ≠ 0 ∧ arrayLen < maxArray then
      let (blob', bytes) := serializeElements blob (ds.take arrayLen.toNat)
      (blob', UInt32.ofNat (offsetof + varbinary), bytes)
    else (blob, encoded, 0)

/-! ## Decoding -/

section Decoding

variable (m : List UInt8)

/-- `Irpc_Deserialize_EsifData` with no buffer given, as all its callers do: the header lies at
`encoded`, its data at the offset behind `offsetfrom`. -/
def deserializeEsifData (encoded offsetfrom : Nat) : Option (Option (List UInt8)) := do
  let bufLen ← readU32 m (encoded + 4)
  if bufLen = 0 then pure none
  else
    let dataLen ← readU32 m (encoded + 8)
    if dataLen ≤ bufLen then
      let offset ← readU32 m (encoded + 12)
      let data ← readAt m (offsetfrom + offset.toNat) dataLen.toNat
      pure (some (data ++ List.replicate (bufLen.toNat - dataLen.toNat) 0))
    else pure (some (List.replicate bufLen.toNat 0))

/-- `Irpc_Uncast_EsifData` of the header at `encoded`, with the buffer decoded behind
`offsetfrom`. -/
def uncastEsifData (encoded offsetfrom : Nat) : Option EsifData := do
  let type ← readU32 m encoded
  let bufLen ← readU32 m (encoded + 4)
  let dataLen ← readU32 m (encoded + 8)
  let bufPtr ← deserializeEsifData m encoded offsetfrom
  pure ⟨type, bufPtr, bufLen, dataLen⟩

/-- `Irpc_Deserialize_EsifDataPtr`: a null offset leaves `into` as it is. -/
def deserializeEsifDataPtr (into : Option EsifData) (encoded offsetfrom : Nat) :
    Option (Option EsifData) := do
  let offset ← readU32 m encoded
  if offset = nullValue then pure into
  else
    let encodedData := offsetfrom + offset.toNat
    let data ← uncastEsifData m encodedData (encodedData + EncodedEsifData.size)
    pure (some data)

/-- The loop of `Irpc_Deserialize_EsifDataArray`: the next header is expected behind the data
that this one claims to have. -/
def deserializeElements : Nat → Nat → Option (List EsifData)
  | 0, _ => some []
  | n + 1, encodedData => do
    let data ← uncastEsifData m encodedData (encodedData + EncodedEsifData.size)
    let rest ← deserializeElements n (encodedData + EncodedEsifData.size + data.dataLen.toNat)
    pure (data :: rest)

/-- `Irpc_Deserialize_EsifDataArray` with no array given. -/
def deserializeEsifDataArray (arrayLen : UInt32) (encoded offsetfrom : Nat) :
    Option (Option (List EsifData)) :=
  if arrayLen ≠ 0 ∧ arrayLen < maxArray then do
    let offset ← readU32 m encoded
    if offset = nullValue then pure none
    else
      let elements ← deserializeElements m arrayLen.toNat (offsetfrom + offset.toNat)
      pure (some elements)
  else some none

end Decoding

/-! ## What the encoders append -/

/-- A structure on the wire: its header, with offset zero, and its data behind it. -/
def wire (d : EsifData) : List UInt8 := (castEsifData d 0).bytes ++ d.payload

theorem length_wire {d : EsifData} (h : d.WellFormed) :
    (wire d).length = EncodedEsifData.size + d.dataLen.toNat := by
  rw [wire, List.length_append, EncodedEsifData.length_bytes, h.length_payload]

section Serialize

variable {d : EsifData}

theorem serializeEsifData_contents (d : EsifData) (blob : IBinary) (encoded : EncodedEsifData)
    (varbinary : Nat) : (serializeEsifData blob d encoded varbinary).1.contents =
      blob.contents ++ d.payload := by
  unfold serializeEsifData
  cases hbuf : d.bufPtr with
  | none =>
    have hnil : d.bytes = [] := by simp [EsifData.bytes, hbuf]
    simp [EsifData.payload, hnil]
  | some buf =>
    have hbytes : d.bytes = buf := by simp [EsifData.bytes, hbuf]
    by_cases hz : d.dataLen = 0
    · simp [EsifData.payload, hz]
    · by_cases hle : d.dataLen ≤ d.bufLen
      · simp [EsifData.payload, hz, hle, hbytes]
      · simp [EsifData.payload, hz, hle]

/-- The header only has its offset moved on by what was written before. -/
theorem serializeEsifData_encoded (blob : IBinary) (encoded : EncodedEsifData)
    (varbinary : Nat) : (serializeEsifData blob d encoded varbinary).2.1 =
      { encoded with offset := encoded.offset + UInt32.ofNat varbinary } := by
  unfold serializeEsifData
  cases d.bufPtr with
  | none => rfl
  | some buf =>
    by_cases hz : d.dataLen = 0
    · simp [hz]
    · by_cases hle : d.dataLen ≤ d.bufLen <;> simp [hz, hle]

theorem serializeEsifData_bytes (h : d.WellFormed) (blob : IBinary) (encoded : EncodedEsifData)
    (varbinary : Nat) : (serializeEsifData blob d encoded varbinary).2.2 = d.dataLen.toNat := by
  unfold serializeEsifData
  cases d.bufPtr with
  | none => rfl
  | some buf =>
    by_cases hz : d.dataLen = 0
    · simp [hz]
    · simp [hz, h.dataLen_le]

/-- What is counted depends on the structure only. -/
theorem serializeEsifData_counted (d : EsifData) (blob blob' : IBinary)
    (encoded encoded' : EncodedEsifData) (varbinary varbinary' : Nat) :
    (serializeEsifData blob d encoded varbinary).2.2 =
      (serializeEsifData blob' d encoded' varbinary').2.2 := by
  unfold serializeEsifData
  cases d.bufPtr with
  | none => rfl
  | some buf =>
    by_cases hz : d.dataLen = 0
    · simp [hz]
    · by_cases hle : d.dataLen ≤ d.bufLen <;> simp [hz, hle]

theorem serializeEsifDataPtr_counted (data : Option EsifData) (blob blob' : IBinary)
    (encoded : UInt32) (offsetof offsetof' varbinary varbinary' : Nat) :
    (serializeEsifDataPtr blob data encoded offsetof varbinary).2.2 =
      (serializeEsifDataPtr blob' data encoded offsetof' varbinary').2.2 := by
  cases data with
  | none => rfl
  | some d =>
    show EncodedEsifData.size + (serializeEsifData _ d _ 0).2.2 =
      EncodedEsifData.size + (serializeEsifData _ d _ 0).2.2
    rw [serializeEsifData_counted]

theorem serializeElements_counted (ds : List EsifData) (blob blob' : IBinary) :
    (serializeElements blob ds).2 = (serializeElements blob' ds).2 := by
  induction ds generalizing blob blob' with
  | nil => rfl
  | cons d ds ih =>
    show EncodedEsifData.size + (serializeEsifData (blob.append _) d _ 0).2.2 +
        (serializeElements (serializeEsifData (blob.append _) d _ 0).1 ds).2 =
      EncodedEsifData.size + (serializeEsifData (blob'.append _) d _ 0).2.2 +
        (serializeElements (serializeEsifData (blob'.append _) d _ 0).1 ds).2
    rw [ih, serializeEsifData_counted]

theorem serializeEsifDataArray_counted (data : Option (List EsifData)) (blob blob' : IBinary)
    (arrayLen encoded : UInt32) (offsetof offsetof' varbinary varbinary' : Nat) :
    (serializeEsifDataArray blob data arrayLen encoded offsetof varbinary).2.2 =
      (serializeEsifDataArray blob' data arrayLen encoded offsetof' varbinary').2.2 := by
  cases data with
  | none => rfl
  | some ds =>
    by_cases hlen : arrayLen ≠ 0 ∧ arrayLen < maxArray
    · simp only [serializeEsifDataArray, if_pos hlen]
      exact serializeElements_counted ..
    · simp [serializeEsifDataArray, hlen]

theorem serializeEsifDataPtr_contents (d : EsifData) (blob : IBinary) (encoded : UInt32)
    (offsetof varbinary : Nat) :
    (serializeEsifDataPtr blob (some d) encoded offsetof varbinary).1.contents =
      blob.contents ++ wire d := by
  show (serializeEsifData _ d _ 0).1.contents = _
  rw [serializeEsifData_contents, IBinary.contents_append, wire, List.append_assoc]

theorem serializeEsifDataPtr_bytes (h : d.WellFormed) (blob : IBinary) (encoded : UInt32)
    (offsetof varbinary : Nat) :
    (serializeEsifDataPtr blob (some d) encoded offsetof varbinary).2.2 = (wire d).length := by
  rw [length_wire h]
  show EncodedEsifData.size + (serializeEsifData _ d _ 0).2.2 = _
  rw [serializeEsifData_bytes h]

theorem serializeElements_contents (ds : List EsifData) (blob : IBinary) :
    (serializeElements blob ds).1.contents = blob.contents ++ ds.flatMap wire := by
  induction ds generalizing blob with
  | nil => simp [serializeElements]
  | cons d ds ih =>
    show (serializeElements (serializeEsifData _ d _ 0).1 ds).1.contents = _
    rw [ih, serializeEsifData_contents, IBinary.contents_append]
    simp [wire]

theorem serializeElements_bytes {ds : List EsifData} (h : ∀ d ∈ ds, d.WellFormed)
    (blob : IBinary) : (serializeElements blob ds).2 = (ds.flatMap wire).length := by
  induction ds generalizing blob with
  | nil => rfl
  | cons d ds ih =>
    have hd := h d List.mem_cons_self
    have hds : ∀ d' ∈ ds, d'.WellFormed := fun d' hd' => h d' (List.mem_cons_of_mem d hd')
    show EncodedEsifData.size + (serializeEsifData _ d _ 0).2.2 +
      (serializeElements (serializeEsifData _ d _ 0).1 ds).2 = _
    rw [ih hds, serializeEsifData_bytes hd, List.flatMap_cons, List.length_append, length_wire hd]

end Serialize

/-! ## Decoding what was encoded -/

section RoundTrip

variable {m : List UInt8} {d : EsifData}
variable {encoded offsetfrom : Nat} {offset : UInt32}

/-- A header decodes with its data, wherever the data lies. -/
theorem deserializeEsifData_payload (hhdr : HasAt m encoded (castEsifData d offset).bytes)
    (hdata : HasAt m (offsetfrom + offset.toNat) d.payload) (h : d.HasBuffer) :
    deserializeEsifData m encoded offsetfrom = some d.received.bufPtr := by
  have hbufLen : readU32 m (encoded + 4) = some d.bufLen := (hhdr.field 4 rfl).readU32
  have hdataLen : readU32 m (encoded + 8) = some d.dataLen := (hhdr.field 8 rfl).readU32
  have hoffset : readU32 m (encoded + 12) = some offset := (hhdr.field 12 rfl).readU32
  have hlen := h.length_payload
  unfold deserializeEsifData EsifData.received
  rw [hbufLen]
  by_cases hz : d.bufLen = 0
  · simp [hz]
  · by_cases hle : d.dataLen ≤ d.bufLen
    · rw [if_pos hle] at hlen
      have hread := hdata.readAt
      rw [hlen] at hread
      simp [hz, hdataLen, hle, hoffset, hread, hlen]
    · have hnil : d.payload = [] := by simp [EsifData.payload, hle]
      simp [hz, hdataLen, hle, hnil]

theorem uncastEsifData_payload (hhdr : HasAt m encoded (castEsifData d offset).bytes)
    (hdata : HasAt m (offsetfrom + offset.toNat) d.payload) (h : d.HasBuffer) :
    uncastEsifData m encoded offsetfrom = some d.received := by
  have htype : readU32 m (encoded + 0) = some d.type := (hhdr.field 0 rfl).readU32
  have hbufLen : readU32 m (encoded + 4) = some d.bufLen := (hhdr.field 4 rfl).readU32
  have hdataLen : readU32 m (encoded + 8) = some d.dataLen := (hhdr.field 8 rfl).readU32
  rw [Nat.add_zero] at htype
  simp only [uncastEsifData, htype, hbufLen, hdataLen,
    deserializeEsifData_payload hhdr hdata h, Option.bind_eq_bind, Option.bind_some]
  rfl

/-- What a parameter was encoded to, with its data right behind the header. -/
theorem uncastEsifData_wire (hwire : HasAt m encoded (wire d)) (h : d.HasBuffer) :
    uncastEsifData m encoded (encoded + EncodedEsifData.size) = some d.received := by
  have hdata : HasAt m (encoded + EncodedEsifData.size) d.payload := by
    rw [← (castEsifData d 0).length_bytes]
    exact hwire.right
  exact uncastEsifData_payload hwire.left hdata h

/-- **Decoding an encoded parameter**: the structure arrives as `EsifData.received`. -/
theorem deserializeEsifDataPtr_wire (into : Option EsifData)
    (hptr : readU32 m encoded = some offset) (hne : offset ≠ nullValue)
    (hwire : HasAt m (offsetfrom + offset.toNat) (wire d)) (h : d.HasBuffer) :
    deserializeEsifDataPtr m into encoded offsetfrom = some (some d.received) := by
  simp [deserializeEsifDataPtr, hptr, hne, uncastEsifData_wire hwire h]

/-- **Decoding an encoded array**, element after element: each one's claimed length leads to
the header of the next. -/
theorem deserializeElements_wire {ds : List EsifData} (h : ∀ d ∈ ds, d.WellFormed)
    {encodedData : Nat} (hwire : HasAt m encodedData (ds.flatMap wire)) :
    deserializeElements m ds.length encodedData = some (ds.map EsifData.received) := by
  induction ds generalizing encodedData with
  | nil => rfl
  | cons d ds ih =>
    have hd := h d List.mem_cons_self
    have hds : ∀ d' ∈ ds, d'.WellFormed := fun d' hd' => h d' (List.mem_cons_of_mem d hd')
    have hfirst := uncastEsifData_wire hwire.left hd.toHasBuffer
    have hnext : HasAt m (encodedData + EncodedEsifData.size + d.dataLen.toNat)
        (ds.flatMap wire) := by
      rw [Nat.add_assoc, ← length_wire hd]
      exact hwire.right
    have hlen : d.received.dataLen = d.dataLen := rfl
    simp [deserializeElements, hfirst, hlen, ih hds hnext]

theorem deserializeEsifDataArray_wire {ds : List EsifData} {arrayLen : UInt32}
    (hlen : ds.length = arrayLen.toNat) (hpos : arrayLen ≠ 0) (hmax : arrayLen < maxArray)
    (hptr : readU32 m encoded = some offset) (hne : offset ≠ nullValue) (h : ∀ d ∈ ds, d.WellFormed)
    (hwire : HasAt m (offsetfrom + offset.toNat) (ds.flatMap wire)) :
    deserializeEsifDataArray m arrayLen encoded offsetfrom =
      some (some (ds.map EsifData.received)) := by
  have helems := deserializeElements_wire h hwire
  rw [hlen] at helems
  simp [deserializeEsifDataArray, hpos, hmax, hptr, hne, helems]

end RoundTrip

/-! ## A structure on its own -/

section Encode

variable {blob : IBinary} {d : EsifData}

/-- `Irpc_Encode_EsifData`: the blob, and where in it the header is; a null pointer without data.
`none` is a read outside of the buffer. -/
def encodeEsifData (blob : IBinary) (data : Option EsifData) : Option (IBinary × Option Nat) :=
  match data with
  | none => some (blob, none)
  | some d =>
    let offset := blob.getLen
    let appended := blob.append (castEsifData d 0).bytes
    match d.bufPtr with
    | none => some (appended, some offset)
    | some buf =>
      -- the chain of `||` ends at a length that fits, before the data is appended
      if d.dataLen = 0 ∨ d.dataLen ≤ d.bufLen then some (appended, some offset)
      else do
        let data ← readAt buf 0 d.dataLen.toNat
        pure (appended.append data, some offset)

/-- `Irpc_Decode_EsifData` of the header at `encoded`. -/
def decodeEsifData (m : List UInt8) (encoded : Nat) : Option EsifData :=
  uncastEsifData m encoded (encoded + EncodedEsifData.size)

/-- What was appended to the blob decodes to the same structure with the same data, and the
decoder reads nothing else. -/
def RoundTripsEncoded (blob : IBinary) (d : EsifData) : Prop :=
  ∃ blob' appended d', encodeEsifData blob (some d) = some (blob', some blob.getLen) ∧
    blob'.contents = blob.contents ++ appended ∧ decodeEsifData appended 0 = some d' ∧
    decodeEsifData blob'.contents blob.getLen = some d' ∧
    d'.type = d.type ∧ d'.bufLen = d.bufLen ∧ d'.dataLen = d.dataLen ∧ d'.payload = d.payload

/-- Of well-formed data the header is appended and nothing else. -/
theorem encodeEsifData_eq (h : d.WellFormed) (blob : IBinary) :
    encodeEsifData blob (some d) =
      some (blob.append (castEsifData d 0).bytes, some blob.getLen) := by
  cases hbuf : d.bufPtr with
  | none => simp [encodeEsifData, hbuf]
  | some buf => simp [encodeEsifData, hbuf, h.dataLen_le]

/-- A header without its data, at the end of a message, decodes only when there is none. -/
theorem decodeEsifData_header (h : d.WellFormed) (before : List UInt8) (hne : d.dataLen ≠ 0) :
    decodeEsifData (before ++ (castEsifData d 0).bytes) before.length = none := by
  have hat : HasAt (before ++ (castEsifData d 0).bytes) before.length (castEsifData d 0).bytes :=
    ⟨before, [], by simp, rfl⟩
  have htype : readU32 _ (before.length + 0) = some d.type := (hat.field 0 rfl).readU32
  have hbufLen : readU32 _ (before.length + 4) = some d.bufLen := (hat.field 4 rfl).readU32
  have hdataLen : readU32 _ (before.length + 8) = some d.dataLen := (hat.field 8 rfl).readU32
  have hoffset : readU32 _ (before.length + 12) = some 0 := (hat.field 12 rfl).readU32
  have hnat : d.dataLen.toNat ≤ d.bufLen.toNat := UInt32.le_iff_toNat_le.mp h.dataLen_le
  have hpos : d.dataLen.toNat ≠ 0 := fun hz => hne (UInt32.toNat_inj.mp hz)
  have hbuf : d.bufLen ≠ 0 := by
    intro hz
    rw [hz] at hnat
    exact hpos (Nat.le_zero.mp hnat)
  have hread : readAt (before ++ (castEsifData d 0).bytes)
      (before.length + EncodedEsifData.size) d.dataLen.toNat = none := by
    rw [readAt, if_neg]
    rw [List.length_append, EncodedEsifData.length_bytes]
    omega
  rw [Nat.add_zero] at htype
  simp [decodeEsifData, uncastEsifData, deserializeEsifData, htype, hbufLen, hdataLen, hoffset,
    hbuf, h.dataLen_le, hread]

/-- **The codec of a structure on its own** works for exactly the structures without data. -/
theorem roundTripsEncoded_iff (h : d.WellFormed) (blob : IBinary) :
    RoundTripsEncoded blob d ↔ d.dataLen = 0 := by
  have henc := encodeEsifData_eq h blob
  constructor
  · rintro ⟨blob', appended, d', henc', -, -, hdec, -⟩
    rw [henc] at henc'
    obtain ⟨rfl, -⟩ := Prod.mk.inj (Option.some.inj henc')
    by_contra hne
    rw [IBinary.contents_append, ← IBinary.length_contents, decodeEsifData_header h _ hne] at hdec
    cases hdec
  · intro hz
    have hnil : d.payload = [] := by simp [EsifData.payload, hz]
    have hwire : (castEsifData d 0).bytes = wire d := by rw [wire, hnil, List.append_nil]
    have hself : HasAt (wire d) 0 (wire d) := hasAt_self _
    have hat : HasAt (blob.contents ++ wire d) blob.getLen (wire d) := by
      have hshift := hself.shift blob.contents
      rwa [Nat.add_zero, IBinary.length_contents] at hshift
    refine ⟨_, wire d, d.received, henc, ?_, uncastEsifData_wire hself h.toHasBuffer, ?_, rfl, rfl,
      rfl, h.toHasBuffer.received_same.payload_eq⟩
    · rw [IBinary.contents_append, hwire]
    · rw [IBinary.contents_append, hwire]
      exact uncastEsifData_wire hat h.toHasBuffer

/-- One byte of data, in a buffer of one byte. -/
def oneByte : EsifData := ⟨7, some [1], 1, 1⟩

theorem wellFormed_oneByte : oneByte.WellFormed where
  null_iff := by decide
  length_eq := by
    intro bytes hbytes
    obtain rfl : [1] = bytes := Option.some.inj hbytes
    rfl
  dataLen_le := by decide

theorem roundTripsEncoded_iff_oneByte :
    oneByte.WellFormed ∧ (RoundTripsEncoded .create oneByte ↔ oneByte.dataLen = 0) :=
  ⟨wellFormed_oneByte, roundTripsEncoded_iff wellFormed_oneByte .create⟩

/-- One byte of data does not arrive. -/
theorem oneByte_not_roundTripsEncoded :
    ¬∀ (d : EsifData) (blob : IBinary), d.WellFormed → RoundTripsEncoded blob d := by
  intro hall
  obtain ⟨blob', appended, d', henc, -, -, hdec, -⟩ := hall oneByte .create wellFormed_oneByte
  obtain ⟨rfl, -⟩ := Prod.mk.inj (Option.some.inj henc)
  have hnone := decodeEsifData_header wellFormed_oneByte [] (by decide)
  rw [IBinary.contents_append, IBinary.contents_create, IBinary.getLen_create] at hdec
  cases hdec.symm.trans hnone

end Encode

end Irpc

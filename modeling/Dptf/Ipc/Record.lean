import Dptf.Ipc.Codec

/-!
# Records with data behind them

Every message and every structure inside a message is one packed record with a
variable part behind it.  A scalar stands in its field.  A structure, an array
or a nested record goes behind the record, and its field holds the offset from
the end of the field; the encoders differ in their lists of fields only.
-/

open Lib

namespace Irpc

/-- `eIrpcMsgType`. -/
inductive MsgType
  | none
  | procRequest
  | procResponse
  | authRequest
  | authResponse
deriving DecidableEq, Repr

/-- Its encoding. -/
def MsgType.code : MsgType → UInt32
  | .none => 0
  | .procRequest => 1
  | .procResponse => 2
  | .authRequest => 3
  | .authResponse => 4

/-- Something that puts the same bytes behind whatever a blob holds. -/
structure Appender where
  write : IBinary → IBinary
  bytes : List UInt8
  contents_eq : ∀ blob, (write blob).contents = blob.contents ++ bytes

/-- A parameter of a call or a member of a structure.  Constant parameters are left out of a
response. -/
inductive Param
  /-- A value in the record itself. -/
  | scalar (f : Field)
  /-- A constant `EsifDataPtr`. -/
  | constPtr (d : Option EsifData)
  /-- An `EsifDataPtr` the callee may change. -/
  | ptr (d : Option EsifData)
  /-- `argc` and a constant `EsifDataArray`. -/
  | constArray (argc : UInt32) (argv : Option (List EsifData))
  /-- An `EsifData` whose header is a member of the record. -/
  | inline (d : EsifData)
  /-- A constant pointer to something with an encoder of its own. -/
  | constNested (a : Option Appender)
  /-- The same, where it is not constant. -/
  | nested (a : Option Appender)

namespace Param

/-- The bytes of the parameter in the record. -/
def width : Param → Nat
  | .scalar f => f.width
  | .constArray _ _ => 8
  | .inline _ => 16
  | _ => 4

/-- What the record holds before the parameter is serialised. -/
def unset (offsetof : Nat) : Param → List Field
  | .scalar f => [f]
  | .constArray _ _ => [.u32 0, .u32 nullValue]
  | .inline d => (castEsifData d (UInt32.ofNat offsetof)).fields
  | _ => [.u32 nullValue]

/-- Appending through a pointer: the blob, the pointer's field, the bytes appended. -/
def serializeNested (blob : IBinary) (a : Option Appender) (offsetof varbinary : Nat) :
    IBinary × List Field × Nat :=
  match a with
  | none => (blob, [.u32 nullValue], 0)
  | some a =>
    let blob' := a.write blob
    (blob', [.u32 (UInt32.ofNat (offsetof + varbinary))], blob'.getLen - blob.getLen)

/-- One step of an encoder: the blob, the parameter's fields, the bytes counted. -/
def serialize (msgtype : MsgType) (blob : IBinary) (offsetof varbinary : Nat) :
    Param → IBinary × List Field × Nat
  | .scalar f => (blob, [f], 0)
  | .constPtr d =>
    if msgtype = .procRequest then
      let (blob', offset, bytes) := serializeEsifDataPtr blob d nullValue offsetof varbinary
      (blob', [.u32 offset], bytes)
    else (blob, [.u32 nullValue], 0)
  | .ptr d =>
    let (blob', offset, bytes) := serializeEsifDataPtr blob d nullValue offsetof varbinary
    (blob', [.u32 offset], bytes)
  | .constArray argc argv =>
    if msgtype = .procRequest then
      let (blob', offset, bytes) :=
        serializeEsifDataArray blob argv argc nullValue offsetof varbinary
      (blob', [.u32 (if offset = nullValue then 0 else argc), .u32 offset], bytes)
    else (blob, [.u32 0, .u32 nullValue], 0)
  | .inline d =>
    let (blob', encoded, bytes) :=
      serializeEsifData blob d (castEsifData d (UInt32.ofNat offsetof)) varbinary
    (blob', encoded.fields, bytes)
  | .constNested a =>
    if msgtype = .procRequest then serializeNested blob a offsetof varbinary
    else (blob, [.u32 nullValue], 0)
  | .nested a => serializeNested blob a offsetof varbinary

end Param

/-- The bytes of the parameters in the record. -/
def widths (params : List Param) : Nat := (params.map Param.width).sum

/-- The bytes of a header. -/
def hdrSize (hdr : List Field) : Nat := (hdr.map Field.width).sum

/-- What the record holds before anything is serialised. -/
def unsetFields (size pos : Nat) : List Param → List Field
  | [] => []
  | p :: ps => p.unset (size - (pos + p.width)) ++ unsetFields size (pos + p.width) ps

/-- Where an encoder stands: the blob, the fields so far, the position behind them, and
`varbinary`. -/
structure EncodeState where
  blob : IBinary
  fields : List Field
  pos : Nat
  varbinary : Nat

/-- `varbinary += Irpc_Serialize_…(blob, …, Irpc_OffsetOf(encoded, …), varbinary)`. -/
def encodeParam (msgtype : MsgType) (size : Nat) (s : EncodeState) (p : Param) : EncodeState :=
  let (blob, fields, bytes) := p.serialize msgtype s.blob (size - (s.pos + p.width)) s.varbinary
  ⟨blob, s.fields ++ fields, s.pos + p.width, s.varbinary + bytes⟩

/-- What the encoders share: the blob afterwards.  The record starts where the blob ended. -/
def encodeRecord (msgtype : MsgType) (blob : IBinary) (hdr : List Field) (params : List Param) :
    IBinary :=
  let size := hdrSize hdr + widths params
  let offset := blob.getLen
  let appended := blob.append (pack (hdr ++ unsetFields size (hdrSize hdr) params))
  let done := params.foldl (encodeParam msgtype size) ⟨appended, hdr, hdrSize hdr, 0⟩
  done.blob.patch offset (pack done.fields)

/-! ## What one parameter leaves -/

namespace Param

/-- The bytes a parameter puts behind the record. -/
def wire (msgtype : MsgType) : Param → List UInt8
  | .scalar _ => []
  | .constPtr d => if msgtype = .procRequest then (d.map Irpc.wire).getD [] else []
  | .ptr d => (d.map Irpc.wire).getD []
  | .constArray argc argv =>
    if msgtype = .procRequest ∧ argc ≠ 0 ∧ argc < maxArray then
      (argv.map fun ds => (ds.take argc.toNat).flatMap Irpc.wire).getD []
    else []
  | .inline d => d.payload
  | .constNested a => if msgtype = .procRequest then (a.map Appender.bytes).getD [] else []
  | .nested a => (a.map Appender.bytes).getD []

/-- Its data is well formed, so that `varbinary` counts what is written. -/
def WellFormed : Param → Prop
  | .constPtr d => ∀ x ∈ d, x.WellFormed
  | .ptr d => ∀ x ∈ d, x.WellFormed
  | .constArray _ argv => ∀ ds ∈ argv, ∀ x ∈ ds, x.WellFormed
  | .inline d => d.WellFormed
  | _ => True

/-- The fields of a parameter whose offset comes out as `offset`. -/
def fields (msgtype : MsgType) (offset : UInt32) : Param → List Field
  | .scalar f => [f]
  | .constPtr d => [.u32 (if msgtype = .procRequest ∧ d.isSome then offset else nullValue)]
  | .ptr d => [.u32 (if d.isSome then offset else nullValue)]
  | .constArray argc argv =>
    if msgtype = .procRequest ∧ argv.isSome ∧ argc ≠ 0 ∧ argc < maxArray then
      [.u32 (if offset = nullValue then 0 else argc), .u32 offset]
    else [.u32 0, .u32 nullValue]
  | .inline d => (castEsifData d offset).fields
  | .constNested a => [.u32 (if msgtype = .procRequest ∧ a.isSome then offset else nullValue)]
  | .nested a => [.u32 (if a.isSome then offset else nullValue)]

theorem serializeNested_contents (blob : IBinary) (a : Option Appender)
    (offsetof varbinary : Nat) : (serializeNested blob a offsetof varbinary).1.contents =
      blob.contents ++ (a.map Appender.bytes).getD [] := by
  cases a with
  | none => simp [serializeNested]
  | some a => exact a.contents_eq blob

theorem serializeNested_bytes (blob : IBinary) (a : Option Appender) (offsetof varbinary : Nat) :
    (serializeNested blob a offsetof varbinary).2.2 = ((a.map Appender.bytes).getD []).length := by
  cases a with
  | none => rfl
  | some a =>
    show (a.write blob).getLen - blob.getLen = a.bytes.length
    rw [← IBinary.length_contents, a.contents_eq, List.length_append, IBinary.length_contents]
    omega

theorem serialize_contents (msgtype : MsgType) (blob : IBinary) (offsetof varbinary : Nat)
    (p : Param) : (p.serialize msgtype blob offsetof varbinary).1.contents =
      blob.contents ++ p.wire msgtype := by
  cases p with
  | scalar f => simp [serialize, wire]
  | constPtr d =>
    cases d with
    | none => simp [serialize, wire, serializeEsifDataPtr]
    | some d =>
      by_cases hreq : msgtype = .procRequest
      · simpa [serialize, wire, hreq] using
          serializeEsifDataPtr_contents d blob nullValue offsetof varbinary
      · simp [serialize, wire, hreq]
  | ptr d =>
    cases d with
    | none => simp [serialize, wire, serializeEsifDataPtr]
    | some d => exact serializeEsifDataPtr_contents d blob nullValue offsetof varbinary
  | constArray argc argv =>
    by_cases hreq : msgtype = .procRequest
    · cases argv with
      | none => simp [serialize, wire, hreq, serializeEsifDataArray]
      | some ds =>
        by_cases hargc : argc ≠ 0 ∧ argc < maxArray
        · simpa [serialize, wire, hreq, serializeEsifDataArray, hargc] using
            serializeElements_contents (ds.take argc.toNat) blob
        · simp [serialize, wire, hreq, serializeEsifDataArray, hargc]
    · simp [serialize, wire, hreq]
  | inline d => exact serializeEsifData_contents d blob _ varbinary
  | constNested a =>
    by_cases hreq : msgtype = .procRequest
    · simpa [serialize, wire, hreq] using serializeNested_contents blob a offsetof varbinary
    · simp [serialize, wire, hreq]
  | nested a => exact serializeNested_contents blob a offsetof varbinary

/-- The bytes `varbinary` counts for a parameter. -/
def counted (msgtype : MsgType) (p : Param) : Nat := (p.serialize msgtype .create 0 0).2.2

/-- They depend neither on the blob nor on the position. -/
theorem serialize_counted (msgtype : MsgType) (blob : IBinary) (offsetof varbinary : Nat)
    (p : Param) : (p.serialize msgtype blob offsetof varbinary).2.2 = p.counted msgtype := by
  cases p with
  | scalar f => rfl
  | constPtr d =>
    by_cases hreq : msgtype = .procRequest
    · simp only [counted, serialize, if_pos hreq]
      exact serializeEsifDataPtr_counted ..
    · simp [counted, serialize, hreq]
  | ptr d => exact serializeEsifDataPtr_counted ..
  | constArray argc argv =>
    by_cases hreq : msgtype = .procRequest
    · simp only [counted, serialize, if_pos hreq]
      exact serializeEsifDataArray_counted ..
    · simp [counted, serialize, hreq]
  | inline d => exact serializeEsifData_counted ..
  | constNested a =>
    by_cases hreq : msgtype = .procRequest
    · simp only [counted, serialize, if_pos hreq, serializeNested_bytes]
    · simp [counted, serialize, hreq]
  | nested a => simp only [counted, serialize, serializeNested_bytes]

/-- For well-formed data they are what is written. -/
theorem WellFormed.counted_eq {p : Param} (h : p.WellFormed) (msgtype : MsgType) :
    p.counted msgtype = (p.wire msgtype).length := by
  unfold counted
  cases p with
  | scalar f => rfl
  | constPtr d =>
    cases d with
    | none => simp [serialize, wire, serializeEsifDataPtr]
    | some d =>
      by_cases hreq : msgtype = .procRequest
      · simpa [serialize, wire, hreq] using
          serializeEsifDataPtr_bytes (h d rfl) .create nullValue 0 0
      · simp [serialize, wire, hreq]
  | ptr d =>
    cases d with
    | none => rfl
    | some d => exact serializeEsifDataPtr_bytes (h d rfl) .create nullValue 0 0
  | constArray argc argv =>
    by_cases hreq : msgtype = .procRequest
    · cases argv with
      | none => simp [serialize, wire, hreq, serializeEsifDataArray]
      | some ds =>
        by_cases hargc : argc ≠ 0 ∧ argc < maxArray
        · have htake : ∀ d ∈ ds.take argc.toNat, d.WellFormed :=
            fun d hd => h ds rfl d (List.mem_of_mem_take hd)
          simpa [serialize, wire, hreq, serializeEsifDataArray, hargc] using
            serializeElements_bytes htake .create
        · simp [serialize, wire, hreq, serializeEsifDataArray, hargc]
    · simp [serialize, wire, hreq]
  | inline d =>
    rw [wire, EsifData.WellFormed.length_payload h]
    exact serializeEsifData_bytes h .create _ 0
  | constNested a =>
    by_cases hreq : msgtype = .procRequest
    · simpa [serialize, wire, hreq] using serializeNested_bytes .create a 0 0
    · simp [serialize, wire, hreq]
  | nested a => exact serializeNested_bytes .create a 0 0

theorem serialize_fields (msgtype : MsgType) (blob : IBinary) (offsetof varbinary : Nat)
    (p : Param) : (p.serialize msgtype blob offsetof varbinary).2.1 =
      p.fields msgtype (UInt32.ofNat (offsetof + varbinary)) := by
  cases p with
  | scalar f => rfl
  | constPtr d =>
    by_cases hreq : msgtype = .procRequest
    · cases d <;> simp [serialize, fields, hreq, serializeEsifDataPtr]
    · simp [serialize, fields, hreq]
  | ptr d => cases d <;> simp [serialize, fields, serializeEsifDataPtr]
  | constArray argc argv =>
    by_cases hreq : msgtype = .procRequest
    · cases argv with
      | none => simp [serialize, fields, hreq, serializeEsifDataArray]
      | some ds =>
        by_cases hargc : argc ≠ 0 ∧ argc < maxArray
        · simp [serialize, fields, hreq, serializeEsifDataArray, hargc]
        · simp [serialize, fields, hreq, serializeEsifDataArray, hargc]
    · simp [serialize, fields, hreq]
  | inline d =>
    show (serializeEsifData _ d _ _).2.1.fields = _
    rw [serializeEsifData_encoded]
    simp [fields, castEsifData]
  | constNested a =>
    by_cases hreq : msgtype = .procRequest
    · cases a <;> simp [serialize, fields, hreq, serializeNested]
    · simp [serialize, fields, hreq]
  | nested a => cases a <;> simp [serialize, fields, serializeNested]

/-- The fields have the width the record leaves for them. -/
theorem length_fields (msgtype : MsgType) (offset : UInt32) (p : Param) :
    (pack (p.fields msgtype offset)).length = p.width := by
  rw [length_pack]
  cases p with
  | constArray argc argv =>
    simp only [fields]
    split <;> rfl
  | scalar f => simp [fields, width]
  | inline d => rfl
  | _ => rfl

theorem length_unset (p : Param) (offsetof : Nat) : (pack (p.unset offsetof)).length = p.width := by
  rw [length_pack]
  cases p with
  | scalar f => simp [unset, width]
  | _ => rfl

end Param

/-! ## What a run over the parameters leaves -/

/-- The bytes the parameters put behind the record. -/
def wires (msgtype : MsgType) (params : List Param) : List UInt8 :=
  params.flatMap (Param.wire msgtype)

/-- The fields of the parameters, from position `pos` on and with `varbinary` bytes of data
before theirs. -/
def paramFields (msgtype : MsgType) (size : Nat) : Nat → Nat → List Param → List Field
  | _, _, [] => []
  | pos, varbinary, p :: ps =>
    p.fields msgtype (UInt32.ofNat (size - (pos + p.width) + varbinary)) ++
      paramFields msgtype size (pos + p.width) (varbinary + p.counted msgtype) ps

/-- What an encoder has done after some of the parameters. -/
structure EncodeState.Ran (s s' : EncodeState) (msgtype : MsgType) (params : List Param) :
    Prop where
  contents_eq : s'.blob.contents = s.blob.contents ++ wires msgtype params
  pos_eq : s'.pos = s.pos + widths params
  fields_eq : ∃ fs, s'.fields = s.fields ++ fs ∧ (pack fs).length = widths params
  varbinary_eq : (∀ p ∈ params, p.WellFormed) →
    s'.varbinary = s.varbinary + (wires msgtype params).length

section Run

variable (msgtype : MsgType) (size : Nat)

theorem encodeParam_fields (s : EncodeState) (p : Param) :
    (encodeParam msgtype size s p).fields = s.fields ++
      p.fields msgtype (UInt32.ofNat (size - (s.pos + p.width) + s.varbinary)) := by
  rw [← Param.serialize_fields msgtype s.blob]
  rfl

theorem encodeParam_ran (s : EncodeState) (p : Param) :
    s.Ran (encodeParam msgtype size s p) msgtype [p] where
  contents_eq := by simpa [encodeParam, wires] using Param.serialize_contents ..
  pos_eq := by simp [encodeParam, widths]
  fields_eq := by
    refine ⟨_, encodeParam_fields msgtype size s p, ?_⟩
    rw [Param.length_fields]
    simp [widths]
  varbinary_eq h := by
    have hp := (h p List.mem_cons_self).counted_eq msgtype
    simp [encodeParam, wires, Param.serialize_counted, hp]

theorem EncodeState.Ran.trans {s s' s'' : EncodeState} {ps qs : List Param}
    (h : s.Ran s' msgtype ps) (h' : s'.Ran s'' msgtype qs) : s.Ran s'' msgtype (ps ++ qs) where
  contents_eq := by simp [h'.contents_eq, h.contents_eq, wires]
  pos_eq := by
    simp only [h'.pos_eq, h.pos_eq, widths, List.map_append, List.sum_append]
    omega
  fields_eq := by
    obtain ⟨fs, hfs, hlen⟩ := h.fields_eq
    obtain ⟨fs', hfs', hlen'⟩ := h'.fields_eq
    refine ⟨fs ++ fs', by rw [hfs', hfs, List.append_assoc], ?_⟩
    rw [pack_append, List.length_append, hlen, hlen']
    simp [widths]
  varbinary_eq hwf := by
    have hps := h.varbinary_eq fun p hp => hwf p (List.mem_append_left qs hp)
    have hqs := h'.varbinary_eq fun q hq => hwf q (List.mem_append_right ps hq)
    simp only [hqs, hps, wires, List.flatMap_append, List.length_append]
    omega

theorem foldl_encodeParam_ran (params : List Param) (s : EncodeState) :
    s.Ran (params.foldl (encodeParam msgtype size) s) msgtype params := by
  induction params generalizing s with
  | nil =>
    exact ⟨by simp [wires], by simp [widths], ⟨[], by simp, rfl⟩, by simp [wires]⟩
  | cons p ps ih => exact (encodeParam_ran msgtype size s p).trans msgtype (ih _)

/-- The fields do not depend on what is in the blob. -/
theorem foldl_encodeParam_fields (params : List Param) (s : EncodeState) :
    (params.foldl (encodeParam msgtype size) s).fields =
      s.fields ++ paramFields msgtype size s.pos s.varbinary params := by
  induction params generalizing s with
  | nil => simp [paramFields]
  | cons p ps ih =>
    have hvar : (encodeParam msgtype size s p).varbinary = s.varbinary + p.counted msgtype := by
      simp [encodeParam, Param.serialize_counted]
    rw [List.foldl_cons, ih, encodeParam_fields, hvar, paramFields, List.append_assoc]
    rfl

/-- A parameter's fields stand behind those of the parameters before it. -/
theorem foldl_encodeParam_hasAt {before : List Param} (hwf : ∀ q ∈ before, q.WellFormed)
    (p : Param) (after : List Param) (s : EncodeState) :
    HasAt (pack ((before ++ p :: after).foldl (encodeParam msgtype size) s).fields)
      ((pack s.fields).length + widths before)
      (pack (p.fields msgtype (UInt32.ofNat (size - (s.pos + widths before + p.width) +
        (s.varbinary + (wires msgtype before).length))))) := by
  rw [List.foldl_append, List.foldl_cons]
  have hbefore := foldl_encodeParam_ran msgtype size before s
  generalize before.foldl (encodeParam msgtype size) s = s' at hbefore ⊢
  have hafter := foldl_encodeParam_ran msgtype size after (encodeParam msgtype size s' p)
  obtain ⟨fs, hfs, hfsLen⟩ := hbefore.fields_eq
  obtain ⟨gs, hgs, -⟩ := hafter.fields_eq
  rw [hgs, encodeParam_fields, hfs, hbefore.pos_eq, hbefore.varbinary_eq hwf, pack_append,
    pack_append]
  have hat := (hasAt_self (pack (s.fields ++ fs) ++ pack (p.fields msgtype (UInt32.ofNat
    (size - (s.pos + widths before + p.width) +
      (s.varbinary + (wires msgtype before).length)))) ++ pack gs)).left.right
  rwa [Nat.zero_add, pack_append, List.length_append, hfsLen, ← pack_append] at hat

end Run

/-! ## Where everything lies -/

/-- The offset the encoders record for a parameter: to the end of the record, then past the
data of the parameters before it. -/
def recordedOffset (msgtype : MsgType) (hdr : List Field) (params before : List Param)
    (p : Param) : UInt32 :=
  UInt32.ofNat (hdrSize hdr + widths params - (hdrSize hdr + widths before + p.width) +
    (wires msgtype before).length)

/-- An encoded record: the header in front, each parameter's fields in the record, its data
behind the record. -/
structure IsRecord (msgtype : MsgType) (hdr : List Field) (params : List Param)
    (msg : List UInt8) : Prop where
  header : HasAt msg 0 (pack hdr)
  length_eq : msg.length = hdrSize hdr + widths params + (wires msgtype params).length
  fields : ∀ before p after, params = before ++ p :: after → (∀ q ∈ before, q.WellFormed) →
    HasAt msg (hdrSize hdr + widths before)
      (pack (p.fields msgtype (recordedOffset msgtype hdr params before p)))
  wire : ∀ before p after, params = before ++ p :: after →
    HasAt msg (hdrSize hdr + widths params + (wires msgtype before).length) (p.wire msgtype)

theorem length_unsetFields (size pos : Nat) (params : List Param) :
    (pack (unsetFields size pos params)).length = widths params := by
  induction params generalizing pos with
  | nil => rfl
  | cons p ps ih =>
    rw [unsetFields, pack_append, List.length_append, p.length_unset, ih]
    simp [widths]

section Encode

variable (msgtype : MsgType) (blob : IBinary) (hdr : List Field) (params : List Param)

/-- What an encoder has when it patches the record. -/
def serialized : EncodeState :=
  params.foldl (encodeParam msgtype (hdrSize hdr + widths params))
    ⟨blob.append (pack (hdr ++ unsetFields (hdrSize hdr + widths params) (hdrSize hdr) params)),
      hdr, hdrSize hdr, 0⟩

theorem length_serialized : (pack (serialized msgtype blob hdr params).fields).length =
    hdrSize hdr + widths params := by
  obtain ⟨fs, hfs, hlen⟩ := (foldl_encodeParam_ran msgtype (hdrSize hdr + widths params) params
    ⟨blob.append (pack (hdr ++ unsetFields (hdrSize hdr + widths params) (hdrSize hdr) params)),
      hdr, hdrSize hdr, 0⟩).fields_eq
  rw [serialized, hfs, pack_append, List.length_append, hlen, length_pack]
  rfl

/-- The record is patched over the fields it was appended with. -/
theorem contents_encodeRecord : (encodeRecord msgtype blob hdr params).contents =
    blob.contents ++ (pack (serialized msgtype blob hdr params).fields ++
      wires msgtype params) := by
  have hlen := length_serialized msgtype blob hdr params
  have hunset : (pack (hdr ++ unsetFields (hdrSize hdr + widths params) (hdrSize hdr)
      params)).length = hdrSize hdr + widths params := by
    rw [pack_append, List.length_append, length_unsetFields, length_pack]
    rfl
  have hcontents : (serialized msgtype blob hdr params).blob.contents = blob.contents ++
      pack (hdr ++ unsetFields (hdrSize hdr + widths params) (hdrSize hdr) params) ++
        wires msgtype params := by
    rw [serialized, (foldl_encodeParam_ran msgtype _ params _).contents_eq, IBinary.contents_append]
  have hgetLen : (serialized msgtype blob hdr params).blob.getLen =
      blob.getLen + (hdrSize hdr + widths params) + (wires msgtype params).length := by
    rw [← IBinary.length_contents, hcontents, List.length_append, List.length_append, hunset,
      IBinary.length_contents]
  show ((serialized msgtype blob hdr params).blob.patch blob.getLen
    (pack (serialized msgtype blob hdr params).fields)).contents = _
  rw [IBinary.contents_patch _ (by rw [hlen, hgetLen]; omega), hcontents,
    ← IBinary.length_contents, overwrite_append (by rw [hunset, hlen]), List.append_assoc]

/-- **What an encoder leaves in its blob** is a record, behind what was there before. -/
theorem encodeRecord_isRecord : ∃ msg, (encodeRecord msgtype blob hdr params).contents =
    blob.contents ++ msg ∧ IsRecord msgtype hdr params msg := by
  have hrecLen := length_serialized msgtype blob hdr params
  refine ⟨_, contents_encodeRecord msgtype blob hdr params, ?_⟩
  constructor
  · obtain ⟨fs, hfs, -⟩ := (foldl_encodeParam_ran msgtype (hdrSize hdr + widths params) params
      ⟨blob.append (pack (hdr ++ unsetFields (hdrSize hdr + widths params) (hdrSize hdr)
        params)), hdr, hdrSize hdr, 0⟩).fields_eq
    have hself := hasAt_self (pack (serialized msgtype blob hdr params).fields ++
      wires msgtype params)
    rw [serialized, hfs, pack_append] at hself ⊢
    exact hself.left.left
  · rw [List.length_append, hrecLen]
  · rintro before p after rfl hwf
    have hat := foldl_encodeParam_hasAt msgtype
      (hdrSize hdr + widths (before ++ p :: after)) hwf p after
      ⟨blob.append (pack (hdr ++ unsetFields (hdrSize hdr + widths (before ++ p :: after))
        (hdrSize hdr) (before ++ p :: after))), hdr, hdrSize hdr, 0⟩
    rw [length_pack, Nat.zero_add] at hat
    exact hat.extend _
  · rintro before p after rfl
    have hwires : wires msgtype (before ++ p :: after) =
        wires msgtype before ++ (p.wire msgtype ++ wires msgtype after) := by
      simp [wires]
    have hat := (hasAt_self (pack (serialized msgtype blob hdr (before ++ p :: after)).fields ++
      wires msgtype (before ++ p :: after))).right
    rw [hrecLen, hwires] at hat
    rw [hwires]
    simpa using hat.right.left

/-- **The bytes of a record do not depend on the blob.** -/
theorem encodeRecord_contents : (encodeRecord msgtype blob hdr params).contents =
    blob.contents ++ (pack (hdr ++ paramFields msgtype (hdrSize hdr + widths params) (hdrSize hdr) 0 params) ++
        wires msgtype params) := by
  rw [contents_encodeRecord, serialized, foldl_encodeParam_fields]

end Encode

/-! ## Reading a record back -/

/-- A member of the record at `base` decodes from position `pos` on. -/
def Param.DecodesAt (m : List UInt8) (base pos : Nat) : Param → Prop
  | .scalar f => HasAt m (base + pos) f.bytes
  | .inline d => uncastEsifData m (base + pos) (base + (pos + 16)) = some d.received
  | _ => True

/-- So do all of them, one behind the other. -/
def Decodes (m : List UInt8) (base : Nat) : Nat → List Param → Prop
  | _, [] => True
  | pos, p :: ps => p.DecodesAt m base pos ∧ Decodes m base (pos + p.width) ps

namespace IsRecord

variable {msgtype : MsgType} {hdr : List Field} {params after : List Param} {p : Param}
  {msg : List UInt8}

/-- A scalar lies in the record. -/
theorem scalar (h : IsRecord msgtype hdr params msg) (before : List Param)
    {f : Field} (hparams : params = before ++ .scalar f :: after)
    (hwf : ∀ q ∈ before, q.WellFormed) {pos : Nat} (hpos : hdrSize hdr + widths before = pos) :
    HasAt msg pos f.bytes := by
  have hfields := h.fields before (.scalar f) after hparams hwf
  rw [hpos] at hfields
  exact hfields.left

/-- Where the data of a parameter starts, counted from the end of its field. -/
theorem recordedOffset_toNat {before : List Param} (hparams : params = before ++ p :: after)
    (hfit : hdrSize hdr + widths params + (wires msgtype before).length < 2 ^ 32) :
    (recordedOffset msgtype hdr params before p).toNat =
        hdrSize hdr + widths params - (hdrSize hdr + widths before + p.width) +
          (wires msgtype before).length ∧
      hdrSize hdr + widths before + p.width + (recordedOffset msgtype hdr params before p).toNat =
        hdrSize hdr + widths params + (wires msgtype before).length := by
  have hwidth : widths before + p.width ≤ widths params := by
    rw [hparams]
    simp only [widths, List.map_append, List.sum_append, List.map_cons, List.sum_cons]
    omega
  have hoff : (recordedOffset msgtype hdr params before p).toNat =
      hdrSize hdr + widths params - (hdrSize hdr + widths before + p.width) +
        (wires msgtype before).length := by
    rw [recordedOffset, UInt32.toNat_ofNat', Nat.mod_eq_of_lt (by omega)]
  exact ⟨hoff, by omega⟩

/-- A parameter whose own field takes room never has the null value for an offset. -/
theorem recordedOffset_ne {before : List Param} (hparams : params = before ++ p :: after)
    (hfit : hdrSize hdr + widths params + (wires msgtype before).length < 2 ^ 32)
    (hwidth : 0 < p.width) : recordedOffset msgtype hdr params before p ≠ nullValue := by
  obtain ⟨-, hpast⟩ := recordedOffset_toNat hparams hfit
  have hnull : nullValue.toNat = 4294967295 := by decide
  intro heq
  rw [heq, hnull] at hpast
  omega

/-- **A structure parameter decodes from its field.** -/
theorem decode_ptr (h : IsRecord msgtype hdr params msg)
    (before : List Param) {d : EsifData} (hparams : params = before ++ p :: after)
    (hsent : p = .ptr (some d) ∨ msgtype = .procRequest ∧ p = .constPtr (some d))
    (hwf : ∀ q ∈ before, q.WellFormed) (hd : d.HasBuffer)
    (hfit : hdrSize hdr + widths params + (wires msgtype before).length < 2 ^ 32)
    {pos : Nat} (hpos : hdrSize hdr + widths before = pos) (into : Option EsifData) :
    deserializeEsifDataPtr msg into pos (pos + 4) = some (some d.received) := by
  have hwidth : p.width = 4 := by
    rcases hsent with rfl | ⟨-, rfl⟩ <;> rfl
  have hpwire : p.wire msgtype = Irpc.wire d := by
    rcases hsent with rfl | ⟨rfl, rfl⟩ <;> rfl
  have hpfields : p.fields msgtype (recordedOffset msgtype hdr params before p) =
      [.u32 (recordedOffset msgtype hdr params before p)] := by
    rcases hsent with rfl | ⟨rfl, rfl⟩ <;> rfl
  obtain ⟨-, hpast⟩ := recordedOffset_toNat hparams hfit
  have hne := recordedOffset_ne hparams hfit (by rw [hwidth]; decide)
  have hfields := h.fields before p after hparams hwf
  have hwire := h.wire before p after hparams
  rw [hpfields, hpos] at hfields
  rw [hpwire, ← hpast, hwidth, hpos] at hwire
  exact deserializeEsifDataPtr_wire into (hfields.field 0 rfl).readU32 hne hwire hd

/-- **An array parameter decodes from its fields**, the count and the offset. -/
theorem decode_array (h : IsRecord .procRequest hdr params msg)
    (before : List Param) {argc : UInt32} {ds : List EsifData}
    (hparams : params = before ++ .constArray argc (some ds) :: after)
    (hlen : ds.length = argc.toNat) (hargc : argc ≠ 0) (hmax : argc < maxArray)
    (hwf : ∀ q ∈ before, q.WellFormed) (hds : ∀ d ∈ ds, d.WellFormed)
    (hfit : hdrSize hdr + widths params + (wires .procRequest before).length < 2 ^ 32)
    {pos : Nat} (hpos : hdrSize hdr + widths before = pos) :
    readU32 msg pos = some argc ∧ deserializeEsifDataArray msg argc (pos + 4) (pos + 8) =
        some (some (ds.map EsifData.received)) := by
  obtain ⟨-, hpast⟩ := recordedOffset_toNat hparams hfit
  have hne := recordedOffset_ne hparams hfit (show 0 < 8 by decide)
  have hfields := h.fields before _ after hparams hwf
  have hwire := h.wire before _ after hparams
  have hpfields : Param.fields .procRequest
      (recordedOffset .procRequest hdr params before (.constArray argc (some ds)))
      (.constArray argc (some ds)) =
      [.u32 argc, .u32 (recordedOffset .procRequest hdr params before
        (.constArray argc (some ds)))] := by
    simp [Param.fields, hargc, hmax, hne]
  have hpwire : Param.wire .procRequest (.constArray argc (some ds)) = ds.flatMap Irpc.wire := by
    simp [Param.wire, hargc, hmax, ← hlen]
  rw [hpfields, hpos] at hfields
  rw [hpwire, ← hpast, hpos] at hwire
  exact ⟨(hfields.field 0 rfl).readU32,
    deserializeEsifDataArray_wire hlen hargc hmax (hfields.field 4 rfl).readU32 hne hds hwire⟩

/-! ### With the record anywhere in a message -/

section Nested

variable {m : List UInt8} {base : Nat}

/-- Every recorded offset fits when the record does. -/
theorem fits (h : IsRecord msgtype hdr params msg) (hfit : msg.length < 2 ^ 32)
    {before : List Param} (hparams : params = before ++ after) :
    hdrSize hdr + widths params + (wires msgtype before).length < 2 ^ 32 := by
  have hlen := h.length_eq
  have hsplit : wires msgtype params = wires msgtype before ++ wires msgtype after := by
    rw [hparams, wires, List.flatMap_append]
    rfl
  rw [hsplit, List.length_append] at hlen
  omega

theorem decodesAt (h : IsRecord msgtype hdr params msg) (hat : HasAt m base msg)
    (hwf : ∀ q ∈ params, q.WellFormed) (hfit : msg.length < 2 ^ 32) {before : List Param}
    (hparams : params = before ++ p :: after) :
    p.DecodesAt m base (hdrSize hdr + widths before) := by
  have hbefore : ∀ q ∈ before, q.WellFormed := by
    intro q hq
    exact hwf q (by rw [hparams]; exact List.mem_append_left _ hq)
  have hfields := hat.trans (h.fields before p after hparams hbefore)
  have hwire := hat.trans (h.wire before p after hparams)
  obtain ⟨-, hpast⟩ := recordedOffset_toNat hparams (h.fits hfit hparams)
  rw [← hpast, ← Nat.add_assoc] at hwire
  cases p with
  | scalar f => exact hfields.left
  | inline d =>
    have hd : d.WellFormed := hwf (.inline d) (by rw [hparams]; simp)
    exact uncastEsifData_payload hfields hwire hd.toHasBuffer
  | _ => trivial

/-- **Scalars and members decode one behind the other**, wherever the record lies. -/
theorem decodes (h : IsRecord msgtype hdr params msg) (hat : HasAt m base msg)
    (hwf : ∀ q ∈ params, q.WellFormed) (hfit : msg.length < 2 ^ 32) :
    Decodes m base (hdrSize hdr) params := by
  suffices hrest : ∀ after before, params = before ++ after →
      Decodes m base (hdrSize hdr + widths before) after from hrest params [] rfl
  intro after
  induction after with
  | nil => exact fun _ _ => trivial
  | cons p after ih =>
    intro before hparams
    have hnext := ih (before ++ [p]) (by simp [hparams])
    have hpos : hdrSize hdr + widths (before ++ [p]) = hdrSize hdr + widths before + p.width := by
      simp [widths, Nat.add_assoc]
    rw [hpos] at hnext
    exact ⟨h.decodesAt hat hwf hfit hparams, hnext⟩

/-- A nested record lies where its pointer says. -/
theorem nested_at (h : IsRecord .procRequest hdr params msg) (hat : HasAt m base msg)
    (hwf : ∀ q ∈ params, q.WellFormed) (hfit : msg.length < 2 ^ 32) (before : List Param)
    {a : Appender} (hparams : params = before ++ .constNested (some a) :: after) :
    ∃ offset, readU32 m (base + (hdrSize hdr + widths before)) = some offset ∧
      HasAt m (base + (hdrSize hdr + widths before) + 4 + offset.toNat) a.bytes := by
  have hbefore : ∀ q ∈ before, q.WellFormed := by
    intro q hq
    exact hwf q (by rw [hparams]; exact List.mem_append_left _ hq)
  obtain ⟨-, hpast⟩ := recordedOffset_toNat hparams (h.fits hfit hparams)
  have hfields := hat.trans (h.fields _ _ _ hparams hbefore)
  have hwire := hat.trans (h.wire _ _ _ hparams)
  rw [← hpast, ← Nat.add_assoc, ← Nat.add_assoc] at hwire
  exact ⟨_, (hfields.field 0 rfl).readU32, hwire⟩

end Nested

end IsRecord

end Irpc

import Dptf.Ipc.Client

/-!
# A call through the stubs is a call

The round trip of `rpcCall`, put together from its two messages: the request
decodes to the arguments as they arrive (`respond_message`), the response fills
the caller's structure (`finishCall_message`).

* `rpc_transparent` — for a function that reads the data of its structures only,
  the call gives what the function gives.
* `rpc_loses_spare_bytes` — a function that hands out the bytes behind the data
  gives the caller zeros instead of the caller's own bytes.
-/

open Lib

namespace Irpc

/-! ## The handler on an encoded request -/

/-- A response record that is patched with what it holds already stays as it is. -/
theorem patchResponse_contents {trx : IrpcTransaction} {blob : IBinary} {funcId : UInt32}
    {hdrTrx : IrpcTransaction} {handle : EsifHandle} {params : List Param}
    (hblob : trx.response = some blob) (hresult : hdrTrx.result = trx.result)
    (h : IsMessage .procResponse funcId hdrTrx handle params blob.contents) :
    ∃ blob', (patchResponse trx 0).response = some blob' ∧ blob'.contents = blob.contents := by
  have htype : HasAt blob.contents 0 (Field.u32 MsgType.procResponse.code).bytes :=
    h.header.field 0 rfl
  have hres : HasAt blob.contents (0 + resultAt) (Field.u32 trx.result).bytes := by
    rw [← hresult]
    exact h.header.field resultAt rfl
  have htypeLen := htype.length_le
  have hresLen := hres.length_le
  rw [IBinary.length_contents] at htypeLen hresLen
  unfold patchResponse
  rw [hblob]
  refine ⟨_, rfl, ?_⟩
  have hfirst : (blob.patch 0 (Field.u32 MsgType.procResponse.code).bytes).contents =
      blob.contents := by
    rw [IBinary.contents_patch _ htypeLen, htype.overwrite_eq]
  rw [IBinary.contents_patch _ (by simpa using hresLen), hfirst, hres.overwrite_eq]

theorem hasBuf_of_contents {b : IBinary} (h : b.contents ≠ []) : b.hasBuf = true := by
  have hne : b.buf ≠ [] := by
    intro hnil
    simp [IBinary.contents, hnil] at h
  simpa [IBinary.hasBuf] using hne

/-- **A handler given an encoded request** makes the decoded call and encodes its reply. -/
theorem respond_message {srv : Server} {s : Session} {funcId : UInt32} {hdrTrx : IrpcTransaction}
    {params : List Param} {msg : List UInt8} {d : Decoded} {ps : EsifData → List Param}
    {decode : List UInt8 → EsifHandle → Option (Option Decoded)}
    (h : IsMessage .procRequest funcId hdrTrx s.ipfHandle params msg)
    (hsession : srv.getEsifHandleByHandle s.ipfHandle ≠ esifInvalidHandle)
    (hdec : decode msg (srv.getEsifHandleByHandle s.ipfHandle) = some (some d))
    (henc : ∀ trx handle data, d.encode trx handle data = encodeFunc trx funcId handle (ps data)) :
    ∃ out blob answered,
      respond srv { s.received msg with result := esifEInvalidHandle } funcId decode = some out ∧
      out.rc = esifOk ∧ out.called = some d.call ∧ out.trx.response = some blob ∧
      answered.result = (srv.auth d.call).result ∧
      IsMessage .procResponse funcId answered s.ipfHandle (ps (srv.auth d.call).data)
        blob.contents := by
  let answered : IrpcTransaction := ⟨s.ipfHandle, hdrTrx.trxId, s.serverTimestamp,
    some (IBinary.create.clone msg), some IBinary.create, (srv.auth d.call).result⟩
  obtain ⟨blob, m, hencoded, hcontents, hm⟩ := encodeFunc_isMessage
    (show answered.target = some (.procResponse, IBinary.create) from rfl) funcId s.ipfHandle
    (ps (srv.auth d.call).data)
  have hbuf : (IBinary.create.clone msg).hasBuf = true :=
    hasBuf_of_contents (by simpa using h.ne_nil)
  rw [IBinary.contents_create, List.nil_append] at hcontents
  rw [← hcontents] at hm
  obtain ⟨blob', hpatched, hsame⟩ : ∃ blob', (patchResponse (answered.setTarget blob) 0).response =
      some blob' ∧ blob'.contents = blob.contents :=
    patchResponse_contents rfl (show answered.result = _ from rfl) hm
  refine ⟨⟨esifOk, patchResponse (answered.setTarget blob) 0, some d.call⟩, blob', answered,
    ?_, rfl, rfl, hpatched, rfl, hsame ▸ hm⟩
  have hid := h.read_funcId
  have htrxId := h.read_trxId
  have hhandle := h.read_esifHandle
  unfold respond
  simp only [Session.received, hsession, hbuf, IBinary.contents_clone, hid, hdec, htrxId, hhandle,
    henc, Bool.true_eq_false, or_self, if_false, Option.bind_eq_bind, Option.bind_some, ne_eq,
    not_true_eq_false, if_true]
  simp only [answered] at hencoded
  rw [hencoded]
  rfl

/-- **The way of a call**, for a function whose handler decodes any encoding of the request to
the call `d` and whose response carries one structure. -/
theorem exchange_message {srv : Server} {s : Session} {funcId : UInt32} {params : List Param}
    {d : Decoded} (before after : List Param) {field : Nat} {into : EsifData}
    {decode : List UInt8 → EsifHandle → Option (Option Decoded)}
    (hsession : srv.getEsifHandleByHandle s.ipfHandle ≠ esifInvalidHandle)
    (hdispatch : ∀ trx, dispatch srv trx funcId = respond srv trx funcId decode)
    (hdec : ∀ msg, IsMessage .procRequest funcId s.request s.ipfHandle params msg →
      decode msg (srv.getEsifHandleByHandle s.ipfHandle) = some (some d))
    (henc : ∀ trx handle data, d.encode trx handle data =
      encodeFunc trx funcId handle (before ++ .ptr (some data) :: after))
    (hwf : ∀ q ∈ before, q.WellFormed) (hpos : paramsAt + widths before = field)
    (hfit : paramsAt + widths (before ++ .ptr (some into) :: after) +
      (wires .procResponse before).length < 2 ^ 32)
    (hinto : into.HasBuffer) (hbuf : (srv.auth d.call).data.HasBuffer)
    (hlen : (srv.auth d.call).data.bufLen = into.bufLen) :
    ∃ r, exchange srv s (encodeFunc s.request funcId s.ipfHandle params) funcId field into =
        some r ∧
      r.called = some d.call ∧ r.rc = (srv.auth d.call).result ∧
      r.data.Same (srv.auth d.call).data := by
  obtain ⟨blob, msg, hencoded, hcontents, hmsg⟩ := encodeFunc_isMessage
    (show s.request.target = some (.procRequest, IBinary.create) from rfl) funcId s.ipfHandle params
  rw [IBinary.contents_create, List.nil_append] at hcontents
  obtain ⟨out, response, answered, hrespond, hrc, hcalled, hresponse, hresult, hm⟩ :=
    respond_message hmsg hsession (hdec msg hmsg) henc
  have hwidth : widths (before ++ .ptr (some (srv.auth d.call).data) :: after) =
      widths (before ++ .ptr (some into) :: after) := by
    simp [widths, Param.width]
  obtain ⟨updated, hfinish, hsame⟩ := finishCall_message hm rfl hwf (by rw [hwidth]; exact hfit)
    hpos hbuf hinto hlen.symm
  have hrequest : esifRequest srv (s.received msg) = some out := by
    rw [← hdispatch] at hrespond
    have hid := hmsg.read_funcId
    simp only [Session.received] at hrespond
    simp [esifRequest, Session.received, hid, hrespond, hrc, hresponse]
  refine ⟨⟨some d.call, answered.result, updated⟩, ?_, rfl, hresult, hsame⟩
  rw [hencoded]
  have htarget : (s.request.setTarget blob).request = some blob := rfl
  simp [exchange, htarget, hcontents, hrequest, hresponse, hrc, hfinish, hcalled]

/-! ## The three calls -/

section Calls

variable {srv : Server} {s : Session}

theorem deserializeParam_eq {m : List UInt8} {field : Nat} {d : EsifData}
    (h : deserializeEsifDataPtr m (some .zero) field (field + 4) = some (some d)) :
    deserializeParam m field = some d := by
  simp [deserializeParam, h]

theorem size_le_length_wire (d : EsifData) : EncodedEsifData.size ≤ (wire d).length := by
  rw [wire, List.length_append, EncodedEsifData.length_bytes]
  exact Nat.le_add_right _ _

/-- In a message below `2 ^ 32` bytes no recorded offset wraps. -/
theorem offset_fits {params before after : List Param} {p : Param}
    (hsize : paramsAt + widths params + (wires .procRequest params).length < 2 ^ 32)
    (hparams : params = before ++ p :: after)
    (hwire : EncodedEsifData.size ≤ (p.wire .procRequest).length) :
    paramsAt + widths params + (wires .procRequest before).length < 2 ^ 32 := by
  have hwires : (wires .procRequest params).length = (wires .procRequest before).length +
      ((p.wire .procRequest).length + (wires .procRequest after).length) := by
    rw [hparams]
    simp [wires]
  have h16 : EncodedEsifData.size = 16 := rfl
  omega

theorem decodeEsifGetConfig_message {n p v : EsifData} {msg : List UInt8}
    (hwf : (InOutCall.getConfig n p v).WellFormed)
    (hsize : (InOutCall.getConfig n p v).messageSize < 2 ^ 32)
    (h : IsMessage .procRequest Func.esifGetConfig s.request s.ipfHandle
      (InOutCall.getConfig n p v).params msg) (esifHandle : EsifHandle) :
    decodeEsifGetConfig msg esifHandle = some (some {
      call := (InOutCall.getConfig n p v).received.native esifHandle
      inout := v.received
      encode := fun trx handle data =>
        encodeEsifGetConfigFunc trx handle none none (some data) }) := by
  obtain ⟨hn, hp, hv⟩ := hwf
  have hnp : (Param.constPtr (some n)).WellFormed := by rintro _ ⟨⟩; exact hn
  have hpp : (Param.constPtr (some p)).WellFormed := by rintro _ ⟨⟩; exact hp
  have hname := deserializeParam_eq (h.decode_ptr [] rfl (Or.inr ⟨rfl, rfl⟩)
    (by simp) hn.toHasBuffer (offset_fits hsize rfl (size_le_length_wire n))
    (show paramsAt + widths [] = 46 from rfl) (some .zero))
  have hpath := deserializeParam_eq (h.decode_ptr [.constPtr (some n)] rfl
    (Or.inr ⟨rfl, rfl⟩) (by simpa using hnp) hp.toHasBuffer
    (offset_fits hsize rfl (size_le_length_wire p))
    (show paramsAt + widths [.constPtr (some n)] = 50 from rfl) (some .zero))
  have hvalue := deserializeParam_eq (h.decode_ptr [.constPtr (some n), .constPtr (some p)] rfl
    (Or.inl rfl) (by simpa using ⟨hnp, hpp⟩) hv.toHasBuffer
    (offset_fits hsize rfl (size_le_length_wire v))
    (show paramsAt + widths [.constPtr (some n), .constPtr (some p)] = 54 from rfl) (some .zero))
  simp [decodeEsifGetConfig, hname, hpath, hvalue]
  rfl

theorem decodeEsifPrimitive_message {participantHandle domainHandle : EsifHandle}
    {q r : EsifData} {prim : UInt32} {inst : UInt8} {msg : List UInt8}
    (hwf : (InOutCall.primitive participantHandle domainHandle q r prim inst).WellFormed)
    (hsize : (InOutCall.primitive participantHandle domainHandle q r prim inst).messageSize <
      2 ^ 32)
    (h : IsMessage .procRequest Func.esifPrimitive s.request s.ipfHandle
      (InOutCall.primitive participantHandle domainHandle q r prim inst).params msg)
    (esifHandle : EsifHandle) :
    decodeEsifPrimitive msg esifHandle = some (some {
      call := (InOutCall.primitive participantHandle domainHandle q r prim inst).received.native
        esifHandle
      inout := r.received
      encode := fun trx handle data =>
        encodeEsifPrimitiveFunc trx handle participantHandle domainHandle none (some data)
          prim inst }) := by
  obtain ⟨hq, hr⟩ := hwf
  have hph : (Param.scalar (.u64 participantHandle)).WellFormed := trivial
  have hdh : (Param.scalar (.u64 domainHandle)).WellFormed := trivial
  have hqp : (Param.constPtr (some q)).WellFormed := by rintro _ ⟨⟩; exact hq
  have hrp : (Param.ptr (some r)).WellFormed := by rintro _ ⟨⟩; exact hr
  have hprp : (Param.scalar (.u32 prim)).WellFormed := trivial
  have hreq := deserializeParam_eq (h.decode_ptr
    [.scalar (.u64 participantHandle), .scalar (.u64 domainHandle)] rfl (Or.inr ⟨rfl, rfl⟩)
    (by simpa using ⟨hph, hdh⟩) hq.toHasBuffer (offset_fits hsize rfl (size_le_length_wire q))
    (show paramsAt + widths _ = 62 from rfl) (some .zero))
  have hresp := deserializeParam_eq (h.decode_ptr
    [.scalar (.u64 participantHandle), .scalar (.u64 domainHandle), .constPtr (some q)] rfl
    (Or.inl rfl) (by simpa using ⟨hph, hdh, hqp⟩) hr.toHasBuffer
    (offset_fits hsize rfl (size_le_length_wire r))
    (show paramsAt + widths _ = 66 from rfl) (some .zero))
  have hpart : readU64 msg 46 = some participantHandle :=
    (h.scalar [] rfl (by simp) (show paramsAt + widths [] = 46 from rfl)).readU64
  have hdom : readU64 msg 54 = some domainHandle :=
    (h.scalar [.scalar (.u64 participantHandle)] rfl (by simpa using hph)
      (show paramsAt + widths _ = 54 from rfl)).readU64
  have hprim : readU32 msg 70 = some prim :=
    (h.scalar [.scalar (.u64 participantHandle), .scalar (.u64 domainHandle), .constPtr (some q),
      .ptr (some r)] rfl (by simpa using ⟨hph, hdh, hqp, hrp⟩)
      (show paramsAt + widths _ = 70 from rfl)).readU32
  have hinst : readU8 msg 74 = some inst :=
    (h.scalar [.scalar (.u64 participantHandle), .scalar (.u64 domainHandle), .constPtr (some q),
      .ptr (some r), .scalar (.u32 prim)] rfl (by simpa using ⟨hph, hdh, hqp, hrp, hprp⟩)
      (show paramsAt + widths _ = 74 from rfl)).readU8
  simp [decodeEsifPrimitive, hreq, hresp, hpart, hdom, hprim, hinst]
  rfl

theorem decodeEsifSendCommand_message {argc : UInt32} {argv : List EsifData} {r : EsifData}
    {msg : List UInt8} (hwf : (InOutCall.sendCommand argc argv r).WellFormed)
    (hsize : (InOutCall.sendCommand argc argv r).messageSize < 2 ^ 32)
    (h : IsMessage .procRequest Func.esifSendCommand s.request s.ipfHandle
      (InOutCall.sendCommand argc argv r).params msg) (esifHandle : EsifHandle) :
    decodeEsifSendCommand msg esifHandle = some (some {
      call := (InOutCall.sendCommand argc argv r).received.native esifHandle
      inout := r.received
      encode := fun trx handle data =>
        encodeEsifSendCommandFunc trx handle argc none (some data) }) := by
  obtain ⟨⟨hlen, hargc, hmax⟩, hargv, hr⟩ := hwf
  have hap : (Param.constArray argc (some argv)).WellFormed := by rintro _ ⟨⟩; exact hargv
  have hne : argv ≠ [] := by
    rintro rfl
    exact hargc (UInt32.toNat_inj.mp (by simpa using hlen.symm))
  have hwire : EncodedEsifData.size ≤
      ((Param.constArray argc (some argv)).wire .procRequest).length := by
    obtain ⟨d, ds, rfl⟩ := List.exists_cons_of_ne_nil hne
    have hd := size_le_length_wire d
    have htake : (d :: ds).take argc.toNat = d :: ds := List.take_of_length_le hlen.le
    simp only [Param.wire, hargc, hmax, ne_eq, not_false_eq_true, and_self, if_true,
      Option.map_some, Option.getD_some, htake, List.flatMap_cons, List.length_append]
    omega
  obtain ⟨hcount, harray⟩ := h.decode_array [] rfl hlen hargc hmax (by simp) hargv
    (offset_fits hsize rfl hwire) (show paramsAt + widths [] = 46 from rfl)
  have hresp := h.decode_ptr [.constArray argc (some argv)] rfl (Or.inl rfl)
    (by simpa using hap) hr.toHasBuffer (offset_fits hsize rfl (size_le_length_wire r))
    (show paramsAt + widths _ = 54 from rfl) none
  simp [decodeEsifSendCommand, hcount, harray, hresp]
  rfl

end Calls

/-! ## Transparency -/

/-- **RPC transparency.**  A function that reads the data of its structures only gets the call
that was made, up to the bytes behind the data, and the caller gets its result, type, length and
data. -/
theorem rpc_transparent (srv : Server) (s : Session) (c : InOutCall)
    (hf : ReadsDataOnly (srv.direct s))
    (hsession : srv.getEsifHandleByHandle s.ipfHandle ≠ esifInvalidHandle) (hwf : c.WellFormed)
    (hsize : c.messageSize < 2 ^ 32) :
    ∃ (c' : InOutCall) (r : RpcResult), rpcCall srv s c = some r ∧
      r.called = some (c'.native (srv.getEsifHandleByHandle s.ipfHandle)) ∧ c'.Same c ∧
      r.rc = (srv.direct s c).result ∧ r.data.Same (srv.direct s c).data := by
  have hinout : c.received.inout.HasBuffer := by
    rw [c.inout_received]
    exact hwf.inout.toHasBuffer.received
  have hbuf : (srv.direct s c.received).data.HasBuffer := hf.hasBuffer c.received hinout
  have hlen : (srv.direct s c.received).data.bufLen = c.inout.bufLen := by
    rw [hf.bufLen_eq c.received, c.inout_received]
    rfl
  obtain ⟨r, hr, hcalled, hrc, hsame⟩ : ∃ r, rpcCall srv s c = some r ∧
      r.called = some (c.received.native (srv.getEsifHandleByHandle s.ipfHandle)) ∧
      r.rc = (srv.direct s c.received).result ∧
      r.data.Same (srv.direct s c.received).data := by
    cases c with
    | getConfig n p v =>
      have hfit : 58 < 2 ^ 32 := by decide
      exact exchange_message [.constPtr none, .constPtr none] [] hsession
        (fun trx => rfl) (fun msg h => decodeEsifGetConfig_message hwf hsize h _)
        (fun trx handle data => rfl) (by simp [Param.WellFormed]) rfl hfit
        hwf.inout.toHasBuffer hbuf hlen
    | primitive ph dh q r prim inst =>
      have hfit : 75 < 2 ^ 32 := by decide
      exact exchange_message [.scalar (.u64 ph), .scalar (.u64 dh), .constPtr none]
        [.scalar (.u32 prim), .scalar (.u8 inst)] hsession (fun trx => rfl)
        (fun msg h => decodeEsifPrimitive_message hwf hsize h _) (fun trx handle data => rfl)
        (by simp [Param.WellFormed]) rfl hfit hwf.inout.toHasBuffer hbuf hlen
    | sendCommand argc argv r =>
      have hfit : 58 < 2 ^ 32 := by decide
      exact exchange_message [.constArray argc none] [] hsession
        (fun trx => rfl) (fun msg h => decodeEsifSendCommand_message hwf hsize h _)
        (fun trx handle data => rfl) (by simp [Param.WellFormed]) rfl hfit
        hwf.inout.toHasBuffer hbuf hlen
  obtain ⟨hresult, hdata⟩ := hf.same _ _ hwf.received_same
  exact ⟨c.received, r, hr, hcalled, hwf.received_same, hrc.trans hresult, hsame.trans hdata⟩

/-- A session with handle 7. -/
def sampleSession : Session := ⟨7, 0x8000000000000001, ⟨5, 6⟩, 0x8000000000000002, ⟨8, 9⟩⟩

/-- The structure of a call that may be changed, in the native call. -/
def EsifCall.inout : EsifCall → EsifData
  | .getConfig _ _ _ elementValue => elementValue
  | .setConfig _ _ _ elementValue _ => elementValue
  | .primitive _ _ _ _ response _ _ => response
  | .writeLog _ _ _ message _ => message
  | .eventRegister _ _ _ eventGuid => eventGuid
  | .eventUnregister _ _ _ eventGuid => eventGuid
  | .sendEvent _ _ _ eventData _ => eventData
  | .sendCommand _ _ _ response => response

theorem inout_native (c : InOutCall) (esifHandle : EsifHandle) :
    (c.native esifHandle).inout = c.inout := by
  cases c <;> rfl

/-- A framework whose functions only set the type. -/
def typingServer : Server where
  getEsifHandleByHandle h := h + 1
  auth c := ⟨esifOk, { c.inout with type := 32 }⟩

theorem InOutCall.Same.inout {c c' : InOutCall} (h : c.Same c') : c.inout.Same c'.inout := by
  cases c <;> cases c' <;> first | exact h.2.2 | exact False.elim h

theorem typingServer_readsDataOnly : ReadsDataOnly (typingServer.direct sampleSession) where
  bufLen_eq c := by simp [Server.direct, typingServer, inout_native]
  hasBuffer c h := by
    simp only [Server.direct, typingServer, inout_native]
    exact ⟨h.null_iff, h.length_eq⟩
  same c c' h := by
    simp only [Server.direct, typingServer, inout_native, true_and]
    have hin := h.inout
    exact ⟨rfl, hin.bufLen_eq, hin.dataLen_eq, hin.null_iff, hin.payload_eq⟩

/-- A command of one argument with a response buffer that is not full. -/
def sampleCommand : InOutCall :=
  .sendCommand 1 [⟨8, some [104, 105, 0], 3, 3⟩] ⟨8, some [1, 2, 3, 4], 4, 2⟩

theorem sampleCommand_wellFormed : sampleCommand.WellFormed := by
  refine ⟨by decide, ?_, ⟨⟨by decide, ?_⟩, by decide⟩⟩
  · intro d hd
    rw [List.mem_singleton] at hd
    rw [hd]
    exact ⟨⟨by decide, by rintro bytes ⟨⟩; rfl⟩, by decide⟩
  · rintro bytes ⟨⟩
    rfl

theorem rpc_transparent_command : ∃ (c' : InOutCall) (r : RpcResult),
    rpcCall typingServer sampleSession sampleCommand = some r ∧
      r.called = some (c'.native 8) ∧ c'.Same sampleCommand ∧ r.rc = esifOk ∧
      r.data.Same ⟨32, some [1, 2, 3, 4], 4, 2⟩ :=
  rpc_transparent typingServer sampleSession sampleCommand typingServer_readsDataOnly
    (by decide) sampleCommand_wellFormed (by decide +kernel)

/-! ## The bytes behind the data -/

/-- A framework whose functions declare the whole buffer to be data. -/
def exposingServer : Server where
  getEsifHandleByHandle h := h
  auth c := ⟨esifOk, { c.inout with dataLen := c.inout.bufLen }⟩

/-- **The bytes behind the data are not sent.**  A function that changes nothing but `data_len`,
raising it to `buf_len`, returns the caller's own bytes when called directly and zeros when
called through the stubs. -/
theorem rpc_loses_spare_bytes :
    (∀ c, (exposingServer.direct sampleSession c).data =
      { c.inout with dataLen := c.inout.bufLen }) ∧
    exposingServer.getEsifHandleByHandle sampleSession.ipfHandle ≠ esifInvalidHandle ∧
    sampleCommand.WellFormed ∧
    (rpcCall exposingServer sampleSession sampleCommand).map (fun r => (r.rc, r.data.payload)) =
      some (esifOk, [1, 2, 0, 0]) ∧
    (exposingServer.direct sampleSession sampleCommand).data.payload = [1, 2, 3, 4] :=
  ⟨fun c => by simp [Server.direct, exposingServer, inout_native], by decide,
    sampleCommand_wellFormed, by decide +kernel, by decide⟩

end Irpc

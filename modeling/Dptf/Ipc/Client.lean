import Dptf.Ipc.Server
import Mathlib.Data.List.Forall2

/-!
# The client's side of a call

A client encodes a call, waits for the response, and copies what came back into
the caller's structure.  With the server's handler in between this is the whole
way of a call; `rpcCall` is that composition, `Server.direct` the same call
without it.
-/

open Lib

namespace Irpc

/-! ## The stubs -/

/-- `Irpc_Unmarshall_EsifDataPtr`: the return code and the caller's structure afterwards. -/
def unmarshallEsifDataPtr (m : List UInt8) (into : EsifData) (encoded offsetfrom : Nat) :
    Option (EsifError × EsifData) := do
  let param ← deserializeEsifDataPtr m none encoded offsetfrom
  match param with
  | none => pure (esifEParameterIsNull, into)
  | some param =>
    let fits := param.dataLen ≤ into.bufLen ∧ into.bufPtr ≠ none ∧ into.bufLen ≠ 0
    let updated := { into with type := param.type, dataLen := param.dataLen }
    if fits then
      match param.bufPtr with
      | none => pure (esifENoMemory, updated)
      | some buf =>
        let copied := overwrite into.bytes 0 (buf.take param.dataLen.toNat)
        pure (esifOk, { updated with bufPtr := some copied })
    else pure (esifOk, updated)

/-- The end of the `Irpc_Request_Esif…` functions with a structure to fill, whose parameter lies
at `field`: the result of the call, unless only the copying failed. -/
def finishCall (m : List UInt8) (funcId : UInt32) (field : Nat) (into : EsifData) :
    Option (EsifError × EsifData) :=
  if m = [] then some (esifOk, into)
  else do
    let id ← readU32 m funcIdAt
    if id ≠ funcId then pure (esifOk, into)
    else
      let (rc, updated) ← unmarshallEsifDataPtr m into field (field + 4)
      let result ← readU32 m resultAt
      pure (if rc = esifOk ∨ result ≠ esifOk then result else rc, updated)

/-! ## A call from end to end -/

/-- What a call comes to: what the native interface was called with, if it was, and what the
caller gets. -/
structure RpcResult where
  called : Option EsifCall
  rc : EsifError
  data : EsifData
deriving DecidableEq, Repr

/-- A connected session: the handle the framework gave the client, and what the two sides put
into the headers of their transactions. -/
structure Session where
  ipfHandle : EsifHandle
  clientTrxId : UInt64
  clientTimestamp : EsifRealtime
  serverTrxId : UInt64
  serverTimestamp : EsifRealtime
deriving DecidableEq, Repr

/-- `IrpcTransaction_Create(IrpcMsg_ProcRequest)` in a client stub. -/
def Session.request (s : Session) : IrpcTransaction :=
  ⟨s.ipfHandle, s.clientTrxId, s.clientTimestamp, some IBinary.create, none, esifOk⟩

/-- The transaction in which the framework received a payload. -/
def Session.received (s : Session) (payload : List UInt8) : IrpcTransaction :=
  ⟨s.ipfHandle, s.serverTrxId, s.serverTimestamp, some (IBinary.create.clone payload), none,
    esifOk⟩

/-- From the encoded request to the caller's result.  Without a response the caller waits until
the transaction expires. -/
def exchange (srv : Server) (s : Session) (encoded : Option (IrpcTransaction × Nat))
    (funcId : UInt32) (field : Nat) (into : EsifData) : Option RpcResult :=
  match encoded with
  | none => some ⟨none, esifEParameterIsNull, into⟩
  | some (trx, _) => do
    let request ← trx.request
    let out ← esifRequest srv (s.received request.contents)
    match out.trx.response with
    | some response =>
      if out.rc = esifOk then
        let (rc, data) ← finishCall (IBinary.create.clone response.contents).contents funcId
          field into
        pure ⟨out.called, rc, data⟩
      else pure ⟨out.called, esifESessionDisconnected, into⟩
    | none => pure ⟨out.called, esifESessionDisconnected, into⟩

/-- A call with a structure that comes back: the arguments of `EsifGetConfig`, `EsifPrimitive`
and `EsifSendCommand`, without the handle. -/
inductive InOutCall
  | getConfig (nameSpace elementPath elementValue : EsifData)
  | primitive (participantHandle domainHandle : EsifHandle) (request response : EsifData)
      (primitive : UInt32) (inst : UInt8)
  | sendCommand (argc : UInt32) (argv : List EsifData) (response : EsifData)
deriving DecidableEq, Repr

namespace InOutCall

/-- The structure that comes back. -/
def inout : InOutCall → EsifData
  | .getConfig _ _ elementValue => elementValue
  | .primitive _ _ _ response _ _ => response
  | .sendCommand _ _ response => response

/-- The native call with these arguments. -/
def native (esifHandle : EsifHandle) : InOutCall → EsifCall
  | .getConfig nameSpace elementPath elementValue =>
    .getConfig esifHandle nameSpace elementPath elementValue
  | .primitive participantHandle domainHandle request response prim inst =>
    .primitive esifHandle participantHandle domainHandle request response prim inst
  | .sendCommand argc argv response => .sendCommand esifHandle argc argv response

end InOutCall

/-- The call made directly. -/
def Server.direct (srv : Server) (s : Session) (c : InOutCall) : EsifReply :=
  srv.auth (c.native (srv.getEsifHandleByHandle s.ipfHandle))

/-- `Irpc_Request_EsifGetConfig`, `Irpc_Request_EsifPrimitive` and the part of
`Irpc_Request_EsifSendCommand` behind its own `sdk-version` command, against a framework. -/
def rpcCall (srv : Server) (s : Session) : InOutCall → Option RpcResult
  | .getConfig nameSpace elementPath elementValue =>
    exchange srv s
      (encodeEsifGetConfigFunc s.request s.ipfHandle (some nameSpace) (some elementPath)
        (some elementValue))
      Func.esifGetConfig 54 elementValue
  | .primitive participantHandle domainHandle request response primitive inst =>
    exchange srv s
      (encodeEsifPrimitiveFunc s.request s.ipfHandle participantHandle domainHandle
        (some request) (some response) primitive inst)
      Func.esifPrimitive 66 response
  | .sendCommand argc argv response =>
    exchange srv s
      (encodeEsifSendCommandFunc s.request s.ipfHandle argc (some argv) (some response))
      Func.esifSendCommand 54 response

/-! ## What a well-behaved function sees -/

namespace InOutCall

/-- The parameters of the request. -/
def params : InOutCall → List Param
  | .getConfig nameSpace elementPath elementValue =>
    [.constPtr (some nameSpace), .constPtr (some elementPath), .ptr (some elementValue)]
  | .primitive participantHandle domainHandle request response prim inst =>
    [.scalar (.u64 participantHandle), .scalar (.u64 domainHandle), .constPtr (some request),
      .ptr (some response), .scalar (.u32 prim), .scalar (.u8 inst)]
  | .sendCommand argc argv response => [.constArray argc (some argv), .ptr (some response)]

/-- The size of the request message. -/
def messageSize (c : InOutCall) : Nat :=
  paramsAt + widths c.params + (wires .procRequest c.params).length

/-- Well-formed arguments: every structure is, and there are as many as `argc` says, at least
one and less than the limit. -/
def WellFormed : InOutCall → Prop
  | .getConfig nameSpace elementPath elementValue =>
    nameSpace.WellFormed ∧ elementPath.WellFormed ∧ elementValue.WellFormed
  | .primitive _ _ request response _ _ => request.WellFormed ∧ response.WellFormed
  | .sendCommand argc argv response =>
    (argv.length = argc.toNat ∧ argc ≠ 0 ∧ argc < maxArray) ∧ (∀ d ∈ argv, d.WellFormed) ∧
      response.WellFormed

/-- The same arguments up to the bytes behind the data. -/
def Same : InOutCall → InOutCall → Prop
  | .getConfig n p v, .getConfig n' p' v' => n.Same n' ∧ p.Same p' ∧ v.Same v'
  | .primitive h d q r p i, .primitive h' d' q' r' p' i' =>
    (h = h' ∧ d = d' ∧ p = p' ∧ i = i') ∧ q.Same q' ∧ r.Same r'
  | .sendCommand n vs r, .sendCommand n' vs' r' =>
    n = n' ∧ List.Forall₂ EsifData.Same vs vs' ∧ r.Same r'
  | _, _ => False

/-- The arguments as they arrive. -/
def received : InOutCall → InOutCall
  | .getConfig n p v => .getConfig n.received p.received v.received
  | .primitive h d q r p i => .primitive h d q.received r.received p i
  | .sendCommand n vs r => .sendCommand n (vs.map EsifData.received) r.received

theorem WellFormed.inout {c : InOutCall} (h : c.WellFormed) : c.inout.WellFormed := by
  cases c with
  | getConfig n p v => exact h.2.2
  | primitive _ _ q r _ _ => exact h.2
  | sendCommand n vs r => exact h.2.2

theorem inout_received (c : InOutCall) : c.received.inout = c.inout.received := by
  cases c <;> rfl

/-- **What arrives is the same call.** -/
theorem WellFormed.received_same {c : InOutCall} (h : c.WellFormed) : c.received.Same c := by
  cases c with
  | getConfig n p v =>
    exact ⟨h.1.toHasBuffer.received_same, h.2.1.toHasBuffer.received_same,
      h.2.2.toHasBuffer.received_same⟩
  | primitive _ _ q r _ _ =>
    exact ⟨⟨rfl, rfl, rfl, rfl⟩, h.1.toHasBuffer.received_same, h.2.toHasBuffer.received_same⟩
  | sendCommand n vs r =>
    refine ⟨rfl, ?_, h.2.2.toHasBuffer.received_same⟩
    have hvs := h.2.1
    rw [List.forall₂_map_left_iff, List.forall₂_same]
    exact fun d hd => (hvs d hd).toHasBuffer.received_same

end InOutCall

/-- A function that changes no more than type, length and buffer bytes, and looks at a structure
through its type, its lengths and the data in it only. -/
structure ReadsDataOnly (f : InOutCall → EsifReply) : Prop where
  bufLen_eq : ∀ c, (f c).data.bufLen = c.inout.bufLen
  hasBuffer : ∀ c, c.inout.HasBuffer → (f c).data.HasBuffer
  same : ∀ c c', c.Same c' → (f c).result = (f c').result ∧ (f c).data.Same (f c').data

/-! ## The way back -/

section Response

variable {m : List UInt8} {d into : EsifData}

/-- A structure that arrives in the caller's: type, length and data are taken over. -/
theorem unmarshall_same {encoded offsetfrom : Nat} (hd : d.HasBuffer) (hinto : into.HasBuffer)
    (hlen : into.bufLen = d.bufLen)
    (hdec : deserializeEsifDataPtr m none encoded offsetfrom = some (some d.received)) :
    ∃ updated, unmarshallEsifDataPtr m into encoded offsetfrom = some (esifOk, updated) ∧
      updated.Same d := by
  have htype : d.received.type = d.type := rfl
  have hdata : d.received.dataLen = d.dataLen := rfl
  have hnull : into.bufPtr = none ↔ d.bufPtr = none := by
    rw [hinto.null_iff, hd.null_iff, hlen]
  unfold unmarshallEsifDataPtr
  rw [hdec]
  simp only [Option.bind_eq_bind, Option.bind_some, htype, hdata]
  by_cases hz : d.bufLen = 0
  · -- no buffer on either side: only type and length travel
    have hno : ¬ (d.dataLen ≤ into.bufLen ∧ into.bufPtr ≠ none ∧ into.bufLen ≠ 0) := by
      rw [hlen]
      exact fun h => h.2.2 hz
    have hbytes : into.bytes = d.bytes := by
      have hinone := hinto.null_iff.mpr (hlen.trans hz)
      simp [EsifData.bytes, hinone, hd.null_iff.mpr hz]
    rw [if_neg hno]
    refine ⟨_, rfl, rfl, hlen, rfl, hnull, ?_⟩
    show (if d.dataLen ≤ into.bufLen then into.bytes.take d.dataLen.toNat else []) = d.payload
    rw [hlen, hbytes]
    rfl
  · have hne : into.bufLen ≠ 0 := hlen ▸ hz
    have hsome : into.bufPtr ≠ none := fun h => hne (hinto.null_iff.mp h)
    by_cases hle : d.dataLen ≤ d.bufLen
    · -- the data is copied over the start of the caller's buffer
      have hbuf : d.received.bufPtr = some (d.payload ++
          List.replicate (d.bufLen.toNat - d.payload.length) 0) := by
        simp [EsifData.received, hz]
      have hpay : d.payload.length = d.dataLen.toNat := by
        rw [hd.length_payload, if_pos hle]
      have htake : (d.payload ++ List.replicate (d.bufLen.toNat - d.payload.length) 0).take
          d.dataLen.toNat = d.payload := by
        rw [← hpay, List.take_left']
        rfl
      rw [if_pos ⟨hlen ▸ hle, hsome, hne⟩, hbuf]
      simp only [htake]
      refine ⟨_, rfl, rfl, hlen, rfl, ?_, ?_⟩
      · simp only [reduceCtorEq, false_iff]
        exact fun h => hsome (hnull.mpr h)
      · show (if d.dataLen ≤ into.bufLen then
          (overwrite into.bytes 0 d.payload).take d.dataLen.toNat else []) = d.payload
        have hfront : (overwrite into.bytes 0 d.payload).take (0 + d.payload.length) =
            into.bytes.take 0 ++ d.payload ++
              peekAt into.bytes (0 + d.payload.length) (d.payload.length - d.payload.length) :=
          take_overwrite (Nat.zero_le _) le_rfl
        rw [Nat.zero_add, hpay] at hfront
        rw [if_pos (hlen ▸ hle), hfront]
        simp [peekAt]
    · -- the function asked for a larger buffer: only type and length travel
      rw [if_neg (by rw [hlen]; exact fun h => hle h.1)]
      refine ⟨_, rfl, rfl, hlen, rfl, hnull, ?_⟩
      show (if d.dataLen ≤ into.bufLen then into.bytes.take d.dataLen.toNat else []) = d.payload
      rw [hlen, if_neg hle, EsifData.payload, if_neg hle]

/-- **The caller gets what the response holds.** -/
theorem finishCall_message {funcId : UInt32} {trx : IrpcTransaction} {handle : EsifHandle}
    {params before after : List Param} (h : IsMessage .procResponse funcId trx handle params m)
    (hparams : params = before ++ .ptr (some d) :: after) (hwf : ∀ q ∈ before, q.WellFormed)
    (hfit : paramsAt + widths params + (wires .procResponse before).length < 2 ^ 32)
    {field : Nat} (hpos : paramsAt + widths before = field) (hd : d.HasBuffer)
    (hinto : into.HasBuffer) (hlen : into.bufLen = d.bufLen) :
    ∃ updated, finishCall m funcId field into = some (trx.result, updated) ∧ updated.Same d := by
  have hdec := h.decode_ptr before hparams (Or.inl rfl) hwf hd hfit hpos none
  obtain ⟨updated, hun, hsame⟩ := unmarshall_same hd hinto hlen hdec
  have hne : m ≠ [] := h.ne_nil
  refine ⟨updated, ?_, hsame⟩
  simp [finishCall, hne, h.read_funcId, hun, h.read_result]

end Response

end Irpc

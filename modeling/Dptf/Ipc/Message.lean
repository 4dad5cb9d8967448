import Dptf.Ipc.Record

/-!
# Function messages

Every call between a client and the framework is one record: a header with the
function and the transaction, a result, a handle, then the parameters.
-/

open Lib

namespace Irpc

/-- `esif_ccb_realtime_t`. -/
structure EsifRealtime where
  clockticks : UInt64
  clocktime : UInt64
deriving DecidableEq, Repr

/-- `IrpcTransaction`, without its reference count and its signal. -/
structure IrpcTransaction where
  ipfHandle : EsifHandle
  trxId : UInt64
  timestamp : EsifRealtime
  request : Option IBinary
  response : Option IBinary
  result : EsifError

/-- `IRPC_REVISION`. -/
def revision : UInt16 := 0

/-! ## `eIrpcFunction` -/

namespace Func

def esifGetConfig : UInt32 := 0x20
def esifSetConfig : UInt32 := 0x21
def esifPrimitive : UInt32 := 0x22
def esifWriteLog : UInt32 := 0x23
def esifEventRegister : UInt32 := 0x24
def esifEventUnregister : UInt32 := 0x25
def esifSendEvent : UInt32 := 0x26
def esifSendCommand : UInt32 := 0x27
def appCreate : UInt32 := 0x40
def appParticipantCreate : UInt32 := 0x4A
def appDomainCreate : UInt32 := 0x4C

end Func

/-! ## The record -/

/-- `Encoded_IrpcMsg`. -/
def irpcHdr (msgtype : MsgType) (funcId : UInt32) (trx : IrpcTransaction) : List Field :=
  [.u32 msgtype.code, .u16 revision, .u32 funcId, .u64 trx.trxId,
    .u64 trx.timestamp.clockticks, .u64 trx.timestamp.clocktime]

/-- The start of every call into the framework: header, `result`, `esifHandle`. -/
def esifHdr (msgtype : MsgType) (funcId : UInt32) (trx : IrpcTransaction)
    (esifHandle : EsifHandle) : List Field :=
  irpcHdr msgtype funcId trx ++ [.u32 trx.result, .u64 esifHandle]

/-- Where `funcId` lies. -/
def funcIdAt : Nat := 6
/-- Where `trxId` lies. -/
def trxIdAt : Nat := 10
/-- Where `result` lies. -/
def resultAt : Nat := 34
/-- Where `esifHandle` lies. -/
def esifHandleAt : Nat := 38
/-- Where the parameters start. -/
def paramsAt : Nat := 46

theorem hdrSize_esifHdr (msgtype : MsgType) (funcId : UInt32) (trx : IrpcTransaction)
    (esifHandle : EsifHandle) : hdrSize (esifHdr msgtype funcId trx esifHandle) = paramsAt := rfl

/-- The message type and the blob an encoder writes to: the response when there is one. -/
def IrpcTransaction.target (trx : IrpcTransaction) : Option (MsgType × IBinary) :=
  match trx.response with
  | some blob => some (.procResponse, blob)
  | none => trx.request.map fun blob => (.procRequest, blob)

/-- The transaction with that blob replaced. -/
def IrpcTransaction.setTarget (trx : IrpcTransaction) (blob : IBinary) : IrpcTransaction :=
  match trx.response with
  | some _ => { trx with response := some blob }
  | none => { trx with request := some blob }

/-- What the `Irpc_Encode_Esif…Func` encoders share.  The result is the transaction and the
position of the record in the blob. -/
def encodeFunc (trx : IrpcTransaction) (funcId : UInt32) (esifHandle : EsifHandle)
    (params : List Param) : Option (IrpcTransaction × Nat) :=
  trx.target.map fun (msgtype, blob) =>
    (trx.setTarget (encodeRecord msgtype blob (esifHdr msgtype funcId trx esifHandle) params),
      blob.getLen)

/-- An encoded message. -/
abbrev IsMessage (msgtype : MsgType) (funcId : UInt32) (trx : IrpcTransaction)
    (esifHandle : EsifHandle) (params : List Param) (msg : List UInt8) : Prop :=
  IsRecord msgtype (esifHdr msgtype funcId trx esifHandle) params msg

/-- **What an encoder leaves in its blob** is a message, behind what was there before. -/
theorem encodeFunc_isMessage {trx : IrpcTransaction} {msgtype : MsgType} {blob : IBinary}
    (htrx : trx.target = some (msgtype, blob)) (funcId : UInt32) (esifHandle : EsifHandle)
    (params : List Param) : ∃ blob' msg,
      encodeFunc trx funcId esifHandle params = some (trx.setTarget blob', blob.getLen) ∧
      blob'.contents = blob.contents ++ msg ∧
      IsMessage msgtype funcId trx esifHandle params msg := by
  obtain ⟨msg, hcontents, hmsg⟩ := encodeRecord_isRecord msgtype blob
    (esifHdr msgtype funcId trx esifHandle) params
  exact ⟨_, msg, by simp [encodeFunc, htrx], hcontents, hmsg⟩

/-! ## Reading a header back -/

namespace IsMessage

variable {msgtype : MsgType} {funcId : UInt32} {trx : IrpcTransaction} {esifHandle : EsifHandle}
  {params : List Param} {msg : List UInt8}

theorem read_funcId (h : IsMessage msgtype funcId trx esifHandle params msg) :
    readU32 msg funcIdAt = some funcId := by
  have hat := h.header.field funcIdAt rfl
  rw [Nat.zero_add] at hat
  exact hat.readU32

theorem read_trxId (h : IsMessage msgtype funcId trx esifHandle params msg) :
    readU64 msg trxIdAt = some trx.trxId := by
  have hat := h.header.field trxIdAt rfl
  rw [Nat.zero_add] at hat
  exact hat.readU64

theorem read_result (h : IsMessage msgtype funcId trx esifHandle params msg) :
    readU32 msg resultAt = some trx.result := by
  have hat := h.header.field resultAt rfl
  rw [Nat.zero_add] at hat
  exact hat.readU32

theorem read_esifHandle (h : IsMessage msgtype funcId trx esifHandle params msg) :
    readU64 msg esifHandleAt = some esifHandle := by
  have hat := h.header.field esifHandleAt rfl
  rw [Nat.zero_add] at hat
  exact hat.readU64

theorem ne_nil (h : IsMessage msgtype funcId trx esifHandle params msg) : msg ≠ [] := by
  rintro rfl
  have hlen := h.length_eq
  rw [hdrSize_esifHdr, List.length_nil, paramsAt] at hlen
  omega

end IsMessage

end Irpc

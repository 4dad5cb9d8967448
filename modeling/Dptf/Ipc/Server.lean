import Dptf.Ipc.Message

/-!
# The framework's side of a call

`ipfsrv_irpc` handles one received request: it reads the function, decodes the
parameters, calls the native interface when the message carries the handle of
its own session, and encodes the response.

All reads are checked reads of the payload: the result is `none` when a handler
reads a byte the payload does not have.
-/

open Lib

namespace Irpc

/-- A call of the native interface, as a handler makes it. -/
inductive EsifCall
  | getConfig (esifHandle : EsifHandle) (nameSpace elementPath elementValue : EsifData)
  | setConfig (esifHandle : EsifHandle) (nameSpace elementPath elementValue : EsifData)
      (elementFlags : UInt32)
  | primitive (esifHandle participantHandle domainHandle : EsifHandle)
      (request response : EsifData) (primitive : UInt32) (inst : UInt8)
  | writeLog (esifHandle participantHandle domainHandle : EsifHandle) (message : EsifData)
      (logType : UInt32)
  | eventRegister (esifHandle participantHandle domainHandle : EsifHandle) (eventGuid : EsifData)
  | eventUnregister (esifHandle participantHandle domainHandle : EsifHandle)
      (eventGuid : EsifData)
  | sendEvent (esifHandle participantHandle domainHandle : EsifHandle)
      (eventData eventGuid : EsifData)
  | sendCommand (esifHandle : EsifHandle) (argc : UInt32) (argv : List EsifData)
      (response : EsifData)
deriving DecidableEq, Repr

/-- What a native function leaves: its result, and the structure it may have changed. -/
structure EsifReply where
  result : EsifError
  data : EsifData
deriving DecidableEq, Repr

/-- What the handlers use of the framework. -/
structure Server where
  /-- `AppSessionMgr_GetEsifHandleByHandle`. -/
  getEsifHandleByHandle : EsifHandle → EsifHandle
  /-- The `AuthMgr_Esif…` functions.  Where a call has nothing to change, the data of the reply
  is not looked at. -/
  auth : EsifCall → EsifReply

/-! ## Encoders -/

/-- `Irpc_Encode_EsifGetConfigFunc`. -/
def encodeEsifGetConfigFunc (trx : IrpcTransaction) (esifHandle : EsifHandle)
    (nameSpace elementPath elementValue : Option EsifData) : Option (IrpcTransaction × Nat) :=
  encodeFunc trx Func.esifGetConfig esifHandle
    [.constPtr nameSpace, .constPtr elementPath, .ptr elementValue]

/-- `Irpc_Encode_EsifSetConfigFunc`. -/
def encodeEsifSetConfigFunc (trx : IrpcTransaction) (esifHandle : EsifHandle)
    (nameSpace elementPath elementValue : Option EsifData) (elementFlags : UInt32) :
    Option (IrpcTransaction × Nat) :=
  encodeFunc trx Func.esifSetConfig esifHandle
    [.constPtr nameSpace, .constPtr elementPath, .constPtr elementValue,
      .scalar (.u32 elementFlags)]

/-- `Irpc_Encode_EsifPrimitiveFunc`. -/
def encodeEsifPrimitiveFunc (trx : IrpcTransaction)
    (esifHandle participantHandle domainHandle : EsifHandle) (request response : Option EsifData)
    (primitive : UInt32) (inst : UInt8) : Option (IrpcTransaction × Nat) :=
  encodeFunc trx Func.esifPrimitive esifHandle
    [.scalar (.u64 participantHandle), .scalar (.u64 domainHandle), .constPtr request,
      .ptr response, .scalar (.u32 primitive), .scalar (.u8 inst)]

/-- `Irpc_Encode_EsifWriteLogFunc`. -/
def encodeEsifWriteLogFunc (trx : IrpcTransaction)
    (esifHandle participantHandle domainHandle : EsifHandle) (message : Option EsifData)
    (logType : UInt32) : Option (IrpcTransaction × Nat) :=
  encodeFunc trx Func.esifWriteLog esifHandle
    [.scalar (.u64 participantHandle), .scalar (.u64 domainHandle), .constPtr message,
      .scalar (.u32 logType)]

/-- `Irpc_Encode_EsifEventActionFunc`. -/
def encodeEsifEventActionFunc (trx : IrpcTransaction) (funcId : UInt32)
    (esifHandle participantHandle domainHandle : EsifHandle) (eventGuid : Option EsifData) :
    Option (IrpcTransaction × Nat) :=
  encodeFunc trx funcId esifHandle
    [.scalar (.u64 participantHandle), .scalar (.u64 domainHandle), .constPtr eventGuid]

/-- `Irpc_Encode_EsifSendEventFunc`. -/
def encodeEsifSendEventFunc (trx : IrpcTransaction)
    (esifHandle participantHandle domainHandle : EsifHandle)
    (eventData eventGuid : Option EsifData) : Option (IrpcTransaction × Nat) :=
  encodeFunc trx Func.esifSendEvent esifHandle
    [.scalar (.u64 participantHandle), .scalar (.u64 domainHandle), .constPtr eventData,
      .constPtr eventGuid]

/-- `Irpc_Encode_EsifSendCommandFunc`. -/
def encodeEsifSendCommandFunc (trx : IrpcTransaction) (esifHandle : EsifHandle) (argc : UInt32)
    (argv : Option (List EsifData)) (response : Option EsifData) :
    Option (IrpcTransaction × Nat) :=
  encodeFunc trx Func.esifSendCommand esifHandle [.constArray argc argv, .ptr response]

/-! ## Handlers -/

/-- What a handler has read: the call to make, the structure the call may change, and the
encoder of the response, which is given the handle in the message and the structure. -/
structure Decoded where
  call : EsifCall
  inout : EsifData
  encode : IrpcTransaction → EsifHandle → EsifData → Option (IrpcTransaction × Nat)

/-- How a request ends: the return code, the transaction, and the native call, if one was made. -/
structure Outcome where
  rc : EsifError
  trx : IrpcTransaction
  called : Option EsifCall

/-- The two fields a handler sets again in the response record at `ret`. -/
def patchResponse (trx : IrpcTransaction) (ret : Nat) : IrpcTransaction :=
  match trx.response with
  | none => trx
  | some blob =>
    let typed := blob.patch ret (Field.u32 MsgType.procResponse.code).bytes
    { trx with response := some (typed.patch (ret + resultAt) (Field.u32 trx.result).bytes) }

/-- What the handlers share.  `decode` reads the parameters from the payload; it gets the
session's native handle. -/
def respond (srv : Server) (trx : IrpcTransaction) (funcId : UInt32)
    (decode : List UInt8 → EsifHandle → Option (Option Decoded)) : Option Outcome :=
  let esifHandle := srv.getEsifHandleByHandle trx.ipfHandle
  match trx.request with
  | none => some ⟨esifEParameterIsNull, trx, none⟩
  | some request =>
    if esifHandle = esifInvalidHandle ∨ request.hasBuf = false then
      some ⟨esifEParameterIsNull, trx, none⟩
    else do
      let m := request.contents
      let id ← readU32 m funcIdAt
      if id ≠ funcId then pure ⟨esifEParameterIsNull, trx, none⟩
      else
        let decoded ← decode m esifHandle
        let created := { trx with response := some IBinary.create }
        match decoded with
        | none => pure ⟨esifEParameterIsNull, created, none⟩
        | some d =>
          let trxId ← readU64 m trxIdAt
          let handle ← readU64 m esifHandleAt
          -- the native function runs for the session's own handle only
          let reply := if trx.ipfHandle = handle then srv.auth d.call else ⟨trx.result, d.inout⟩
          let called := if trx.ipfHandle = handle then some d.call else none
          let answered := { created with trxId := trxId, result := reply.result }
          match d.encode answered handle reply.data with
          | none => pure ⟨esifEParameterIsNull, answered, called⟩
          | some (encoded, ret) => pure ⟨esifOk, patchResponse encoded ret, called⟩

section Decoders

variable (m : List UInt8) (esifHandle : EsifHandle)

/-- `Irpc_Deserialize_EsifDataPtr` of the parameter at `field` into a zeroed structure of the
handler's own, which the function returns whether it filled it or not. -/
def deserializeParam (field : Nat) : Option EsifData :=
  (deserializeEsifDataPtr m (some .zero) field (field + 4)).map fun d => d.getD .zero

def decodeEsifGetConfig : Option (Option Decoded) := do
  let nameSpace ← deserializeParam m 46
  let elementPath ← deserializeParam m 50
  let elementValue ← deserializeParam m 54
  pure (some {
    call := .getConfig esifHandle nameSpace elementPath elementValue
    inout := elementValue
    encode := fun trx handle data => encodeEsifGetConfigFunc trx handle none none (some data) })

def decodeEsifSetConfig : Option (Option Decoded) := do
  let nameSpace ← deserializeParam m 46
  let elementPath ← deserializeParam m 50
  let elementValue ← deserializeParam m 54
  let elementFlags ← readU32 m 58
  pure (some {
    call := .setConfig esifHandle nameSpace elementPath elementValue elementFlags
    inout := .zero
    encode := fun trx handle _ =>
      encodeEsifSetConfigFunc trx handle none none none elementFlags })

def decodeEsifPrimitive : Option (Option Decoded) := do
  let request ← deserializeParam m 62
  let response ← deserializeParam m 66
  let participantHandle ← readU64 m 46
  let domainHandle ← readU64 m 54
  let primitive ← readU32 m 70
  let inst ← readU8 m 74
  pure (some {
    call := .primitive esifHandle participantHandle domainHandle request response primitive inst
    inout := response
    encode := fun trx handle data =>
      encodeEsifPrimitiveFunc trx handle participantHandle domainHandle none (some data)
        primitive inst })

def decodeEsifWriteLog : Option (Option Decoded) := do
  let message ← deserializeParam m 62
  let participantHandle ← readU64 m 46
  let domainHandle ← readU64 m 54
  let logType ← readU32 m 66
  pure (some {
    call := .writeLog esifHandle participantHandle domainHandle message logType
    inout := .zero
    encode := fun trx handle _ =>
      encodeEsifWriteLogFunc trx handle participantHandle domainHandle none logType })

/-- The two event functions differ in the call only; their response carries the session's native
handle where the others repeat the handle of the message. -/
def decodeEsifEventAction (funcId : UInt32)
    (call : EsifHandle → EsifHandle → EsifHandle → EsifData → EsifCall) :
    Option (Option Decoded) := do
  let eventGuid ← deserializeParam m 62
  let participantHandle ← readU64 m 46
  let domainHandle ← readU64 m 54
  pure (some {
    call := call esifHandle participantHandle domainHandle eventGuid
    inout := .zero
    encode := fun trx _ _ =>
      encodeEsifEventActionFunc trx funcId esifHandle participantHandle domainHandle none })

def decodeEsifSendEvent : Option (Option Decoded) := do
  let eventData ← deserializeParam m 62
  let eventGuid ← deserializeParam m 66
  let participantHandle ← readU64 m 46
  let domainHandle ← readU64 m 54
  pure (some {
    call := .sendEvent esifHandle participantHandle domainHandle eventData eventGuid
    inout := .zero
    encode := fun trx handle _ =>
      encodeEsifSendEventFunc trx handle participantHandle domainHandle none none })

/-- The only handler that lets the decoders allocate, so that a null array or a null response
ends it. -/
def decodeEsifSendCommand : Option (Option Decoded) := do
  let argc ← readU32 m 46
  let argv ← deserializeEsifDataArray m argc 50 54
  let response ← deserializeEsifDataPtr m none 54 58
  match argv, response with
  | some argv, some response =>
    pure (some {
      call := .sendCommand esifHandle argc argv response
      inout := response
      encode := fun trx handle data =>
        encodeEsifSendCommandFunc trx handle argc none (some data) })
  | _, _ => pure none

end Decoders

section Handlers

variable (srv : Server) (trx : IrpcTransaction)

/-- `Irpc_Response_EsifGetConfig`. -/
def responseEsifGetConfig : Option Outcome :=
  respond srv trx Func.esifGetConfig decodeEsifGetConfig

/-- `Irpc_Response_EsifSetConfig`. -/
def responseEsifSetConfig : Option Outcome :=
  respond srv trx Func.esifSetConfig decodeEsifSetConfig

/-- `Irpc_Response_EsifPrimitive`. -/
def responseEsifPrimitive : Option Outcome :=
  respond srv trx Func.esifPrimitive decodeEsifPrimitive

/-- `Irpc_Response_EsifWriteLog`. -/
def responseEsifWriteLog : Option Outcome :=
  respond srv trx Func.esifWriteLog decodeEsifWriteLog

/-- `Irpc_Response_EsifEventRegister`. -/
def responseEsifEventRegister : Option Outcome :=
  respond srv trx Func.esifEventRegister fun m esifHandle =>
    decodeEsifEventAction m esifHandle Func.esifEventRegister .eventRegister

/-- `Irpc_Response_EsifEventUnregister`. -/
def responseEsifEventUnregister : Option Outcome :=
  respond srv trx Func.esifEventUnregister fun m esifHandle =>
    decodeEsifEventAction m esifHandle Func.esifEventUnregister .eventUnregister

/-- `Irpc_Response_EsifSendEvent`. -/
def responseEsifSendEvent : Option Outcome :=
  respond srv trx Func.esifSendEvent decodeEsifSendEvent

/-- `Irpc_Response_EsifSendCommand`. -/
def responseEsifSendCommand : Option Outcome :=
  respond srv trx Func.esifSendCommand decodeEsifSendCommand

/-- The switch of `IrpcTransaction_EsifRequest`. -/
def dispatch (funcId : UInt32) : Option Outcome :=
  if funcId = Func.esifGetConfig then responseEsifGetConfig srv trx
  else if funcId = Func.esifSetConfig then responseEsifSetConfig srv trx
  else if funcId = Func.esifPrimitive then responseEsifPrimitive srv trx
  else if funcId = Func.esifWriteLog then responseEsifWriteLog srv trx
  else if funcId = Func.esifEventRegister then responseEsifEventRegister srv trx
  else if funcId = Func.esifEventUnregister then responseEsifEventUnregister srv trx
  else if funcId = Func.esifSendEvent then responseEsifSendEvent srv trx
  else if funcId = Func.esifSendCommand then responseEsifSendCommand srv trx
  else some ⟨esifENotImplemented, { trx with result := esifENotImplemented }, none⟩

/-- `IrpcTransaction_EsifRequest`. -/
def esifRequest : Option Outcome :=
  match trx.request, trx.response with
  | some request, none => do
    let funcId ← readU32 request.contents funcIdAt
    let out ← dispatch srv { trx with result := esifEInvalidHandle } funcId
    pure (if out.rc = esifOk ∧ out.trx.response.isNone then { out with rc := esifENoMemory }
      else out)
  | _, _ => some ⟨esifEParameterIsNull, trx, none⟩

end Handlers

end Irpc

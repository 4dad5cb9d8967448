import Dptf.Lib.Machine
import Dptf.Lib.Slots
import Dptf.Ipc.Message

/-!
# The transactions of a client session

A thread that calls into the framework creates a transaction, puts it in the
session's pool and waits for its signal.  The receiving thread takes the
transaction of a response out of the pool and signals it; what waits too long
expires.
-/

open Lib

namespace Irpc

/-! ## Constants -/

/-- `IPFTRX_MATCHANY`. -/
def trxMatchAny : UInt64 := 0xFFFFFFFFFFFFFFFF

/-- `TRXID_MIN`. -/
def trxIdMin : UInt64 := 0x8000000000000000

/-- `TRXID_MAX`. -/
def trxIdMax : UInt64 := 0xFFFFFFFFFFFF0000

/-- `TRX_POOL_INITIAL`, that is `ESIF_MAX_CLIENTS`. -/
def trxPoolInitial : Nat := 32

/-- `TRX_POOL_GROWBY`. -/
def trxPoolGrowBy : Nat := 2

/-- `TRX_POOL_MAXSIZE`. -/
def trxPoolMaxSize : Nat := 32 * 64

/-- `TRX_EXPIRE_ALL`. -/
def trxExpireAll : Nat := 0

/-- `TRX_EXPIRE_TIMEOUT_NEVER`. -/
def trxExpireTimeoutNever : Nat := 0x7FFFFFFF

/-! ## State -/

/-- Where the thread of a transaction stands. -/
inductive Phase
  /-- `IrpcTransaction_Create` has returned. -/
  | created
  /-- `IpfTrxMgr_AddTransaction` has returned `ESIF_OK`. -/
  | added
  /-- In `IrpcTransaction_Wait`. -/
  | waiting
  /-- Past `IrpcTransaction_PutRef`, with this result. -/
  | left (rc : EsifError)
deriving DecidableEq, Repr

/-- An `IrpcTransaction` in memory. -/
structure TrxObj where
  trx : IrpcTransaction
  refCount : Int
  phase : Phase
  /-- How often `signal_post` was called on it. -/
  posts : Nat
  /-- How many references the pool has taken. -/
  pooled : Nat

/-- A client session: its pool holds addresses, and `objs` what lies there. -/
structure IpcSession where
  trxPool : List (Option Nat)
  objs : List TrxObj
  /-- `trxIdGenerator`, shared by all sessions of the process. -/
  trxIdGenerator : UInt64

namespace TrxObj

/-- `IrpcTransaction_GetRef`. -/
def getRef (o : TrxObj) : TrxObj := { o with refCount := o.refCount + 1 }

/-- `IrpcTransaction_PutRef`.  Who comes to 0 destroys the transaction. -/
def putRef (o : TrxObj) : TrxObj := { o with refCount := o.refCount - 1 }

/-- `IrpcTransaction_Signal`. -/
def signal (o : TrxObj) : TrxObj := { o with posts := o.posts + 1 }

/-- The pool takes its reference; the request goes to the send queue. -/
def enter (o : TrxObj) : TrxObj :=
  { o.getRef with
    phase := .added, pooled := o.pooled + 1, trx := { o.trx with request := none } }

/-- The thread goes on to wait. -/
def wait (o : TrxObj) : TrxObj := { o with phase := .waiting }

/-- The thread is done with the transaction and returns `rc`. -/
def leave (o : TrxObj) (rc : EsifError) : TrxObj := { o.putRef with phase := .left rc }

/-- The response is stored and the thread signalled. -/
def complete (o : TrxObj) (response : IBinary) : TrxObj :=
  { o.signal with trx := { o.trx with response := some response } }

/-- What expiry does to one transaction. -/
def expire (o : TrxObj) : TrxObj :=
  { o.signal.putRef with trx := { o.trx with request := none, response := none } }

/-- Its timeout starts again. -/
def reset (o : TrxObj) (now : EsifRealtime) : TrxObj :=
  { o with trx := { o.trx with timestamp := now } }

/-- `IrpcTransaction_WaitForResponse`, once `signal_wait` has returned. -/
def waitForResponse (o : TrxObj) : EsifError :=
  if o.trx.result = esifOk ∧ o.trx.response.isNone then esifESessionDisconnected
  else if o.trx.result = esifESessionRequestFailed then esifESessionDisconnected
  else o.trx.result

end TrxObj

namespace IpcSession

/-- `IpfTrxMgr_Init`. -/
def init : IpcSession := ⟨List.replicate trxPoolInitial none, [], trxIdMin⟩

/-- The transactions in the pool. -/
def outstanding (s : IpcSession) : List Nat := s.trxPool.reduceOption

/-- The session with these slots. -/
def setPool (s : IpcSession) (trxPool : List (Option Nat)) : IpcSession := { s with trxPool }

/-- What is done to the transaction at an address. -/
def modify (s : IpcSession) (ref : Nat) (f : TrxObj → TrxObj) : IpcSession :=
  { s with objs := s.objs.modify ref f }

end IpcSession

/-! ## The functions -/

/-- The id `IrpcTransaction_Create` takes, and the generator afterwards. -/
def nextTrxId (generator : UInt64) : UInt64 × UInt64 :=
  let trxId := generator + 1
  (trxId, if trxId = trxIdMax then trxIdMin else trxId)

/-- `IrpcTransaction_Create(IrpcMsg_ProcRequest)`, with the session's handle and the request
encoded into it. -/
def create (s : IpcSession) (ipfHandle : EsifHandle) (timestamp : EsifRealtime)
    (request : IBinary) : IpcSession :=
  let (trxId, generator) := nextTrxId s.trxIdGenerator
  { s with
    objs := s.objs ++
      [⟨⟨ipfHandle, trxId, timestamp, some request, none, esifOk⟩, 1, .created, 0, 0⟩]
    trxIdGenerator := generator }

/-- The slots after `IpfTrxMgr_AddTransaction`, unless it fails: the first free one, else the
pool grows, when it may and `grown` says that the memory was there. -/
def addSlot (trxPool : List (Option Nat)) (ref : Nat) (grown : Bool) :
    Option (List (Option Nat)) :=
  match insertFirst ref trxPool with
  | some trxPool' => some trxPool'
  | none =>
    if trxPool.length + trxPoolGrowBy ≤ trxPoolMaxSize ∧ grown then
      some (trxPool ++ some ref :: List.replicate (trxPoolGrowBy - 1) none)
    else none

/-- `IpfTrxMgr_AddTransaction`, as `IrpcTransaction_QueueRequest` calls it.  The request goes to
the send queue; without a slot the thread returns. -/
def addTransaction (s : IpcSession) (ref : Nat) (grown : Bool) : IpcSession :=
  match addSlot s.trxPool ref grown with
  | some trxPool => (s.setPool trxPool).modify ref TrxObj.enter
  | none => s.modify ref fun o => o.leave esifEMaximumCapacityReached

/-- Which transactions `IpfTrxMgr_GetTransaction` takes. -/
def IpcSession.isMatch (s : IpcSession) (ipfHandle : EsifHandle) (trxId : UInt64) (ref : Nat) :
    Bool :=
  match s.objs[ref]? with
  | none => false
  | some o =>
    (o.trx.ipfHandle == ipfHandle || ipfHandle == esifInvalidHandle) &&
      (o.trx.trxId == trxId || trxId == trxMatchAny)

/-- `IpfTrxMgr_GetTransaction`: the first transaction that matches leaves the pool. -/
def getTransaction (s : IpcSession) (ipfHandle : EsifHandle) (trxId : UInt64) :
    Option (Nat × IpcSession) :=
  (takeFirst (s.isMatch ipfHandle trxId) s.trxPool).map fun (ref, trxPool) =>
    (ref, (s.setPool trxPool).modify ref TrxObj.putRef)

/-- A response as it arrives: the id in its header, the payload the frame announces, and whether
the memory for its copy is there. -/
structure Reply where
  trxId : UInt64
  payload : List UInt8
  allocated : Bool

/-- `IBinary_Clone` of the payload succeeds.  It returns no buffer for no bytes. -/
def Reply.cloned (r : Reply) : Bool := r.allocated && !r.payload.isEmpty

/-- The `IrpcMsg_ProcResponse` case of `IpcSession_ReceiveMsg`. -/
def receiveResponse (s : IpcSession) (r : Reply) : IpcSession :=
  match getTransaction s esifInvalidHandle r.trxId with
  | none => s
  | some (ref, s') =>
    if r.cloned then s'.modify ref fun o => o.complete (IBinary.create.clone r.payload) else s'

/-- `esif_ccb_realtime_diff_sec`, for a clock of that resolution. -/
def realtimeDiffSec (resolution : UInt64) (t1 t2 : EsifRealtime) : Nat :=
  ((t2.clockticks - t1.clockticks) / resolution / 1000000000).toNat

/-- Which transactions `IpfTrxMgr_ExpireTimeout` takes. -/
def IpcSession.isExpired (s : IpcSession) (seconds : Nat) (now : EsifRealtime)
    (resolution : UInt64) (ref : Nat) : Bool :=
  match s.objs[ref]? with
  | none => false
  | some o =>
    seconds == trxExpireAll || decide (seconds ≤ realtimeDiffSec resolution o.trx.timestamp now)

/-- `IpfTrxMgr_ExpireTimeout`. -/
def expireTimeout (s : IpcSession) (seconds : Nat) (now : EsifRealtime) (resolution : UInt64) :
    IpcSession :=
  if seconds < trxExpireTimeoutNever then
    let expired := s.outstanding.filter (s.isExpired seconds now resolution)
    { s with
      trxPool := clearWhere (s.isExpired seconds now resolution) s.trxPool
      objs := s.objs.mapIdx fun ref o => if ref ∈ expired then o.expire else o }
  else s

/-- `IpfTrxMgr_ResetTimeouts`. -/
def resetTimeouts (s : IpcSession) (now : EsifRealtime) : IpcSession :=
  { s with
    objs := s.objs.mapIdx fun ref o =>
      if ref ∈ s.outstanding then o.reset now else o }

/-! ## The machine -/

/-- A step of a session. -/
inductive Act
  /-- A thread creates its transaction. -/
  | create (ipfHandle : EsifHandle) (timestamp : EsifRealtime) (request : IBinary)
  /-- Another part of the process creates one. -/
  | createElsewhere
  /-- Encoding fails, or there is no session to send to: the thread returns. -/
  | fail (ref : Nat) (rc : EsifError)
  /-- A thread puts its transaction in the pool. -/
  | add (ref : Nat) (grown : Bool)
  /-- The rest of `IrpcTransaction_QueueRequest`: the thread goes on to wait, or returns with an
  error of the queue or of the doorbell socket. -/
  | sent (ref : Nat) (rc : EsifError)
  /-- A waiting thread finds its signal and returns. -/
  | wake (ref : Nat)
  | receive (reply : Reply)
  | expire (seconds : Nat) (now : EsifRealtime) (resolution : UInt64)
  | reset (now : EsifRealtime)

/-- What a step does; `none` when it is not the thread's next one. -/
def step (s : IpcSession) : Act → Option IpcSession
  | .create ipfHandle timestamp request => some (create s ipfHandle timestamp request)
  | .createElsewhere => some { s with trxIdGenerator := (nextTrxId s.trxIdGenerator).2 }
  | .fail ref rc =>
    (s.objs[ref]?).bind fun o =>
      if o.phase = .created then some (s.modify ref fun o => o.leave rc) else none
  | .add ref grown =>
    (s.objs[ref]?).bind fun o =>
      if o.phase = .created then some (addTransaction s ref grown) else none
  | .sent ref rc =>
    (s.objs[ref]?).bind fun o =>
      if o.phase = .added then
        some (s.modify ref fun o => if rc = esifOk then o.wait else o.leave rc)
      else none
  | .wake ref =>
    (s.objs[ref]?).bind fun o =>
      if o.phase = .waiting ∧ 0 < o.posts then
        some (s.modify ref fun o => o.leave o.waitForResponse)
      else none
  | .receive reply => some (receiveResponse s reply)
  | .expire seconds now resolution => some (expireTimeout s seconds now resolution)
  | .reset now => some (resetTimeouts s now)

end Irpc

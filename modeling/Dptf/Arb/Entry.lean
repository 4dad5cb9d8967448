import Dptf.Arb.Request

/-!
# The arbitration entry and its lock-protected operations

An entry keeps the requests the applications have made of one primitive, best
first, and the limits within which the winner is applied.  Each operation below
is the body of one `entryLock` section; it returns the new entry and the items
it put on the manager's primitive queue, oldest first.

Allocations succeed and the primitive queue has room; life control (`refCount`,
`markedForDelete`, `deleteEvent`) is the subject of `Dptf.Arb.LifeCycle`, where
the entries are objects that several threads hold.
-/

open Lib

namespace Arb

/-! ## The entry -/

/-- `ESIF_ARB_LIMIT_MAX`. -/
def esifArbLimitMax : UInt32 := 0xFFFFFFFF

/-- `ESIF_ARB_LIMIT_MIN`. -/
def esifArbLimitMin : UInt32 := 0

/-- `ESIF_ARB_LIMIT_MAX_PERCENT`. -/
def esifArbLimitMaxPercent : UInt32 := 10000

/-- `ESIF_ARB_LIMIT_MIN_PERCENT`. -/
def esifArbLimitMinPercent : UInt32 := 0

/-- `EsifArbEntryParams`. -/
structure EsifArbEntryParams where
  primitiveId : EsifPrimitiveType
  domain : UInt16
  inst : UInt8
  arbType : ArbType
  upperLimit : UInt32
  lowerLimit : UInt32
deriving DecidableEq, Repr

/-! The default tables, without their end marks. -/

/-- `g_cpuArbTable`. -/
def cpuArbTable : List EsifArbEntryParams :=
  [⟨setPerfPreferenceMax, esifPrimitiveDomainD0, 255, esifArbitrationUin32LessThan,
      esifArbLimitMaxPercent, esifArbLimitMinPercent⟩,
    ⟨setPerfPreferenceMin, esifPrimitiveDomainD0, 255, esifArbitrationUin32LessThan,
      esifArbLimitMaxPercent, esifArbLimitMinPercent⟩,
    ⟨setPlatformPowerLimit, esifPrimitiveDomainD0, 0, esifArbitrationUin32LessThan,
      esifArbLimitMax, esifArbLimitMin⟩,
    ⟨setPlatformPowerLimit, esifPrimitiveDomainD0, 1, esifArbitrationUin32LessThan,
      esifArbLimitMax, esifArbLimitMin⟩,
    ⟨setPlatformPowerLimitEnable, esifPrimitiveDomainD0, 0, esifArbitrationUin32LessThan,
      esifArbLimitMax, esifArbLimitMin⟩,
    ⟨setPlatformPowerLimitEnable, esifPrimitiveDomainD0, 1, esifArbitrationUin32LessThan,
      esifArbLimitMax, esifArbLimitMin⟩,
    ⟨setPlatformPowerLimitTimeWindow, esifPrimitiveDomainD0, 0, esifArbitrationUin32LessThan,
      esifArbLimitMax, esifArbLimitMin⟩,
    ⟨setProcNumberOfflineCores, esifPrimitiveDomainD1, 255, esifArbitrationUin32GreaterThan,
      esifArbLimitMax, esifArbLimitMin⟩,
    ⟨setRaplPowerLimit, esifPrimitiveDomainD0, 0, esifArbitrationUin32LessThan,
      esifArbLimitMax, esifArbLimitMin⟩,
    ⟨setRaplPowerLimit, esifPrimitiveDomainD0, 1, esifArbitrationUin32LessThan,
      esifArbLimitMax, esifArbLimitMin⟩,
    ⟨setRaplPowerLimit, esifPrimitiveDomainD0, 3, esifArbitrationUin32LessThan,
      esifArbLimitMax, esifArbLimitMin⟩,
    ⟨setRaplPowerLimitDutyCycle, esifPrimitiveDomainD0, 2, esifArbitrationUin32LessThan,
      esifArbLimitMax, esifArbLimitMin⟩,
    ⟨setRaplPowerLimitEnable, esifPrimitiveDomainD0, 0, esifArbitrationUin32GreaterThan,
      esifArbLimitMax, esifArbLimitMin⟩,
    ⟨setRaplPowerLimitEnable, esifPrimitiveDomainD0, 1, esifArbitrationUin32GreaterThan,
      esifArbLimitMax, esifArbLimitMin⟩,
    ⟨setRaplPowerLimitTimeWindow, esifPrimitiveDomainD0, 0, esifArbitrationUin32LessThan,
      esifArbLimitMax, esifArbLimitMin⟩,
    ⟨setRaplPowerLimitTimeWindow, esifPrimitiveDomainD0, 1, esifArbitrationUin32LessThan,
      esifArbLimitMax, esifArbLimitMin⟩,
    ⟨setTccOffset, esifPrimitiveDomainD0, 255, esifArbitrationUin32GreaterThan,
      esifArbLimitMax, esifArbLimitMin⟩]

/-- `g_wifiArbTable`. -/
def wifiArbTable : List EsifArbEntryParams :=
  [⟨setRaplPowerLimit, esifPrimitiveDomainD0, 0, esifArbitrationUin32LessThan,
      esifArbLimitMax, esifArbLimitMin⟩,
    ⟨setRaplPowerLimit, esifPrimitiveDomainD0, 1, esifArbitrationUin32LessThan,
      esifArbLimitMax, esifArbLimitMin⟩,
    ⟨setRaplPowerLimit, esifPrimitiveDomainD0, 3, esifArbitrationUin32LessThan,
      esifArbLimitMax, esifArbLimitMin⟩,
    ⟨setRaplPowerLimitEnable, esifPrimitiveDomainD0, 0, esifArbitrationUin32GreaterThan,
      esifArbLimitMax, esifArbLimitMin⟩,
    ⟨setRaplPowerLimitEnable, esifPrimitiveDomainD0, 1, esifArbitrationUin32GreaterThan,
      esifArbLimitMax, esifArbLimitMin⟩]

/-- `g_ietmArbTable`. -/
def ietmArbTable : List EsifArbEntryParams :=
  []

/-- `g_fanArbTable`. -/
def fanArbTable : List EsifArbEntryParams :=
  [⟨setFanLevel, esifPrimitiveDomainD0, 255, esifArbitrationUin32GreaterThan,
      esifArbLimitMax, esifArbLimitMin⟩]

/-- Where the parameters of an entry come from: a default table, or a call that sets the
limits or the function of a primitive that has no entry yet. -/
inductive EntryParamsOrigin : EsifArbEntryParams → Prop where
  | table {params : EsifArbEntryParams}
      (h : params ∈ cpuArbTable ++ wifiArbTable ++ ietmArbTable ++ fanArbTable) :
      EntryParamsOrigin params
  | created (primitiveId : EsifPrimitiveType) (domain : UInt16) (inst : UInt8) (arbType : ArbType) :
      EntryParamsOrigin ⟨primitiveId, domain, inst, arbType, esifArbLimitMax, esifArbLimitMin⟩

/-- Every entry starts with limits in order. -/
theorem EntryParamsOrigin.lowerLimit_le_upperLimit {params : EsifArbEntryParams}
    (h : EntryParamsOrigin params) : params.lowerLimit ≤ params.upperLimit := by
  cases h with
  | table h =>
    revert params
    decide
  | created =>
    show esifArbLimitMin ≤ esifArbLimitMax
    decide

/-- `EsifArbEntry`, without the trace name and the life control. -/
structure EsifArbEntry where
  primitiveId : EsifPrimitiveType
  domain : UInt16
  inst : UInt8
  /-- The arbitration function, by its index. -/
  arbType : ArbType
  upperLimit : UInt32
  lowerLimit : UInt32
  arbitrationEnabled : Bool
  /-- The requests, the arbitration winner at the head. -/
  arbRequests : List EsifArbReq
  /-- The participant the primitives are executed on. -/
  participantId : EsifHandle

/-- `EsifArbEntry_Create`: enabled, and without requests. -/
def EsifArbEntry.create (params : EsifArbEntryParams) (participantId : EsifHandle) :
    EsifArbEntry where
  primitiveId := params.primitiveId
  domain := params.domain
  inst := params.inst
  arbType := params.arbType
  upperLimit := params.upperLimit
  lowerLimit := params.lowerLimit
  arbitrationEnabled := true
  arbRequests := []
  participantId := participantId

/-! ## Arbitrating one request -/

/-- Whether the new request goes in front of the current one: the function prefers it,
or the function fails although the new request is arbitable. -/
def insertsBefore (arbFunc : Option ArbitratorFunc) (new cur : EsifArbReq) : Bool :=
  match arbFunc with
  | none => false
  | some f =>
    let res := f new cur
    (res.rc == esifOk && 0 < res.result) || (res.rc != esifOk && res.isValid1)

/-- The loop of `EsifArbEntry_ArbitrateRequest_Locked`, from the current node on, with its
flags `isInserted` and `isOldRemoved`; the final `isInserted` and the list it leaves. -/
def arbitrateLoop (arbFunc : Option ArbitratorFunc) (new : EsifArbReq) :
    Bool → Bool → List EsifArbReq → Bool × List EsifArbReq
  | isInserted, _, [] => (isInserted, [])
  | isInserted, isOldRemoved, cur :: rest =>
    if isInserted && isOldRemoved then (isInserted, cur :: rest)
    else if cur.appHandle = new.appHandle then arbitrateLoop arbFunc new isInserted true rest
    else if !isInserted && insertsBefore arbFunc new cur then
      -- the current payload moves to a node added behind, which is not visited
      let (inserted, list) := arbitrateLoop arbFunc new true isOldRemoved rest
      (inserted, new :: cur :: list)
    else
      let (inserted, list) := arbitrateLoop arbFunc new isInserted isOldRemoved rest
      (inserted, cur :: list)

/-- What `EsifArbEntry_ArbitrateRequest_Locked` makes of the request list: a request that
the loop did not insert goes to the back. -/
def arbitrate (arbFunc : Option ArbitratorFunc) (list : List EsifArbReq) (new : EsifArbReq) :
    List EsifArbReq :=
  let (isInserted, list) := arbitrateLoop arbFunc new false false list
  if isInserted then list else list ++ [new]

/-- The requests of all applications but one. -/
def othersThan (app : EsifHandle) (list : List EsifArbReq) : List EsifArbReq :=
  list.filter fun req => req.appHandle ≠ app

namespace EsifArbEntry

/-- `EsifArbEntry_ArbitrateRequest_Locked`. -/
def arbitrateRequest (self : EsifArbEntry) (arbReq : EsifArbReq) : EsifArbEntry :=
  { self with
    arbRequests := arbitrate (getArbitrationFunction self.arbType) self.arbRequests arbReq }

/-- `EsifArbEntry_RearbitrateRequests_Locked`: the list is cleared and its requests
arbitrated again, in the order they stood. -/
def rearbitrateRequests (self : EsifArbEntry) : EsifArbEntry :=
  self.arbRequests.foldl arbitrateRequest { self with arbRequests := [] }

/-- `EsifArbEntry_GetArbitratedRequestData_Locked`: the data of the head of the list. -/
def getArbitratedRequestData (self : EsifArbEntry) : Option ClonePtr :=
  self.arbRequests.head?.map EsifArbReq.reqPtr

/-- `EsifArbEntry_PurgeRequests_Locked`. -/
def purgeRequests (self : EsifArbEntry) : EsifArbEntry := { self with arbRequests := [] }

/-- `EsifArbEntry_IsMatchingEntry`. -/
def isMatchingEntry (self : EsifArbEntry) (primitiveId : EsifPrimitiveType) (domain : UInt16)
    (inst : UInt8) : Bool :=
  primitiveId == self.primitiveId && domain == self.domain && inst == self.inst

/-! ## Queueing the winner -/

/-- The value within the entry's limits, `esif_ccb_max` first. -/
def limitedValue (self : EsifArbEntry) (unlimitedValue : UInt32) : UInt32 :=
  min (max unlimitedValue self.lowerLimit) self.upperLimit

/-- `EsifArbEntry_CreateLimitedData_Locked`: a clone with the limited value written over
the first `UInt32`, if limiting changes it. -/
def createLimitedData (self : EsifArbEntry) (data : EsifData) : Option EsifData :=
  match uint32? data with
  | none => none
  | some unlimitedValue =>
    let limited := self.limitedValue unlimitedValue
    if unlimitedValue = limited then none
    else
      let clone := data.clone
      some { clone with bufPtr := clone.bufPtr.map fun bytes => writeUInt32 bytes limited }

end EsifArbEntry

/-- `EsifArbMgr_QueuePrimitiveRequest_Locked`: the items it enqueues, the request and,
if there is a primitive to delay, its copy. -/
def queuePrimitiveRequest (participantId : EsifHandle) (primitiveId : EsifPrimitiveType)
    (domain : UInt16) (inst : UInt8) (requestPtr : Option EsifData) (responsePtr : Option Nat)
    (completionEventPtr completionStatusPtr : Option Nat) (requiresDelay : Bool) :
    List EsifArbPrimReq :=
  let primReq := EsifArbPrimReq.create participantId primitiveId domain inst requestPtr
    responsePtr completionEventPtr completionStatusPtr requiresDelay
  primReq :: primReq.dummy?.toList

namespace EsifArbEntry

/-- `EsifArbEntry_QueueLimitedPrimitiveRequest_Locked`: its return code and the items it
enqueues. -/
def queueLimitedPrimitiveRequest (self : EsifArbEntry) (requestPtr : Option ClonePtr)
    (requiresDelay : Bool) : EsifError × List EsifArbPrimReq :=
  match requestPtr with
  | none => (esifEParameterIsNull, [])
  | some req =>
    let data := (self.createLimitedData req.data).getD req.data
    (esifOk, queuePrimitiveRequest self.participantId self.primitiveId self.domain self.inst
      (some data) none none none requiresDelay)

/-- The queueing rule shared by the operations that may change the winner: queue the
current head when there is one and its pointer is not the previous one. -/
def queueIfChanged (self : EsifArbEntry) (rc : EsifError) (prevArbDataPtr : Option ClonePtr)
    (requiresDelay : Bool) : EsifError × List EsifArbPrimReq :=
  let curArbDataPtr := self.getArbitratedRequestData
  if curArbDataPtr.isSome && curArbDataPtr.map ClonePtr.addr ≠ prevArbDataPtr.map ClonePtr.addr then
    self.queueLimitedPrimitiveRequest curArbDataPtr requiresDelay
  else (rc, [])

/-! ## The operations -/

/-- `EsifArbEntry_ExecutePrimitive`, with the clone of the request at `addr`. -/
def executePrimitive (self : EsifArbEntry) (addr : Nat) (appHandle : EsifHandle)
    (requestPtr : Option EsifData) : EsifError × EsifArbEntry × List EsifArbPrimReq :=
  if self.arbitrationEnabled then
    match requestPtr with
    | none => (esifEParameterIsNull, self, [])
    | some request =>
      let prevArbDataPtr := self.getArbitratedRequestData
      let self' := self.arbitrateRequest (EsifArbReq.create addr appHandle request)
      let (rc, queued) := self'.queueIfChanged esifOk prevArbDataPtr true
      (rc, self', queued)
  else (esifENotSupported, self, [])

/-- `EsifArbEntry_SetLimits`; a null pointer leaves that limit as it is. -/
def setLimits (self : EsifArbEntry) (upperLimitPtr lowerLimitPtr : Option UInt32) :
    EsifError × EsifArbEntry × List EsifArbPrimReq :=
  let newUpperLimit := upperLimitPtr.getD self.upperLimit
  let newLowerLimit := lowerLimitPtr.getD self.lowerLimit
  if newLowerLimit ≤ newUpperLimit then
    if self.upperLimit ≠ newUpperLimit ∨ self.lowerLimit ≠ newLowerLimit then
      let self' := { self with upperLimit := newUpperLimit, lowerLimit := newLowerLimit }
      let (_, queued) :=
        self'.queueLimitedPrimitiveRequest self'.getArbitratedRequestData false
      (esifOk, self', queued)
    else (esifOk, self, [])
  else (esifEParameterIsOutOfBounds, self, [])

/-- `EsifArbEntry_SetArbitrationState`. -/
def setArbitrationState (self : EsifArbEntry) (isEnabled : Bool) : EsifError × EsifArbEntry :=
  let self' := { self with arbitrationEnabled := isEnabled }
  (esifOk, if isEnabled then self' else self'.purgeRequests)

/-- The entry under another arbitration type. -/
def withArbType (self : EsifArbEntry) (arbType : ArbType) : EsifArbEntry :=
  { self with arbType := arbType }

/-- `EsifArbEntry_SetArbitrationFunction`. -/
def setArbitrationFunction (self : EsifArbEntry) (arbType : ArbType) :
    EsifError × EsifArbEntry × List EsifArbPrimReq :=
  if (getArbitrationFunction arbType).isSome then
    let prevArbDataPtr := self.getArbitratedRequestData
    let self' := (self.withArbType arbType).rearbitrateRequests
    let (rc, queued) := self'.queueIfChanged esifOk prevArbDataPtr false
    (rc, self', queued)
  else (esifEParameterIsOutOfBounds, self, [])

/-- `EsifArbEntry_RemoveApp`. -/
def removeApp (self : EsifArbEntry) (appHandle : EsifHandle) :
    EsifArbEntry × List EsifArbPrimReq :=
  let prevArbDataPtr := self.getArbitratedRequestData
  let self' := { self with arbRequests := othersThan appHandle self.arbRequests }
  let (_, queued) := self'.queueIfChanged esifOk prevArbDataPtr false
  (self', queued)

end EsifArbEntry

/-! ## The operations as a machine -/

/-- One lock-protected operation on an entry. -/
inductive EntryOp where
  /-- A request of `app`; its clone is allocated at `addr`. -/
  | executePrimitive (addr : Nat) (app : EsifHandle) (request : Option EsifData)
  /-- The application is going away. -/
  | removeApp (app : EsifHandle)
  /-- A new arbitration function. -/
  | setArbitrationFunction (arbType : ArbType)
  /-- New limits. -/
  | setLimits (upperLimit lowerLimit : Option UInt32)
  /-- Enable or disable the entry. -/
  | setArbitrationState (isEnabled : Bool)
  /-- The purge a disabled context or manager makes of its entries. -/
  | purgeRequests

/-- An entry and everything it has put on the primitive queue so far, oldest first. -/
structure EntryState where
  entry : EsifArbEntry
  queued : List EsifArbPrimReq

/-- No request in the list has its data at `addr`: what the allocator promises of an
address it returns while they are all live. -/
def EsifArbEntry.IsFree (self : EsifArbEntry) (addr : Nat) : Prop :=
  ∀ req ∈ self.arbRequests, req.reqPtr.addr ≠ addr

instance (self : EsifArbEntry) (addr : Nat) : Decidable (self.IsFree addr) :=
  inferInstanceAs (Decidable (∀ req ∈ self.arbRequests, req.reqPtr.addr ≠ addr))

/-- The entry after an operation, and what the operation queues. -/
def EsifArbEntry.apply (self : EsifArbEntry) : EntryOp → EsifArbEntry × List EsifArbPrimReq
  | .executePrimitive addr app request => (self.executePrimitive addr app request).2
  | .removeApp app => self.removeApp app
  | .setArbitrationFunction arbType => (self.setArbitrationFunction arbType).2
  | .setLimits upper lower => (self.setLimits upper lower).2
  | .setArbitrationState isEnabled => ((self.setArbitrationState isEnabled).2, [])
  | .purgeRequests => (self.purgeRequests, [])

/-- What the allocator lets happen: a clone is not put over a live one. -/
def EntryOp.Allocates (self : EsifArbEntry) : EntryOp → Prop
  | .executePrimitive addr _ _ => self.IsFree addr
  | _ => True

instance (self : EsifArbEntry) : (op : EntryOp) → Decidable (op.Allocates self)
  | .executePrimitive addr _ _ => inferInstanceAs (Decidable (self.IsFree addr))
  | .removeApp _ => isTrue trivial
  | .setArbitrationFunction _ => isTrue trivial
  | .setLimits _ _ => isTrue trivial
  | .setArbitrationState _ => isTrue trivial
  | .purgeRequests => isTrue trivial

/-- One step of the entry. -/
def entryStep (s : EntryState) (op : EntryOp) : Option EntryState :=
  if op.Allocates s.entry then
    let (entry, queued) := s.entry.apply op
    some { entry := entry, queued := s.queued ++ queued }
  else none

theorem entryStep_eq_some {s s' : EntryState} {op : EntryOp} (h : entryStep s op = some s') :
    op.Allocates s.entry ∧
      s' = { entry := (s.entry.apply op).1, queued := s.queued ++ (s.entry.apply op).2 } := by
  unfold entryStep at h
  split at h
  · rename_i hok
    exact ⟨hok, (Option.some.inj h).symm⟩
  · cases h

end Arb

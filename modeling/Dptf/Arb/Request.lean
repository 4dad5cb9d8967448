import Dptf.Common.EsifData

/-!
# Arbitrated requests, arbitration functions and primitive requests

* `arbFunctionUInt32` — the two arbitration functions are one comparison of the
  first `UInt32` of the data, with the preference turned around.
-/

open Lib

namespace Arb

/-! ## Arbitrated requests -/

/-- A pointer to a heap object made by `EsifData_Clone`. -/
structure ClonePtr where
  /-- The address the allocation returned. -/
  addr : Nat
  /-- The object. -/
  data : EsifData
  /-- The object is a clone. -/
  isClone : data.IsClone

/-- `EsifData_Clone` into freshly allocated memory at `addr`. -/
def ClonePtr.create (addr : Nat) (d : EsifData) : ClonePtr := ⟨addr, d.clone, d.clone_isClone⟩

/-- `EsifArbReq`: the requestor and its clone of the request data. -/
structure EsifArbReq where
  /-- `appHandle`, the requestor. -/
  appHandle : EsifHandle
  /-- `reqPtr`, the request data. -/
  reqPtr : ClonePtr

/-- `EsifArbReq_Create` with its allocations succeeding; the clone is put at `addr`. -/
def EsifArbReq.create (addr : Nat) (appHandle : EsifHandle) (d : EsifData) : EsifArbReq :=
  ⟨appHandle, ClonePtr.create addr d⟩

/-! ## The value in the data -/

/-- The `UInt32` at the start of a buffer. -/
def readUInt32 (bytes : List UInt8) : UInt32 := UInt32.ofNat (leDec (bytes.take 4))

/-- A buffer with the `UInt32` at its start replaced. -/
def writeUInt32 (bytes : List UInt8) (v : UInt32) : List UInt8 := leEnc 4 v.toNat ++ bytes.drop 4

/-- The value of well-formed request data: a buffer whose capacity holds a `UInt32`. -/
def uint32? (d : EsifData) : Option UInt32 :=
  d.bufPtr.bind fun bytes => if 4 ≤ d.bufLen then some (readUInt32 bytes) else none

/-- Request data of the value `v`, as an application hands it over. -/
def uint32Data (v : UInt32) : EsifData where
  type := 3
  bufPtr := some (leEnc 4 v.toNat)
  bufLen := 4
  dataLen := 4

/-! ## Arbitration functions -/

/-- What an arbitration function returns and writes through its out parameters. -/
structure ArbResult where
  /-- The return code. -/
  rc : EsifError
  /-- `isValid1Ptr`. -/
  isValid1 : Bool
  /-- `isValid2Ptr`. -/
  isValid2 : Bool
  /-- `resultPtr`: positive if the first request is better. -/
  result : Int
deriving DecidableEq, Repr

/-- `EsifArbMgr_ArbitratorFunc`. -/
abbrev ArbitratorFunc := EsifArbReq → EsifArbReq → ArbResult

/-- `req1Rc` when both blocks of an arbitration function are done: the first one sets it
from the first request, and the second writes its range error here, not to `req2Rc`. -/
def req1Rc (d1 d2 : EsifData) : EsifError :=
  if d2.bufPtr.isSome then esifEParameterIsOutOfBounds
  else if d1.bufPtr.isNone then esifEParameterIsNull
  else if 4 ≤ d1.bufLen then esifOk
  else esifEParameterIsOutOfBounds

/-- `req2Rc` when both blocks are done. -/
def req2Rc (d2 : EsifData) : EsifError :=
  if d2.bufPtr.isSome ∧ 4 ≤ d2.bufLen then esifOk else esifEParameterIsNull

/-- The common body of the `UInt32` arbitration functions, where `better` is the
comparison of the two values that makes the first request win. -/
def arbFunctionUInt32 (better : UInt32 → UInt32 → Bool) : ArbitratorFunc := fun req1 req2 =>
  let d1 := req1.reqPtr.data
  let d2 := req2.reqPtr.data
  match uint32? d1, uint32? d2 with
  | some data1, some data2 =>
    { rc := esifOk, isValid1 := true, isValid2 := true
      result := if better data1 data2 then 1 else if better data2 data1 then -1 else 0 }
  | value1, value2 =>
    { rc := req1Rc d1 d2 ||| req2Rc d2
      isValid1 := value1.isSome, isValid2 := value2.isSome, result := 0 }

/-- `EsifArbFunction_UInt32_GreaterThan`. -/
def arbFunctionUInt32GreaterThan : ArbitratorFunc := arbFunctionUInt32 fun a b => b < a

/-- `EsifArbFunction_UInt32_LessThan`. -/
def arbFunctionUInt32LessThan : ArbitratorFunc := arbFunctionUInt32 fun a b => a < b

/-- `esif_arbitration_type_t`, an index into the function table. -/
abbrev ArbType := UInt32

def esifArbitrationInvalid : ArbType := 0
def esifArbitrationUin32GreaterThan : ArbType := 1
def esifArbitrationUin32LessThan : ArbType := 2

/-- `g_arbitrationFunctions`. -/
def arbitrationFunctions : List (Option ArbitratorFunc) :=
  [none, some arbFunctionUInt32GreaterThan, some arbFunctionUInt32LessThan]

/-- `GetArbitrationFunction`. -/
def getArbitrationFunction (funcType : ArbType) : Option ArbitratorFunc :=
  (arbitrationFunctions[funcType.toNat]?).join

/-- Only the two comparisons are arbitration functions. -/
theorem getArbitrationFunction_eq_some {funcType : ArbType} {f : ArbitratorFunc}
    (h : getArbitrationFunction funcType = some f) :
    (funcType = esifArbitrationUin32GreaterThan ∧ f = arbFunctionUInt32GreaterThan) ∨
      (funcType = esifArbitrationUin32LessThan ∧ f = arbFunctionUInt32LessThan) := by
  unfold getArbitrationFunction arbitrationFunctions at h
  have hcases : funcType.toNat = 0 ∨ funcType.toNat = 1 ∨ funcType.toNat = 2 ∨
      3 ≤ funcType.toNat := by omega
  rcases hcases with hn | hn | hn | hn
  · simp [hn] at h
  · refine Or.inl ⟨UInt32.toNat_inj.mp hn, ?_⟩
    simpa [hn] using h.symm
  · refine Or.inr ⟨UInt32.toNat_inj.mp hn, ?_⟩
    simpa [hn] using h.symm
  · rw [List.getElem?_eq_none (by simpa using hn)] at h
    simp at h

@[simp] theorem getArbitrationFunction_greaterThan :
    getArbitrationFunction esifArbitrationUin32GreaterThan = some arbFunctionUInt32GreaterThan :=
  rfl

@[simp] theorem getArbitrationFunction_lessThan :
    getArbitrationFunction esifArbitrationUin32LessThan = some arbFunctionUInt32LessThan := rfl

/-! ## Primitive requests -/

/-- `EsifArbPrimReq`.  The response, event and status pointers are addresses of the
waiting caller. -/
structure EsifArbPrimReq where
  participantId : EsifHandle
  primitiveId : EsifPrimitiveType
  domain : UInt16
  inst : UInt8
  /-- `reqDataPtr`, a clone of the request data. -/
  reqDataPtr : Option EsifData
  rspDataPtr : Option Nat
  completionEventPtr : Option Nat
  completionStatusPtr : Option Nat
  reqDataRequiresRelease : Bool
  /-- Requests for `delayedPrimitiveId` must wait for this one. -/
  requiresDelay : Bool
  delayedPrimitiveId : EsifPrimitiveType
  /-- A copy that only marks its original as not yet processed. -/
  isDummyRequest : Bool
deriving DecidableEq, Repr

/-- `EsifArbPrimReq_Create` with its allocations succeeding.  The delayed primitive is
looked up only for a request with data. -/
def EsifArbPrimReq.create (participantId : EsifHandle) (primitiveId : EsifPrimitiveType)
    (domain : UInt16) (inst : UInt8) (requestPtr : Option EsifData) (responsePtr : Option Nat)
    (completionEventPtr completionStatusPtr : Option Nat) (requiresDelay : Bool) :
    EsifArbPrimReq where
  participantId := participantId
  primitiveId := primitiveId
  domain := domain
  inst := inst
  reqDataPtr := requestPtr.map EsifData.clone
  rspDataPtr := responsePtr
  completionEventPtr := completionEventPtr
  completionStatusPtr := completionStatusPtr
  reqDataRequiresRelease := requestPtr.isSome
  requiresDelay := requiresDelay
  delayedPrimitiveId :=
    if requestPtr.isSome && requiresDelay then esifPrimitiveTypeSet2get primitiveId else 0
  isDummyRequest := false

/-- The copy that shadows a request, if it has a primitive to delay. -/
def EsifArbPrimReq.dummy? (req : EsifArbPrimReq) : Option EsifArbPrimReq :=
  if req.requiresDelay && req.delayedPrimitiveId ≠ 0 then
    some { req with isDummyRequest := true }
  else none

end Arb

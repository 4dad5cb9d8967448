import Dptf.Arb.Entry
import Dptf.Lib.Machine
import Dptf.Lib.ChangingList

/-!
# The arbitration context: a table of shared entries

A context keeps pointers to its entries in a table that grows at the end and is
compacted when an entry leaves.  Entries are heap objects with a reference count:
the table holds one reference, and lookups and iterators take one for as long as
they use the entry.

Several threads work on a context.  Each of them is at one of the places of
`Thread`, between two lock-protected sections, and `threadStep` is the section it
enters next; allocations inside a section turn out as `Allocs` says.  A section
under `ctxLock` runs when no thread waits inside one.
-/

open Lib

namespace Arb

/-! ## Entries as heap objects -/

/-- A pointer to an entry: its position in the heap.  Positions are not used twice. -/
abbrev EntryPtr := Nat

/-- An `EsifArbEntry` object, with its life control. -/
structure EntryObj where
  entry : EsifArbEntry
  /-- `refCount`; below zero the 32-bit counter has wrapped. -/
  refCount : Int
  markedForDelete : Bool
  /-- `deleteEvent` is set. -/
  deleteEvent : Bool
  /-- The object's memory has been returned. -/
  freed : Bool

/-- The objects, by their pointers. -/
abbrev Heap := List EntryObj

/-- `EsifArbEntry_Create`: the creator's reference is the table's to be. -/
def EntryObj.create (params : EsifArbEntryParams) (participantId : EsifHandle) : EntryObj where
  entry := EsifArbEntry.create params participantId
  refCount := 1
  markedForDelete := false
  deleteEvent := false
  freed := false

/-- `EsifArbEntry_GetRef`. -/
def getRef (heap : Heap) (p : EntryPtr) : EsifError × Heap :=
  match heap[p]? with
  | none => (esifEParameterIsNull, heap)
  | some obj =>
    if obj.markedForDelete then (esifEUnspecified, heap)
    else (esifOk, heap.set p { obj with refCount := obj.refCount + 1 })

/-- `EsifArbEntry_PutRef` on the object. -/
def EntryObj.putRef (obj : EntryObj) : EntryObj :=
  let obj := { obj with refCount := obj.refCount - 1 }
  if obj.refCount = 0 ∧ obj.markedForDelete then { obj with deleteEvent := true } else obj

/-- `EsifArbEntry_PutRef`. -/
def putRef (heap : Heap) (p : EntryPtr) : Heap := heap.modify p EntryObj.putRef

/-- An operation on the entry of an object. -/
def updateEntry (heap : Heap) (p : EntryPtr) (f : EsifArbEntry → EsifArbEntry) : Heap :=
  heap.modify p fun obj => { obj with entry := f obj.entry }

/-- `EsifArbEntry_IsMatchingEntry`, through a pointer. -/
def isMatchingPtr (heap : Heap) (primitiveId : EsifPrimitiveType) (domain : UInt16)
    (inst : UInt8) (p : EntryPtr) : Bool :=
  heap[p]?.any fun obj => obj.entry.isMatchingEntry primitiveId domain inst

/-! ## The context -/

/-- `EsifArbCtx`; `entriesPtr` are the first `numEntries` slots of the table. -/
structure EsifArbCtx where
  arbitrationEnabled : Bool
  entriesPtr : List EntryPtr
  entryCapacity : Nat
  participantId : EsifHandle

/-- `ESIF_ARB_CTX_ENTRY_TABLE_GROWTH_RATE`. -/
def esifArbCtxEntryTableGrowthRate : Nat := 10

/-- How the allocations of a section turn out. -/
structure Allocs where
  /-- The new entry. -/
  entry : Bool
  /-- The larger table of `EsifArbCtx_InsertArbEntry_Locked`. -/
  grow : Bool
  /-- The smaller table of `EsifArbCtx_RemoveArbEntry_Locked`. -/
  shrink : Bool

/-- `EsifArbCtx_LookupArbEntry_Locked`: the first matching entry that gives a reference. -/
def lookupArbEntry (heap : Heap) (primitiveId : EsifPrimitiveType) (domain : UInt16)
    (inst : UInt8) : List EntryPtr → Option EntryPtr × Heap
  | [] => (none, heap)
  | p :: rest =>
    if isMatchingPtr heap primitiveId domain inst p ∧ (getRef heap p).1 = esifOk then
      (some p, (getRef heap p).2)
    else lookupArbEntry heap primitiveId domain inst rest

/-- `EsifArbCtx_InsertArbEntry_Locked`: at the end, in a larger table if this one is full. -/
def EsifArbCtx.insertArbEntry (self : EsifArbCtx) (p : EntryPtr) (grow : Bool) :
    EsifError × EsifArbCtx :=
  if self.entriesPtr.length < self.entryCapacity then
    (esifOk, { self with entriesPtr := self.entriesPtr ++ [p] })
  else if grow then
    (esifOk, { self with
      entriesPtr := self.entriesPtr ++ [p]
      entryCapacity := self.entryCapacity + esifArbCtxEntryTableGrowthRate })
  else (esifENoMemory, self)

/-- `EsifArbCtx_RemoveArbEntry_Locked`: the table is compacted, and shrunk when there is
much room.  It is no error if the entry is not in the table. -/
def EsifArbCtx.removeArbEntry (self : EsifArbCtx) (p : EntryPtr) (shrink : Bool) :
    EsifError × EsifArbCtx :=
  let entries := self.entriesPtr.erase p
  let capacity :=
    if self.entryCapacity - entries.length > esifArbCtxEntryTableGrowthRate then
      if entries.length = 0 then 0
      else if shrink then self.entryCapacity - esifArbCtxEntryTableGrowthRate
      else self.entryCapacity
    else self.entryCapacity
  (esifOk, { self with entriesPtr := entries, entryCapacity := capacity })

/-- The loop of `EsifArbCtx_GetNextEntry` over the slots from `index` on: the first entry
that gives a reference, with its index. -/
def nextEntry (heap : Heap) : Nat → List EntryPtr → Option (Nat × EntryPtr) × Heap
  | _, [] => (none, heap)
  | index, p :: rest =>
    if (getRef heap p).1 = esifOk then (some (index, p), (getRef heap p).2)
    else nextEntry heap (index + 1) rest

/-! ## Threads -/

/-- A call into the context. -/
inductive Call where
  | executePrimitive (primitiveId : EsifPrimitiveType) (domain : UInt16) (inst : UInt8)
      (app : EsifHandle) (addr : Nat) (request : Option EsifData)
  /-- `isSupported` is what `IsPrimitiveSupported` says of the primitive. -/
  | setLimits (primitiveId : EsifPrimitiveType) (domain : UInt16) (inst : UInt8)
      (upperLimit lowerLimit : Option UInt32) (isSupported : Bool)
  | setArbitrationFunction (primitiveId : EsifPrimitiveType) (domain : UInt16) (inst : UInt8)
      (arbType : ArbType) (isSupported : Bool)
  | setArbitrationState (primitiveId : EsifPrimitiveType) (domain : UInt16) (inst : UInt8)
      (isEnabled : Bool)
  | stopArbitration (primitiveId : EsifPrimitiveType) (domain : UInt16) (inst : UInt8)
  | removeApp (app : EsifHandle)

/-- What an iteration over the entries is for. -/
inductive IterJob where
  | stopArbitration (primitiveId : EsifPrimitiveType) (domain : UInt16) (inst : UInt8)
  | removeApp (app : EsifHandle)

/-- Where a thread stands. -/
inductive Thread where
  /-- Its call has begun. -/
  | start (call : Call)
  /-- `EsifArbCtx_ExecutePrimitive` has looked the entry up. -/
  | executing (p : EntryPtr) (app : EsifHandle) (addr : Nat) (request : Option EsifData)
  /-- It is about to release the entry it has worked on. -/
  | releasing (p : EntryPtr)
  /-- It calls `EsifArbCtx_GetNextEntry`, its iterator valid on an entry or not. -/
  | next (job : IterJob) (index : Nat) (held : Option EntryPtr)
  /-- In that call, the entry before is released and the table not yet looked at. -/
  | scanning (job : IterJob) (index : Nat)
  /-- It has got an entry from its iterator. -/
  | visiting (job : IterJob) (index : Nat) (p : EntryPtr)
  /-- `EsifArbCtx_StopArbitration` has found its entry. -/
  | removing (p : EntryPtr)
  /-- The entry is removed, the iterator's reference not yet released. -/
  | removed (p : EntryPtr)
  /-- It calls `EsifArbEntry_Destroy`. -/
  | destroying (p : EntryPtr)
  /-- In that call, the entry is marked and the own reference not yet released. -/
  | marked (p : EntryPtr)
  /-- In that call, it waits for `deleteEvent`. -/
  | waiting (p : EntryPtr)
  /-- A new entry could not be inserted: the thread waits in `EsifArbEntry_Destroy`, inside
  its `ctxLock` section. -/
  | createFailed (p : EntryPtr)
  | done

/-- What the threads share, and the record of the calls of `EsifArbEntry_Destroy`. -/
structure Shared where
  ctx : EsifArbCtx
  heap : Heap
  /-- A thread waits inside a `ctxLock` section. -/
  ctxLocked : Bool
  destroyCalls : List EntryPtr

/-- A context and the threads that work on it. -/
structure CtxState where
  shared : Shared
  threads : List Thread

/-! ## Sections that may create an entry -/

/-- `EsifArbCtx_CreateAndInsertEntry_Locked`, and then the operation and the release of its
caller.  If the entry cannot be inserted it is destroyed in here: it is marked and one
reference released, and the thread waits for the other. -/
def createAndInsertEntry (s : Shared) (params : EsifArbEntryParams) (allocs : Allocs)
    (op : EsifArbEntry → EsifArbEntry) : Shared × Thread :=
  if allocs.entry then
    let p : EntryPtr := s.heap.length
    let heap := s.heap ++ [EntryObj.create params s.ctx.participantId]
    let heap := (getRef heap p).2
    let (rc, ctx) := s.ctx.insertArbEntry p allocs.grow
    if rc = esifOk then
      ({ s with ctx := ctx, heap := putRef (updateEntry heap p op) p }, .done)
    else
      let heap := heap.modify p fun obj => { obj with markedForDelete := true }
      ({ s with heap := putRef heap p, ctxLocked := true, destroyCalls := s.destroyCalls ++ [p] },
        .createFailed p)
  else (s, .done)

/-- The section of `EsifArbCtx_SetLimits` and `EsifArbCtx_SetArbitrationFunction`: look the
entry up or create it, apply the operation, release it. -/
def lookupOrCreate (s : Shared) (params : EsifArbEntryParams) (isSupported : Bool)
    (allocs : Allocs) (op : EsifArbEntry → EsifArbEntry) : Shared × Thread :=
  match lookupArbEntry s.heap params.primitiveId params.domain params.inst s.ctx.entriesPtr with
  | (some p, heap) => ({ s with heap := putRef (updateEntry heap p op) p }, .done)
  | (none, _) => if isSupported then createAndInsertEntry s params allocs op else (s, .done)

/-! ## Enabling and disabling -/

/-- `EsifArbCtx_PurgeRequests_Locked`. -/
def purgeTable (heap : Heap) (table : List EntryPtr) : Heap :=
  table.foldl (fun heap p => updateEntry heap p EsifArbEntry.purgeRequests) heap

/-- The section of `EsifArbCtx_SetArbitrationState`: all entries if `primitiveId` is 0, else
one.  Enabling an entry enables the context. -/
def setArbitrationState (s : Shared) (primitiveId : EsifPrimitiveType) (domain : UInt16)
    (inst : UInt8) (isEnabled : Bool) : Shared × Thread :=
  if primitiveId = 0 then
    ({ s with
        ctx := { s.ctx with arbitrationEnabled := isEnabled }
        heap := if isEnabled then s.heap else purgeTable s.heap s.ctx.entriesPtr },
      .done)
  else
    match lookupArbEntry s.heap primitiveId domain inst s.ctx.entriesPtr with
    | (some p, heap) =>
      ({ s with
          ctx := { s.ctx with arbitrationEnabled := isEnabled || s.ctx.arbitrationEnabled }
          heap := updateEntry heap p fun entry => (entry.setArbitrationState isEnabled).2 },
        .releasing p)
    | (none, _) => (s, .done)

/-! ## One section of one thread -/

/-- A section under `ctxLock`. -/
def underCtxLock (s : Shared) (run : Shared × Thread) : Option (Shared × Thread) :=
  if s.ctxLocked then none else some run

/-- The next section of a thread, what it leaves, and where the thread is then. -/
def threadStep (s : Shared) (allocs : Allocs) : Thread → Option (Shared × Thread)
  | .start (.executePrimitive primitiveId domain inst app addr request) =>
    underCtxLock s <|
      if s.ctx.arbitrationEnabled then
        match lookupArbEntry s.heap primitiveId domain inst s.ctx.entriesPtr with
        | (some p, heap) => ({ s with heap := heap }, .executing p app addr request)
        | (none, _) => (s, .done)
      else (s, .done)
  | .start (.setLimits primitiveId domain inst upperLimit lowerLimit isSupported) =>
    underCtxLock s <|
      lookupOrCreate s
        ⟨primitiveId, domain, inst, esifArbitrationInvalid, esifArbLimitMax, esifArbLimitMin⟩
        isSupported allocs fun entry => (entry.setLimits upperLimit lowerLimit).2.1
  | .start (.setArbitrationFunction primitiveId domain inst arbType isSupported) =>
    underCtxLock s <|
      lookupOrCreate s ⟨primitiveId, domain, inst, arbType, esifArbLimitMax, esifArbLimitMin⟩
        isSupported allocs fun entry => (entry.setArbitrationFunction arbType).2.1
  | .start (.setArbitrationState primitiveId domain inst isEnabled) =>
    underCtxLock s (setArbitrationState s primitiveId domain inst isEnabled)
  | .start (.stopArbitration primitiveId domain inst) =>
    some (s, .next (.stopArbitration primitiveId domain inst) 0 none)
  | .start (.removeApp app) => some (s, .next (.removeApp app) 0 none)
  | .executing p app addr request =>
    some ({ s with
        heap := updateEntry s.heap p fun entry => (entry.executePrimitive addr app request).2.1 },
      .releasing p)
  | .releasing p => some ({ s with heap := putRef s.heap p }, .done)
  | .next job index none => some (s, .scanning job index)
  | .next job index (some p) => some ({ s with heap := putRef s.heap p }, .scanning job (index + 1))
  | .scanning job index =>
    underCtxLock s <|
      match nextEntry s.heap index (s.ctx.entriesPtr.drop index) with
      | (some (k, p), heap) => ({ s with heap := heap }, .visiting job k p)
      | (none, _) => (s, .done)
  | .visiting (.removeApp app) index p =>
    some ({ s with heap := updateEntry s.heap p fun entry => (entry.removeApp app).1 },
      .next (.removeApp app) index (some p))
  | .visiting (.stopArbitration primitiveId domain inst) index p =>
    if isMatchingPtr s.heap primitiveId domain inst p then some (s, .removing p)
    else some (s, .next (.stopArbitration primitiveId domain inst) index (some p))
  | .removing p =>
    underCtxLock s ({ s with ctx := (s.ctx.removeArbEntry p allocs.shrink).2 }, .removed p)
  | .removed p => some ({ s with heap := putRef s.heap p }, .destroying p)
  | .destroying p =>
    some ({ s with
        heap := s.heap.modify p fun obj => { obj with markedForDelete := true }
        destroyCalls := s.destroyCalls ++ [p] },
      .marked p)
  | .marked p => some ({ s with heap := putRef s.heap p }, .waiting p)
  | .waiting p =>
    if s.heap[p]?.any EntryObj.deleteEvent then
      some ({ s with heap := s.heap.modify p fun obj => { obj with freed := true } }, .done)
    else none
  | .createFailed p =>
    if s.heap[p]?.any EntryObj.deleteEvent then
      some ({ s with
          heap := s.heap.modify p fun obj => { obj with freed := true }
          ctxLocked := false },
        .done)
    else none
  | .done => none

/-- A new call, or the next section of a thread. -/
inductive CtxAction where
  | call (call : Call)
  | step (i : Nat) (allocs : Allocs)

/-- One step of the context. -/
def ctxStep (s : CtxState) : CtxAction → Option CtxState
  | .call call => some { s with threads := s.threads ++ [.start call] }
  | .step i allocs =>
    s.threads[i]?.bind fun t =>
      (threadStep s.shared allocs t).map fun (shared, t') =>
        { shared := shared, threads := s.threads.set i t' }

/-- A context as `EsifArbCtx_Create` leaves it, with the entries of `table`. -/
def CtxState.init (participantId : EsifHandle) (table : List EsifArbEntryParams) : CtxState where
  shared :=
    { ctx :=
        { arbitrationEnabled := true
          entriesPtr := List.range table.length
          entryCapacity := (table.length + 9) / esifArbCtxEntryTableGrowthRate *
            esifArbCtxEntryTableGrowthRate
          participantId := participantId }
      heap := table.map fun params => EntryObj.create params participantId
      ctxLocked := false
      destroyCalls := [] }
  threads := []

theorem ctxStep_eq_some {s s' : CtxState} {i : Nat} {allocs : Allocs}
    (h : ctxStep s (.step i allocs) = some s') :
    ∃ t t', s.threads[i]? = some t ∧ threadStep s.shared allocs t = some (s'.shared, t') ∧
      s'.threads = s.threads.set i t' := by
  simp only [ctxStep] at h
  obtain ⟨t, ht, h⟩ := Option.bind_eq_some_iff.mp h
  obtain ⟨⟨shared, t'⟩, hstep, rfl⟩ := Option.map_eq_some_iff.mp h
  exact ⟨t, t', ht, hstep, rfl⟩

end Arb

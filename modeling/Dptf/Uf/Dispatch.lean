import Dptf.Common.Queue
import Dptf.Lib.ChangingList
import Dptf.Uf.Registrations

/-!
# The event thread among the others

One thread takes the events off the queue and calls the observers, with the lists'
lock released around every callback.  The others register and unregister
meanwhile, and the callbacks do so too.
-/

open Lib

namespace Uf

/-! ## The machine -/

/-- What a thread is at, outside the lock. -/
inductive Thread
  /-- Its call is over. -/
  | done
  /-- `EsifEventMgr_AddEntry` has found no entry. -/
  | adding (fpcEvent : FpcEvent) (o : Observer)
  /-- It enables the events of the entry it has put in. -/
  | enabling (id : Nat)
  /-- It has found an entry that is marked, whose node is removed next. -/
  | exiting (fpcEvent : FpcEvent) (id : Nat)
  /-- It has removed the node of its entry, which is freed next. -/
  | freeing (id : Nat)
  /-- `EsifEventMgr_DumpGarbage` is to look at the garbage. -/
  | dumping
  /-- It has taken an entry off the garbage list, which is disabled and freed next. -/
  | disposing (id : Nat)
deriving DecidableEq, Repr

/-- The event that is processed, and the entry whose callback runs. -/
structure Processing where
  event : Event
  current : Nat
  shouldDumpGarbage : Bool
deriving DecidableEq, Repr

/-- `EsifEventQueueItem`. -/
structure EventQueueItem where
  event : Event
  isLfEvent : Bool
  useCachedData : Bool
deriving DecidableEq, Repr

/-- An item that was taken off the queue, the event it stands for and the observers that got
it. -/
structure Delivery where
  item : EventQueueItem
  event : Option Event
  got : List Observer
deriving DecidableEq, Repr

/-- The event manager with its threads and its queue, and how often each observer is
registered. -/
structure Dispatcher where
  mgr : EventMgr
  registered : Registered
  threads : List Thread
  eventQueue : EsifQueue EventQueueItem
  processing : Option Processing
  /-- The items that were queued. -/
  signalled : List EventQueueItem
  /-- The item taken off the queue last, and the ones before. -/
  delivery : Option Delivery
  delivered : List Delivery

/-- `ESIF_EVENT_PARTICIPANT_CREATE`. -/
def esifEventParticipantCreate : UInt32 := 18

/-- What the event thread processes of an item, with the participant its identifier is mapped to
and the data in the cache.  A lower framework's event whose participant is not known is
dropped. -/
def EventQueueItem.target (item : EventQueueItem) (mapped : Option EsifHandle)
    (cached : Option (List UInt8)) : Option Event :=
  let participantId :=
    if item.isLfEvent then
      match mapped with
      | some participantId => some participantId
      | none =>
        if item.event.eventType = esifEventParticipantCreate then
          some esifHandlePrimaryParticipant
        else none
    else some item.event.participantId
  let eventData :=
    if item.useCachedData then cached.getD item.event.eventData else item.event.eventData
  participantId.map fun participantId =>
    { item.event with participantId := participantId, eventData := eventData }

namespace EventMgr

/-- The next node of an event's list that gets the event. -/
def nextToGet (s : EventMgr) (event : Event) (ids : List Nat) : Option Nat :=
  ids.find? fun id => (s.entries id).Gets event

/-- An entry is taken in use, and its callback called. -/
def startCallback (s : EventMgr) (event : Event) (id : Nat) : EventMgr :=
  let s := s.update id fun e => { e with refCount := e.refCount + 1, isInUse := true }
  { s with log := s.log ++ [.started id event] }

/-- The nodes behind one in the list of the event. -/
def nodesBehind (s : EventMgr) (event : Event) (id : Nat) : List Nat :=
  behind (s.observerLists (bucket event.eventType)) id

/-- The entry is in use no more: its callback has returned. -/
def endCallback (s : EventMgr) (id : Nat) : EventMgr :=
  let s := s.update id fun e => { e with isInUse := false, refCount := e.refCount - 1 }
  { s with log := s.log ++ [.ended id] }

/-- It goes if it was in use only. -/
def GoesAfter (s : EventMgr) (id : Nat) : Prop :=
  (s.entries id).refCount ≤ 0 ∨ (s.entries id).markedForDelete = true

instance (s : EventMgr) (id : Nat) : Decidable (s.GoesAfter id) := by
  unfold GoesAfter
  infer_instance

/-- What is done once the lock is back. -/
def leaveCallback (s : EventMgr) (p : Processing) : EventMgr :=
  let s := s.endCallback p.current
  if s.GoesAfter p.current then
    (s.moveEntryToGarbage p.current).nodeRemove (bucket p.event.eventType) p.current
  else s

end EventMgr

open EventMgr

namespace Dispatcher

/-- Nobody has registered and nothing was signalled. -/
def start : Dispatcher where
  mgr := init
  registered := fun _ => 0
  threads := []
  eventQueue := .create 0xFFFFFFFF
  processing := none
  signalled := []
  delivery := none
  delivered := []

/-- `EsifEventMgr_ProcessEvent` goes on with some nodes, up to the next callback or to the
end. -/
def walkOn (d : Dispatcher) (event : Event) (ids : List Nat) (shouldDumpGarbage : Bool) :
    Dispatcher :=
  match d.mgr.nextToGet event ids with
  | some id =>
    { d with
      mgr := d.mgr.startCallback event id
      processing := some ⟨event, id, shouldDumpGarbage⟩
      delivery := d.delivery.map fun x => { x with got := x.got ++ [d.mgr.key id] } }
  | none =>
    { d with
      processing := none
      threads := if shouldDumpGarbage then d.threads ++ [.dumping] else d.threads }

/-- The section behind a callback, up to the next one. -/
def callbackReturns (d : Dispatcher) (p : Processing) : Dispatcher :=
  { d with mgr := d.mgr.leaveCallback p }.walkOn p.event (d.mgr.nodesBehind p.event p.current)
    (p.shouldDumpGarbage || (d.mgr.endCallback p.current).GoesAfter p.current)

/-- The event thread has taken an item off the queue. -/
def process (d : Dispatcher) (item : EventQueueItem) (event : Option Event) : Dispatcher :=
  let d :=
    { d with
      delivery := some ⟨item, event, []⟩, delivered := d.delivered ++ d.delivery.toList }
  match event with
  | none => d
  | some event =>
    d.walkOn event (d.mgr.observerLists (bucket event.eventType)) false

/-- `EsifEventMgr_UnregisterApp`, and the garbage to be dumped. -/
def unregisterApp (d : Dispatcher) (callback context : UInt64) : Dispatcher :=
  { d with
    mgr := d.mgr.unregisterApp callback context
    registered := d.registered.dropApp callback context
    threads := d.threads ++ [.dumping] }

/-- What a thread does next, if it is not done.  The result of enabling is given. -/
def advance (d : Dispatcher) (i : Nat) (rc : EsifError) : Thread → Option Dispatcher
  | .done => none
  | .adding fpcEvent o =>
    some
      { d with
        mgr := d.mgr.insertEntry fpcEvent o
        registered := d.registered.add o.norm
        threads := d.threads.set i (.enabling d.mgr.next) }
  | .enabling id =>
    if enableEvent (d.mgr.entries id) rc = esifOk then
      some { d with threads := d.threads.set i .done }
    else
      some
        { d with
          mgr := d.mgr.nodeRemove (d.mgr.home id) id
          registered := d.registered.drop (d.mgr.key id)
          threads := d.threads.set i (.freeing id) }
  | .exiting fpcEvent id =>
    some
      { d with
        mgr := d.mgr.nodeRemove (bucket fpcEvent.esifEvent) id
        threads := d.threads.set i .done }
  | .freeing id =>
    some { d with mgr := d.mgr.freeEntry id, threads := d.threads.set i .done }
  | .dumping =>
    match d.mgr.popGarbage with
    | none => some { d with threads := d.threads.set i .done }
    | some (id, mgr) => some { d with mgr := mgr, threads := d.threads.set i (.disposing id) }
  | .disposing id =>
    some { d with mgr := d.mgr.freeEntry id, threads := d.threads.set i .dumping }

/-- What can happen next: a call begins, a thread goes on, an item is queued or taken off the
queue, or a callback returns. -/
inductive Action
  | register (ps : Participants) (o : Observer)
  | unregister (ps : Participants) (o : Observer)
  | unregisterAll (callback context : UInt64)
  /-- The low power state is entered or left. -/
  | delay (delayed : Bool)
  /-- An application whose unregistration was delayed. -/
  | unregisterRemoved
  | advance (i : Nat) (rc : EsifError)
  | signal (item : EventQueueItem)
  | pull (mapped : Option EsifHandle) (cached : Option (List UInt8))
  | callbackReturns

/-- The first section of a registration. -/
def register (d : Dispatcher) (fpcEvent : FpcEvent) (o : Observer) : Dispatcher :=
  match d.mgr.findEntry o with
  | some id =>
    if (d.mgr.entries id).markedForDelete = false then
      { d with mgr := d.mgr.addRef id, registered := d.registered.add o.norm }
    else { d with threads := d.threads ++ [.exiting fpcEvent id] }
  | none => { d with threads := d.threads ++ [.adding fpcEvent o] }

/-- A step. -/
def step (d : Dispatcher) : Action → Option Dispatcher
  | .register ps o =>
    match lookupEvent ps o esifEEventNotFound with
    | .error _ => some d
    | .ok fpcEvent => some (d.register fpcEvent o)
  | .unregister ps o =>
    match lookupEvent ps o esifENotFound with
    | .error _ => some d
    | .ok _ =>
      some
        { d with
          mgr := d.mgr.releaseEntry o
          registered := d.registered.drop o.norm
          threads := d.threads ++ [.dumping] }
  | .unregisterAll callback context =>
    if callback = 0 ∨ context = esifHandleDefault then some d
    else if d.mgr.delayedAppUnregistrationEnabled && d.mgr.delayAppUnregistration then
      some
        { d with
          mgr :=
            { d.mgr with
              appUnregisterList := d.mgr.appUnregisterList ++ [(callback, context)] } }
    else some (d.unregisterApp callback context)
  | .delay delayed => some { d with mgr := { d.mgr with delayAppUnregistration := delayed } }
  | .unregisterRemoved =>
    match d.mgr.appUnregisterList with
    | [] => none
    | (callback, context) :: rest =>
      some
        (unregisterApp { d with mgr := { d.mgr with appUnregisterList := rest } } callback context)
  | .advance i rc => d.threads[i]?.bind (d.advance i rc)
  | .signal item =>
    let result := d.eventQueue.enqueue (some item)
    some
      { d with
        eventQueue := result.2
        signalled := if result.1 = esifOk then d.signalled ++ [item] else d.signalled }
  | .pull mapped cached =>
    match d.processing, d.eventQueue.pull with
    | none, some (item, eventQueue) =>
      let d := { d with eventQueue := eventQueue }
      match item with
      | none => some d
      | some item => some (d.process item (item.target mapped cached))
    | _, _ => none
  | .callbackReturns => d.processing.map d.callbackReturns

end Dispatcher

end Uf

import Dptf.Common.Types
import Mathlib.Data.List.FinRange
import Mathlib.Logic.Function.Basic

/-!
# The event manager

Who observes an event has an entry in one of the manager's lists.  Entries are
counted and searched under the lists' lock; what is to be destroyed goes to a
garbage list first, and is disabled and freed without the lock.
-/

namespace Uf

/-! ## Entries -/

/-- `ESIF_HANDLE_DEFAULT`. -/
def esifHandleDefault : EsifHandle := 0
/-- `ESIF_HANDLE_PRIMARY_PARTICIPANT`. -/
def esifHandlePrimaryParticipant : EsifHandle := 1
/-- `EVENT_MGR_MATCH_ANY`. -/
def eventMgrMatchAny : EsifHandle := 0xFFFFFFFFFFFFFFFE
/-- `EVENT_MGR_MATCH_ANY_DOMAIN`. -/
def eventMgrMatchAnyDomain : UInt16 := 0xFF
/-- `EVENT_MGR_DOMAIN_NA`, the characters "NA". -/
def eventMgrDomainNa : UInt16 := 0x4E41
/-- `EVENT_MGR_DOMAIN_D0`, the characters "0D". -/
def eventMgrDomainD0 : UInt16 := 0x3044

/-- `EsifUpPm_IsPrimaryParticipantId`. -/
def isPrimaryParticipantId (participantId : EsifHandle) : Bool :=
  participantId == esifHandleDefault || participantId == esifHandlePrimaryParticipant

/-- The groups of events; those of the last need no enabling. -/
inductive EventGroup
  | power
  | systemMetrics
  | sensor
  | code
  | other
deriving DecidableEq, Repr

/-- `EsifFpcEvent`. -/
structure FpcEvent where
  esifEvent : UInt32
  esifGroup : EventGroup
deriving DecidableEq, Repr

/-- Who observes which event: the arguments of a registration. -/
structure Observer where
  eventType : UInt32
  participantId : EsifHandle
  domainId : UInt16
  /-- The callback routine, null if 0. -/
  callback : UInt64
  context : UInt64
deriving DecidableEq, Repr

/-- The observer, under one identifier of the primary participant. -/
def Observer.norm (o : Observer) : Observer :=
  if isPrimaryParticipantId o.participantId then
    { o with participantId := esifHandlePrimaryParticipant }
  else o

/-- `EventMgrEntry`. -/
structure EventMgrEntry where
  participantId : EsifHandle
  isParticipant0Id : Bool
  domainId : UInt16
  fpcEvent : FpcEvent
  callback : UInt64
  context : UInt64
  refCount : Int
  isInUse : Bool
  markedForDelete : Bool
deriving DecidableEq, Repr

/-- An event on its way to the observers. -/
structure Event where
  participantId : EsifHandle
  domainId : UInt16
  eventType : UInt32
  eventData : List UInt8
deriving DecidableEq, Repr

/-- What is done to an entry; the entries are numbered as they are made. -/
inductive Happening
  /-- The entry is put on the garbage list. -/
  | moved (id : Nat)
  /-- Its node is taken off the observer list. -/
  | removed (id : Nat)
  /-- Its memory is given back. -/
  | freed (id : Nat)
  /-- Its callback is called. -/
  | started (id : Nat) (event : Event)
  /-- The callback has returned. -/
  | ended (id : Nat)
deriving DecidableEq, Repr

/-- `NUM_EVENT_LISTS`. -/
abbrev numEventLists : Nat := 64

/-- `EsifEventMgr`, with the memory of the entries and what has been done to them. -/
structure EventMgr where
  entries : Nat → EventMgrEntry
  /-- Where the next entry is going to be. -/
  next : Nat
  /-- The nodes of the lists, each under the entry it was made with. -/
  observerLists : Fin numEventLists → List Nat
  garbageList : List Nat
  delayedAppUnregistrationEnabled : Bool
  delayAppUnregistration : Bool
  appUnregisterList : List (UInt64 × UInt64)
  log : List Happening

namespace EventMgrEntry

/-- Who the entry is the entry of. -/
def observer (e : EventMgrEntry) : Observer :=
  ⟨e.fpcEvent.esifEvent, e.participantId, e.domainId, e.callback, e.context⟩

/-- The search of a registration. -/
def MatchesAdd (e : EventMgrEntry) (o : Observer) : Prop :=
  e.fpcEvent.esifEvent = o.eventType ∧
    (e.participantId = o.participantId ∨
      e.isParticipant0Id = true ∧ isPrimaryParticipantId o.participantId = true) ∧
    e.domainId = o.domainId ∧ e.context = o.context ∧ e.callback = o.callback

/-- The search of an unregistration. -/
def MatchesRelease (e : EventMgrEntry) (o : Observer) : Prop :=
  e.fpcEvent.esifEvent = o.eventType ∧ e.participantId = o.participantId ∧
    e.domainId = o.domainId ∧ e.context = o.context ∧ e.callback = o.callback

/-- The entry is one of the application. -/
def OfApp (e : EventMgrEntry) (callback context : UInt64) : Prop :=
  e.callback = callback ∧ e.context = context

/-- The entry's observer is concerned. -/
def Concerned (e : EventMgrEntry) (event : Event) : Prop :=
  event.eventType = e.fpcEvent.esifEvent ∧
    (e.participantId = event.participantId ∨ e.participantId = eventMgrMatchAny ∨
      e.isParticipant0Id = true ∧ isPrimaryParticipantId event.participantId = true) ∧
    (e.domainId = event.domainId ∨ e.domainId = eventMgrMatchAnyDomain ∨
      event.domainId = eventMgrDomainNa)

/-- The entry gets the event. -/
def Gets (e : EventMgrEntry) (event : Event) : Prop :=
  e.Concerned event ∧ 0 < e.refCount ∧ e.markedForDelete = false

instance (e : EventMgrEntry) (o : Observer) : Decidable (e.MatchesAdd o) := by
  unfold MatchesAdd
  infer_instance

instance (e : EventMgrEntry) (o : Observer) : Decidable (e.MatchesRelease o) := by
  unfold MatchesRelease
  infer_instance

instance (e : EventMgrEntry) (callback context : UInt64) :
    Decidable (e.OfApp callback context) := by
  unfold OfApp
  infer_instance

instance (e : EventMgrEntry) (event : Event) : Decidable (e.Concerned event) := by
  unfold Concerned
  infer_instance

instance (e : EventMgrEntry) (event : Event) : Decidable (e.Gets event) := by
  unfold Gets
  infer_instance

end EventMgrEntry

namespace EventMgr

variable {s : EventMgr} {id : Nat} {o : Observer}

/-! ## The lists -/

/-- The list of an event. -/
def bucket (eventType : UInt32) : Fin numEventLists :=
  ⟨eventType.toNat % numEventLists, Nat.mod_lt _ (by decide)⟩

/-- The nodes of all lists. -/
def observers (s : EventMgr) : List Nat :=
  (List.finRange numEventLists).flatMap s.observerLists

/-- The list an entry belongs to. -/
def home (s : EventMgr) (id : Nat) : Fin numEventLists :=
  bucket (s.entries id).fpcEvent.esifEvent

/-- Write to an entry. -/
def update (s : EventMgr) (id : Nat) (f : EventMgrEntry → EventMgrEntry) : EventMgr :=
  { s with entries := Function.update s.entries id (f (s.entries id)) }

/-- `EsifEventMgr_MoveEntryToGarbage`. -/
def moveEntryToGarbage (s : EventMgr) (id : Nat) : EventMgr :=
  { s with garbageList := s.garbageList ++ [id], log := s.log ++ [.moved id] }

/-- `esif_link_list_node_remove` of an observer list.  A node that is not in the list is
looked for in vain. -/
def nodeRemove (s : EventMgr) (i : Fin numEventLists) (id : Nat) : EventMgr :=
  { s with
    observerLists := Function.update s.observerLists i ((s.observerLists i).erase id)
    log := s.log ++ [.removed id] }

/-- The lists of a manager that was just made. -/
def init : EventMgr where
  entries := fun _ => ⟨0, false, 0, ⟨0, .other⟩, 0, 0, 0, false, false⟩
  next := 0
  observerLists := fun _ => []
  garbageList := []
  delayedAppUnregistrationEnabled := true
  delayAppUnregistration := false
  appUnregisterList := []
  log := []

/-! ## Registration -/

/-- The first section of `EsifEventMgr_AddEntry`: the entry that is there already. -/
def findEntry (s : EventMgr) (o : Observer) : Option Nat :=
  (s.observerLists (bucket o.eventType)).find? fun id => (s.entries id).MatchesAdd o

/-- Its other end: the reference count of an entry that was found. -/
def addRef (s : EventMgr) (id : Nat) : EventMgr :=
  s.update id fun e => { e with refCount := e.refCount + 1 }

/-- The entry of a new observer. -/
def newEntry (fpcEvent : FpcEvent) (o : Observer) : EventMgrEntry where
  participantId := o.participantId
  isParticipant0Id := isPrimaryParticipantId o.participantId
  domainId := o.domainId
  fpcEvent := fpcEvent
  callback := o.callback
  context := o.context
  refCount := 1
  isInUse := false
  markedForDelete := false

/-- The section that puts a new node at the back. -/
def insertEntry (s : EventMgr) (fpcEvent : FpcEvent) (o : Observer) : EventMgr :=
  { s with
    entries := Function.update s.entries s.next (newEntry fpcEvent o)
    next := s.next + 1
    observerLists :=
      Function.update s.observerLists (bucket fpcEvent.esifEvent)
        (s.observerLists (bucket fpcEvent.esifEvent) ++ [s.next]) }

/-- `EsifEventMgr_EnableEvent`, with the result of what enables the events of the group. -/
def enableEvent (e : EventMgrEntry) (rc : EsifError) : EsifError :=
  if e.participantId = eventMgrMatchAny then esifOk
  else match e.fpcEvent.esifGroup with
    | .power | .systemMetrics | .sensor | .code => rc
    | .other => esifOk

/-! ## Unregistration -/

/-- The entry that an unregistration finds. -/
def findRelease (s : EventMgr) (o : Observer) : Option Nat :=
  (s.observerLists (bucket o.eventType)).find? fun id => (s.entries id).MatchesRelease o

/-- The section of `EsifEventMgr_ReleaseEntry`. -/
def releaseEntry (s : EventMgr) (o : Observer) : EventMgr :=
  match s.findRelease o with
  | none => s
  | some id =>
    let s := s.update id fun e => { e with refCount := e.refCount - 1 }
    if (s.entries id).refCount ≤ 0 ∨ (s.entries id).markedForDelete = true then
      (s.moveEntryToGarbage id).nodeRemove (bucket o.eventType) id
    else s

/-- The entries of an application that go at once: those that are not in use. -/
def unused (s : EventMgr) (callback context : UInt64) (id : Nat) : Bool :=
  (s.entries id).OfApp callback context && !(s.entries id).isInUse

/-- The section of `EsifEventMgr_UnregisterApp`: every entry of the application is marked, and
goes unless it is in use. -/
def unregisterApp (s : EventMgr) (callback context : UInt64) : EventMgr :=
  let gone := s.observers.filter (s.unused callback context)
  { s with
    entries := fun id =>
      if id ∈ s.observers ∧ (s.entries id).OfApp callback context then
        { s.entries id with markedForDelete := true }
      else s.entries id
    observerLists := fun i => (s.observerLists i).filter fun id => !s.unused callback context id
    garbageList := s.garbageList ++ gone
    log := s.log ++ gone.flatMap fun id => [.moved id, .removed id] }

/-! ## Garbage -/

/-- A section of `EsifEventMgr_DumpGarbage`: the first entry is taken off the list. -/
def popGarbage (s : EventMgr) : Option (Nat × EventMgr) :=
  match s.garbageList with
  | [] => none
  | id :: rest => some (id, { s with garbageList := rest })

/-- What it does without the lock: the event is disabled and the entry freed. -/
def freeEntry (s : EventMgr) (id : Nat) : EventMgr :=
  { s with log := s.log ++ [.freed id] }

/-- `EsifEventMgr_DumpGarbage`, if nobody adds to the list meanwhile. -/
def dumpGarbage (s : EventMgr) : EventMgr :=
  s.garbageList.foldl freeEntry { s with garbageList := [] }

/-! ## Who an entry is the entry of -/

/-- The observer of an entry, under one identifier of the primary participant. -/
def key (s : EventMgr) (id : Nat) : Observer := (s.entries id).observer.norm

theorem norm_eventType (o : Observer) : o.norm.eventType = o.eventType := by
  unfold Observer.norm
  split <;> rfl

theorem norm_ofApp (o : Observer) : o.norm.callback = o.callback ∧ o.norm.context = o.context := by
  unfold Observer.norm
  split <;> exact ⟨rfl, rfl⟩

/-- A registration finds the entries of its observer. -/
theorem matchesAdd_iff {e : EventMgrEntry}
    (he : e.isParticipant0Id = isPrimaryParticipantId e.participantId) (o : Observer) :
    e.MatchesAdd o ↔ e.observer.norm = o.norm := by
  obtain ⟨ev, pid, dom, cb, ctx⟩ := o
  simp only [EventMgrEntry.MatchesAdd, EventMgrEntry.observer, Observer.norm, he]
  by_cases h : isPrimaryParticipantId e.participantId = true <;>
    by_cases h' : isPrimaryParticipantId pid = true
  · simp only [h, h', if_true, Observer.mk.injEq, and_self, or_true, true_and]
    exact ⟨fun ⟨a, b, c, d⟩ => ⟨a, b, d, c⟩, fun ⟨a, b, d, c⟩ => ⟨a, b, c, d⟩⟩
  · have hne : e.participantId ≠ pid := fun heq => h' (heq ▸ h)
    have hne' : esifHandlePrimaryParticipant ≠ pid := fun heq => h' (heq ▸ rfl)
    simp [h, h', hne, hne']
  · have hne : e.participantId ≠ pid := fun heq => h (heq ▸ h')
    have hne' : e.participantId ≠ esifHandlePrimaryParticipant := fun heq => h (heq ▸ rfl)
    simp [h, h', hne, hne']
  · simp only [h, h', if_false, Observer.mk.injEq, false_and, or_false, Bool.false_eq_true]
    exact ⟨fun ⟨a, b, c, d, e⟩ => ⟨a, b, c, e, d⟩, fun ⟨a, b, c, e, d⟩ => ⟨a, b, c, d, e⟩⟩

/-- An unregistration finds them if it names the same identifier. -/
theorem matchesRelease_iff (e : EventMgrEntry) (o : Observer) :
    e.MatchesRelease o ↔ e.observer.norm = o.norm ∧ e.participantId = o.participantId := by
  obtain ⟨ev, pid, dom, cb, ctx⟩ := o
  simp only [EventMgrEntry.MatchesRelease, EventMgrEntry.observer, Observer.norm]
  constructor
  · rintro ⟨rfl, rfl, rfl, rfl, rfl⟩
    exact ⟨rfl, rfl⟩
  · rintro ⟨hkey, rfl⟩
    split at hkey <;> simp_all

/-! ## Where the entries are -/

/-- Every node is in the list of its event, once, and the entries know whether they are of the
primary participant. -/
structure Placed (s : EventMgr) : Prop where
  home : ∀ i, ∀ id ∈ s.observerLists i, s.home id = i
  lt_next : ∀ i, ∀ id ∈ s.observerLists i, id < s.next
  nodup : ∀ i, (s.observerLists i).Nodup
  primary : ∀ id < s.next,
    (s.entries id).isParticipant0Id = isPrimaryParticipantId (s.entries id).participantId

theorem mem_observers : id ∈ s.observers ↔ ∃ i, id ∈ s.observerLists i := by
  simp [observers]

theorem Placed.mem_home (h : s.Placed) : id ∈ s.observers ↔ id ∈ s.observerLists (s.home id) := by
  rw [mem_observers]
  refine ⟨fun ⟨i, hi⟩ => ?_, fun hi => ⟨_, hi⟩⟩
  rw [h.home i id hi]
  exact hi

theorem Placed.lt_of_mem (h : s.Placed) (hid : id ∈ s.observers) : id < s.next := by
  obtain ⟨i, hi⟩ := mem_observers.mp hid
  exact h.lt_next i id hi

/-- The entries of an observer are in the list of its event. -/
theorem home_of_key (h : s.key id = o.norm) : s.home id = bucket o.eventType := by
  have htype := congrArg Observer.eventType h
  rw [norm_eventType, key, norm_eventType] at htype
  rw [home, ← htype]
  rfl

/-- **What a registration finds** is the entry of its observer. -/
theorem Placed.findEntry_eq_some (h : s.Placed) (hfind : s.findEntry o = some id) :
    id ∈ s.observers ∧ s.key id = o.norm := by
  have hmem := List.mem_of_find?_eq_some hfind
  have hmatch := List.find?_some hfind
  have hid : id ∈ s.observers := mem_observers.mpr ⟨_, hmem⟩
  rw [decide_eq_true_eq, matchesAdd_iff (h.primary id (h.lt_of_mem hid))] at hmatch
  exact ⟨hid, hmatch⟩

theorem Placed.findEntry_eq_none (h : s.Placed) (hfind : s.findEntry o = none)
    (hid : id ∈ s.observers) : s.key id ≠ o.norm := by
  intro hkey
  have hmem := h.mem_home.mp hid
  rw [home_of_key hkey] at hmem
  have hmatch := List.find?_eq_none.mp hfind id hmem
  rw [decide_eq_true_eq, matchesAdd_iff (h.primary id (h.lt_of_mem hid))] at hmatch
  exact hmatch hkey

theorem placed_init : init.Placed :=
  ⟨by simp [init], by simp [init], by simp [init], by simp [init]⟩

/-- Writing to an entry does not move it. -/
theorem Placed.update (h : s.Placed) (id : Nat) {f : EventMgrEntry → EventMgrEntry}
    (hf : ∀ e, (f e).observer = e.observer ∧ (f e).isParticipant0Id = e.isParticipant0Id) :
    (s.update id f).Placed := by
  have hsame : ∀ x, ((s.update id f).entries x).observer = (s.entries x).observer ∧
      ((s.update id f).entries x).isParticipant0Id = (s.entries x).isParticipant0Id := by
    intro x
    by_cases hx : x = id
    · subst hx
      simp only [EventMgr.update, Function.update_self]
      exact hf _
    · simp [EventMgr.update, Function.update_of_ne hx]
  have htype : ∀ x, ((s.update id f).entries x).fpcEvent.esifEvent =
      (s.entries x).fpcEvent.esifEvent := fun x => congrArg Observer.eventType (hsame x).1
  have hpid : ∀ x, ((s.update id f).entries x).participantId = (s.entries x).participantId :=
    fun x => congrArg Observer.participantId (hsame x).1
  refine ⟨fun i x hx => ?_, h.lt_next, h.nodup, fun x hx => ?_⟩
  · rw [EventMgr.home, htype]
    exact h.home i x hx
  · rw [(hsame x).2, hpid]
    exact h.primary x hx

theorem Placed.nodeRemove (h : s.Placed) (i : Fin numEventLists) (id : Nat) :
    (s.nodeRemove i id).Placed := by
  have hsub : ∀ j, ((s.nodeRemove i id).observerLists j).Sublist (s.observerLists j) := by
    intro j
    by_cases hj : j = i
    · subst hj
      simp only [EventMgr.nodeRemove, Function.update_self]
      exact List.erase_sublist
    · simp [EventMgr.nodeRemove, Function.update_of_ne hj]
  exact ⟨fun j x hx => h.home j x ((hsub j).subset hx),
    fun j x hx => h.lt_next j x ((hsub j).subset hx), fun j => (h.nodup j).sublist (hsub j),
    h.primary⟩

theorem Placed.insertEntry (h : s.Placed) (fpcEvent : FpcEvent) (o : Observer) :
    (s.insertEntry fpcEvent o).Placed := by
  have hold : ∀ x < s.next, (s.insertEntry fpcEvent o).entries x = s.entries x :=
    fun x hx => Function.update_of_ne (Nat.ne_of_lt hx) _ _
  have hnew : (s.insertEntry fpcEvent o).entries s.next = newEntry fpcEvent o :=
    Function.update_self _ _ _
  have hlist : ∀ j x, x ∈ (s.insertEntry fpcEvent o).observerLists j →
      x ∈ s.observerLists j ∨ x = s.next ∧ j = bucket fpcEvent.esifEvent := by
    intro j x hx
    by_cases hj : j = bucket fpcEvent.esifEvent
    · subst hj
      simp only [EventMgr.insertEntry, Function.update_self, List.mem_append,
        List.mem_singleton] at hx
      exact hx.imp id fun hx => ⟨hx, rfl⟩
    · simp only [EventMgr.insertEntry, Function.update_of_ne hj] at hx
      exact Or.inl hx
  refine ⟨fun j x hx => ?_, fun j x hx => ?_, fun j => ?_, fun x hx => ?_⟩
  · rcases hlist j x hx with hx | ⟨rfl, rfl⟩
    · rw [EventMgr.home, hold x (h.lt_next j x hx)]
      exact h.home j x hx
    · rw [EventMgr.home, hnew]
      rfl
  · rcases hlist j x hx with hx | ⟨rfl, _⟩
    · exact Nat.lt_succ_of_lt (h.lt_next j x hx)
    · exact Nat.lt_succ_self _
  · by_cases hj : j = bucket fpcEvent.esifEvent
    · subst hj
      simp only [EventMgr.insertEntry, Function.update_self]
      refine List.nodup_append.mpr ⟨h.nodup _, List.nodup_singleton _, ?_⟩
      intro x hx y hy
      rw [List.mem_singleton] at hy
      rw [hy]
      exact Nat.ne_of_lt (h.lt_next _ x hx)
    · simp only [EventMgr.insertEntry, Function.update_of_ne hj]
      exact h.nodup j
  · rcases Nat.lt_succ_iff_lt_or_eq.mp hx with hx | rfl
    · rw [hold x hx]
      exact h.primary x hx
    · rw [hnew]
      rfl

theorem Placed.unregisterApp (h : s.Placed) (callback context : UInt64) :
    (s.unregisterApp callback context).Placed := by
  have hsame : ∀ x, ((s.unregisterApp callback context).entries x).observer =
        (s.entries x).observer ∧
      ((s.unregisterApp callback context).entries x).isParticipant0Id =
        (s.entries x).isParticipant0Id := by
    intro x
    simp only [EventMgr.unregisterApp]
    split <;> exact ⟨rfl, rfl⟩
  have htype : ∀ x, ((s.unregisterApp callback context).entries x).fpcEvent.esifEvent =
      (s.entries x).fpcEvent.esifEvent := fun x => congrArg Observer.eventType (hsame x).1
  have hpid : ∀ x, ((s.unregisterApp callback context).entries x).participantId =
      (s.entries x).participantId := fun x => congrArg Observer.participantId (hsame x).1
  refine ⟨fun i x hx => ?_, fun i x hx => ?_, fun i => ?_, fun x hx => ?_⟩
  · rw [EventMgr.home, htype]
    exact h.home i x (List.mem_of_mem_filter hx)
  · exact h.lt_next i x (List.mem_of_mem_filter hx)
  · exact (h.nodup i).filter _
  · rw [(hsame x).2, hpid]
    exact h.primary x hx

end EventMgr

end Uf

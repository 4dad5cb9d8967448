import Dptf.Uf.Dispatch

/-!
# The iteration over the observers

`EsifEventMgr_InitIterator` and `EsifEventMgr_GetNextEvent`: an iterator is the event type it
is at and a position in the list of that type, which is the list of other types too.

* `Dispatcher.iteration_complete` — every entry of a type in the range is returned once, grouped
  by type, in each state the event manager can come to.
-/

open Lib

namespace Uf

/-- `MAX_ESIF_EVENT_ENUM_VALUE`. -/
def maxEsifEventEnumValue : UInt32 := 188

/-- `EVENT_MGR_ITERATOR_MARKER`, the characters "UFEM". -/
def eventMgrIteratorMarker : UInt32 := 0x5546454D

/-- `UfEventIterator`. -/
structure EventIterator where
  marker : UInt32
  eventType : UInt32
  index : Nat
deriving DecidableEq, Repr

/-- `EventMgr_IteratorData`. -/
structure IteratorData where
  eventType : UInt32
  participantId : EsifHandle
  domainId : UInt16
  callback : UInt64
  context : UInt64
deriving DecidableEq, Repr

namespace EventMgr

variable {s : EventMgr} {x i n id : Nat} {eventType : UInt32}

/-- `EsifEventMgr_InitIterator`. -/
def initIterator : EventIterator := ⟨eventMgrIteratorMarker, 0, 0⟩

/-- What is returned of an entry. -/
def iteratorData (s : EventMgr) (eventType : UInt32) (id : Nat) : IteratorData :=
  let e := s.entries id
  ⟨eventType, e.participantId, e.domainId, e.callback, e.context⟩

/-- The first of some nodes that is of the type, with its place in the list. -/
def scanNodes (s : EventMgr) (eventType : UInt32) : Nat → List Nat → Option (Nat × Nat)
  | _, [] => none
  | i, id :: ids =>
    if eventType = (s.entries id).fpcEvent.esifEvent then some (id, i)
    else scanNodes s eventType (i + 1) ids

/-- The loop of `EsifEventMgr_GetNextEvent` over the event types. -/
def nextEventLoop (s : EventMgr) (eventType : UInt32) (iter : EventIterator) :
    EsifError × Option IteratorData × EventIterator :=
  if _hle : eventType ≤ maxEsifEventEnumValue then
    match s.scanNodes eventType iter.index
        ((s.observerLists (bucket eventType)).drop iter.index) with
    | some (id, i) =>
      (esifOk, some (s.iteratorData eventType id),
        { iter with eventType := eventType, index := i + 1 })
    | none => s.nextEventLoop (eventType + 1) { iter with index := 0 }
  else (esifEIterationDone, none, iter)
termination_by maxEsifEventEnumValue.toNat + 1 - eventType.toNat
decreasing_by
  have hle := UInt32.le_iff_toNat_le.mp _hle
  have hmax : maxEsifEventEnumValue.toNat = 188 := rfl
  rw [UInt32.toNat_add, UInt32.toNat_one]
  omega

/-- `EsifEventMgr_GetNextEvent`. -/
def getNextEvent (s : EventMgr) (iter : EventIterator) :
    EsifError × Option IteratorData × EventIterator :=
  if iter.marker ≠ eventMgrIteratorMarker then (esifENotInitialized, none, iter)
  else s.nextEventLoop iter.eventType iter

/-- What a number of calls return. -/
def iterate (s : EventMgr) : Nat → EventIterator → List (EsifError × Option IteratorData)
  | 0, _ => []
  | n + 1, iter =>
    match s.getNextEvent iter with
    | (rc, data, iter) => (rc, data) :: iterate s n iter

/-! ## The order of an iteration -/

/-- The type of an entry. -/
def typeOf (s : EventMgr) (id : Nat) : UInt32 := (s.entries id).fpcEvent.esifEvent

/-- The entries of a type among some nodes. -/
def ofType (s : EventMgr) (eventType : UInt32) (ids : List Nat) : List Nat :=
  ids.filter fun id => eventType = s.typeOf id

/-- The entries of `n` types from one on. -/
def ofTypes (s : EventMgr) : Nat → UInt32 → List Nat
  | 0, _ => []
  | n + 1, eventType =>
    s.ofType eventType (s.observerLists (bucket eventType)) ++ ofTypes s n (eventType + 1)

/-- The entries in the order of an iteration. -/
def iterated (s : EventMgr) : List Nat := s.ofTypes 189 0

/-- What is left when `n` types are left, the first of them from a position in its list on. -/
def remaining (s : EventMgr) : Nat → UInt32 → Nat → List Nat
  | 0, _, _ => []
  | n + 1, eventType, index =>
    s.ofType eventType ((s.observerLists (bucket eventType)).drop index) ++
      s.ofTypes n (eventType + 1)

theorem remaining_zero (s : EventMgr) (n : Nat) (eventType : UInt32) :
    s.remaining n eventType 0 = s.ofTypes n eventType := by
  cases n with
  | zero => rfl
  | succ n => rfl

theorem ofType_cons_self (h : eventType = s.typeOf x) (xs : List Nat) :
    s.ofType eventType (x :: xs) = x :: s.ofType eventType xs :=
  List.filter_cons_of_pos (decide_eq_true h)

theorem ofType_cons_of_ne (h : eventType ≠ s.typeOf x) (xs : List Nat) :
    s.ofType eventType (x :: xs) = s.ofType eventType xs :=
  List.filter_cons_of_neg fun heq => h (of_decide_eq_true heq)

theorem scanNodes_some {ids : List Nat} {i j id : Nat}
    (h : s.scanNodes eventType i ids = some (id, j)) :
    i ≤ j ∧ s.typeOf id = eventType ∧
      s.ofType eventType ids = id :: s.ofType eventType (ids.drop (j + 1 - i)) := by
  induction ids generalizing i with
  | nil => cases h
  | cons x xs ih =>
    rw [scanNodes] at h
    split at h
    · next heq =>
      obtain ⟨rfl, rfl⟩ := Prod.mk.inj (Option.some.inj h)
      have hstep : i + 1 - i = 1 := by omega
      refine ⟨Nat.le_refl i, heq.symm, ?_⟩
      rw [hstep, List.drop_one, List.tail_cons, ofType_cons_self heq]
    · next hne =>
      obtain ⟨hle, htype, hrest⟩ := ih h
      have hstep : j + 1 - i = (j + 1 - (i + 1)) + 1 := by omega
      refine ⟨by omega, htype, ?_⟩
      rw [hstep, List.drop_succ_cons, ← hrest, ofType_cons_of_ne hne]

theorem scanNodes_none {ids : List Nat} (h : s.scanNodes eventType i ids = none) :
    s.ofType eventType ids = [] := by
  induction ids generalizing i with
  | nil => rfl
  | cons x xs ih =>
    rw [scanNodes] at h
    split at h
    · cases h
    · next hne =>
      rw [ofType_cons_of_ne hne]
      exact ih h

/-- **A call** returns the next entry that is left, or that there is none. -/
theorem nextEventLoop_spec (s : EventMgr) (n : Nat) (eventType : UInt32) (iter : EventIterator)
    (hn : eventType.toNat + n = 189) :
    match s.remaining n eventType iter.index with
    | [] => ∃ iter', s.nextEventLoop eventType iter = (esifEIterationDone, none, iter')
    | id :: ids => ∃ m iter', s.nextEventLoop eventType iter =
          (esifOk, some (s.iteratorData (s.typeOf id) id), iter') ∧
        iter'.marker = iter.marker ∧ iter'.eventType.toNat + m = 189 ∧
        s.remaining m iter'.eventType iter'.index = ids := by
  have hmax : maxEsifEventEnumValue.toNat = 188 := rfl
  induction n generalizing eventType iter with
  | zero =>
    have hend : ¬eventType ≤ maxEsifEventEnumValue := by
      rw [UInt32.le_iff_toNat_le]
      omega
    refine ⟨iter, ?_⟩
    rw [nextEventLoop, dif_neg hend]
  | succ n ih =>
    have hle : eventType ≤ maxEsifEventEnumValue := by
      rw [UInt32.le_iff_toNat_le]
      omega
    have hnext : (eventType + 1).toNat + n = 189 := by
      rw [UInt32.toNat_add, UInt32.toNat_one]
      omega
    rw [nextEventLoop, dif_pos hle, remaining]
    cases hscan : s.scanNodes eventType iter.index
        ((s.observerLists (bucket eventType)).drop iter.index) with
    | none =>
      have hrest := ih (eventType + 1) { iter with index := 0 } hnext
      rw [remaining_zero] at hrest
      rw [scanNodes_none hscan, List.nil_append]
      exact hrest
    | some found =>
      obtain ⟨id, i⟩ := found
      obtain ⟨hi, htype, hsame⟩ := scanNodes_some hscan
      have hdrop : iter.index + (i + 1 - iter.index) = i + 1 := by omega
      rw [List.drop_drop, hdrop] at hsame
      rw [hsame, List.cons_append]
      refine ⟨n + 1, { iter with eventType := eventType, index := i + 1 }, ?_, rfl, hn, rfl⟩
      rw [htype]

/-- **The calls of an iteration** return what is left in its order, and then that it is done. -/
theorem iterate_from (s : EventMgr) (ids : List Nat) (n : Nat) (iter : EventIterator)
    (hmarker : iter.marker = eventMgrIteratorMarker) (hn : iter.eventType.toNat + n = 189)
    (hids : s.remaining n iter.eventType iter.index = ids) :
    s.iterate (ids.length + 1) iter =
      ids.map (fun id => (esifOk, some (s.iteratorData (s.typeOf id) id))) ++
        [(esifEIterationDone, none)] := by
  induction ids generalizing n iter with
  | nil =>
    have hcall := s.nextEventLoop_spec n iter.eventType iter hn
    rw [hids] at hcall
    obtain ⟨iter', hloop⟩ := hcall
    have hget : s.getNextEvent iter = (esifEIterationDone, none, iter') := by
      rw [getNextEvent, if_neg (not_not.mpr hmarker), hloop]
    simp [iterate, hget]
  | cons id ids ih =>
    have hcall := s.nextEventLoop_spec n iter.eventType iter hn
    rw [hids] at hcall
    obtain ⟨m, iter', hloop, hmarker', hm, hrest⟩ := hcall
    have hget : s.getNextEvent iter = (esifOk, some (s.iteratorData (s.typeOf id) id), iter') := by
      rw [getNextEvent, if_neg (not_not.mpr hmarker), hloop]
    have hcons : s.iterate (ids.length + 1 + 1) iter =
        (esifOk, some (s.iteratorData (s.typeOf id) id)) :: s.iterate (ids.length + 1) iter' := by
      rw [iterate, hget]
    rw [List.length_cons, hcons, ih m iter' (hmarker'.trans hmarker) hm hrest]
    rfl

/-! ## Every entry once -/

theorem mem_ofTypes (hn : eventType.toNat + n ≤ 189) :
    id ∈ s.ofTypes n eventType ↔
      id ∈ s.observerLists (bucket (s.typeOf id)) ∧ eventType ≤ s.typeOf id ∧
        (s.typeOf id).toNat < eventType.toNat + n := by
  induction n generalizing eventType with
  | zero =>
    rw [UInt32.le_iff_toNat_le]
    simp only [ofTypes, List.not_mem_nil, false_iff]
    omega
  | succ n ih =>
    have hnext : (eventType + 1).toNat = eventType.toNat + 1 := by
      rw [UInt32.toNat_add, UInt32.toNat_one]
      omega
    rw [ofTypes, List.mem_append, ih (by omega), ofType, List.mem_filter, decide_eq_true_eq,
      UInt32.le_iff_toNat_le, UInt32.le_iff_toNat_le, hnext]
    constructor
    · rintro (⟨hmem, heq⟩ | ⟨hmem, hge, hlt⟩)
      · rw [← heq]
        exact ⟨hmem, by omega, by omega⟩
      · exact ⟨hmem, by omega, by omega⟩
    · rintro ⟨hmem, hge, hlt⟩
      rcases Nat.eq_or_lt_of_le hge with heq | hgt
      · have htype : eventType = s.typeOf id := UInt32.toNat_inj.mp heq
        rw [htype]
        exact .inl ⟨hmem, rfl⟩
      · exact .inr ⟨hmem, by omega, by omega⟩

theorem pairwise_ofTypes (h : s.Placed) (hn : eventType.toNat + n ≤ 189) :
    (s.ofTypes n eventType).Pairwise fun x y => s.typeOf x ≤ s.typeOf y ∧ x ≠ y := by
  induction n generalizing eventType with
  | zero => exact List.Pairwise.nil
  | succ n ih =>
    have hnext : (eventType + 1).toNat = eventType.toNat + 1 := by
      rw [UInt32.toNat_add, UInt32.toNat_one]
      omega
    rw [ofTypes, List.pairwise_append]
    refine ⟨?_, ih (by omega), fun x hx y hy => ?_⟩
    · refine List.Pairwise.imp_of_mem ?_ ((h.nodup (bucket eventType)).filter _)
      intro x y hx hy hne
      have hxt := (List.mem_filter.mp hx).2
      have hyt := (List.mem_filter.mp hy).2
      rw [decide_eq_true_eq] at hxt hyt
      rw [← hxt, ← hyt]
      exact ⟨UInt32.le_refl _, hne⟩
    · have hxt := (List.mem_filter.mp hx).2
      rw [decide_eq_true_eq] at hxt
      have hyt := ((mem_ofTypes (by omega)).mp hy).2.1
      rw [UInt32.le_iff_toNat_le, hnext] at hyt
      rw [← hxt, UInt32.le_iff_toNat_le]
      refine ⟨by omega, ?_⟩
      rintro rfl
      rw [← hxt] at hyt
      omega

theorem mem_iterated (h : s.Placed) :
    id ∈ s.iterated ↔ id ∈ s.observers ∧ s.typeOf id ≤ maxEsifEventEnumValue := by
  have hmax : maxEsifEventEnumValue.toNat = 188 := rfl
  have hhome : s.home id = bucket (s.typeOf id) := rfl
  rw [iterated, mem_ofTypes (by decide), h.mem_home, hhome, UInt32.le_iff_toNat_le,
    UInt32.le_iff_toNat_le, hmax, UInt32.toNat_zero]
  constructor
  · rintro ⟨hmem, -, hlt⟩
    exact ⟨hmem, by omega⟩
  · rintro ⟨hmem, hle⟩
    exact ⟨hmem, by omega, by omega⟩

/-- **An iteration is complete** in a state whose nodes are where they belong. -/
theorem Placed.iterates (h : s.Placed) :
    ∃ ids : List Nat, ids.Nodup ∧
      (∀ id, id ∈ ids ↔ id ∈ s.observers ∧ s.typeOf id ≤ maxEsifEventEnumValue) ∧
      ids.Pairwise (fun x y => s.typeOf x ≤ s.typeOf y) ∧
      s.iterate (ids.length + 1) initIterator =
        ids.map (fun id => (esifOk, some (s.iteratorData (s.typeOf id) id))) ++
          [(esifEIterationDone, none)] := by
  have hordered := pairwise_ofTypes h (show (0 : UInt32).toNat + 189 ≤ 189 by decide)
  refine ⟨s.iterated, hordered.imp And.right, fun id => mem_iterated h, hordered.imp And.left, ?_⟩
  exact s.iterate_from s.iterated 189 initIterator rfl rfl (s.remaining_zero 189 0)

end EventMgr

/-! ## The states the event manager comes to -/

namespace Dispatcher

open EventMgr

variable {d d' : Dispatcher}

theorem placed_walkOn (h : d.mgr.Placed) (event : Event) (ids : List Nat)
    (shouldDumpGarbage : Bool) : (d.walkOn event ids shouldDumpGarbage).mgr.Placed := by
  unfold walkOn
  split
  · next id _ =>
    have hused := h.update id (f := fun e => { e with refCount := e.refCount + 1, isInUse := true })
      fun _ => ⟨rfl, rfl⟩
    exact ⟨hused.home, hused.lt_next, hused.nodup, hused.primary⟩
  · exact h

theorem placed_leaveCallback {s : EventMgr} (h : s.Placed) (p : Processing) :
    (s.leaveCallback p).Placed := by
  have hunused := h.update p.current
    (f := fun e => { e with isInUse := false, refCount := e.refCount - 1 }) fun _ => ⟨rfl, rfl⟩
  have hended : (s.endCallback p.current).Placed :=
    ⟨hunused.home, hunused.lt_next, hunused.nodup, hunused.primary⟩
  simp only [leaveCallback]
  split
  · have hmoved : ((s.endCallback p.current).moveEntryToGarbage p.current).Placed :=
      ⟨hended.home, hended.lt_next, hended.nodup, hended.primary⟩
    exact hmoved.nodeRemove _ _
  · exact hended

theorem placed_process (h : d.mgr.Placed) (item : EventQueueItem) (event : Option Event) :
    (d.process item event).mgr.Placed := by
  cases event with
  | none => exact h
  | some event => exact placed_walkOn (by exact h) _ _ _

theorem placed_advance {i : Nat} {rc : EsifError} {t : Thread} (h : d.mgr.Placed)
    (hstep : d.advance i rc t = some d') : d'.mgr.Placed := by
  cases t with
  | done => cases hstep
  | adding fpcEvent o =>
    cases hstep
    exact h.insertEntry fpcEvent o
  | enabling id =>
    simp only [Dispatcher.advance] at hstep
    split at hstep
    · cases hstep
      exact h
    · cases hstep
      exact h.nodeRemove _ _
  | exiting fpcEvent id =>
    cases hstep
    exact h.nodeRemove _ _
  | freeing _ | disposing _ =>
    cases hstep
    exact ⟨h.home, h.lt_next, h.nodup, h.primary⟩
  | dumping =>
    simp only [Dispatcher.advance] at hstep
    split at hstep
    · cases hstep
      exact h
    · next id mgr hpop =>
      cases hstep
      unfold popGarbage at hpop
      split at hpop
      · cases hpop
      · obtain ⟨-, rfl⟩ := Prod.mk.inj (Option.some.inj hpop)
        exact ⟨h.home, h.lt_next, h.nodup, h.primary⟩

/-- **Every step leaves the nodes where they belong.** -/
theorem placed_step {a : Action} (hstep : step d a = some d') (h : d.mgr.Placed) :
    d'.mgr.Placed := by
  cases a with
  | register ps o =>
    simp only [step] at hstep
    split at hstep
    · cases hstep
      exact h
    · cases hstep
      unfold Dispatcher.register
      split
      · next id _ =>
        split
        · exact h.addRef id
        · exact h
      · exact h
  | unregister ps o =>
    simp only [step] at hstep
    split at hstep
    · cases hstep
      exact h
    · cases hstep
      exact h.releaseEntry o
  | unregisterAll callback context =>
    simp only [step] at hstep
    split at hstep
    · cases hstep
      exact h
    · split at hstep
      · cases hstep
        exact ⟨h.home, h.lt_next, h.nodup, h.primary⟩
      · cases hstep
        exact h.unregisterApp callback context
  | delay delayed =>
    cases hstep
    exact ⟨h.home, h.lt_next, h.nodup, h.primary⟩
  | unregisterRemoved =>
    simp only [step] at hstep
    split at hstep
    · cases hstep
    · next callback context rest _ =>
      cases hstep
      have hrest : ({ d.mgr with appUnregisterList := rest } : EventMgr).Placed :=
        ⟨h.home, h.lt_next, h.nodup, h.primary⟩
      exact hrest.unregisterApp callback context
  | advance i rc =>
    obtain ⟨t, -, hadvance⟩ := Option.bind_eq_some_iff.mp hstep
    exact placed_advance h hadvance
  | signal item =>
    cases hstep
    exact h
  | pull mapped cached =>
    simp only [step] at hstep
    split at hstep
    · next item eventQueue _ _ =>
      split at hstep
      · cases hstep
        exact h
      · cases hstep
        exact placed_process (by exact h) _ _
    · cases hstep
  | callbackReturns =>
    obtain ⟨p, -, hreturns⟩ := Option.map_eq_some_iff.mp hstep
    obtain rfl := hreturns
    exact placed_walkOn (placed_leaveCallback h p) _ _ _

/-- **The iteration over the observers is complete** in every state the event manager comes to,
whatever its threads are at: the calls return the entry of each type in the range once, those of
one type together, and then that the iteration is done. -/
theorem iteration_complete {actions : List Action} {d : Dispatcher}
    (hrun : run step start actions = some d) :
    ∃ ids : List Nat, ids.Nodup ∧
      (∀ id, id ∈ ids ↔ id ∈ d.mgr.observers ∧ d.mgr.typeOf id ≤ maxEsifEventEnumValue) ∧
      ids.Pairwise (fun x y => d.mgr.typeOf x ≤ d.mgr.typeOf y) ∧
      d.mgr.iterate (ids.length + 1) initIterator =
        ids.map (fun id => (esifOk, some (d.mgr.iteratorData (d.mgr.typeOf id) id))) ++
          [(esifEIterationDone, none)] := by
  let inv : Dispatcher → Prop := fun d => d.mgr.Placed
  have hstep : ∀ s a s', step s a = some s' → inv s → inv s' := fun _ _ _ => placed_step
  have hplaced : inv d := run_invariant hstep hrun placed_init
  exact hplaced.iterates

/-- Observers of any participant, two of them in one list and one of a type beyond the range. -/
def threeObservers : List Action :=
  let observe eventType : Action :=
    .register (fun _ => none) ⟨eventType, eventMgrMatchAny, eventMgrDomainD0, 1, 0⟩
  [observe 69, .advance 0 esifOk, observe 5, .advance 1 esifOk, observe 10000, .advance 2 esifOk]

theorem iteration_complete_threeObservers :
    ∃ (d : Dispatcher) (ids : List Nat), run step start threeObservers = some d ∧
      d.mgr.observers = [0, 1, 2] ∧
      (∀ id, id ∈ ids ↔ id ∈ d.mgr.observers ∧ d.mgr.typeOf id ≤ maxEsifEventEnumValue) ∧
      d.mgr.iterate (ids.length + 1) initIterator =
        ids.map (fun id => (esifOk, some (d.mgr.iteratorData (d.mgr.typeOf id) id))) ++
          [(esifEIterationDone, none)] := by
  obtain ⟨d, hrun⟩ : ∃ d, run step start threeObservers = some d ∧
      d.mgr.observers = [0, 1, 2] := ⟨_, rfl, by decide +kernel⟩
  obtain ⟨ids, -, hmem, -, hcalls⟩ := iteration_complete hrun.1
  exact ⟨d, ids, hrun.1, hrun.2, hmem, hcalls⟩

end Dispatcher

end Uf

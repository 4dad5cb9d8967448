import Dptf.Uf.Custody

/-!
# Each event reaches each observer once

The event thread walks a list that the others change while it is in a callback.  If
the entries count what is registered, the entry of an observer that stays registered
is met exactly once.

* `Exact` — **the invariant**: the entries count the registrations, and of one observer
  no two registrations are about to insert one.
* `delivered_once` — the order of the events, who is called, and how often.
* `bothInserted_twice` — two registrations that insert an entry each.
-/

open Lib

namespace Uf

open EventMgr

/-! ## What a section leaves in order -/

/-- The callbacks that were called. -/
def started (log : List Happening) : List (Nat × Event) :=
  log.filterMap fun h => match h with
    | .started id event => some (id, event)
    | _ => none

theorem started_append (log log' : List Happening) :
    started (log ++ log') = started log ++ started log' := List.filterMap_append

/-- A section keeps the order of the nodes and who they are for, does not both take nodes out and
put some in, and calls nobody. -/
structure Kept (s s' : EventMgr) : Prop where
  order : ∀ i, SameOrder (s.observerLists i) (s'.observerLists i)
  key : ∀ x ∈ s.observers, s'.key x = s.key x
  mem : (∀ x ∈ s'.observers, x ∈ s.observers) ∨ ∀ x ∈ s.observers, x ∈ s'.observers
  calls : started s'.log = started s.log

namespace Kept

variable {s s' : EventMgr}

/-- The lists, the entries' observers and the calls are all that matters. -/
theorem of_eq (hlists : s'.observerLists = s.observerLists) (hkey : ∀ x, s'.key x = s.key x)
    (hcalls : started s'.log = started s.log) : Kept s s' := by
  refine ⟨fun i => ?_, fun x _ => hkey x, Or.inl fun x hx => ?_, hcalls⟩
  · rw [hlists]
    exact SameOrder.refl _
  · rw [mem_observers] at hx ⊢
    rwa [hlists] at hx

theorem refl (s : EventMgr) : Kept s s := of_eq rfl (fun _ => rfl) rfl

theorem update (s : EventMgr) (id : Nat) {f : EventMgrEntry → EventMgrEntry}
    (hf : ∀ e, (f e).observer = e.observer) : Kept s (s.update id f) :=
  of_eq rfl (key_update s id hf) rfl

theorem addRef (s : EventMgr) (id : Nat) : Kept s (s.addRef id) := update s id fun _ => rfl

theorem insertEntry (h : s.Placed) (fpcEvent : FpcEvent) (o : Observer) :
    Kept s (s.insertEntry fpcEvent o) := by
  refine ⟨fun i => ?_, fun x hx => insertEntry_key_of_lt s fpcEvent o (h.lt_of_mem hx),
    Or.inr fun x hx => mem_insertEntry.mpr (Or.inl hx), rfl⟩
  by_cases hi : i = bucket fpcEvent.esifEvent
  · subst hi
    simp only [EventMgr.insertEntry, Function.update_self]
    exact SameOrder.append_singleton fun hmem => Nat.lt_irrefl _ (h.lt_next _ _ hmem)
  · simp only [EventMgr.insertEntry, Function.update_of_ne hi]
    exact SameOrder.refl _

/-- A node is taken off, whatever else is done to its entry. -/
theorem nodeRemove (h : s.Placed) {i : Fin numEventLists} {id : Nat}
    (hlists : s'.observerLists = (s.nodeRemove i id).observerLists) (hkey : ∀ x, s'.key x = s.key x)
    (hcalls : started s'.log = started s.log) : Kept s s' := by
  refine ⟨fun j => ?_, fun x _ => hkey x, Or.inl fun x hx => ?_, hcalls⟩
  · rw [hlists]
    by_cases hj : j = i
    · subst hj
      simp only [EventMgr.nodeRemove, Function.update_self]
      exact SameOrder.erase (h.nodup _) id
    · simp only [EventMgr.nodeRemove, Function.update_of_ne hj]
      exact SameOrder.refl _
  · obtain ⟨j, hj⟩ := mem_observers.mp hx
    rw [hlists] at hj
    exact mem_of_nodeRemove (mem_observers.mpr ⟨j, hj⟩)

theorem unregisterApp (s : EventMgr) (callback context : UInt64) :
    Kept s (s.unregisterApp callback context) := by
  refine ⟨fun _ => SameOrder.filter _ _, fun x _ => key_unregisterApp s callback context x,
    Or.inl fun _ hx => (mem_unregisterApp.mp hx).1, ?_⟩
  have hnone : ∀ ids : List Nat, started (ids.flatMap fun id => [.moved id, .removed id]) = [] := by
    intro ids
    induction ids with
    | nil => rfl
    | cons id ids ih =>
      rw [List.flatMap_cons, started_append, ih]
      rfl
  simp only [EventMgr.unregisterApp, started_append, hnone, List.append_nil]

theorem releaseEntry (h : s.Placed) (o : Observer) : Kept s (s.releaseEntry o) := by
  have hreleased := h.released o
  generalize s.releaseEntry o = s' at hreleased ⊢
  cases hreleased with
  | missing => exact refl s
  | dropped id => exact update s id fun _ => rfl
  | gone id =>
    refine nodeRemove h (i := s.home id) rfl (key_update s id (f := decRef) fun _ => rfl) ?_
    simp only [EventMgr.nodeRemove, EventMgr.moveEntryToGarbage, started_append]
    simp [started, EventMgr.update]

end Kept

/-! ## The callbacks and the numbers -/

namespace EventMgr

variable {id : Nat} {s : EventMgr} {r : Registered}

/-- A callback is called of an observer that is registered. -/
theorem Counted.registered_of_gets (h : Counted s r) (hid : id ∈ s.observers) {event : Event}
    (hgets : (s.entries id).Gets event) (hunused : (s.entries id).isInUse = false) :
    0 < r (s.key id) := by
  have hcount := (h.entry id hid).refCount hgets.2.2
  have hpos := hgets.2.1
  rw [hunused] at hcount
  simp at hcount
  omega

theorem Counted.startCallback (h : Counted s r) (hid : id ∈ s.observers) {event : Event}
    (hgets : (s.entries id).Gets event) (hunused : (s.entries id).isInUse = false) :
    Counted (s.startCallback event id) r := by
  have hok := h.entry id hid
  have hstarted : Counted (s.update id fun e =>
      { e with refCount := e.refCount + 1, isInUse := true }) r := by
    refine h.update hid (fun _ => rfl) (fun _ _ => rfl) ⟨fun hm => ?_, fun hm => ?_, fun hm => ?_⟩
    · have := hok.refCount hm
      simp only [this, hunused]
      simp
    · have := hok.pos hm
      simp only
      omega
    · simp only [hgets.2.2, Bool.false_eq_true] at hm
  exact ⟨hstarted.entry, hstarted.present, hstarted.unique⟩

theorem endCallback_entries_self (s : EventMgr) (id : Nat) : (s.endCallback id).entries id =
      { s.entries id with isInUse := false, refCount := (s.entries id).refCount - 1 } :=
  Function.update_self _ _ _

theorem endCallback_entries_of_ne (s : EventMgr) {id x : Nat} (hx : x ≠ id) :
    (s.endCallback id).entries x = s.entries x := Function.update_of_ne hx _ _

/-- An entry that goes when its callback returns is not registered any more. -/
theorem Counted.registered_of_goesAfter (h : Counted s r) (hid : id ∈ s.observers)
    (huse : (s.entries id).isInUse = true) (hgo : (s.endCallback id).GoesAfter id) :
    r (s.key id) = 0 := by
  have hok := h.entry id hid
  rw [GoesAfter, endCallback_entries_self] at hgo
  by_cases hm : (s.entries id).markedForDelete = true
  · exact (hok.marked hm).2
  · have hcount := hok.refCount (by simpa using hm)
    have hle := hgo.resolve_right hm
    rw [huse, if_pos rfl] at hcount
    simp only at hle
    omega

theorem Counted.endCallback (h : Counted s r) (hid : id ∈ s.observers)
    (huse : (s.entries id).isInUse = true) (hstay : ¬(s.endCallback id).GoesAfter id) :
    Counted (s.endCallback id) r := by
  have hok := h.entry id hid
  rw [GoesAfter, endCallback_entries_self, not_or] at hstay
  obtain ⟨hpos, hmarked⟩ := hstay
  simp only at hpos hmarked
  have hended : Counted (s.update id fun e =>
      { e with isInUse := false, refCount := e.refCount - 1 }) r := by
    refine h.update hid (fun _ => rfl) (fun _ _ => rfl) ⟨fun hm => ?_, fun _ => ?_, fun hm => ?_⟩
    · have hcount := hok.refCount hm
      rw [huse, if_pos rfl] at hcount
      simp only [hcount, Bool.false_eq_true, if_false]
      omega
    · simp only
      omega
    · exact absurd hm hmarked
  exact ⟨hended.entry, hended.present, hended.unique⟩

theorem Counted.endCallback_gone (h : Counted s r) (hplaced : s.Placed) (hid : id ∈ s.observers)
    (huse : (s.entries id).isInUse = true) (hgo : (s.endCallback id).GoesAfter id) :
    Counted (((s.endCallback id).moveEntryToGarbage id).nodeRemove (s.home id) id) r := by
  refine h.remove hid (fun x => ?_) (fun x hx => endCallback_entries_of_ne s hx) (fun _ _ => rfl)
    (h.registered_of_goesAfter hid huse hgo)
  exact hplaced.mem_nodeRemove

end EventMgr

/-! ## Sound steps -/

/-- The thread is about to insert an entry of the observer. -/
def Thread.adds (k : Observer) : Thread → Nat
  | .adding _ o => if o.norm = k then 1 else 0
  | _ => 0

namespace Dispatcher

variable {d d' : Dispatcher} {event : Event} {id i : Nat} {o : Observer} {x : Delivery}
  {s : EventMgr} {a : Action} {q : Processing}

/-- Where the events of its entry are not enabled, nobody else has registered. -/
def FailsAlone (d : Dispatcher) (rc : EsifError) : Thread → Prop
  | .enabling id => enableEvent (d.mgr.entries id) rc ≠ esifOk → (d.mgr.entries id).refCount = 1
  | _ => True

instance (d : Dispatcher) (rc : EsifError) : ∀ t, Decidable (d.FailsAlone rc t)
  | .enabling id => inferInstanceAs (Decidable
      (enableEvent (d.mgr.entries id) rc ≠ esifOk → (d.mgr.entries id).refCount = 1))
  | .done | .adding _ _ | .exiting _ _ | .freeing _ | .dumping | .disposing _ => isTrue trivial

/-- A registration that finds no entry is the only one about to insert it, an unregistration
names the participant as the entry does, and enabling fails alone. -/
def Alone (d : Dispatcher) : Action → Prop
  | .register ps o => (lookupEvent ps o esifEEventNotFound).isOk = true →
    d.mgr.findEntry o = none → total (Thread.adds o.norm) d.threads = 0
  | .unregister ps o => (lookupEvent ps o esifENotFound).isOk = true →
    ∀ id ∈ d.mgr.observers, d.mgr.key id = o.norm →
      (d.mgr.entries id).participantId = o.participantId
  | .advance i rc => ∀ t ∈ d.threads[i]?, d.FailsAlone rc t
  | _ => True

instance (d : Dispatcher) : ∀ a, Decidable (d.Alone a)
  | .register ps o => inferInstanceAs (Decidable
      ((lookupEvent ps o esifEEventNotFound).isOk = true →
        d.mgr.findEntry o = none → total (Thread.adds o.norm) d.threads = 0))
  | .unregister ps o => inferInstanceAs (Decidable
      ((lookupEvent ps o esifENotFound).isOk = true →
        ∀ id ∈ d.mgr.observers, d.mgr.key id = o.norm →
          (d.mgr.entries id).participantId = o.participantId))
  | .advance i rc => inferInstanceAs (Decidable (∀ t ∈ d.threads[i]?, d.FailsAlone rc t))
  | .unregisterAll _ _ | .delay _ | .unregisterRemoved | .signal _ | .pull _ _
  | .callbackReturns => isTrue trivial

/-- The step is safe and alone. -/
def Sound (d : Dispatcher) (a : Action) : Prop := d.Safe a ∧ d.Alone a

instance (d : Dispatcher) (a : Action) : Decidable (d.Sound a) :=
  inferInstanceAs (Decidable (d.Safe a ∧ d.Alone a))

/-- **The entries count the registrations**, and who is about to insert an entry is the only
one. -/
structure Exact (d : Dispatcher) : Prop where
  custody : d.InCustody
  counted : Counted d.mgr d.registered
  types : ∀ fpcEvent o, .adding fpcEvent o ∈ d.threads → fpcEvent.esifEvent = o.eventType
  single : ∀ k, total (Thread.adds k) d.threads ≤ 1
  apart : ∀ k, 0 < total (Thread.adds k) d.threads → ∀ id ∈ d.mgr.observers, d.mgr.key id ≠ k

/-- The part of `Exact` that is about the threads. -/
structure AddsApart (s : EventMgr) (ts : List Thread) : Prop where
  types : ∀ fpcEvent o, .adding fpcEvent o ∈ ts → fpcEvent.esifEvent = o.eventType
  single : ∀ k, total (Thread.adds k) ts ≤ 1
  apart : ∀ k, 0 < total (Thread.adds k) ts → ∀ id ∈ s.observers, s.key id ≠ k

theorem Exact.addsApart (h : d.Exact) : AddsApart d.mgr d.threads :=
  ⟨h.types, h.single, h.apart⟩

namespace AddsApart

variable {s s' : EventMgr} {ts : List Thread}

/-- Nodes are taken out, if any. -/
theorem shrink (h : AddsApart s ts) (hmem : ∀ x ∈ s'.observers, x ∈ s.observers)
    (hkey : ∀ x ∈ s.observers, s'.key x = s.key x) : AddsApart s' ts := by
  refine ⟨h.types, h.single, fun k hk x hx => ?_⟩
  rw [hkey x (hmem x hx)]
  exact h.apart k hk x (hmem x hx)

/-- A thread that is not about to insert. -/
theorem spawn (h : AddsApart s ts) {t : Thread} (hadds : ∀ k, t.adds k = 0)
    (ht : ∀ fpcEvent o, t ≠ .adding fpcEvent o) : AddsApart s (ts ++ [t]) := by
  have htotal : ∀ k, total (Thread.adds k) (ts ++ [t]) = total (Thread.adds k) ts := by
    intro k
    rw [total_append_singleton, hadds, Nat.add_zero]
  refine ⟨fun fpcEvent o hmem => ?_, fun k => ?_, fun k => ?_⟩
  · rcases List.mem_append.mp hmem with hmem | hmem
    · exact h.types fpcEvent o hmem
    · exact absurd (List.mem_singleton.mp hmem).symm (ht fpcEvent o)
  · rw [htotal]
    exact h.single k
  · rw [htotal]
    exact h.apart k

/-- The only thread that is about to insert an entry of its observer. -/
theorem spawn_adding (h : AddsApart s ts) {fpcEvent : FpcEvent} {o : Observer}
    (htype : fpcEvent.esifEvent = o.eventType) (hnone : ∀ id ∈ s.observers, s.key id ≠ o.norm)
    (honly : total (Thread.adds o.norm) ts = 0) : AddsApart s (ts ++ [.adding fpcEvent o]) := by
  refine ⟨fun fpcEvent' o' hmem => ?_, fun k => ?_, fun k hk => ?_⟩
  · rcases List.mem_append.mp hmem with hmem | hmem
    · exact h.types fpcEvent' o' hmem
    · obtain ⟨rfl, rfl⟩ := Thread.adding.inj (List.mem_singleton.mp hmem)
      exact htype
  · have := h.single k
    rw [total_append_singleton, Thread.adds]
    split
    · rename_i heq
      rw [← heq, honly]
    · omega
  · by_cases heq : o.norm = k
    · rw [← heq]
      exact hnone
    · rw [total_append_singleton, Thread.adds, if_neg heq] at hk
      exact h.apart k hk

/-- A thread goes on, not to insert. -/
theorem set (h : AddsApart s ts) {i : Nat} {t t' : Thread} (hi : ts[i]? = some t)
    (hadds : ∀ k, t'.adds k = 0) (ht' : ∀ fpcEvent o, t' ≠ .adding fpcEvent o) :
    AddsApart s (ts.set i t') := by
  have htotal : ∀ k, total (Thread.adds k) (ts.set i t') ≤ total (Thread.adds k) ts := by
    intro k
    have := total_set (f := Thread.adds k) hi t'
    rw [hadds] at this
    omega
  refine ⟨fun fpcEvent o hmem => ?_, fun k => ?_, fun k hk => ?_⟩
  · rcases List.mem_or_eq_of_mem_set hmem with hmem | hmem
    · exact h.types fpcEvent o hmem
    · exact absurd hmem.symm (ht' fpcEvent o)
  · exact Nat.le_trans (htotal k) (h.single k)
  · exact h.apart k (Nat.lt_of_lt_of_le hk (htotal k))

/-- A thread inserts its entry. -/
theorem insertEntry (h : AddsApart s ts) (hplaced : s.Placed) {i : Nat} {fpcEvent : FpcEvent}
    {o : Observer} (hi : ts[i]? = some (.adding fpcEvent o)) (id : Nat) :
    AddsApart (s.insertEntry fpcEvent o) (ts.set i (.enabling id)) := by
  have hset : AddsApart s (ts.set i (.enabling id)) := h.set hi (fun _ => rfl) (by simp)
  have htype := h.types fpcEvent o (List.mem_of_getElem? hi)
  refine ⟨hset.types, hset.single, fun k hk x hx => ?_⟩
  rcases mem_insertEntry.mp hx with hx | rfl
  · rw [insertEntry_key_of_lt s fpcEvent o (hplaced.lt_of_mem hx)]
    exact hset.apart k hk x hx
  · rw [insertEntry_key_next s htype]
    rintro rfl
    have hle := h.single o.norm
    have htotal := total_set (f := Thread.adds o.norm) hi (.enabling id)
    simp only [Thread.adds, if_true] at htotal
    omega

end AddsApart

theorem exact_start : start.Exact :=
  ⟨inCustody_start, counted_init, by simp [start], by simp [start], by simp [start]⟩

theorem Exact.of_parts (hcustody : d.InCustody) (hcounted : Counted d.mgr d.registered)
    (hapart : AddsApart d.mgr d.threads) : d.Exact :=
  ⟨hcustody, hcounted, hapart.types, hapart.single, hapart.apart⟩

theorem isInUse_of_idle {ts : List Thread} (h : Custody s ts none) (hid : id ∈ s.observers) :
    (s.entries id).isInUse = false := by
  have := h.inUse id (h.placed.lt_of_mem hid)
  simpa using this

theorem exact_walkOn (hcustody : Custody d.mgr d.threads none)
    (hcounted : Counted d.mgr d.registered) (hapart : AddsApart d.mgr d.threads) {ids : List Nat}
    (hids : ∀ id ∈ ids, id ∈ d.mgr.observerLists (bucket event.eventType)) (dump : Bool) :
    (d.walkOn event ids dump).Exact := by
  refine Exact.of_parts (custody_walkOn hcustody hids dump) ?_ ?_
  · unfold walkOn
    split
    · rename_i id hnext
      have hid : id ∈ d.mgr.observers :=
        mem_observers.mpr ⟨_, hids id (List.mem_of_find?_eq_some hnext)⟩
      exact hcounted.startCallback hid (by simpa using List.find?_some hnext)
        (isInUse_of_idle hcustody hid)
    · exact hcounted
  · unfold walkOn
    split
    · refine hapart.shrink (fun _ hx => hx) fun x _ => ?_
      exact key_update d.mgr _ (f := fun e =>
        { e with refCount := e.refCount + 1, isInUse := true }) (fun _ => rfl) x
    · simp only
      split
      · exact hapart.spawn (fun _ => rfl) (by simp)
      · exact hapart

theorem key_endCallback (s : EventMgr) (id x : Nat) : (s.endCallback id).key x = s.key x :=
  key_update s id (f := fun e => { e with isInUse := false, refCount := e.refCount - 1 })
    (fun _ => rfl) x

theorem key_leaveCallback (s : EventMgr) (q : Processing) (x : Nat) :
    (s.leaveCallback q).key x = s.key x := by
  unfold leaveCallback
  simp only
  split <;> exact key_endCallback s q.current x

theorem mem_of_leaveCallback {x : Nat} (hx : x ∈ (s.leaveCallback q).observers) :
    x ∈ s.observers := by
  unfold leaveCallback at hx
  simp only at hx
  split at hx
  · exact mem_of_nodeRemove (s := s) hx
  · exact hx

theorem counted_leaveCallback {ts : List Thread} {r : Registered} (hcustody : Custody s ts (some q))
    (h : Counted s r) : Counted (s.leaveCallback q) r := by
  have hmem := hcustody.current q rfl
  have hid : q.current ∈ s.observers := mem_observers.mpr ⟨_, hmem⟩
  have huse : (s.entries q.current).isInUse = true :=
    (hcustody.inUse _ (hcustody.placed.lt_of_mem hid)).mpr rfl
  unfold leaveCallback
  simp only
  split
  · rename_i hgo
    rw [← hcustody.placed.home _ _ hmem]
    exact h.endCallback_gone hcustody.placed hid huse hgo
  · rename_i hstay
    exact h.endCallback hid huse hstay

theorem exact_callbackReturns (h : d.Exact) (hq : d.processing = some q) :
    (d.callbackReturns q).Exact := by
  have hcustody : Custody d.mgr d.threads (some q) := hq ▸ h.custody
  exact exact_walkOn (d := { d with mgr := d.mgr.leaveCallback q })
    (custody_leaveCallback hcustody) (counted_leaveCallback hcustody h.counted)
    (h.addsApart.shrink (fun _ hx => mem_of_leaveCallback hx) fun x _ => key_leaveCallback _ _ _)
    (fun x hx => mem_leaveCallback (hcustody.placed.nodup _) hx) _

theorem isOk_of_eq_ok {ε α : Type} {e : Except ε α} {x : α} (h : e = .ok x) : e.isOk = true := by
  rw [h]
  rfl

theorem exact_advance {rc : EsifError} {t : Thread} (h : d.Exact) (hi : d.threads[i]? = some t)
    (hsafe : d.FailsSafely rc t) (halone : d.FailsAlone rc t) (hstep : d.advance i rc t = some d') :
    d'.Exact := by
  have hcustody : Custody d.mgr d.threads d.processing := h.custody
  refine Exact.of_parts (custody_advance h.custody hi hsafe hstep) ?_ ?_
  · cases t with
    | done => cases hstep
    | adding fpcEvent o =>
      cases hstep
      have hpos : 0 < total (Thread.adds o.norm) d.threads := by
        have hle := le_total_of_mem (f := Thread.adds o.norm) (List.mem_of_getElem? hi)
        simp only [Thread.adds, if_true] at hle
        exact hle
      exact h.counted.insertEntry hcustody.placed (h.types _ _ (List.mem_of_getElem? hi))
        (h.apart _ hpos)
    | enabling id =>
      simp only [Dispatcher.advance] at hstep
      split at hstep
      · cases hstep
        exact h.counted
      · rename_i hfail
        cases hstep
        obtain ⟨hid, hunused⟩ := hsafe hfail
        have hone := halone hfail
        have hok := h.counted.entry id hid
        have hunmarked : (d.mgr.entries id).markedForDelete = false := by
          by_contra hm
          rw [(hok.marked (by simpa using hm)).1] at hunused
          cases hunused
        have hcount := hok.refCount hunmarked
        refine h.counted.remove hid (fun x => hcustody.placed.mem_nodeRemove) (fun _ _ => rfl)
          (fun k hk => Function.update_of_ne hk _ _) ?_
        simp only [Registered.drop, Function.update_self]
        rw [hone, hunused] at hcount
        simp at hcount
        omega
    | exiting fpcEvent id =>
      exact absurd (List.mem_of_getElem? hi) (hcustody.noExit fpcEvent id)
    | freeing _ | disposing _ =>
      cases hstep
      exact ⟨h.counted.entry, h.counted.present, h.counted.unique⟩
    | dumping =>
      simp only [Dispatcher.advance] at hstep
      split at hstep
      · cases hstep
        exact h.counted
      · rename_i id mgr hpop
        cases hstep
        unfold popGarbage at hpop
        split at hpop
        · cases hpop
        · obtain ⟨-, rfl⟩ := Prod.mk.inj (Option.some.inj hpop)
          exact ⟨h.counted.entry, h.counted.present, h.counted.unique⟩
  · cases t with
    | done => cases hstep
    | adding fpcEvent o =>
      cases hstep
      exact h.addsApart.insertEntry hcustody.placed hi _
    | enabling id =>
      simp only [Dispatcher.advance] at hstep
      split at hstep
      · cases hstep
        exact h.addsApart.set hi (fun _ => rfl) (by simp)
      · cases hstep
        exact (h.addsApart.set hi (fun _ => rfl) (by simp)).shrink
          (fun _ hx => mem_of_nodeRemove hx) fun _ _ => rfl
    | exiting fpcEvent id =>
      exact absurd (List.mem_of_getElem? hi) (hcustody.noExit fpcEvent id)
    | freeing _ | disposing _ =>
      cases hstep
      exact (h.addsApart.set hi (fun _ => rfl) (by simp)).shrink (fun _ hx => hx) fun _ _ => rfl
    | dumping =>
      simp only [Dispatcher.advance] at hstep
      split at hstep
      · cases hstep
        exact h.addsApart.set hi (fun _ => rfl) (by simp)
      · rename_i id mgr hpop
        cases hstep
        have hset : AddsApart d.mgr (d.threads.set i (.disposing id)) :=
          h.addsApart.set hi (fun _ => rfl) (by simp)
        unfold popGarbage at hpop
        split at hpop
        · cases hpop
        · obtain ⟨-, rfl⟩ := Prod.mk.inj (Option.some.inj hpop)
          exact hset.shrink (fun _ hx => hx) fun _ _ => rfl

/-- **A sound step** keeps the entries counting. -/
theorem step_exact (hsound : d.Sound a) (hstep : step d a = some d') (h : d.Exact) : d'.Exact := by
  have hcustody : Custody d.mgr d.threads d.processing := h.custody
  have hcustody' := step_inCustody hsound.1 hstep h.custody
  cases a with
  | register ps o =>
    simp only [step] at hstep
    split at hstep
    · cases hstep
      exact h
    · rename_i fpcEvent hlookup
      cases hstep
      have hok := isOk_of_eq_ok hlookup
      refine Exact.of_parts hcustody' ?_ ?_ <;> unfold Dispatcher.register
      · split
        · rename_i id hfind
          obtain ⟨hid, hkey⟩ := hcustody.placed.findEntry_eq_some hfind
          have hunmarked := hsound.1 hok id hfind
          rw [if_pos hunmarked, ← hkey]
          exact h.counted.addRef hid hunmarked
        · exact h.counted
      · split
        · rename_i id hfind
          rw [if_pos (hsound.1 hok id hfind)]
          exact h.addsApart.shrink (fun _ hx => hx) fun x _ =>
            key_update d.mgr id (f := fun e => { e with refCount := e.refCount + 1 })
              (fun _ => rfl) x
        · rename_i hfind
          exact h.addsApart.spawn_adding (lookupEvent_esifEvent hlookup)
            (fun id hid => hcustody.placed.findEntry_eq_none hfind hid) (hsound.2 hok hfind)
  | unregister ps o =>
    simp only [step] at hstep
    split at hstep
    · cases hstep
      exact h
    · rename_i fpcEvent hlookup
      cases hstep
      have hok := isOk_of_eq_ok hlookup
      have hkept := Kept.releaseEntry hcustody.placed o
      exact Exact.of_parts hcustody'
        (h.counted.releaseEntry hcustody.placed (hsound.2 hok) (hsound.1 hok))
        ((h.addsApart.spawn (fun _ => rfl) (by simp)).shrink
          (fun _ hx => mem_of_releaseEntry hcustody.placed hx) hkept.key)
  | unregisterAll callback context =>
    simp only [step] at hstep
    split at hstep
    · cases hstep
      exact h
    · split at hstep
      · cases hstep
        exact Exact.of_parts hcustody' ⟨h.counted.entry, h.counted.present, h.counted.unique⟩
          (h.addsApart.shrink (fun _ hx => hx) fun _ _ => rfl)
      · cases hstep
        exact Exact.of_parts hcustody' (h.counted.unregisterApp callback context)
          ((h.addsApart.spawn (fun _ => rfl) (by simp)).shrink
            (fun _ hx => (mem_unregisterApp.mp hx).1) fun x _ =>
              key_unregisterApp d.mgr callback context x)
  | delay delayed =>
    cases hstep
    exact Exact.of_parts hcustody' ⟨h.counted.entry, h.counted.present, h.counted.unique⟩
      (h.addsApart.shrink (fun _ hx => hx) fun _ _ => rfl)
  | unregisterRemoved =>
    simp only [step] at hstep
    split at hstep
    · cases hstep
    · rename_i callback context rest _
      cases hstep
      have hcounted : Counted { d.mgr with appUnregisterList := rest } d.registered :=
        ⟨h.counted.entry, h.counted.present, h.counted.unique⟩
      exact Exact.of_parts hcustody' (hcounted.unregisterApp callback context)
        ((h.addsApart.spawn (fun _ => rfl) (by simp)).shrink
          (fun _ hx => (mem_unregisterApp.mp hx).1) fun x _ =>
            key_unregisterApp { d.mgr with appUnregisterList := rest } callback context x)
  | advance i rc =>
    obtain ⟨t, hi, hadvance⟩ := Option.bind_eq_some_iff.mp hstep
    exact exact_advance h hi (hsound.1 t hi) (hsound.2 t hi) hadvance
  | signal item =>
    cases hstep
    exact Exact.of_parts hcustody' h.counted h.addsApart
  | pull mapped cached =>
    simp only [step] at hstep
    split at hstep
    · rename_i item eventQueue hidle hpull
      have hidle' : Custody d.mgr d.threads none := hidle ▸ hcustody
      split at hstep
      · cases hstep
        exact Exact.of_parts hcustody' h.counted h.addsApart
      · rename_i item
        cases hstep
        cases htarget : item.target mapped cached with
        | none =>
          rw [htarget] at hcustody'
          exact Exact.of_parts hcustody' h.counted h.addsApart
        | some event =>
          exact exact_walkOn
            (d := { d with
              eventQueue := eventQueue, delivery := some ⟨item, some event, []⟩,
              delivered := d.delivered ++ d.delivery.toList })
            hidle' h.counted h.addsApart (fun _ hx => hx) false
    · cases hstep
  | callbackReturns =>
    obtain ⟨q, hq, rfl⟩ := Option.map_eq_some_iff.mp hstep
    exact exact_callbackReturns h hq

/-! ## The steps beside the walk -/

/-- An item is taken off the queue, or a callback returns. -/
def Action.Walks : Action → Prop
  | .pull _ _ => True
  | .callbackReturns => True
  | _ => False

theorem kept_advance {rc : EsifError} {t : Thread} (h : d.mgr.Placed)
    (hstep : d.advance i rc t = some d') :
    Kept d.mgr d'.mgr ∧ d'.processing = d.processing ∧ d'.delivery = d.delivery ∧
      d'.delivered = d.delivered ∧ d'.eventQueue = d.eventQueue ∧
      d'.signalled = d.signalled := by
  cases t with
  | done => cases hstep
  | adding fpcEvent o =>
    cases hstep
    exact ⟨Kept.insertEntry h fpcEvent o, rfl, rfl, rfl, rfl, rfl⟩
  | enabling id =>
    simp only [Dispatcher.advance] at hstep
    split at hstep
    · cases hstep
      exact ⟨Kept.refl _, rfl, rfl, rfl, rfl, rfl⟩
    · cases hstep
      refine ⟨Kept.nodeRemove h rfl (fun _ => rfl) ?_, rfl, rfl, rfl, rfl, rfl⟩
      simp [EventMgr.nodeRemove, started]
  | exiting fpcEvent id =>
    cases hstep
    refine ⟨Kept.nodeRemove h rfl (fun _ => rfl) ?_, rfl, rfl, rfl, rfl, rfl⟩
    simp [EventMgr.nodeRemove, started]
  | freeing _ | disposing _ =>
    cases hstep
    exact ⟨Kept.of_eq rfl (fun _ => rfl) (by simp [freeEntry, started]), rfl, rfl, rfl, rfl, rfl⟩
  | dumping =>
    simp only [Dispatcher.advance] at hstep
    split at hstep
    · cases hstep
      exact ⟨Kept.refl _, rfl, rfl, rfl, rfl, rfl⟩
    · rename_i id mgr hpop
      cases hstep
      unfold popGarbage at hpop
      split at hpop
      · cases hpop
      · obtain ⟨-, rfl⟩ := Prod.mk.inj (Option.some.inj hpop)
        exact ⟨Kept.of_eq rfl (fun _ => rfl) rfl, rfl, rfl, rfl, rfl, rfl⟩

/-- What the other steps leave to the event thread. -/
theorem step_kept (h : d.mgr.Placed) (hstep : step d a = some d') (ha : ¬a.Walks) :
    Kept d.mgr d'.mgr ∧ d'.processing = d.processing ∧ d'.delivery = d.delivery ∧
      d'.delivered = d.delivered ∧
      ((d'.eventQueue = d.eventQueue ∧ d'.signalled = d.signalled) ∨ ∃ item, a = .signal item) := by
  cases a with
  | register ps o =>
    simp only [step] at hstep
    split at hstep
    · cases hstep
      exact ⟨Kept.refl _, rfl, rfl, rfl, Or.inl ⟨rfl, rfl⟩⟩
    · cases hstep
      unfold Dispatcher.register
      split
      · rename_i id _
        split
        · exact ⟨Kept.addRef d.mgr id, rfl, rfl, rfl, Or.inl ⟨rfl, rfl⟩⟩
        · exact ⟨Kept.refl _, rfl, rfl, rfl, Or.inl ⟨rfl, rfl⟩⟩
      · exact ⟨Kept.refl _, rfl, rfl, rfl, Or.inl ⟨rfl, rfl⟩⟩
  | unregister ps o =>
    simp only [step] at hstep
    split at hstep
    · cases hstep
      exact ⟨Kept.refl _, rfl, rfl, rfl, Or.inl ⟨rfl, rfl⟩⟩
    · cases hstep
      exact ⟨Kept.releaseEntry h o, rfl, rfl, rfl, Or.inl ⟨rfl, rfl⟩⟩
  | unregisterAll callback context =>
    simp only [step] at hstep
    split at hstep
    · cases hstep
      exact ⟨Kept.refl _, rfl, rfl, rfl, Or.inl ⟨rfl, rfl⟩⟩
    · split at hstep
      · cases hstep
        exact ⟨Kept.of_eq rfl (fun _ => rfl) rfl, rfl, rfl, rfl, Or.inl ⟨rfl, rfl⟩⟩
      · cases hstep
        exact ⟨Kept.unregisterApp d.mgr callback context, rfl, rfl, rfl, Or.inl ⟨rfl, rfl⟩⟩
  | delay delayed =>
    cases hstep
    exact ⟨Kept.of_eq rfl (fun _ => rfl) rfl, rfl, rfl, rfl, Or.inl ⟨rfl, rfl⟩⟩
  | unregisterRemoved =>
    simp only [step] at hstep
    split at hstep
    · cases hstep
    · rename_i callback context rest _
      cases hstep
      have hkept := Kept.unregisterApp { d.mgr with appUnregisterList := rest } callback context
      exact ⟨⟨hkept.order, hkept.key, hkept.mem, hkept.calls⟩, rfl, rfl, rfl, Or.inl ⟨rfl, rfl⟩⟩
  | advance i rc =>
    obtain ⟨t, -, hadvance⟩ := Option.bind_eq_some_iff.mp hstep
    obtain ⟨hkept, hp, hx, hxs, hq, hs⟩ := kept_advance h hadvance
    exact ⟨hkept, hp, hx, hxs, Or.inl ⟨hq, hs⟩⟩
  | signal item =>
    cases hstep
    exact ⟨Kept.refl _, rfl, rfl, rfl, Or.inr ⟨item, rfl⟩⟩
  | pull mapped cached => exact absurd trivial ha
  | callbackReturns => exact absurd trivial ha

/-! ## How far an event has come with an observer -/

/-- The observer is concerned by the event. -/
def Concerns (event : Event) (o : Observer) : Prop :=
  event.eventType = o.eventType ∧
    (o.participantId = event.participantId ∨ o.participantId = eventMgrMatchAny ∨
      isPrimaryParticipantId o.participantId = true ∧
        isPrimaryParticipantId event.participantId = true) ∧
    (o.domainId = event.domainId ∨ o.domainId = eventMgrMatchAnyDomain ∨
      event.domainId = eventMgrDomainNa)

instance (event : Event) (o : Observer) : Decidable (Concerns event o) := by
  unfold Concerns
  infer_instance

/-- The entry of an observer that is registered gets the events that concern the observer. -/
theorem gets_of_concerns {r : Registered} (hplaced : s.Placed) (hcounted : Counted s r)
    (hid : id ∈ s.observers) (hkey : s.key id = o.norm) (hr : 0 < r o.norm) (h : Concerns event o) :
    (s.entries id).Gets event := by
  have hprimary := hplaced.primary id (hplaced.lt_of_mem hid)
  obtain ⟨htype, hpid, hdomain, -, -⟩ := (matchesAdd_iff hprimary o).mpr hkey
  obtain ⟨hevent, hparticipant, hdom⟩ := h
  have hok := hcounted.entry id hid
  rw [hkey] at hok
  have hunmarked : (s.entries id).markedForDelete = false := by
    by_contra hm
    have := (hok.marked (by simpa using hm)).2
    omega
  refine ⟨⟨hevent.trans htype.symm, ?_, hdomain ▸ hdom⟩, hok.pos hunmarked, hunmarked⟩
  rcases hpid with hpid | ⟨hzero, hprim⟩
  · rw [hprimary, hpid]
    exact hparticipant
  · rcases hparticipant with heq | hany | ⟨-, hboth⟩
    · exact Or.inr (Or.inr ⟨hzero, heq ▸ hprim⟩)
    · rw [hany] at hprim
      exact absurd hprim (by decide)
    · exact Or.inr (Or.inr ⟨hzero, hboth⟩)

/-- The entry is behind the one whose callback runs. -/
def Awaits (d : Dispatcher) (event : Event) (id : Nat) : Prop :=
  ∃ q, d.processing = some q ∧
    Pair (d.mgr.observerLists (bucket event.eventType)) q.current id

/-- **The event and an observer that stays registered**: either its entry is still to come, or
its callback was called once. -/
structure Halfway (d : Dispatcher) (o : Observer) (event : Event) (id : Nat) (x : Delivery) :
    Prop where
  listed : id ∈ d.mgr.observers
  key : d.mgr.key id = o.norm
  delivery : d.delivery = some x
  event_eq : x.event = some event
  current : ∀ q, d.processing = some q → q.event = event
  before : d.Awaits event id → x.got.count o.norm = 0
  after : ¬d.Awaits event id → x.got.count o.norm = 1

theorem mem_list_of_key (h : s.Placed) (hid : id ∈ s.observers) (hkey : s.key id = o.norm)
    (htype : event.eventType = o.eventType) : id ∈ s.observerLists (bucket event.eventType) := by
  rw [htype, ← home_of_key hkey]
  exact h.mem_home.mp hid

/-- **The walk goes on**, and the next callback is the observer's or one in front of it. -/
theorem halfway_walkOn {pre ids : List Nat} (hplaced : d.mgr.Placed)
    (hcounted : Counted d.mgr d.registered) (hid : id ∈ d.mgr.observers)
    (hkey : d.mgr.key id = o.norm) (hr : 0 < d.registered o.norm) (hconcerns : Concerns event o)
    (hdelivery : d.delivery = some x) (hevent : x.event = some event)
    (hids : d.mgr.observerLists (bucket event.eventType) = pre ++ ids)
    (hbefore : id ∈ ids → x.got.count o.norm = 0) (hafter : id ∉ ids → x.got.count o.norm = 1)
    (dump : Bool) : ∃ x', (d.walkOn event ids dump).Halfway o event id x' := by
  have hgets := gets_of_concerns hplaced hcounted hid hkey hr hconcerns
  have hmem := mem_list_of_key hplaced hid hkey hconcerns.1
  have hnodup : (pre ++ ids).Nodup := hids ▸ hplaced.nodup _
  unfold walkOn
  split
  · rename_i y hnext
    have hyids : y ∈ ids := List.mem_of_find?_eq_some hnext
    have hyobs : y ∈ d.mgr.observers := mem_observers.mpr ⟨bucket event.eventType, by simp [hids, hyids]⟩
    have hcount : (x.got ++ [d.mgr.key y]).count o.norm =
        x.got.count o.norm + if y = id then 1 else 0 := by
      rw [List.count_append, List.count_singleton, ← hkey]
      congr 1
      by_cases hy : y = id
      · simp [hy]
      · have : d.mgr.key y ≠ d.mgr.key id := fun heq => hy (hcounted.unique y hyobs id hid heq)
        simp [hy, this]
    refine ⟨{ x with got := x.got ++ [d.mgr.key y] }, hid, ?_, by rw [hdelivery]; rfl, hevent, ?_,
      ?_, ?_⟩
    · exact (key_update d.mgr y (f := fun e =>
        { e with refCount := e.refCount + 1, isInUse := true }) (fun _ => rfl) id).trans hkey
    · intro q hq
      cases hq
      rfl
    · -- the entry is behind: it is not the one that is called
      rintro ⟨q, hq, hpair⟩
      cases hq
      have hpair : Pair (d.mgr.observerLists (bucket event.eventType)) y id := hpair
      rw [hids] at hpair
      have hne : y ≠ id := by
        rintro rfl
        exact pair_irrefl hnodup y hpair
      rw [hcount, if_neg hne, hbefore (mem_of_pair_append hnodup hyids hpair)]
    · intro hno
      have hno : ¬Pair (d.mgr.observerLists (bucket event.eventType)) y id :=
        fun hpair => hno ⟨_, rfl, hpair⟩
      rw [hcount]
      by_cases hin : id ∈ ids
      · have hyid : y = id := by
          by_contra hne
          refine hno ?_
          rw [hids]
          exact (pair_of_find hnext hin (by simpa using hgets) (Ne.symm hne)).trans
            (List.sublist_append_right pre ids)
        rw [if_pos hyid, hbefore hin]
      · have hne : y ≠ id := by
          rintro rfl
          exact hin hyids
        rw [if_neg hne, hafter hin]
  · rename_i hnext
    have hout : id ∉ ids := by
      intro hin
      have := List.find?_eq_none.mp hnext id hin
      exact this (by simpa using hgets)
    refine ⟨x, hid, hkey, hdelivery, hevent, by simp, ?_, fun _ => hafter hout⟩
    rintro ⟨q, hq, -⟩
    cases hq

/-- **The others' steps** leave the event as far as it is. -/
theorem Halfway.of_kept (h : d.Halfway o event id x) (htype : event.eventType = o.eventType)
    (hexact : d.Exact) (hexact' : d'.Exact) (hkept : Kept d.mgr d'.mgr)
    (hprocessing : d'.processing = d.processing) (hdelivery : d'.delivery = d.delivery)
    (hr : 0 < d'.registered o.norm) : d'.Halfway o event id x := by
  have hplaced : d.mgr.Placed := hexact.custody.placed
  have hplaced' : d'.mgr.Placed := hexact'.custody.placed
  have hkey : d'.mgr.key id = o.norm := (hkept.key id h.listed).trans h.key
  have hlisted : id ∈ d'.mgr.observers := by
    rcases hkept.mem with hshrunk | hgrown
    · obtain ⟨y, hy, hykey⟩ := hexact'.counted.present o.norm hr
      have hyold := hshrunk y hy
      rw [hkept.key y hyold, ← h.key] at hykey
      rwa [← hexact.counted.unique y hyold id h.listed hykey]
    · exact hgrown id h.listed
  have hawaits : d'.Awaits event id ↔ d.Awaits event id := by
    unfold Awaits
    rw [hprocessing]
    refine exists_congr fun q => and_congr_right fun hq => ?_
    have hevent := h.current q hq
    have hcur := hexact.custody.current q hq
    have hcur' := hexact'.custody.current q (hprocessing.trans hq)
    rw [hevent] at hcur hcur'
    exact hkept.order _ _ _ hcur (mem_list_of_key hplaced h.listed h.key htype) hcur'
      (mem_list_of_key hplaced' hlisted hkey htype)
  refine ⟨hlisted, hkey, hdelivery.trans h.delivery, h.event_eq, ?_, ?_, ?_⟩
  · rw [hprocessing]
    exact h.current
  · rw [hawaits]
    exact h.before
  · rw [hawaits]
    exact h.after

/-- **A callback returns**, and the walk goes on behind it. -/
theorem halfway_callbackReturns (h : d.Halfway o event id x) (hexact : d.Exact)
    (hq : d.processing = some q) (hr : 0 < d.registered o.norm) (hconcerns : Concerns event o) :
    ∃ x', (d.callbackReturns q).Halfway o event id x' := by
  have hcustody : Custody d.mgr d.threads (some q) := hq ▸ hexact.custody
  obtain rfl := h.current q hq
  have hnodup := hcustody.placed.nodup (bucket q.event.eventType)
  have hcur := hcustody.current q rfl
  obtain ⟨as, has, hlist⟩ := exists_eq_append_behind hcur
  have hawaits : id ∈ d.mgr.nodesBehind q.event q.current ↔ d.Awaits q.event id := by
    rw [nodesBehind, mem_behind hnodup hcur]
    exact ⟨fun hpair => ⟨q, hq, hpair⟩, fun ⟨q', hq', hpair⟩ => by
      obtain rfl := Option.some.inj (hq.symm.trans hq')
      exact hpair⟩
  have hcustody' := custody_leaveCallback hcustody
  have hcounted' := counted_leaveCallback hcustody hexact.counted
  have hkey : (d.mgr.leaveCallback q).key id = o.norm := (key_leaveCallback d.mgr q id).trans h.key
  have hid : id ∈ (d.mgr.leaveCallback q).observers := by
    obtain ⟨y, hy, hykey⟩ := hcounted'.present o.norm hr
    have hyold := mem_of_leaveCallback hy
    rw [key_leaveCallback, ← h.key] at hykey
    rwa [← hexact.counted.unique y hyold id h.listed hykey]
  have hpre : ∃ pre, (d.mgr.leaveCallback q).observerLists (bucket q.event.eventType) =
      pre ++ d.mgr.nodesBehind q.event q.current := by
    rw [leaveCallback_list]
    split
    · refine ⟨as, ?_⟩
      rw [hlist, List.erase_append_right _ has, List.erase_cons_head]
      rfl
    · refine ⟨as ++ [q.current], ?_⟩
      rw [List.append_assoc]
      exact hlist
  obtain ⟨pre, hpre⟩ := hpre
  exact halfway_walkOn (d := { d with mgr := d.mgr.leaveCallback q }) hcustody'.placed hcounted'
    hid hkey hr hconcerns h.delivery h.event_eq hpre
    (fun hin => h.before (hawaits.mp hin)) (fun hout => h.after fun haw => hout (hawaits.mpr haw)) _

/-- **An event comes** to an observer that is registered. -/
theorem halfway_process (hexact : d.Exact) (hr : 0 < d.registered o.norm)
    (hconcerns : Concerns event o) (item : EventQueueItem) :
    ∃ id x, (d.process item (some event)).Halfway o event id x := by
  obtain ⟨id, hid, hkey⟩ := hexact.counted.present o.norm hr
  have hplaced : d.mgr.Placed := hexact.custody.placed
  have hmem := mem_list_of_key hplaced hid hkey hconcerns.1
  have hlist : d.mgr.observerLists (bucket event.eventType) =
      [] ++ d.mgr.observerLists (bucket event.eventType) := rfl
  obtain ⟨x, hx⟩ := halfway_walkOn (d := { d with
      delivery := some ⟨item, some event, []⟩, delivered := d.delivered ++ d.delivery.toList })
    hplaced hexact.counted hid hkey hr hconcerns rfl rfl hlist (fun _ => rfl)
    (fun hout => absurd hmem hout) false
  exact ⟨id, x, hx⟩

/-- A step that takes nothing off the queue. -/
theorem step_halfway (hsound : d.Sound a) (hstep : step d a = some d') (hexact : d.Exact)
    (hconcerns : Concerns event o) (hpull : ∀ mapped cached, a ≠ .pull mapped cached)
    (hr : 0 < d.registered o.norm) (hr' : 0 < d'.registered o.norm) (h : d.Halfway o event id x) :
    ∃ x', d'.Halfway o event id x' := by
  by_cases hwalks : a.Walks
  · cases a with
    | pull mapped cached => exact absurd rfl (hpull mapped cached)
    | callbackReturns =>
      obtain ⟨q, hq, rfl⟩ := Option.map_eq_some_iff.mp hstep
      exact halfway_callbackReturns h hexact hq hr hconcerns
    | _ => cases hwalks
  · obtain ⟨hkept, hprocessing, hdelivery, -⟩ := step_kept hexact.custody.placed hstep hwalks
    exact ⟨x, h.of_kept hconcerns.1 hexact (step_exact hsound hstep hexact) hkept hprocessing
      hdelivery hr'⟩

/-- The observer is registered in every state of the run. -/
def Stays (o : Observer) (d : Dispatcher) (as : List Action) : Prop :=
  EveryStep step (fun d a =>
    0 < d.registered o.norm ∧ ∀ d' ∈ step d a, 0 < d'.registered o.norm) d as

instance (o : Observer) (d : Dispatcher) (as : List Action) : Decidable (Stays o d as) :=
  inferInstanceAs (Decidable (EveryStep step (fun d a =>
    0 < d.registered o.norm ∧ ∀ d' ∈ step d a, 0 < d'.registered o.norm) d as))

theorem run_halfway {as : List Action} (hconcerns : Concerns event o)
    (hpull : ∀ a ∈ as, ∀ mapped cached, a ≠ .pull mapped cached) :
    ∀ {d d' : Dispatcher} {x : Delivery}, EveryStep step Sound d as → Stays o d as →
      run step d as = some d' → d.Exact → d.Halfway o event id x →
      d'.Exact ∧ ∃ x', d'.Halfway o event id x' := by
  induction as with
  | nil =>
    intro d d' x _ _ hrun hexact h
    obtain rfl : d = d' := by simpa using hrun
    exact ⟨hexact, x, h⟩
  | cons a as ih =>
    intro d d' x hsound hstays hrun hexact h
    obtain ⟨t, hst, hrt⟩ := run_cons_eq_some hrun
    obtain ⟨x', h'⟩ := step_halfway hsound.1 hst hexact hconcerns (hpull a (by simp))
      hstays.1.1 (hstays.1.2 t hst) h
    exact ih (fun b hb => hpull b (by simp [hb])) (hsound.2 t hst) (hstays.2 t hst) hrt
      (step_exact hsound.1 hst hexact) h'

/-! ## The order of the events -/

/-- The items that were taken off the queue, with what became of them. -/
def deliveries (d : Dispatcher) : List Delivery := d.delivered ++ d.delivery.toList

/-- The events of the callbacks that were called for an item. -/
def Delivery.calls (x : Delivery) : List Event :=
  match x.event with
  | some event => x.got.map fun _ => event
  | none => []

/-- The items are taken off in the order they were queued in, and the callbacks are called in
this order too. -/
structure InOrder (d : Dispatcher) : Prop where
  queue : (d.deliveries.map fun x => some x.item) ++ d.eventQueue.items = d.signalled.map some
  eventMatches : d.eventQueue.EventMatches
  calls : (started d.mgr.log).map Prod.snd = d.deliveries.flatMap Delivery.calls
  current : ∀ q, d.processing = some q → ∃ x, d.delivery = some x ∧ x.event = some q.event

theorem inOrder_start : start.InOrder :=
  ⟨rfl, EsifQueue.eventMatches_create _, rfl, by simp [start]⟩

theorem inOrder_walkOn (hdelivery : d.delivery = some x) (hevent : x.event = some event)
    (hqueue : (d.deliveries.map fun x => some x.item) ++ d.eventQueue.items = d.signalled.map some)
    (hmatches : d.eventQueue.EventMatches)
    (hcalls : (started d.mgr.log).map Prod.snd = d.deliveries.flatMap Delivery.calls)
    (ids : List Nat) (dump : Bool) : (d.walkOn event ids dump).InOrder := by
  unfold walkOn
  split
  · rename_i id _
    refine ⟨?_, hmatches, ?_, fun q hq => ?_⟩
    · rw [← hqueue]
      simp [deliveries, hdelivery]
    · have hlog : started (d.mgr.startCallback event id).log =
          started d.mgr.log ++ [(id, event)] := by
        simp [EventMgr.startCallback, EventMgr.update, started]
      simp only [hlog, List.map_append, hcalls]
      simp [deliveries, hdelivery, Delivery.calls, hevent]
    · cases hq
      exact ⟨{ x with got := x.got ++ [d.mgr.key id] }, by rw [hdelivery]; rfl, hevent⟩
  · exact ⟨hqueue, hmatches, hcalls, by simp⟩

theorem started_leaveCallback (s : EventMgr) (q : Processing) :
    started (s.leaveCallback q).log = started s.log := by
  unfold leaveCallback
  simp only
  split <;>
    simp [EventMgr.endCallback, EventMgr.update, EventMgr.moveEntryToGarbage,
      EventMgr.nodeRemove, started]

theorem step_inOrder (hplaced : d.mgr.Placed) (hstep : step d a = some d') (h : d.InOrder) :
    d'.InOrder := by
  by_cases hwalks : a.Walks
  · cases a with
    | pull mapped cached =>
      simp only [step] at hstep
      split at hstep
      · rename_i item eventQueue hidle hpull
        obtain ⟨rest, hitems, rfl⟩ := EsifQueue.pull_eq_some h.eventMatches hpull
        have hmatches : EsifQueue.EventMatches
            { d.eventQueue with items := rest, event := !rest.isEmpty } := rfl
        have hqueue := h.queue
        rw [hitems] at hqueue
        cases item with
        | none =>
          -- only items are queued
          have hmem : none ∈ d.signalled.map some := by
            rw [← hqueue]
            simp
          simp at hmem
        | some item =>
          cases hstep
          have hqueue' : ((d.deliveries ++ [Delivery.mk item (item.target mapped cached) []]).map
              fun x => some x.item) ++ rest = d.signalled.map some := by
            rw [← hqueue]
            simp
          have hcalls' : (started d.mgr.log).map Prod.snd =
              (d.deliveries ++ [Delivery.mk item (item.target mapped cached) []]).flatMap
                Delivery.calls := by
            rw [h.calls, List.flatMap_append]
            cases item.target mapped cached <;> simp [Delivery.calls]
          cases htarget : item.target mapped cached with
          | none =>
            rw [htarget] at hqueue' hcalls'
            refine ⟨hqueue', hmatches, hcalls', fun q hq => ?_⟩
            rw [show d.processing = none from hidle] at hq
            cases hq
          | some event =>
            rw [htarget] at hqueue' hcalls'
            exact inOrder_walkOn
              (d := { d with
                eventQueue := { d.eventQueue with items := rest, event := !rest.isEmpty },
                delivery := some ⟨item, some event, []⟩,
                delivered := d.delivered ++ d.delivery.toList })
              rfl rfl hqueue' hmatches hcalls' _ false
      · cases hstep
    | callbackReturns =>
      obtain ⟨q, hq, rfl⟩ := Option.map_eq_some_iff.mp hstep
      obtain ⟨x, hx, hevent⟩ := h.current q hq
      refine inOrder_walkOn (d := { d with mgr := d.mgr.leaveCallback q }) hx hevent h.queue
        h.eventMatches ?_ _ _
      rw [started_leaveCallback]
      exact h.calls
    | _ => cases hwalks
  · obtain ⟨hkept, hprocessing, hdelivery, hdelivered, hsame⟩ := step_kept hplaced hstep hwalks
    have hdeliveries : d'.deliveries = d.deliveries := by
      rw [deliveries, deliveries, hdelivery, hdelivered]
    have hcalls : (started d'.mgr.log).map Prod.snd = d'.deliveries.flatMap Delivery.calls := by
      rw [hkept.calls, hdeliveries]
      exact h.calls
    have hcurrent : ∀ q, d'.processing = some q →
        ∃ x, d'.delivery = some x ∧ x.event = some q.event := by
      rw [hprocessing, hdelivery]
      exact h.current
    obtain ⟨hqueue, hsignalled⟩ | ⟨item, rfl⟩ := hsame
    · refine ⟨?_, ?_, hcalls, hcurrent⟩
      · rw [hdeliveries, hqueue, hsignalled]
        exact h.queue
      · rw [hqueue]
        exact h.eventMatches
    · cases hstep
      by_cases hfull : d.eventQueue.maxSize ≤ d.eventQueue.items.length
      · have hresult : d.eventQueue.enqueue (some item) = (esifENoMemory, d.eventQueue) :=
          if_pos hfull
        refine ⟨?_, ?_, hcalls, hcurrent⟩
        · simp only [hresult, if_neg (by decide : esifENoMemory ≠ esifOk)]
          exact h.queue
        · simp only [hresult]
          exact h.eventMatches
      · have hresult : d.eventQueue.enqueue (some item) = (esifOk, { d.eventQueue with
            items := d.eventQueue.items ++ [some item], event := true }) :=
          EsifQueue.enqueue_of_lt (Nat.not_le.mp hfull)
        refine ⟨?_, ?_, hcalls, hcurrent⟩
        · simp only [hresult, if_true, List.map_append, ← h.queue, List.append_assoc]
          rfl
        · simp only [hresult]
          simp [EsifQueue.EventMatches]

/-! ## Who is called, and how often -/

/-- A callback that is called by the step is the callback of an observer that is registered. -/
def CallsRegistered (d : Dispatcher) (a : Action) : Prop :=
  ∀ d', step d a = some d' →
    ∀ call ∈ (started d'.mgr.log).drop (started d.mgr.log).length,
      0 < d'.registered (d'.mgr.key call.1)

theorem callsRegistered_walkOn (hcustody : Custody d.mgr d.threads none)
    (hcounted : Counted d.mgr d.registered) {ids : List Nat}
    (hids : ∀ id ∈ ids, id ∈ d.mgr.observerLists (bucket event.eventType)) (dump : Bool) :
    ∀ call ∈ (started (d.walkOn event ids dump).mgr.log).drop (started d.mgr.log).length,
      0 < (d.walkOn event ids dump).registered ((d.walkOn event ids dump).mgr.key call.1) := by
  unfold walkOn
  split
  · rename_i id hnext
    have hid : id ∈ d.mgr.observers :=
      mem_observers.mpr ⟨_, hids id (List.mem_of_find?_eq_some hnext)⟩
    have hlog : started (d.mgr.startCallback event id).log = started d.mgr.log ++ [(id, event)] := by
      simp [EventMgr.startCallback, EventMgr.update, started]
    have hkey : (d.mgr.startCallback event id).key id = d.mgr.key id :=
      key_update d.mgr id (f := fun e =>
        { e with refCount := e.refCount + 1, isInUse := true }) (fun _ => rfl) id
    intro call hcall
    simp only [hlog, List.drop_left, List.mem_singleton] at hcall
    simp only [hcall, hkey]
    exact hcounted.registered_of_gets hid (by simpa using List.find?_some hnext)
      (isInUse_of_idle hcustody hid)
  · intro call hcall
    simp at hcall

/-- **Nobody is called in vain.** -/
theorem callsRegistered_of_exact (h : d.Exact) (a : Action) : d.CallsRegistered a := by
  intro d' hstep
  by_cases hwalks : a.Walks
  · cases a with
    | pull mapped cached =>
      simp only [step] at hstep
      split at hstep
      · rename_i item eventQueue hidle hpull
        have hidle' : Custody d.mgr d.threads none := hidle ▸ h.custody
        split at hstep
        · cases hstep
          simp
        · rename_i item
          cases hstep
          cases item.target mapped cached with
          | none => simp [process]
          | some event =>
            exact callsRegistered_walkOn
              (d := { d with
                eventQueue := eventQueue, delivery := some ⟨item, some event, []⟩,
                delivered := d.delivered ++ d.delivery.toList })
              hidle' h.counted (fun _ hx => hx) false
      · cases hstep
    | callbackReturns =>
      obtain ⟨q, hq, rfl⟩ := Option.map_eq_some_iff.mp hstep
      have hcustody : Custody d.mgr d.threads (some q) := hq ▸ h.custody
      rw [← started_leaveCallback d.mgr q]
      exact callsRegistered_walkOn (d := { d with mgr := d.mgr.leaveCallback q })
        (custody_leaveCallback hcustody) (counted_leaveCallback hcustody h.counted)
        (fun x hx => mem_leaveCallback (hcustody.placed.nodup _) hx) _
    | _ => cases hwalks
  · rw [(step_kept h.custody.placed hstep hwalks).1.calls]
    simp

/-- The steps until the next item keep the event that is processed. -/
theorem step_deliveryEvent (hplaced : d.mgr.Placed)
    (hpull : ∀ mapped cached, a ≠ .pull mapped cached) (hstep : step d a = some d') :
    d'.delivery.bind Delivery.event = d.delivery.bind Delivery.event := by
  by_cases hwalks : a.Walks
  · cases a with
    | pull mapped cached => exact absurd rfl (hpull mapped cached)
    | callbackReturns =>
      obtain ⟨q, -, rfl⟩ := Option.map_eq_some_iff.mp hstep
      unfold callbackReturns walkOn
      split
      · cases d.delivery <;> rfl
      · rfl
    | _ => cases hwalks
  · obtain ⟨-, -, hdelivery, -⟩ := step_kept hplaced hstep hwalks
    rw [hdelivery]

theorem run_deliveryEvent {bs : List Action}
    (hpull : ∀ b ∈ bs, ∀ mapped cached, b ≠ .pull mapped cached) :
    ∀ {d d' : Dispatcher}, EveryStep step Sound d bs → d.Exact → run step d bs = some d' →
      d'.delivery.bind Delivery.event = d.delivery.bind Delivery.event := by
  induction bs with
  | nil =>
    intro d d' _ _ hrun
    obtain rfl : d = d' := by simpa using hrun
    rfl
  | cons b bs ih =>
    intro d d' hsound hexact hrun
    obtain ⟨t, hst, hrt⟩ := run_cons_eq_some hrun
    rw [ih (fun b hb => hpull b (by simp [hb])) (hsound.2 t hst) (step_exact hsound.1 hst hexact)
      hrt]
    exact step_deliveryEvent hexact.custody.placed (hpull b (by simp)) hst

/-- What the event thread has of an item once it has taken it off the queue. -/
theorem deliveryEvent_process (d : Dispatcher) (item : EventQueueItem) (event : Option Event) :
    (d.process item event).delivery.bind Delivery.event = event := by
  unfold process
  cases event with
  | none => rfl
  | some event =>
    simp only
    unfold walkOn
    split <;> rfl

/-- An event that concerns an observer gets to it once, if the observer stays. -/
theorem count_eq_one {d₀ d : Dispatcher} {mapped : Option EsifHandle} {cached : Option (List UInt8)}
    {bs : List Action} (hexact : d₀.Exact) (horder : d₀.InOrder)
    (hsound : EveryStep step Sound d₀ (.pull mapped cached :: bs))
    (hrun : run step d₀ (.pull mapped cached :: bs) = some d)
    (hpull : ∀ b ∈ bs, ∀ mapped cached, b ≠ .pull mapped cached) (hidle : d.processing = none)
    (hx : d.delivery = some x) (hevent : x.event = some event) (hconcerns : Concerns event o)
    (hstays : Stays o d₀ (.pull mapped cached :: bs)) : x.got.count o.norm = 1 := by
  obtain ⟨d₁, hst, hrest⟩ := run_cons_eq_some hrun
  have hexact₁ := step_exact hsound.1 hst hexact
  have hkept := run_deliveryEvent hpull (hsound.2 d₁ hst) hexact₁ hrest
  rw [hx, Option.bind_some, hevent] at hkept
  have hpulls := hst
  simp only [step] at hst
  split at hst
  · rename_i item eventQueue _ hpulled
    obtain ⟨rest, hitems, rfl⟩ := EsifQueue.pull_eq_some horder.eventMatches hpulled
    cases item with
    | none =>
      -- only items are queued
      have hmem : none ∈ d₀.signalled.map some := by
        rw [← horder.queue, hitems]
        simp
      simp at hmem
    | some item =>
      cases hst
      rw [deliveryEvent_process] at hkept
      rw [← hkept] at hexact₁ hrest hpulls
      obtain ⟨id, x₁, hhalf⟩ := halfway_process
        (d := { d₀ with
          eventQueue := { d₀.eventQueue with items := rest, event := !rest.isEmpty } })
        (Exact.of_parts hexact.custody hexact.counted hexact.addsApart) hstays.1.1 hconcerns item
      obtain ⟨-, x', hend⟩ := run_halfway hconcerns hpull (hsound.2 _ hpulls) (hstays.2 _ hpulls)
        hrest hexact₁ hhalf
      obtain rfl : x = x' := Option.some.inj (hx.symm.trans hend.delivery)
      refine hend.after ?_
      rintro ⟨q, hq, -⟩
      rw [hidle] at hq
      cases hq
  · cases hst

/-- **Each event reaches each observer once**, in every run whose steps are sound.  The items are
taken off the queue and the callbacks called in the order of the queue; who is called is
registered; and once an item is done with, an observer that its event concerns and that was
registered all the time has got it exactly once. -/
theorem delivered_once {as : List Action} {d : Dispatcher}
    (hsound : EveryStep step Sound start as) (hrun : run step start as = some d) :
    d.InOrder ∧ EveryStep step CallsRegistered start as ∧
      ∀ pre mapped cached bs d₀, as = pre ++ .pull mapped cached :: bs →
        (∀ b ∈ bs, ∀ mapped cached, b ≠ .pull mapped cached) →
        run step start pre = some d₀ → d.processing = none →
        ∀ x event, d.delivery = some x → x.event = some event →
        ∀ o, Concerns event o → Stays o d₀ (.pull mapped cached :: bs) →
          x.got.count o.norm = 1 := by
  have hboth : ∀ s a s', Sound s a → step s a = some s' → s.Exact ∧ s.InOrder →
      s'.Exact ∧ s'.InOrder := fun s a s' hs hst h =>
    ⟨step_exact hs hst h.1, step_inOrder h.1.custody.placed hst h.2⟩
  have hstart : start.Exact ∧ start.InOrder := ⟨exact_start, inOrder_start⟩
  refine ⟨(run_invariant_of_everyStep hboth hsound hrun hstart).2, ?_, ?_⟩
  · exact everyStep_of_invariant hboth (fun s a h => callsRegistered_of_exact h.1 a) hsound hstart
  · rintro pre mapped cached bs d₀ rfl hpull hpre hidle x event hx hevent o hconcerns hstays
    obtain ⟨t, hrunPre, hrunRest⟩ := run_append_eq_some hrun
    obtain rfl : t = d₀ := Option.some.inj (hrunPre.symm.trans hpre)
    have h := run_invariant_of_everyStep hboth hsound.left hpre hstart
    exact count_eq_one h.1 h.2 (hsound.right hpre) hrunRest hpull hidle hx hevent hconcerns hstays

/-- The display goes off. -/
def goesOff : Event := ⟨esifHandlePrimaryParticipant, eventMgrDomainNa, 161, []⟩

theorem delivered_once_called :
    ∃ d x, run step start (called ++ [.callbackReturns]) = some d ∧ d.delivery = some x ∧
      x.got.count displayOff.norm = 1 := by
  have hsound : EveryStep step Sound start (called ++ [.callbackReturns]) := by decide +kernel
  refine ⟨_, _, rfl, rfl, (delivered_once hsound rfl).2.2 (called.take 4) none none
    [.callbackReturns] _ rfl ?_ rfl rfl _ goesOff rfl rfl displayOff (by decide)
    (by decide +kernel)⟩
  intro b hb mapped cached
  rw [List.mem_singleton.mp hb]
  nofun

/-- Two registrations of the observer have found no entry, and each has put one in. -/
def bothInserted : List Action :=
  [.register displayOffOnly displayOff, .register displayOffOnly displayOff,
    .advance 0 esifOk, .advance 1 esifOk, .advance 0 esifOk, .advance 1 esifOk,
    .signal ⟨goesOff, false, false⟩]

/-- The observer gets the event twice. -/
theorem bothInserted_twice :
    ∃ d₀ d x, run step start bothInserted = some d₀ ∧
      run step d₀ [.pull none none, .callbackReturns, .callbackReturns] = some d ∧
      d.processing = none ∧ d.delivery = some x ∧ x.event = some goesOff ∧
      Concerns goesOff displayOff ∧
      Stays displayOff d₀ [.pull none none, .callbackReturns, .callbackReturns] ∧
      x.got.count displayOff.norm = 2 := by
  exact ⟨_, _, _, rfl, rfl, rfl, rfl, rfl, by decide, by decide +kernel, by decide⟩

end Dispatcher

end Uf

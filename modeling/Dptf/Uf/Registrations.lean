import Dptf.Lib.Machine
import Dptf.Uf.EventMgr

/-!
# Registrations of events

Each observer has a number of registrations.  What the lists hold of it is one
entry that counts them, and one more while its callback runs.

* `EntryOk`, `Counted` — **the bookkeeping**: the entries against the numbers, with
  one lemma for each section that runs under the lock.
* `everyCall_balanced_iff` — the bookkeeping balances in every run whose
  unregistrations name the participant as the entry does.
-/

open Lib

namespace Uf

/-! ## The numbers -/

/-- How often an observer is registered. -/
abbrev Registered := Observer → Nat

namespace Registered

/-- One registration more. -/
def add (r : Registered) (k : Observer) : Registered := Function.update r k (r k + 1)

/-- One less, if there is one. -/
def drop (r : Registered) (k : Observer) : Registered := Function.update r k (r k - 1)

/-- None for the application. -/
def dropApp (r : Registered) (callback context : UInt64) : Registered :=
  fun k => if k.callback = callback ∧ k.context = context then 0 else r k

end Registered

/-! ## The bookkeeping -/

/-- An entry of an observer with `n` registrations.  A marked one is there only for the sake of
the callback. -/
structure EntryOk (e : EventMgrEntry) (n : Nat) : Prop where
  refCount : e.markedForDelete = false → e.refCount = n + (if e.isInUse then 1 else 0)
  pos : e.markedForDelete = false → 0 < e.refCount
  marked : e.markedForDelete = true → e.isInUse = true ∧ n = 0

namespace EventMgr

variable {s : EventMgr} {id x : Nat} {o : Observer} {r r' : Registered} {fpcEvent : FpcEvent}

/-- The lists hold one entry for each observer that is registered. -/
structure Counted (s : EventMgr) (r : Registered) : Prop where
  entry : ∀ id ∈ s.observers, EntryOk (s.entries id) (r (s.key id))
  present : ∀ k, 0 < r k → ∃ id ∈ s.observers, s.key id = k
  unique : ∀ id ∈ s.observers, ∀ id' ∈ s.observers, s.key id = s.key id' → id = id'

theorem counted_init : Counted init fun _ => 0 := by
  have hnone : ∀ id, id ∉ init.observers := by
    intro id hid
    obtain ⟨i, hi⟩ := mem_observers.mp hid
    simp [init] at hi
  exact ⟨fun id hid => absurd hid (hnone id), fun k hk => absurd hk (Nat.lt_irrefl 0),
    fun id hid => absurd hid (hnone id)⟩

theorem update_entries_self (s : EventMgr) (id : Nat) (f : EventMgrEntry → EventMgrEntry) :
    (s.update id f).entries id = f (s.entries id) := Function.update_self _ _ _

theorem update_entries_of_ne (s : EventMgr) (hx : x ≠ id) (f : EventMgrEntry → EventMgrEntry) :
    (s.update id f).entries x = s.entries x :=
  Function.update_of_ne hx _ _

theorem key_update (s : EventMgr) (id : Nat) {f : EventMgrEntry → EventMgrEntry}
    (hf : ∀ e, (f e).observer = e.observer) (x : Nat) : (s.update id f).key x = s.key x := by
  by_cases hx : x = id
  · subst hx
    rw [key, update_entries_self, hf]
    rfl
  · rw [key, update_entries_of_ne s hx]
    rfl

/-- **Writing to an entry** changes the number of its own observer. -/
theorem Counted.update (h : Counted s r) (hid : id ∈ s.observers)
    {f : EventMgrEntry → EventMgrEntry} (hf : ∀ e, (f e).observer = e.observer)
    (hr : ∀ k, k ≠ s.key id → r' k = r k) (hok : EntryOk (f (s.entries id)) (r' (s.key id))) :
    Counted (s.update id f) r' := by
  refine ⟨fun x hx => ?_, fun k hk => ?_, fun x hx y hy => ?_⟩
  · rw [key_update s id hf]
    by_cases hxid : x = id
    · subst hxid
      rw [update_entries_self]
      exact hok
    · have hne : s.key x ≠ s.key id := fun heq => hxid (h.unique x hx id hid heq)
      rw [update_entries_of_ne s hxid, hr _ hne]
      exact h.entry x hx
  · by_cases hkid : k = s.key id
    · exact ⟨id, hid, by rw [key_update s id hf, hkid]⟩
    · rw [hr k hkid] at hk
      obtain ⟨x, hx, hxk⟩ := h.present k hk
      exact ⟨x, hx, by rw [key_update s id hf, hxk]⟩
  · rw [key_update s id hf, key_update s id hf]
    exact h.unique x hx y hy

theorem Placed.mem_nodeRemove (h : s.Placed) :
    x ∈ (s.nodeRemove (s.home id) id).observers ↔ x ∈ s.observers ∧ x ≠ id := by
  rw [mem_observers, mem_observers]
  constructor
  · rintro ⟨i, hi⟩
    by_cases hhome : i = s.home id
    · subst hhome
      simp only [EventMgr.nodeRemove, Function.update_self] at hi
      obtain ⟨hne, hx⟩ := (h.nodup _).mem_erase_iff.mp hi
      exact ⟨⟨_, hx⟩, hne⟩
    · simp only [EventMgr.nodeRemove, Function.update_of_ne hhome] at hi
      refine ⟨⟨i, hi⟩, fun hx => hhome ?_⟩
      rw [← hx, h.home i x hi]
  · rintro ⟨⟨i, hi⟩, hne⟩
    refine ⟨i, ?_⟩
    by_cases hhome : i = s.home id
    · subst hhome
      simp only [EventMgr.nodeRemove, Function.update_self]
      exact (h.nodup _).mem_erase_iff.mpr ⟨hne, hi⟩
    · simp only [EventMgr.nodeRemove, Function.update_of_ne hhome]
      exact hi

/-- **An entry that goes** leaves its observer without a registration. -/
theorem Counted.remove {s s' : EventMgr} (h : Counted s r) (hid : id ∈ s.observers)
    (hmem : ∀ x, x ∈ s'.observers ↔ x ∈ s.observers ∧ x ≠ id)
    (hentries : ∀ x, x ≠ id → s'.entries x = s.entries x) (hr : ∀ k, k ≠ s.key id → r' k = r k)
    (hzero : r' (s.key id) = 0) : Counted s' r' := by
  have hkeys : ∀ x, x ≠ id → s'.key x = s.key x := fun x hx => by rw [key, hentries x hx]; rfl
  refine ⟨fun x hx => ?_, fun k hk => ?_, fun x hx y hy => ?_⟩
  · obtain ⟨hx, hne⟩ := (hmem x).mp hx
    have hkey : s.key x ≠ s.key id := fun heq => hne (h.unique x hx id hid heq)
    rw [hentries x hne, hkeys x hne, hr _ hkey]
    exact h.entry x hx
  · have hkid : k ≠ s.key id := by
      rintro rfl
      omega
    rw [hr k hkid] at hk
    obtain ⟨x, hx, hxk⟩ := h.present k hk
    have hne : x ≠ id := by
      rintro rfl
      exact hkid hxk.symm
    exact ⟨x, (hmem x).mpr ⟨hx, hne⟩, by rw [hkeys x hne, hxk]⟩
  · obtain ⟨hx, hxne⟩ := (hmem x).mp hx
    obtain ⟨hy, hyne⟩ := (hmem y).mp hy
    rw [hkeys x hxne, hkeys y hyne]
    exact h.unique x hx y hy

/-! ## What the sections do to it -/

theorem Placed.addRef (h : s.Placed) (id : Nat) : (s.addRef id).Placed :=
  h.update id fun _ => ⟨rfl, rfl⟩

/-- A registration that finds the entry. -/
theorem Counted.addRef (h : Counted s r) (hid : id ∈ s.observers)
    (hmarked : (s.entries id).markedForDelete = false) :
    Counted (s.addRef id) (r.add (s.key id)) := by
  have hok := h.entry id hid
  refine h.update hid (fun _ => rfl) (fun k hk => Function.update_of_ne hk _ _) ?_
  refine ⟨fun _ => ?_, fun _ => ?_, fun hm => ?_⟩
  · have := hok.refCount hmarked
    simp only [Registered.add, Function.update_self, this]
    push_cast
    omega
  · have := hok.pos hmarked
    simp only
    omega
  · simp only [hmarked, Bool.false_eq_true] at hm

theorem mem_insertEntry :
    x ∈ (s.insertEntry fpcEvent o).observers ↔ x ∈ s.observers ∨ x = s.next := by
  rw [mem_observers, mem_observers]
  constructor
  · rintro ⟨i, hi⟩
    by_cases hhome : i = bucket fpcEvent.esifEvent
    · subst hhome
      simp only [EventMgr.insertEntry, Function.update_self, List.mem_append,
        List.mem_singleton] at hi
      exact hi.imp (fun hi => ⟨_, hi⟩) id
    · simp only [EventMgr.insertEntry, Function.update_of_ne hhome] at hi
      exact Or.inl ⟨i, hi⟩
  · rintro (⟨i, hi⟩ | rfl)
    · refine ⟨i, ?_⟩
      by_cases hhome : i = bucket fpcEvent.esifEvent
      · subst hhome
        simp only [EventMgr.insertEntry, Function.update_self, List.mem_append]
        exact Or.inl hi
      · simp only [EventMgr.insertEntry, Function.update_of_ne hhome]
        exact hi
    · exact ⟨bucket fpcEvent.esifEvent, by simp [EventMgr.insertEntry]⟩

theorem insertEntry_entries_of_lt (s : EventMgr) (fpcEvent : FpcEvent) (o : Observer)
    (hx : x < s.next) : (s.insertEntry fpcEvent o).entries x = s.entries x :=
  Function.update_of_ne (Nat.ne_of_lt hx) _ _

theorem insertEntry_entries_next (s : EventMgr) (fpcEvent : FpcEvent) (o : Observer) :
    (s.insertEntry fpcEvent o).entries s.next = newEntry fpcEvent o :=
  Function.update_self _ _ _

theorem insertEntry_key_of_lt (s : EventMgr) (fpcEvent : FpcEvent) (o : Observer)
    (hx : x < s.next) : (s.insertEntry fpcEvent o).key x = s.key x := by
  rw [key, insertEntry_entries_of_lt s fpcEvent o hx]
  rfl

theorem insertEntry_key_next (s : EventMgr) (htype : fpcEvent.esifEvent = o.eventType) :
    (s.insertEntry fpcEvent o).key s.next = o.norm := by
  rw [key, insertEntry_entries_next, EventMgrEntry.observer, newEntry, htype]

/-- A registration that inserts one; nobody else has inserted it. -/
theorem Counted.insertEntry (h : Counted s r) (hplaced : s.Placed)
    (htype : fpcEvent.esifEvent = o.eventType) (hnone : ∀ id ∈ s.observers, s.key id ≠ o.norm) :
    Counted (s.insertEntry fpcEvent o) (r.add o.norm) := by
  have hzero : r o.norm = 0 := by
    by_contra hne
    obtain ⟨id, hid, hkey⟩ := h.present o.norm (Nat.pos_of_ne_zero hne)
    exact hnone id hid hkey
  have hnew := insertEntry_key_next s htype
  have hold : ∀ x ∈ s.observers, (s.insertEntry fpcEvent o).key x = s.key x :=
    fun x hx => insertEntry_key_of_lt s fpcEvent o (hplaced.lt_of_mem hx)
  refine ⟨fun x hx => ?_, fun k hk => ?_, fun x hx y hy heq => ?_⟩
  · rcases mem_insertEntry.mp hx with hx | rfl
    · rw [hold x hx, insertEntry_entries_of_lt s fpcEvent o (hplaced.lt_of_mem hx),
        Registered.add, Function.update_of_ne (hnone x hx)]
      exact h.entry x hx
    · rw [hnew, insertEntry_entries_next, Registered.add, Function.update_self, hzero]
      exact ⟨fun _ => by simp [newEntry], fun _ => by simp [newEntry],
        fun hm => by simp [newEntry] at hm⟩
  · by_cases hko : k = o.norm
    · subst hko
      exact ⟨s.next, mem_insertEntry.mpr (Or.inr rfl), hnew⟩
    · rw [Registered.add, Function.update_of_ne hko] at hk
      obtain ⟨x, hx, hxk⟩ := h.present k hk
      exact ⟨x, mem_insertEntry.mpr (Or.inl hx), by rw [hold x hx, hxk]⟩
  · rcases mem_insertEntry.mp hx with hx | rfl <;> rcases mem_insertEntry.mp hy with hy | rfl
    · rw [hold x hx, hold y hy] at heq
      exact h.unique x hx y hy heq
    · rw [hold x hx, hnew] at heq
      exact absurd heq (hnone x hx)
    · rw [hnew, hold y hy] at heq
      exact absurd heq.symm (hnone y hy)
    · rfl

/-- Take the reference of a registration back. -/
def decRef (e : EventMgrEntry) : EventMgrEntry := { e with refCount := e.refCount - 1 }

/-- What an unregistration comes to. -/
inductive Released (s : EventMgr) (o : Observer) : EventMgr → Prop
  /-- There is no entry to be found. -/
  | missing : (∀ id ∈ s.observers, ¬(s.entries id).MatchesRelease o) → Released s o s
  /-- There are other registrations. -/
  | dropped (id : Nat) : s.findRelease o = some id → id ∈ s.observers →
    (s.entries id).MatchesRelease o → 1 < (s.entries id).refCount →
    (s.entries id).markedForDelete = false → Released s o (s.update id decRef)
  /-- The entry goes. -/
  | gone (id : Nat) : s.findRelease o = some id → id ∈ s.observers →
    (s.entries id).MatchesRelease o → (s.entries id).refCount ≤ 1 ∨ (s.entries id).markedForDelete = true →
    Released s o (((s.update id decRef).moveEntryToGarbage id).nodeRemove (s.home id) id)

theorem Placed.findRelease_eq_some (h : s.Placed) (hfind : s.findRelease o = some id) :
    id ∈ s.observers ∧ (s.entries id).MatchesRelease o ∧ s.home id = bucket o.eventType := by
  have hmem := List.mem_of_find?_eq_some hfind
  exact ⟨mem_observers.mpr ⟨_, hmem⟩, by simpa using List.find?_some hfind, h.home _ id hmem⟩

theorem Placed.released (h : s.Placed) (o : Observer) : Released s o (s.releaseEntry o) := by
  unfold releaseEntry
  split
  · rename_i hfind
    refine .missing fun id hid hmatch => ?_
    have hmem := h.mem_home.mp hid
    have hhome : s.home id = bucket o.eventType := congrArg bucket hmatch.1
    rw [hhome] at hmem
    have hno := List.find?_eq_none.mp hfind id hmem
    exact hno (decide_eq_true hmatch)
  · rename_i id hfind
    obtain ⟨hid, hmatch, hhome⟩ := h.findRelease_eq_some hfind
    simp only [update_entries_self]
    rw [← hhome]
    split
    · rename_i hgo
      refine .gone id hfind hid hmatch (hgo.imp (fun hle => ?_) fun hmarked => hmarked)
      omega
    · rename_i hstay
      rw [not_or, Bool.not_eq_true] at hstay
      exact .dropped id hfind hid hmatch (by omega) hstay.2

theorem Placed.releaseEntry (h : s.Placed) (o : Observer) : (s.releaseEntry o).Placed := by
  have hreleased := h.released o
  generalize s.releaseEntry o = s' at hreleased ⊢
  cases hreleased with
  | missing => exact h
  | dropped id => exact h.update id fun _ => ⟨rfl, rfl⟩
  | gone id =>
    have hdec := h.update id (f := decRef) fun _ => ⟨rfl, rfl⟩
    have hmoved : ((s.update id decRef).moveEntryToGarbage id).Placed :=
      ⟨hdec.home, hdec.lt_next, hdec.nodup, hdec.primary⟩
    exact hmoved.nodeRemove _ _

theorem releaseEntry_isInUse (h : s.Placed) (o : Observer) (x : Nat) :
    ((s.releaseEntry o).entries x).isInUse = (s.entries x).isInUse := by
  have hdec : ∀ id, ((s.update id decRef).entries x).isInUse = (s.entries x).isInUse := by
    intro id
    by_cases hx : x = id
    · subst hx
      rw [update_entries_self]
      rfl
    · rw [update_entries_of_ne s hx]
  have hreleased := h.released o
  generalize s.releaseEntry o = s' at hreleased ⊢
  cases hreleased with
  | missing => rfl
  | dropped id => exact hdec id
  | gone id => exact hdec id

theorem mem_of_nodeRemove {i : Fin numEventLists} (hx : x ∈ (s.nodeRemove i id).observers) :
    x ∈ s.observers := by
  obtain ⟨j, hj⟩ := mem_observers.mp hx
  refine mem_observers.mpr ⟨j, ?_⟩
  by_cases hji : j = i
  · subst hji
    simp only [EventMgr.nodeRemove, Function.update_self] at hj
    exact List.mem_of_mem_erase hj
  · simp only [EventMgr.nodeRemove, Function.update_of_ne hji] at hj
    exact hj

theorem mem_of_releaseEntry (h : s.Placed) (hx : x ∈ (s.releaseEntry o).observers) :
    x ∈ s.observers := by
  have hreleased := h.released o
  generalize s.releaseEntry o = s' at hreleased hx
  cases hreleased with
  | missing => exact hx
  | dropped id => exact hx
  | gone id => exact mem_of_nodeRemove hx

theorem releaseEntry_delay (h : s.Placed) (o : Observer) :
    (s.releaseEntry o).delayAppUnregistration = s.delayAppUnregistration := by
  have hreleased := h.released o
  generalize s.releaseEntry o = s' at hreleased ⊢
  cases hreleased <;> rfl

/-- An unregistration that names the participant as the entry does, and leaves an entry in use
its other references. -/
theorem Counted.releaseEntry (h : Counted s r) (hplaced : s.Placed)
    (hnames : ∀ id ∈ s.observers, s.key id = o.norm →
      (s.entries id).participantId = o.participantId)
    (hsafe : ∀ id, s.findRelease o = some id → (s.entries id).isInUse = true →
      1 < (s.entries id).refCount ∧ (s.entries id).markedForDelete = false) :
    Counted (s.releaseEntry o) (r.drop o.norm) := by
  have hreleased := hplaced.released o
  generalize s.releaseEntry o = s' at hreleased ⊢
  cases hreleased with
  | missing hnone =>
    have hzero : r o.norm = 0 := by
      by_contra hne
      obtain ⟨id, hid, hkey⟩ := h.present o.norm (Nat.pos_of_ne_zero hne)
      exact hnone id hid ((matchesRelease_iff _ o).mpr ⟨hkey, hnames id hid hkey⟩)
    have hsame : r.drop o.norm = r := by
      rw [Registered.drop, hzero, Nat.zero_sub, ← hzero, Function.update_eq_self]
    rw [hsame]
    exact h
  | dropped id hfind hid hmatch hmore hmarked =>
    have hkey : s.key id = o.norm := ((matchesRelease_iff _ o).mp hmatch).1
    have hok := h.entry id hid
    have hcount := hok.refCount hmarked
    rw [← hkey]
    refine h.update hid (fun _ => rfl) (fun k hk => Function.update_of_ne hk _ _) ?_
    rw [Registered.drop, Function.update_self]
    refine ⟨fun _ => ?_, fun _ => ?_, fun hm => ?_⟩
    · show (s.entries id).refCount - 1 =
        ↑(r (s.key id) - 1) + if (s.entries id).isInUse = true then 1 else 0
      split at hcount
      · rename_i huse
        rw [if_pos huse]
        omega
      · rename_i hunused
        rw [if_neg hunused]
        omega
    · simp only [decRef]
      omega
    · simp only [decRef, hmarked, Bool.false_eq_true] at hm
  | gone id hfind hid hmatch hgo =>
    have hkey : s.key id = o.norm := ((matchesRelease_iff _ o).mp hmatch).1
    have hok := h.entry id hid
    have hunused : (s.entries id).isInUse = false := by
      by_contra huse
      obtain ⟨hmore, hmarked⟩ := hsafe id hfind (by simpa using huse)
      rcases hgo with hle | hm
      · omega
      · rw [hmarked] at hm
        cases hm
    have hmarked : (s.entries id).markedForDelete = false := by
      by_contra hm
      rw [(hok.marked (by simpa using hm)).1] at hunused
      cases hunused
    have hone : r (s.key id) ≤ 1 := by
      have hcount := hok.refCount hmarked
      have hle := hgo.resolve_right (by simp [hmarked])
      rw [hunused] at hcount
      simp at hcount
      omega
    rw [← hkey]
    refine h.remove hid (fun x => ?_) (fun x hx => ?_) (fun k hk => Function.update_of_ne hk _ _) ?_
    · have hplaced' : ((s.update id decRef).moveEntryToGarbage id).Placed := by
        have := hplaced.update id (f := decRef) fun _ => ⟨rfl, rfl⟩
        exact ⟨this.home, this.lt_next, this.nodup, this.primary⟩
      have hhome : ((s.update id decRef).moveEntryToGarbage id).home id = s.home id := by
        rw [home, home, moveEntryToGarbage, update_entries_self]
        rfl
      rw [← hhome, hplaced'.mem_nodeRemove]
      rfl
    · exact update_entries_of_ne s hx decRef
    · rw [Registered.drop, Function.update_self]
      omega

theorem mem_unregisterApp {callback context : UInt64} :
    x ∈ (s.unregisterApp callback context).observers ↔
      x ∈ s.observers ∧ s.unused callback context x = false := by
  rw [mem_observers, mem_observers]
  simp only [EventMgr.unregisterApp, List.mem_filter, Bool.not_eq_eq_eq_not, Bool.not_true]
  constructor
  · rintro ⟨i, hi, hx⟩
    exact ⟨⟨i, hi⟩, hx⟩
  · rintro ⟨⟨i, hi⟩, hx⟩
    exact ⟨i, hi, hx⟩

theorem unregisterApp_observer (s : EventMgr) (callback context : UInt64) (x : Nat) :
    ((s.unregisterApp callback context).entries x).observer = (s.entries x).observer := by
  simp only [EventMgr.unregisterApp]
  split <;> rfl

theorem key_unregisterApp (s : EventMgr) (callback context : UInt64) (x : Nat) :
    (s.unregisterApp callback context).key x = s.key x := by
  rw [key, unregisterApp_observer]
  rfl

theorem key_ofApp {callback context : UInt64} :
    ((s.key id).callback = callback ∧ (s.key id).context = context) ↔
      (s.entries id).OfApp callback context := by
  obtain ⟨hcb, hctx⟩ := norm_ofApp (s.entries id).observer
  rw [key, hcb, hctx]
  rfl

/-- The entries of an application are gone, or marked if they are in use. -/
theorem Counted.unregisterApp (h : Counted s r) (callback context : UInt64) :
    Counted (s.unregisterApp callback context) (r.dropApp callback context) := by
  refine ⟨fun x hx => ?_, fun k hk => ?_, fun x hx y hy => ?_⟩
  · obtain ⟨hx, hstay⟩ := mem_unregisterApp.mp hx
    have hok := h.entry x hx
    rw [key_unregisterApp]
    by_cases happ : (s.entries x).OfApp callback context
    · have huse : (s.entries x).isInUse = true := by
        simpa [EventMgr.unused, happ] using hstay
      have hzero : r.dropApp callback context (s.key x) = 0 := if_pos (key_ofApp.mpr happ)
      have hentry : (s.unregisterApp callback context).entries x =
          { s.entries x with markedForDelete := true } := if_pos ⟨hx, happ⟩
      rw [hzero, hentry]
      exact ⟨fun hm => by simp at hm, fun hm => by simp at hm, fun _ => ⟨huse, rfl⟩⟩
    · have hkeep : r.dropApp callback context (s.key x) = r (s.key x) :=
        if_neg fun hk => happ (key_ofApp.mp hk)
      have hentry : (s.unregisterApp callback context).entries x = s.entries x :=
        if_neg fun hk => happ hk.2
      rw [hkeep, hentry]
      exact hok
  · unfold Registered.dropApp at hk
    split at hk
    · omega
    · rename_i hother
      obtain ⟨x, hx, hxk⟩ := h.present k hk
      have happ : ¬(s.entries x).OfApp callback context := by
        rw [← key_ofApp, hxk]
        exact hother
      refine ⟨x, mem_unregisterApp.mpr ⟨hx, by simp [EventMgr.unused, happ]⟩, ?_⟩
      rw [key_unregisterApp, hxk]
  · rw [key_unregisterApp, key_unregisterApp]
    exact h.unique x (mem_unregisterApp.mp hx).1 y (mem_unregisterApp.mp hy).1

/-! ## The calls -/

/-- The participants that are available, with the events of their DSP. -/
abbrev Participants := EsifHandle → Option (List FpcEvent)

/-- `EsifUpPm_GetAvailableParticipantByInstance`. -/
def getAvailableParticipantByInstance (ps : Participants) (participantId : EsifHandle) :
    Option (List FpcEvent) :=
  ps (if isPrimaryParticipantId participantId then esifHandlePrimaryParticipant
    else participantId)

/-- `EsifUp_GetFpcEventByType`. -/
def getFpcEventByType (events : List FpcEvent) (eventType : UInt32) : Option FpcEvent :=
  events.find? fun e => e.esifEvent = eventType

/-- What both calls do first: the event of the participant, with the error of an event that is
not found. -/
def lookupEvent (ps : Participants) (o : Observer) (notFound : EsifError) :
    Except EsifError FpcEvent :=
  if o.callback = 0 then .error esifEParameterIsNull
  else if o.participantId ≠ eventMgrMatchAny then
    match getAvailableParticipantByInstance ps o.participantId with
    | none => .error esifEParticipantNotFound
    | some events =>
      match getFpcEventByType events o.eventType with
      | none => .error notFound
      | some fpcEvent => .ok fpcEvent
  else .ok ⟨o.eventType, .other⟩

/-- `EsifEventMgr_AddEntry`, with the result of what enables the event. -/
def addEntry (s : EventMgr) (fpcEvent : FpcEvent) (o : Observer) (rc : EsifError) :
    EsifError × EventMgr :=
  match s.findEntry o with
  | some id =>
    if (s.entries id).markedForDelete = false then (esifOk, s.addRef id)
    else (esifENoCreate, s.nodeRemove (bucket fpcEvent.esifEvent) id)
  | none =>
    let inserted := s.insertEntry fpcEvent o
    let rc := enableEvent (newEntry fpcEvent o) rc
    if rc = esifOk then (rc, inserted)
    else (rc, (inserted.nodeRemove (bucket fpcEvent.esifEvent) s.next).freeEntry s.next)

/-- `EsifEventMgr_RegisterEventByType`. -/
def registerEventByType (s : EventMgr) (ps : Participants) (o : Observer) (rc : EsifError) :
    EsifError × EventMgr :=
  match lookupEvent ps o esifEEventNotFound with
  | .error e => (e, s)
  | .ok fpcEvent => s.addEntry fpcEvent o rc

/-- `EsifEventMgr_UnregisterEventByType`. -/
def unregisterEventByType (s : EventMgr) (ps : Participants) (o : Observer) :
    EsifError × EventMgr :=
  match lookupEvent ps o esifENotFound with
  | .error e => (e, s)
  | .ok _ => (esifOk, (s.releaseEntry o).dumpGarbage)

/-- `EsifEventMgr_UnregisterAllForApp`. -/
def unregisterAllForApp (s : EventMgr) (callback context : UInt64) : EsifError × EventMgr :=
  if callback = 0 ∨ context = esifHandleDefault then (esifEParameterIsNull, s)
  else if s.delayedAppUnregistrationEnabled && s.delayAppUnregistration then
    (esifOk, { s with appUnregisterList := s.appUnregisterList ++ [(callback, context)] })
  else (esifOk, (s.unregisterApp callback context).dumpGarbage)

theorem foldl_freeEntry (s : EventMgr) (ids : List Nat) :
    ids.foldl freeEntry s = { s with log := s.log ++ ids.map .freed } := by
  induction ids generalizing s with
  | nil => simp
  | cons id ids ih =>
    rw [List.foldl_cons, ih]
    simp [freeEntry]

theorem dumpGarbage_eq (s : EventMgr) :
    s.dumpGarbage =
      { s with garbageList := [], log := s.log ++ s.garbageList.map .freed } := by
  rw [dumpGarbage, foldl_freeEntry]

theorem lookupEvent_esifEvent {ps : Participants} {notFound : EsifError}
    (h : lookupEvent ps o notFound = .ok fpcEvent) : fpcEvent.esifEvent = o.eventType := by
  unfold lookupEvent at h
  split at h
  · cases h
  · split at h
    · split at h
      · cases h
      · split at h
        · cases h
        · rename_i fpc hfind
          obtain rfl := Except.ok.inj h
          simpa using List.find?_some hfind
    · obtain rfl := Except.ok.inj h
      rfl

theorem lookupEvent_ne_ok {ps : Participants} {notFound e : EsifError} (hne : notFound ≠ esifOk)
    (h : lookupEvent ps o notFound = .error e) : e ≠ esifOk := by
  unfold lookupEvent at h
  split at h
  · obtain rfl := Except.error.inj h
    decide
  · split at h
    · split at h
      · obtain rfl := Except.error.inj h
        decide
      · split at h
        · obtain rfl := Except.error.inj h
          exact hne
        · cases h
    · cases h

/-! ## Runs of calls -/

/-- A call, with what it meets: the participants, and the result of enabling the event. -/
inductive Call
  | register (ps : Participants) (o : Observer) (rc : EsifError)
  | unregister (ps : Participants) (o : Observer)
  | unregisterAll (callback context : UInt64)

/-- The manager, and how often each observer is registered by the calls that succeeded. -/
structure Registry where
  mgr : EventMgr
  registered : Registered

namespace Registry

variable {r : Registry}

/-- Nobody is registered. -/
def start : Registry := ⟨init, fun _ => 0⟩

/-- The call has come to a result; if it succeeded, the numbers change. -/
def done (r : Registry) (result : EsifError × EventMgr) (registered : Registered) : Registry :=
  ⟨result.2, if result.1 = esifOk then registered else r.registered⟩

/-- A call, made by itself. -/
def step (r : Registry) : Call → Option Registry
  | .register ps o rc =>
    some (r.done (r.mgr.registerEventByType ps o rc) (r.registered.add o.norm))
  | .unregister ps o =>
    some (r.done (r.mgr.unregisterEventByType ps o) (r.registered.drop o.norm))
  | .unregisterAll callback context =>
    some (r.done (r.mgr.unregisterAllForApp callback context)
      (r.registered.dropApp callback context))

@[simp] theorem done_ok (r : Registry) (mgr : EventMgr) (registered : Registered) :
    r.done (esifOk, mgr) registered = ⟨mgr, registered⟩ := rfl

theorem done_error (r : Registry) {rc : EsifError} (hrc : rc ≠ esifOk) (mgr : EventMgr)
    (registered : Registered) : r.done (rc, mgr) registered = ⟨mgr, r.registered⟩ := by
  rw [done, if_neg hrc]

/-- An entry is in the lists exactly if its observer is registered, it counts the registrations,
and there is no other one. -/
structure Balanced (r : Registry) : Prop where
  present : ∀ o : Observer,
    (∃ id ∈ r.mgr.observers, r.mgr.key id = o.norm) ↔ 0 < r.registered o.norm
  refCount : ∀ id ∈ r.mgr.observers,
    (r.mgr.entries id).refCount = r.registered (r.mgr.key id)
  unique : ∀ id ∈ r.mgr.observers, ∀ id' ∈ r.mgr.observers,
    r.mgr.key id = r.mgr.key id' → id = id'

/-- An unregistration that is not refused names the participant as the observer's entry does. -/
def NamesEntry (r : Registry) : Call → Prop
  | .register _ _ _ => True
  | .unregister ps o => ∀ fpcEvent, lookupEvent ps o esifENotFound = .ok fpcEvent →
    ∀ id ∈ r.mgr.observers, r.mgr.key id = o.norm →
      (r.mgr.entries id).participantId = o.participantId
  | .unregisterAll _ _ => True

/-- What holds between the calls: the numbers are right and no entry is in use. -/
structure Tidy (r : Registry) : Prop where
  placed : r.mgr.Placed
  counted : Counted r.mgr r.registered
  unused : ∀ id ∈ r.mgr.observers, (r.mgr.entries id).isInUse = false
  undelayed : r.mgr.delayAppUnregistration = false

theorem tidy_start : Tidy start :=
  ⟨placed_init, counted_init, fun _ _ => rfl, rfl⟩

theorem Tidy.unmarked (h : r.Tidy) {id : Nat} (hid : id ∈ r.mgr.observers) :
    (r.mgr.entries id).markedForDelete = false := by
  by_contra hm
  have huse := ((h.counted.entry id hid).marked (by simpa using hm)).1
  rw [h.unused id hid] at huse
  cases huse

theorem Tidy.balanced (h : r.Tidy) : r.Balanced := by
  have hcount : ∀ id ∈ r.mgr.observers,
      (r.mgr.entries id).refCount = r.registered (r.mgr.key id) := by
    intro id hid
    have := (h.counted.entry id hid).refCount (h.unmarked hid)
    simpa [h.unused id hid] using this
  refine ⟨fun o => ⟨?_, h.counted.present o.norm⟩, hcount, h.counted.unique⟩
  rintro ⟨id, hid, hkey⟩
  have hpos := (h.counted.entry id hid).pos (h.unmarked hid)
  rw [hcount id hid, hkey] at hpos
  omega

/-- A registration that is accepted keeps the numbers right. -/
theorem Tidy.addEntry (h : r.Tidy) {fpcEvent : FpcEvent} {o : Observer}
    (htype : fpcEvent.esifEvent = o.eventType) (rc : EsifError) :
    (r.done (r.mgr.addEntry fpcEvent o rc) (r.registered.add o.norm)).Tidy := by
  unfold EventMgr.addEntry
  split
  · rename_i id hfind
    obtain ⟨hid, hkey⟩ := h.placed.findEntry_eq_some hfind
    have hunmarked := h.unmarked hid
    rw [if_pos hunmarked, done_ok, ← hkey]
    refine ⟨h.placed.addRef id, h.counted.addRef hid hunmarked, fun x hx => ?_, h.undelayed⟩
    by_cases hxid : x = id
    · subst hxid
      simp only [EventMgr.addRef, update_entries_self]
      exact h.unused x hid
    · simp only [EventMgr.addRef, update_entries_of_ne r.mgr hxid]
      exact h.unused x hx
  · rename_i hfind
    have hnone := fun id (hid : id ∈ r.mgr.observers) => h.placed.findEntry_eq_none hfind hid
    have hplaced := h.placed.insertEntry fpcEvent o
    have hcounted := h.counted.insertEntry h.placed htype hnone
    have hunused : ∀ x ∈ (r.mgr.insertEntry fpcEvent o).observers,
        ((r.mgr.insertEntry fpcEvent o).entries x).isInUse = false := by
      intro x hx
      rcases mem_insertEntry.mp hx with hx | rfl
      · rw [insertEntry_entries_of_lt _ _ _ (h.placed.lt_of_mem hx)]
        exact h.unused x hx
      · rw [insertEntry_entries_next]
        rfl
    generalize enableEvent (newEntry fpcEvent o) rc = rc'
    simp only
    by_cases hrc : rc' = esifOk
    · rw [if_pos hrc, hrc, done_ok]
      exact ⟨hplaced, hcounted, hunused, h.undelayed⟩
    · -- the events are not enabled: the entry that was inserted goes again
      rw [if_neg hrc, done_error r hrc]
      have hhome : (r.mgr.insertEntry fpcEvent o).home r.mgr.next = bucket fpcEvent.esifEvent := by
        rw [home, insertEntry_entries_next]
        rfl
      have hkey := insertEntry_key_next r.mgr htype
      have hmem : ∀ x, x ∈ ((r.mgr.insertEntry fpcEvent o).nodeRemove
          (bucket fpcEvent.esifEvent) r.mgr.next).observers ↔
          x ∈ (r.mgr.insertEntry fpcEvent o).observers ∧ x ≠ r.mgr.next := by
        rw [← hhome]
        exact fun x => hplaced.mem_nodeRemove
      have hzero : r.registered o.norm = 0 := by
        by_contra hne
        obtain ⟨x, hx, hxk⟩ := h.counted.present o.norm (Nat.pos_of_ne_zero hne)
        exact hnone x hx hxk
      have hgone : Counted ((r.mgr.insertEntry fpcEvent o).nodeRemove
          (bucket fpcEvent.esifEvent) r.mgr.next) r.registered := by
        refine hcounted.remove (mem_insertEntry.mpr (Or.inr rfl)) hmem (fun _ _ => rfl)
          (fun k hk => ?_) ?_
        · rw [hkey] at hk
          exact (Function.update_of_ne hk _ _).symm
        · rw [hkey]
          exact hzero
      have hplaced' := hplaced.nodeRemove (bucket fpcEvent.esifEvent) r.mgr.next
      exact ⟨⟨hplaced'.home, hplaced'.lt_next, hplaced'.nodup, hplaced'.primary⟩,
        ⟨hgone.entry, hgone.present, hgone.unique⟩,
        fun x hx => hunused x ((hmem x).mp hx).1, h.undelayed⟩

/-- Every call keeps the numbers right, if an unregistration names the entry. -/
theorem step_tidy {r r' : Registry} {c : Call} (hnames : r.NamesEntry c)
    (hstep : step r c = some r') (h : r.Tidy) : r'.Tidy := by
  cases c with
  | register ps o rc =>
    cases hstep
    unfold registerEventByType
    split
    · rename_i e hlookup
      rw [done_error r (lookupEvent_ne_ok (by decide) hlookup)]
      exact h
    · rename_i fpcEvent hlookup
      exact h.addEntry (lookupEvent_esifEvent hlookup) rc
  | unregister ps o =>
    cases hstep
    unfold unregisterEventByType
    split
    · rename_i e hlookup
      rw [done_error r (lookupEvent_ne_ok (by decide) hlookup)]
      exact h
    · rename_i fpcEvent hlookup
      have hcounted := h.counted.releaseEntry h.placed (hnames fpcEvent hlookup)
        fun id hfind huse => by
          rw [h.unused id (h.placed.findRelease_eq_some hfind).1] at huse
          cases huse
      have hplaced := h.placed.releaseEntry o
      rw [done_ok, dumpGarbage_eq]
      refine ⟨⟨hplaced.home, hplaced.lt_next, hplaced.nodup, hplaced.primary⟩,
        ⟨hcounted.entry, hcounted.present, hcounted.unique⟩, fun x hx => ?_, ?_⟩
      · exact (releaseEntry_isInUse h.placed o x).trans
          (h.unused x (mem_of_releaseEntry h.placed hx))
      · exact (releaseEntry_delay h.placed o).trans h.undelayed
  | unregisterAll callback context =>
    cases hstep
    unfold unregisterAllForApp
    split
    · rw [done_error r (by decide)]
      exact h
    · rw [h.undelayed, Bool.and_false, if_neg (by decide), done_ok, dumpGarbage_eq]
      have hcounted := h.counted.unregisterApp callback context
      have hplaced := h.placed.unregisterApp callback context
      refine ⟨⟨hplaced.home, hplaced.lt_next, hplaced.nodup, hplaced.primary⟩,
        ⟨hcounted.entry, hcounted.present, hcounted.unique⟩, fun x hx => ?_, h.undelayed⟩
      have hx := mem_unregisterApp.mp hx
      simp only [EventMgr.unregisterApp]
      split <;> exact h.unused x hx.1

/-- An unregistration that names the primary participant otherwise than the entry finds nothing,
and the numbers are wrong from then on. -/
theorem not_balanced_of_otherwise (h : r.Tidy) {ps : Participants} {o : Observer}
    {fpcEvent : FpcEvent} (hlookup : lookupEvent ps o esifENotFound = .ok fpcEvent) {id : Nat}
    (hid : id ∈ r.mgr.observers) (hkey : r.mgr.key id = o.norm)
    (hother : (r.mgr.entries id).participantId ≠ o.participantId) :
    ¬(r.done (r.mgr.unregisterEventByType ps o) (r.registered.drop o.norm)).Balanced := by
  intro hbalanced
  have hmissing : r.mgr.releaseEntry o = r.mgr := by
    have hnone : ∀ x ∈ r.mgr.observers, ¬(r.mgr.entries x).MatchesRelease o := by
      intro x hx hmatch
      obtain ⟨hxkey, hxpid⟩ := (matchesRelease_iff _ o).mp hmatch
      obtain rfl := h.counted.unique x hx id hid (hxkey.trans hkey.symm)
      exact hother hxpid
    have hreleased := h.placed.released o
    generalize r.mgr.releaseEntry o = s' at hreleased ⊢
    cases hreleased with
    | missing => rfl
    | dropped x _ hx hmatch => exact absurd hmatch (hnone x hx)
    | gone x _ hx hmatch => exact absurd hmatch (hnone x hx)
  have hcount := h.balanced.refCount id hid
  have hpos := (h.counted.entry id hid).pos (h.unmarked hid)
  rw [unregisterEventByType, hlookup] at hbalanced
  simp only [hmissing, done_ok, dumpGarbage_eq] at hbalanced
  have hafter : (r.mgr.entries id).refCount = r.registered.drop o.norm (r.mgr.key id) :=
    hbalanced.refCount id hid
  rw [hkey, Registered.drop, Function.update_self] at hafter
  rw [hkey] at hcount
  omega

/-- **Registrations balance** in exactly the runs whose unregistrations name the participant as
the observer's entry does. -/
theorem everyCall_balanced_iff (calls : List Call) :
    EveryStep step (fun r c => ∀ r', step r c = some r' → r'.Balanced) start calls ↔
      EveryStep step NamesEntry start calls := by
  refine everyStep_congr_of_ok (fun r c r' hnames hstep h => step_tidy hnames hstep h)
    (fun r c h => ?_) tidy_start calls
  refine ⟨fun hbalanced => ?_, fun hnames r' hstep => (step_tidy hnames hstep h).balanced⟩
  cases c with
  | register ps o rc => trivial
  | unregister ps o =>
    intro fpcEvent hlookup id hid hkey
    by_contra hother
    exact not_balanced_of_otherwise h hlookup hid hkey hother (hbalanced _ rfl)
  | unregisterAll callback context => trivial

/-- Display-off is registered under one identifier of the primary participant and unregistered
under the other one. -/
def otherIdentifier : List Call :=
  let ps : Participants := fun _ => some [⟨161, .other⟩]
  [.register ps ⟨161, esifHandlePrimaryParticipant, eventMgrDomainD0, 1, 7⟩ esifOk,
    .unregister ps ⟨161, esifHandleDefault, eventMgrDomainD0, 1, 7⟩]

theorem otherIdentifier_not_balanced :
    ¬EveryStep step (fun r c => ∀ r', step r c = some r' → r'.Balanced) start otherIdentifier := by
  rintro ⟨-, hrest⟩
  have hbalanced := ((hrest _ rfl).1 _ rfl).present
    ⟨161, esifHandlePrimaryParticipant, eventMgrDomainD0, 1, 7⟩
  exact absurd (hbalanced.mp ⟨0, by decide, by decide⟩) (by decide)

end Registry

end EventMgr

end Uf

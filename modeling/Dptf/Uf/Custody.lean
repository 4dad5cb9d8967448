import Dptf.Uf.Dispatch
import Mathlib.Data.List.Induction

/-!
# Entries die once and never in use

An entry is in the lists, on the garbage list, in the hands of the thread that is
about to free it, or freed.  What takes it from one place to the next is a section
under the lock, and none of them takes an entry whose callback runs.

* `Custody` — **the invariant**, with one lemma for each section.
* `diesOnce_of_safe` — they are so in every run whose steps are `Safe`.
* `freedInUse_not_diesOnce` — a run that unregisters the observer twice while its callback runs.
-/

open Lib

namespace Uf

open EventMgr

/-! ## Histories -/

/-- How often the callback of an entry was called. -/
def starts (log : List Happening) (x : Nat) : Nat :=
  log.countP fun h => match h with
    | .started id _ => id == x
    | _ => false

/-- How often it has returned. -/
def ends (log : List Happening) (x : Nat) : Nat := log.count (.ended x)

/-- No entry is freed between the start and the end of its callback. -/
def FreedUnused (log : List Happening) : Prop :=
  ∀ pre x post, log = pre ++ .freed x :: post → starts pre x = ends pre x

/-- Every entry is moved to the garbage list and freed at most once, its node is removed exactly
once before it is freed, and it is not freed while its callback runs. -/
structure DiesOnce (log : List Happening) : Prop where
  moved : ∀ x, log.count (.moved x) ≤ 1
  freed : ∀ x, log.count (.freed x) ≤ 1
  removed : ∀ x, log.count (.removed x) ≤ 1
  removed_of_freed : ∀ x, .freed x ∈ log → log.count (.removed x) = 1
  unused : FreedUnused log

theorem starts_append (log log' : List Happening) (x : Nat) :
    starts (log ++ log') x = starts log x + starts log' x := List.countP_append

theorem ends_append (log log' : List Happening) (x : Nat) :
    ends (log ++ log') x = ends log x + ends log' x := List.count_append

theorem FreedUnused.append_singleton {log : List Happening} (h : FreedUnused log)
    {happening : Happening} (hnew : ∀ x, happening = .freed x → starts log x = ends log x) :
    FreedUnused (log ++ [happening]) := by
  intro pre x post heq
  rcases List.eq_nil_or_concat' post with rfl | ⟨post, last, rfl⟩
  · obtain ⟨rfl, hlast⟩ := List.append_inj' heq rfl
    exact hnew x (List.cons.inj hlast).1
  · rw [← List.cons_append, ← List.append_assoc] at heq
    exact h pre x post (List.append_inj' heq rfl).1

theorem FreedUnused.append {log : List Happening} (h : FreedUnused log) :
    ∀ {log' : List Happening}, (∀ x, .freed x ∉ log') → FreedUnused (log ++ log') := by
  intro log'
  induction log' using List.reverseRecOn with
  | nil => simpa using h
  | append_singleton log' last ih =>
    intro hnew
    rw [← List.append_assoc]
    refine (ih fun x hx => hnew x (by simp [hx])).append_singleton fun x hx => ?_
    exact absurd (by simp [hx]) (hnew x)

/-! ## Where an entry is -/

/-- The entry is in the lists. -/
def EventMgr.listed (s : EventMgr) (x : Nat) : Nat := if x ∈ s.observers then 1 else 0

/-- The thread is going to free the entry. -/
def Thread.holds (x : Nat) : Thread → Nat
  | .freeing id => if id = x then 1 else 0
  | .disposing id => if id = x then 1 else 0
  | _ => 0

/-- **Custody**: every entry is in one place, its node goes when it leaves the lists, and it is in
the lists while its callback runs. -/
structure Custody (s : EventMgr) (ts : List Thread) (p : Option Processing) : Prop where
  placed : s.Placed
  place : ∀ x, s.listed x + s.garbageList.count x + total (Thread.holds x) ts +
    s.log.count (.freed x) = if x < s.next then 1 else 0
  node : ∀ x, s.listed x + s.log.count (.removed x) = if x < s.next then 1 else 0
  moved : ∀ x, s.log.count (.moved x) ≤ s.log.count (.removed x)
  noExit : ∀ fpcEvent x, .exiting fpcEvent x ∉ ts
  inUse : ∀ x < s.next, (s.entries x).isInUse = true ↔ p.map Processing.current = some x
  current : ∀ q, p = some q → q.current ∈ s.observerLists (bucket q.event.eventType)
  running : ∀ x, starts s.log x =
    ends s.log x + if p.map Processing.current = some x then 1 else 0
  unused : FreedUnused s.log

namespace Custody

variable {s : EventMgr} {ts ts' : List Thread} {p : Option Processing}
variable {x id : Nat}

theorem diesOnce (h : Custody s ts p) : DiesOnce s.log := by
  have hone : ∀ x, (if x < s.next then 1 else 0) ≤ 1 := by
    intro x
    split <;> omega
  refine ⟨fun x => ?_, fun x => ?_, fun x => ?_, fun x hx => ?_, h.unused⟩
  · have := h.moved x
    have := h.node x
    have := hone x
    omega
  · have := h.place x
    have := hone x
    omega
  · have := h.node x
    have := hone x
    omega
  · have hpos : 0 < s.log.count (.freed x) := List.count_pos_iff.mpr hx
    have hplace := h.place x
    have hnode := h.node x
    split at hplace <;> rename_i hlt
    · rw [if_pos hlt] at hnode
      omega
    · omega

/-- An entry that is freed is not in use. -/
theorem not_current (h : Custody s ts p) (hx : s.listed x = 0) :
    p.map Processing.current ≠ some x := by
  intro hcur
  obtain ⟨q, hq, rfl⟩ := Option.map_eq_some_iff.mp hcur
  have hmem : q.current ∈ s.observers := mem_observers.mpr ⟨_, h.current q hq⟩
  rw [listed, if_pos hmem] at hx
  omega

theorem init : Custody init [] none := by
  have hnone : ∀ x, EventMgr.init.listed x = 0 := by
    intro x
    have : x ∉ EventMgr.init.observers := by
      rw [mem_observers]
      simp [EventMgr.init]
    rw [listed, if_neg this]
  refine ⟨placed_init, fun x => ?_, fun x => ?_, fun x => ?_, by simp, fun x hx => ?_, by simp,
    fun x => ?_, ?_⟩
  · rw [hnone]
    simp [EventMgr.init]
  · rw [hnone]
    simp [EventMgr.init]
  · simp [EventMgr.init]
  · simp [EventMgr.init] at hx
  · simp [EventMgr.init, starts, ends]
  · intro pre x post heq
    simp [EventMgr.init] at heq

/-- The threads change, but not what they are going to free. -/
theorem threads (h : Custody s ts p)
    (hholds : ∀ x, total (Thread.holds x) ts' = total (Thread.holds x) ts)
    (hexit : ∀ fpcEvent x, .exiting fpcEvent x ∉ ts') : Custody s ts' p :=
  ⟨h.placed, fun x => by rw [hholds]; exact h.place x, h.node, h.moved, hexit, h.inUse, h.current,
    h.running, h.unused⟩

/-- Writing to an entry, not to its place nor to its use. -/
theorem update (h : Custody s ts p) (id : Nat) {f : EventMgrEntry → EventMgrEntry}
    (hf : ∀ e, (f e).observer = e.observer ∧ (f e).isParticipant0Id = e.isParticipant0Id)
    (huse : ∀ e, (f e).isInUse = e.isInUse) : Custody (s.update id f) ts p := by
  refine ⟨h.placed.update id hf, h.place, h.node, h.moved, h.noExit, fun x hx => ?_, h.current,
    h.running, h.unused⟩
  rw [← h.inUse x hx]
  by_cases hxid : x = id
  · subst hxid
    rw [update_entries_self, huse]
  · rw [update_entries_of_ne s hxid]

theorem addRef (h : Custody s ts p) (id : Nat) : Custody (s.addRef id) ts p :=
  h.update id (fun _ => ⟨rfl, rfl⟩) fun _ => rfl

theorem insertEntry (h : Custody s ts p) (fpcEvent : FpcEvent) (o : Observer) :
    Custody (s.insertEntry fpcEvent o) ts p := by
  have hnew : s.next ∉ s.observers := fun hmem => Nat.lt_irrefl _ (h.placed.lt_of_mem hmem)
  have hlisted : ∀ x, (s.insertEntry fpcEvent o).listed x =
      s.listed x + if x = s.next then 1 else 0 := by
    intro x
    by_cases hx : x = s.next
    · subst hx
      rw [listed, listed, if_pos (mem_insertEntry.mpr (Or.inr rfl)), if_neg hnew, if_pos rfl]
    · have hiff : x ∈ (s.insertEntry fpcEvent o).observers ↔ x ∈ s.observers := by
        rw [mem_insertEntry]
        exact or_iff_left hx
      rw [listed, listed, if_neg hx, Nat.add_zero]
      simp only [hiff]
  have hlt : ∀ x, (if x < (s.insertEntry fpcEvent o).next then 1 else 0) =
      (if x < s.next then 1 else 0) + if x = s.next then 1 else 0 := by
    intro x
    have hnext : (s.insertEntry fpcEvent o).next = s.next + 1 := rfl
    rw [hnext]
    split_ifs <;> omega
  refine ⟨h.placed.insertEntry fpcEvent o, fun x => ?_, fun x => ?_, h.moved, h.noExit,
    fun x hx => ?_, fun q hq => ?_, h.running, h.unused⟩
  · have := h.place x
    rw [hlisted, hlt, ← this]
    simp only [EventMgr.insertEntry]
    omega
  · have := h.node x
    rw [hlisted, hlt, ← this]
    simp only [EventMgr.insertEntry]
    omega
  · rcases Nat.lt_succ_iff_lt_or_eq.mp hx with hx | rfl
    · rw [insertEntry_entries_of_lt s fpcEvent o hx]
      exact h.inUse x hx
    · rw [insertEntry_entries_next]
      have hcur : p.map Processing.current ≠ some s.next := h.not_current (if_neg hnew)
      simp [newEntry, hcur]
  · have hmem := h.current q hq
    by_cases hi : bucket q.event.eventType = bucket fpcEvent.esifEvent
    · rw [hi] at hmem ⊢
      simp [EventMgr.insertEntry, hmem]
    · simp only [EventMgr.insertEntry, Function.update_of_ne hi]
      exact hmem

theorem listed_nodeRemove (h : s.Placed) (id x : Nat) :
    (s.nodeRemove (s.home id) id).listed x = if x = id then 0 else s.listed x := by
  by_cases hx : x = id
  · rw [if_pos hx, listed, if_neg fun hmem => (h.mem_nodeRemove.mp hmem).2 hx]
  · have hiff : x ∈ (s.nodeRemove (s.home id) id).observers ↔ x ∈ s.observers := by
      rw [h.mem_nodeRemove]
      exact and_iff_left hx
    rw [if_neg hx, listed, listed]
    simp only [hiff]

theorem mem_nodeRemove_of_ne {i j : Fin numEventLists} (hne : x ≠ id) (hx : x ∈ s.observerLists j) :
    x ∈ (s.nodeRemove i id).observerLists j := by
  by_cases hj : j = i
  · subst hj
    simp only [EventMgr.nodeRemove, Function.update_self]
    exact (List.mem_erase_of_ne hne).mpr hx
  · simp only [EventMgr.nodeRemove, Function.update_of_ne hj]
    exact hx

theorem current_of_nodeRemove (h : Custody s ts p) (hcur : p.map Processing.current ≠ some id)
    (i : Fin numEventLists) :
    ∀ q, p = some q → q.current ∈ (s.nodeRemove i id).observerLists (bucket q.event.eventType) := by
  intro q hq
  refine mem_nodeRemove_of_ne (fun heq => hcur ?_) (h.current q hq)
  rw [hq, Option.map_some, heq]

/-- The node of an entry that nobody waits for is removed, and the thread is going to free the
entry. -/
theorem nodeRemove (h : Custody s ts p) (hid : id ∈ s.observers)
    (hcur : p.map Processing.current ≠ some id)
    (hholds : ∀ x, total (Thread.holds x) ts' = total (Thread.holds x) ts + if x = id then 1 else 0)
    (hexit : ∀ fpcEvent x, .exiting fpcEvent x ∉ ts') :
    Custody (s.nodeRemove (s.home id) id) ts' p := by
  have hlog : (s.nodeRemove (s.home id) id).log = s.log ++ [Happening.removed id] := rfl
  have hone : s.listed id = 1 := if_pos hid
  refine ⟨h.placed.nodeRemove _ id, fun x => ?_, fun x => ?_, fun x => ?_, hexit, h.inUse,
    h.current_of_nodeRemove hcur _, fun x => ?_, ?_⟩
  · have hplace := h.place x
    have hnext : (s.nodeRemove (s.home id) id).next = s.next := rfl
    have hgarbage : (s.nodeRemove (s.home id) id).garbageList = s.garbageList := rfl
    rw [listed_nodeRemove h.placed, hholds, hlog, hnext, hgarbage, ← hplace, List.count_append,
      List.count_singleton]
    by_cases hx : x = id
    · subst hx
      simp only [if_true, hone, beq_iff_eq, reduceCtorEq, if_false]
      omega
    · simp only [hx, if_false, beq_iff_eq, reduceCtorEq]
      omega
  · have hnode := h.node x
    have hnext : (s.nodeRemove (s.home id) id).next = s.next := rfl
    rw [listed_nodeRemove h.placed, hlog, hnext, ← hnode, List.count_append, List.count_singleton]
    by_cases hx : x = id
    · subst hx
      simp only [if_true, hone, beq_self_eq_true]
      omega
    · simp [hx, Ne.symm hx]
  · have := h.moved x
    rw [hlog, List.count_append, List.count_append]
    simp only [List.count_singleton, beq_iff_eq, reduceCtorEq, if_false]
    omega
  · have hstarts : starts [.removed id] x = 0 := rfl
    have hends : ends [.removed id] x = 0 := rfl
    rw [hlog, starts_append, ends_append, hstarts, hends]
    exact h.running x
  · rw [hlog]
    exact h.unused.append (by simp)

/-- An entry that nobody waits for goes to the garbage. -/
theorem discard (h : Custody s ts p) (hid : id ∈ s.observers)
    (hcur : p.map Processing.current ≠ some id) :
    Custody ((s.moveEntryToGarbage id).nodeRemove (s.home id) id) ts p := by
  have hmoved : (s.moveEntryToGarbage id).Placed :=
    ⟨h.placed.home, h.placed.lt_next, h.placed.nodup, h.placed.primary⟩
  have hlisted : ∀ x, ((s.moveEntryToGarbage id).nodeRemove (s.home id) id).listed x =
      if x = id then 0 else s.listed x := fun x => listed_nodeRemove hmoved id x
  have hlog : ((s.moveEntryToGarbage id).nodeRemove (s.home id) id).log =
      s.log ++ [Happening.moved id, .removed id] := by
    simp [EventMgr.nodeRemove, EventMgr.moveEntryToGarbage]
  have hgarbage : ((s.moveEntryToGarbage id).nodeRemove (s.home id) id).garbageList =
      s.garbageList ++ [id] := rfl
  have hnext : ((s.moveEntryToGarbage id).nodeRemove (s.home id) id).next = s.next := rfl
  have hone : s.listed id = 1 := if_pos hid
  refine ⟨hmoved.nodeRemove _ id, fun x => ?_, fun x => ?_, fun x => ?_, h.noExit, h.inUse,
    fun q hq => h.current_of_nodeRemove hcur (s.home id) q hq, fun x => ?_, ?_⟩
  · have hplace := h.place x
    rw [hlisted, hlog, hgarbage, hnext, ← hplace, List.count_append, List.count_append,
      List.count_singleton]
    have hfreed : List.count (.freed x) [Happening.moved id, .removed id] = 0 := rfl
    rw [hfreed]
    by_cases hx : x = id
    · subst hx
      simp only [if_true, hone, beq_self_eq_true]
      omega
    · simp [hx, Ne.symm hx]
  · have hnode := h.node x
    rw [hlisted, hlog, hnext, ← hnode, List.count_append]
    by_cases hx : x = id
    · subst hx
      simp [hone]
      omega
    · simp [hx, Ne.symm hx]
  · have := h.moved x
    rw [hlog, List.count_append, List.count_append]
    by_cases hx : x = id
    · subst hx
      simp
      omega
    · simp [Ne.symm hx]
      omega
  · have hstarts : starts [.moved id, .removed id] x = 0 := rfl
    have hends : ends [.moved id, .removed id] x = 0 := rfl
    rw [hlog, starts_append, ends_append, hstarts, hends]
    exact h.running x
  · rw [hlog]
    exact h.unused.append (by simp)

theorem nodup_observers (h : s.Placed) : s.observers.Nodup := by
  refine List.nodup_flatMap.mpr ⟨fun i _ => h.nodup i, ?_⟩
  refine (List.nodup_finRange numEventLists).imp fun {i j} hne => ?_
  intro x hi hj
  exact hne ((h.home i x hi).symm.trans (h.home j x hj))

theorem count_moved_removed (ids : List Nat) (x : Nat) :
    (ids.flatMap fun id => [Happening.moved id, .removed id]).count (.moved x) = ids.count x ∧
      (ids.flatMap fun id => [Happening.moved id, .removed id]).count (.removed x) =
        ids.count x := by
  induction ids with
  | nil => exact ⟨rfl, rfl⟩
  | cons id ids ih =>
    simp only [List.flatMap_cons, List.count_append, ih.1, ih.2, List.count_cons, List.count_nil]
    simp [Nat.add_comm]

/-- The entries of an application that are not in use go to the garbage. -/
theorem unregisterApp (h : Custody s ts p) (callback context : UInt64) :
    Custody (s.unregisterApp callback context) ts p := by
  generalize hgone : s.observers.filter (s.unused callback context) = gone
  have hcount : ∀ x, s.listed x = (s.unregisterApp callback context).listed x + gone.count x := by
    intro x
    have hnodup : gone.Nodup := hgone ▸ (nodup_observers h.placed).filter _
    have hmem : x ∈ gone ↔ x ∈ s.observers ∧ s.unused callback context x = true := by
      rw [← hgone]
      exact List.mem_filter
    rw [hnodup.count, listed, listed]
    simp only [mem_unregisterApp, hmem]
    by_cases hx : x ∈ s.observers <;> cases s.unused callback context x <;> simp [hx]
  have hlog : (s.unregisterApp callback context).log =
      s.log ++ gone.flatMap fun id => [Happening.moved id, .removed id] := by
    rw [← hgone]
    rfl
  have hgarbage : (s.unregisterApp callback context).garbageList = s.garbageList ++ gone := by
    rw [← hgone]
    rfl
  have hnext : (s.unregisterApp callback context).next = s.next := rfl
  have huse : ∀ x, ((s.unregisterApp callback context).entries x).isInUse =
      (s.entries x).isInUse := by
    intro x
    simp only [EventMgr.unregisterApp]
    split <;> rfl
  have hother : ∀ (happening : Happening), (∀ x, happening ≠ .moved x ∧ happening ≠ .removed x) →
      (gone.flatMap fun id => [Happening.moved id, .removed id]).count happening = 0 := by
    intro happening hne
    refine List.count_eq_zero.mpr fun hmem => ?_
    obtain ⟨x, -, hx⟩ := List.mem_flatMap.mp hmem
    rcases List.mem_cons.mp hx with hx | hx
    · exact (hne x).1 hx
    · exact (hne x).2 (List.mem_singleton.mp hx)
  refine ⟨h.placed.unregisterApp callback context, fun x => ?_, fun x => ?_, fun x => ?_, h.noExit,
    fun x hx => ?_, fun q hq => ?_, fun x => ?_, ?_⟩
  · have hplace := h.place x
    rw [hlog, hgarbage, hnext, ← hplace, List.count_append, List.count_append,
      hother (.freed x) (by simp), hcount x]
    omega
  · have hnode := h.node x
    rw [hlog, hnext, ← hnode, List.count_append, (count_moved_removed gone x).2, hcount x]
    omega
  · have := h.moved x
    rw [hlog, List.count_append, List.count_append, (count_moved_removed gone x).1,
      (count_moved_removed gone x).2]
    omega
  · rw [huse]
    exact h.inUse x hx
  · have hmem := h.current q hq
    have hin : (s.entries q.current).isInUse = true :=
      (h.inUse _ (h.placed.lt_next _ _ hmem)).mpr (by rw [hq]; rfl)
    exact List.mem_filter.mpr ⟨hmem, by simp [EventMgr.unused, hin]⟩
  · have hstarts : starts (gone.flatMap fun id => [Happening.moved id, .removed id]) x = 0 := by
      refine List.countP_eq_zero.mpr fun happening hmem => ?_
      obtain ⟨y, -, hy⟩ := List.mem_flatMap.mp hmem
      rcases List.mem_cons.mp hy with rfl | hy
      · simp
      · rw [List.mem_singleton.mp hy]
        simp
    have hends : ends (gone.flatMap fun id => [Happening.moved id, .removed id]) x = 0 :=
      hother (.ended x) (by simp)
    rw [hlog, starts_append, ends_append, hstarts, hends]
    exact h.running x
  · rw [hlog]
    refine h.unused.append fun x hx => ?_
    obtain ⟨y, -, hy⟩ := List.mem_flatMap.mp hx
    simp at hy

/-- A thread takes an entry off the garbage list. -/
theorem popGarbage (h : Custody s ts p) {s' : EventMgr} (hpop : s.popGarbage = some (id, s'))
    (hholds : ∀ x, total (Thread.holds x) ts' = total (Thread.holds x) ts + if x = id then 1 else 0)
    (hexit : ∀ fpcEvent x, .exiting fpcEvent x ∉ ts') : Custody s' ts' p := by
  unfold EventMgr.popGarbage at hpop
  split at hpop
  · cases hpop
  · rename_i head rest hgarbage
    obtain ⟨rfl, rfl⟩ := Prod.mk.inj (Option.some.inj hpop)
    refine ⟨⟨h.placed.home, h.placed.lt_next, h.placed.nodup, h.placed.primary⟩, fun x => ?_,
      h.node, h.moved, hexit, h.inUse, h.current, h.running, h.unused⟩
    have hplace := h.place x
    rw [hgarbage, List.count_cons] at hplace
    rw [hholds, ← hplace]
    by_cases hx : x = head
    · subst hx
      simp only [if_true, beq_self_eq_true]
      have : EventMgr.listed { s with garbageList := rest } x = s.listed x := rfl
      omega
    · simp only [hx, Ne.symm hx, if_false, beq_iff_eq]
      have : EventMgr.listed { s with garbageList := rest } x = s.listed x := rfl
      omega

/-- A thread frees the entry it holds. -/
theorem freeEntry (h : Custody s ts p)
    (hholds : ∀ x, total (Thread.holds x) ts' + (if x = id then 1 else 0) =
      total (Thread.holds x) ts) (hexit : ∀ fpcEvent x, .exiting fpcEvent x ∉ ts') :
    Custody (s.freeEntry id) ts' p := by
  have hlog : (s.freeEntry id).log = s.log ++ [Happening.freed id] := rfl
  have hzero : s.listed id = 0 := by
    have hplace := h.place id
    have hheld := hholds id
    rw [if_pos rfl] at hheld
    split at hplace <;> omega
  refine ⟨⟨h.placed.home, h.placed.lt_next, h.placed.nodup, h.placed.primary⟩, fun x => ?_,
    fun x => ?_, fun x => ?_, hexit, h.inUse, h.current, fun x => ?_, ?_⟩
  · have hplace := h.place x
    have hheld := hholds x
    have hlisted : (s.freeEntry id).listed x = s.listed x := rfl
    have hgarbage : (s.freeEntry id).garbageList = s.garbageList := rfl
    have hnext : (s.freeEntry id).next = s.next := rfl
    rw [hlog, hlisted, hgarbage, hnext, ← hplace, ← hheld, List.count_append]
    by_cases hx : x = id
    · subst hx
      simp only [if_true, List.count_singleton_self]
      omega
    · simp [hx, Ne.symm hx]
  · have hnode := h.node x
    have hlisted : (s.freeEntry id).listed x = s.listed x := rfl
    have hnext : (s.freeEntry id).next = s.next := rfl
    rw [hlog, hlisted, hnext, ← hnode, List.count_append]
    simp
  · have := h.moved x
    rw [hlog, List.count_append, List.count_append]
    simp only [List.count_singleton, beq_iff_eq, reduceCtorEq, if_false]
    omega
  · have hstarts : starts [.freed id] x = 0 := rfl
    have hends : ends [.freed id] x = 0 := rfl
    rw [hlog, starts_append, ends_append, hstarts, hends]
    exact h.running x
  · rw [hlog]
    refine h.unused.append_singleton fun x hx => ?_
    obtain rfl := Happening.freed.inj hx
    have hrunning := h.running id
    rw [if_neg (h.not_current hzero)] at hrunning
    exact hrunning

/-- The callback of an entry in the list of the event is called. -/
theorem startCallback (h : Custody s ts none) {event : Event} (dump : Bool)
    (hid : id ∈ s.observerLists (bucket event.eventType)) :
    Custody (s.startCallback event id) ts (some ⟨event, id, dump⟩) := by
  have hlog : (s.startCallback event id).log = s.log ++ [Happening.started id event] := rfl
  have hplaced := h.placed.update id (f := fun e =>
    { e with refCount := e.refCount + 1, isInUse := true }) fun _ => ⟨rfl, rfl⟩
  refine ⟨⟨hplaced.home, hplaced.lt_next, hplaced.nodup, hplaced.primary⟩, fun x => ?_,
    fun x => ?_, fun x => ?_, h.noExit, fun x hx => ?_, fun q hq => ?_, fun x => ?_, ?_⟩
  · have hnone : List.count (.freed x) [Happening.started id event] = 0 := rfl
    rw [hlog, List.count_append, hnone]
    exact h.place x
  · have hnone : List.count (.removed x) [Happening.started id event] = 0 := rfl
    rw [hlog, List.count_append, hnone]
    exact h.node x
  · have := h.moved x
    rw [hlog, List.count_append, List.count_append]
    simpa using this
  · have hin := h.inUse x hx
    simp only [Option.map_none, reduceCtorEq, iff_false] at hin
    simp only [EventMgr.startCallback, Option.map_some, Option.some.injEq]
    by_cases hxid : x = id
    · subst hxid
      rw [update_entries_self]
      simp
    · rw [update_entries_of_ne s hxid]
      simp [hin, Ne.symm hxid]
  · cases hq
    exact hid
  · have hrunning := h.running x
    simp only [Option.map_none, reduceCtorEq, if_false, Nat.add_zero] at hrunning
    have hends : ends [.started id event] x = 0 := rfl
    rw [hlog, starts_append, ends_append, hends, hrunning]
    simp [starts, List.countP_cons, Nat.add_comm]
  · rw [hlog]
    exact h.unused.append (by simp)

theorem endCallback {q : Processing} (h : Custody s ts (some q)) :
    Custody (s.endCallback q.current) ts none := by
  have hlog : (s.endCallback q.current).log = s.log ++ [Happening.ended q.current] := rfl
  have hplaced := h.placed.update q.current (f := fun e =>
    { e with isInUse := false, refCount := e.refCount - 1 }) fun _ => ⟨rfl, rfl⟩
  refine ⟨⟨hplaced.home, hplaced.lt_next, hplaced.nodup, hplaced.primary⟩, fun x => ?_,
    fun x => ?_, fun x => ?_, h.noExit, fun x hx => ?_, by simp, fun x => ?_, ?_⟩
  · have hnone : List.count (.freed x) [Happening.ended q.current] = 0 := rfl
    rw [hlog, List.count_append, hnone]
    exact h.place x
  · have hnone : List.count (.removed x) [Happening.ended q.current] = 0 := rfl
    rw [hlog, List.count_append, hnone]
    exact h.node x
  · have := h.moved x
    rw [hlog, List.count_append, List.count_append]
    simpa using this
  · have hin := h.inUse x hx
    simp only [Option.map_some, Option.some.injEq] at hin
    simp only [EventMgr.endCallback, Option.map_none, reduceCtorEq, iff_false]
    by_cases hxid : x = q.current
    · subst hxid
      rw [update_entries_self]
      simp
    · rw [update_entries_of_ne s hxid, hin]
      exact Ne.symm hxid
  · have hrunning := h.running x
    simp only [Option.map_some, Option.some.injEq] at hrunning
    have hstarts : starts [.ended q.current] x = 0 := rfl
    rw [hlog, starts_append, ends_append, hstarts, hrunning]
    simp [ends, List.count_singleton]
  · rw [hlog]
    exact h.unused.append (by simp)

end Custody

/-! ## Safe steps -/

namespace Dispatcher

variable {ts : List Thread} {t : Thread} {d d' : Dispatcher} {s : EventMgr} {q : Processing}

/-- Where the events of its entry are not enabled, the entry is still in the lists and not in
use. -/
def FailsSafely (d : Dispatcher) (rc : EsifError) : Thread → Prop
  | .enabling id => enableEvent (d.mgr.entries id) rc ≠ esifOk →
    id ∈ d.mgr.observers ∧ (d.mgr.entries id).isInUse = false
  | _ => True

instance (d : Dispatcher) (rc : EsifError) : ∀ t, Decidable (d.FailsSafely rc t)
  | .enabling id => inferInstanceAs (Decidable (enableEvent (d.mgr.entries id) rc ≠ esifOk →
      id ∈ d.mgr.observers ∧ (d.mgr.entries id).isInUse = false))
  | .done | .adding _ _ | .exiting _ _ | .freeing _ | .dumping | .disposing _ => isTrue trivial

/-- A registration does not find an entry that is marked; an unregistration that finds an entry
in use finds it unmarked and leaves it another reference; and enabling fails safely. -/
def Safe (d : Dispatcher) : Action → Prop
  | .register ps o => (lookupEvent ps o esifEEventNotFound).isOk = true →
    ∀ id ∈ d.mgr.findEntry o, (d.mgr.entries id).markedForDelete = false
  | .unregister ps o => (lookupEvent ps o esifENotFound).isOk = true →
    ∀ id ∈ d.mgr.findRelease o, (d.mgr.entries id).isInUse = true →
      1 < (d.mgr.entries id).refCount ∧ (d.mgr.entries id).markedForDelete = false
  | .advance i rc => ∀ t ∈ d.threads[i]?, d.FailsSafely rc t
  | _ => True

instance (d : Dispatcher) : ∀ a, Decidable (d.Safe a)
  | .register ps o => inferInstanceAs (Decidable
      ((lookupEvent ps o esifEEventNotFound).isOk = true →
        ∀ id ∈ d.mgr.findEntry o, (d.mgr.entries id).markedForDelete = false))
  | .unregister ps o => inferInstanceAs (Decidable
      ((lookupEvent ps o esifENotFound).isOk = true →
        ∀ id ∈ d.mgr.findRelease o, (d.mgr.entries id).isInUse = true →
          1 < (d.mgr.entries id).refCount ∧ (d.mgr.entries id).markedForDelete = false))
  | .advance i rc => inferInstanceAs (Decidable (∀ t ∈ d.threads[i]?, d.FailsSafely rc t))
  | .unregisterAll _ _ | .delay _ | .unregisterRemoved | .signal _ | .pull _ _
  | .callbackReturns => isTrue trivial

/-- Every entry is in custody. -/
def InCustody (d : Dispatcher) : Prop := Custody d.mgr d.threads d.processing

theorem inCustody_start : start.InCustody := Custody.init

theorem not_exiting_append (h : ∀ fpcEvent x, .exiting fpcEvent x ∉ ts)
    (ht : ∀ fpcEvent x, t ≠ .exiting fpcEvent x) :
    ∀ fpcEvent x, .exiting fpcEvent x ∉ ts ++ [t] := by
  intro fpcEvent x hmem
  rcases List.mem_append.mp hmem with hmem | hmem
  · exact h fpcEvent x hmem
  · exact ht fpcEvent x (List.mem_singleton.mp hmem).symm

theorem not_exiting_set {i : Nat} (h : ∀ fpcEvent x, .exiting fpcEvent x ∉ ts)
    (ht : ∀ fpcEvent x, t ≠ .exiting fpcEvent x) :
    ∀ fpcEvent x, .exiting fpcEvent x ∉ ts.set i t := by
  intro fpcEvent x hmem
  rcases List.mem_or_eq_of_mem_set hmem with hmem | hmem
  · exact h fpcEvent x hmem
  · exact ht fpcEvent x hmem.symm

/-- A new thread that holds no entry. -/
theorem custody_spawn {p : Option Processing} (h : Custody s ts p) (hholds : ∀ x, t.holds x = 0)
    (ht : ∀ fpcEvent x, t ≠ .exiting fpcEvent x) : Custody s (ts ++ [t]) p :=
  h.threads (fun x => by rw [total_append_singleton, hholds, Nat.add_zero])
    (not_exiting_append h.noExit ht)

theorem custody_walkOn (h : Custody d.mgr d.threads none) {event : Event} {ids : List Nat}
    (hids : ∀ id ∈ ids, id ∈ d.mgr.observerLists (bucket event.eventType)) (dump : Bool) :
    (d.walkOn event ids dump).InCustody := by
  unfold walkOn
  split
  · rename_i id hnext
    exact h.startCallback dump (hids id (List.mem_of_find?_eq_some hnext))
  · simp only [InCustody]
    split
    · exact custody_spawn h (fun _ => rfl) (by simp)
    · exact h

theorem home_update (s : EventMgr) (id : Nat) {f : EventMgrEntry → EventMgrEntry}
    (hf : ∀ e, (f e).observer = e.observer) (x : Nat) : (s.update id f).home x = s.home x := by
  have hkey := congrArg Observer.eventType (key_update s id hf x)
  rw [key, key, norm_eventType, norm_eventType] at hkey
  exact congrArg bucket hkey

/-- A callback has returned, and its entry goes or stays. -/
theorem custody_leaveCallback (h : Custody s ts (some q)) :
    Custody (s.leaveCallback q) ts none := by
  have hmem := h.current q rfl
  have hhome : s.home q.current = bucket q.event.eventType := h.placed.home _ _ hmem
  have hend := h.endCallback
  have hend_home : (s.endCallback q.current).home q.current = s.home q.current :=
    home_update s q.current (f := fun e =>
      { e with isInUse := false, refCount := e.refCount - 1 }) (fun _ => rfl) _
  unfold leaveCallback
  simp only
  split
  · have hobs : q.current ∈ (s.endCallback q.current).observers := mem_observers.mpr ⟨_, hmem⟩
    have hgone := hend.discard hobs (by simp)
    rwa [hend_home, hhome] at hgone
  · exact hend

/-- What is left of the list of the event. -/
theorem leaveCallback_list (s : EventMgr) (q : Processing) :
    (s.leaveCallback q).observerLists (bucket q.event.eventType) =
      if (s.endCallback q.current).GoesAfter q.current then
        (s.observerLists (bucket q.event.eventType)).erase q.current
      else s.observerLists (bucket q.event.eventType) := by
  unfold leaveCallback
  simp only
  split
  · exact Function.update_self _ _ _
  · rfl

theorem mem_leaveCallback (hnodup : (s.observerLists (bucket q.event.eventType)).Nodup) {x : Nat}
    (hx : x ∈ s.nodesBehind q.event q.current) :
    x ∈ (s.leaveCallback q).observerLists (bucket q.event.eventType) := by
  have hold := mem_of_mem_behind hx
  rw [leaveCallback_list]
  split
  · refine (List.mem_erase_of_ne ?_).mpr hold
    -- the nodes behind the current one do not hold it again
    rintro rfl
    exact not_mem_behind hnodup _ hx
  · exact hold

theorem custody_callbackReturns (h : d.InCustody) (hq : d.processing = some q) :
    (d.callbackReturns q).InCustody := by
  have h : Custody d.mgr d.threads (some q) := hq ▸ h
  exact custody_walkOn (d := { d with mgr := d.mgr.leaveCallback q }) (custody_leaveCallback h)
    (fun x hx => mem_leaveCallback (h.placed.nodup _) hx) _

theorem custody_releaseEntry {p : Option Processing} (h : Custody s ts p) {o : Observer}
    (hsafe : ∀ id, s.findRelease o = some id → (s.entries id).isInUse = true →
      1 < (s.entries id).refCount ∧ (s.entries id).markedForDelete = false) :
    Custody (s.releaseEntry o) ts p := by
  have hreleased := h.placed.released o
  generalize s.releaseEntry o = s' at hreleased ⊢
  cases hreleased with
  | missing => exact h
  | dropped id => exact h.update id (fun _ => ⟨rfl, rfl⟩) fun _ => rfl
  | gone id hfind hid _ hgo =>
    have hdec := h.update id (f := decRef) (fun _ => ⟨rfl, rfl⟩) fun _ => rfl
    have hunused : p.map Processing.current ≠ some id := by
      intro hcur
      have huse := (h.inUse id (h.placed.lt_of_mem hid)).mpr hcur
      obtain ⟨hmore, hmarked⟩ := hsafe id hfind huse
      rcases hgo with hle | hm
      · omega
      · rw [hmarked] at hm
        cases hm
    rw [← home_update s id (f := decRef) fun _ => rfl]
    exact hdec.discard hid hunused

/-- What the thread held is exchanged for what it is going to hold. -/
theorem total_set_add {i : Nat} {t t' : Thread} (hi : ts[i]? = some t) {x n : Nat}
    (hholds : t'.holds x = t.holds x + n) :
    total (Thread.holds x) (ts.set i t') = total (Thread.holds x) ts + n := by
  have := total_set (f := Thread.holds x) hi t'
  omega

theorem custody_advance {i : Nat} {rc : EsifError} (h : d.InCustody) (hi : d.threads[i]? = some t)
    (hsafe : d.FailsSafely rc t) (hstep : d.advance i rc t = some d') : d'.InCustody := by
  have hkeep : ∀ {s : EventMgr} {t' : Thread}, Custody s d.threads d.processing →
      (∀ x, t'.holds x = t.holds x) → (∀ fpcEvent x, t' ≠ .exiting fpcEvent x) →
      Custody s (d.threads.set i t') d.processing := by
    intro s t' hs hholds ht'
    exact hs.threads (fun x => by simpa using total_set_add hi (n := 0) (hholds x))
      (not_exiting_set hs.noExit ht')
  cases t with
  | done => cases hstep
  | adding fpcEvent o =>
    cases hstep
    exact hkeep (h.insertEntry fpcEvent o) (fun _ => rfl) (by simp)
  | enabling id =>
    simp only [Dispatcher.advance] at hstep
    split at hstep
    · cases hstep
      exact hkeep h (fun _ => rfl) (by simp)
    · rename_i hfail
      cases hstep
      obtain ⟨hid, hunused⟩ := hsafe hfail
      have hcur : d.processing.map Processing.current ≠ some id := by
        intro hcur
        rw [(h.inUse id (h.placed.lt_of_mem hid)).mpr hcur] at hunused
        cases hunused
      refine h.nodeRemove hid hcur (fun x => total_set_add hi ?_)
        (not_exiting_set h.noExit (by simp))
      simp [Thread.holds, eq_comm]
  | exiting fpcEvent id => exact absurd (List.mem_of_getElem? hi) (h.noExit fpcEvent id)
  | freeing id =>
    cases hstep
    refine h.freeEntry (fun x => ?_) (not_exiting_set h.noExit (by simp))
    have := total_set (f := Thread.holds x) hi .done
    simp only [Thread.holds, eq_comm (a := id)] at this
    omega
  | dumping =>
    simp only [Dispatcher.advance] at hstep
    split at hstep
    · cases hstep
      exact hkeep h (fun _ => rfl) (by simp)
    · rename_i id mgr hpop
      cases hstep
      refine h.popGarbage hpop (fun x => total_set_add hi ?_) (not_exiting_set h.noExit (by simp))
      simp [Thread.holds, eq_comm]
  | disposing id =>
    cases hstep
    refine h.freeEntry (fun x => ?_) (not_exiting_set h.noExit (by simp))
    have := total_set (f := Thread.holds x) hi .dumping
    simp only [Thread.holds, eq_comm (a := id)] at this
    omega

/-- An item is taken off the queue. -/
theorem custody_process (h : Custody d.mgr d.threads none) (hidle : d.processing = none)
    (item : EventQueueItem) (event : Option Event) : (d.process item event).InCustody := by
  cases event with
  | none =>
    rw [← hidle] at h
    exact h
  | some event =>
    exact custody_walkOn (d := { d with
      delivery := some ⟨item, some event, []⟩, delivered := d.delivered ++ d.delivery.toList })
      h (fun _ hx => hx) false

/-- **A safe step** keeps every entry in custody. -/
theorem step_inCustody {a : Action} (hsafe : d.Safe a) (hstep : step d a = some d')
    (h : d.InCustody) : d'.InCustody := by
  cases a with
  | register ps o =>
    simp only [step] at hstep
    split at hstep
    · cases hstep
      exact h
    · rename_i fpcEvent hlookup
      cases hstep
      unfold Dispatcher.register
      split
      · rename_i id hfind
        rw [if_pos (hsafe (by rw [hlookup]; rfl) id hfind)]
        exact h.addRef id
      · exact custody_spawn h (fun _ => rfl) (by simp)
  | unregister ps o =>
    simp only [step] at hstep
    split at hstep
    · cases hstep
      exact h
    · rename_i fpcEvent hlookup
      cases hstep
      have hsafe := hsafe (by rw [hlookup]; rfl)
      exact custody_spawn (custody_releaseEntry h hsafe) (fun _ => rfl) (by simp)
  | unregisterAll callback context =>
    simp only [step] at hstep
    split at hstep
    · cases hstep
      exact h
    · split at hstep
      · cases hstep
        exact ⟨⟨h.placed.home, h.placed.lt_next, h.placed.nodup, h.placed.primary⟩, h.place, h.node,
          h.moved, h.noExit, h.inUse, h.current, h.running, h.unused⟩
      · cases hstep
        exact custody_spawn (h.unregisterApp callback context) (fun _ => rfl) (by simp)
  | delay delayed =>
    cases hstep
    exact ⟨⟨h.placed.home, h.placed.lt_next, h.placed.nodup, h.placed.primary⟩, h.place, h.node,
      h.moved, h.noExit, h.inUse, h.current, h.running, h.unused⟩
  | unregisterRemoved =>
    simp only [step] at hstep
    split at hstep
    · cases hstep
    · rename_i callback context rest _
      cases hstep
      have h' : Custody { d.mgr with appUnregisterList := rest } d.threads d.processing :=
        ⟨⟨h.placed.home, h.placed.lt_next, h.placed.nodup, h.placed.primary⟩, h.place, h.node,
          h.moved, h.noExit, h.inUse, h.current, h.running, h.unused⟩
      exact custody_spawn (h'.unregisterApp callback context) (fun _ => rfl) (by simp)
  | advance i rc =>
    obtain ⟨t, hi, hadvance⟩ := Option.bind_eq_some_iff.mp hstep
    exact custody_advance h hi (hsafe t hi) hadvance
  | signal item =>
    cases hstep
    exact h
  | pull mapped cached =>
    simp only [step] at hstep
    split at hstep
    · rename_i item eventQueue hidle hpull
      have hidle' : Custody d.mgr d.threads none := hidle ▸ h
      split at hstep
      · cases hstep
        exact h
      · rename_i item
        cases hstep
        exact custody_process (d := { d with eventQueue := eventQueue }) hidle' hidle _ _
    · cases hstep
  | callbackReturns =>
    obtain ⟨q, hq, rfl⟩ := Option.map_eq_some_iff.mp hstep
    exact custody_callbackReturns h hq

/-- **Every entry dies once and never in use**, in every run whose steps are safe. -/
theorem diesOnce_of_safe {as : List Action} {d : Dispatcher}
    (hsafe : EveryStep step Safe start as) (hrun : run step start as = some d) :
    DiesOnce d.mgr.log := by
  have h : d.InCustody := run_invariant_of_everyStep
    (fun _ _ _ hsafe hstep h => step_inCustody hsafe hstep h) hsafe hrun inCustody_start
  exact h.diesOnce

/-- One observer of display-off. -/
def displayOff : Observer := ⟨161, esifHandlePrimaryParticipant, eventMgrDomainD0, 1, 7⟩

/-- The primary participant has the event. -/
def displayOffOnly : Participants := fun _ => some [⟨161, .other⟩]

/-- The observer registers, and the event comes. -/
def called : List Action :=
  [.register displayOffOnly displayOff, .advance 0 esifOk, .advance 0 esifOk,
    .signal ⟨⟨esifHandlePrimaryParticipant, eventMgrDomainNa, 161, []⟩, false, false⟩,
    .pull none none]

theorem diesOnce_of_safe_called :
    ∃ d, run step start (called ++ [.unregisterAll 1 7, .callbackReturns, .advance 1 esifOk,
      .advance 1 esifOk]) = some d ∧ DiesOnce d.mgr.log := by
  have hsafe : EveryStep step Safe start (called ++ [.unregisterAll 1 7, .callbackReturns,
      .advance 1 esifOk, .advance 1 esifOk]) := by decide +kernel
  exact ⟨_, rfl, diesOnce_of_safe hsafe rfl⟩

/-- While the callback runs, the application is unregistered and then the observer once more:
the entry is freed in use. -/
theorem freedInUse_not_diesOnce :
    ∃ d, run step start (called ++ [.unregisterAll 1 7, .unregister displayOffOnly displayOff,
      .advance 2 esifOk, .advance 2 esifOk]) = some d ∧ ¬DiesOnce d.mgr.log := by
  refine ⟨_, rfl, fun h => ?_⟩
  have hunused := h.unused [.started 0 ⟨esifHandlePrimaryParticipant, eventMgrDomainNa, 161, []⟩,
    .moved 0, .removed 0] 0 [] rfl
  exact absurd hunused (by decide)

end Dispatcher

end Uf

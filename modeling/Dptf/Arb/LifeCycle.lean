import Dptf.Arb.Section

/-!
# Reference counts and the end of an entry

* `LifeCycleOk` — **the discipline** of the references to the entries of a context.
* `lifeCycleOk_of_noDefect` — without them every run keeps the discipline.
* `stopArbitration_destroys_twice` — two concurrent calls for one primitive
  destroy an entry twice and release a reference that nobody holds.
-/

open Lib

namespace Arb

/-! ## The discipline -/

/-- The entry whose `deleteEvent` a thread waits for. -/
def Thread.waitsFor : Thread → Option EntryPtr
  | .waiting p => some p
  | .createFailed p => some p
  | _ => none

/-- The references held to an entry, the table's among them. -/
def CtxState.held (s : CtxState) (a : EntryPtr) : Nat :=
  s.shared.ctx.entriesPtr.count a + total (Thread.refs a) s.threads

/-- How often an entry is in the table, taken out of it, or destroyed. -/
def CtxState.owners (s : CtxState) (a : EntryPtr) : Nat :=
  s.shared.ctx.entriesPtr.count a + total (Thread.owns a) s.threads +
    s.shared.destroyCalls.count a

/-- **The discipline**: a count is one for the table and one for each reference a thread
holds, and not negative; an entry is destroyed at most once; and who waits for the end of an
entry does not hold it. -/
structure LifeCycleOk (s : CtxState) : Prop where
  counted : ∀ (a : EntryPtr) (obj : EntryObj), s.shared.heap[a]? = some obj →
    obj.refCount =
      ((if a ∈ s.shared.ctx.entriesPtr then 1 else 0) + total (Thread.refs a) s.threads : Nat)
  noUnderflow : ∀ (a : EntryPtr) (obj : EntryObj), s.shared.heap[a]? = some obj →
    0 ≤ obj.refCount
  destroyOnce : ∀ a : EntryPtr, s.shared.destroyCalls.count a ≤ 1
  noOtherRef : ∀ t ∈ s.threads, ∀ a : EntryPtr, t.waitsFor = some a → t.refs a = 0

/-! ## The sections that break it -/

/-- The condition on a step of the context. -/
def NoDefect (s : CtxState) : CtxAction → Prop
  | .call _ => True
  | .step i allocs => ∀ t, s.threads[i]? = some t → NoDefectAt s.shared allocs t

instance (s : CtxState) (a : CtxAction) : Decidable (NoDefect s a) :=
  match a with
  | .call _ => isTrue trivial
  | .step i allocs =>
    match h : s.threads[i]? with
    | none => isTrue (by simp [NoDefect, h])
    | some t => decidable_of_iff (NoDefectAt s.shared allocs t) (by simp [NoDefect, h])

/-! ## Runs -/

/-- What every state reached keeps: the counts are right, every entry is in the table, taken
out of it or destroyed, and no thread waits for an entry that it could not insert. -/
structure LifeInv (s : CtxState) : Prop where
  counted : Counted (lives s.shared.heap) s.held
  owned : ∀ a, s.owners a = if a < s.shared.heap.length then 1 else 0
  inserted : ∀ t ∈ s.threads, ∀ p, t ≠ .createFailed p

theorem count_append_singleton (l : List EntryPtr) (p a : EntryPtr) :
    (l ++ [p]).count a = l.count a + if p = a then 1 else 0 := by
  rw [List.count_append, List.count_singleton]
  simp

theorem count_erase_add {l : List EntryPtr} {p : EntryPtr} (hp : p ∈ l) (a : EntryPtr) :
    (l.erase p).count a + (if p = a then 1 else 0) = l.count a := by
  by_cases hpa : p = a
  · subst hpa
    have := List.count_pos_iff.mpr hp
    rw [List.count_erase_self, if_pos rfl]
    omega
  · rw [List.count_erase_of_ne (Ne.symm hpa), if_neg hpa, Nat.add_zero]

section Step

variable {s s' : CtxState} {i : Nat} {allocs : Allocs} {t t' : Thread}

/-- The references held before and after a section. -/
theorem held_section (ht : s.threads[i]? = some t) (hthreads : s'.threads = s.threads.set i t')
    (a : EntryPtr) :
    s'.held a + (s.shared.ctx.entriesPtr.count a + t.refs a) =
      s.held a + (s'.shared.ctx.entriesPtr.count a + t'.refs a) := by
  have := total_set (f := Thread.refs a) ht t'
  rw [CtxState.held, CtxState.held, hthreads]
  omega

theorem owners_section (ht : s.threads[i]? = some t) (hthreads : s'.threads = s.threads.set i t')
    (a : EntryPtr) :
    s'.owners a + (s.shared.ctx.entriesPtr.count a + t.owns a + s.shared.destroyCalls.count a) =
      s.owners a +
        (s'.shared.ctx.entriesPtr.count a + t'.owns a + s'.shared.destroyCalls.count a) := by
  have := total_set (f := Thread.owns a) ht t'
  rw [CtxState.owners, CtxState.owners, hthreads]
  omega

/-- A section keeps the counts right, by the rule for what it does. -/
theorem counted_section (ht : s.threads[i]? = some t) (hthreads : s'.threads = s.threads.set i t')
    (heffect : Effect s.shared allocs t s'.shared t') (hok : NoDefectAt s.shared allocs t)
    (hinserted : ∀ p, t ≠ .createFailed p) (h : Counted (lives s.shared.heap) s.held) :
    Counted (lives s'.shared.heap) s'.held := by
  have hheld := held_section ht hthreads
  cases heffect with
  | quiet hlives htable _ hrefs _ =>
    rw [hlives]
    refine h.same fun a => ?_
    have := hheld a
    rw [htable, hrefs] at this
    omega
  | get p o ho hmarked hlives htable _ hrefs _ =>
    rw [hlives]
    refine h.get ho hmarked fun a => ?_
    have := hheld a
    rw [htable, hrefs] at this
    omega
  | put p hlives htable _ hrefs _ =>
    rw [hlives]
    refine h.put fun a => ?_
    have := hheld a
    rw [htable, ← hrefs] at this
    omega
  | create hlives htable _ hrefs _ =>
    rw [hlives]
    refine h.create fun a => ?_
    have := hheld a
    rw [htable, hrefs, count_append_singleton] at this
    rw [length_lives]
    omega
  | insertFails hfails => exact absurd hok hfails
  | remove p ht hlives htable _ hrefs _ =>
    have hp : p ∈ s.shared.ctx.entriesPtr := by
      rw [ht] at hok
      exact hok
    rw [hlives]
    refine h.same fun a => ?_
    have := hheld a
    rw [htable, hrefs, ← count_erase_add hp a] at this
    omega
  | mark p hp hlives htable _ hrefs _ =>
    rw [hlives]
    have hsame : Counted (lives s.shared.heap) s'.held := by
      refine h.same fun a => ?_
      have := hheld a
      rw [htable, hrefs] at this
      omega
    refine hsame.mark ?_
    have hmem := le_total_of_mem (f := Thread.refs p) (List.mem_of_getElem? ht)
    have := hheld p
    rw [htable, hrefs] at this
    simp only [CtxState.held] at this ⊢
    omega
  | free p o ho hevent hlives htable _ hrefs _ =>
    have hrefs : ∀ a, t'.refs a = t.refs a := hrefs.resolve_left fun h => hinserted p h.1
    rw [hlives]
    have hsame : Counted (lives s.shared.heap) s'.held := by
      refine h.same fun a => ?_
      have := hheld a
      rw [htable, hrefs] at this
      omega
    exact hsame.free ho hevent

/-- A section leaves every entry at one place: in the table, taken out of it, or destroyed. -/
theorem owned_section (ht : s.threads[i]? = some t) (hthreads : s'.threads = s.threads.set i t')
    (heffect : Effect s.shared allocs t s'.shared t') (hok : NoDefectAt s.shared allocs t)
    (h : ∀ a, s.owners a = if a < s.shared.heap.length then 1 else 0) (a : EntryPtr) :
    s'.owners a = if a < s'.shared.heap.length then 1 else 0 := by
  have howners := owners_section ht hthreads a
  have hlength : ∀ {n : Nat}, (lives s'.shared.heap).length = n → s'.shared.heap.length = n := by
    intro n hn
    rwa [length_lives] at hn
  rw [h a] at howners
  cases heffect with
  | quiet hlives htable hcalls _ howns =>
    rw [hlength (by rw [hlives, length_lives])]
    rw [htable, hcalls, howns] at howners
    omega
  | get _ _ _ _ hlives htable hcalls _ howns | put _ hlives htable hcalls _ howns
  | free _ _ _ _ hlives htable hcalls _ howns =>
    rw [hlength (by rw [hlives, List.length_modify, length_lives])]
    rw [htable, hcalls, howns] at howners
    omega
  | create hlives htable hcalls _ howns =>
    rw [hlength (by rw [hlives, List.length_append, length_lives, List.length_singleton])]
    rw [htable, hcalls, howns, count_append_singleton] at howners
    rcases Nat.lt_trichotomy a s.shared.heap.length with hlt | heq | hgt
    · rw [if_pos hlt, if_neg (Nat.ne_of_gt hlt)] at howners
      rw [if_pos (Nat.lt_succ_of_lt hlt)]
      omega
    · rw [if_neg (Nat.not_lt.mpr heq.ge), if_pos heq.symm] at howners
      rw [if_pos (heq ▸ Nat.lt_succ_self _)]
      omega
    · rw [if_neg (Nat.not_lt.mpr hgt.le), if_neg (Nat.ne_of_lt hgt)] at howners
      rw [if_neg (Nat.not_lt.mpr hgt)]
      omega
  | insertFails hfails => exact absurd hok hfails
  | remove p ht hlives htable hcalls _ howns =>
    have hp : p ∈ s.shared.ctx.entriesPtr := by
      rw [ht] at hok
      exact hok
    rw [hlength (by rw [hlives, length_lives])]
    rw [htable, hcalls, howns, ← count_erase_add hp a] at howners
    omega
  | mark p _ hlives htable hcalls _ howns =>
    rw [hlength (by rw [hlives, List.length_modify, length_lives])]
    rw [htable, hcalls, ← howns, count_append_singleton] at howners
    omega

end Step

/-- A step that is not one of the two keeps the invariant. -/
theorem ctxStep_lifeInv (s : CtxState) (a : CtxAction) (s' : CtxState) (hok : NoDefect s a)
    (hstep : ctxStep s a = some s') (h : LifeInv s) : LifeInv s' := by
  cases a with
  | call call =>
    cases hstep
    refine ⟨h.counted.same fun a => ?_, fun a => ?_, ?_⟩
    · simp [CtxState.held, Thread.refs]
    · simpa [CtxState.owners, Thread.owns] using h.owned a
    · intro t ht
      rcases List.mem_append.mp ht with ht | ht
      · exact h.inserted t ht
      · obtain rfl := List.mem_singleton.mp ht
        intro a ha
        cases ha
  | step i allocs =>
    obtain ⟨t, t', ht, hthread, hthreads⟩ := ctxStep_eq_some hstep
    have hmem : t ∈ s.threads := List.mem_of_getElem? ht
    obtain ⟨heffect, hinserted, -⟩ := threadStep_section hthread
    refine ⟨counted_section ht hthreads heffect (hok t ht) (h.inserted t hmem) h.counted,
      owned_section ht hthreads heffect (hok t ht) h.owned, ?_⟩
    intro u hu
    rw [hthreads] at hu
    rcases List.mem_or_eq_of_mem_set hu with hu | rfl
    · exact h.inserted u hu
    · exact hinserted (hok t ht)

theorem lifeInv_init (participantId : EsifHandle) (table : List EsifArbEntryParams) :
    LifeInv (CtxState.init participantId table) := by
  have hcount : ∀ a, (List.range table.length).count a = if a < table.length then 1 else 0 := by
    intro a
    rw [List.nodup_range.count]
    simp
  refine ⟨⟨?_, ?_⟩, fun a => ?_, nofun⟩
  · intro a o ho
    obtain ⟨hlt, rfl⟩ := List.getElem?_eq_some_iff.mp ho
    have hheld : (CtxState.init participantId table).held a = 1 := by
      have hlt' : a < table.length := by simpa [CtxState.init] using hlt
      simp [CtxState.held, CtxState.init, hcount, hlt']
    rw [hheld]
    simp only [lives, CtxState.init, List.getElem_map]
    exact Life.Ok.fresh
  · intro a ha
    have := hcount a
    simp only [CtxState.held, CtxState.init, total_nil] at ha
    simp only [CtxState.init, length_lives, List.length_map]
    split_ifs at this <;> omega
  · simp [CtxState.owners, CtxState.init, hcount]

theorem LifeInv.lifeCycleOk {s : CtxState} (h : LifeInv s) : LifeCycleOk s := by
  have hobj : ∀ (a : EntryPtr) (obj : EntryObj), s.shared.heap[a]? = some obj →
      obj.refCount = s.held a := by
    intro a obj hobj
    exact (h.counted.ok a obj.life (by simp [getElem?_lives, hobj])).counted
  have howned : ∀ a, s.owners a ≤ 1 := by
    intro a
    rw [h.owned a]
    split <;> omega
  refine ⟨?_, ?_, ?_, ?_⟩
  · intro a obj ha
    have := howned a
    rw [hobj a obj ha, CtxState.held]
    congr 2
    split_ifs with hmem
    · have := List.count_pos_iff.mpr hmem
      simp only [CtxState.owners] at *
      omega
    · exact List.count_eq_zero_of_not_mem hmem
  · intro a obj ha
    rw [hobj a obj ha]
    exact Int.natCast_nonneg _
  · intro a
    have := howned a
    simp only [CtxState.owners] at this
    omega
  · intro t ht a hwait
    cases t with
    | waiting p => rfl
    | createFailed p => exact absurd rfl (h.inserted _ ht p)
    | _ => cases hwait

/-- **The life cycle of the entries.**  In every run in which no insertion of a new entry
fails and no thread removes an entry that has left the table, each count is what is held,
and entries are destroyed once, by a thread that does not hold them. -/
theorem lifeCycleOk_of_noDefect {participantId : EsifHandle} {table : List EsifArbEntryParams}
    {s : CtxState} {actions : List CtxAction}
    (hok : EveryStep ctxStep NoDefect (CtxState.init participantId table) actions)
    (hrun : run ctxStep (CtxState.init participantId table) actions = some s) : LifeCycleOk s :=
  (run_invariant_of_everyStep ctxStep_lifeInv hok hrun
    (lifeInv_init participantId table)).lifeCycleOk

/-- A fan's entry has its limits set, is asked for a level by one thread and stopped by
another at the same time. -/
def stopWhileExecuting : List CtxAction :=
  let ok : Allocs := ⟨true, true, true⟩
  [.call (.setLimits setFanLevel esifPrimitiveDomainD0 255 (some 80) (some 20) true),
    .call (.executePrimitive setFanLevel esifPrimitiveDomainD0 255 7 0 (some (uint32Data 50))),
    .call (.stopArbitration setFanLevel esifPrimitiveDomainD0 255)] ++
  ([0, 1, 2, 2, 2, 1, 2, 2, 2, 2, 1, 2, 2].map fun i => CtxAction.step i ok)

theorem lifeCycleOk_of_noDefect_stopWhileExecuting :
    ∃ s, run ctxStep (CtxState.init 1 fanArbTable) stopWhileExecuting = some s ∧
      s.shared.destroyCalls = [0] ∧ LifeCycleOk s := by
  have hok : EveryStep ctxStep NoDefect (CtxState.init 1 fanArbTable) stopWhileExecuting := by
    decide +kernel
  have hcalls : (run ctxStep (CtxState.init 1 fanArbTable) stopWhileExecuting).map
      (fun s => s.shared.destroyCalls) = some [0] := by
    decide +kernel
  obtain ⟨s, hrun, hcalls⟩ := Option.map_eq_some_iff.mp hcalls
  exact ⟨s, hrun, hcalls, lifeCycleOk_of_noDefect hok hrun⟩

/-- Two threads stop the arbitration of a fan at the same time: both find the entry before
either removes it. -/
def twoStops : List CtxAction :=
  let stop := Call.stopArbitration setFanLevel esifPrimitiveDomainD0 255
  let ok : Allocs := ⟨true, true, true⟩
  [.call stop, .call stop] ++
  ([0, 0, 0, 1, 1, 1, 0, 0, 1, 1, 0, 1, 0, 1, 0, 1].map fun i => CtxAction.step i ok)

/-- The entry is destroyed twice, and its count is below zero. -/
theorem stopArbitration_destroys_twice :
    ∃ s, run ctxStep (CtxState.init 1 fanArbTable) twoStops = some s ∧
      s.shared.destroyCalls.count 0 = 2 ∧
      (∃ obj, s.shared.heap[0]? = some obj ∧ obj.refCount < 0) ∧ ¬ LifeCycleOk s := by
  have hend : (run ctxStep (CtxState.init 1 fanArbTable) twoStops).map
      (fun s => (s.shared.destroyCalls, s.shared.heap[0]?.map EntryObj.refCount)) =
        some ([0, 0], some (-1)) := by
    decide +kernel
  obtain ⟨s, hrun, hend⟩ := Option.map_eq_some_iff.mp hend
  obtain ⟨hcalls, hcount⟩ := Prod.mk.inj hend
  obtain ⟨obj, hobj, hcount⟩ := Option.map_eq_some_iff.mp hcount
  have htwo : s.shared.destroyCalls.count 0 = 2 := by rw [hcalls]; rfl
  refine ⟨s, hrun, htwo, ⟨obj, hobj, by omega⟩, ?_⟩
  intro h
  have := h.destroyOnce 0
  omega

end Arb

import Dptf.Arb.Section

/-!
# Removing an application from a context

`EsifArbCtx_RemoveApp` walks over the entries with an iterator that is an index, while
other threads remove entries from the table and add new ones.

* `removeApp_leaves_no_request` — **if every step skips nothing, no entry of the table
  holds a request of the application** when the walk is done.
* `removeApp_skips_entry` — a removal at the iterator makes it miss the next entry.
-/

open Lib

namespace Arb

variable {app : EsifHandle} {new req : EsifArbReq} {entry : EsifArbEntry}
  {arbFunc : Option ArbitratorFunc}

/-! ## Requests of an application -/

/-- The entry behind the pointer holds a request of the application. -/
def HoldsRequestOf (app : EsifHandle) (heap : Heap) (p : EntryPtr) : Prop :=
  ∃ obj ∈ heap[p]?, ∃ req ∈ obj.entry.arbRequests, req.appHandle = app

instance (app : EsifHandle) (heap : Heap) (p : EntryPtr) :
    Decidable (HoldsRequestOf app heap p) :=
  decidable_of_iff
    (heap[p]?.any (fun obj => obj.entry.arbRequests.any fun req => req.appHandle = app) = true)
    (by simp [HoldsRequestOf, Option.any_eq_true])

/-- The entry has no request of the application. -/
def NoRequestOf (app : EsifHandle) (entry : EsifArbEntry) : Prop :=
  ∀ req ∈ entry.arbRequests, req.appHandle ≠ app

theorem not_holdsRequestOf_iff {heap : Heap} {p : EntryPtr} :
    ¬ HoldsRequestOf app heap p ↔ EntryAt (NoRequestOf app) heap p := by
  simp [HoldsRequestOf, EntryAt, NoRequestOf]

theorem mem_arbitrateLoop {isInserted isOldRemoved : Bool} {list : List EsifArbReq}
    (h : req ∈ (arbitrateLoop arbFunc new isInserted isOldRemoved list).2) :
    req = new ∨ req ∈ list := by
  induction list generalizing isInserted isOldRemoved with
  | nil => simp [arbitrateLoop] at h
  | cons cur rest ih =>
    unfold arbitrateLoop at h
    split at h
    · exact .inr h
    · split at h
      · exact (ih h).imp_right (List.mem_cons_of_mem _)
      · split at h
        · rcases List.mem_cons.mp h with rfl | h
          · exact .inl rfl
          · rcases List.mem_cons.mp h with rfl | h
            · exact .inr List.mem_cons_self
            · exact (ih h).imp_right (List.mem_cons_of_mem _)
        · rcases List.mem_cons.mp h with rfl | h
          · exact .inr List.mem_cons_self
          · exact (ih h).imp_right (List.mem_cons_of_mem _)

theorem mem_arbitrate {list : List EsifArbReq} (h : req ∈ arbitrate arbFunc list new) :
    req = new ∨ req ∈ list := by
  unfold arbitrate at h
  simp only at h
  split at h
  · exact mem_arbitrateLoop h
  · rcases List.mem_append.mp h with h | h
    · exact mem_arbitrateLoop h
    · exact .inl (List.mem_singleton.mp h)

theorem NoRequestOf.arbitrateRequest (h : NoRequestOf app entry) (hnew : new.appHandle ≠ app) :
    NoRequestOf app (entry.arbitrateRequest new) := by
  intro req hreq
  rcases mem_arbitrate hreq with rfl | hreq
  · exact hnew
  · exact h req hreq

theorem NoRequestOf.rearbitrateRequests (h : NoRequestOf app entry) :
    NoRequestOf app entry.rearbitrateRequests := by
  have hfold : ∀ (list : List EsifArbReq) (self : EsifArbEntry),
      (∀ req ∈ list, req.appHandle ≠ app) → NoRequestOf app self →
      NoRequestOf app (list.foldl EsifArbEntry.arbitrateRequest self) := by
    intro list
    induction list with
    | nil => exact fun _ _ hself => hself
    | cons new rest ih =>
      intro self hlist hself
      exact ih _ (fun req hreq => hlist req (List.mem_cons_of_mem _ hreq))
        (hself.arbitrateRequest (hlist new List.mem_cons_self))
  exact hfold entry.arbRequests _ h (by simp [NoRequestOf])

/-- Only a request of the application itself brings one of it into an entry. -/
theorem NoRequestOf.apply {op : EntryOp} (h : NoRequestOf app entry)
    (hop : ∀ addr request, op ≠ .executePrimitive addr app request) :
    NoRequestOf app (entry.apply op).1 := by
  cases op with
  | executePrimitive addr app' request =>
    have happ : app' ≠ app := by
      rintro rfl
      exact hop addr request rfl
    show NoRequestOf app (entry.executePrimitive addr app' request).2.1
    unfold EsifArbEntry.executePrimitive
    split
    · cases request with
      | none => exact h
      | some request => exact h.arbitrateRequest happ
    · exact h
  | removeApp app' => exact fun req hreq => h req (List.mem_of_mem_filter hreq)
  | setArbitrationFunction arbType =>
    show NoRequestOf app (entry.setArbitrationFunction arbType).2.1
    unfold EsifArbEntry.setArbitrationFunction
    split
    · have hretyped : NoRequestOf app (entry.withArbType arbType) := h
      exact hretyped.rearbitrateRequests
    · exact h
  | setLimits upperLimit lowerLimit =>
    show NoRequestOf app (entry.setLimits upperLimit lowerLimit).2.1
    unfold EsifArbEntry.setLimits
    simp only
    split
    · split <;> exact h
    · exact h
  | setArbitrationState isEnabled =>
    cases isEnabled with
    | true => exact h
    | false => exact nofun
  | purgeRequests => exact nofun

/-- `EsifArbEntry_RemoveApp` leaves no request of the application. -/
theorem noRequestOf_removeApp (app : EsifHandle) (entry : EsifArbEntry) :
    NoRequestOf app (entry.removeApp app).1 := by
  intro req hreq
  simpa using List.of_mem_filter hreq

/-- A thread that makes no request of the application applies no such operation. -/
theorem Thread.Applies.ne {t : Thread} {op : EntryOp} (h : t.Applies op) (ht : t.issuer ≠ some app)
    (addr : Nat) (request : Option EsifData) : op ≠ .executePrimitive addr app request := by
  rintro rfl
  cases t with
  | executing p app' addr' request' =>
    obtain ⟨-, rfl, -⟩ := EntryOp.executePrimitive.inj h
    exact ht rfl
  | start call =>
    cases call with
    | setArbitrationState => exact h.elim nofun nofun
    | _ => cases h
  | visiting job =>
    cases job with
    | _ => cases h
  | _ => cases h

/-- Sections of threads that make no request of the application bring none into an entry. -/
theorem threadStep_noRequestOf {s s' : Shared} {allocs : Allocs} {t t' : Thread}
    (hstep : threadStep s allocs t = some (s', t')) (ht : t.issuer ≠ some app) {a : EntryPtr}
    (h : EntryAt (NoRequestOf app) s.heap a) : EntryAt (NoRequestOf app) s'.heap a :=
  threadStep_entryAt hstep (fun _ _ => nofun) (fun _ hop _ hentry => hentry.apply (hop.ne ht)) h

/-! ## The walk -/

/-- The slots that the iterator of a thread has behind it. -/
def Thread.passed : Thread → Nat
  | .next _ index none => index
  | .next _ index (some _) => index + 1
  | .scanning _ index => index
  | .visiting _ index _ => index + 1
  | _ => 0

/-- The entry a thread has got from its iterator. -/
def Thread.visits : Thread → Option EntryPtr
  | .visiting _ _ p => some p
  | _ => none

/-- The entry a thread takes out of the table in its next section. -/
def Thread.removes : Thread → Option EntryPtr
  | .removing p => some p
  | _ => none

/-- A place of `EsifArbCtx_RemoveApp` for the application. -/
def Thread.RemovesApp (app : EsifHandle) : Thread → Prop
  | .start (.removeApp app') => app' = app
  | .next (.removeApp app') _ _ => app' = app
  | .scanning (.removeApp app') _ => app' = app
  | .visiting (.removeApp app') _ _ => app' = app
  | .done => True
  | _ => False

/-- The condition on a step, for the walk of thread `i`: an entry behind its iterator is
removed only if the entry at the iterator holds no request of the application. -/
def SkipsNothing (app : EsifHandle) (i : Nat) (s : CtxState) : CtxAction → Prop
  | .call _ => True
  | .step j _ =>
    ∀ t ∈ s.threads[i]?, ∀ u ∈ s.threads[j]?, ∀ p ∈ u.removes,
      p ∈ s.shared.ctx.entriesPtr.take t.passed →
        ∀ q ∈ s.shared.ctx.entriesPtr[t.passed]?, ¬ HoldsRequestOf app s.shared.heap q

instance (app : EsifHandle) (i : Nat) (s : CtxState) : ∀ a, Decidable (SkipsNothing app i s a)
  | .call _ => isTrue trivial
  | .step j _ => inferInstanceAs (Decidable (∀ t ∈ s.threads[i]?, ∀ u ∈ s.threads[j]?,
      ∀ p ∈ u.removes, p ∈ s.shared.ctx.entriesPtr.take t.passed →
        ∀ q ∈ s.shared.ctx.entriesPtr[t.passed]?, ¬ HoldsRequestOf app s.shared.heap q))

/-- **What the walk has done**: the entries behind the iterator, but for the one it is on,
hold no request of the application; at its end none does. -/
structure Progress (app : EsifHandle) (s : Shared) (t : Thread) : Prop where
  walk : t.RemovesApp app
  passed : Passed (fun q => t.visits = some q ∨ EntryAt (NoRequestOf app) s.heap q)
    s.ctx.entriesPtr t.passed
  finished : t = .done → ∀ q ∈ s.ctx.entriesPtr, EntryAt (NoRequestOf app) s.heap q

section Walk

variable {app : EsifHandle} {s s' : Shared} {allocs : Allocs} {t t' u u' : Thread}

theorem Thread.RemovesApp.issuer_ne (h : t.RemovesApp app) : t.issuer ≠ some app := by
  cases t with
  | start call =>
    cases call with
    | executePrimitive => cases h
    | _ => exact nofun
  | executing => cases h
  | _ => exact nofun

/-- A section of the walk goes on with it. -/
theorem progress_own (halive : ∀ p ∈ s.ctx.entriesPtr, Alive (lives s.heap) p)
    (hstep : threadStep s allocs t = some (s', t')) (h : Progress app s t) :
    Progress app s' t' := by
  obtain ⟨hwalk, hpassed, -⟩ := h
  have hkeep : ∀ q, EntryAt (NoRequestOf app) s.heap q → EntryAt (NoRequestOf app) s'.heap q :=
    fun q => threadStep_noRequestOf hstep hwalk.issuer_ne
  cases t with
  | start call =>
    cases call with
    | removeApp app' =>
      cases hstep
      exact ⟨hwalk, passed_zero, nofun⟩
    | _ => cases hwalk
  | next job index held =>
    cases job with
    | stopArbitration => cases hwalk
    | removeApp app' =>
      cases held with
      | none =>
        cases hstep
        exact ⟨hwalk, hpassed, nofun⟩
      | some p =>
        cases hstep
        exact ⟨hwalk, hpassed.mono fun q _ hq => hq.imp nofun (hkeep q), nofun⟩
  | scanning job index =>
    cases job with
    | stopArbitration => cases hwalk
    | removeApp app' =>
      have hrun := underCtxLock_eq_some hstep
      have hpassed : Passed (EntryAt (NoRequestOf app) s.heap) s.ctx.entriesPtr index :=
        hpassed.mono fun q _ hq => hq.resolve_left nofun
      split at hrun
      · rename_i k p heap hnext
        obtain ⟨rfl, rfl⟩ := Prod.mk.inj hrun
        obtain ⟨skipped, rest, hslots, rfl, hskipped, -, rfl⟩ := nextEntry_eq_some hnext
        -- every entry of the table gives a reference, so the iterator skips none
        have hnil : skipped = [] := by
          refine List.eq_nil_iff_forall_not_mem.mpr fun q hq => hskipped q hq ?_
          refine getRef_of_alive (halive q (List.mem_of_mem_drop (i := index) ?_))
          rw [hslots]
          exact List.mem_append_left _ hq
        subst hnil
        refine ⟨hwalk, ?_, nofun⟩
        have hat : s.ctx.entriesPtr[index]? = some p := by
          have := congrArg List.head? hslots
          rwa [List.head?_drop] at this
        refine (hpassed.mono fun q _ hq => .inr (hkeep q hq)).succ fun q hq => .inl ?_
        exact hat.symm.trans hq
      · rename_i heap hnext
        obtain ⟨rfl, rfl⟩ := Prod.mk.inj hrun
        have hlength : s.ctx.entriesPtr.length ≤ index := by
          by_contra hlt
          have hmem : s.ctx.entriesPtr[index] ∈ s.ctx.entriesPtr.drop index := by
            rw [List.drop_eq_getElem_cons (Nat.not_le.mp hlt)]
            exact List.mem_cons_self
          exact nextEntry_eq_none hnext _ hmem
            (getRef_of_alive (halive _ (List.mem_of_mem_drop hmem)))
        exact ⟨trivial, passed_zero, fun _ => hpassed.all hlength⟩
  | visiting job index p =>
    cases job with
    | stopArbitration => cases hwalk
    | removeApp app' =>
      obtain rfl : app' = app := hwalk
      cases hstep
      refine ⟨rfl, hpassed.mono fun q _ hq => .inr ?_, nofun⟩
      rcases hq with hq | hq
      · obtain rfl : p = q := Option.some.inj hq
        intro obj hobj
        rw [updateEntry, List.getElem?_modify_eq] at hobj
        obtain ⟨obj₀, -, rfl⟩ := Option.map_eq_some_iff.mp hobj
        exact noRequestOf_removeApp app' obj₀.entry
      · exact hkeep q hq
  | done => cases hstep
  | _ => cases hwalk

/-- A section of another thread leaves the walk where it is, if it skips nothing. -/
theorem progress_other (hstep : threadStep s allocs u = some (s', u')) (hu : u.issuer ≠ some app)
    (hskip : ∀ p ∈ u.removes, p ∈ s.ctx.entriesPtr.take t.passed →
      ∀ q ∈ s.ctx.entriesPtr[t.passed]?, EntryAt (NoRequestOf app) s.heap q)
    (h : Progress app s t) : Progress app s' t := by
  have hkeep : ∀ q, EntryAt (NoRequestOf app) s.heap q → EntryAt (NoRequestOf app) s'.heap q :=
    fun q => threadStep_noRequestOf hstep hu
  have hnew : EntryAt (NoRequestOf app) s'.heap s.heap.length := by
    refine hkeep _ fun obj hobj => ?_
    rw [List.getElem?_eq_none (Nat.le_refl _)] at hobj
    cases hobj
  obtain ⟨hwalk, hpassed, hfinished⟩ := h
  have hpassed' : Passed (fun q => t.visits = some q ∨ EntryAt (NoRequestOf app) s'.heap q)
      s.ctx.entriesPtr t.passed := hpassed.mono fun q _ hq => hq.imp_right (hkeep q)
  rcases (threadStep_section hstep).effect.table_cases with htable | ⟨p, rfl, htable⟩ | htable
  · rw [← htable] at hpassed' hfinished
    exact ⟨hwalk, hpassed', fun hdone q hq => hkeep q (hfinished hdone q hq)⟩
  · refine ⟨hwalk, ?_, fun hdone q hq => ?_⟩
    · rw [htable]
      exact hpassed'.erase fun hp q hq => .inr (hkeep q (hskip p rfl hp q hq))
    · exact hkeep q (hfinished hdone q (List.mem_of_mem_erase (htable ▸ hq)))
  · refine ⟨hwalk, ?_, fun hdone q hq => ?_⟩
    · rw [htable]
      exact hpassed'.append fun q hq => .inr (List.mem_singleton.mp hq ▸ hnew)
    · rcases List.mem_append.mp (htable ▸ hq) with hq | hq
      · exact hkeep q (hfinished hdone q hq)
      · exact List.mem_singleton.mp hq ▸ hnew

end Walk

/-! ## Runs -/

/-- What every step of the run keeps, the walk being that of thread `i`. -/
structure WalkInv (app : EsifHandle) (i : Nat) (s : CtxState) : Prop where
  table : TableOk s
  issuer : ∀ u ∈ s.threads, u.issuer ≠ some app
  walk : ∃ t, s.threads[i]? = some t ∧ Progress app s.shared t

/-- A call that makes no request of the application. -/
def CtxAction.NoRequestFor (app : EsifHandle) : CtxAction → Prop
  | .call request => (Thread.start request).issuer ≠ some app
  | .step _ _ => True

theorem ctxStep_walkInv {i : Nat} (s : CtxState) (a : CtxAction) (s' : CtxState)
    (hok : SkipsNothing app i s a ∧ a.NoRequestFor app) (hstep : ctxStep s a = some s')
    (h : WalkInv app i s) : WalkInv app i s' := by
  obtain ⟨htable, hissuer, t, ht, hwalk⟩ := h
  have htable' : TableOk s' := ctxStep_tableOk s a s' hstep htable
  cases a with
  | call call =>
    cases hstep
    refine ⟨htable', fun u hu => ?_, t, ?_, hwalk⟩
    · rcases List.mem_append.mp hu with hu | hu
      · exact hissuer u hu
      · exact List.mem_singleton.mp hu ▸ hok.2
    · show (s.threads ++ _)[i]? = some t
      rw [List.getElem?_append_left (List.getElem?_eq_some_iff.mp ht).1, ht]
  | step j allocs =>
    obtain ⟨u, u', hu, hthread, hthreads⟩ := ctxStep_eq_some hstep
    have hissuer' : ∀ v ∈ s'.threads, v.issuer ≠ some app := by
      intro v hv
      rcases List.mem_or_eq_of_mem_set (hthreads ▸ hv) with hv | rfl
      · exact hissuer v hv
      · intro happ
        exact hissuer u (List.mem_of_getElem? hu) ((threadStep_section hthread).issuer app happ)
    by_cases hij : j = i
    · subst hij
      obtain rfl : u = t := Option.some.inj (hu.symm.trans ht)
      refine ⟨htable', hissuer', u', ?_, progress_own htable.alive hthread hwalk⟩
      rw [hthreads, List.getElem?_set_self (List.getElem?_eq_some_iff.mp hu).1]
    · refine ⟨htable', hissuer', t, ?_, progress_other hthread
        (hissuer u (List.mem_of_getElem? hu)) ?_ hwalk⟩
      · rw [hthreads, List.getElem?_set_ne hij, ht]
      · intro p hp hpassed q hq
        exact not_holdsRequestOf_iff.mp (hok.1 t ht u hu p hp hpassed q hq)

/-- **No request of a removed application survives**, if no removal makes the walk skip one:
when `EsifArbCtx_RemoveApp` is done, no entry of the table holds a request of the
application. -/
theorem removeApp_leaves_no_request {participantId : EsifHandle}
    {table : List EsifArbEntryParams} {before during : List CtxAction} {s₀ s : CtxState}
    {app : EsifHandle}
    (hbefore : run ctxStep (CtxState.init participantId table) before = some s₀)
    (hissuer : ∀ u ∈ s₀.threads, u.issuer ≠ some app)
    (hnone : ∀ a ∈ during, a.NoRequestFor app)
    (hskip : EveryStep ctxStep (SkipsNothing app s₀.threads.length) s₀
      (.call (.removeApp app) :: during))
    (hduring : run ctxStep s₀ (.call (.removeApp app) :: during) = some s)
    (hdone : s.threads[s₀.threads.length]? = some .done) :
    ∀ p ∈ s.shared.ctx.entriesPtr, ¬ HoldsRequestOf app s.shared.heap p := by
  obtain ⟨s₁, hcall, hrun⟩ := run_cons_eq_some hduring
  have hinv : WalkInv app s₀.threads.length s₁ := by
    have htable := ctxStep_tableOk s₀ _ s₁ hcall (tableOk_of_run hbefore)
    obtain rfl := Option.some.inj hcall
    refine ⟨htable, fun u hu => ?_, .start (.removeApp app), by simp, rfl, passed_zero, nofun⟩
    rcases List.mem_append.mp hu with hu | hu
    · exact hissuer u hu
    · exact List.mem_singleton.mp hu ▸ nofun
  have hend : WalkInv app s₀.threads.length s := by
    refine run_invariant_of_everyStep ctxStep_walkInv ?_ hrun hinv
    exact (hskip.2 s₁ hcall).and_of_mem hnone
  obtain ⟨-, -, t, ht, hwalk⟩ := hend
  obtain rfl : t = .done := Option.some.inj (ht.symm.trans hdone)
  exact fun p hp => not_holdsRequestOf_iff.mpr (hwalk.finished rfl p hp)

/-! ## A walk that skips nothing, and one that does -/

/-- Application 7 asks for the second power limit of a wireless adapter. -/
def requestOfApp : List CtxAction :=
  [.call (.executePrimitive setRaplPowerLimit esifPrimitiveDomainD0 1 7 0
      (some (uint32Data 50)))] ++
    ([0, 0, 0].map fun i => CtxAction.step i ⟨true, true, true⟩)

/-- While thread 1 removes application 7 and is on its first entry, thread 2 stops the
arbitration of the power limit `inst`; then thread 1 goes on to its end. -/
def stopDuringRemoveApp (inst : UInt8) : List CtxAction :=
  [.call (.stopArbitration setRaplPowerLimit esifPrimitiveDomainD0 inst)] ++
    (([1, 1, 1] ++ List.replicate (if inst = 0 then 5 else 11) 2 ++ List.replicate 12 1).map
      fun i => CtxAction.step i ⟨true, true, true⟩)

instance (app : EsifHandle) : ∀ a : CtxAction, Decidable (a.NoRequestFor app)
  | .call request => inferInstanceAs (Decidable ((Thread.start request).issuer ≠ some app))
  | .step _ _ => isTrue trivial

/-- The walk is done. -/
def Thread.isDone : Thread → Bool
  | .done => true
  | _ => false

theorem removeApp_leaves_no_request_powerLimit :
    ∃ s₀ s, run ctxStep (CtxState.init 1 wifiArbTable) requestOfApp = some s₀ ∧
      run ctxStep s₀ (.call (.removeApp 7) :: stopDuringRemoveApp 3) = some s ∧
      HoldsRequestOf 7 s₀.shared.heap 1 ∧
      ∀ p ∈ s.shared.ctx.entriesPtr, ¬ HoldsRequestOf 7 s.shared.heap p := by
  have hruns : (run ctxStep (CtxState.init 1 wifiArbTable) requestOfApp).any (fun s₀ =>
      decide (HoldsRequestOf 7 s₀.shared.heap 1 ∧ (∀ u ∈ s₀.threads, u.issuer ≠ some 7) ∧
        EveryStep ctxStep (SkipsNothing 7 s₀.threads.length) s₀
          (.call (.removeApp 7) :: stopDuringRemoveApp 3)) &&
      (run ctxStep s₀ (.call (.removeApp 7) :: stopDuringRemoveApp 3)).any fun s =>
        s.threads[s₀.threads.length]?.any Thread.isDone) = true := by
    decide +kernel
  obtain ⟨s₀, hbefore, hruns⟩ := (Option.any_eq_true _ _).mp hruns
  obtain ⟨hconditions, hduring⟩ := Bool.and_eq_true_iff.mp hruns
  obtain ⟨hholds, hissuer, hskip⟩ := of_decide_eq_true hconditions
  obtain ⟨s, hduring, hdone⟩ := (Option.any_eq_true _ _).mp hduring
  obtain ⟨t, ht, hdone⟩ := (Option.any_eq_true _ _).mp hdone
  have hnone : ∀ a ∈ stopDuringRemoveApp 3, a.NoRequestFor 7 := by decide +kernel
  cases t with
  | done =>
    exact ⟨s₀, s, hbefore, hduring, hholds,
      removeApp_leaves_no_request hbefore hissuer hnone hskip hduring ht⟩
  | _ => cases hdone

/-- A walk misses the entry that slides into the slot it is on: application 7 is removed
and nothing else asks for it, yet an entry that stays in the table throughout holds its
request at the end. -/
theorem removeApp_skips_entry :
    ∃ s₀ s, run ctxStep (CtxState.init 1 wifiArbTable) requestOfApp = some s₀ ∧
      (∀ u ∈ s₀.threads, u.issuer ≠ some 7) ∧
      (∀ a ∈ stopDuringRemoveApp 0, a.NoRequestFor 7) ∧
      run ctxStep s₀ (.call (.removeApp 7) :: stopDuringRemoveApp 0) = some s ∧
      s.threads[s₀.threads.length]? = some .done ∧
      ∃ p ∈ s₀.shared.ctx.entriesPtr, p ∈ s.shared.ctx.entriesPtr ∧
        HoldsRequestOf 7 s.shared.heap p := by
  have hruns : (run ctxStep (CtxState.init 1 wifiArbTable) requestOfApp).any (fun s₀ =>
      decide ((∀ u ∈ s₀.threads, u.issuer ≠ some 7) ∧ 1 ∈ s₀.shared.ctx.entriesPtr) &&
      (run ctxStep s₀ (.call (.removeApp 7) :: stopDuringRemoveApp 0)).any fun s =>
        s.threads[s₀.threads.length]?.any Thread.isDone &&
          decide (1 ∈ s.shared.ctx.entriesPtr ∧ HoldsRequestOf 7 s.shared.heap 1)) = true := by
    decide +kernel
  obtain ⟨s₀, hbefore, hruns⟩ := (Option.any_eq_true _ _).mp hruns
  obtain ⟨hconditions, hduring⟩ := Bool.and_eq_true_iff.mp hruns
  obtain ⟨hissuer, hmem₀⟩ := of_decide_eq_true hconditions
  obtain ⟨s, hduring, hend⟩ := (Option.any_eq_true _ _).mp hduring
  obtain ⟨hdone, hholds⟩ := Bool.and_eq_true_iff.mp hend
  obtain ⟨hmem, hholds⟩ := of_decide_eq_true hholds
  obtain ⟨t, ht, hdone⟩ := (Option.any_eq_true _ _).mp hdone
  have hnone : ∀ a ∈ stopDuringRemoveApp 0, a.NoRequestFor 7 := by decide +kernel
  cases t with
  | done => exact ⟨s₀, s, hbefore, hissuer, hnone, hduring, ht, 1, hmem₀, hmem, hholds⟩
  | _ => cases hdone

end Arb

import Dptf.Arb.Context
import Dptf.Lib.RefCount

/-!
# What a section of a thread does to the references

Every reference to an entry is held by the table or by a thread at a known place
(`Thread.refs`).  A thread that has taken an entry out of the table holds the table's
reference from then on, until `EsifArbEntry_Destroy` releases it.

* `Effect` — **all that a section can do** to the references, the table and the
  calls of `EsifArbEntry_Destroy`; `threadStep_section` says that it does no more.
-/

open Lib

namespace Arb

variable {p : EntryPtr} {heap heap' : Heap} {t t' : Thread} {allocs : Allocs}

/-! ## Who holds what -/

/-- The application whose request a thread is about to make. -/
def Thread.issuer : Thread → Option EsifHandle
  | .start (.executePrimitive _ _ _ app _ _) => some app
  | .executing _ app _ _ => some app
  | _ => none

/-- The life control of an object. -/
def EntryObj.life (obj : EntryObj) : Life :=
  ⟨obj.refCount, obj.markedForDelete, obj.deleteEvent, obj.freed⟩

/-- The life controls of the objects. -/
def lives (heap : Heap) : List Life := heap.map EntryObj.life

/-- The references a thread holds to an entry. -/
def Thread.refs (a : EntryPtr) : Thread → Nat
  | .executing p _ _ _ => if p = a then 1 else 0
  | .releasing p => if p = a then 1 else 0
  | .next _ _ (some p) => if p = a then 1 else 0
  | .visiting _ _ p => if p = a then 1 else 0
  | .removing p => if p = a then 1 else 0
  -- the iterator's and the one taken over from the table
  | .removed p => if p = a then 2 else 0
  | .destroying p => if p = a then 1 else 0
  | .marked p => if p = a then 1 else 0
  -- the one meant for the caller
  | .createFailed p => if p = a then 1 else 0
  | _ => 0

/-- The thread has taken the entry out of the table and not called
`EsifArbEntry_Destroy` yet. -/
def Thread.owns (a : EntryPtr) : Thread → Nat
  | .removed p => if p = a then 1 else 0
  | .destroying p => if p = a then 1 else 0
  | _ => 0

/-- `EsifArbCtx_InsertArbEntry_Locked` fails for an entry that was just created. -/
def InsertFails (s : Shared) (primitiveId : EsifPrimitiveType) (domain : UInt16) (inst : UInt8)
    (isSupported : Bool) (allocs : Allocs) : Prop :=
  (lookupArbEntry s.heap primitiveId domain inst s.ctx.entriesPtr).1 = none ∧
    isSupported = true ∧ allocs.entry = true ∧
    s.ctx.entryCapacity ≤ s.ctx.entriesPtr.length ∧ allocs.grow = false

instance (s : Shared) (primitiveId : EsifPrimitiveType) (domain : UInt16) (inst : UInt8)
    (isSupported : Bool) (allocs : Allocs) :
    Decidable (InsertFails s primitiveId domain inst isSupported allocs) :=
  inferInstanceAs (Decidable (_ ∧ _ ∧ _ ∧ _ ∧ _))

/-- The next section of the thread is neither of the two that break the discipline: it does
not fail to insert an entry, and an entry that it removes from the table is there. -/
def NoDefectAt (s : Shared) (allocs : Allocs) : Thread → Prop
  | .start (.setLimits primitiveId domain inst _ _ isSupported) =>
    ¬ InsertFails s primitiveId domain inst isSupported allocs
  | .start (.setArbitrationFunction primitiveId domain inst _ isSupported) =>
    ¬ InsertFails s primitiveId domain inst isSupported allocs
  | .removing p => p ∈ s.ctx.entriesPtr
  | _ => True

instance (s : Shared) (allocs : Allocs) : ∀ t : Thread, Decidable (NoDefectAt s allocs t)
  | .start (.setLimits primitiveId domain inst _ _ isSupported) =>
    inferInstanceAs (Decidable (¬ InsertFails s primitiveId domain inst isSupported allocs))
  | .start (.setArbitrationFunction primitiveId domain inst _ isSupported) =>
    inferInstanceAs (Decidable (¬ InsertFails s primitiveId domain inst isSupported allocs))
  | .removing p => inferInstanceAs (Decidable (p ∈ s.ctx.entriesPtr))
  | .start (.executePrimitive ..) | .start (.setArbitrationState ..)
  | .start (.stopArbitration ..) | .start (.removeApp _) | .executing .. | .releasing _
  | .next .. | .scanning .. | .visiting .. | .removed _ | .destroying _ | .marked _ | .waiting _
  | .createFailed _ | .done => isTrue trivial

/-! ## The lives of the objects -/

theorem getElem?_lives (heap : Heap) (a : EntryPtr) :
    (lives heap)[a]? = heap[a]?.map EntryObj.life := by
  simp [lives]

@[simp] theorem length_lives (heap : Heap) : (lives heap).length = heap.length := by
  simp [lives]

theorem lives_modify {f : EntryObj → EntryObj} {g : Life → Life}
    (hfg : ∀ obj : EntryObj, (f obj).life = g obj.life) (heap : Heap) (p : EntryPtr) :
    lives (heap.modify p f) = (lives heap).modify p g := by
  refine List.ext_getElem? fun a => ?_
  simp only [getElem?_lives, List.getElem?_modify]
  cases heap[a]? with
  | none => rfl
  | some obj => by_cases hpa : p = a <;> simp [hpa, hfg]

@[simp] theorem lives_updateEntry (heap : Heap) (p : EntryPtr) (f : EsifArbEntry → EsifArbEntry) :
    lives (updateEntry heap p f) = lives heap := by
  have h := lives_modify (f := fun obj => { obj with entry := f obj.entry }) (g := id)
    (fun _ => rfl) heap p
  rw [updateEntry, h, List.modify_id]

@[simp] theorem lives_purgeTable (heap : Heap) (table : List EntryPtr) :
    lives (purgeTable heap table) = lives heap := by
  unfold purgeTable
  induction table generalizing heap with
  | nil => rfl
  | cons p rest ih => rw [List.foldl_cons, ih, lives_updateEntry]

theorem life_putRef (obj : EntryObj) : obj.putRef.life = obj.life.put := by
  unfold EntryObj.putRef
  simp only
  split
  · rename_i h
    simp [EntryObj.life, Life.put, h.1, h.2]
  · rename_i h
    have : ((obj.refCount - 1 == 0) && obj.markedForDelete) = false := by simpa using h
    simp [EntryObj.life, Life.put, this]

@[simp] theorem lives_putRef (heap : Heap) (p : EntryPtr) :
    lives (putRef heap p) = (lives heap).modify p Life.put :=
  lives_modify life_putRef heap p

@[simp] theorem lives_mark (heap : Heap) (p : EntryPtr) :
    lives (heap.modify p fun obj => { obj with markedForDelete := true }) =
      (lives heap).modify p Life.mark :=
  lives_modify (fun _ => rfl) heap p

@[simp] theorem lives_free (heap : Heap) (p : EntryPtr) :
    lives (heap.modify p fun obj => { obj with freed := true }) = (lives heap).modify p Life.free :=
  lives_modify (fun _ => rfl) heap p

/-- `EsifArbEntry_GetRef` succeeds on an object that is not marked. -/
theorem getRef_eq_ok (h : (getRef heap p).1 = esifOk) :
    (∃ o, (lives heap)[p]? = some o ∧ o.marked = false) ∧
      lives (getRef heap p).2 = (lives heap).modify p Life.get := by
  have hnull : esifEParameterIsNull ≠ esifOk := by decide
  have hunspecified : esifEUnspecified ≠ esifOk := by decide
  unfold getRef at h ⊢
  cases hobj : heap[p]? with
  | none => simp [hobj, hnull] at h
  | some obj =>
    cases hmarked : obj.markedForDelete with
    | true => simp [hobj, hmarked, hunspecified] at h
    | false =>
      refine ⟨⟨obj.life, by simp [getElem?_lives, hobj], hmarked⟩, ?_⟩
      show lives (if obj.markedForDelete then _ else _ : EsifError × Heap).2 = _
      rw [if_neg (by simp [hmarked])]
      refine List.ext_getElem? fun a => ?_
      simp only [getElem?_lives, List.getElem?_modify, List.getElem?_set]
      by_cases hpa : p = a
      · subst hpa
        rw [if_pos rfl, if_pos (List.getElem?_eq_some_iff.mp hobj).1, hobj]
        simp [EntryObj.life, Life.get]
      · simp [hpa]

/-- An entry that is alive gives a reference. -/
theorem getRef_of_alive (h : Alive (lives heap) p) : (getRef heap p).1 = esifOk := by
  obtain ⟨o, ho, hmarked⟩ := h
  rw [getElem?_lives] at ho
  obtain ⟨obj, hobj, rfl⟩ := Option.map_eq_some_iff.mp ho
  have hmarked : obj.markedForDelete = false := hmarked
  simp [getRef, hobj, hmarked]

/-- A reference that is released again leaves an unmarked object as it was. -/
theorem modify_get_put {objs : List Life} {o : Life} (ho : objs[p]? = some o)
    (hmarked : o.marked = false) : (objs.modify p Life.get).modify p Life.put = objs := by
  refine List.ext_getElem? fun a => ?_
  simp only [List.getElem?_modify]
  by_cases hpa : p = a
  · subst hpa
    cases o
    simp_all [Life.get, Life.put]
  · simp [hpa]

/-- A new object, after its creator has taken and released a reference. -/
theorem lives_create (heap : Heap) (obj : EntryObj) (hobj : obj.life = Life.fresh) :
    (lives (getRef (heap ++ [obj]) heap.length).2).modify heap.length Life.put =
        lives heap ++ [Life.fresh] ∧
      ((lives (getRef (heap ++ [obj]) heap.length).2).modify heap.length Life.mark).modify
        heap.length Life.put = lives heap ++ [Life.fresh.mark] := by
  have hlives : lives (heap ++ [obj]) = lives heap ++ [Life.fresh] := by simp [lives, hobj]
  have hmarked : obj.markedForDelete = false := congrArg Life.marked hobj
  have hget : (getRef (heap ++ [obj]) heap.length).1 = esifOk := by simp [getRef, hmarked]
  obtain ⟨⟨o, ho, ho'⟩, hrefs⟩ := getRef_eq_ok hget
  refine ⟨by rw [hrefs, modify_get_put ho ho', hlives], ?_⟩
  rw [hrefs, hlives, ← length_lives heap]
  simp only [modify_append_singleton]
  rfl

theorem insertArbEntry_of_room {self : EsifArbCtx} {grow : Bool}
    (h : self.entriesPtr.length < self.entryCapacity ∨ grow = true) :
    (self.insertArbEntry p grow).1 = esifOk ∧
      (self.insertArbEntry p grow).2.entriesPtr = self.entriesPtr ++ [p] := by
  unfold EsifArbCtx.insertArbEntry
  split
  · exact ⟨rfl, rfl⟩
  · rename_i hfull
    rw [if_pos (h.resolve_left hfull)]
    exact ⟨rfl, rfl⟩

theorem insertArbEntry_of_full {self : EsifArbCtx} {grow : Bool}
    (h : ¬ (self.entriesPtr.length < self.entryCapacity ∨ grow = true)) :
    (self.insertArbEntry p grow).1 = esifOk ↔ False := by
  have hmemory : esifENoMemory ≠ esifOk := by decide
  rw [not_or] at h
  unfold EsifArbCtx.insertArbEntry
  rw [if_neg h.1, if_neg h.2]
  exact iff_of_false hmemory not_false

/-- A lookup finds an entry of the table and takes a reference to it. -/
theorem lookupArbEntry_eq_some {primitiveId : EsifPrimitiveType} {domain : UInt16} {inst : UInt8}
    {table : List EntryPtr}
    (h : lookupArbEntry heap primitiveId domain inst table = (some p, heap')) :
    p ∈ table ∧ isMatchingPtr heap primitiveId domain inst p = true ∧
      (getRef heap p).1 = esifOk ∧ heap' = (getRef heap p).2 := by
  induction table with
  | nil => simp [lookupArbEntry] at h
  | cons q rest ih =>
    unfold lookupArbEntry at h
    split at h
    · rename_i hq
      obtain ⟨rfl, rfl⟩ : q = p ∧ (getRef heap q).2 = heap' := by simpa using h
      exact ⟨List.mem_cons_self, hq.1, hq.2, rfl⟩
    · obtain ⟨hmem, hrest⟩ := ih h
      exact ⟨List.mem_cons_of_mem _ hmem, hrest⟩

/-- An iterator moves to the first entry from its index on that gives a reference. -/
theorem nextEntry_eq_some {index k : Nat} {slots : List EntryPtr}
    (h : nextEntry heap index slots = (some (k, p), heap')) :
    ∃ skipped rest, slots = skipped ++ p :: rest ∧ k = index + skipped.length ∧
      (∀ q ∈ skipped, (getRef heap q).1 ≠ esifOk) ∧ (getRef heap p).1 = esifOk ∧
      heap' = (getRef heap p).2 := by
  induction slots generalizing index with
  | nil => simp [nextEntry] at h
  | cons q rest ih =>
    unfold nextEntry at h
    split at h
    · rename_i hq
      obtain ⟨⟨rfl, rfl⟩, rfl⟩ : (index = k ∧ q = p) ∧ (getRef heap q).2 = heap' := by
        simpa using h
      exact ⟨[], rest, rfl, rfl, by simp, hq, rfl⟩
    · rename_i hq
      obtain ⟨skipped, tail, rfl, rfl, hskipped, hp⟩ := ih h
      refine ⟨q :: skipped, tail, rfl, by simp; omega, ?_, hp⟩
      intro r hr
      rcases List.mem_cons.mp hr with rfl | hr
      · exact hq
      · exact hskipped r hr

/-- An iterator that finds no entry has found none that gives a reference. -/
theorem nextEntry_eq_none {index : Nat} {slots : List EntryPtr}
    (h : nextEntry heap index slots = (none, heap')) : ∀ q ∈ slots, (getRef heap q).1 ≠ esifOk := by
  induction slots generalizing index with
  | nil => simp
  | cons q rest ih =>
    unfold nextEntry at h
    split at h
    · simp at h
    · rename_i hq
      intro r hr
      rcases List.mem_cons.mp hr with rfl | hr
      · exact hq
      · exact ih h r hr

/-! ## What a section can do -/

/-- What a section does to the references, the table and the calls of
`EsifArbEntry_Destroy`. -/
inductive Effect (s : Shared) (allocs : Allocs) (t : Thread) (s' : Shared) (t' : Thread) : Prop where
  | quiet (hlives : lives s'.heap = lives s.heap)
      (htable : s'.ctx.entriesPtr = s.ctx.entriesPtr) (hcalls : s'.destroyCalls = s.destroyCalls)
      (hrefs : ∀ a, t'.refs a = t.refs a) (howns : ∀ a, t'.owns a = t.owns a)
  | get (p : EntryPtr) (o : Life) (ho : (lives s.heap)[p]? = some o) (hmarked : o.marked = false)
      (hlives : lives s'.heap = (lives s.heap).modify p Life.get)
      (htable : s'.ctx.entriesPtr = s.ctx.entriesPtr) (hcalls : s'.destroyCalls = s.destroyCalls)
      (hrefs : ∀ a, t'.refs a = t.refs a + if p = a then 1 else 0)
      (howns : ∀ a, t'.owns a = t.owns a)
  | put (p : EntryPtr) (hlives : lives s'.heap = (lives s.heap).modify p Life.put)
      (htable : s'.ctx.entriesPtr = s.ctx.entriesPtr) (hcalls : s'.destroyCalls = s.destroyCalls)
      (hrefs : ∀ a, t'.refs a + (if p = a then 1 else 0) = t.refs a)
      (howns : ∀ a, t'.owns a = t.owns a)
  | create (hlives : lives s'.heap = lives s.heap ++ [Life.fresh])
      (htable : s'.ctx.entriesPtr = s.ctx.entriesPtr ++ [s.heap.length])
      (hcalls : s'.destroyCalls = s.destroyCalls)
      (hrefs : ∀ a, t'.refs a = t.refs a) (howns : ∀ a, t'.owns a = t.owns a)
  | insertFails (hfails : ¬ NoDefectAt s allocs t)
      (hlives : lives s'.heap = lives s.heap ++ [Life.fresh.mark])
      (htable : s'.ctx.entriesPtr = s.ctx.entriesPtr)
      (hcalls : s'.destroyCalls = s.destroyCalls ++ [s.heap.length])
      (hrefs : ∀ a, t'.refs a = t.refs a + if s.heap.length = a then 1 else 0)
      (howns : ∀ a, t'.owns a = t.owns a)
  | remove (p : EntryPtr) (ht : t = .removing p) (hlives : lives s'.heap = lives s.heap)
      (htable : s'.ctx.entriesPtr = s.ctx.entriesPtr.erase p)
      (hcalls : s'.destroyCalls = s.destroyCalls)
      (hrefs : ∀ a, t'.refs a = t.refs a + if p = a then 1 else 0)
      (howns : ∀ a, t'.owns a = t.owns a + if p = a then 1 else 0)
  | mark (p : EntryPtr) (hp : 0 < t.refs p)
      (hlives : lives s'.heap = (lives s.heap).modify p Life.mark)
      (htable : s'.ctx.entriesPtr = s.ctx.entriesPtr)
      (hcalls : s'.destroyCalls = s.destroyCalls ++ [p])
      (hrefs : ∀ a, t'.refs a = t.refs a)
      (howns : ∀ a, t'.owns a + (if p = a then 1 else 0) = t.owns a)
  | free (p : EntryPtr) (o : Life) (ho : (lives s.heap)[p]? = some o) (hevent : o.event = true)
      (hlives : lives s'.heap = (lives s.heap).modify p Life.free)
      (htable : s'.ctx.entriesPtr = s.ctx.entriesPtr) (hcalls : s'.destroyCalls = s.destroyCalls)
      (hrefs : t = .createFailed p ∧ t' = .done ∨ ∀ a, t'.refs a = t.refs a)
      (howns : ∀ a, t'.owns a = t.owns a)

/-- A section of a thread: its effect, and what becomes of the thread. -/
structure Section (s : Shared) (allocs : Allocs) (t : Thread) (s' : Shared) (t' : Thread) :
    Prop where
  effect : Effect s allocs t s' t'
  inserted : NoDefectAt s allocs t → ∀ p, t' ≠ .createFailed p
  issuer : ∀ app, t'.issuer = some app → t.issuer = some app

/-- The section of a call that looks its entry up or creates it. -/
theorem lookupOrCreate_effect {s s' : Shared} {params : EsifArbEntryParams} {isSupported : Bool}
    {op : EsifArbEntry → EsifArbEntry}
    (h : lookupOrCreate s params isSupported allocs op = (s', t')) (hok : NoDefectAt s allocs t ↔
      ¬ InsertFails s params.primitiveId params.domain params.inst isSupported allocs)
    (hrefs : ∀ a, t.refs a = 0) (howns : ∀ a, t.owns a = 0) : Section s allocs t s' t' := by
  unfold lookupOrCreate at h
  split at h
  · rename_i p heap hlookup
    obtain ⟨rfl, rfl⟩ := Prod.mk.inj h
    obtain ⟨-, -, hget, rfl⟩ := lookupArbEntry_eq_some hlookup
    obtain ⟨⟨o, ho, hmarked⟩, hlives⟩ := getRef_eq_ok hget
    refine ⟨.quiet ?_ rfl rfl (fun a => (hrefs a).symm) (fun a => (howns a).symm), fun _ => nofun, nofun⟩
    rw [lives_putRef, lives_updateEntry, hlives, modify_get_put ho hmarked]
  · rename_i heap hlookup
    have hquiet : Section s allocs t s .done :=
      ⟨.quiet rfl rfl rfl (fun a => (hrefs a).symm) fun a => (howns a).symm, fun _ => nofun, nofun⟩
    split at h
    · rename_i hsupported
      unfold createAndInsertEntry at h
      split at h
      · rename_i hentry
        have hnew := lives_create s.heap (EntryObj.create params s.ctx.participantId) rfl
        by_cases hroom : s.ctx.entriesPtr.length < s.ctx.entryCapacity ∨ allocs.grow = true
        · obtain ⟨hinsert, htable⟩ := insertArbEntry_of_room (p := s.heap.length) hroom
          simp only [hinsert, if_true] at h
          obtain ⟨rfl, rfl⟩ := Prod.mk.inj h
          refine ⟨.create ?_ htable rfl (fun a => (hrefs a).symm) fun a => (howns a).symm,
            fun _ => nofun, nofun⟩
          rw [lives_putRef, lives_updateEntry, hnew.1]
        · have hfull := hroom
          rw [not_or, Nat.not_lt, Bool.not_eq_true] at hfull
          have hfails : ¬ NoDefectAt s allocs t := by
            rw [hok, not_not]
            exact ⟨by rw [hlookup], hsupported, hentry, hfull⟩
          simp only [insertArbEntry_of_full hroom, if_false] at h
          obtain ⟨rfl, rfl⟩ := Prod.mk.inj h
          refine ⟨.insertFails hfails ?_ rfl rfl (fun a => ?_) fun a => (howns a).symm,
            fun hno => absurd hno hfails, nofun⟩
          · rw [lives_putRef, lives_mark, hnew.2]
          · rw [hrefs, Nat.zero_add]
            rfl
      · obtain ⟨rfl, rfl⟩ := Prod.mk.inj h
        exact hquiet
    · obtain ⟨rfl, rfl⟩ := Prod.mk.inj h
      exact hquiet

theorem underCtxLock_eq_some {s : Shared} {run r : Shared × Thread}
    (h : underCtxLock s run = some r) : run = r := by
  unfold underCtxLock at h
  split at h
  · cases h
  · exact Option.some.inj h

/-- **What a section does.** -/
theorem threadStep_section {s s' : Shared} (h : threadStep s allocs t = some (s', t')) :
    Section s allocs t s' t' := by
  cases t with
  | start call =>
    cases call with
    | executePrimitive primitiveId domain inst app addr request =>
      have h := underCtxLock_eq_some h
      split at h
      · split at h
        · rename_i p heap hlookup
          obtain ⟨rfl, rfl⟩ := Prod.mk.inj h
          obtain ⟨-, -, hget, rfl⟩ := lookupArbEntry_eq_some hlookup
          obtain ⟨⟨o, ho, hmarked⟩, hlives⟩ := getRef_eq_ok hget
          exact ⟨.get p o ho hmarked hlives rfl rfl (fun a => by simp [Thread.refs])
            (fun _ => rfl), fun _ => nofun, fun _ happ => happ⟩
        · obtain ⟨rfl, rfl⟩ := Prod.mk.inj h
          exact ⟨.quiet rfl rfl rfl (fun _ => rfl) (fun _ => rfl), fun _ => nofun, nofun⟩
      · obtain ⟨rfl, rfl⟩ := Prod.mk.inj h
        exact ⟨.quiet rfl rfl rfl (fun _ => rfl) (fun _ => rfl), fun _ => nofun, nofun⟩
    | setLimits _ _ _ _ _ _ | setArbitrationFunction _ _ _ _ _ =>
      exact lookupOrCreate_effect (underCtxLock_eq_some h) Iff.rfl (fun _ => rfl) fun _ => rfl
    | setArbitrationState primitiveId domain inst isEnabled =>
      have h := underCtxLock_eq_some h
      unfold setArbitrationState at h
      split at h
      · obtain ⟨rfl, rfl⟩ := Prod.mk.inj h
        refine ⟨.quiet ?_ rfl rfl (fun _ => rfl) (fun _ => rfl), fun _ => nofun, nofun⟩
        cases isEnabled
        · exact lives_purgeTable s.heap s.ctx.entriesPtr
        · rfl
      · split at h
        · rename_i p heap hlookup
          obtain ⟨rfl, rfl⟩ := Prod.mk.inj h
          obtain ⟨-, -, hget, rfl⟩ := lookupArbEntry_eq_some hlookup
          obtain ⟨⟨o, ho, hmarked⟩, hlives⟩ := getRef_eq_ok hget
          exact ⟨.get p o ho hmarked (by simpa using hlives) rfl rfl
            (fun a => by simp [Thread.refs]) (fun _ => rfl),
            fun _ => nofun, nofun⟩
        · obtain ⟨rfl, rfl⟩ := Prod.mk.inj h
          exact ⟨.quiet rfl rfl rfl (fun _ => rfl) (fun _ => rfl), fun _ => nofun, nofun⟩
    | stopArbitration _ _ _ | removeApp _ =>
      cases h
      exact ⟨.quiet rfl rfl rfl (fun _ => rfl) (fun _ => rfl), fun _ => nofun, nofun⟩
  | executing p app addr request =>
    cases h
    exact ⟨.quiet (by simp) rfl rfl (fun _ => rfl) (fun _ => rfl), fun _ => nofun, nofun⟩
  | releasing p | marked p =>
    cases h
    exact ⟨.put p (lives_putRef s.heap p) rfl rfl (fun a => by simp [Thread.refs]) (fun _ => rfl),
      fun _ => nofun, nofun⟩
  | next job index held =>
    cases held with
    | none =>
      cases h
      exact ⟨.quiet rfl rfl rfl (fun _ => rfl) (fun _ => rfl), fun _ => nofun, nofun⟩
    | some p =>
      cases h
      exact ⟨.put p (lives_putRef s.heap p) rfl rfl (fun a => by simp [Thread.refs]) (fun _ => rfl),
        fun _ => nofun, nofun⟩
  | scanning job index =>
    have h := underCtxLock_eq_some h
    split at h
    · rename_i k p heap hnext
      obtain ⟨rfl, rfl⟩ := Prod.mk.inj h
      obtain ⟨_, _, -, -, -, hget, rfl⟩ := nextEntry_eq_some hnext
      obtain ⟨⟨o, ho, hmarked⟩, hlives⟩ := getRef_eq_ok hget
      exact ⟨.get p o ho hmarked hlives rfl rfl (fun a => by simp [Thread.refs]) (fun _ => rfl),
        fun _ => nofun, nofun⟩
    · obtain ⟨rfl, rfl⟩ := Prod.mk.inj h
      exact ⟨.quiet rfl rfl rfl (fun _ => rfl) (fun _ => rfl), fun _ => nofun, nofun⟩
  | visiting job index p =>
    cases job with
    | removeApp app =>
      cases h
      exact ⟨.quiet (by simp) rfl rfl (fun _ => rfl) (fun _ => rfl), fun _ => nofun, nofun⟩
    | stopArbitration primitiveId domain inst =>
      simp only [threadStep] at h
      split at h
      · cases h
        exact ⟨.quiet rfl rfl rfl (fun _ => rfl) (fun _ => rfl), fun _ => nofun, nofun⟩
      · cases h
        exact ⟨.quiet rfl rfl rfl (fun _ => rfl) (fun _ => rfl), fun _ => nofun, nofun⟩
  | removing p =>
    obtain ⟨rfl, rfl⟩ := Prod.mk.inj (underCtxLock_eq_some h)
    refine ⟨.remove p rfl rfl rfl rfl (fun a => ?_) (fun a => ?_), fun _ => nofun, nofun⟩
    · simp only [Thread.refs]
      split <;> rfl
    · simp [Thread.owns]
  | removed p =>
    cases h
    refine ⟨.put p (lives_putRef s.heap p) rfl rfl (fun a => ?_) (fun _ => rfl), fun _ => nofun, nofun⟩
    simp only [Thread.refs]
    split <;> rfl
  | destroying p =>
    cases h
    exact ⟨.mark p (by simp [Thread.refs]) (lives_mark s.heap p) rfl rfl (fun _ => rfl)
      (fun a => by simp [Thread.owns]), fun _ => nofun, nofun⟩
  | waiting p =>
    simp only [threadStep] at h
    split at h
    · rename_i hevent
      cases h
      obtain ⟨obj, hobj, hset⟩ := (Option.any_eq_true _ _).mp hevent
      exact ⟨.free p obj.life (by simp [getElem?_lives, hobj]) hset (lives_free s.heap p) rfl rfl
        (.inr fun _ => rfl) (fun _ => rfl), fun _ => nofun, nofun⟩
    · cases h
  | createFailed p =>
    simp only [threadStep] at h
    split at h
    · rename_i hevent
      cases h
      obtain ⟨obj, hobj, hset⟩ := (Option.any_eq_true _ _).mp hevent
      exact ⟨.free p obj.life (by simp [getElem?_lives, hobj]) hset (lives_free s.heap p) rfl rfl
        (.inl ⟨rfl, rfl⟩) (fun _ => rfl), fun _ => nofun, nofun⟩
    · cases h
  | done => cases h

/-! ## The entries of a table are alive -/

/-- The entries of the table are different, allocated and not marked, and a thread that has
taken an entry out of the table does not find it there again. -/
structure TableOk (s : CtxState) : Prop where
  nodup : s.shared.ctx.entriesPtr.Nodup
  alive : ∀ p ∈ s.shared.ctx.entriesPtr, Alive (lives s.shared.heap) p
  held : ∀ t ∈ s.threads, ∀ p, 0 < t.refs p → p < s.shared.heap.length
  gone : ∀ t ∈ s.threads, ∀ p, 0 < t.owns p → p ∉ s.shared.ctx.entriesPtr

theorem Thread.owns_le_refs (a : EntryPtr) (t : Thread) : t.owns a ≤ t.refs a := by
  cases t with
  | removed p =>
    simp only [Thread.owns, Thread.refs]
    split <;> omega
  | destroying p => exact Nat.le_refl _
  | _ => exact Nat.zero_le _

namespace Effect

variable {s s' : Shared} {allocs : Allocs} {t t' : Thread}
variable {a : EntryPtr}

theorem length_le (h : Effect s allocs t s' t') : s.heap.length ≤ s'.heap.length := by
  have hlength : ∀ {n : Nat}, (lives s'.heap).length = n → s'.heap.length = n := by
    intro n hn
    rwa [length_lives] at hn
  cases h with
  | quiet hlives => exact (hlength (by rw [hlives, length_lives])).ge
  | get _ _ _ _ hlives | put _ hlives | mark _ _ hlives | free _ _ _ _ hlives =>
    exact (hlength (by rw [hlives, List.length_modify, length_lives])).ge
  | create hlives | insertFails _ hlives =>
    have := hlength (by rw [hlives, List.length_append, length_lives])
    omega
  | remove p _ hlives => exact (hlength (by rw [hlives, length_lives])).ge

/-- The table stays, loses the entry that the thread removes, or gets a new one at its end. -/
theorem table_cases (h : Effect s allocs t s' t') :
    s'.ctx.entriesPtr = s.ctx.entriesPtr ∨
      (∃ p, t = .removing p ∧ s'.ctx.entriesPtr = s.ctx.entriesPtr.erase p) ∨
      s'.ctx.entriesPtr = s.ctx.entriesPtr ++ [s.heap.length] := by
  cases h with
  | remove p ht _ htable => exact .inr (.inl ⟨p, ht, htable⟩)
  | create _ htable => exact .inr (.inr htable)
  | quiet _ htable | get _ _ _ _ _ htable | put _ _ htable | insertFails _ _ htable
  | mark _ _ _ htable | free _ _ _ _ _ htable => exact .inl htable

/-- What a thread holds is allocated, if what it has held was. -/
theorem refs_lt (h : Effect s allocs t s' t') (hheld : ∀ p, 0 < t.refs p → p < s.heap.length)
    (ha : 0 < t'.refs a) : a < s'.heap.length := by
  have hkeep : 0 < t.refs a → a < s'.heap.length := fun hpos =>
    Nat.lt_of_lt_of_le (hheld a hpos) h.length_le
  cases h with
  | quiet _ _ _ hrefs => exact hkeep (hrefs a ▸ ha)
  | create _ _ _ hrefs => exact hkeep (hrefs a ▸ ha)
  | mark _ _ _ _ _ hrefs => exact hkeep (hrefs a ▸ ha)
  | put p _ _ _ hrefs =>
    have := hrefs a
    exact hkeep (by omega)
  | get p o ho _ hlives _ _ hrefs =>
    rw [hrefs] at ha
    by_cases hpa : p = a
    · rw [← length_lives, hlives, List.length_modify]
      exact hpa ▸ (List.getElem?_eq_some_iff.mp ho).1
    · exact hkeep (by simpa [hpa] using ha)
  | insertFails _ hlives _ _ hrefs =>
    rw [hrefs] at ha
    by_cases hpa : s.heap.length = a
    · rw [← length_lives, hlives, List.length_append, length_lives]
      exact hpa ▸ Nat.lt_succ_self _
    · exact hkeep (by simpa [hpa] using ha)
  | remove p ht _ _ _ hrefs =>
    rw [hrefs] at ha
    by_cases hpa : p = a
    · exact hkeep (by simp [ht, Thread.refs, hpa])
    · exact hkeep (by simpa [hpa] using ha)
  | free p _ _ _ _ _ _ hrefs =>
    rcases hrefs with ⟨-, rfl⟩ | hrefs
    · cases ha
    · exact hkeep (hrefs a ▸ ha)

/-- An object stays alive but for the one that its thread marks. -/
theorem alive (h : Effect s allocs t s' t') (howns : t.owns a = 0) (ha : Alive (lives s.heap) a) :
    Alive (lives s'.heap) a := by
  cases h with
  | quiet hlives => rwa [hlives]
  | get _ _ _ _ hlives | put _ hlives | free _ _ _ _ hlives =>
    exact hlives ▸ ha.modify fun _ _ => rfl
  | create hlives => exact hlives ▸ ha.append _
  | insertFails _ hlives => exact hlives ▸ ha.append _
  | remove p _ hlives => rwa [hlives]
  | mark p _ hlives _ _ _ h =>
    refine hlives ▸ ha.modify fun hpa => ?_
    have := h a
    rw [if_pos hpa, howns] at this
    cases this

/-- A new entry of the table is alive. -/
theorem alive_new (h : Effect s allocs t s' t')
    (htable : s'.ctx.entriesPtr = s.ctx.entriesPtr ++ [s.heap.length]) :
    Alive (lives s'.heap) s.heap.length := by
  have hother : ∀ {l : List EntryPtr}, s'.ctx.entriesPtr = l → l.length ≤ s.ctx.entriesPtr.length →
      False := by
    intro l hl hle
    rw [hl] at htable
    rw [htable, List.length_append, List.length_singleton] at hle
    omega
  cases h with
  | create hlives => exact hlives ▸ length_lives s.heap ▸ alive_fresh _
  | remove p _ _ h => exact (hother h (List.length_erase_le)).elim
  | quiet _ h | get _ _ _ _ _ h | put _ _ h | insertFails _ _ h | mark _ _ _ h | free _ _ _ _ _ h =>
    exact (hother h (Nat.le_refl _)).elim

/-- A thread comes to own only what it removes. -/
theorem owns_cases (h : Effect s allocs t s' t') (ha : 0 < t'.owns a) :
    0 < t.owns a ∨ s'.ctx.entriesPtr = s.ctx.entriesPtr.erase a := by
  cases h with
  | remove p _ _ htable _ _ howns =>
    rw [howns] at ha
    by_cases hpa : p = a
    · exact .inr (hpa ▸ htable)
    · exact .inl (by simpa [hpa] using ha)
  | mark p _ _ _ _ _ howns =>
    have := howns a
    exact .inl (by omega)
  | quiet _ _ _ _ howns | get _ _ _ _ _ _ _ _ howns | put _ _ _ _ _ howns | create _ _ _ _ howns
  | insertFails _ _ _ _ _ howns | free _ _ _ _ _ _ _ _ howns => exact .inl (howns a ▸ ha)

end Effect

theorem tableOk_section {s s' : CtxState} {i : Nat} (ht : s.threads[i]? = some t)
    (hthreads : s'.threads = s.threads.set i t') (heffect : Effect s.shared allocs t s'.shared t')
    (h : TableOk s) : TableOk s' := by
  have hmem : t ∈ s.threads := List.mem_of_getElem? ht
  have hnew : s.shared.heap.length ∉ s.shared.ctx.entriesPtr := by
    intro hlen
    have := (h.alive _ hlen).lt_length
    rw [length_lives] at this
    omega
  have hthread : ∀ u ∈ s'.threads, u ∈ s.threads ∨ u = t' := by
    intro u hu
    exact List.mem_or_eq_of_mem_set (hthreads ▸ hu)
  have halive : ∀ p ∈ s.shared.ctx.entriesPtr, Alive (lives s'.shared.heap) p := by
    intro p hp
    have howns : t.owns p = 0 := by
      by_contra hpos
      exact h.gone t hmem p (Nat.pos_of_ne_zero hpos) hp
    exact heffect.alive howns (h.alive p hp)
  have hgone : ∀ p, s.shared.ctx.entriesPtr.count p = 0 → p ≠ s.shared.heap.length →
      p ∉ s'.shared.ctx.entriesPtr := by
    intro p hp hne hp'
    have hp := List.count_eq_zero.mp hp
    rcases heffect.table_cases with htable | ⟨q, -, htable⟩ | htable
    · exact hp (htable ▸ hp')
    · exact hp (List.mem_of_mem_erase (htable ▸ hp'))
    · rcases List.mem_append.mp (htable ▸ hp') with hp' | hp'
      · exact hp hp'
      · exact hne (List.mem_singleton.mp hp')
  refine ⟨?_, ?_, ?_, ?_⟩
  · rcases heffect.table_cases with htable | ⟨q, -, htable⟩ | htable
    · exact htable ▸ h.nodup
    · exact htable ▸ h.nodup.erase q
    · rw [htable]
      exact List.nodup_append.mpr ⟨h.nodup, List.pairwise_singleton _ _, by
        rintro a ha b hb rfl
        exact hnew (List.mem_singleton.mp hb ▸ ha)⟩
  · intro p hp
    rcases heffect.table_cases with htable | ⟨q, -, htable⟩ | htable
    · exact halive p (htable ▸ hp)
    · exact halive p (List.mem_of_mem_erase (htable ▸ hp))
    · rcases List.mem_append.mp (htable ▸ hp) with hp | hp
      · exact halive p hp
      · exact List.mem_singleton.mp hp ▸ heffect.alive_new htable
  · intro u hu p hp
    rcases hthread u hu with hu | rfl
    · exact Nat.lt_of_lt_of_le (h.held u hu p hp) heffect.length_le
    · exact heffect.refs_lt (h.held t hmem) hp
  · intro u hu p hp
    have hold : ∀ u ∈ s.threads, 0 < u.owns p → p ∉ s'.shared.ctx.entriesPtr := by
      intro u hu hp
      have hlt := h.held u hu p (Nat.lt_of_lt_of_le hp (u.owns_le_refs p))
      exact hgone p (List.count_eq_zero.mpr (h.gone u hu p hp)) (Nat.ne_of_lt hlt)
    rcases hthread u hu with hu | rfl
    · exact hold u hu hp
    · rcases heffect.owns_cases hp with hp | htable
      · exact hold t hmem hp
      · rw [htable]
        exact h.nodup.not_mem_erase

theorem ctxStep_tableOk (s : CtxState) (a : CtxAction) (s' : CtxState)
    (hstep : ctxStep s a = some s') (h : TableOk s) : TableOk s' := by
  cases a with
  | call call =>
    cases hstep
    have hthread : ∀ u ∈ s.threads ++ [Thread.start call], u ∈ s.threads ∨ u = .start call := by
      intro u hu
      simpa using hu
    refine ⟨h.nodup, h.alive, ?_, ?_⟩
    · intro u hu p hp
      rcases hthread u hu with hu | rfl
      · exact h.held u hu p hp
      · cases hp
    · intro u hu p hp
      rcases hthread u hu with hu | rfl
      · exact h.gone u hu p hp
      · cases hp
  | step i allocs =>
    obtain ⟨t, t', ht, hthread, hthreads⟩ := ctxStep_eq_some hstep
    exact tableOk_section ht hthreads (threadStep_section hthread).effect h

/-- **The entries of a table are alive** after every run. -/
theorem tableOk_of_run {participantId : EsifHandle} {table : List EsifArbEntryParams}
    {s : CtxState} {actions : List CtxAction}
    (hrun : run ctxStep (CtxState.init participantId table) actions = some s) : TableOk s := by
  refine run_invariant ctxStep_tableOk hrun ⟨List.nodup_range, ?_, nofun, nofun⟩
  intro p hp
  have hp : p < table.length := by simpa [CtxState.init] using hp
  exact ⟨Life.fresh, by simp [CtxState.init, lives, hp, EntryObj.create, EntryObj.life, Life.fresh],
    rfl⟩

/-! ## What the operations on an entry keep -/

/-- The operations on an entry that the next section of a thread can apply. -/
def Thread.Applies : Thread → EntryOp → Prop
  | .executing _ app addr request, op => op = .executePrimitive addr app request
  | .start (.setLimits _ _ _ upperLimit lowerLimit _), op => op = .setLimits upperLimit lowerLimit
  | .start (.setArbitrationFunction _ _ _ arbType _), op => op = .setArbitrationFunction arbType
  | .start (.setArbitrationState _ _ _ isEnabled), op =>
    op = .setArbitrationState isEnabled ∨ op = .purgeRequests
  | .visiting (.removeApp app) _ _, op => op = .removeApp app
  | _, _ => False

/-- What is behind the pointer, if anything, has the property. -/
def EntryAt (P : EsifArbEntry → Prop) (heap : Heap) (a : EntryPtr) : Prop :=
  ∀ obj : EntryObj, heap[a]? = some obj → P obj.entry

section EntryAt

variable {P : EsifArbEntry → Prop} {heap : Heap} {a : EntryPtr}

theorem EntryAt.modify {f : EntryObj → EntryObj} (h : EntryAt P heap a)
    (hf : ∀ obj : EntryObj, P obj.entry → P (f obj).entry) (p : EntryPtr) :
    EntryAt P (heap.modify p f) a := by
  intro obj hobj
  rw [List.getElem?_modify] at hobj
  obtain ⟨obj₀, hobj₀, rfl⟩ := Option.map_eq_some_iff.mp hobj
  split
  · exact hf obj₀ (h obj₀ hobj₀)
  · exact h obj₀ hobj₀

theorem EntryAt.updateEntry {f : EsifArbEntry → EsifArbEntry} (h : EntryAt P heap a)
    (hf : ∀ entry, P entry → P (f entry)) (p : EntryPtr) : EntryAt P (updateEntry heap p f) a :=
  h.modify (fun obj => hf obj.entry) p

theorem EntryAt.putRef (h : EntryAt P heap a) (p : EntryPtr) : EntryAt P (putRef heap p) a := by
  refine h.modify (fun obj hobj => ?_) p
  unfold EntryObj.putRef
  simp only
  split <;> exact hobj

theorem EntryAt.getRef (h : EntryAt P heap a) (p : EntryPtr) : EntryAt P (getRef heap p).2 a := by
  unfold Arb.getRef
  split
  · exact h
  · rename_i obj hobj
    split
    · exact h
    · intro obj' hobj'
      rw [List.getElem?_set] at hobj'
      split at hobj'
      · rename_i hpa
        subst hpa
        obtain ⟨-, heq⟩ := Option.ite_none_right_eq_some.mp hobj'
        cases heq
        exact h obj hobj
      · exact h obj' hobj'

theorem EntryAt.append (h : EntryAt P heap a) {obj : EntryObj} (hobj : P obj.entry) :
    EntryAt P (heap ++ [obj]) a := by
  intro obj' hobj'
  rcases Nat.lt_or_ge a heap.length with hlt | hge
  · rw [List.getElem?_append_left hlt] at hobj'
    exact h obj' hobj'
  · rw [List.getElem?_append_right hge] at hobj'
    rw [List.mem_singleton.mp (List.mem_of_getElem? hobj')]
    exact hobj

theorem EntryAt.purgeTable (h : EntryAt P heap a) (hf : ∀ entry, P entry → P entry.purgeRequests)
    (table : List EntryPtr) : EntryAt P (purgeTable heap table) a := by
  unfold Arb.purgeTable
  induction table generalizing heap with
  | nil => exact h
  | cons p rest ih => exact ih (h.updateEntry hf p)

variable {s s' : Shared} {allocs : Allocs} {t' : Thread}

theorem EntryAt.lookupOrCreate {params : EsifArbEntryParams} {isSupported : Bool}
    {op : EsifArbEntry → EsifArbEntry} (h : EntryAt P s.heap a)
    (hcreate : ∀ params participantId, P (EsifArbEntry.create params participantId))
    (hop : ∀ entry, P entry → P (op entry))
    (hlookup : lookupOrCreate s params isSupported allocs op = (s', t')) :
    EntryAt P s'.heap a := by
  unfold Arb.lookupOrCreate at hlookup
  split at hlookup
  · rename_i p heap hsome
    obtain ⟨rfl, rfl⟩ := Prod.mk.inj hlookup
    obtain ⟨-, -, -, rfl⟩ := lookupArbEntry_eq_some hsome
    exact ((h.getRef p).updateEntry hop p).putRef p
  · split at hlookup
    · unfold createAndInsertEntry at hlookup
      split at hlookup
      · have hnew : EntryAt P
            (Arb.getRef (s.heap ++ [EntryObj.create params s.ctx.participantId]) s.heap.length).2 a :=
          (h.append (hcreate params s.ctx.participantId)).getRef _
        simp only at hlookup
        split at hlookup
        · obtain ⟨rfl, rfl⟩ := Prod.mk.inj hlookup
          exact (hnew.updateEntry hop _).putRef _
        · obtain ⟨rfl, rfl⟩ := Prod.mk.inj hlookup
          refine (hnew.modify ?_ _).putRef _
          exact fun _ hobj => hobj
      · obtain ⟨rfl, rfl⟩ := Prod.mk.inj hlookup
        exact h
    · obtain ⟨rfl, rfl⟩ := Prod.mk.inj hlookup
      exact h

theorem EntryAt.setArbitrationState {primitiveId : EsifPrimitiveType} {domain : UInt16}
    {inst : UInt8} {isEnabled : Bool} (h : EntryAt P s.heap a)
    (hpurge : isEnabled = false → ∀ entry, P entry → P entry.purgeRequests)
    (hset : ∀ entry, P entry → P (entry.setArbitrationState isEnabled).2)
    (hstate : setArbitrationState s primitiveId domain inst isEnabled = (s', t')) :
    EntryAt P s'.heap a := by
  unfold Arb.setArbitrationState at hstate
  split at hstate
  · obtain ⟨rfl, rfl⟩ := Prod.mk.inj hstate
    cases isEnabled with
    | true => exact h
    | false => exact h.purgeTable (hpurge rfl) s.ctx.entriesPtr
  · split at hstate
    · rename_i p heap hlookup
      obtain ⟨rfl, rfl⟩ := Prod.mk.inj hstate
      obtain ⟨-, -, -, rfl⟩ := lookupArbEntry_eq_some hlookup
      exact (h.getRef p).updateEntry hset p
    · obtain ⟨rfl, rfl⟩ := Prod.mk.inj hstate
      exact h

theorem EntryAt.start {call : Call} (h : EntryAt P s.heap a)
    (hstep : threadStep s allocs (.start call) = some (s', t'))
    (hcreate : ∀ params participantId, P (EsifArbEntry.create params participantId))
    (hop : ∀ op, (Thread.start call).Applies op → ∀ entry, P entry → P (entry.apply op).1) :
    EntryAt P s'.heap a := by
  cases call with
  | executePrimitive primitiveId domain inst app addr request =>
    have hstep := underCtxLock_eq_some hstep
    split at hstep
    · split at hstep
      · rename_i p heap hlookup
        obtain ⟨rfl, rfl⟩ := Prod.mk.inj hstep
        obtain ⟨-, -, -, rfl⟩ := lookupArbEntry_eq_some hlookup
        exact h.getRef p
      · obtain ⟨rfl, rfl⟩ := Prod.mk.inj hstep
        exact h
    · obtain ⟨rfl, rfl⟩ := Prod.mk.inj hstep
      exact h
  | setLimits primitiveId domain inst upperLimit lowerLimit isSupported =>
    exact h.lookupOrCreate hcreate (hop (.setLimits upperLimit lowerLimit) rfl)
      (underCtxLock_eq_some hstep)
  | setArbitrationFunction primitiveId domain inst arbType isSupported =>
    exact h.lookupOrCreate hcreate (hop (.setArbitrationFunction arbType) rfl)
      (underCtxLock_eq_some hstep)
  | setArbitrationState primitiveId domain inst isEnabled =>
    refine h.setArbitrationState ?_ (hop (.setArbitrationState isEnabled) (.inl rfl))
      (underCtxLock_eq_some hstep)
    rintro rfl
    exact hop .purgeRequests (.inr rfl)
  | stopArbitration primitiveId domain inst =>
    cases hstep
    exact h
  | removeApp app =>
    cases hstep
    exact h

/-- **What the operations keep, a section keeps**: of each entry, if a new one has it. -/
theorem threadStep_entryAt {t : Thread} (hstep : threadStep s allocs t = some (s', t'))
    (hcreate : ∀ params participantId, P (EsifArbEntry.create params participantId))
    (hop : ∀ op, t.Applies op → ∀ entry, P entry → P (entry.apply op).1)
    (h : EntryAt P s.heap a) : EntryAt P s'.heap a := by
  cases t with
  | start call => exact h.start hstep hcreate hop
  | executing p app addr request =>
    cases hstep
    exact h.updateEntry (hop (.executePrimitive addr app request) rfl) p
  | releasing p | removed p | marked p =>
    cases hstep
    exact h.putRef p
  | next job index held =>
    cases held with
    | none =>
      cases hstep
      exact h
    | some p =>
      cases hstep
      exact h.putRef p
  | scanning job index =>
    have hstep := underCtxLock_eq_some hstep
    split at hstep
    · rename_i k p heap hnext
      obtain ⟨rfl, rfl⟩ := Prod.mk.inj hstep
      obtain ⟨_, _, -, -, -, -, rfl⟩ := nextEntry_eq_some hnext
      exact h.getRef p
    · obtain ⟨rfl, rfl⟩ := Prod.mk.inj hstep
      exact h
  | visiting job index p =>
    cases job with
    | removeApp app =>
      cases hstep
      exact h.updateEntry (hop (.removeApp app) rfl) p
    | stopArbitration primitiveId domain inst =>
      simp only [threadStep] at hstep
      split at hstep
      · cases hstep
        exact h
      · cases hstep
        exact h
  | removing p =>
    obtain ⟨rfl, rfl⟩ := Prod.mk.inj (underCtxLock_eq_some hstep)
    exact h
  | destroying p =>
    cases hstep
    refine h.modify ?_ p
    exact fun _ hobj => hobj
  | waiting p | createFailed p =>
    simp only [threadStep] at hstep
    split at hstep
    · cases hstep
      refine h.modify ?_ p
      exact fun _ hobj => hobj
    · cases hstep
  | done => cases hstep

end EntryAt

end Arb

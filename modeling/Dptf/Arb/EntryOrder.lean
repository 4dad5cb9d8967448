import Dptf.Arb.Entry
import Dptf.Lib.Machine
import Dptf.Lib.StableSort
import Mathlib.Tactic.SplitIfs

/-!
# The request list is a stable sort of the surviving requests

The specification of an entry's list keeps the requests in the order they came:
`Arrivals.step` drops what an operation makes obsolete and appends what it adds,
and knows nothing of arbitration.  The code keeps one list, updated in a single
walk.

* `arbitrate_eq_insertLast` — **one walk is one insertion**: the application's old
  request leaves the list and the new one goes behind its ties.
* `arbRequests_eq_mergeSort_survivors` — **the list refines the specification** over
  whole runs.
-/

open Lib

namespace Arb

variable {req1 req2 cur : EsifArbReq} {list : List EsifArbReq} {a : Arrivals} {s : EntryState}
  {app : EsifHandle}

/-! ## The order of an arbitration type -/

/-- Values before the absence of one; two values as `le` has them. -/
def rankLe (le : UInt32 → UInt32 → Bool) : Option UInt32 → Option UInt32 → Bool
  | some x, some y => le x y
  | none, some _ => false
  | _, none => true

/-- `a` is at least as good as `b`: valid values come first, larger or smaller ones before
the others as the type says, and without an arbitration function all requests tie. -/
def arbLe (arbType : ArbType) (a b : EsifArbReq) : Bool :=
  if arbType = esifArbitrationUin32GreaterThan then
    rankLe (fun x y => y ≤ x) (uint32? a.reqPtr.data) (uint32? b.reqPtr.data)
  else if arbType = esifArbitrationUin32LessThan then
    rankLe (fun x y => x ≤ y) (uint32? a.reqPtr.data) (uint32? b.reqPtr.data)
  else true

theorem rankLe_trans {le : UInt32 → UInt32 → Bool} (h : ∀ x y z, le x y → le y z → le x z) :
    ∀ a b c, rankLe le a b → rankLe le b c → rankLe le a c := by
  intro a b c hab hbc
  cases a <;> cases b <;> cases c <;> simp_all [rankLe]
  exact h _ _ _ hab hbc

theorem rankLe_total {le : UInt32 → UInt32 → Bool} (h : ∀ x y, le x y || le y x) :
    ∀ a b, rankLe le a b || rankLe le b a := by
  intro a b
  cases a <;> cases b <;> simp [rankLe]
  simpa using h _ _

theorem arbLe_trans (arbType : ArbType) (a b c : EsifArbReq) :
    arbLe arbType a b → arbLe arbType b c → arbLe arbType a c := by
  unfold arbLe
  split
  · refine rankLe_trans ?_ _ _ _
    intro x y z hxy hyz
    simp only [decide_eq_true_eq] at hxy hyz ⊢
    exact UInt32.le_trans hyz hxy
  · split
    · refine rankLe_trans ?_ _ _ _
      intro x y z hxy hyz
      simp only [decide_eq_true_eq] at hxy hyz ⊢
      exact UInt32.le_trans hxy hyz
    · exact fun _ _ => rfl

theorem arbLe_total (arbType : ArbType) (a b : EsifArbReq) :
    arbLe arbType a b || arbLe arbType b a := by
  unfold arbLe
  split
  · refine rankLe_total ?_ _ _
    intro x y
    simpa using UInt32.le_total y x
  · split
    · refine rankLe_total ?_ _ _
      intro x y
      simpa using UInt32.le_total x y
    · rfl

theorem arbLe_refl (arbType : ArbType) (a : EsifArbReq) : arbLe arbType a a := by
  simpa using arbLe_total arbType a a

/-! ## What the arbitration functions decide -/

theorem arbFunctionUInt32_of_some {better : UInt32 → UInt32 → Bool} {data1 data2 : UInt32}
    (h1 : uint32? req1.reqPtr.data = some data1) (h2 : uint32? req2.reqPtr.data = some data2) :
    arbFunctionUInt32 better req1 req2 =
      { rc := esifOk, isValid1 := true, isValid2 := true
        result := if better data1 data2 then 1 else if better data2 data1 then -1 else 0 } := by
  simp only [arbFunctionUInt32, h1, h2]

theorem arbFunctionUInt32_of_left_none (better : UInt32 → UInt32 → Bool) (req2 : EsifArbReq)
    (h1 : uint32? req1.reqPtr.data = none) : (arbFunctionUInt32 better req1 req2).isValid1 = false ∧
      (arbFunctionUInt32 better req1 req2).result = 0 := by
  cases h2 : uint32? req2.reqPtr.data <;> simp [arbFunctionUInt32, h1, h2]

theorem req2Rc_of_none {d : EsifData} (h : uint32? d = none) : req2Rc d = esifEParameterIsNull := by
  cases hbuf : d.bufPtr <;> simp_all [uint32?, req2Rc]

theorem req1Rc_cases (d1 d2 : EsifData) :
    req1Rc d1 d2 = esifOk ∨ req1Rc d1 d2 = esifEParameterIsNull ∨
      req1Rc d1 d2 = esifEParameterIsOutOfBounds := by
  unfold req1Rc
  split_ifs <;> simp

/-- Against data that is not arbitable the function fails, whatever the slip in its second
block leaves in `req1Rc`. -/
theorem arbFunctionUInt32_of_right_none (better : UInt32 → UInt32 → Bool) (req1 : EsifArbReq)
    (h2 : uint32? req2.reqPtr.data = none) : (arbFunctionUInt32 better req1 req2).rc ≠ esifOk ∧
      (arbFunctionUInt32 better req1 req2).isValid1 = (uint32? req1.reqPtr.data).isSome := by
  have hfail : req1Rc req1.reqPtr.data req2.reqPtr.data ||| req2Rc req2.reqPtr.data ≠ esifOk := by
    rw [req2Rc_of_none h2]
    rcases req1Rc_cases req1.reqPtr.data req2.reqPtr.data with h | h | h <;> rw [h] <;> decide
  cases h1 : uint32? req1.reqPtr.data <;> simp [arbFunctionUInt32, h1, h2, hfail]

/-- A comparison function puts the new request in front exactly when the current one is
not at least as good. -/
theorem insertsBefore_arbFunctionUInt32 {better : UInt32 → UInt32 → Bool}
    (le : UInt32 → UInt32 → Bool) (hbetter : ∀ x y, better x y = !le y x) (new cur : EsifArbReq) :
    insertsBefore (some (arbFunctionUInt32 better)) new cur =
      !rankLe le (uint32? cur.reqPtr.data) (uint32? new.reqPtr.data) := by
  unfold insertsBefore
  cases hn : uint32? new.reqPtr.data with
  | none =>
    obtain ⟨hvalid, hres⟩ := arbFunctionUInt32_of_left_none better cur hn
    cases uint32? cur.reqPtr.data <;> simp [hvalid, hres, rankLe]
  | some x =>
    cases hc : uint32? cur.reqPtr.data with
    | none =>
      obtain ⟨hrc, hvalid⟩ := arbFunctionUInt32_of_right_none better new hc
      simp [hrc, hvalid, hn, rankLe]
    | some y =>
      simp only [arbFunctionUInt32_of_some hn hc, rankLe, hbetter]
      cases hyx : le y x <;> cases hxy : le x y <;> simp

/-- **The arbitration function of a type decides by the order of that type.** -/
theorem insertsBefore_eq (arbType : ArbType) (new cur : EsifArbReq) :
    insertsBefore (getArbitrationFunction arbType) new cur = !arbLe arbType cur new := by
  cases hf : getArbitrationFunction arbType with
  | none =>
    have hgt : arbType ≠ esifArbitrationUin32GreaterThan := by
      rintro rfl
      simp at hf
    have hlt : arbType ≠ esifArbitrationUin32LessThan := by
      rintro rfl
      simp at hf
    simp [insertsBefore, arbLe, hgt, hlt]
  | some f =>
    rcases getArbitrationFunction_eq_some hf with ⟨rfl, rfl⟩ | ⟨rfl, rfl⟩
    · refine insertsBefore_arbFunctionUInt32 (fun x y => y ≤ x) (fun x y => ?_) new cur
      simp [← UInt32.not_le]
    · have hne : esifArbitrationUin32LessThan ≠ esifArbitrationUin32GreaterThan := by decide
      simp only [arbLe, hne, if_false, if_true]
      refine insertsBefore_arbFunctionUInt32 (fun x y => x ≤ y) (fun x y => ?_) new cur
      simp [← UInt32.not_le]

/-! ## One walk is one insertion -/

@[simp] theorem othersThan_nil (app : EsifHandle) : othersThan app [] = [] := rfl

@[simp] theorem othersThan_cons_self (h : cur.appHandle = app) (rest : List EsifArbReq) :
    othersThan app (cur :: rest) = othersThan app rest := by
  simp [othersThan, h]

@[simp] theorem othersThan_cons_of_ne (h : cur.appHandle ≠ app) (rest : List EsifArbReq) :
    othersThan app (cur :: rest) = cur :: othersThan app rest := by
  simp [othersThan, h]

theorem othersThan_eq_self (h : app ∉ list.map EsifArbReq.appHandle) :
    othersThan app list = list := by
  rw [othersThan, List.filter_eq_self]
  intro req hreq
  have : req.appHandle ≠ app := fun heq => h (heq ▸ List.mem_map_of_mem hreq)
  simpa using this

theorem nodup_othersThan (app : EsifHandle) (h : (list.map EsifArbReq.appHandle).Nodup) :
    ((othersThan app list).map EsifArbReq.appHandle).Nodup :=
  h.sublist (List.filter_sublist.map _)

theorem not_mem_othersThan (app : EsifHandle) (list : List EsifArbReq) :
    app ∉ (othersThan app list).map EsifArbReq.appHandle := by
  simp [othersThan]

/-- Once the new request is in, the rest of the walk only looks for the old one. -/
theorem arbitrateLoop_inserted {arbFunc : Option ArbitratorFunc} {new : EsifArbReq}
    (isOldRemoved : Bool) (hnodup : (list.map EsifArbReq.appHandle).Nodup)
    (hold : isOldRemoved → new.appHandle ∉ list.map EsifArbReq.appHandle) :
    arbitrateLoop arbFunc new true isOldRemoved list = (true, othersThan new.appHandle list) := by
  induction list generalizing isOldRemoved with
  | nil => rfl
  | cons cur rest ih =>
    obtain ⟨hcur, hrest⟩ := List.nodup_cons.mp hnodup
    cases isOldRemoved with
    | true => simp [arbitrateLoop, othersThan_eq_self (hold rfl)]
    | false =>
      by_cases happ : cur.appHandle = new.appHandle
      · have hno : new.appHandle ∉ rest.map EsifArbReq.appHandle := happ ▸ hcur
        simp [arbitrateLoop, happ, ih true hrest fun _ => hno]
      · simp [arbitrateLoop, happ, ih false hrest (by simp)]

/-- The walk of a request that is not in yet, finished by the insertion at the back. -/
theorem arbitrateLoop_eq_insertLast {arbType : ArbType} {new : EsifArbReq}
    {list : List EsifArbReq} (isOldRemoved : Bool) (hnodup : (list.map EsifArbReq.appHandle).Nodup)
    (hold : isOldRemoved → new.appHandle ∉ list.map EsifArbReq.appHandle) :
    let walked := arbitrateLoop (getArbitrationFunction arbType) new false isOldRemoved list
    (if walked.1 then walked.2 else walked.2 ++ [new]) =
      insertLast (arbLe arbType) new (othersThan new.appHandle list) := by
  induction list generalizing isOldRemoved with
  | nil => rfl
  | cons cur rest ih =>
    obtain ⟨hcur, hrest⟩ := List.nodup_cons.mp hnodup
    by_cases happ : cur.appHandle = new.appHandle
    · have hno : new.appHandle ∉ rest.map EsifArbReq.appHandle := happ ▸ hcur
      simpa [arbitrateLoop, happ] using ih true hrest fun _ => hno
    · have hold' : isOldRemoved → new.appHandle ∉ rest.map EsifArbReq.appHandle :=
        fun h hmem => hold h (by simp [hmem])
      by_cases hle : arbLe arbType cur new
      · have := ih isOldRemoved hrest hold'
        simp only [arbitrateLoop, happ, insertsBefore_eq, hle, Bool.false_and, Bool.not_true,
          Bool.and_false, Bool.false_eq_true, if_false, othersThan_cons_of_ne happ, insertLast,
          if_true] at this ⊢
        rw [← this]
        split <;> simp
      · simp [arbitrateLoop, happ, insertsBefore_eq, hle, arbitrateLoop_inserted isOldRemoved hrest hold',
          insertLast]

/-- **One walk is one insertion.**  The application's old request leaves the list and the
new one goes in front of the first request that is worse. -/
theorem arbitrate_eq_insertLast {arbType : ArbType} (new : EsifArbReq)
    (hnodup : (list.map EsifArbReq.appHandle).Nodup) :
    arbitrate (getArbitrationFunction arbType) list new =
      insertLast (arbLe arbType) new (othersThan new.appHandle list) :=
  arbitrateLoop_eq_insertLast false hnodup (by simp)

/-- Requests of distinct applications, arbitrated one after the other, are inserted one
after the other. -/
theorem foldl_arbitrateRequest (self : EsifArbEntry) (acc list : List EsifArbReq)
    (hnodup : ((acc ++ list).map EsifArbReq.appHandle).Nodup) :
    list.foldl EsifArbEntry.arbitrateRequest { self with arbRequests := acc } =
      { self with
        arbRequests := list.foldl (fun s x => insertLast (arbLe self.arbType) x s) acc } := by
  induction list generalizing acc with
  | nil => rfl
  | cons new rest ih =>
    have hnew : new.appHandle ∉ acc.map EsifArbReq.appHandle := by
      rw [List.map_append, List.map_cons, List.nodup_append] at hnodup
      intro hmem
      exact hnodup.2.2 _ hmem _ (by simp) rfl
    have hacc : (acc.map EsifArbReq.appHandle).Nodup := by
      rw [List.map_append, List.nodup_append] at hnodup
      exact hnodup.1
    have hstep : EsifArbEntry.arbitrateRequest { self with arbRequests := acc } new =
        { self with arbRequests := insertLast (arbLe self.arbType) new acc } := by
      simp only [EsifArbEntry.arbitrateRequest, arbitrate_eq_insertLast new hacc,
        othersThan_eq_self hnew]
    rw [List.foldl_cons, hstep, List.foldl_cons]
    refine ih _ ?_
    have hperm : (insertLast (arbLe self.arbType) new acc ++ rest).Perm (acc ++ new :: rest) :=
      ((insertLast_perm new acc).append_right rest).trans List.perm_middle.symm
    exact (hperm.map _).nodup_iff.mpr hnodup

theorem rearbitrateRequests_eq (self : EsifArbEntry)
    (hnodup : (self.arbRequests.map EsifArbReq.appHandle).Nodup) :
    self.rearbitrateRequests =
      { self with
        arbRequests :=
          self.arbRequests.foldl (fun s x => insertLast (arbLe self.arbType) x s) [] } :=
  foldl_arbitrateRequest self [] self.arbRequests hnodup

/-- The two comparisons tie the same requests, and no function ties all of them: a new
function never ties what the old one kept apart. -/
theorem tied_of_tied_arbFunction {old new : ArbType} (hnew : (getArbitrationFunction new).isSome)
    {a b : EsifArbReq} (h : tied (arbLe new) a b) : tied (arbLe old) a b := by
  obtain ⟨f, hf⟩ := Option.isSome_iff_exists.mp hnew
  -- tied under a comparison means the same value, or no value at all
  have hval : uint32? a.reqPtr.data = uint32? b.reqPtr.data := by
    rcases getArbitrationFunction_eq_some hf with ⟨rfl, -⟩ | ⟨rfl, -⟩
    · cases ha : uint32? a.reqPtr.data <;> cases hb : uint32? b.reqPtr.data <;>
        simp_all [tied, arbLe, rankLe]
      exact UInt32.le_antisymm h.2 h.1
    · have hne : esifArbitrationUin32LessThan ≠ esifArbitrationUin32GreaterThan := by decide
      cases ha : uint32? a.reqPtr.data <;> cases hb : uint32? b.reqPtr.data <;>
        simp_all [tied, arbLe, rankLe]
      exact UInt32.le_antisymm h.1 h.2
  have hself : arbLe old a b = arbLe old a a ∧ arbLe old b a = arbLe old a a := by
    simp [arbLe, hval]
  simp [tied, hself, arbLe_refl]

/-! ## The specification: what survives, in arrival order -/

/-- The state of the specification: whether the entry accepts requests, and the
applications' latest surviving requests in the order they arrived. -/
structure Arrivals where
  isEnabled : Bool
  arrived : List EsifArbReq

/-- What an operation makes of the surviving requests: a request that is accepted replaces
its application's, an application that leaves takes its request along, and disabling or
purging drops them all. -/
def Arrivals.step (a : Arrivals) : EntryOp → Arrivals
  | .executePrimitive addr app (some request) =>
    if a.isEnabled then
      { a with arrived := othersThan app a.arrived ++ [EsifArbReq.create addr app request] }
    else a
  | .executePrimitive _ _ none => a
  | .removeApp app => { a with arrived := othersThan app a.arrived }
  | .setArbitrationFunction _ => a
  | .setLimits _ _ => a
  | .setArbitrationState isEnabled =>
    { isEnabled := isEnabled, arrived := if isEnabled then a.arrived else [] }
  | .purgeRequests => { a with arrived := [] }

/-- Each application's latest surviving request, in arrival order, after a run that starts
without requests. -/
def survivors (isEnabled : Bool) (ops : List EntryOp) : List EsifArbReq :=
  (ops.foldl Arrivals.step { isEnabled := isEnabled, arrived := [] }).arrived

/-! ## The refinement -/

/-- The entry keeps the stable sort of the specification's requests. -/
structure Refines (a : Arrivals) (s : EntryState) : Prop where
  enabled : s.entry.arbitrationEnabled = a.isEnabled
  nodup : (a.arrived.map EsifArbReq.appHandle).Nodup
  sorted : IsStableSort (arbLe s.entry.arbType) a.arrived s.entry.arbRequests

theorem Refines.perm (h : Refines a s) : s.entry.arbRequests.Perm a.arrived :=
  h.sorted.perm (arbLe_trans _) (arbLe_total _)

theorem Refines.nodup_arbRequests (h : Refines a s) :
    (s.entry.arbRequests.map EsifArbReq.appHandle).Nodup :=
  (h.perm.map _).nodup_iff.mpr h.nodup

/-- A request that replaces its application's is a stable insertion. -/
theorem Refines.insert (h : Refines a s) (new : EsifArbReq) :
    ((othersThan new.appHandle a.arrived ++ [new]).map EsifArbReq.appHandle).Nodup ∧
      IsStableSort (arbLe s.entry.arbType) (othersThan new.appHandle a.arrived ++ [new])
        (s.entry.arbitrateRequest new).arbRequests := by
  constructor
  · rw [List.map_append, List.map_singleton]
    refine List.nodup_append.mpr ⟨nodup_othersThan _ h.nodup, by simp, ?_⟩
    rintro app happ _ hnew rfl
    obtain rfl : app = new.appHandle := by simpa using hnew
    exact not_mem_othersThan _ _ happ
  · rw [EsifArbEntry.arbitrateRequest, arbitrate_eq_insertLast new h.nodup_arbRequests]
    exact (h.sorted.filter _).insertLast (arbLe_trans _) (arbLe_total _)

/-- Replaying the list under a new function sorts the arrivals under it. -/
theorem Refines.rearbitrate (h : Refines a s) {arbType : ArbType}
    (hfunc : (getArbitrationFunction arbType).isSome) :
    IsStableSort (arbLe arbType) a.arrived
      (s.entry.withArbType arbType).rearbitrateRequests.arbRequests := by
  rw [rearbitrateRequests_eq (s.entry.withArbType arbType) h.nodup_arbRequests]
  exact h.sorted.resort (fun _ _ => tied_of_tied_arbFunction hfunc)
    (isStableSort_foldl_insertLast (arbLe_trans _) (arbLe_total _) _)

/-- **Every operation keeps the list the stable sort of the surviving requests.** -/
theorem refines_step (a : Arrivals) (s : EntryState) (op : EntryOp) (s' : EntryState)
    (hstep : entryStep s op = some s') (h : Refines a s) : Refines (a.step op) s' := by
  obtain ⟨-, rfl⟩ := entryStep_eq_some hstep
  cases op with
  | executePrimitive addr app request =>
    by_cases hen : s.entry.arbitrationEnabled
    · have hen' : a.isEnabled := h.enabled ▸ hen
      cases request with
      | none =>
        have hsame : (s.entry.apply (.executePrimitive addr app none)).1 = s.entry := by
          simp [EsifArbEntry.apply, EsifArbEntry.executePrimitive, hen]
        exact ⟨by rw [hsame]; exact h.enabled, h.nodup, by rw [hsame]; exact h.sorted⟩
      | some request =>
        obtain ⟨hnodup, hsorted⟩ := h.insert (EsifArbReq.create addr app request)
        have hnew : (s.entry.apply (.executePrimitive addr app (some request))).1 =
            s.entry.arbitrateRequest (EsifArbReq.create addr app request) := by
          simp [EsifArbEntry.apply, EsifArbEntry.executePrimitive, hen]
        simp only [Arrivals.step, hen', if_true, hnew]
        exact ⟨hen, hnodup, hsorted⟩
    · have hsame : (s.entry.apply (.executePrimitive addr app request)).1 = s.entry := by
        simp [EsifArbEntry.apply, EsifArbEntry.executePrimitive, hen]
      have hstay : a.step (.executePrimitive addr app request) = a := by
        have hen' : ¬a.isEnabled := h.enabled ▸ hen
        cases request <;> simp [Arrivals.step, hen']
      rw [hstay]
      exact ⟨by rw [hsame]; exact h.enabled, h.nodup, by rw [hsame]; exact h.sorted⟩
  | removeApp app => exact ⟨h.enabled, nodup_othersThan app h.nodup, h.sorted.filter _⟩
  | setArbitrationFunction arbType =>
    by_cases hfunc : (getArbitrationFunction arbType).isSome
    · have hnew : (s.entry.apply (.setArbitrationFunction arbType)).1 =
          (s.entry.withArbType arbType).rearbitrateRequests := by
        simp [EsifArbEntry.apply, EsifArbEntry.setArbitrationFunction, hfunc]
      have hsorted := h.rearbitrate hfunc
      have heq := rearbitrateRequests_eq (s.entry.withArbType arbType) h.nodup_arbRequests
      refine ⟨?_, h.nodup, ?_⟩
      · rw [hnew, heq]
        exact h.enabled
      · rw [hnew]
        rw [heq] at hsorted ⊢
        exact hsorted
    · have hsame : (s.entry.apply (.setArbitrationFunction arbType)).1 = s.entry := by
        simp [EsifArbEntry.apply, EsifArbEntry.setArbitrationFunction, hfunc]
      exact ⟨by rw [hsame]; exact h.enabled, h.nodup, by rw [hsame]; exact h.sorted⟩
  | setLimits upper lower =>
    simp only [EsifArbEntry.apply, EsifArbEntry.setLimits]
    split
    · split <;> exact ⟨h.enabled, h.nodup, h.sorted⟩
    · exact ⟨h.enabled, h.nodup, h.sorted⟩
  | setArbitrationState isEnabled =>
    cases isEnabled with
    | true => exact ⟨rfl, h.nodup, h.sorted⟩
    | false => exact ⟨rfl, List.nodup_nil, isStableSort_nil⟩
  | purgeRequests => exact ⟨h.enabled, List.nodup_nil, isStableSort_nil⟩

/-- **The list refines the specification.**  From an entry without requests, after any run
of operations the list is the stable sort of the surviving requests under the current
arbitration type; no application has two requests in it, it holds every survivor, and its
head is as good as any. -/
theorem arbRequests_eq_mergeSort_survivors (entry : EsifArbEntry) (hempty : entry.arbRequests = [])
    (queued : List EsifArbPrimReq) (ops : List EntryOp) (s : EntryState)
    (hrun : run entryStep { entry := entry, queued := queued } ops = some s) :
    s.entry.arbRequests =
        (survivors entry.arbitrationEnabled ops).mergeSort (arbLe s.entry.arbType) ∧
      (s.entry.arbRequests.map EsifArbReq.appHandle).Nodup ∧
      (∀ req, req ∈ s.entry.arbRequests ↔ req ∈ survivors entry.arbitrationEnabled ops) ∧
      ∀ best ∈ s.entry.arbRequests.head?, ∀ req ∈ s.entry.arbRequests,
        arbLe s.entry.arbType best req := by
  have hinit : Refines { isEnabled := entry.arbitrationEnabled, arrived := [] }
      { entry := entry, queued := queued } :=
    ⟨rfl, List.nodup_nil, by rw [hempty]; exact isStableSort_nil⟩
  have h := run_simulation refines_step hrun hinit
  refine ⟨h.sorted.eq_mergeSort (arbLe_trans _) (arbLe_total _), h.nodup_arbRequests, ?_, ?_⟩
  · exact fun req => h.sorted.mem_iff (arbLe_total _)
  · exact fun best hbest req hreq => h.sorted.le_of_mem_head? (arbLe_refl _) hbest hreq

/-- The entry of the package power limit, as the table of the processor has it. -/
def powerLimitEntry : EsifArbEntry :=
  EsifArbEntry.create
    { primitiveId := setRaplPowerLimit, domain := esifPrimitiveDomainD0, inst := 0
      arbType := esifArbitrationUin32LessThan
      upperLimit := esifArbLimitMax, lowerLimit := esifArbLimitMin } 1

/-- Two applications, a change of function and a request that replaces an older one. -/
theorem arbRequests_eq_mergeSort_survivors_powerLimit :
    ∃ s, run entryStep { entry := powerLimitEntry, queued := [] }
        [.executePrimitive 1 7 (some (uint32Data 15000)),
          .executePrimitive 2 8 (some (uint32Data 20000)),
          .setArbitrationFunction esifArbitrationUin32GreaterThan,
          .executePrimitive 3 7 (some (uint32Data 25000))] = some s ∧
      s.entry.arbRequests = (survivors true
        [.executePrimitive 1 7 (some (uint32Data 15000)),
          .executePrimitive 2 8 (some (uint32Data 20000)),
          .setArbitrationFunction esifArbitrationUin32GreaterThan,
          .executePrimitive 3 7 (some (uint32Data 25000))]).mergeSort
        (arbLe s.entry.arbType) :=
  ⟨_, rfl, (arbRequests_eq_mergeSort_survivors powerLimitEntry rfl [] _ _ rfl).1⟩

end Arb

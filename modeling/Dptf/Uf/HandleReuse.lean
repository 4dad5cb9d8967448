import Dptf.Uf.HandleMgr

/-!
# Handles that are put back

`EsifHandleMgr_PutHandle` takes any value: it clears the bit of the slot in its low 16 bits
and counts it, without a look at the bit or at the round above the slot.  The search for the
next handle begins at the slot that was given out last, not behind it.

* `putHandle_inert_iff`, `harmless_iff` — what putting back a handle does that is not in use.
* `notReissued_iff` — when a handle that was put back is given out again in the same round.
-/

open Lib

namespace Uf

/-! ## Putting back what is not in use -/

/-- A call; any handle may be put back. -/
def handleCall (s : Handles) : HandleAction → Handles
  | .getNextHandle allocated =>
    match s.mgr.getHandle allocated with
    | (rc, handle, mgr) => ⟨mgr, if rc = esifOk then handle :: s.live else s.live⟩
  | .putHandle handle => ⟨s.mgr.putHandle handle, s.live.erase handle⟩

/-- Putting back a handle that is not in use changes nothing; after the call the slots of the
handles in use are taken, and no more slots are counted than are clear. -/
def Harmless (s : Handles) (a : HandleAction) : Prop :=
  (∀ handle, a = .putHandle handle → handle ∉ s.live →
    (s.mgr.putHandle handle).handleMap = s.mgr.handleMap ∧
      (s.mgr.putHandle handle).numAvailableHandles = s.mgr.numAvailableHandles) ∧
  (∀ handle ∈ (handleCall s a).live,
    bitAt (handleCall s a).mgr.handleMap (HandleMgr.slotOf handle) = true) ∧
  (handleCall s a).mgr.numAvailableHandles.toNat ≤
    (clearSlots (handleCall s a).mgr.handleMap).card

/-- The call does not put back a handle that is not in use, unless it is a reserved one or its
slot is beyond the map. -/
def PutsLive (s : Handles) : HandleAction → Prop
  | .getNextHandle _ => True
  | .putHandle handle =>
    handle ∈ s.live ∨ isReservedHandle handle = true ∨ s.mgr.numSlots ≤ HandleMgr.slotOf handle

namespace HandleMgr

/-- A handle is taken as a slot of the map, or ignored. -/
theorem putHandle_eq (s : HandleMgr) (handle : EsifHandle) :
    s.putHandle handle = if isReservedHandle handle = true ∨ s.numSlots ≤ slotOf handle then s
      else
        { s with
          handleMap := clearBit s.handleMap (slotOf handle / handlesPerLine)
            (slotOf handle % handlesPerLine)
          numAvailableHandles := s.numAvailableHandles + 1 } := by
  have hlines : s.handleMapSize / handleLineSize = s.handleMap.length :=
    Nat.mul_div_cancel _ (by decide)
  have hinside : slotOf handle / handlesPerLine < s.handleMap.length ↔
      ¬s.numSlots ≤ slotOf handle := by
    rw [Nat.div_lt_iff_lt_mul (by decide), Nat.not_le]
    rfl
  unfold putHandle
  simp only [hlines]
  by_cases hreserved : isReservedHandle handle = true
  · simp [hreserved]
  · by_cases hbeyond : s.numSlots ≤ slotOf handle
    · rw [if_neg hreserved, if_pos (Or.inr hbeyond)]
      exact if_neg fun hlt => hinside.mp hlt hbeyond
    · rw [if_neg hreserved, if_neg (not_or.mpr ⟨hreserved, hbeyond⟩)]
      exact if_pos (hinside.mpr hbeyond)

/-- **When putting back a handle changes nothing.**  The bit is not tested and the slot is
counted in any case. -/
theorem putHandle_inert_iff (s : HandleMgr) (handle : EsifHandle) :
    ((s.putHandle handle).handleMap = s.handleMap ∧
      (s.putHandle handle).numAvailableHandles = s.numAvailableHandles) ↔
      isReservedHandle handle = true ∨ s.numSlots ≤ slotOf handle := by
  rw [putHandle_eq]
  constructor
  · rintro ⟨-, hcount⟩
    by_contra hin
    rw [if_neg hin] at hcount
    simp at hcount
  · intro hout
    rw [if_pos hout]
    exact ⟨rfl, rfl⟩

end HandleMgr

open HandleMgr in
theorem Coupled.handleCall {s : Handles} {a : HandleAction} (hput : PutsLive s a)
    (h : Coupled s.mgr s.live) : Coupled (handleCall s a).mgr (handleCall s a).live := by
  cases a with
  | getNextHandle allocated => exact h.getHandle allocated
  | putHandle handle =>
    by_cases hmem : handle ∈ s.live
    · exact h.put hmem
    · rcases hput with hlive | hout
      · exact absurd hlive hmem
      · have hsame : s.mgr.putHandle handle = s.mgr := by rw [putHandle_eq, if_pos hout]
        simp only [Uf.handleCall, hsame, List.erase_of_not_mem hmem]
        exact h

/-- **Putting back a handle that is not in use** is harmless in exactly the runs in which it is
ignored: for each state that calls lead to, and along each run. -/
theorem harmless_iff (calls : List HandleAction) :
    (∀ handle ∉ (calls.foldl handleCall ⟨HandleMgr.create, []⟩).live,
      let mgr := (calls.foldl handleCall ⟨HandleMgr.create, []⟩).mgr
      ((mgr.putHandle handle).handleMap = mgr.handleMap ∧
          (mgr.putHandle handle).numAvailableHandles = mgr.numAvailableHandles) ↔
        isReservedHandle handle = true ∨ mgr.numSlots ≤ HandleMgr.slotOf handle) ∧
    (EveryStep (fun s a => some (handleCall s a)) Harmless ⟨HandleMgr.create, []⟩ calls ↔
      EveryStep (fun s a => some (handleCall s a)) PutsLive ⟨HandleMgr.create, []⟩ calls) := by
  refine ⟨fun handle _ => HandleMgr.putHandle_inert_iff _ handle, ?_⟩
  refine @everyStep_congr_of_ok _ _ _ _ _ (fun s => Coupled s.mgr s.live)
    (fun s a s' hput hstep h => ?_) (fun s a h => ?_) _ Coupled.create calls
  · obtain rfl := Option.some.inj hstep
    exact h.handleCall hput
  · constructor
    · rintro ⟨hinert, -⟩
      cases a with
      | getNextHandle allocated => trivial
      | putHandle handle =>
        by_cases hmem : handle ∈ s.live
        · exact .inl hmem
        · exact .inr ((HandleMgr.putHandle_inert_iff _ handle).mp (hinert handle rfl hmem))
    · intro hput
      have h' := h.handleCall hput
      refine ⟨fun handle ha hmem => ?_, fun handle hlive => ?_, Nat.le_of_eq h'.numAvailable⟩
      · subst ha
        exact (HandleMgr.putHandle_inert_iff _ handle).mpr (hput.resolve_left hmem)
      · exact (h'.bit_iff _).mpr (List.mem_map_of_mem hlive)

/-- A handle that was put back twice is counted twice. -/
theorem putTwice_not_harmless :
    ¬EveryStep (fun s a => some (handleCall s a)) Harmless ⟨HandleMgr.create, []⟩
      [.getNextHandle true, .putHandle 2, .putHandle 2] := by
  rintro ⟨-, hrest⟩
  have hsecond := ((hrest _ rfl).2 _ rfl).1
  exact absurd (hsecond.1 2 rfl (by decide)).2 (by decide)

/-! ## Giving out again what was put back -/

/-- The manager, the handles it gave out since its counter last advanced, those of them that were
put back since, and the handle of the call before if that put one back. -/
structure Round where
  mgr : HandleMgr
  issued : List EsifHandle
  returned : List EsifHandle
  lastPut : Option EsifHandle
deriving DecidableEq, Repr

namespace Round

def start : Round := ⟨HandleMgr.create, [], [], none⟩

/-- A call. -/
def call (s : Round) : HandleAction → Round
  | .getNextHandle allocated =>
    match s.mgr.getHandle allocated with
    | (rc, handle, mgr) =>
      let given := if rc = esifOk then [handle] else []
      if mgr.instanceCounter = s.mgr.instanceCounter then
        ⟨mgr, given ++ s.issued, s.returned, none⟩
      else ⟨mgr, given, [], none⟩
  | .putHandle handle =>
    ⟨s.mgr.putHandle handle, s.issued,
      if handle ∈ s.issued then handle :: s.returned else s.returned, some handle⟩

/-- A handle that was put back is not given out again while the counter stays, and never directly
behind the call that put it back. -/
def NotReissued (s : Round) : HandleAction → Prop
  | .getNextHandle allocated =>
    match s.mgr.getHandle allocated with
    | (rc, handle, mgr) =>
      rc = esifOk →
        (mgr.instanceCounter = s.mgr.instanceCounter → handle ∉ s.returned) ∧
          s.lastPut ≠ some handle
  | .putHandle _ => True

end Round

namespace HandleMgr

variable {s s' : HandleMgr} {allocated : Bool}

/-- The manager a search goes through, which may have one line more; there is none where no
search takes place. -/
def searched (s : HandleMgr) (allocated : Bool) : Option HandleMgr :=
  if s.numAvailableHandles = 0 ∧ maxHandleMapSize ≤ s.handleMapSize then none
  else if s.numAvailableHandles < 64 ∧ s.handleMapSize < maxHandleMapSize then
    s.allocateAdditionalHandles allocated
  else some s

/-- The handle carries the number of the round above its slot. -/
def IsOfRound (instanceCounter : UInt64) (handle : EsifHandle) : Prop :=
  handle = slotHandle instanceCounter (slotOf handle)

/-- In the round the slots have no handle to give: they are taken, or would get a reserved one. -/
def NoneLeft (s : HandleMgr) (instanceCounter : UInt64) (first last : Nat) : Prop :=
  ∀ n, first ≤ n → n < last → s.isFree (instanceCounter, n) = false

/-- A search comes to the slot of the handle in the round of the handle.  In this round it goes on
from the cursor; in the next one it begins at the first slot and ends at the cursor. -/
def ComesTo (s : HandleMgr) (handle : EsifHandle) : Prop :=
  (IsOfRound s.instanceCounter handle ∧ s.atEnd = false ∧ s.cursor ≤ slotOf handle ∧
    s.NoneLeft s.instanceCounter s.cursor (slotOf handle)) ∨
  (IsOfRound (s.instanceCounter + 1) handle ∧ slotOf handle ≤ s.cursor ∧
    (s.atEnd = false → s.NoneLeft s.instanceCounter s.cursor s.numSlots) ∧
    s.NoneLeft (s.instanceCounter + 1) 0 (slotOf handle))

theorem getHandle_of_searched (h : s.searched allocated = some s') :
    s.getHandle allocated = s'.findHandle := by
  unfold searched at h
  unfold getHandle
  split at h
  · cases h
  · next hnot =>
    rw [if_neg hnot]
    split at h
    · next hfew =>
      rw [if_pos hfew, h]
    · next hmany =>
      rw [if_neg hmany]
      cases h
      rfl

theorem getHandle_of_not_searched (h : s.searched allocated = none) :
    (s.getHandle allocated).1 ≠ esifOk ∧ (s.getHandle allocated).2.2 = s := by
  unfold searched at h
  unfold getHandle
  split at h
  · next hnot =>
    rw [if_pos hnot]
    exact ⟨show esifEInvalidHandle ≠ esifOk by decide, rfl⟩
  · next hnot =>
    rw [if_neg hnot]
    split at h
    · next hfew =>
      rw [if_pos hfew, h]
      exact ⟨show esifENoMemory ≠ esifOk by decide, rfl⟩
    · cases h

/-- A line more leaves the slots there were as they are, and the cursor where it is. -/
structure GrownFrom (s s' : HandleMgr) : Prop where
  bits : ∀ n, bitAt s'.handleMap n = bitAt s.handleMap n
  cursor : s'.cursor = s.cursor
  counter : s'.instanceCounter = s.instanceCounter
  slots : s.numSlots ≤ s'.numSlots
  small : s.numSlots ≤ 65536 → s'.numSlots ≤ 65536
  inside : s.Inside → s'.Inside

theorem grownFrom_searched (h : s.searched allocated = some s') : GrownFrom s s' := by
  unfold searched at h
  split at h
  · cases h
  · split at h
    · next hfew =>
      unfold allocateAdditionalHandles at h
      obtain ⟨-, rfl⟩ := Option.ite_some_none_eq_some.1 h
      have hroom := hfew.2
      rw [handleMapSize_eq, maxHandleMapSize_eq] at hroom
      refine ⟨fun n => bitAt_append_zero, rfl, rfl, ?_, fun _ => ?_, fun hin => ⟨?_, hin.curPos⟩⟩
      · simp only [numSlots_eq, List.length_append, List.length_singleton]
        omega
      · simp only [numSlots_eq, List.length_append, List.length_singleton]
        omega
      · have := hin.curLine
        simp only [List.length_append, List.length_singleton]
        omega
    · cases h
      exact ⟨fun _ => rfl, rfl, rfl, Nat.le_refl _, id, id⟩

/-- In this round a search begins at the cursor. -/
theorem order_of_not_atEnd (hin : s.Inside) (hend : s.atEnd = false) :
    ∃ rest, s.order = (s.instanceCounter, s.cursor) :: rest := by
  have hlt := hin.cursor_lt
  obtain ⟨k, hk⟩ : ∃ k, s.numSlots - s.cursor = k + 1 := ⟨s.numSlots - s.cursor - 1, by omega⟩
  simp [order, hend, hk, List.range'_succ]

theorem counter_ne_succ (c : UInt64) : c + 1 ≠ c := by
  intro heq
  simp at heq

/-- What a search finds is not reserved. -/
theorem isReservedHandle_of_found {c : UInt64} {n : Nat}
    (hfind : s.order.find? s.isFree = some (c, n)) :
    isReservedHandle (slotHandle c n) = false := by
  have hfree := List.find?_some hfind
  simp only [isFree, Bool.and_eq_true, Bool.not_eq_true'] at hfree
  exact hfree.2

/-- Where the order of a search has its first free slot. -/
theorem find?_order_iff (hin : s.Inside) {c : UInt64} {n : Nat} :
    s.order.find? s.isFree = some (c, n) ↔ s.isFree (c, n) = true ∧ n < s.numSlots ∧
      ((c = s.instanceCounter ∧ s.atEnd = false ∧ s.cursor ≤ n ∧
          s.NoneLeft s.instanceCounter s.cursor n) ∨
        (c = s.instanceCounter + 1 ∧ n ≤ s.cursor ∧
          (s.atEnd = false → s.NoneLeft s.instanceCounter s.cursor s.numSlots) ∧
          s.NoneLeft (s.instanceCounter + 1) 0 n)) := by
  have hlt := hin.cursor_lt
  have hsum : s.cursor + (s.numSlots - s.cursor) = s.numSlots := by omega
  -- the part of the order that is of the next round
  have hagain : ((List.range' 0 (s.cursor + 1)).map (s.instanceCounter + 1, ·)).find? s.isFree =
        some (c, n) ↔
      c = s.instanceCounter + 1 ∧ s.isFree (c, n) = true ∧ n ≤ s.cursor ∧
        s.NoneLeft (s.instanceCounter + 1) 0 n := by
    simp only [List.find?_map, Option.map_eq_some_iff, List.find?_range'_eq_some, Prod.mk.injEq,
      List.mem_range'_1, Function.comp_apply, Bool.not_eq_true', NoneLeft]
    constructor
    · rintro ⟨m, ⟨hfree, hm, hnone⟩, rfl, rfl⟩
      exact ⟨rfl, hfree, by omega, hnone⟩
    · rintro ⟨rfl, hfree, hm, hnone⟩
      exact ⟨n, ⟨hfree, by omega, hnone⟩, rfl, rfl⟩
  rw [order, List.find?_append, Option.or_eq_some_iff, hagain]
  cases hend : s.atEnd with
  | true =>
    simp only [if_true, List.find?_nil, reduceCtorEq, false_or, true_and, false_and, and_false]
    constructor
    · rintro ⟨hc, hfree, hle, hnone⟩
      exact ⟨hfree, by omega, hc, hle, by simp, hnone⟩
    · rintro ⟨hfree, -, hc, hle, -, hnone⟩
      exact ⟨hc, hfree, hle, hnone⟩
  | false =>
    simp only [Bool.false_eq_true, if_false, List.find?_map, Option.map_eq_some_iff,
      Option.map_eq_none_iff, List.find?_range'_eq_some, List.find?_range'_eq_none, Prod.mk.injEq,
      List.mem_range'_1, hsum, Function.comp_apply, Bool.not_eq_true', true_and, true_implies]
    constructor
    · rintro (⟨m, ⟨hfree, hm, hnone⟩, rfl, rfl⟩ | ⟨hnone, hc, hfree, hle, hbefore⟩)
      · exact ⟨hfree, by omega, .inl ⟨rfl, hm.1, hnone⟩⟩
      · exact ⟨hfree, by omega, .inr ⟨hc, hle, hnone, hbefore⟩⟩
    · rintro ⟨hfree, hn, ⟨rfl, hge, hnone⟩ | ⟨hc, hle, hnone, hbefore⟩⟩
      · exact .inl ⟨n, ⟨hfree, ⟨hge, hn⟩, hnone⟩, rfl, rfl⟩
      · exact .inr ⟨hnone, hc, hfree, hle, hbefore⟩

/-- In this round a search does not go back. -/
theorem cursor_le_of_found (hin : s.Inside) {n : Nat}
    (hfind : s.order.find? s.isFree = some (s.instanceCounter, n)) :
    s.atEnd = false ∧ s.cursor ≤ n := by
  obtain ⟨-, -, ⟨-, hend, hge, -⟩ | ⟨hnext, -⟩⟩ := (find?_order_iff hin).mp hfind
  · exact ⟨hend, hge⟩
  · exact absurd hnext.symm (counter_ne_succ _)

/-- A search that comes to the slot of a handle gives out the handle, where the slot is clear. -/
theorem comesTo_iff_found (hin : s.Inside) (hsmall : s.numSlots ≤ 65536) {handle : EsifHandle}
    (hclear : bitAt s.handleMap (slotOf handle) = false) :
    isReservedHandle handle = false ∧ slotOf handle < s.numSlots ∧ s.ComesTo handle ↔
      ∃ c n, s.order.find? s.isFree = some (c, n) ∧ handle = slotHandle c n := by
  have hfree : ∀ c, IsOfRound c handle → isReservedHandle handle = false →
      s.isFree (c, slotOf handle) = true := fun c hround hreserved => by
    have hhandle : slotHandle c (slotOf handle) = handle := hround.symm
    simp [isFree, hclear, hhandle, hreserved]
  constructor
  · rintro ⟨hreserved, hn, ⟨hround, hend, hge, hnone⟩ | ⟨hround, hle, hrest, hnone⟩⟩
    · exact ⟨_, _, (find?_order_iff hin).mpr
        ⟨hfree _ hround hreserved, hn, .inl ⟨rfl, hend, hge, hnone⟩⟩, hround⟩
    · exact ⟨_, _, (find?_order_iff hin).mpr
        ⟨hfree _ hround hreserved, hn, .inr ⟨rfl, hle, hrest, hnone⟩⟩, hround⟩
  · rintro ⟨c, n, hfind, rfl⟩
    obtain ⟨hfound, hn, hplace⟩ := (find?_order_iff hin).mp hfind
    have hslot : slotOf (slotHandle c n) = n := slotOf_slotHandle c (by omega)
    simp only [isFree, Bool.and_eq_true, Bool.not_eq_true'] at hfound
    rw [ComesTo, IsOfRound, IsOfRound, hslot]
    refine ⟨hfound.2, hn, ?_⟩
    rcases hplace with ⟨rfl, hplace⟩ | ⟨rfl, hplace⟩
    · exact .inl ⟨rfl, hplace⟩
    · exact .inr ⟨rfl, hplace⟩

end HandleMgr

namespace Round

open HandleMgr

variable {s : Round} {mgr : HandleMgr} {allocated : Bool}

/-- The slot at the cursor is clear again, its handle of this round having been put back. -/
def LastReturned (s : Round) : Prop :=
  bitAt s.mgr.handleMap s.mgr.cursor = false ∧
    slotHandle s.mgr.instanceCounter s.mgr.cursor ∈ s.returned

/-- No search begins at a slot whose handle of this round was put back, unless that is the last
slot of the map, and no search directly behind `PutHandle` comes to the slot of that handle in the
round whose number the handle carries. -/
def SearchesOn (s : Round) : HandleAction → Prop
  | .getNextHandle allocated =>
    ∀ mgr, s.mgr.searched allocated = some mgr →
      (s.LastReturned → mgr.atEnd = true) ∧
        ∀ handle, s.lastPut = some handle → isReservedHandle handle = false →
          slotOf handle < mgr.numSlots → ¬mgr.ComesTo handle
  | .putHandle _ => True

/-- The handles of the round are those of slots up to the cursor, and the slot of a handle that was
put back by the last call is clear. -/
structure Kept (s : Round) : Prop where
  inside : s.mgr.Inside
  small : s.mgr.numSlots ≤ 65536
  issued : ∀ handle ∈ s.issued, ∃ n ≤ s.mgr.cursor,
    handle = slotHandle s.mgr.instanceCounter n ∧ isReservedHandle handle = false
  returned : ∀ handle ∈ s.returned, handle ∈ s.issued
  cleared : ∀ handle, s.lastPut = some handle → isReservedHandle handle = false →
    bitAt s.mgr.handleMap (slotOf handle) = false

theorem slotHandle_injective {c : UInt64} {m n : Nat} (hm : m < 65536) (hn : n < 65536)
    (h : slotHandle c m = slotHandle c n) : m = n := by
  rw [← slotOf_slotHandle c hm, ← slotOf_slotHandle c hn, h]

theorem kept_start : Kept start :=
  ⟨⟨by decide, by decide⟩, by decide, by simp [start], by simp [start], by simp [start]⟩

/-- What a search in the state of a round comes to. -/
theorem Kept.getHandle_eq (h : s.Kept) (hs : s.mgr.searched allocated = some mgr) :
    (∃ c n, mgr.order.find? mgr.isFree = some (c, n) ∧
      s.mgr.getHandle allocated = (esifOk, slotHandle c n,
        (mgr.withInstance c).take (n / handlesPerLine) (n % handlesPerLine))) ∨
    (mgr.order.find? mgr.isFree = none ∧
      s.mgr.getHandle allocated = (esifEInvalidHandle, esifInvalidHandle, mgr.nextInstance)) := by
  have hgrown := grownFrom_searched hs
  rw [getHandle_of_searched hs, findHandle_eq_order (hgrown.inside h.inside)]
  cases hfind : mgr.order.find? mgr.isFree with
  | none => exact .inr ⟨rfl, rfl⟩
  | some x => exact .inl ⟨x.1, x.2, rfl, rfl⟩

theorem cursor_take (mgr : HandleMgr) (c : UInt64) (n : Nat) :
    ((mgr.withInstance c).take (n / handlesPerLine) (n % handlesPerLine)).cursor = n :=
  Nat.div_add_mod' n handlesPerLine

theorem numSlots_take (mgr : HandleMgr) (c : UInt64) (n : Nat) :
    ((mgr.withInstance c).take (n / handlesPerLine) (n % handlesPerLine)).numSlots =
      mgr.numSlots := by
  simp [numSlots_eq, take]

theorem inside_take (c : UInt64) {n : Nat} (hn : n < mgr.numSlots) :
    ((mgr.withInstance c).take (n / handlesPerLine) (n % handlesPerLine)).Inside := by
  refine ⟨?_, Nat.mod_lt _ (by decide)⟩
  simp only [take, length_setBit, withInstance_handleMap]
  exact (Nat.div_lt_iff_lt_mul (by decide)).mpr hn

theorem Kept.get (h : s.Kept) (allocated : Bool) : (s.call (.getNextHandle allocated)).Kept := by
  cases hs : s.mgr.searched allocated with
  | none =>
    obtain ⟨hfail, hsame⟩ := getHandle_of_not_searched hs
    simp only [call, hsame, if_neg hfail, if_true, List.nil_append]
    exact ⟨h.inside, h.small, h.issued, h.returned, by simp⟩
  | some mgr =>
    have hgrown := grownFrom_searched hs
    have hinside := hgrown.inside h.inside
    have hsmall := hgrown.small h.small
    rcases h.getHandle_eq hs with ⟨c, n, hfind, hget⟩ | ⟨-, hget⟩
    · obtain ⟨-, hn, -⟩ := (find?_order_iff hinside).mp hfind
      have hreserved := isReservedHandle_of_found hfind
      have hcounter : ((mgr.withInstance c).take (n / handlesPerLine)
          (n % handlesPerLine)).instanceCounter = c := rfl
      simp only [call, hget, if_true, hcounter]
      split
      · next hsame =>
        -- the cursor has only gone on
        rw [← hgrown.counter] at hsame
        subst hsame
        have hge := (cursor_le_of_found hinside hfind).2
        rw [hgrown.cursor] at hge
        refine ⟨inside_take _ hn, by rw [numSlots_take]; exact hsmall, fun handle hhandle => ?_,
          fun handle hhandle => List.mem_append_right _ (h.returned handle hhandle), by simp⟩
        rw [cursor_take]
        rcases List.mem_append.mp hhandle with hnew | hold
        · obtain rfl := List.mem_singleton.mp hnew
          exact ⟨n, Nat.le_refl n, rfl, hreserved⟩
        · obtain ⟨m, hm, heq, hfine⟩ := h.issued handle hold
          exact ⟨m, by omega, by rw [heq, ← hgrown.counter]; rfl, hfine⟩
      · refine ⟨inside_take _ hn, by rw [numSlots_take]; exact hsmall, fun handle hhandle => ?_,
          by simp, by simp⟩
        obtain rfl := List.mem_singleton.mp hhandle
        rw [cursor_take]
        exact ⟨n, Nat.le_refl n, rfl, hreserved⟩
    · have hcounter : mgr.nextInstance.instanceCounter ≠ s.mgr.instanceCounter := by
        rw [← hgrown.counter]
        exact counter_ne_succ _
      have hfail : esifEInvalidHandle ≠ esifOk := by decide
      simp only [call, hget, if_neg hcounter, if_neg hfail]
      exact ⟨⟨hinside.curLine, hinside.curPos⟩, hsmall, by simp, by simp, by simp⟩

/-- The slot of a handle that was put back is clear. -/
theorem bitAt_putHandle (mgr : HandleMgr) {handle : EsifHandle}
    (hreserved : isReservedHandle handle = false) :
    bitAt (mgr.putHandle handle).handleMap (slotOf handle) = false := by
  rw [putHandle_eq]
  split
  · next hout =>
    have hbeyond : mgr.numSlots ≤ slotOf handle := hout.resolve_left (by simp [hreserved])
    by_contra hbit
    have hlt := lt_of_bitAt (Bool.not_eq_false _ ▸ hbit)
    rw [numSlots_eq] at hbeyond
    omega
  · have hpos : slotOf handle % handlesPerLine < 64 := Nat.mod_lt _ (by decide)
    have hback : slotOf handle / handlesPerLine * 64 + slotOf handle % handlesPerLine =
      slotOf handle := Nat.div_add_mod' _ _
    simp [bitAt_clearBit hpos, hback]

theorem Kept.put (h : s.Kept) (handle : EsifHandle) : (s.call (.putHandle handle)).Kept := by
  have hsame : (s.mgr.putHandle handle).curLine = s.mgr.curLine ∧
      (s.mgr.putHandle handle).curPos = s.mgr.curPos ∧
      (s.mgr.putHandle handle).instanceCounter = s.mgr.instanceCounter ∧
      (s.mgr.putHandle handle).handleMap.length = s.mgr.handleMap.length := by
    rw [putHandle_eq]
    split
    · exact ⟨rfl, rfl, rfl, rfl⟩
    · exact ⟨rfl, rfl, rfl, length_clearBit⟩
  obtain ⟨hline, hpos, hcounter, hlength⟩ := hsame
  refine ⟨⟨?_, ?_⟩, ?_, fun other hother => ?_, fun other hother => ?_, fun other hput hfine => ?_⟩
  · simpa only [call, hline, hlength] using h.inside.curLine
  · simpa only [call, hpos] using h.inside.curPos
  · simpa only [call, numSlots, hlength] using h.small
  · simpa only [call, cursor, hline, hpos, hcounter] using h.issued other hother
  · simp only [call] at hother
    split at hother
    · next hmem =>
      rcases List.mem_cons.mp hother with rfl | hold
      · exact hmem
      · exact h.returned other hold
    · exact h.returned other hother
  · obtain rfl := Option.some.inj hput
    exact bitAt_putHandle s.mgr hfine

theorem Kept.call (h : s.Kept) (a : HandleAction) : (s.call a).Kept := by
  cases a with
  | getNextHandle allocated => exact h.get allocated
  | putHandle handle => exact h.put handle

/-- A slot at the cursor that is clear again is the first one a search tries. -/
theorem Kept.find?_of_lastReturned (h : s.Kept) (hs : s.mgr.searched allocated = some mgr)
    (hlast : s.LastReturned) (hend : mgr.atEnd = false) :
    mgr.order.find? mgr.isFree = some (s.mgr.instanceCounter, s.mgr.cursor) := by
  have hgrown := grownFrom_searched hs
  obtain ⟨hclear, hreturned⟩ := hlast
  obtain ⟨rest, horder⟩ := order_of_not_atEnd (hgrown.inside h.inside) hend
  obtain ⟨m, -, -, hreserved⟩ := h.issued _ (h.returned _ hreturned)
  have hfree : mgr.isFree (s.mgr.instanceCounter, s.mgr.cursor) = true := by
    simp [isFree, hgrown.bits, hclear, hreserved]
  rw [horder, hgrown.counter, hgrown.cursor, List.find?_cons_of_pos hfree]

/-- A slot that is found in this round, and whose handle was put back, is the one at the
cursor: those behind it were not given out, and those before it are not tried. -/
theorem Kept.lastReturned_of_found (h : s.Kept) (hs : s.mgr.searched allocated = some mgr) {n : Nat}
    (hfind : mgr.order.find? mgr.isFree = some (s.mgr.instanceCounter, n))
    (hreturned : slotHandle s.mgr.instanceCounter n ∈ s.returned) :
    s.LastReturned ∧ mgr.atEnd = false := by
  have hgrown := grownFrom_searched hs
  have hinside := hgrown.inside h.inside
  have hsmall := hgrown.small h.small
  have hcursor := hinside.cursor_lt
  obtain ⟨hfree, hn, -⟩ := (find?_order_iff hinside).mp hfind
  rw [← hgrown.counter] at hfind
  obtain ⟨hend, hge⟩ := cursor_le_of_found hinside hfind
  rw [hgrown.cursor] at hcursor hge
  obtain ⟨m, hm, heq, -⟩ := h.issued _ (h.returned _ hreturned)
  obtain rfl := slotHandle_injective (by omega) (by omega) heq
  obtain rfl : n = s.mgr.cursor := by omega
  simp only [isFree, Bool.and_eq_true, Bool.not_eq_true', hgrown.bits] at hfree
  exact ⟨⟨hfree.1, hreturned⟩, hend⟩

/-- **When a call gives out what was put back.** -/
theorem Kept.notReissued_iff_searchesOn (h : s.Kept) (a : HandleAction) :
    s.NotReissued a ↔ s.SearchesOn a := by
  cases a with
  | putHandle handle => exact Iff.rfl
  | getNextHandle allocated =>
    cases hs : s.mgr.searched allocated with
    | none =>
      obtain ⟨hfail, -⟩ := getHandle_of_not_searched hs
      refine iff_of_true (fun hok => absurd hok hfail) fun mgr hmgr => ?_
      rw [hs] at hmgr
      cases hmgr
    | some mgr =>
      have hsearches : s.SearchesOn (.getNextHandle allocated) ↔
          (s.LastReturned → mgr.atEnd = true) ∧
            ∀ handle, s.lastPut = some handle → isReservedHandle handle = false →
              slotOf handle < mgr.numSlots → ¬mgr.ComesTo handle := by
        simp [SearchesOn, hs]
      rw [hsearches]
      have hgrown := grownFrom_searched hs
      have hfound : ∀ handle, bitAt s.mgr.handleMap (slotOf handle) = false → _ :=
        fun handle hclear => @comesTo_iff_found _ (hgrown.inside h.inside)
          (hgrown.small h.small) handle (by rw [hgrown.bits, hclear])
      rcases h.getHandle_eq hs with ⟨c, n, hfind, hget⟩ | ⟨hfind, hget⟩
      · have hreissued : s.NotReissued (.getNextHandle allocated) ↔
            (c = s.mgr.instanceCounter → slotHandle c n ∉ s.returned) ∧
              s.lastPut ≠ some (slotHandle c n) := by
          simp only [NotReissued, hget, true_implies]
          rfl
        rw [hreissued]
        constructor
        · rintro ⟨hkept, hlast⟩
          refine ⟨fun hreturned => ?_, fun handle hput hreserved hn hcomes => ?_⟩
          · by_contra hend
            have hcur := h.find?_of_lastReturned hs hreturned (Bool.not_eq_true _ ▸ hend)
            rw [hfind] at hcur
            cases hcur
            exact hkept rfl hreturned.2
          · obtain ⟨c', n', hfind', rfl⟩ :=
              (hfound handle (h.cleared handle hput hreserved)).mp ⟨hreserved, hn, hcomes⟩
            rw [hfind] at hfind'
            obtain ⟨rfl, rfl⟩ := Prod.mk.inj (Option.some.inj hfind')
            exact hlast hput
        · rintro ⟨hend, hnext⟩
          refine ⟨?_, fun hput => ?_⟩
          · rintro rfl hreturned
            obtain ⟨hlast, hnot⟩ := h.lastReturned_of_found hs hfind hreturned
            rw [hend hlast] at hnot
            cases hnot
          · have hreserved := isReservedHandle_of_found hfind
            obtain ⟨-, hn, hcomes⟩ :=
              (hfound _ (h.cleared _ hput hreserved)).mpr ⟨c, n, hfind, rfl⟩
            exact hnext _ hput hreserved hn hcomes
      · have hreissued : s.NotReissued (.getNextHandle allocated) := by
          simp only [NotReissued, hget]
          intro hok
          exact absurd hok (by decide)
        refine iff_of_true hreissued
          ⟨fun hreturned => ?_, fun handle hput hreserved hn hcomes => ?_⟩
        · by_contra hend
          have hcur := h.find?_of_lastReturned hs hreturned (Bool.not_eq_true _ ▸ hend)
          rw [hfind] at hcur
          cases hcur
        · obtain ⟨c, n, hfind', -⟩ :=
            (hfound handle (h.cleared handle hput hreserved)).mp ⟨hreserved, hn, hcomes⟩
          rw [hfind] at hfind'
          cases hfind'

/-- **A handle that was put back is not given out again at once** in exactly the runs whose
searches do not come to it first. -/
theorem notReissued_iff (calls : List HandleAction) :
    EveryStep (fun s a => some (Round.call s a)) NotReissued start calls ↔
      EveryStep (fun s a => some (Round.call s a)) SearchesOn start calls := by
  refine @everyStep_congr _ _ _ _ _ Kept (fun s a s' hstep h => ?_) (fun s a h => ?_) _ kept_start
    calls
  · obtain rfl := Option.some.inj hstep
    exact h.call a
  · exact h.notReissued_iff_searchesOn a

/-- The handle given out last is put back, and given out again. -/
theorem lastHandle_reissued :
    ¬EveryStep (fun s a => some (Round.call s a)) NotReissued start
      [.getNextHandle true, .putHandle 2, .getNextHandle true] := by
  rintro ⟨-, hrest⟩
  have hthird := ((hrest _ rfl).2 _ rfl).1
  exact absurd (hthird rfl).2 (by decide)

end Round

end Uf

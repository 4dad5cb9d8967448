import Mathlib.Data.List.Nodup
import Dptf.Lib.Bitmap
import Dptf.Lib.Machine
import Dptf.Common.Types

/-!
# The handle manager

`esif_uf_handlemgr.c`.  A bitmap says which slots are taken; a handle is its slot in the low
16 bits and the number of the round in which it was given out above them.  The search goes
on from the slot given out last, and once it has passed the end of the map another round
begins.

* `live_handles` — they do after every run, and no search fails that needs not.
-/

open Lib

namespace Uf

/-- `ESIF_HNDLMGR_NUM_HANDLE_BITS`. -/
def numHandleBits : Nat := 16

/-- `ESIF_HNDLMGR_HANDLES_PER_LINE`. -/
def handlesPerLine : Nat := 64

/-- `ESIF_HNDLMGR_LINE_SIZE`, in bytes. -/
def handleLineSize : Nat := handlesPerLine / 8

/-- `ESIF_HNDLMGR_MAX_HANDLE_MAP_SIZE`, in bytes. -/
def maxHandleMapSize : Nat := 2 ^ numHandleBits / 8

/-- `ESIF_HNDLMGR_HANDLE_MASK`. -/
def handleMask : UInt64 := 0xFFFF

/-- `EsifHandleMgr_IsReservedHandle`. -/
def isReservedHandle (handle : EsifHandle) : Bool :=
  handle = 0 || handle = 1 || handle = 0xFFFFFFFFFFFFFFFE || handle = esifInvalidHandle

/-- `EsifHandleMgr`; the lines of the map are its words. -/
structure HandleMgr where
  handleMap : List (BitVec 64)
  numAvailableHandles : UInt64
  curLine : Nat
  curPos : Nat
  instanceCounter : UInt64
deriving DecidableEq, Repr

namespace HandleMgr

variable {s : HandleMgr}

/-- `EsifHandleMgr_Create`. -/
def create : HandleMgr := ⟨[0], 64, 0, 0, 0⟩

/-- The size of the map in bytes. -/
def handleMapSize (s : HandleMgr) : Nat := s.handleMap.length * handleLineSize

/-- The handle a slot has in a round. -/
def handleAt (instanceCounter : UInt64) (lineNum pos : Nat) : EsifHandle :=
  UInt64.ofNat (lineNum * handlesPerLine + pos) ||| instanceCounter <<< 16

/-- The slot is free, and its handle is not a reserved one. -/
def usable (s : HandleMgr) (lineNum pos : Nat) : Bool :=
  !(s.handleMap.getD lineNum 0).getLsbD pos &&
    !isReservedHandle (handleAt s.instanceCounter lineNum pos)

/-- Take a slot that was found. -/
def take (s : HandleMgr) (lineNum pos : Nat) : HandleMgr :=
  { s with
    handleMap := setBit s.handleMap lineNum pos
    curLine := lineNum
    curPos := pos
    numAvailableHandles := s.numAvailableHandles - 1 }

/-- `EsifHandleMgr_FindHandleInRegion`. -/
def findHandleInRegion (s : HandleMgr) (startLineNum stopLineNum startPos stopPos : Nat) :
    Option (EsifHandle × HandleMgr) :=
  (findSlot handlesPerLine s.usable stopLineNum stopPos (stopLineNum + 1 - startLineNum)
    startLineNum startPos).map fun (lineNum, pos) =>
      (handleAt s.instanceCounter lineNum pos, s.take lineNum pos)

/-- The cursor is at the end of the map. -/
def atEnd (s : HandleMgr) : Bool :=
  s.curPos = handlesPerLine - 1 && s.curLine = s.handleMap.length - 1

/-- The next round. -/
def nextInstance (s : HandleMgr) : HandleMgr :=
  { s with instanceCounter := s.instanceCounter + 1 }

/-- `EsifHandleMgr_FindHandle`: the remainder of the map, then from the beginning. -/
def findHandle (s : HandleMgr) : EsifError × EsifHandle × HandleMgr :=
  let found :=
    if s.atEnd then none
    else
      s.findHandleInRegion s.curLine (s.handleMap.length - 1) s.curPos (handlesPerLine - 1)
  match found with
  | some (handle, s') => (esifOk, handle, s')
  | none =>
    match s.nextInstance.findHandleInRegion 0 s.curLine 0 s.curPos with
    | some (handle, s') => (esifOk, handle, s')
    | none => (esifEInvalidHandle, esifInvalidHandle, s.nextInstance)

/-- `EsifHandleMgr_AllocateAdditionalHandles`: one line more, unless `realloc` fails. -/
def allocateAdditionalHandles (s : HandleMgr) (allocated : Bool) : Option HandleMgr :=
  if allocated then
    some
      { s with
        handleMap := s.handleMap ++ [0#64]
        numAvailableHandles := s.numAvailableHandles + 64 }
  else none

/-- `EsifHandleMgr_GetHandle`. -/
def getHandle (s : HandleMgr) (allocated : Bool) : EsifError × EsifHandle × HandleMgr :=
  if s.numAvailableHandles = 0 ∧ maxHandleMapSize ≤ s.handleMapSize then
    (esifEInvalidHandle, esifInvalidHandle, s)
  else if s.numAvailableHandles < 64 ∧ s.handleMapSize < maxHandleMapSize then
    match s.allocateAdditionalHandles allocated with
    | some s' => s'.findHandle
    | none => (esifENoMemory, esifInvalidHandle, s)
  else s.findHandle

/-- `EsifHandleMgr_PutHandle`.  Its result is `ESIF_E_UNSPECIFIED` whatever it did. -/
def putHandle (s : HandleMgr) (handle : EsifHandle) : HandleMgr :=
  if isReservedHandle handle then s
  else
    let handleValue := (handle &&& handleMask).toNat
    let lineNum := handleValue / handlesPerLine
    let pos := handleValue % handlesPerLine
    if lineNum < s.handleMapSize / handleLineSize then
      { s with
        handleMap := clearBit s.handleMap lineNum pos
        numAvailableHandles := s.numAvailableHandles + 1 }
    else s

/-! ## Slots and handles -/

/-- The slot of a handle. -/
def slotOf (handle : EsifHandle) : Nat := (handle &&& handleMask).toNat

/-- The slot the cursor is at. -/
def cursor (s : HandleMgr) : Nat := s.curLine * handlesPerLine + s.curPos

/-- The slots of the map. -/
def numSlots (s : HandleMgr) : Nat := s.handleMap.length * handlesPerLine

/-- The handle of a slot in a round. -/
def slotHandle (instanceCounter : UInt64) (n : Nat) : EsifHandle :=
  handleAt instanceCounter (n / handlesPerLine) (n % handlesPerLine)

/-- The handles a search would give the slot: from the cursor on that of this round, up to
the cursor that of the next one. -/
def offers (s : HandleMgr) (n : Nat) : List EsifHandle :=
  (if s.cursor ≤ n ∧ s.atEnd = false then [slotHandle s.instanceCounter n] else []) ++
  (if n ≤ s.cursor then [slotHandle (s.instanceCounter + 1) n] else [])

/-- The slots in the order in which a search tries them, each with the round its handle would
be of. -/
def order (s : HandleMgr) : List (UInt64 × Nat) :=
  (if s.atEnd then []
    else (List.range' s.cursor (s.numSlots - s.cursor)).map (s.instanceCounter, ·)) ++
  (List.range' 0 (s.cursor + 1)).map (s.instanceCounter + 1, ·)

/-- The slot is clear, and its handle in the round is not a reserved one. -/
def isFree (s : HandleMgr) (x : UInt64 × Nat) : Bool :=
  !bitAt s.handleMap x.2 && !isReservedHandle (slotHandle x.1 x.2)

/-- The slot is in the map and clear. -/
def IsClear (s : HandleMgr) (n : Nat) : Prop := n < s.numSlots ∧ bitAt s.handleMap n = false

/-- The slot is the one of a reserved handle. -/
def IsReservedSlot (n : Nat) : Prop := ∃ handle, isReservedHandle handle = true ∧ slotOf handle = n

/-- The cursor is inside the map. -/
structure Inside (s : HandleMgr) : Prop where
  curLine : s.curLine < s.handleMap.length
  curPos : s.curPos < handlesPerLine

theorem slotOf_slotHandle (instanceCounter : UInt64) {n : Nat} (hn : n < 65536) :
    slotOf (slotHandle instanceCounter n) = n := by
  have hmask : handleMask.toNat = 2 ^ 16 - 1 := rfl
  have hbits : (16 : UInt64).toNat % 64 = 16 := rfl
  have hslot : n / handlesPerLine * handlesPerLine + n % handlesPerLine = n := Nat.div_add_mod' n _
  have hround : instanceCounter.toNat * 2 ^ 16 % 2 ^ 64 % 2 ^ 16 = 0 := by omega
  rw [slotOf, slotHandle, handleAt, hslot, UInt64.toNat_and, hmask, Nat.and_two_pow_sub_one_eq_mod,
    UInt64.toNat_or, Nat.or_mod_two_pow, UInt64.toNat_shiftLeft, hbits, Nat.shiftLeft_eq, hround,
    Nat.or_zero, UInt64.toNat_ofNat']
  omega

theorem isReservedSlot_iff {n : Nat} :
    IsReservedSlot n ↔ n ∈ ({0, 1, 65534, 65535} : Finset Nat) := by
  constructor
  · rintro ⟨handle, h, rfl⟩
    simp only [isReservedHandle, Bool.or_eq_true, decide_eq_true_eq] at h
    rcases h with ((rfl | rfl) | rfl) | rfl <;> decide
  · intro h
    simp only [Finset.mem_insert, Finset.mem_singleton] at h
    rcases h with rfl | rfl | rfl | rfl
    · exact ⟨0, by decide, by decide⟩
    · exact ⟨1, by decide, by decide⟩
    · exact ⟨0xFFFFFFFFFFFFFFFE, by decide, by decide⟩
    · exact ⟨esifInvalidHandle, by decide, by decide⟩

/-! ## The search -/

/-- A round given by its number. -/
def withInstance (s : HandleMgr) (instanceCounter : UInt64) : HandleMgr :=
  { s with instanceCounter := instanceCounter }

@[simp] theorem withInstance_handleMap (s : HandleMgr) (c : UInt64) :
    (s.withInstance c).handleMap = s.handleMap := rfl

@[simp] theorem withInstance_numAvailableHandles (s : HandleMgr) (c : UInt64) :
    (s.withInstance c).numAvailableHandles = s.numAvailableHandles := rfl

theorem Inside.cursor_lt (h : s.Inside) : s.cursor < s.numSlots := by
  have hline := Nat.mul_le_mul_right handlesPerLine h.curLine
  rw [Nat.succ_mul] at hline
  have hpos := h.curPos
  unfold cursor numSlots
  omega

/-- A search of a region goes through its slots in their order. -/
theorem findHandleInRegion_eq_find? (s : HandleMgr) {startLine stopLine startPos stopPos : Nat}
    (hstart : startPos < handlesPerLine) (hstop : stopPos < handlesPerLine)
    (hle : startLine ≤ stopLine) :
    s.findHandleInRegion startLine stopLine startPos stopPos =
      ((List.range' (startLine * handlesPerLine + startPos)
          (stopLine * handlesPerLine + stopPos + 1 - (startLine * handlesPerLine + startPos))).find?
        fun n => s.isFree (s.instanceCounter, n)).map fun n =>
          (slotHandle s.instanceCounter n, s.take (n / handlesPerLine) (n % handlesPerLine)) := by
  rw [findHandleInRegion, findSlot_eq_find? hstop (Nat.le_of_lt hstart) (by omega), Option.map_map]
  rfl

theorem numSlots_eq_last {s : HandleMgr} (h : s.Inside) :
    (s.handleMap.length - 1) * handlesPerLine + (handlesPerLine - 1) + 1 = s.numSlots := by
  have hline := h.curLine
  simp only [handlesPerLine, numSlots]
  omega

/-- **A search takes the first slot in its order that is free.** -/
theorem findHandle_eq_order {s : HandleMgr} (h : s.Inside) :
    s.findHandle = match s.order.find? s.isFree with
      | some (c, n) => (esifOk, slotHandle c n,
          (s.withInstance c).take (n / handlesPerLine) (n % handlesPerLine))
      | none => (esifEInvalidHandle, esifInvalidHandle, s.nextInstance) := by
  have hline := h.curLine
  have hrest := s.findHandleInRegion_eq_find? h.curPos
    (show handlesPerLine - 1 < handlesPerLine by decide)
    (show s.curLine ≤ s.handleMap.length - 1 by omega)
  have hagain := s.nextInstance.findHandleInRegion_eq_find? (show 0 < handlesPerLine by decide)
    h.curPos (Nat.zero_le s.curLine)
  have hsecond : (List.range' (0 * handlesPerLine + 0)
      (s.curLine * handlesPerLine + s.curPos + 1 - (0 * handlesPerLine + 0))).find?
        (fun n => s.nextInstance.isFree (s.nextInstance.instanceCounter, n)) =
      (List.range' 0 (s.cursor + 1)).find? (s.isFree ∘ (s.instanceCounter + 1, ·)) := rfl
  rw [numSlots_eq_last h] at hrest
  rw [hsecond] at hagain
  rw [order, List.find?_append, List.find?_map, findHandle, hagain]
  cases hend : s.atEnd with
  | true =>
    simp only [if_true, List.find?_nil, Option.none_or]
    cases (List.range' 0 (s.cursor + 1)).find? (s.isFree ∘ (s.instanceCounter + 1, ·)) <;> rfl
  | false =>
    simp only [Bool.false_eq_true, if_false, hrest, List.find?_map]
    have hfirst : (List.range' (s.curLine * handlesPerLine + s.curPos)
        (s.numSlots - (s.curLine * handlesPerLine + s.curPos))).find?
          (fun n => s.isFree (s.instanceCounter, n)) =
        (List.range' s.cursor (s.numSlots - s.cursor)).find?
          (s.isFree ∘ (s.instanceCounter, ·)) := rfl
    rw [hfirst]
    cases (List.range' s.cursor (s.numSlots - s.cursor)).find?
      (s.isFree ∘ (s.instanceCounter, ·)) with
    | some n => rfl
    | none =>
      cases (List.range' 0 (s.cursor + 1)).find? (s.isFree ∘ (s.instanceCounter + 1, ·)) <;> rfl

theorem mem_order_iff (h : s.Inside) {c : UInt64} {n : Nat} : (c, n) ∈ s.order ↔
    n < s.numSlots ∧ ((c = s.instanceCounter ∧ s.cursor ≤ n ∧ s.atEnd = false) ∨
      (c = s.instanceCounter + 1 ∧ n ≤ s.cursor)) := by
  have hlt := h.cursor_lt
  have hpart : ∀ (round : UInt64) (first count : Nat),
      (c, n) ∈ (List.range' first count).map (round, ·) ↔
        c = round ∧ first ≤ n ∧ n < first + count := fun round first count => by
    simp only [List.mem_map, Prod.mk.injEq, List.mem_range'_1]
    constructor
    · rintro ⟨m, hm, rfl, rfl⟩
      exact ⟨rfl, hm⟩
    · rintro ⟨rfl, hm⟩
      exact ⟨n, hm, rfl, rfl⟩
  rw [order, List.mem_append, hpart]
  cases hend : s.atEnd with
  | true =>
    simp only [if_true, List.not_mem_nil, Bool.true_eq_false, and_false, false_or]
    constructor
    · rintro ⟨hc, hle⟩
      exact ⟨by omega, hc, by omega⟩
    · rintro ⟨-, hc, hle⟩
      exact ⟨hc, by omega⟩
  | false =>
    simp only [Bool.false_eq_true, if_false, hpart, and_true]
    constructor
    · rintro (⟨hc, hge⟩ | ⟨hc, hle⟩)
      · exact ⟨by omega, .inl ⟨hc, hge.1⟩⟩
      · exact ⟨by omega, .inr ⟨hc, by omega⟩⟩
    · rintro ⟨hn, ⟨hc, hge⟩ | ⟨hc, hle⟩⟩
      · exact .inl ⟨hc, by omega⟩
      · exact .inr ⟨hc, by omega⟩

/-- What a search tries is what it offers. -/
theorem mem_offers_iff (h : s.Inside) {n : Nat} (hn : n < s.numSlots) {handle : EsifHandle} :
    handle ∈ s.offers n ↔ ∃ c, (c, n) ∈ s.order ∧ handle = slotHandle c n := by
  simp only [offers, mem_order_iff h, hn, true_and, List.mem_append, List.mem_ite_nil_right,
    List.mem_singleton]
  constructor
  · rintro (⟨hge, hhandle⟩ | ⟨hle, hhandle⟩)
    · exact ⟨_, .inl ⟨rfl, hge⟩, hhandle⟩
    · exact ⟨_, .inr ⟨rfl, hle⟩, hhandle⟩
  · rintro ⟨c, ⟨rfl, hge⟩ | ⟨rfl, hle⟩, hhandle⟩
    · exact .inl ⟨hge, hhandle⟩
    · exact .inr ⟨hle, hhandle⟩

/-- **What a search comes to.**  It gives out a handle offered for a slot that is clear, or
there is none and only the round is another one. -/
theorem findHandle_cases (h : s.Inside) : (∃ n c, s.IsClear n ∧ slotHandle c n ∈ s.offers n ∧
      isReservedHandle (slotHandle c n) = false ∧
      s.findHandle = (esifOk, slotHandle c n,
        (s.withInstance c).take (n / handlesPerLine) (n % handlesPerLine))) ∨
    (s.findHandle = (esifEInvalidHandle, esifInvalidHandle, s.nextInstance) ∧
      ∀ n, s.IsClear n → ∀ handle ∈ s.offers n, isReservedHandle handle = true) := by
  rw [findHandle_eq_order h]
  cases hfind : s.order.find? s.isFree with
  | some x =>
    obtain ⟨c, n⟩ := x
    have hmem := List.mem_of_find?_eq_some hfind
    have hn := ((mem_order_iff h).mp hmem).1
    have hfree := List.find?_some hfind
    simp only [isFree, Bool.and_eq_true, Bool.not_eq_true'] at hfree
    exact .inl ⟨n, c, ⟨hn, hfree.1⟩, (mem_offers_iff h hn).mpr ⟨c, hmem, rfl⟩, hfree.2, rfl⟩
  | none =>
    refine .inr ⟨rfl, fun n hclear handle hoffer => ?_⟩
    obtain ⟨c, hmem, rfl⟩ := (mem_offers_iff h hclear.1).mp hoffer
    have hnot := List.find?_eq_none.mp hfind _ hmem
    simpa [isFree, hclear.2] using hnot

end HandleMgr

/-! ## Handles in use -/

/-- The manager and the handles it gave out that were not put back. -/
structure Handles where
  mgr : HandleMgr
  live : List EsifHandle
deriving DecidableEq, Repr

/-- What its clients call. -/
inductive HandleAction
  | getNextHandle (allocated : Bool)
  /-- Put back a handle. -/
  | putHandle (handle : EsifHandle)
deriving DecidableEq, Repr

/-- A call. -/
def handleStep (s : Handles) : HandleAction → Option Handles
  | .getNextHandle allocated =>
    match s.mgr.getHandle allocated with
    | (rc, handle, mgr) => some ⟨mgr, if rc = esifOk then handle :: s.live else s.live⟩
  | .putHandle handle =>
    if handle ∈ s.live then some ⟨s.mgr.putHandle handle, s.live.erase handle⟩ else none

/-- The manager agrees with the handles in use. -/
structure Coupled (mgr : HandleMgr) (live : List EsifHandle) : Prop where
  slots_nodup : (live.map HandleMgr.slotOf).Nodup
  not_reserved : ∀ handle ∈ live, isReservedHandle handle = false
  bit_iff : ∀ n, bitAt mgr.handleMap n = true ↔ n ∈ live.map HandleMgr.slotOf
  numAvailable : mgr.numAvailableHandles.toNat = (clearSlots mgr.handleMap).card
  inside : mgr.Inside
  size_le : mgr.handleMapSize ≤ maxHandleMapSize

namespace HandleMgr

theorem handleMapSize_eq (s : HandleMgr) : s.handleMapSize = s.handleMap.length * 8 := rfl

theorem numSlots_eq (s : HandleMgr) : s.numSlots = s.handleMap.length * 64 := rfl

theorem maxHandleMapSize_eq : maxHandleMapSize = 8192 := rfl

end HandleMgr

namespace Coupled

open HandleMgr

variable {mgr : HandleMgr} {live : List EsifHandle}
variable {n : Nat}

theorem create : Coupled HandleMgr.create [] where
  slots_nodup := List.nodup_nil
  not_reserved := by simp
  bit_iff n := by
    have hzero : bitAt HandleMgr.create.handleMap n = bitAt ([] ++ [0#64]) n := rfl
    rw [hzero, bitAt_append_zero]
    simp [bitAt]
  numAvailable := by
    have hone : clearSlots HandleMgr.create.handleMap = clearSlots ([] ++ [0#64]) := rfl
    rw [hone, card_clearSlots_append_zero, clearSlots_nil]
    rfl
  inside := ⟨by decide, by decide⟩
  size_le := by decide

theorem numSlots_le (h : Coupled mgr live) : mgr.numSlots ≤ 65536 := by
  have hle := h.size_le
  rw [handleMapSize_eq, maxHandleMapSize_eq] at hle
  rw [numSlots_eq]
  omega

/-- The map becomes larger; there was room for the count. -/
theorem grow (h : Coupled mgr live) {grown : HandleMgr} (hsize : mgr.handleMapSize < maxHandleMapSize)
    (hgrow : mgr.allocateAdditionalHandles true = some grown) : Coupled grown live := by
  cases hgrow
  have hsize' := hsize
  rw [handleMapSize_eq, maxHandleMapSize_eq] at hsize'
  have hcard : (clearSlots mgr.handleMap).card ≤ mgr.handleMap.length * 64 := card_clearSlots_le
  refine ⟨h.slots_nodup, h.not_reserved, fun n => ?_, ?_, ⟨?_, h.inside.curPos⟩, ?_⟩
  · rw [← h.bit_iff, bitAt_append_zero]
  · have hcount := h.numAvailable
    simp only [card_clearSlots_append_zero, UInt64.toNat_add]
    have : (64 : UInt64).toNat = 64 := rfl
    omega
  · have := h.inside.curLine
    simp only [List.length_append, List.length_singleton]
    omega
  · simp only [handleMapSize_eq, maxHandleMapSize_eq, List.length_append, List.length_singleton]
    omega

/-- A slot that is clear is taken. -/
theorem take (h : Coupled mgr live) {c : UInt64} (hclear : mgr.IsClear n)
    (hfree : isReservedHandle (slotHandle c n) = false) :
    Coupled ((mgr.withInstance c).take (n / handlesPerLine) (n % handlesPerLine))
      (slotHandle c n :: live) := by
  have hle := h.numSlots_le
  have hn : n < mgr.handleMap.length * 64 := hclear.1
  have hslot : slotOf (slotHandle c n) = n := slotOf_slotHandle c (by have := hclear.1; omega)
  have hline : n / 64 < mgr.handleMap.length := by omega
  have hpos : n % 64 < 64 := by omega
  have hback : n / 64 * 64 + n % 64 = n := by omega
  have hmem : n ∈ clearSlots mgr.handleMap := mem_clearSlots.mpr hclear
  have hbit : ∀ i, bitAt (setBit mgr.handleMap (n / 64) (n % 64)) i =
      (decide (i = n) || bitAt mgr.handleMap i) := fun i => by
    rw [bitAt_setBit hline hpos, hback]
  refine ⟨?_, ?_, fun i => ?_, ?_, ⟨?_, ?_⟩, ?_⟩
  · rw [List.map_cons, List.nodup_cons, hslot, ← h.bit_iff, hclear.2]
    exact ⟨Bool.false_ne_true, h.slots_nodup⟩
  · intro handle hhandle
    rcases List.mem_cons.mp hhandle with rfl | hold
    · exact hfree
    · exact h.not_reserved handle hold
  · rw [List.map_cons, List.mem_cons, hslot, ← h.bit_iff]
    have := hbit i
    simp only [HandleMgr.take, withInstance_handleMap, handlesPerLine, this]
    simp
  · have hcount := h.numAvailable
    have hpositive : 0 < (clearSlots mgr.handleMap).card := Finset.card_pos.mpr ⟨n, hmem⟩
    simp only [HandleMgr.take, withInstance_handleMap, withInstance_numAvailableHandles, handlesPerLine]
    rw [clearSlots_setBit hline hpos, hback, Finset.card_erase_of_mem hmem, UInt64.toNat_sub_of_le]
    · rw [hcount]
      rfl
    · rw [UInt64.le_iff_toNat_le, hcount]
      exact hpositive
  · simpa [HandleMgr.take, handlesPerLine] using hline
  · exact hpos
  · have := h.size_le
    simpa [HandleMgr.take, handleMapSize_eq] using this

/-- A handle in use is put back. -/
theorem put (h : Coupled mgr live) {handle : EsifHandle} (hmem : handle ∈ live) :
    Coupled (mgr.putHandle handle) (live.erase handle) := by
  have hlt := lt_of_bitAt ((h.bit_iff _).mpr (List.mem_map_of_mem hmem))
  have hline : slotOf handle / 64 < mgr.handleMap.length := by omega
  have hpos : slotOf handle % 64 < 64 := by omega
  have hback : slotOf handle / 64 * 64 + slotOf handle % 64 = slotOf handle := by omega
  have hput : mgr.putHandle handle =
      { mgr with
        handleMap := clearBit mgr.handleMap (slotOf handle / 64) (slotOf handle % 64)
        numAvailableHandles := mgr.numAvailableHandles + 1 } := by
    have hlines : mgr.handleMapSize / handleLineSize = mgr.handleMap.length :=
      Nat.mul_div_cancel _ (by decide)
    unfold putHandle
    rw [h.not_reserved handle hmem, if_neg Bool.false_ne_true, hlines]
    exact if_pos hline
  -- the slots of the others are those that are left
  have hperm : (live.map slotOf).Perm (slotOf handle :: (live.erase handle).map slotOf) :=
    (List.perm_cons_erase hmem).map slotOf
  obtain ⟨hgone, hnodup⟩ := List.nodup_cons.mp (hperm.nodup_iff.mp h.slots_nodup)
  have hbit : bitAt mgr.handleMap (slotOf handle) = true :=
    (h.bit_iff _).mpr (List.mem_map_of_mem hmem)
  rw [hput]
  refine ⟨hnodup, fun other hother => h.not_reserved other (List.mem_of_mem_erase hother),
    fun n => ?_, ?_, ⟨?_, h.inside.curPos⟩, ?_⟩
  · simp only [bitAt_clearBit hpos, hback, Bool.and_eq_true, Bool.not_eq_true', decide_eq_false_iff_not,
      h.bit_iff, hperm.mem_iff, List.mem_cons]
    constructor
    · rintro ⟨hne, heq | hin⟩
      · exact absurd heq hne
      · exact hin
    · exact fun hin => ⟨fun heq => hgone (heq ▸ hin), .inr hin⟩
  · have hnot : slotOf handle ∉ clearSlots mgr.handleMap := by simp [hbit]
    have hcount := h.numAvailable
    have hcard : (insert (slotOf handle) (clearSlots mgr.handleMap)).card ≤
        mgr.handleMap.length * 64 := by
      rw [← hback, ← clearSlots_clearBit hline hpos]
      simpa using card_clearSlots_le (m := clearBit mgr.handleMap (slotOf handle / 64) (slotOf handle % 64))
    have hsize := h.numSlots_le
    rw [numSlots_eq] at hsize
    simp only [clearSlots_clearBit hline hpos, hback, UInt64.toNat_add]
    rw [Finset.card_insert_of_notMem hnot] at hcard ⊢
    have hone : (1 : UInt64).toNat = 1 := rfl
    omega
  · simpa using h.inside.curLine
  · simpa [handleMapSize_eq] using h.size_le

theorem nextInstance (h : Coupled mgr live) : Coupled mgr.nextInstance live :=
  ⟨h.slots_nodup, h.not_reserved, h.bit_iff, h.numAvailable, ⟨h.inside.curLine, h.inside.curPos⟩,
    h.size_le⟩

/-- What a search gives out is in use from then on. -/
theorem findHandle (h : Coupled mgr live) :
    Coupled mgr.findHandle.2.2
      (if mgr.findHandle.1 = esifOk then mgr.findHandle.2.1 :: live else live) := by
  rcases findHandle_cases h.inside with ⟨n, c, hclear, -, hfree, hfind⟩ | ⟨hfind, -⟩
  · rw [hfind]
    exact h.take hclear hfree
  · rw [hfind]
    exact h.nextInstance

theorem getHandle (h : Coupled mgr live) (allocated : Bool) :
    Coupled (mgr.getHandle allocated).2.2
      (if (mgr.getHandle allocated).1 = esifOk then (mgr.getHandle allocated).2.1 :: live
        else live) := by
  unfold HandleMgr.getHandle
  split
  · exact h
  · split
    · next hroom =>
      cases allocated with
      | true => exact (h.grow hroom.2 rfl).findHandle
      | false => exact h
    · exact h.findHandle

theorem step {s s' : Handles} {a : HandleAction} (hstep : handleStep s a = some s')
    (h : Coupled s.mgr s.live) : Coupled s'.mgr s'.live := by
  cases a with
  | getNextHandle allocated =>
    cases hstep
    exact h.getHandle allocated
  | putHandle handle =>
    simp only [handleStep, Option.ite_none_right_eq_some] at hstep
    obtain ⟨hmem, hput⟩ := hstep
    cases hput
    exact h.put hmem

/-! ## When a search succeeds -/

theorem mem_clearSlots_iff : n ∈ clearSlots mgr.handleMap ↔ mgr.IsClear n := mem_clearSlots

/-- Every slot of the map is offered. -/
theorem exists_offer (h : mgr.Inside) (hn : n < mgr.numSlots) :
    ∃ c, slotHandle c n ∈ mgr.offers n := by
  by_cases hle : n ≤ mgr.cursor
  · exact ⟨mgr.instanceCounter + 1, by simp [offers, hle]⟩
  · have hend : mgr.atEnd = false := by
      by_contra hat
      simp only [Bool.not_eq_false, atEnd, Bool.and_eq_true, decide_eq_true_eq] at hat
      have hline := h.curLine
      simp only [cursor, numSlots, handlesPerLine] at hle hn hat
      omega
    have hge : mgr.cursor ≤ n := Nat.le_of_not_le hle
    exact ⟨mgr.instanceCounter, by simp [offers, hge, hend]⟩

theorem findHandle_ok_iff (h : mgr.Inside) :
    mgr.findHandle.1 = esifOk ↔
      ∃ n, mgr.IsClear n ∧ ∃ handle ∈ mgr.offers n, isReservedHandle handle = false := by
  rcases findHandle_cases h with ⟨n, c, hclear, hoffer, hfree, hfind⟩ | ⟨hfind, hall⟩
  · rw [hfind]
    exact ⟨fun _ => ⟨n, hclear, _, hoffer, hfree⟩, fun _ => rfl⟩
  · rw [hfind]
    constructor
    · intro hok
      cases hok
    · rintro ⟨n, hclear, handle, hoffer, hfree⟩
      rw [hall n hclear handle hoffer] at hfree
      cases hfree

/-- A slot that no reserved handle has is as good as any. -/
theorem findHandle_ok_of_isClear (h : Coupled mgr live) (hclear : mgr.IsClear n)
    (hslot : ¬IsReservedSlot n) : mgr.findHandle.1 = esifOk := by
  have hn := hclear.1
  have hsize := h.numSlots_le
  obtain ⟨c, hoffer⟩ := exists_offer h.inside hn
  refine (findHandle_ok_iff h.inside).mpr ⟨n, hclear, _, hoffer, ?_⟩
  by_contra hreserved
  exact hslot ⟨_, Bool.not_eq_false _ ▸ hreserved, slotOf_slotHandle c (by omega)⟩

/-- One line has more slots than there are reserved ones. -/
theorem exists_unreserved (h : Coupled mgr live) (hmany : 64 ≤ mgr.numAvailableHandles) :
    ∃ n, mgr.IsClear n ∧ ¬IsReservedSlot n := by
  have hcount : 64 ≤ (clearSlots mgr.handleMap).card := by
    rw [← h.numAvailable]
    exact UInt64.le_iff_toNat_le.mp hmany
  have hfew : ({0, 1, 65534, 65535} : Finset Nat).card = 4 := by decide
  obtain ⟨n, hmem, hnot⟩ := Finset.exists_mem_notMem_of_card_lt_card
    (show ({0, 1, 65534, 65535} : Finset Nat).card < (clearSlots mgr.handleMap).card by omega)
  exact ⟨n, mem_clearSlots_iff.mp hmem, fun hslot => hnot (isReservedSlot_iff.mp hslot)⟩

/-- A line's worth of free slots is enough. -/
theorem findHandle_ok_of_many (h : Coupled mgr live) (hmany : 64 ≤ mgr.numAvailableHandles) :
    mgr.findHandle.1 = esifOk := by
  obtain ⟨n, hclear, hslot⟩ := h.exists_unreserved hmany
  exact h.findHandle_ok_of_isClear hclear hslot

theorem getHandle_ok_of_room (h : Coupled mgr live) (hroom : mgr.handleMapSize < maxHandleMapSize) :
    (mgr.getHandle true).1 = esifOk := by
  unfold HandleMgr.getHandle
  rw [if_neg (fun hfull => Nat.not_le_of_lt hroom hfull.2)]
  split
  · have hgrown := h.grow hroom rfl
    refine hgrown.findHandle_ok_of_many ?_
    rw [UInt64.le_iff_toNat_le, hgrown.numAvailable, card_clearSlots_append_zero]
    exact Nat.le_add_left _ _
  · next hmany => exact h.findHandle_ok_of_many (UInt64.not_lt.mp fun hlt => hmany ⟨hlt, hroom⟩)

/-- At its full size the map is searched, unless the count says that it is in vain. -/
theorem getHandle_of_full (hfull : maxHandleMapSize ≤ mgr.handleMapSize)
    (hsome : mgr.numAvailableHandles ≠ 0) (allocated : Bool) :
    mgr.getHandle allocated = mgr.findHandle := by
  unfold HandleMgr.getHandle
  rw [if_neg (fun hno => hsome hno.1), if_neg (fun hroom => Nat.not_le_of_lt hroom.2 hfull)]

theorem numAvailable_ne_zero (h : Coupled mgr live) (hclear : mgr.IsClear n) :
    mgr.numAvailableHandles ≠ 0 := by
  intro hzero
  have hpositive : 0 < (clearSlots mgr.handleMap).card :=
    Finset.card_pos.mpr ⟨n, mem_clearSlots.mpr hclear⟩
  rw [← h.numAvailable, hzero] at hpositive
  cases hpositive

theorem getHandle_ok_iff (h : Coupled mgr live) : (mgr.getHandle true).1 = esifOk ↔
      mgr.handleMapSize < maxHandleMapSize ∨
        ∃ n, mgr.IsClear n ∧ ∃ handle ∈ mgr.offers n, isReservedHandle handle = false := by
  rcases Nat.lt_or_ge mgr.handleMapSize maxHandleMapSize with hroom | hfull
  · exact ⟨fun _ => .inl hroom, fun _ => h.getHandle_ok_of_room hroom⟩
  · constructor
    · intro hok
      by_cases hzero : mgr.numAvailableHandles = 0
      · rw [HandleMgr.getHandle, if_pos ⟨hzero, hfull⟩] at hok
        cases hok
      · rw [getHandle_of_full hfull hzero] at hok
        exact .inr ((findHandle_ok_iff h.inside).mp hok)
    · rintro (hroom | ⟨n, hclear, hoffer⟩)
      · exact absurd hroom (Nat.not_lt_of_le hfull)
      · rw [getHandle_of_full hfull (h.numAvailable_ne_zero hclear)]
        exact (findHandle_ok_iff h.inside).mpr ⟨n, hclear, hoffer⟩

end Coupled

/-- **Handles in use are distinct and do not run out early.**  After every run the manager
agrees with the handles in use, and a call for another one fails only when the map can grow
no more and every slot that is clear would get a reserved handle. -/
theorem live_handles {calls : List HandleAction} {s : Handles}
    (hrun : run handleStep ⟨HandleMgr.create, []⟩ calls = some s) :
    s.live.Nodup ∧ (∀ handle ∈ s.live, isReservedHandle handle = false) ∧
      (∀ n, bitAt s.mgr.handleMap n = true ↔ ∃ handle ∈ s.live, HandleMgr.slotOf handle = n) ∧
      s.mgr.numAvailableHandles.toNat = (clearSlots s.mgr.handleMap).card ∧
      s.mgr.curLine < s.mgr.handleMap.length ∧ s.mgr.curPos < handlesPerLine ∧
      ((s.mgr.getHandle true).1 = esifOk ↔
        s.mgr.handleMapSize < maxHandleMapSize ∨
          ∃ n, s.mgr.IsClear n ∧ ∃ handle ∈ s.mgr.offers n, isReservedHandle handle = false) ∧
      ∀ n, s.mgr.IsClear n → ¬HandleMgr.IsReservedSlot n → (s.mgr.getHandle true).1 = esifOk := by
  let inv : Handles → Prop := fun s => Coupled s.mgr s.live
  have hstep : ∀ s a s', handleStep s a = some s' → inv s → inv s' := fun _ _ _ => Coupled.step
  have h : Coupled s.mgr s.live := run_invariant hstep hrun Coupled.create
  refine ⟨h.slots_nodup.of_map _, h.not_reserved, fun n => ?_, h.numAvailable, h.inside.curLine,
    h.inside.curPos, h.getHandle_ok_iff, fun n hclear hslot => ?_⟩
  · rw [h.bit_iff, List.mem_map]
  · rcases Nat.lt_or_ge s.mgr.handleMapSize maxHandleMapSize with hroom | hfull
    · exact h.getHandle_ok_of_room hroom
    · rw [Coupled.getHandle_of_full hfull (h.numAvailable_ne_zero hclear)]
      exact h.findHandle_ok_of_isClear hclear hslot

theorem live_handles_reused :
    ∃ s, run handleStep ⟨HandleMgr.create, []⟩
        [.getNextHandle true, .getNextHandle true, .putHandle 2, .getNextHandle true] = some s ∧
      s.live = [4, 3] ∧ s.live.Nodup ∧ (∀ handle ∈ s.live, isReservedHandle handle = false) ∧
      (∀ n, bitAt s.mgr.handleMap n = true ↔ ∃ handle ∈ s.live, HandleMgr.slotOf handle = n) ∧
      s.mgr.numAvailableHandles.toNat = (clearSlots s.mgr.handleMap).card ∧
      s.mgr.curLine < s.mgr.handleMap.length ∧ s.mgr.curPos < handlesPerLine ∧
      (s.mgr.getHandle true).1 = esifOk ∧
      ∀ n, s.mgr.IsClear n → ¬HandleMgr.IsReservedSlot n → (s.mgr.getHandle true).1 = esifOk := by
  obtain ⟨s, hs, hlive, hroom⟩ : ∃ s, run handleStep ⟨HandleMgr.create, []⟩
      [.getNextHandle true, .getNextHandle true, .putHandle 2, .getNextHandle true] = some s ∧
      s.live = [4, 3] ∧ s.mgr.handleMapSize < maxHandleMapSize := ⟨_, rfl, by decide, by decide⟩
  obtain ⟨hnodup, hfree, hbits, hcount, hline, hpos, hok, hclear⟩ := live_handles hs
  exact ⟨s, hs, hlive, hnodup, hfree, hbits, hcount, hline, hpos, hok.mpr (.inl hroom), hclear⟩

end Uf

import Mathlib.Data.Finset.Card
import Mathlib.Data.List.Find
import Mathlib.Order.Interval.Finset.Nat

/-!
# Bitmaps

A map of numbered slots, one bit each and `w` of them to a line.
-/

namespace Lib

section Bitmap

variable {w : Nat}

/-- The bit of slot `n`; beyond the map they are clear. -/
def bitAt (m : List (BitVec w)) (n : Nat) : Bool :=
  (m.getD (n / w) 0#w).getLsbD (n % w)

def setBit (m : List (BitVec w)) (line pos : Nat) : List (BitVec w) :=
  m.modify line (· ||| 1#w <<< pos)

def clearBit (m : List (BitVec w)) (line pos : Nat) : List (BitVec w) :=
  m.modify line (· &&& ~~~(1#w <<< pos))

/-- The slots of the map whose bits are clear. -/
def clearSlots (m : List (BitVec w)) : Finset Nat :=
  (Finset.range (m.length * w)).filter fun n => bitAt m n = false

variable {m : List (BitVec w)} {line pos n : Nat}

@[simp] theorem length_setBit : (setBit m line pos).length = m.length := by simp [setBit]

@[simp] theorem length_clearBit : (clearBit m line pos).length = m.length := by simp [clearBit]

@[simp] theorem mem_clearSlots : n ∈ clearSlots m ↔ n < m.length * w ∧ bitAt m n = false := by
  simp [clearSlots]

@[simp] theorem clearSlots_nil : clearSlots ([] : List (BitVec w)) = ∅ := by simp [clearSlots]

theorem card_clearSlots_le : (clearSlots m).card ≤ m.length * w := by
  calc (clearSlots m).card ≤ (Finset.range (m.length * w)).card := Finset.card_filter_le _ _
    _ = m.length * w := Finset.card_range _

/-- A slot is told apart by its line and its position. -/
theorem slot_eq_iff (hpos : pos < w) : n = line * w + pos ↔ n / w = line ∧ n % w = pos := by
  constructor
  · rintro rfl
    rw [Nat.mul_comm, Nat.mul_add_div (by omega), Nat.mul_add_mod, Nat.div_eq_of_lt hpos,
      Nat.mod_eq_of_lt hpos]
    exact ⟨rfl, rfl⟩
  · rintro ⟨rfl, rfl⟩
    exact (Nat.div_add_mod' n w).symm

theorem div_lt_of_bitAt (h : bitAt m n = true) : n / w < m.length := by
  by_contra hge
  simp [bitAt, List.getD_eq_getElem?_getD, List.getElem?_eq_none (Nat.le_of_not_lt hge)] at h

theorem lt_of_bitAt (h : bitAt m n = true) : n < m.length * w := by
  have hdiv := div_lt_of_bitAt h
  have hw : 0 < w := by
    rcases Nat.eq_zero_or_pos w with rfl | hw
    · simp [bitAt] at h
    · exact hw
  exact (Nat.div_lt_iff_lt_mul hw).mp hdiv

private theorem getLsbD_one_shiftLeft {i : Nat} (hpos : pos < w) :
    (1#w <<< pos).getLsbD i = decide (i = pos) := by
  simp only [BitVec.getLsbD_shiftLeft, BitVec.getLsbD_one]
  grind

theorem bitAt_setBit (hline : line < m.length) (hpos : pos < w) :
    bitAt (setBit m line pos) n = (decide (n = line * w + pos) || bitAt m n) := by
  simp only [bitAt, setBit, List.getD_eq_getElem?_getD, List.getElem?_modify, slot_eq_iff hpos]
  by_cases hl : n / w = line
  · have hlt : n / w < m.length := by omega
    simp [hl, hline, getLsbD_one_shiftLeft hpos, Bool.or_comm]
  · simp [hl, Ne.symm hl]

theorem bitAt_clearBit (hpos : pos < w) :
    bitAt (clearBit m line pos) n = (!decide (n = line * w + pos) && bitAt m n) := by
  simp only [bitAt, clearBit, List.getD_eq_getElem?_getD, List.getElem?_modify, slot_eq_iff hpos]
  by_cases hl : n / w = line
  · have hmod : n % w < w := Nat.mod_lt _ (by omega)
    cases hget : m[n / w]? with
    | none => simp [← hl]
    | some x =>
      have hclear : (x &&& ~~~(1#w <<< pos)).getLsbD (n % w) =
          (!decide (n % w = pos) && x.getLsbD (n % w)) := by
        rw [BitVec.getLsbD_and, BitVec.getLsbD_not, getLsbD_one_shiftLeft hpos]
        simp [hmod, Bool.and_comm]
      simpa [← hl, hget] using hclear
  · simp [hl, Ne.symm hl]

/-- A new line comes with clear bits. -/
@[simp] theorem bitAt_append_zero : bitAt (m ++ [0#w]) n = bitAt m n := by
  simp only [bitAt, List.getD_eq_getElem?_getD]
  rcases Nat.lt_trichotomy (n / w) m.length with h | h | h
  · rw [List.getElem?_append_left h]
  · simp [h]
  · rw [List.getElem?_eq_none (by simp; omega), List.getElem?_eq_none (by omega)]

theorem clearSlots_setBit (hline : line < m.length) (hpos : pos < w) :
    clearSlots (setBit m line pos) = (clearSlots m).erase (line * w + pos) := by
  ext n
  simp only [mem_clearSlots, length_setBit, bitAt_setBit hline hpos, Finset.mem_erase]
  grind

theorem clearSlots_clearBit (hline : line < m.length) (hpos : pos < w) :
    clearSlots (clearBit m line pos) = insert (line * w + pos) (clearSlots m) := by
  have hlt : line * w + pos < m.length * w := by
    calc line * w + pos < (line + 1) * w := by rw [Nat.succ_mul]; omega
      _ ≤ m.length * w := Nat.mul_le_mul_right w hline
  ext n
  simp only [mem_clearSlots, length_clearBit, bitAt_clearBit hpos, Finset.mem_insert]
  grind

theorem card_clearSlots_append_zero : (clearSlots (m ++ [0#w])).card = (clearSlots m).card + w := by
  have hsplit : clearSlots (m ++ [0#w]) =
      clearSlots m ∪ Finset.Ico (m.length * w) (m.length * w + w) := by
    ext n
    have hout : m.length * w ≤ n → bitAt m n = false := fun hge => by
      by_contra hset
      exact absurd (lt_of_bitAt (Bool.not_eq_false _ ▸ hset)) (by omega)
    simp only [mem_clearSlots, List.length_append, List.length_singleton, Nat.add_mul, Nat.one_mul,
      bitAt_append_zero, Finset.mem_union, Finset.mem_Ico]
    grind
  have hdisjoint : Disjoint (clearSlots m) (Finset.Ico (m.length * w) (m.length * w + w)) := by
    rw [Finset.disjoint_left]
    intro n hn hn'
    have := (mem_clearSlots.mp hn).1
    have := (Finset.mem_Ico.mp hn').1
    omega
  rw [hsplit, Finset.card_union_of_disjoint hdisjoint, Nat.card_Ico]
  omega

/-! ## The search -/

/-- The first slot that will do, from `pos` of the line on up to `stopPos` of `stopLine`.  The
fuel is the number of lines to look at. -/
def findSlot (w : Nat) (ok : Nat → Nat → Bool) (stopLine stopPos : Nat) :
    Nat → Nat → Nat → Option (Nat × Nat)
  | 0, _, _ => none
  | fuel + 1, line, pos =>
    let lastPos := if line = stopLine then stopPos else w - 1
    match (List.range' pos (lastPos + 1 - pos)).find? (ok line) with
    | some found => some (line, found)
    | none => findSlot w ok stopLine stopPos fuel (line + 1) 0

variable {ok : Nat → Nat → Bool} {stopLine stopPos fuel : Nat}

/-- The slots of a line, as slots of the map. -/
theorem find?_line (hpos : pos + n ≤ w) :
    (List.range' (line * w + pos) n).find? (fun i => ok (i / w) (i % w)) =
      ((List.range' pos n).find? (ok line)).map (line * w + ·) := by
  rw [← List.map_add_range', List.find?_map]
  congr 1
  refine List.find?_congr fun p hp => ?_
  have hp' := List.mem_range'_1.mp hp
  obtain ⟨hdiv, hmod⟩ := (slot_eq_iff (n := line * w + p) (show p < w by omega)).mp rfl
  simp only [Function.comp_apply, hdiv, hmod]

/-- **The search goes through the slots in their order.** -/
theorem findSlot_eq_find? (hstop : stopPos < w) (hpos : pos ≤ w)
    (hfuel : line + fuel = stopLine + 1) :
    findSlot w ok stopLine stopPos fuel line pos =
      ((List.range' (line * w + pos) (stopLine * w + stopPos + 1 - (line * w + pos))).find?
        fun n => ok (n / w) (n % w)).map fun n => (n / w, n % w) := by
  induction fuel generalizing line pos with
  | zero =>
    obtain rfl : line = stopLine + 1 := by omega
    have hnone : stopLine * w + stopPos + 1 - ((stopLine + 1) * w + pos) = 0 := by
      rw [Nat.succ_mul]
      omega
    rw [hnone]
    rfl
  | succ fuel ih =>
    -- a slot that is found in this line is the one with its number
    have hslot : ∀ k p, (List.range' pos k).find? (ok line) = some p → pos + k ≤ w →
        (line * w + p) / w = line ∧ (line * w + p) % w = p := by
      intro k p hfind hk
      have hmem := List.mem_range'_1.mp (List.mem_of_find?_eq_some hfind)
      exact (slot_eq_iff (show p < w by omega)).mp rfl
    rw [findSlot]
    by_cases hlast : line = stopLine
    · subst hlast
      obtain rfl : fuel = 0 := by omega
      have hlen : line * w + stopPos + 1 - (line * w + pos) = stopPos + 1 - pos := by omega
      rw [if_pos rfl, hlen]
      rcases Nat.lt_or_ge (stopPos + 1) pos with hgt | hle
      · have hzero : stopPos + 1 - pos = 0 := by omega
        simp [hzero, findSlot]
      · rw [find?_line (by omega)]
        cases hfind : (List.range' pos (stopPos + 1 - pos)).find? (ok line) with
        | none => rfl
        | some p =>
          obtain ⟨hdiv, hmod⟩ := hslot _ p hfind (by omega)
          simp only [Option.map_some, hdiv, hmod]
    · have hnext : (line + 1) * w = line * w + w := Nat.succ_mul line w
      have hbound : (line + 1) * w ≤ stopLine * w := Nat.mul_le_mul_right w (by omega)
      have hlen : stopLine * w + stopPos + 1 - (line * w + pos) =
          (w - pos) + (stopLine * w + stopPos + 1 - ((line + 1) * w + 0)) := by omega
      have hrest : line * w + pos + (w - pos) = (line + 1) * w + 0 := by omega
      have hwhole : w - 1 + 1 - pos = w - pos := by omega
      rw [if_neg hlast, hwhole, hlen, ← List.range'_append_1, List.find?_append,
        find?_line (by omega), hrest]
      cases hfind : (List.range' pos (w - pos)).find? (ok line) with
      | none => exact ih (by omega) (by omega)
      | some p =>
        obtain ⟨hdiv, hmod⟩ := hslot _ p hfind (by omega)
        simp only [Option.map_some, Option.some_or, hdiv, hmod]

end Bitmap

end Lib

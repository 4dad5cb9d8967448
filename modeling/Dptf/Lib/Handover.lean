import Mathlib.Tactic.Common

/-!
# The last one out

Two parties share an object.  Each of them gives its share back once: the first one leaves a
mark, and the second one, which finds the mark, destroys the object, in a step of its own.

* `Handover.Balanced` — **the discipline**; every move keeps it.
-/

namespace Lib

/-- What is out and what was done. -/
structure Handover where
  shares : Nat
  marked : Bool
  /-- Parties that are going to destroy the object. -/
  destroying : Nat
  destroyed : Nat

namespace Handover

/-- Both shares are out. -/
def start : Handover := ⟨2, false, 0, 0⟩

/-- What may happen next. -/
inductive Move (h : Handover) : Handover → Prop
  | stay : Move h h
  /-- The first share is given back. -/
  | mark {n : Nat} (hshares : h.shares = n + 1) (hmark : h.marked = false) :
      Move h { h with shares := n, marked := true }
  /-- The second one is: its party finds the mark. -/
  | take {n : Nat} (hshares : h.shares = n + 1) (hmark : h.marked = true) :
      Move h { h with shares := n, destroying := h.destroying + 1 }
  | destroy {n : Nat} (hdestroying : h.destroying = n + 1) :
      Move h { h with destroying := n, destroyed := h.destroyed + 1 }

/-- Each share that is back is the mark, a party that is going to destroy the object, or its
destruction; and the mark comes first. -/
structure Balanced (h : Handover) : Prop where
  sum : h.shares + h.marked.toNat + h.destroying + h.destroyed = 2
  markedFirst : h.marked = false → h.destroying + h.destroyed = 0

theorem balanced_start : start.Balanced := ⟨rfl, fun _ => rfl⟩

variable {h h' : Handover}

/-- **Every move keeps the balance.** -/
theorem Balanced.move (hb : h.Balanced) (hm : h.Move h') : h'.Balanced := by
  obtain ⟨shares, marked, destroying, destroyed⟩ := h
  obtain ⟨hsum, hfirst⟩ := hb
  dsimp only at hsum hfirst
  cases hm with
  | stay => exact ⟨hsum, hfirst⟩
  | mark hshares hmark =>
    dsimp only at hshares hmark
    subst hshares hmark
    refine ⟨?_, fun hnot => by cases hnot⟩
    simp only [Bool.toNat_false, Bool.toNat_true] at hsum ⊢
    omega
  | take hshares hmark =>
    dsimp only at hshares hmark
    subst hshares hmark
    refine ⟨?_, fun hnot => by cases hnot⟩
    simp only [Bool.toNat_true] at hsum ⊢
    omega
  | destroy hdestroying =>
    dsimp only at hdestroying
    subst hdestroying
    refine ⟨?_, fun hnot => ?_⟩
    · dsimp only
      omega
    · have := hfirst hnot
      omega

/-- **The object is destroyed once both shares are back**, once, and nobody is going to do it
again. -/
theorem Balanced.of_destroyed (hb : h.Balanced) (hdestroyed : 0 < h.destroyed) :
    h.destroyed = 1 ∧ h.shares = 0 ∧ h.destroying = 0 := by
  obtain ⟨hsum, hfirst⟩ := hb
  cases hmarked : h.marked with
  | false =>
    have := hfirst hmarked
    omega
  | true =>
    rw [hmarked, Bool.toNat_true] at hsum
    omega

/-- **Once both shares are back the object is destroyed**, unless somebody is going to. -/
theorem Balanced.destroyed_eq_one (hb : h.Balanced) (hshares : h.shares = 0)
    (hdestroying : h.destroying = 0) : h.destroyed = 1 := by
  obtain ⟨hsum, hfirst⟩ := hb
  cases hmarked : h.marked with
  | false =>
    have := hfirst hmarked
    rw [hmarked, Bool.toNat_false] at hsum
    omega
  | true =>
    rw [hmarked, Bool.toNat_true] at hsum
    omega

end Handover

end Lib

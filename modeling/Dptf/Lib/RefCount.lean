import Mathlib.Data.List.Basic
import Mathlib.Data.List.GetD
import Mathlib.Tactic.SplitIfs

/-!
# Counted objects

An object that several parties use is kept alive by a count of the references to
it.  Who destroys it marks it first, so that it gives no new references, and waits
for the event that the release of the last one sets.

* `Life.Ok` — **the discipline of one object**, `n` references to it being held.
-/

namespace Lib

variable {objs : List Life}

/-- The life control of a counted object. -/
structure Life where
  refCount : Int
  marked : Bool
  event : Bool
  freed : Bool

namespace Life

variable {o : Life} {n : Nat}

/-- A new object; its creator holds the reference. -/
def fresh : Life := ⟨1, false, false, false⟩

/-- Take a reference. -/
def get (o : Life) : Life := { o with refCount := o.refCount + 1 }

/-- Release a reference. -/
def put (o : Life) : Life :=
  { o with
    refCount := o.refCount - 1
    event := o.event || (o.refCount - 1 == 0 && o.marked) }

/-- Mark the object: its end is waited for. -/
def mark (o : Life) : Life := { o with marked := true }

/-- Return the object's memory. -/
def free (o : Life) : Life := { o with freed := true }

/-- The count is the number of references held; the event is set when a marked object is
held no more, and only then the memory is returned. -/
structure Ok (o : Life) (n : Nat) : Prop where
  counted : o.refCount = n
  event : o.event = true ↔ o.marked = true ∧ n = 0
  freed : o.freed = true → o.event = true

theorem Ok.fresh : Ok fresh 1 := ⟨rfl, by simp [Life.fresh], by simp [Life.fresh]⟩

theorem Ok.get (h : o.Ok n) (hmarked : o.marked = false) : o.get.Ok (n + 1) := by
  obtain ⟨hcount, hevent, hfreed⟩ := h
  refine ⟨by simp [Life.get, hcount], ?_, hfreed⟩
  simp [Life.get, hevent, hmarked]

theorem Ok.put (h : o.Ok (n + 1)) : o.put.Ok n := by
  obtain ⟨hcount, hevent, hfreed⟩ := h
  have hev : o.event = false := by simpa using hevent
  refine ⟨by simp [Life.put, hcount], ?_, ?_⟩
  · simp [Life.put, hcount, hev, and_comm]
  · intro hf
    rw [hfreed hf] at hev
    cases hev

theorem Ok.mark (h : o.Ok n) (hheld : 0 < n) : o.mark.Ok n := by
  obtain ⟨hcount, hevent, hfreed⟩ := h
  refine ⟨hcount, ?_, hfreed⟩
  simp only [Life.mark, hevent]
  omega

theorem Ok.free (h : o.Ok n) (hevent : o.event = true) : o.free.Ok n :=
  ⟨h.counted, h.event, fun _ => hevent⟩

end Life

/-! ## All objects -/

/-- The last object is worked on. -/
theorem modify_append_singleton (objs : List Life) (o : Life) (f : Life → Life) :
    (objs ++ [o]).modify objs.length f = objs ++ [f o] := by
  induction objs with
  | nil => rfl
  | cons x xs ih => simpa [List.modify_succ_cons] using ih

/-- The object is allocated and not marked. -/
def Alive (objs : List Life) (a : Nat) : Prop := ∃ o : Life, objs[a]? = some o ∧ o.marked = false

theorem Alive.lt_length {a : Nat} (h : Alive objs a) : a < objs.length := by
  obtain ⟨o, ho, -⟩ := h
  exact (List.getElem?_eq_some_iff.mp ho).1

/-- Work on one object leaves alive what it does not mark. -/
theorem Alive.modify {a p : Nat} {f : Life → Life} (h : Alive objs a)
    (hf : p = a → ∀ o : Life, (f o).marked = o.marked) : Alive (objs.modify p f) a := by
  obtain ⟨o, ho, hmarked⟩ := h
  by_cases hpa : p = a
  · exact ⟨f o, by simp [hpa, ho], (hf hpa o).trans hmarked⟩
  · exact ⟨o, by simp [hpa, ho], hmarked⟩

theorem Alive.append {a : Nat} (h : Alive objs a) (objs' : List Life) :
    Alive (objs ++ objs') a := by
  obtain ⟨o, ho, hmarked⟩ := h
  have hlt : a < objs.length := (List.getElem?_eq_some_iff.mp ho).1
  exact ⟨o, by rw [List.getElem?_append_left hlt, ho], hmarked⟩

theorem alive_fresh (objs : List Life) : Alive (objs ++ [Life.fresh]) objs.length :=
  ⟨Life.fresh, by simp, rfl⟩

/-- Every object keeps the discipline with the references held to it, and none is held to
what is not allocated. -/
structure Counted (objs : List Life) (held : Nat → Nat) : Prop where
  ok : ∀ (a : Nat) (o : Life), objs[a]? = some o → o.Ok (held a)
  allocated : ∀ a, 0 < held a → a < objs.length

namespace Counted

variable {objs : List Life} {held held' : Nat → Nat} {p : Nat}

/-- References may change hands. -/
theorem same (h : Counted objs held) (hheld : ∀ a, held' a = held a) : Counted objs held' := by
  obtain rfl : held' = held := funext hheld
  exact h

/-- One object is worked on, and the references to the others stay. -/
theorem modify (h : Counted objs held) {f : Life → Life} (hp : p < objs.length)
    (hf : ∀ o, objs[p]? = some o → o.Ok (held p) → (f o).Ok (held' p))
    (hheld : ∀ a, a ≠ p → held' a = held a) : Counted (objs.modify p f) held' := by
  constructor
  · intro a o ho
    rw [List.getElem?_modify] at ho
    obtain ⟨o₀, ho₀, rfl⟩ := Option.map_eq_some_iff.mp ho
    by_cases hpa : p = a
    · subst hpa
      simpa using hf o₀ ho₀ (h.ok p o₀ ho₀)
    · rw [if_neg hpa, hheld a (Ne.symm hpa)]
      exact h.ok a o₀ ho₀
  · intro a ha
    rw [List.length_modify]
    by_cases hpa : a = p
    · exact hpa ▸ hp
    · exact h.allocated a (hheld a hpa ▸ ha)

/-- A new object, with its creator's reference. -/
theorem create (h : Counted objs held)
    (hheld : ∀ a, held' a = held a + if objs.length = a then 1 else 0) :
    Counted (objs ++ [Life.fresh]) held' := by
  have hnew : held objs.length = 0 := by
    by_contra hne
    have := h.allocated _ (Nat.pos_of_ne_zero hne)
    omega
  constructor
  · intro a o ho
    rw [hheld]
    rcases Nat.lt_trichotomy a objs.length with hlt | rfl | hgt
    · rw [List.getElem?_append_left hlt] at ho
      simpa [Nat.ne_of_gt hlt] using h.ok a o ho
    · obtain rfl : Life.fresh = o := by simpa using ho
      simpa [hnew] using Life.Ok.fresh
    · rw [List.getElem?_eq_none (by simp; omega)] at ho
      cases ho
  · intro a ha
    rw [hheld] at ha
    rw [List.length_append, List.length_singleton]
    by_cases hlen : objs.length = a
    · omega
    · have := h.allocated a (by simpa [hlen] using ha)
      omega

/-- A reference is taken to an object that is not marked. -/
theorem get (h : Counted objs held) {o : Life} (ho : objs[p]? = some o) (hmarked : o.marked = false)
    (hheld : ∀ a, held' a = held a + if p = a then 1 else 0) :
    Counted (objs.modify p Life.get) held' := by
  refine h.modify (List.getElem?_eq_some_iff.mp ho).1 ?_ ?_
  · intro o' ho' hok
    obtain rfl : o = o' := Option.some.inj (ho.symm.trans ho')
    rw [hheld, if_pos rfl]
    exact hok.get hmarked
  · intro a ha
    rw [hheld, if_neg (Ne.symm ha), Nat.add_zero]

/-- A reference is released by who holds it. -/
theorem put (h : Counted objs held) (hheld : ∀ a, held' a + (if p = a then 1 else 0) = held a) :
    Counted (objs.modify p Life.put) held' := by
  have hp : held p = held' p + 1 := by simpa using (hheld p).symm
  refine h.modify (h.allocated p (by omega)) ?_ ?_
  · intro o _ hok
    exact (hp ▸ hok).put
  · intro a ha
    simpa [Ne.symm ha] using hheld a

/-- An object is marked by who holds a reference. -/
theorem mark (h : Counted objs held) (hp : 0 < held p) : Counted (objs.modify p Life.mark) held :=
  h.modify (h.allocated p hp) (fun _ _ hok => hok.mark hp) fun _ _ => rfl

/-- The memory of an object is returned after its event. -/
theorem free (h : Counted objs held) {o : Life} (ho : objs[p]? = some o)
    (hevent : o.event = true) : Counted (objs.modify p Life.free) held := by
  refine h.modify (List.getElem?_eq_some_iff.mp ho).1 ?_ fun _ _ => rfl
  intro o' ho' hok
  obtain rfl : o = o' := Option.some.inj (ho.symm.trans ho')
  exact hok.free hevent

end Counted

end Lib

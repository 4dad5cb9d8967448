import Mathlib.Data.List.Perm.Basic
import Mathlib.Data.List.ReduceOption

/-!
# Pools of slots

An array whose slots are empty or hold one element.  What is in the pool is
`List.reduceOption` of the slots; the order of the slots decides only which
element is found first.
-/

namespace Lib

section Slots

variable {α : Type*}

/-- Put `x` in the first free slot. -/
def insertFirst (x : α) : List (Option α) → Option (List (Option α))
  | [] => none
  | none :: slots => some (some x :: slots)
  | some y :: slots => (insertFirst x slots).map (some y :: ·)

/-- Take the first element that matches out of its slot. -/
def takeFirst (p : α → Bool) : List (Option α) → Option (α × List (Option α))
  | [] => none
  | none :: slots => (takeFirst p slots).map fun (x, rest) => (x, none :: rest)
  | some y :: slots =>
    if p y then some (y, none :: slots)
    else (takeFirst p slots).map fun (x, rest) => (x, some y :: rest)

/-- Clear every slot whose element matches. -/
def clearWhere (p : α → Bool) (slots : List (Option α)) : List (Option α) :=
  slots.map (Option.filter fun x => !p x)

theorem insertFirst_perm {x : α} {slots slots' : List (Option α)}
    (h : insertFirst x slots = some slots') :
    slots'.reduceOption.Perm (x :: slots.reduceOption) := by
  induction slots generalizing slots' with
  | nil => cases h
  | cons o slots ih =>
    cases o with
    | none =>
      cases h
      simp
    | some y =>
      obtain ⟨rest, hrest, rfl⟩ := Option.map_eq_some_iff.mp h
      simp only [List.reduceOption_cons_of_some]
      exact ((ih hrest).cons y).trans (List.Perm.swap x y _)

theorem takeFirst_perm {p : α → Bool} {slots rest : List (Option α)} {x : α}
    (h : takeFirst p slots = some (x, rest)) :
    p x = true ∧ slots.reduceOption.Perm (x :: rest.reduceOption) := by
  induction slots generalizing rest with
  | nil => cases h
  | cons o slots ih =>
    cases o with
    | none =>
      obtain ⟨⟨x', rest'⟩, hrest, heq⟩ := Option.map_eq_some_iff.mp h
      cases heq
      simpa using ih hrest
    | some y =>
      by_cases hp : p y
      · simp only [takeFirst, hp, if_true, Option.some.injEq, Prod.mk.injEq] at h
        obtain ⟨rfl, rfl⟩ := h
        simp [hp]
      · simp only [takeFirst, hp, Bool.false_eq_true, if_false] at h
        obtain ⟨⟨x', rest'⟩, hrest, heq⟩ := Option.map_eq_some_iff.mp h
        cases heq
        obtain ⟨hpx, hperm⟩ := ih hrest
        refine ⟨hpx, ?_⟩
        simp only [List.reduceOption_cons_of_some]
        exact (hperm.cons y).trans (List.Perm.swap _ y _)

/-- What is taken is the first element that matches. -/
theorem takeFirst_find? {p : α → Bool} {slots rest : List (Option α)} {x : α}
    (h : takeFirst p slots = some (x, rest)) : slots.reduceOption.find? p = some x := by
  induction slots generalizing rest with
  | nil => cases h
  | cons o slots ih =>
    cases o with
    | none =>
      obtain ⟨⟨x', rest'⟩, hrest, heq⟩ := Option.map_eq_some_iff.mp h
      cases heq
      simpa using ih hrest
    | some y =>
      by_cases hp : p y
      · simp only [takeFirst, hp, if_true, Option.some.injEq, Prod.mk.injEq] at h
        obtain ⟨rfl, -⟩ := h
        simp [hp]
      · simp only [takeFirst, hp, Bool.false_eq_true, if_false] at h
        obtain ⟨⟨x', rest'⟩, hrest, heq⟩ := Option.map_eq_some_iff.mp h
        cases heq
        simpa [hp] using ih hrest

/-- Nothing is taken only when nothing matches. -/
theorem takeFirst_eq_none_iff {p : α → Bool} {slots : List (Option α)} :
    takeFirst p slots = none ↔ ∀ x ∈ slots.reduceOption, p x = false := by
  induction slots with
  | nil => simp [takeFirst]
  | cons o slots ih =>
    cases o with
    | none => simp [takeFirst, ih]
    | some y =>
      by_cases hp : p y
      · simp [takeFirst, hp]
      · simp [takeFirst, hp, ih]

@[simp] theorem reduceOption_clearWhere (p : α → Bool) (slots : List (Option α)) :
    (clearWhere p slots).reduceOption = slots.reduceOption.filter fun x => !p x := by
  induction slots with
  | nil => rfl
  | cons o slots ih =>
    cases o with
    | none => simpa [clearWhere] using ih
    | some y =>
      by_cases hp : p y
      · simpa [clearWhere, Option.filter, hp] using ih
      · simpa [clearWhere, Option.filter, hp] using ih

end Slots

end Lib

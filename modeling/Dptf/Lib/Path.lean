import Mathlib.Data.List.Basic
import Mathlib.Data.List.Infix

/-!
# Lexical paths

A directory is the list of the names that lead to it from the root.  A path is a
list of steps: it stays, goes up, or goes down to a name.  At the root, going up
stays.

* `below_walk_iff` — **a path leads below the directory it starts from exactly if**
  its names first retrace the steps it goes up.
-/

namespace Lib

section Path

variable {ν : Type*}

/-- A step of a path. -/
inductive PathStep (ν : Type*)
  | stay
  | up
  | down (name : ν)
deriving DecidableEq, Repr

/-- Where a path leads from a directory. -/
def walk (dir : List ν) : List (PathStep ν) → List ν
  | [] => dir
  | .stay :: steps => walk dir steps
  | .up :: steps => walk dir.dropLast steps
  | .down name :: steps => walk (dir ++ [name]) steps

/-- One step of `settle`. -/
def settleStep : Nat × List ν → PathStep ν → Nat × List ν
  | (ups, names), .stay => (ups, names)
  | (ups, []), .up => (ups + 1, [])
  | (ups, name :: names), .up => (ups, (name :: names).dropLast)
  | (ups, names), .down name => (ups, names ++ [name])

/-- The steps up and the names down that a path comes to. -/
def settle (steps : List (PathStep ν)) : Nat × List ν := steps.foldl settleStep (0, [])

/-- `dir` lies strictly below `root`. -/
def Below (root dir : List ν) : Prop := root <+: dir ∧ root ≠ dir

instance [DecidableEq ν] (root dir : List ν) : Decidable (Below root dir) :=
  inferInstanceAs (Decidable (_ ∧ _))

theorem walk_append (dir : List ν) (xs ys : List (PathStep ν)) :
    walk dir (xs ++ ys) = walk (walk dir xs) ys := by
  induction xs generalizing dir with
  | nil => rfl
  | cons step steps ih =>
    cases step with
    | stay => exact ih dir
    | up => exact ih _
    | down name => exact ih _

/-- The directory so many steps up and then down these names. -/
def upDown (dir : List ν) (p : Nat × List ν) : List ν := dir.take (dir.length - p.1) ++ p.2

theorem walk_upDown (dir : List ν) (p : Nat × List ν) (steps : List (PathStep ν)) :
    walk (upDown dir p) steps = upDown dir (steps.foldl settleStep p) := by
  induction steps generalizing p with
  | nil => rfl
  | cons step steps ih =>
    rw [List.foldl_cons, ← ih]
    obtain ⟨ups, names⟩ := p
    cases step with
    | stay => cases names <;> rfl
    | down name =>
      show walk (upDown dir (ups, names) ++ [name]) steps = _
      cases names <;> simp [upDown, settleStep]
    | up =>
      show walk (upDown dir (ups, names)).dropLast steps = _
      cases names with
      | nil =>
        have hsub : dir.length - (ups + 1) = dir.length - ups - 1 := by omega
        simp only [upDown, settleStep, List.append_nil, hsub, List.dropLast_eq_take,
          List.length_take, List.take_take]
        congr 2
        omega
      | cons name names =>
        simp only [upDown, settleStep]
        rw [List.dropLast_append_of_ne_nil (by simp)]

theorem walk_eq_upDown (dir : List ν) (steps : List (PathStep ν)) :
    walk dir steps = upDown dir (settle steps) := by
  have h := walk_upDown dir (0, []) steps
  simpa [upDown, settle] using h

theorem below_append_left (xs ys zs : List ν) : Below (xs ++ ys) (xs ++ zs) ↔ Below ys zs := by
  simp [Below, List.prefix_append_right_inj]

/-- **Where a path leads below its start.**  The names it goes down begin with those it went
up before, and there are more. -/
theorem below_walk_iff (dir : List ν) (steps : List (PathStep ν)) :
    Below dir (walk dir steps) ↔
      Below (dir.drop (dir.length - (settle steps).1)) (settle steps).2 := by
  have hcut := below_append_left (dir.take (dir.length - (settle steps).1))
    (dir.drop (dir.length - (settle steps).1)) (settle steps).2
  rw [List.take_append_drop] at hcut
  rw [walk_eq_upDown]
  exact hcut

/-- A path that never goes up stays in or below its start. -/
theorem prefix_walk_of_no_up (dir : List ν) {steps : List (PathStep ν)}
    (h : .up ∉ steps) : dir <+: walk dir steps := by
  induction steps generalizing dir with
  | nil => exact List.prefix_rfl
  | cons step steps ih =>
    have hrest : PathStep.up ∉ steps := fun hmem => h (by simp [hmem])
    cases step with
    | stay => exact ih dir hrest
    | up => exact absurd (List.mem_cons_self) h
    | down name => exact (List.prefix_append dir [name]).trans (ih _ hrest)

end Path

end Lib

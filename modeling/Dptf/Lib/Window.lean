import Mathlib.Order.Basic
import Mathlib.Data.List.Basic
import Mathlib.Data.List.Induction
import Mathlib.Order.Lattice

/-!
# Windows around a value

Somebody who is told of a value only when it leaves a window decides by the value.  No decision
is missed if it is the same throughout the window.
-/

namespace Lib

/-! ## Loops over a list -/

section Loop

variable {T α : Type}

/-- The loop that keeps the last element with a property. -/
theorem foldl_last_eq_some {p : α → Prop} [DecidablePred p] {f : α → T} {u : T} {xs : List α}
    (h : xs.foldl (fun last x => if p x then some (f x) else last) none = some u) :
    ∃ before b after, xs = before ++ b :: after ∧ f b = u ∧ p b ∧ ∀ y ∈ after, ¬p y := by
  induction xs using List.reverseRecOn with
  | nil => cases h
  | append_singleton xs x ih =>
    rw [List.foldl_append, List.foldl_cons, List.foldl_nil] at h
    by_cases hx : p x
    · rw [if_pos hx] at h
      exact ⟨xs, x, [], rfl, Option.some.inj h, hx, by simp⟩
    · rw [if_neg hx] at h
      obtain ⟨before, b, after, rfl, hb, hpb, hafter⟩ := ih h
      refine ⟨before, b, after ++ [x], by simp, hb, hpb, fun y hy => ?_⟩
      rcases List.mem_append.mp hy with hy | hy
      · exact hafter y hy
      · rw [List.mem_singleton.mp hy]
        exact hx

/-- It keeps none if there is none. -/
theorem foldl_last_eq_none {p : α → Prop} [DecidablePred p] {f : α → T} {xs : List α}
    (h : xs.foldl (fun last x => if p x then some (f x) else last) none = none) :
    ∀ x ∈ xs, ¬p x := by
  induction xs using List.reverseRecOn with
  | nil => simp
  | append_singleton xs x ih =>
    rw [List.foldl_append, List.foldl_cons, List.foldl_nil] at h
    by_cases hx : p x
    · rw [if_pos hx] at h
      cases h
    · rw [if_neg hx] at h
      intro y hy
      rcases List.mem_append.mp hy with hy | hy
      · exact ih h y hy
      · rw [List.mem_singleton.mp hy]
        exact hx

/-- The loop passes over elements that are no hits. -/
theorem foldl_last_of_forall_not {p : α → Prop} [DecidablePred p] {f : α → T} {xs : List α}
    (h : ∀ x ∈ xs, ¬p x) (last : Option T) :
    xs.foldl (fun last x => if p x then some (f x) else last) last = last := by
  induction xs with
  | nil => rfl
  | cons x xs ih =>
    rw [List.foldl_cons, if_neg (h x List.mem_cons_self)]
    exact ih fun y hy => h y (List.mem_cons_of_mem _ hy)

/-- Where a list is one hit after elements that are none and elements that are none, the loop
keeps the hit. -/
theorem foldl_last_append_cons {p : α → Prop} [DecidablePred p] {f : α → T}
    {before after : List α} {b : α} (hb : p b) (hafter : ∀ y ∈ after, ¬p y) (last : Option T) :
    (before ++ b :: after).foldl (fun last x => if p x then some (f x) else last) last =
      some (f b) := by
  rw [List.foldl_append, List.foldl_cons, if_pos hb, foldl_last_of_forall_not hafter]

/-- The elements before the first with a property and those from it on. -/
theorem takeWhile_append_eq {p : α → Bool} {pre rest : List α} (hpre : ∀ x ∈ pre, p x = true)
    (hrest : ∀ x ∈ rest.head?, p x = false) : (pre ++ rest).takeWhile p = pre := by
  rw [List.takeWhile_append_of_pos hpre]
  cases rest with
  | nil => simp
  | cons x rest => simp [hrest x rfl]

end Loop

/-! ## Windows -/

section Window

variable {T D α : Type} [LinearOrder T]

/-- The value is not below the lower end and below the upper one. -/
def Inside (window : Option T × Option T) (t : T) : Prop :=
  (∀ lower, window.1 = some lower → lower ≤ t) ∧ ∀ upper, window.2 = some upper → t < upper

/-- Each value is inside its window, and no value inside it leads to another decision. -/
def Watches (value : T → Prop) (window : T → Option T × Option T) (decision : T → D) : Prop :=
  ∀ t, value t → Inside (window t) t ∧
    ∀ t', value t' → Inside (window t) t' → decision t' = decision t

/-- **The ends next to a value.**  If the last of the values up to `t` and the first of the
others bound `t'`, the same values are up to `t'`. -/
theorem takeWhile_eq_of_inside {f : α → T} {xs : List α}
    (hsorted : xs.Pairwise fun a b => f a ≤ f b) {t t' : T}
    (hlower : ∀ x, (xs.takeWhile fun x => f x ≤ t).getLast? = some x → f x ≤ t')
    (hupper : ∀ x, (xs.dropWhile fun x => f x ≤ t).head? = some x → t' < f x) :
    (xs.takeWhile fun x => f x ≤ t') = xs.takeWhile fun x => f x ≤ t := by
  conv_lhs => rw [← List.takeWhile_append_dropWhile (p := fun x => f x ≤ t) (l := xs)]
  refine takeWhile_append_eq (fun x hx => ?_) fun x hx => ?_
  · -- the last of the values up to `t` bounds them all
    rcases List.eq_nil_or_concat (xs.takeWhile fun x => f x ≤ t) with hnil | ⟨init, y, hpre⟩
    · rw [hnil] at hx
      cases hx
    · rw [List.concat_eq_append] at hpre
      have hy : f y ≤ t' := hlower y (by rw [hpre, List.getLast?_concat])
      have hpairs : (init ++ [y]).Pairwise fun a b => f a ≤ f b :=
        hpre ▸ hsorted.sublist (List.takeWhile_sublist _)
      rw [hpre] at hx
      rcases List.mem_append.mp hx with hx | hx
      · have hxy := (List.pairwise_append.mp hpairs).2.2 x hx y List.mem_cons_self
        exact decide_eq_true (hxy.trans hy)
      · rw [List.mem_singleton.mp hx]
        exact decide_eq_true hy
  · simpa using hupper x hx

end Window

end Lib

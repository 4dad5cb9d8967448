import Mathlib.Data.List.Induction
import Mathlib.Logic.Equiv.Defs
import Mathlib.Order.MinMax
import Dptf.Lib.KeyMap

/-!
# The tightest of some requests

Requests of which some are missing, and the tightest of those there are, for any relation
`tighter` that says of two values that the first one allows no more than the second.
-/

namespace Lib

section Tightest

variable {P V : Type}

/-- The tightest of the values of a set; none, if there are none. -/
def IsTightest (tighter : V → V → Prop) (values : V → Prop) : Option V → Prop
  | none => ∀ v, ¬ values v
  | some t => values t ∧ ∀ v, values v → tighter t v

/-- The values somebody requests. -/
def Requested (requests : P → Option V) (v : V) : Prop := ∃ p, requests p = some v

/-- It does not matter who requests a value. -/
theorem requested_comp (requests : P → Option V) (σ : Equiv.Perm P) :
    Requested (requests ∘ σ) = Requested requests := by
  funext v
  refine propext ⟨?_, ?_⟩
  · rintro ⟨p, hp⟩
    exact ⟨σ p, hp⟩
  · rintro ⟨p, hp⟩
    exact ⟨σ.symm p, by rw [Function.comp_apply, Equiv.apply_symm_apply, hp]⟩

/-- There is only one tightest value. -/
theorem IsTightest.unique {tighter : V → V → Prop} {values : V → Prop} {r r' : Option V}
    (hanti : ∀ a b, tighter a b → tighter b a → a = b)
    (h : IsTightest tighter values r) (h' : IsTightest tighter values r') : r = r' := by
  cases r with
  | none =>
    cases r' with
    | none => rfl
    | some t' => exact absurd h'.1 (h t')
  | some t =>
    cases r' with
    | none => exact absurd h.1 (h' t)
    | some t' => exact congrArg some (hanti t t' (h.2 t' h'.1) (h'.2 t h.1))

/-- An operation that picks the tighter one of two values. -/
structure Picks (tighter : V → V → Prop) (pick : V → V → V) : Prop where
  mem : ∀ a b, pick a b = a ∨ pick a b = b
  left : ∀ a b, tighter (pick a b) a
  right : ∀ a b, tighter (pick a b) b
  trans : ∀ a b c, tighter a b → tighter b c → tighter a c
  antisymm : ∀ a b, tighter a b → tighter b a → a = b

theorem picks_min [LinearOrder V] : Picks (V := V) (· ≤ ·) min where
  mem a b := min_choice a b
  left := min_le_left
  right := min_le_right
  trans _ _ _ := le_trans
  antisymm _ _ := le_antisymm

theorem picks_max [LinearOrder V] : Picks (V := V) (· ≥ ·) max where
  mem a b := max_choice a b
  left := le_max_left
  right := le_max_right
  trans _ _ _ := ge_trans
  antisymm _ _ hab hba := le_antisymm hba hab

theorem Picks.refl {tighter : V → V → Prop} {pick : V → V → V} (h : Picks tighter pick) (a : V) :
    tighter a a := by
  have hpick : pick a a = a := (h.mem a a).elim id id
  have hle := h.left a a
  rwa [hpick] at hle

/-- One more request. -/
theorem IsTightest.merge {tighter : V → V → Prop} {pick : V → V → V} (hpick : Picks tighter pick)
    {values : V → Prop} {r : Option V} (h : IsTightest tighter values r) (request : Option V) :
    IsTightest tighter (fun v => values v ∨ request = some v) (Option.merge pick r request) := by
  cases request with
  | none =>
    have hsame : (fun v => values v ∨ none = some v) = values := by
      funext v
      simp
    rw [hsame, Option.merge_none_right]
    exact h
  | some q =>
    cases r with
    | none =>
      refine ⟨Or.inr rfl, ?_⟩
      rintro v (hv | hv)
      · exact absurd hv (h v)
      · cases hv
        exact hpick.refl q
    | some t =>
      refine ⟨?_, ?_⟩
      · rcases hpick.mem t q with hmem | hmem
        · exact Or.inl (hmem.symm ▸ h.1)
        · exact Or.inr (congrArg some hmem.symm)
      · rintro v (hv | hv)
        · exact hpick.trans _ t v (hpick.left t q) (h.2 v hv)
        · cases hv
          exact hpick.right t q

/-- **The loop over the requests** finds the tightest one. -/
theorem isTightest_foldl {tighter : V → V → Prop} {pick : V → V → V} (hpick : Picks tighter pick)
    (requests : List (Option V)) :
    IsTightest tighter (fun v => some v ∈ requests) (requests.foldl (Option.merge pick) none) := by
  induction requests using List.reverseRecOn with
  | nil => simp [IsTightest]
  | append_singleton requests request ih =>
    have hmem : (fun v => some v ∈ requests ++ [request]) =
        fun v => some v ∈ requests ∨ request = some v := by
      funext v
      rw [List.mem_append, List.mem_singleton, eq_comm (a := some v)]
    rw [hmem, List.foldl_append]
    exact ih.merge hpick request

/-- From a value on, the loop over requests of which none is missing is the loop of `pick`. -/
theorem foldl_merge_some (pick : V → V → V) (v : V) (requests : List V) :
    (requests.map some).foldl (Option.merge pick) (some v) = some (requests.foldl pick v) := by
  induction requests generalizing v with
  | nil => rfl
  | cons w ws ih => exact ih (pick v w)

/-- A loop that starts with a value of its own compares it with the tightest request. -/
theorem foldl_eq_elim (pick : V → V → V) [Std.Associative pick] (start : V) (requests : List V) :
    requests.foldl pick start =
      ((requests.map some).foldl (Option.merge pick) none).elim start (pick start) := by
  cases requests with
  | nil => rfl
  | cons v vs =>
    rw [List.map_cons, List.foldl_cons, List.foldl_cons, Option.merge_none_left,
      foldl_merge_some, Option.elim_some, List.foldl_assoc]

/-- The same of a loop over the values of a map, of which it looks at one field. -/
theorem isTightest_foldl_values {K W : Type} [LinearOrder K] {tighter : V → V → Prop}
    {pick : V → V → V} (hpick : Picks tighter pick) (m : KeyMap K W) (field : W → Option V) :
    IsTightest tighter (Requested fun k => (m.find k).bind field)
      ((m.values.map field).foldl (Option.merge pick) none) := by
  have hmem : (Requested fun k => (m.find k).bind field) =
      fun v => some v ∈ m.values.map field := by
    funext v
    refine propext ⟨?_, ?_⟩
    · rintro ⟨k, hk⟩
      obtain ⟨w, hw, hv⟩ := Option.bind_eq_some_iff.1 hk
      exact List.mem_map.2 ⟨w, (m.mem_values_iff w).2 ⟨k, hw⟩, hv⟩
    · intro hv
      obtain ⟨w, hw, hfield⟩ := List.mem_map.1 hv
      obtain ⟨k, hk⟩ := (m.mem_values_iff w).1 hw
      refine ⟨k, ?_⟩
      show (m.find k).bind field = some v
      rw [hk, Option.bind_some, hfield]
  rw [hmem]
  exact isTightest_foldl hpick _

/-- The second end of a window whose first end stays where it is. -/
def ordered (before : V → V → Prop) [DecidableRel before] : Option V → Option V → Option V
  | some first, some second => if before first second then some second else some first
  | _, second => second

/-- The window that some requests leave: each end is the tightest one requested, else the current
one, and the ends are in order. -/
def IsWindow (tighterFirst tighterSecond before : V → V → Prop) [DecidableRel before]
    (firstRequests secondRequests : P → Option V) (currentFirst currentSecond : Option V)
    (first second : Option V) : Prop :=
  ∃ f s, IsTightest tighterFirst (Requested firstRequests) f ∧
    IsTightest tighterSecond (Requested secondRequests) s ∧
    first = f.or currentFirst ∧ second = ordered before (f.or currentFirst) (s.or currentSecond)

end Tightest

end Lib

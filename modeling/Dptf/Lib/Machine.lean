import Mathlib.Data.List.Basic
import Mathlib.Logic.Basic
import Mathlib.Logic.Function.Iterate
import Mathlib.Order.WellFounded

/-!
# Machines: step functions and what their runs preserve

A machine is a partial function `step : σ → α → Option σ`: in state `s` the
action `a` is either impossible (`none`) or leads to one state.  Threads that
interleave are one machine whose actions carry the thread that takes them, so a
run — a list of actions — is a schedule.

A program without inputs is a function `next` on its states, and a run is the
iteration of it.  A final state is one the program stays in, and so is one in which it
waits for what does not happen.

* `run_invariant` — **the invariant rule**: what every step preserves, a run
  preserves; `run_invariant_of_everyStep` is the rule for steps under a
  condition.
* `run_simulation` — **the simulation rule**, for a specification that takes the
  same actions; `run_refines` is the rule for steps that succeed under a condition.
* `forget_foldl` — **the rule for forgetting**: what leaves no trace might as well not have been.
* `exists_iterate_of_decreasing` — **the termination rule**: what decreases in a well
  founded order as long as the end is not reached, reaches it.
* `halts_iff_never_stuck` — **the rule for programs that may wait for ever**: they halt
  just if they never do.
-/

namespace Lib

section Machine

variable {σ α : Type*} (step : σ → α → Option σ)

/-- Run the machine over a list of actions; `none` once an action is impossible. -/
def run : σ → List α → Option σ
  | s, [] => some s
  | s, a :: as => (step s a).bind fun s' => run s' as

/-- The condition `ok` holds at every step the run takes. -/
def EveryStep (ok : σ → α → Prop) : σ → List α → Prop
  | _, [] => True
  | s, a :: as => ok s a ∧ ∀ s', step s a = some s' → EveryStep ok s' as

/-- A state some run from an initial state ends in. -/
def Reachable (init : σ → Prop) (s : σ) : Prop :=
  ∃ s₀ as, init s₀ ∧ run step s₀ as = some s

@[simp] theorem run_nil (s : σ) : run step s [] = some s := rfl

@[simp] theorem run_cons (s : σ) (a : α) (as : List α) :
    run step s (a :: as) = (step s a).bind fun s' => run step s' as := rfl

variable {step}

/-- A condition that can be decided of a step can be decided of a run. -/
instance EveryStep.decidable {ok : σ → α → Prop} [∀ s a, Decidable (ok s a)] :
    ∀ (s : σ) (as : List α), Decidable (EveryStep step ok s as)
  | _, [] => isTrue trivial
  | s, a :: as =>
    match h : step s a with
    | none => decidable_of_iff (ok s a) ⟨fun hok => ⟨hok, by simp [h]⟩, And.left⟩
    | some s' =>
      have : Decidable (EveryStep step ok s' as) := EveryStep.decidable s' as
      decidable_of_iff (ok s a ∧ EveryStep step ok s' as)
        ⟨fun hok => ⟨hok.1, by simpa [h] using hok.2⟩, fun hok => ⟨hok.1, hok.2 s' h⟩⟩

theorem run_cons_eq_some {s s' : σ} {a : α} {as : List α} (h : run step s (a :: as) = some s') :
    ∃ t, step s a = some t ∧ run step t as = some s' := by
  simpa [Option.bind_eq_some_iff] using h

theorem run_append (s : σ) (as bs : List α) :
    run step s (as ++ bs) = (run step s as).bind fun t => run step t bs := by
  induction as generalizing s with
  | nil => rfl
  | cons a as ih =>
    cases h : step s a with
    | none => simp [h]
    | some t => simpa [h] using ih t

theorem run_append_eq_some {s s' : σ} {as bs : List α} (h : run step s (as ++ bs) = some s') :
    ∃ t, run step s as = some t ∧ run step t bs = some s' := by
  rw [run_append] at h
  exact Option.bind_eq_some_iff.mp h

/-- **The invariant rule under a condition.**  If every step that meets `ok`
preserves `inv`, so does every run all of whose steps meet it. -/
theorem run_invariant_of_everyStep {ok : σ → α → Prop} {inv : σ → Prop}
    (hstep : ∀ s a s', ok s a → step s a = some s' → inv s → inv s')
    {s s' : σ} {as : List α} (hok : EveryStep step ok s as)
    (hrun : run step s as = some s') (hs : inv s) : inv s' := by
  induction as generalizing s with
  | nil =>
    obtain rfl : s = s' := by simpa using hrun
    exact hs
  | cons a as ih =>
    obtain ⟨t, hst, hrt⟩ := run_cons_eq_some hrun
    exact ih (hok.2 t hst) hrt (hstep s a t hok.1 hst hs)

/-- What a step that meets `ok` brings where an invariant holds, every step of the run brings. -/
theorem EveryStep.imp_of_invariant {ok ok' : σ → α → Prop} {inv : σ → Prop} {s : σ} {as : List α}
    (hok : EveryStep step ok s as) (hstep : ∀ s a s', ok s a → step s a = some s' → inv s → inv s')
    (himp : ∀ s a, ok s a → inv s → ok' s a) (hs : inv s) : EveryStep step ok' s as := by
  induction as generalizing s with
  | nil => trivial
  | cons a as ih =>
    exact ⟨himp s a hok.1 hs, fun s' hst => ih (hok.2 s' hst) (hstep s a s' hok.1 hst hs)⟩

/-- A condition that an invariant brings with it holds at every step. -/
theorem everyStep_of_invariant {ok ok' : σ → α → Prop} {inv : σ → Prop}
    (hstep : ∀ s a s', ok s a → step s a = some s' → inv s → inv s')
    (hinv : ∀ s a, inv s → ok' s a) {s : σ} {as : List α} (hok : EveryStep step ok s as)
    (hs : inv s) : EveryStep step ok' s as :=
  hok.imp_of_invariant hstep (fun s a _ => hinv s a) hs

/-- A condition on a run in two parts holds in the first part, -/
theorem EveryStep.left {ok : σ → α → Prop} {s : σ} {as bs : List α}
    (h : EveryStep step ok s (as ++ bs)) : EveryStep step ok s as := by
  induction as generalizing s with
  | nil => trivial
  | cons a as ih => exact ⟨h.1, fun s' hst => ih (h.2 s' hst)⟩

/-- and in the second part, from where the first one ends. -/
theorem EveryStep.right {ok : σ → α → Prop} {s t : σ} {as bs : List α}
    (h : EveryStep step ok s (as ++ bs)) (hrun : run step s as = some t) :
    EveryStep step ok t bs := by
  induction as generalizing s with
  | nil =>
    obtain rfl : s = t := by simpa using hrun
    exact h
  | cons a as ih =>
    obtain ⟨u, hsu, hut⟩ := run_cons_eq_some hrun
    exact ih (h.2 u hsu) hut

/-- **The invariant rule.**  What every step preserves, every run preserves. -/
theorem run_invariant {inv : σ → Prop} (hstep : ∀ s a s', step s a = some s' → inv s → inv s')
    {s s' : σ} {as : List α} (hrun : run step s as = some s') (hs : inv s) : inv s' := by
  induction as generalizing s with
  | nil =>
    obtain rfl : s = s' := by simpa using hrun
    exact hs
  | cons a as ih =>
    obtain ⟨t, hst, hrt⟩ := run_cons_eq_some hrun
    exact ih hrt (hstep s a t hst hs)

/-- A condition that no action of a run can miss holds at every step of it. -/
theorem everyStep_of_mem {ok : σ → α → Prop} {as : List α} (h : ∀ a ∈ as, ∀ s, ok s a) (s : σ) :
    EveryStep step ok s as := by
  induction as generalizing s with
  | nil => trivial
  | cons a as ih => exact ⟨h a (by simp) s, fun s' _ => ih (fun b hb => h b (by simp [hb])) s'⟩

/-- A condition on the actions alone may be added to a condition on the steps. -/
theorem EveryStep.and_of_mem {ok : σ → α → Prop} {ok' : α → Prop} {s : σ} {as : List α}
    (h : EveryStep step ok s as) (h' : ∀ a ∈ as, ok' a) :
    EveryStep step (fun s a => ok s a ∧ ok' a) s as := by
  induction as generalizing s with
  | nil => trivial
  | cons a as ih =>
    refine ⟨⟨h.1, h' a (by simp)⟩, fun s' hs' => ?_⟩
    exact ih (h.2 s' hs') fun b hb => h' b (by simp [hb])

/-- Two conditions that agree on the states a run can come through hold of the same runs.
It is enough that the steps which meet the second one stay among these states. -/
theorem everyStep_congr_of_ok {ok ok' : σ → α → Prop} {inv : σ → Prop}
    (hstep : ∀ s a s', ok' s a → step s a = some s' → inv s → inv s')
    (hiff : ∀ s a, inv s → (ok s a ↔ ok' s a)) {s : σ} (hs : inv s) (as : List α) :
    EveryStep step ok s as ↔ EveryStep step ok' s as := by
  induction as generalizing s with
  | nil => exact Iff.rfl
  | cons a as ih =>
    constructor
    · rintro ⟨hok, hrest⟩
      have hok' := (hiff s a hs).mp hok
      exact ⟨hok', fun s' hst => (ih (hstep s a s' hok' hst hs)).mp (hrest s' hst)⟩
    · rintro ⟨hok', hrest⟩
      exact ⟨(hiff s a hs).mpr hok',
        fun s' hst => (ih (hstep s a s' hok' hst hs)).mpr (hrest s' hst)⟩

/-- The two conditions agree on all states the machine can come to. -/
theorem everyStep_congr {ok ok' : σ → α → Prop} {inv : σ → Prop}
    (hstep : ∀ s a s', step s a = some s' → inv s → inv s')
    (hiff : ∀ s a, inv s → (ok s a ↔ ok' s a)) {s : σ} (hs : inv s) (as : List α) :
    EveryStep step ok s as ↔ EveryStep step ok' s as :=
  everyStep_congr_of_ok (fun s a s' _ => hstep s a s') hiff hs as

/-- **The rule for a condition that is exact.**  Where a step from a good state leads to a good one
just if it meets `keeps`, a run goes through good states only just if all its steps meet it. -/
theorem everyStep_good_iff {next : σ → α → σ} {inv good : σ → Prop} {keeps : σ → α → Prop}
    (hinv : ∀ s a, inv s → inv (next s a))
    (hstep : ∀ s a, inv s → good s → (good (next s a) ↔ keeps s a)) {s : σ} (hs : inv s)
    (hgood : good s) (as : List α) :
    EveryStep (fun s a => some (next s a)) (fun s a => good (next s a)) s as ↔
      EveryStep (fun s a => some (next s a)) keeps s as := by
  refine @everyStep_congr_of_ok _ _ _ _ _ (fun s => inv s ∧ good s) ?_ ?_ _ ⟨hs, hgood⟩ as
  · rintro s a s' hkeeps hst ⟨hinv', hgood'⟩
    cases hst
    exact ⟨hinv s a hinv', (hstep s a hinv' hgood').2 hkeeps⟩
  · rintro s a ⟨hinv', hgood'⟩
    exact hstep s a hinv' hgood'

/-- **The rule for a condition on the actions.**  A history of the actions that is kept in step with
the machine decides a condition on its steps. -/
theorem everyStep_iff_history {τ : Type*} {next : σ → α → σ} {spec : τ → α → τ}
    {ok : σ → α → Prop} {ok' : τ → α → Prop} {rel : τ → σ → Prop}
    (hiff : ∀ t s a, rel t s → (ok s a ↔ ok' t a))
    (hstep : ∀ t s a, rel t s → ok s a → rel (spec t a) (next s a)) {t : τ} {s : σ}
    (hs : rel t s) (as : List α) :
    EveryStep (fun s a => some (next s a)) ok s as ↔
      EveryStep (fun t a => some (spec t a)) ok' t as := by
  induction as generalizing t s with
  | nil => exact Iff.rfl
  | cons a as ih =>
    rw [EveryStep, EveryStep, ← hiff t s a hs]
    refine and_congr_right fun hok => ?_
    simp only [Option.some.injEq, forall_eq']
    exact ih (hstep t s a hs hok)

/-- What holds of the initial states and is preserved holds of the reachable ones. -/
theorem reachable_invariant {init inv : σ → Prop} (hinit : ∀ s, init s → inv s)
    (hstep : ∀ s a s', step s a = some s' → inv s → inv s')
    {s : σ} (h : Reachable step init s) : inv s := by
  obtain ⟨s₀, as, h₀, hrun⟩ := h
  exact run_invariant hstep hrun (hinit s₀ h₀)

/-- **The simulation rule.**  If each step keeps the machine related to a specification
that takes the same action, a run keeps it related to the specification's run. -/
theorem run_simulation {τ : Type*} {spec : τ → α → τ} {rel : τ → σ → Prop}
    (hstep : ∀ t s a s', step s a = some s' → rel t s → rel (spec t a) s')
    {t : τ} {s s' : σ} {as : List α} (hrun : run step s as = some s') (hs : rel t s) :
    rel (as.foldl spec t) s' := by
  induction as generalizing t s with
  | nil =>
    obtain rfl : s = s' := by simpa using hrun
    exact hs
  | cons a as ih =>
    obtain ⟨u, hsu, hru⟩ := run_cons_eq_some hrun
    exact ih hru (hstep t s a u hsu hs)

/-- **The refinement rule.**  If each step that meets `ok` succeeds and keeps the machine related
to the specification, a run all of whose steps meet it succeeds and keeps it related. -/
theorem run_refines {τ : Type*} {ok : σ → α → Prop} {spec : τ → α → τ} {rel : τ → σ → Prop}
    (hstep : ∀ t s a, ok s a → rel t s → ∃ s', step s a = some s' ∧ rel (spec t a) s')
    {t : τ} {s : σ} {as : List α} (hok : EveryStep step ok s as) (hs : rel t s) :
    ∃ s', run step s as = some s' ∧ rel (as.foldl spec t) s' := by
  induction as generalizing t s with
  | nil => exact ⟨s, rfl, hs⟩
  | cons a as ih =>
    obtain ⟨u, hsu, hrel⟩ := hstep t s a hok.1 hs
    obtain ⟨s', hrun, hend⟩ := ih (hok.2 u hsu) hrel
    exact ⟨s', by rw [run_cons, hsu]; exact hrun, hend⟩

/-- **The rule for forgetting.**  If a state in which something is forgotten does not show the
actions of its own, and forgetting commutes with the others, then a run followed by forgetting is
the run of the others. -/
theorem forget_foldl {next : σ → α → σ} {forget : σ → σ} {own : α → Prop} [DecidablePred own]
    (hown : ∀ s a, own a → forget (next s a) = forget s)
    (hother : ∀ s a, ¬ own a → forget (next s a) = next (forget s) a) (s : σ) (as : List α) :
    forget (as.foldl next s) = (as.filter fun a => ¬ own a).foldl next (forget s) := by
  induction as generalizing s with
  | nil => rfl
  | cons a as ih =>
    rw [List.foldl_cons, ih]
    by_cases ha : own a
    · rw [hown s a ha, List.filter_cons_of_neg (by simpa using ha)]
    · rw [hother s a ha, List.filter_cons_of_pos (by simpa using ha), List.foldl_cons]

end Machine

/-! ## Programs without inputs -/

section Halting

variable {σ : Type*} {next : σ → σ}

/-- What a step preserves, a run preserves, if it holds of every state that meets `ok`. -/
theorem iterate_invariant {ok inv : σ → Prop} (hstep : ∀ s, ok s → inv s → inv (next s)) {s : σ}
    (hok : ∀ n, ok (next^[n] s)) (hs : inv s) (n : ℕ) : inv (next^[n] s) := by
  induction n with
  | zero => exact hs
  | succ n ih =>
    rw [Function.iterate_succ_apply']
    exact hstep _ (hok n) ih

/-- A state the program stays in is left at no later step. -/
theorem iterate_eq_of_fixed {s : σ} {n m : ℕ} (hfixed : next (next^[n] s) = next^[n] s)
    (hle : n ≤ m) : next^[m] s = next^[n] s := by
  obtain ⟨k, rfl⟩ := Nat.exists_eq_add_of_le hle
  rw [Nat.add_comm, Function.iterate_add_apply]
  exact Function.iterate_fixed hfixed k

/-- **The termination rule.**  If every step from a state on the run that is not final goes down
in a well founded order, the run comes to a final state. -/
theorem exists_iterate_of_decreasing {α : Type*} {r : α → α → Prop} (hr : WellFounded r)
    (measure : σ → α) {final : σ → Prop} {s : σ} (hdown : ∀ n, ¬ final (next^[n] s) →
      r (measure (next (next^[n] s))) (measure (next^[n] s))) :
    ∃ n, final (next^[n] s) := by
  have hfrom : ∀ a n, measure (next^[n] s) = a → ∃ m, final (next^[m] s) := by
    intro a
    induction a using hr.induction with
    | _ a ih =>
      rintro n rfl
      by_cases hfinal : final (next^[n] s)
      · exact ⟨n, hfinal⟩
      · refine ih _ (hdown n hfinal) (n + 1) ?_
        rw [Function.iterate_succ_apply']
  exact hfrom _ 0 rfl

/-- **The rule for programs that may wait for ever.**  Where each step that neither ends nor waits
goes down in a well founded order, the program halts just if it never waits. -/
theorem halts_iff_never_stuck {α : Type*} {r : α → α → Prop} (hr : WellFounded r)
    (measure : σ → α) {final stuck : σ → Prop} {s : σ}
    (hfinal : ∀ s, final s → next s = s) (hstuck : ∀ s, stuck s → next s = s ∧ ¬ final s)
    (hdown : ∀ n, ¬ final (next^[n] s) → ¬ stuck (next^[n] s) →
      r (measure (next (next^[n] s))) (measure (next^[n] s))) :
    (∃ n, final (next^[n] s)) ↔ ∀ n, ¬ stuck (next^[n] s) := by
  constructor
  · rintro ⟨n, hn⟩ m hm
    rcases le_total n m with hle | hle
    · rw [iterate_eq_of_fixed (hfinal _ hn) hle] at hm
      exact (hstuck _ hm).2 hn
    · rw [iterate_eq_of_fixed (hstuck _ hm).1 hle] at hn
      exact (hstuck _ hm).2 hn
  · intro hnever
    exact exists_iterate_of_decreasing hr measure fun n hn => hdown n hn (hnever n)

/-- What holds of all states up to a final one holds of the whole run. -/
theorem forall_iterate_of_fixed {p : σ → Prop} {s : σ} {n : ℕ}
    (hfixed : next (next^[n] s) = next^[n] s) (hp : ∀ m ≤ n, p (next^[m] s)) (m : ℕ) :
    p (next^[m] s) := by
  rcases le_total m n with hle | hle
  · exact hp m hle
  · rw [iterate_eq_of_fixed hfixed hle]
    exact hp n (Nat.le_refl n)

end Halting

end Lib

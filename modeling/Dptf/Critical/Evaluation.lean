import Dptf.Critical.Assessment

/-!
# What an evaluation of the critical policy does

* `evaluated` — **an evaluation**: what it sets, when it throws, and what it asks for.
-/

open Lib

namespace Critical

open Thermal

namespace CriticalPolicy

/-! ## The watchdog -/

section Watchdog

variable (s : CriticalPolicy)

/-- A callback of the timer is outstanding. -/
def Armed : Prop := s.scheduler.outstanding ≠ []

instance : Decidable s.Armed := inferInstanceAs (Decidable (_ ≠ _))

/-- **A request that is pending is looked at again.** -/
def PendingArmed : Prop := s.sleepRequested = true ∨ s.hibernateRequested = true → s.Armed

@[simp] theorem outstanding_startTimer : s.startTimer.scheduler.outstanding ≠ [] :=
  List.cons_ne_nil _ _

@[simp] theorem sleepRequested_startTimer : s.startTimer.sleepRequested = s.sleepRequested := by
  unfold startTimer stopTimer
  split <;> rfl

@[simp] theorem hibernateRequested_startTimer :
    s.startTimer.hibernateRequested = s.hibernateRequested := by
  unfold startTimer stopTimer
  split <;> rfl

@[simp] theorem inEmergencyCallMode_startTimer :
    s.startTimer.inEmergencyCallMode = s.inEmergencyCallMode := by
  unfold startTimer stopTimer
  split <;> rfl

@[simp] theorem participants_startTimer : s.startTimer.participants = s.participants := by
  unfold startTimer stopTimer
  split <;> rfl

theorem assess_congr {s s' : CriticalPolicy} (h : s'.participants = s.participants)
    (services : Services) (q : Nat) : s'.assess services q = s.assess services q := by
  unfold assess
  rw [h]

end Watchdog

/-! ## Power actions -/

/-- What comes of power action about a trip point. -/
structure Acted (services : Services) (q : Nat) (k : ParticipantSpecificInfoKey)
    (s : CriticalPolicy) (a : Action) : Prop where
  mode : a.state.inEmergencyCallMode = s.inEmergencyCallMode
  participants : a.state.participants = s.participants
  sleep : a.state.sleepRequested = true ↔
    s.sleepRequested = true ∨ s.inEmergencyCallMode = false ∧ k = .warm
  hibernate : a.state.hibernateRequested = true ↔
    s.hibernateRequested = true ∨ s.inEmergencyCallMode = false ∧ k = .hot
  thrown : a.thrown = true ↔ s.inEmergencyCallMode = false ∧
    (k = .warm ∧ s.sleepRequested = false ∧ services.sleep q = false ∨
      k = .hot ∧ s.hibernateRequested = false ∧ services.hibernate q = false ∨
      k = .critical ∧ services.shutDown q = false)
  armed : a.state.Armed ↔ s.Armed ∨ a.thrown = false ∧ s.inEmergencyCallMode = false ∧
    (k = .warm ∧ s.sleepRequested = false ∨ k = .hot ∧ s.hibernateRequested = false ∨
      k = .critical)
  shutDown : ∀ p, (∃ t trip name, (p, Request.shutDown t trip name) ∈ a.requests) ↔
    p = q ∧ s.inEmergencyCallMode = false ∧ k = .critical

theorem acted_takePowerAction (s : CriticalPolicy) (services : Services) (q : Nat)
    (t : Temperature) {k : ParticipantSpecificInfoKey} (hk : k ∈ powerTripPoints)
    (trip : Option Temperature) (name : String) :
    Acted services q k s (s.takePowerAction services q t k trip name) := by
  have hkeys : k = .none ∨ k = .warm ∨ k = .hot ∨ k = .critical := by
    simpa [powerTripPoints] using hk
  unfold takePowerAction
  by_cases hmode : s.inEmergencyCallMode = true
  · rw [if_pos hmode]
    constructor <;> simp [hmode]
  · rw [if_neg hmode]
    rcases hkeys with rfl | rfl | rfl | rfl
    · constructor <;> simp
    · simp only
      cases hpending : s.sleepRequested with
      | true => constructor <;> simp [hpending]
      | false =>
        cases hask : services.sleep q <;> constructor <;>
          simp [hpending, hask, hmode, Attempt.ask, Attempt.bind, Armed]
    · simp only
      cases hpending : s.hibernateRequested with
      | true => constructor <;> simp [hpending]
      | false =>
        cases hask : services.hibernate q <;> constructor <;>
          simp [hpending, hask, hmode, Attempt.ask, Attempt.bind, Armed]
    · simp only
      cases hask : services.shutDown q <;> constructor <;>
        simp [hask, hmode, Attempt.ask, Attempt.bind, Armed]

/-! ## Evaluations -/

section Evaluation

variable (s : CriticalPolicy) (services : Services)

/-- Power action is due to a participant about a trip point. -/
def Due (q : Nat) (k : ParticipantSpecificInfoKey) : Prop :=
  s.inEmergencyCallMode = false ∧ s.assess services q = .crosses k

instance (q : Nat) (k : ParticipantSpecificInfoKey) : Decidable (s.Due services q k) :=
  inferInstanceAs (Decidable (_ ∧ _))

/-- About one trip point at most. -/
theorem Due.not_due {s : CriticalPolicy} {services : Services} {q : Nat}
    {k k' : ParticipantSpecificInfoKey} (h : s.Due services q k) (hne : k ≠ k') :
    ¬s.Due services q k' := by
  intro h'
  have heq := h.2.symm.trans h'.2
  rw [Assessment.crosses.injEq] at heq
  exact hne heq

/-- The platform is asked for the power action and refuses. -/
def Refused (q : Nat) : Prop :=
  s.Due services q .warm ∧ s.sleepRequested = false ∧ services.sleep q = false ∨
  s.Due services q .hot ∧ s.hibernateRequested = false ∧ services.hibernate q = false ∨
  s.Due services q .critical ∧ services.shutDown q = false

/-- What comes of an evaluation. -/
structure Evaluated (q : Nat) (a : Action) : Prop where
  mode : a.state.inEmergencyCallMode = s.inEmergencyCallMode
  assess : ∀ p, a.state.assess services p = s.assess services p
  sleep : a.state.sleepRequested = true ↔ s.sleepRequested = true ∨ s.Due services q .warm
  hibernate : a.state.hibernateRequested = true ↔
    s.hibernateRequested = true ∨ s.Due services q .hot
  thrown : a.thrown = true ↔ s.assess services q = .fails ∨ s.Refused services q
  armed : a.state.Armed ↔ s.Armed ∨ a.thrown = false ∧
    (s.Due services q .warm ∧ s.sleepRequested = false ∨
      s.Due services q .hot ∧ s.hibernateRequested = false ∨ s.Due services q .critical)
  shutDown : ∀ p, (∃ t trip name, (p, Request.shutDown t trip name) ∈ a.requests) ↔
    p = q ∧ s.Due services q .critical

/-- Thresholds are no shutdown. -/
theorem not_shutDown_of_isThresholds {asked : List (Nat × Request)}
    (hasked : ∀ r ∈ asked, r.2.IsThresholds) {p : Nat} {t : Temperature}
    {trip : Option Temperature} {name : String} : (p, Request.shutDown t trip name) ∉ asked :=
  fun hmem => hasked _ hmem

/-- **An evaluation.** -/
theorem evaluated (q : Nat) : Evaluated s services q (evaluate services q s) := by
  obtain ⟨s', asked, hview, hasked, hcases⟩ := s.evaluate_cases services q
  have harmed : s'.Armed ↔ s.Armed := by
    unfold Armed
    rw [hview.scheduler]
  cases hassess : s.assess services q with
  | passedOver =>
    rw [hassess] at hcases
    rw [hcases]
    have hdue : ∀ k, ¬s.Due services q k := fun k h => by simp [Due, hassess] at h
    constructor <;> simp [hview.inEmergencyCallMode, hview.assess, hview.sleepRequested,
      hview.hibernateRequested, harmed, hdue, hassess, Refused, not_shutDown_of_isThresholds hasked]
  | fails =>
    rw [hassess] at hcases
    rw [hcases]
    have hdue : ∀ k, ¬s.Due services q k := fun k h => by simp [Due, hassess] at h
    constructor <;> simp [hview.inEmergencyCallMode, hview.assess, hview.sleepRequested,
      hview.hibernateRequested, harmed, hdue, hassess, not_shutDown_of_isThresholds hasked]
  | crosses k =>
    rw [hassess] at hcases
    obtain ⟨hk, t, trip, name, heq⟩ := hcases
    rw [heq]
    have hacted := s'.acted_takePowerAction services q t hk trip name
    have hdue : ∀ k', s.Due services q k' ↔ s'.inEmergencyCallMode = false ∧ k = k' := by
      intro k'
      rw [Due, hassess, hview.inEmergencyCallMode, Assessment.crosses.injEq]
    constructor
    · exact hacted.mode.trans hview.inEmergencyCallMode
    · exact fun p => (assess_congr hacted.participants services p).trans (hview.assess p)
    · rw [Attempt.state_after, hacted.sleep, hdue, hview.sleepRequested]
    · rw [Attempt.state_after, hacted.hibernate, hdue, hview.hibernateRequested]
    · rw [Attempt.thrown_after, hacted.thrown, Refused, hdue, hdue, hdue, hassess,
        hview.sleepRequested, hview.hibernateRequested]
      grind
    · rw [Attempt.state_after, Attempt.thrown_after, hacted.armed, harmed, hdue, hdue, hdue,
        hview.sleepRequested, hview.hibernateRequested]
      grind
    · intro p
      rw [hdue, ← hacted.shutDown p]
      simp [not_shutDown_of_isThresholds hasked]

/-- **When a request is pending without the watchdog behind an evaluation**: the watchdog was not
set, and the platform has refused to sleep or to hibernate. -/
theorem pendingArmed_evaluate_iff (h : s.PendingArmed) (q : Nat) :
    (evaluate services q s).state.PendingArmed ↔ (¬s.Armed →
      (s.Due services q .warm → services.sleep q = true) ∧
      (s.Due services q .hot → services.hibernate q = true)) := by
  obtain ⟨-, -, hsleep, hhibernate, hthrown, harmed, -⟩ := s.evaluated services q
  by_cases hset : s.Armed
  · exact iff_of_true (fun _ => harmed.mpr (.inl hset)) fun hnot => absurd hset hnot
  · have hnotSleep : s.sleepRequested = false := by
      simpa using fun hpending => hset (h (.inl hpending))
    have hnotHibernate : s.hibernateRequested = false := by
      simpa using fun hpending => hset (h (.inr hpending))
    unfold PendingArmed
    rw [hsleep, hhibernate, harmed, ← Bool.not_eq_true, hthrown, Refused, hnotSleep, hnotHibernate]
    have hfails : ∀ k, s.Due services q k → s.assess services q ≠ .fails := by
      intro k hdue
      rw [hdue.2]
      exact Assessment.noConfusion
    by_cases hwarm : s.Due services q .warm
    · have hhot : ¬s.Due services q .hot := hwarm.not_due (by decide)
      have hcritical : ¬s.Due services q .critical := hwarm.not_due (by decide)
      simp [hwarm, hhot, hcritical, hfails _ hwarm, hset]
    · by_cases hhot : s.Due services q .hot
      · have hcritical : ¬s.Due services q .critical := hhot.not_due (by decide)
        simp [hwarm, hhot, hcritical, hfails _ hhot, hset]
      · simp [hwarm, hhot]

end Evaluation

end CriticalPolicy

end Critical

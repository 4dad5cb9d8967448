import Dptf.Critical.Evaluation

/-!
# What the critical policy protects from

The watchdog is set after a request is marked as pending and asked for, and the participants are
evaluated one after the other until one evaluation throws.

* `shutsDown_each_iff` — **for whom it asks to shut down**: for those in whose turn no evaluation has
  thrown.
-/

open Lib

namespace Critical

open Thermal

namespace CriticalPolicy

/-! ## Rows of evaluations -/

section Rows

variable {s : CriticalPolicy} {services : Services}
variable {before participants : List Nat} {q : Nat} {s' : CriticalPolicy}

/-- Some power action is due. -/
def AnyDue (s : CriticalPolicy) (services : Services) (q : Nat) : Prop :=
  s.Due services q .warm ∨ s.Due services q .hot ∨ s.Due services q .critical

theorem pendingArmed_of_not_thrown (h : s.PendingArmed)
    (hnot : (evaluate services q s).thrown = false) :
    (evaluate services q s).state.PendingArmed := by
  rw [← Bool.not_eq_true, (s.evaluated services q).thrown, not_or, Refused, not_or, not_or] at hnot
  obtain ⟨-, hsleep, hhibernate, -⟩ := hnot
  refine (s.pendingArmed_evaluate_iff services h q).mpr fun hset => ⟨fun hdue => ?_, fun hdue => ?_⟩
  · by_contra hrefuses
    refine hsleep ⟨hdue, ?_, by simpa using hrefuses⟩
    simpa using fun hpending => hset (h (.inl hpending))
  · by_contra hrefuses
    refine hhibernate ⟨hdue, ?_, by simpa using hrefuses⟩
    simpa using fun hpending => hset (h (.inr hpending))

/-- The watchdog is set behind an evaluation for which power action is due. -/
theorem armed_evaluate_iff (h : s.PendingArmed) (hnot : (evaluate services q s).thrown = false) :
    (evaluate services q s).state.Armed ↔ s.Armed ∨ s.AnyDue services q := by
  rw [(s.evaluated services q).armed]
  constructor
  · rintro (hset | ⟨-, hdue | hdue | hdue⟩)
    · exact .inl hset
    · exact .inr (.inl hdue.1)
    · exact .inr (.inr (.inl hdue.1))
    · exact .inr (.inr (.inr hdue))
  · rintro (hset | hdue | hdue | hdue)
    · exact .inl hset
    · cases hpending : s.sleepRequested with
      | true => exact .inl (h (.inl hpending))
      | false => exact .inr ⟨hnot, .inl ⟨hdue, rfl⟩⟩
    · cases hpending : s.hibernateRequested with
      | true => exact .inl (h (.inr hpending))
      | false => exact .inr ⟨hnot, .inr (.inl ⟨hdue, rfl⟩)⟩
    · exact .inr ⟨hnot, .inr (.inr hdue)⟩

/-- What evaluations that do not throw lead to. -/
structure After (services : Services) (s : CriticalPolicy) (before : List Nat)
    (s' : CriticalPolicy) : Prop where
  mode : s'.inEmergencyCallMode = s.inEmergencyCallMode
  assess : ∀ q, s'.assess services q = s.assess services q
  sleep : s'.sleepRequested = true ↔
    s.sleepRequested = true ∨ ∃ q ∈ before, s.Due services q .warm
  hibernate : s'.hibernateRequested = true ↔
    s.hibernateRequested = true ∨ ∃ q ∈ before, s.Due services q .hot
  armed : s'.Armed ↔ s.Armed ∨ ∃ q ∈ before, s.AnyDue services q
  pendingArmed : s'.PendingArmed

theorem After.due (h : After services s before s') (q : Nat) (k : ParticipantSpecificInfoKey) :
    s'.Due services q k ↔ s.Due services q k := by
  rw [Due, Due, h.mode, h.assess]

theorem After.nil (h : s.PendingArmed) : After services s [] s where
  mode := rfl
  assess := fun _ => rfl
  sleep := by simp
  hibernate := by simp
  armed := by simp
  pendingArmed := h

theorem After.concat (h : After services s before s')
    (hnot : (evaluate services q s').thrown = false) :
    After services s (before ++ [q]) (evaluate services q s').state := by
  have heval := s'.evaluated services q
  refine ⟨heval.mode.trans h.mode, fun p => (heval.assess p).trans (h.assess p), ?_, ?_, ?_,
    pendingArmed_of_not_thrown h.pendingArmed hnot⟩
  · rw [heval.sleep, h.sleep, h.due]
    simp [or_and_right, exists_or, or_assoc]
  · rw [heval.hibernate, h.hibernate, h.due]
    simp [or_and_right, exists_or, or_assoc]
  · rw [armed_evaluate_iff h.pendingArmed hnot, h.armed, AnyDue, h.due, h.due, h.due]
    simp [AnyDue, or_and_right, exists_or, or_assoc]

/-- **What evaluations that do not throw lead to.** -/
theorem after_each (h : s.PendingArmed)
    (hnot : (Attempt.each (evaluate services) before s).thrown = false) :
    After services s before (Attempt.each (evaluate services) before s).state := by
  induction before using List.reverseRecOn with
  | nil => exact .nil h
  | append_singleton before q ih =>
    have hbefore := Attempt.not_thrown_of_append hnot
    rw [Attempt.each_append_of_not_thrown hbefore, Attempt.bind_of_not_thrown hbefore,
      Attempt.each_singleton] at hnot ⊢
    exact (ih hbefore).concat hnot

/-- The evaluation of a participant behind others does not throw. -/
def Goes (services : Services) (s : CriticalPolicy) (before : List Nat) (q : Nat) : Prop :=
  s.assess services q ≠ .fails ∧
  (s.Due services q .warm → s.sleepRequested = true ∨ (∃ q' ∈ before, s.Due services q' .warm) ∨
    services.sleep q = true) ∧
  (s.Due services q .hot → s.hibernateRequested = true ∨
    (∃ q' ∈ before, s.Due services q' .hot) ∨ services.hibernate q = true) ∧
  (s.Due services q .critical → services.shutDown q = true)

theorem not_thrown_evaluate_iff (h : After services s before s') (q : Nat) :
    (evaluate services q s').thrown = false ↔ Goes services s before q := by
  rw [← Bool.not_eq_true, (s'.evaluated services q).thrown, Refused, not_or, not_or, not_or,
    h.assess]
  refine and_congr Iff.rfl (and_congr ?_ (and_congr ?_ ?_))
  · rw [not_and, h.due]
    refine imp_congr_right fun _ => ?_
    rw [not_and, ← Bool.not_eq_true, h.sleep, Bool.not_eq_false, ← or_assoc]
    exact or_iff_not_imp_left.symm
  · rw [not_and, h.due]
    refine imp_congr_right fun _ => ?_
    rw [not_and, ← Bool.not_eq_true, h.hibernate, Bool.not_eq_false, ← or_assoc]
    exact or_iff_not_imp_left.symm
  · rw [not_and, h.due, Bool.not_eq_false]

/-- **When a row of evaluations does not throw.** -/
theorem not_thrown_each_iff (h : s.PendingArmed) :
    (Attempt.each (evaluate services) participants s).thrown = false ↔
      ∀ before q after, participants = before ++ q :: after → Goes services s before q := by
  constructor
  · rintro hnot before q after rfl
    have hbefore := Attempt.not_thrown_of_append hnot
    rw [List.append_cons] at hnot
    have hq := Attempt.not_thrown_of_append hnot
    rw [Attempt.each_append_of_not_thrown hbefore, Attempt.bind_of_not_thrown hbefore,
      Attempt.each_singleton] at hq
    exact (not_thrown_evaluate_iff (after_each h hbefore) q).mp hq
  · intro hgoes
    by_contra hthrown
    rw [Bool.not_eq_false] at hthrown
    obtain ⟨before, q, after, hsplit, hbefore, hq⟩ := Attempt.thrown_each_iff.mp hthrown
    have hnot := (not_thrown_evaluate_iff (after_each h hbefore) q).mpr
      (hgoes before q after hsplit)
    rw [hq] at hnot
    cases hnot

/-! ## The watchdog behind a row -/

/-- Nothing comes of the evaluation of a participant. -/
def Quiet (services : Services) (s : CriticalPolicy) (q : Nat) : Prop :=
  s.assess services q ≠ .fails ∧ ¬s.AnyDue services q

/-- Where the watchdog is not set, the platform does not refuse the first participant for which it
is asked to sleep or to hibernate. -/
def Timed (services : Services) (s : CriticalPolicy) (participants : List Nat) : Prop :=
  ∀ before q after, participants = before ++ q :: after → ¬s.Armed →
    (∀ q' ∈ before, Quiet services s q') →
    (s.Due services q .warm → services.sleep q = true) ∧
    (s.Due services q .hot → services.hibernate q = true)

theorem Quiet.goes (h : Quiet services s q) (before : List Nat) : Goes services s before q :=
  ⟨h.1, fun hdue => absurd (.inl hdue) h.2, fun hdue => absurd (.inr (.inl hdue)) h.2,
    fun hdue => absurd (.inr (.inr hdue)) h.2⟩

/-- Behind participants without a power action the watchdog is not set, and only there. -/
theorem quiet_iff (h : s.PendingArmed) (hset : ¬s.Armed) : (∀ q ∈ before, Quiet services s q) ↔
      (Attempt.each (evaluate services) before s).thrown = false ∧
        ¬(Attempt.each (evaluate services) before s).state.Armed := by
  constructor
  · intro hquiet
    have hnot : (Attempt.each (evaluate services) before s).thrown = false :=
      (not_thrown_each_iff h).mpr fun before' q after hsplit =>
        (hquiet q (hsplit ▸ by simp)).goes before'
    refine ⟨hnot, fun hset' => ?_⟩
    rcases (after_each h hnot).armed.mp hset' with hset' | ⟨q, hq, hdue⟩
    · exact hset hset'
    · exact (hquiet q hq).2 hdue
  · rintro ⟨hnot, hset'⟩ q hq
    obtain ⟨before', after, hsplit⟩ := List.append_of_mem hq
    refine ⟨((not_thrown_each_iff h).mp hnot before' q after hsplit).1, fun hdue => ?_⟩
    exact hset' ((after_each h hnot).armed.mpr (.inr ⟨q, hq, hdue⟩))

/-- **When no request is pending without the watchdog** behind a row of evaluations. -/
theorem pendingArmed_each_iff (h : s.PendingArmed) :
    (Attempt.each (evaluate services) participants s).state.PendingArmed ↔
      Timed services s participants := by
  constructor
  · rintro hpending before q after rfl hset hquiet
    obtain ⟨hnot, hset'⟩ := (quiet_iff h hset).mp hquiet
    have hafter := after_each h hnot
    have hq : (evaluate services q
        (Attempt.each (evaluate services) before s).state).state.PendingArmed := by
      cases hthrown :
          (evaluate services q (Attempt.each (evaluate services) before s).state).thrown with
      | true => exact Attempt.state_each_of_thrown hnot hthrown ▸ hpending
      | false => exact pendingArmed_of_not_thrown hafter.pendingArmed hthrown
    have hgranted := (pendingArmed_evaluate_iff _ services hafter.pendingArmed q).mp hq hset'
    rw [hafter.due, hafter.due] at hgranted
    exact hgranted
  · intro htimed
    cases hthrown : (Attempt.each (evaluate services) participants s).thrown with
    | false => exact (after_each h hthrown).pendingArmed
    | true =>
      obtain ⟨before, q, after, rfl, hnot, hq⟩ := Attempt.thrown_each_iff.mp hthrown
      have hafter := after_each h hnot
      rw [Attempt.state_each_of_thrown hnot hq]
      refine (pendingArmed_evaluate_iff _ services hafter.pendingArmed q).mpr fun hset' => ?_
      have hset : ¬s.Armed := fun hset => hset' (hafter.armed.mpr (.inl hset))
      rw [hafter.due, hafter.due]
      exact htimed before q after rfl hset ((quiet_iff h hset).mpr ⟨hnot, hset'⟩)

/-! ## Requests to shut down -/

/-- The platform is asked to shut down for a participant. -/
def ShutsDown (a : Action) (p : Nat) : Prop :=
  ∃ t trip name, (p, Request.shutDown t trip name) ∈ a.requests

/-- The turn of a participant comes. -/
def Reached (services : Services) (s : CriticalPolicy) (participants : List Nat) (p : Nat) :
    Prop :=
  ∃ before after, participants = before ++ p :: after ∧
    ∀ before' q after', before = before' ++ q :: after' → Goes services s before' q

/-- **For whom a row of evaluations asks to shut down.** -/
theorem shutsDown_each_iff (h : s.PendingArmed) {p : Nat} :
    ShutsDown (Attempt.each (evaluate services) participants s) p ↔
      s.Due services p .critical ∧ Reached services s participants p := by
  constructor
  · rintro ⟨t, trip, name, hmem⟩
    obtain ⟨before, q, after, hsplit, hnot, hmem⟩ := Attempt.mem_requests_each_iff.mp hmem
    obtain ⟨rfl, hdue⟩ := ((evaluated _ services q).shutDown p).mp ⟨t, trip, name, hmem⟩
    exact ⟨((after_each h hnot).due p .critical).mp hdue, before, after, hsplit,
      (not_thrown_each_iff h).mp hnot⟩
  · rintro ⟨hdue, before, after, hsplit, hgoes⟩
    have hnot := (not_thrown_each_iff h).mpr hgoes
    obtain ⟨t, trip, name, hmem⟩ := ((evaluated _ services p).shutDown p).mpr
      ⟨rfl, ((after_each h hnot).due p .critical).mpr hdue⟩
    exact ⟨t, trip, name, Attempt.mem_requests_each_iff.mpr ⟨before, p, after, hsplit, hnot, hmem⟩⟩

end Rows

end CriticalPolicy

end Critical

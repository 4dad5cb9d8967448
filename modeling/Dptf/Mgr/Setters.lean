import Dptf.Mgr.Domain

/-!
# What the setters of a domain do

Nine setters write the participant and then tell the arbitrator; what is written is what the
arbitrator arbitrates afterwards.
-/

open Lib

namespace Mgr

namespace ControlSetter

variable {W : Type} {c : ControlSetter W} {held : Participant → Option W}
variable {s : DomainState} {works : Bool}

/-- The laws of a setter, of which `held` is the value at the participant: a write is seen there
and nowhere in the domain, and once the request is kept, what was written is arbitrated. -/
structure Lawful (c : ControlSetter W) (held : Participant → Option W) : Prop where
  write_domain : ∀ w s, (c.write w s).domain = s.domain
  held_write : ∀ w s, held (c.write w s).participant = some w
  getArbitrated_commit : ∀ d w, c.newValue d = some (some w) → c.getArbitrated (c.commit d) = some w

/-- A value to write is the one the arbitrator comes to, and is another one than before. -/
theorem newValue_eq_some_some {d : Domain} {w : W} (h : c.newValue d = some (some w)) :
    c.arbitrate d = some w ∧
      (c.hasArbitrated d → ∀ current, c.getArbitrated d = some current → ¬ c.same current w) := by
  unfold newValue at h
  split at h
  · obtain ⟨current, hcurrent, h⟩ := Option.bind_eq_some_iff.1 h
    obtain ⟨new, hnew, h⟩ := Option.bind_eq_some_iff.1 h
    have hite : (if c.same current new then none else some new) = some w := Option.some.inj h
    split at hite
    · contradiction
    · rename_i hsame
      cases hite
      exact ⟨hnew, fun _ current' hcurrent' => Option.some.inj (hcurrent.symm.trans hcurrent') ▸ hsame⟩
  · rename_i hhas
    obtain ⟨new, hnew, h⟩ := Option.bind_eq_some_iff.1 h
    have hw : some new = some w := Option.some.inj h
    cases hw
    exact ⟨hnew, fun hhas' => absurd hhas' hhas⟩

/-- A setter whose arbitrator comes to the value it keeps. -/
theorem Lawful.of_commit (hdomain : ∀ w s, (c.write w s).domain = s.domain)
    (hheld : ∀ w s, held (c.write w s).participant = some w)
    (hcommit : ∀ d, c.getArbitrated (c.commit d) = c.arbitrate d) : c.Lawful held :=
  ⟨hdomain, hheld, fun d _ h => (hcommit d).trans (newValue_eq_some_some h).1⟩

/-- A setter that throws leaves everything as it was. -/
theorem call_of_threw (h : (c.call works s).threw) : (c.call works s).state = s := by
  unfold call at h ⊢
  split at h
  · rfl
  · contradiction
  · split at h
    · contradiction
    · rw [if_neg (by assumption)]

theorem call_of_same (h : c.newValue s.domain = some none) :
    c.call works s = ⟨{ s with domain := c.commit s.domain }, false, false⟩ := by
  unfold call
  simp only [h]

/-- It was the participant that threw, if it was written at all. -/
theorem newValue_of_threw (h : (c.call works s).threw) (hwritten : (c.call works s).written) :
    ∃ w, c.newValue s.domain = some (some w) := by
  cases hnew : c.newValue s.domain with
  | none =>
    simp only [call, hnew] at hwritten
    contradiction
  | some new =>
    cases new with
    | none =>
      rw [call_of_same hnew] at h
      contradiction
    | some w => exact ⟨w, rfl⟩

/-- A value to write is written, when the participant takes it. -/
theorem call_of_new {w : W} (h : c.newValue s.domain = some (some w)) :
    c.call true s =
      ⟨{ c.write w s with domain := c.commit (c.write w s).domain }, false, true⟩ := by
  unfold call
  simp only [h, if_true]

/-- **A failed set can be retried.**  After a participant threw, it is written when it works again,
and holds what is arbitrated then. -/
theorem Lawful.retry (hc : c.Lawful held) {works : Bool} {s : DomainState}
    (h : (c.call works s).threw) (hwritten : (c.call works s).written) :
    let r := c.call true (c.call works s).state
    r.written ∧ ¬ r.threw ∧
      ∃ w, held r.state.participant = some w ∧ c.getArbitrated r.state.domain = some w := by
  obtain ⟨w, hw⟩ := newValue_of_threw h hwritten
  rw [call_of_threw h, call_of_new hw]
  refine ⟨rfl, Bool.false_ne_true, w, hc.held_write w s, ?_⟩
  show c.getArbitrated (c.commit (c.write w s).domain) = some w
  rw [hc.write_domain]
  exact hc.getArbitrated_commit s.domain w hw

end ControlSetter

/-! ## The setters that keep one number or a pair of numbers -/

theorem lawful_setActiveCoreControl (p : PolicyIndex) (status : UIntN) :
    (setActiveCoreControl p status).Lawful Participant.activeCoreControl :=
  ControlSetter.Lawful.of_commit (fun _ _ => rfl) (fun _ _ => rfl) fun _ => rfl

theorem lawful_setPerformanceControl (p : PolicyIndex) (index : UIntN) :
    (setPerformanceControl p index).Lawful Participant.performanceControl :=
  ControlSetter.Lawful.of_commit (fun _ _ => rfl) (fun _ _ => rfl) fun _ => rfl

theorem lawful_setPerformanceControlDynamicCaps (p : PolicyIndex)
    (caps currentCaps : PerformanceControlDynamicCaps) :
    (setPerformanceControlDynamicCaps p caps currentCaps).Lawful
      Participant.performanceControlDynamicCaps :=
  ControlSetter.Lawful.of_commit (fun _ _ => rfl) (fun _ _ => rfl) fun _ => rfl

theorem lawful_setDisplayControlDynamicCaps (p : PolicyIndex) (caps : DisplayControlDynamicCaps) :
    (setDisplayControlDynamicCaps p caps).Lawful Participant.displayControlDynamicCaps :=
  ControlSetter.Lawful.of_commit (fun _ _ => rfl) (fun _ _ => rfl) fun _ => rfl

/-! ## The setters with a table of requests -/

section RequestTable

variable {K V : Type} [ControlType K] [RequestValue V]

namespace RequestTable

theorem commitPolicyRequest_eq {t : RequestTable K V} {p : PolicyIndex} {k : K} {v l : V}
    (h : t.arbitrate p k v = some l) :
    t.commitPolicyRequest p k v =
      setArbitratedRequest ⟨updatePolicyRequest p k v t.requested, t.arbitrated⟩ k l := by
  unfold commitPolicyRequest
  rw [arbitrate] at h
  simp only [h]

theorem getArbitrated_commitPolicyRequest {t : RequestTable K V} {p : PolicyIndex} {k : K}
    {v l : V} (h : t.arbitrate p k v = some l) :
    (t.commitPolicyRequest p k v).getArbitrated k = settled (t.getArbitrated k) l := by
  rw [commitPolicyRequest_eq h, getArbitrated, find_setArbitratedRequest, if_pos rfl, getArbitrated]

end RequestTable

/-- A setter with a table: a value other than the recorded one is recorded. -/
theorem getArbitrated_commit_of_new {c : ControlSetter V} {table : Domain → RequestTable K V}
    {p : PolicyIndex} {k : K} {v : V} (hhas : ∀ d, c.hasArbitrated d = (table d).hasArbitrated k)
    (hget : ∀ d, c.getArbitrated d = (table d).getArbitrated k)
    (harbitrate : ∀ d, c.arbitrate d = (table d).arbitrate p k v)
    (hsame : c.same = RequestValue.same)
    (hcommit : ∀ d, table (c.commit d) = (table d).commitPolicyRequest p k v)
    (d : Domain) (w : V) (h : c.newValue d = some (some w)) :
    c.getArbitrated (c.commit d) = some w := by
  obtain ⟨hw, hother⟩ := ControlSetter.newValue_eq_some_some h
  rw [harbitrate] at hw
  rw [hget, hcommit, RequestTable.getArbitrated_commitPolicyRequest hw]
  cases hold : (table d).getArbitrated k with
  | none => rfl
  | some old =>
    have hhas' : c.hasArbitrated d = true := by
      rw [hhas, RequestTable.hasArbitrated, ← RequestTable.getArbitrated, hold]
      rfl
    have hne := hother hhas' old (by rw [hget, hold])
    rw [hsame] at hne
    rw [settled, if_neg hne]

end RequestTable

theorem lawful_setPowerLimit (p : PolicyIndex) (k : PowerControlType) (v : Power) :
    (setPowerLimit p k v).Lawful fun participant => (participant.powerLimit k).join where
  write_domain _ _ := rfl
  held_write w s := by
    show (Function.update s.participant.powerLimit k (some (some w)) k).join = some w
    rw [Function.update_self]
    rfl
  getArbitrated_commit :=
    @getArbitrated_commit_of_new _ _ _ _ (setPowerLimit p k v)
      (fun d => d.powerControl.powerLimits) p k v
      (fun _ => rfl) (fun _ => rfl) (fun _ => rfl) rfl fun _ => rfl

theorem lawful_setPowerLimitTimeWindow (p : PolicyIndex) (k : PowerControlType) (v : TimeSpan) :
    (setPowerLimitTimeWindow p k v).Lawful
      fun participant => participant.powerLimitTimeWindow k where
  write_domain _ _ := rfl
  held_write w s := by
    show Function.update s.participant.powerLimitTimeWindow k (some w) k = some w
    rw [Function.update_self]
  getArbitrated_commit :=
    @getArbitrated_commit_of_new _ _ _ _ (setPowerLimitTimeWindow p k v)
      (fun d => d.powerControl.timeWindows) p k v
      (fun _ => rfl) (fun _ => rfl) (fun _ => rfl) rfl fun _ => rfl

theorem lawful_setPowerLimitDutyCycle (p : PolicyIndex) (k : PowerControlType) (v : Percentage) :
    (setPowerLimitDutyCycle p k v).Lawful
      fun participant => participant.powerLimitDutyCycle k where
  write_domain _ _ := rfl
  held_write w s := by
    show Function.update s.participant.powerLimitDutyCycle k (some w) k = some w
    rw [Function.update_self]
  getArbitrated_commit :=
    @getArbitrated_commit_of_new _ _ _ _ (setPowerLimitDutyCycle p k v)
      (fun d => d.powerControl.dutyCycles) p k v
      (fun _ => rfl) (fun _ => rfl) (fun _ => rfl) rfl fun _ => rfl

theorem lawful_setACPeakPower (p : PolicyIndex) (v : Power) :
    (setACPeakPower p v).Lawful Participant.acPeakPower where
  write_domain _ _ := rfl
  held_write _ _ := rfl
  getArbitrated_commit :=
    @getArbitrated_commit_of_new _ _ _ _ (setACPeakPower p v)
      (fun d => d.peakPowerControl.peakPowers) p .pl4ACPower v
      (fun _ => rfl) (fun _ => rfl) (fun _ => rfl) rfl fun _ => rfl

theorem lawful_setDCPeakPower (p : PolicyIndex) (v : Power) :
    (setDCPeakPower p v).Lawful Participant.dcPeakPower where
  write_domain _ _ := rfl
  held_write _ _ := rfl
  getArbitrated_commit :=
    @getArbitrated_commit_of_new _ _ _ _ (setDCPeakPower p v)
      (fun d => d.peakPowerControl.peakPowers) p .pl4DCPower v
      (fun _ => rfl) (fun _ => rfl) (fun _ => rfl) rfl fun _ => rfl

end Mgr

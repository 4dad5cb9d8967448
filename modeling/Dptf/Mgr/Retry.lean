import Dptf.Mgr.Setters

/-!
# Sets that fail

A participant may throw when it is set.  The setters of controls tell the arbitrator of the
request only afterwards, so that the request can be repeated; the setters of locks have told it
already.

* `allRetriable_iff` — the histories of which it is so.
-/

open Lib

namespace Mgr

/-! ## Calls that can be repeated -/

/-- The participant holds the value that is arbitrated. -/
def Agree {W : Type} (held arbitrated : Option W) : Prop :=
  ∃ w, held = some w ∧ arbitrated = some w

/-- The participant holds what is arbitrated for the control of a call.  The limits of the
performance states are arbitrated with the current capabilities at hand. -/
def SetterCall.HoldsArbitrated (c : SetterCall) (currentCaps : Option PerformanceControlDynamicCaps)
    (s : DomainState) : Prop :=
  let d := s.domain
  let participant := s.participant
  match c with
  | .activeCoreControl _ _ =>
    Agree participant.activeCoreControl (some d.coreControl.arbitratedActiveCoreCount)
  | .performanceControl _ _ =>
    Agree participant.performanceControl
      (some d.performanceControl.arbitratedPerformanceControlIndex)
  | .performanceControlDynamicCaps _ _ =>
    Agree participant.performanceControlDynamicCaps
      (currentCaps.map d.performanceCapabilities.getArbitrated)
  | .displayControlDynamicCaps _ _ =>
    Agree participant.displayControlDynamicCaps (some d.displayCapabilities.getArbitrated)
  | .powerLimit _ k _ =>
    Agree (participant.powerLimit k).join (d.powerControl.powerLimits.getArbitrated k)
  | .powerLimitTimeWindow _ k _ =>
    Agree (participant.powerLimitTimeWindow k) (d.powerControl.timeWindows.getArbitrated k)
  | .powerLimitDutyCycle _ k _ =>
    Agree (participant.powerLimitDutyCycle k) (d.powerControl.dutyCycles.getArbitrated k)
  | .acPeakPower _ _ =>
    Agree participant.acPeakPower (d.peakPowerControl.peakPowers.getArbitrated .pl4ACPower)
  | .dcPeakPower _ _ =>
    Agree participant.dcPeakPower (d.peakPowerControl.peakPowers.getArbitrated .pl4DCPower)
  | .displayCapsLock _ _ =>
    Agree participant.displayCapsLock (some d.displayCapabilities.requestedLocks.getArbitratedLock)
  | .performanceCapsLock _ _ =>
    Agree participant.performanceCapsLock
      (some d.performanceCapabilities.requestedLocks.getArbitratedLock)
  | .powerCapsLock _ _ =>
    Agree participant.powerCapsLock (some d.powerCapabilities.requestedLocks.getArbitratedLock)

/-- After a call that threw the arbitrators are as before it.  If it was the participant that did
not take the value, the same call writes it once the participant works again, and it holds what is
arbitrated then. -/
def SetterCall.Retriable (s : DomainState) (c : SetterCall) (reply : ParticipantReply) : Prop :=
  let r := s.call c reply
  r.threw → r.state.domain = s.domain ∧
    (r.written → ∀ reply', reply'.works →
      let r' := r.state.call c reply'
      r'.written ∧ ¬ r'.threw ∧ c.HoldsArbitrated r.state.performanceCapsCache r'.state)

/-- Whether a call is of a lock, and its request changes the lock that is arbitrated. -/
def SetterCall.changesLock (c : SetterCall) (d : Domain) : Bool :=
  match c with
  | .displayCapsLock p lock => (d.displayCapabilities.requestedLocks.arbitrateLockRequests p lock).2
  | .performanceCapsLock p lock =>
    (d.performanceCapabilities.requestedLocks.arbitrateLockRequests p lock).2
  | .powerCapsLock p lock => (d.powerCapabilities.requestedLocks.arbitrateLockRequests p lock).2
  | _ => false

/-- The participant works, or the call does not change a lock. -/
def SetterCall.Safe (s : DomainState) (c : SetterCall) (reply : ParticipantReply) : Prop :=
  reply.works ∨ ¬ c.changesLock s.domain

/-! ## The body of the setters -/

namespace ControlSetter

variable {W : Type} {c : ControlSetter W} {held : Participant → Option W}

/-- A call of one of the nine setters can be repeated. -/
theorem Lawful.retriable (hc : c.Lawful held) (works : Bool) (s : DomainState)
    (h : (c.call works s).threw) : (c.call works s).state.domain = s.domain ∧
      ((c.call works s).written → ∀ reply : ParticipantReply, reply.works →
        let r' := c.call reply.works (c.call works s).state
        r'.written ∧ ¬ r'.threw ∧
          Agree (held r'.state.participant) (c.getArbitrated r'.state.domain)) := by
  refine ⟨by rw [call_of_threw h], ?_⟩
  intro hwritten reply hworks
  rw [hworks]
  exact hc.retry h hwritten

end ControlSetter

/-- The setter of the limits of the performance states, which asks for the current ones first. -/
theorem callPerformanceCaps_retriable (s : DomainState) (p : PolicyIndex)
    (caps : PerformanceControlDynamicCaps) (reply : ParticipantReply) :
    SetterCall.Retriable s (.performanceControlDynamicCaps p caps) reply := by
  cases hcache : s.performanceCapsCache.or reply.performanceCaps with
  | none =>
    -- the participant did not tell its capabilities, so nothing happened
    have hcall : s.call (.performanceControlDynamicCaps p caps) reply = ⟨s, true, false⟩ := by
      show s.callPerformanceCaps p caps reply = _
      simp only [DomainState.callPerformanceCaps, hcache]
    simp only [SetterCall.Retriable, hcall]
    exact fun _ => ⟨trivial, fun hwritten => absurd hwritten Bool.false_ne_true⟩
  | some currentCaps =>
    let c := setPerformanceControlDynamicCaps p caps currentCaps
    let s' : DomainState := { s with performanceCapsCache := some currentCaps }
    have hcall : s.call (.performanceControlDynamicCaps p caps) reply = c.call reply.works s' := by
      show s.callPerformanceCaps p caps reply = _
      simp only [DomainState.callPerformanceCaps, hcache]
      rfl
    simp only [SetterCall.Retriable, hcall]
    intro hthrew
    have hretry := (lawful_setPerformanceControlDynamicCaps p caps currentCaps).retriable _ _ hthrew
    rw [ControlSetter.call_of_threw hthrew] at hretry ⊢
    exact hretry

/-! ## The body of the lock setters -/

namespace LockRequests

theorem getArbitratedLock_iff (requests : LockRequests) :
    requests.getArbitratedLock ↔ ∃ p, requests.find p = some true := by
  rw [getArbitratedLock, List.any_eq_true, ← KeyMap.mem_values_iff]
  simp

/-- A lock that was asked for is not asked for anew. -/
theorem arbitrateLockRequests_again (requests : LockRequests) (p : PolicyIndex) (lock : Bool) :
    ((requests.arbitrateLockRequests p lock).1.arbitrateLockRequests p lock).2 = false := by
  have hagain : getArbitratedLock ((requests.assign p lock).assign p lock) =
      getArbitratedLock (requests.assign p lock) := by
    rw [Bool.eq_iff_iff, getArbitratedLock_iff, getArbitratedLock_iff]
    refine exists_congr fun q => ?_
    rw [KeyMap.find_assign, KeyMap.find_assign]
    split_ifs <;> rfl
  show (_ != _) = false
  rw [bne_eq_false_iff_eq]
  exact hagain.symm

theorem arbitrateLockRequests_ne {requests : LockRequests} {p : PolicyIndex} {lock : Bool}
    (h : (requests.arbitrateLockRequests p lock).2) :
    (requests.arbitrateLockRequests p lock).1 ≠ requests := by
  intro heq
  have hne : (requests.getArbitratedLock != getArbitratedLock (requests.assign p lock)) = true := h
  rw [show requests.assign p lock = requests from heq, bne_self_eq_false] at hne
  contradiction

end LockRequests

section LockCall

variable {locks : Domain → LockRequests} {setLocks : LockRequests → Domain → Domain}
  {write : Bool → DomainState → DomainState} {p : PolicyIndex} {lock : Bool}

theorem lockCall_eq (works : Bool) (s : DomainState) :
    lockCall locks setLocks write p lock works s =
      if ((locks s.domain).arbitrateLockRequests p lock).2 then
        if works then
          ⟨write ((locks s.domain).arbitrateLockRequests p lock).1.getArbitratedLock
            { s with domain := setLocks ((locks s.domain).arbitrateLockRequests p lock).1 s.domain },
            false, true⟩
        else
          ⟨{ s with domain := setLocks ((locks s.domain).arbitrateLockRequests p lock).1 s.domain },
            true, true⟩
      else
        ⟨{ s with domain := setLocks ((locks s.domain).arbitrateLockRequests p lock).1 s.domain },
          false, false⟩ := rfl

theorem lockCall_threw_iff (works : Bool) (s : DomainState) :
    (lockCall locks setLocks write p lock works s).threw ↔
      ¬ works ∧ ((locks s.domain).arbitrateLockRequests p lock).2 := by
  rw [lockCall_eq]
  split_ifs with hupdated hworks
  · exact iff_of_false id fun h => h.1 hworks
  · exact iff_of_true rfl ⟨hworks, hupdated⟩
  · exact iff_of_false id fun h => hupdated h.2

theorem lockCall_of_threw {works : Bool} {s : DomainState}
    (h : (lockCall locks setLocks write p lock works s).threw) :
    lockCall locks setLocks write p lock works s =
      ⟨{ s with domain := setLocks ((locks s.domain).arbitrateLockRequests p lock).1 s.domain },
        true, true⟩ := by
  obtain ⟨hworks, hupdated⟩ := (lockCall_threw_iff works s).1 h
  rw [lockCall_eq, if_pos hupdated, if_neg hworks]

/-- The request of a call that failed is kept, and the call does nothing when it is repeated. -/
theorem lockCall_again (hlocks : ∀ requests d, locks (setLocks requests d) = requests)
    {works : Bool} {s : DomainState} (h : (lockCall locks setLocks write p lock works s).threw)
    (works' : Bool) : (lockCall locks setLocks write p lock works s).state.domain ≠ s.domain ∧
      (lockCall locks setLocks write p lock works'
        (lockCall locks setLocks write p lock works s).state).written = false := by
  have hupdated := ((lockCall_threw_iff works s).1 h).2
  rw [lockCall_of_threw h]
  constructor
  · intro hdomain
    refine LockRequests.arbitrateLockRequests_ne hupdated ?_
    rw [← hlocks ((locks s.domain).arbitrateLockRequests p lock).1 s.domain]
    exact congrArg locks hdomain
  · rw [lockCall_eq]
    simp only [hlocks, LockRequests.arbitrateLockRequests_again, Bool.false_eq_true, if_false]

/-- A call of a lock setter leaves the arbitrator alone where it does not fail, and only there. -/
theorem lockCall_retriable_iff (hlocks : ∀ requests d, locks (setLocks requests d) = requests)
    (works : Bool) (s : DomainState) {retry : Prop} :
    ((lockCall locks setLocks write p lock works s).threw →
      (lockCall locks setLocks write p lock works s).state.domain = s.domain ∧ retry) ↔
      works ∨ ¬ ((locks s.domain).arbitrateLockRequests p lock).2 := by
  constructor
  · intro h
    by_contra hsafe
    obtain ⟨hworks, hupdated⟩ := not_or.1 hsafe
    have hthrew : (lockCall locks setLocks write p lock works s).threw :=
      (lockCall_threw_iff works s).2 ⟨hworks, not_not.1 hupdated⟩
    exact (lockCall_again hlocks hthrew works).1 (h hthrew).1
  · intro hsafe hthrew
    obtain ⟨hworks, hupdated⟩ := (lockCall_threw_iff works s).1 hthrew
    rcases hsafe with hworks' | hsame
    · exact absurd hworks' hworks
    · exact absurd hupdated hsame

end LockCall

/-! ## Histories -/

/-- The calls that can be repeated are the safe ones. -/
theorem SetterCall.retriable_iff_safe (s : DomainState) (c : SetterCall)
    (reply : ParticipantReply) : Retriable s c reply ↔ Safe s c reply := by
  have hsafe : c.changesLock s.domain = false → Safe s c reply := by
    intro h
    exact Or.inr (h ▸ Bool.false_ne_true)
  cases c with
  | activeCoreControl p status =>
    exact iff_of_true ((lawful_setActiveCoreControl p status).retriable _ s) (hsafe rfl)
  | performanceControl p index =>
    exact iff_of_true ((lawful_setPerformanceControl p index).retriable _ s) (hsafe rfl)
  | performanceControlDynamicCaps p caps =>
    exact iff_of_true (callPerformanceCaps_retriable s p caps reply) (hsafe rfl)
  | displayControlDynamicCaps p caps =>
    exact iff_of_true ((lawful_setDisplayControlDynamicCaps p caps).retriable _ s) (hsafe rfl)
  | powerLimit p k v =>
    exact iff_of_true ((lawful_setPowerLimit p k v).retriable _ s) (hsafe rfl)
  | powerLimitTimeWindow p k v =>
    exact iff_of_true ((lawful_setPowerLimitTimeWindow p k v).retriable _ s) (hsafe rfl)
  | powerLimitDutyCycle p k v =>
    exact iff_of_true ((lawful_setPowerLimitDutyCycle p k v).retriable _ s) (hsafe rfl)
  | acPeakPower p v =>
    exact iff_of_true ((lawful_setACPeakPower p v).retriable _ s) (hsafe rfl)
  | dcPeakPower p v =>
    exact iff_of_true ((lawful_setDCPeakPower p v).retriable _ s) (hsafe rfl)
  | displayCapsLock _ _ | performanceCapsLock _ _ | powerCapsLock _ _ =>
    exact lockCall_retriable_iff (fun _ _ => rfl) _ s

/-- A call in a history, with what the participant does during it. -/
abbrev SetterEvent : Type := SetterCall × ParticipantReply

/-- The state after a call. -/
def DomainState.next (s : DomainState) (e : SetterEvent) : Option DomainState :=
  some (s.call e.1 e.2).state

/-- A domain nobody has called. -/
def DomainState.initial : DomainState := ⟨Domain.empty, Participant.unset, none⟩

/-- Every call of a history that fails can be repeated. -/
def AllRetriable (calls : List SetterEvent) : Prop :=
  EveryStep DomainState.next (fun s e => e.1.Retriable s e.2) DomainState.initial calls

/-- Every call of a history is safe. -/
def AllSafe (calls : List SetterEvent) : Prop :=
  EveryStep DomainState.next (fun s e => e.1.Safe s e.2) DomainState.initial calls

/-- **When a failed set can be retried.**  In a history of calls every one that fails leaves the
arbitrators alone and works when it is repeated, just if the participant works whenever a request
changes a lock. -/
theorem allRetriable_iff (calls : List SetterEvent) : AllRetriable calls ↔ AllSafe calls :=
  @everyStep_congr _ _ _ _ _ (fun _ => True) (fun _ _ _ _ _ => trivial)
    (fun s e _ => e.1.retriable_iff_safe s e.2) _ trivial calls

/-- The participant throws when its power capabilities are to be locked; the request was kept, so
the lock is not set when it is asked for again. -/
theorem not_allRetriable : ¬ AllRetriable [(.powerCapsLock 0 true, ⟨none, false⟩)] := by
  intro h
  have hretry := ((h.1 (by decide)).2 (by decide) ⟨none, true⟩ rfl).1
  exact absurd hretry (by decide)

end Mgr

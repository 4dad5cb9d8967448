import Dptf.Participant.FanArbitrators

/-!
# What is arbitrated is applied to the fan

A request that cannot be applied is not kept, so a failed request leaves no trace.  Removing the
requests of a policy works the other way round, one kind after the other, and the first
exception leaves the kinds behind it.  An exception is certain where the last speed goes: the
speed of no request is invalid and is refused.

* `fanArbitration` — **what holds in every run of such requests**;
  `fanArbitration_fails` is a run with others.
-/

open Lib

namespace Participant

open Mgr (Percentage PolicyIndex RequestValue)

variable {policyIndex : PolicyIndex}

/-! ## Requests that are live -/

/-- Somebody requests a speed. -/
def SpeedLive (requests : SpeedRequests) : Prop := ∃ p, (requests.find p).isSome

/-- Somebody requests a minimum or a maximum. -/
def CapsLive (requests : CapsRequests) : Prop :=
  ∃ p, (requests.minRequests.find p).isSome ∨ (requests.maxRequests.find p).isSome

/-- Somebody requests a lock, or that there is none. -/
def LockLive (requests : LockRequests) : Prop := ∃ p, (requests.find p).isSome

/-- A policy has no minimum and no maximum. -/
def CapsRequests.HoldsNothing (requests : CapsRequests) (policyIndex : PolicyIndex) : Prop :=
  requests.minRequests.find policyIndex = none ∧ requests.maxRequests.find policyIndex = none

theorem speedLive_of_erase {requests : SpeedRequests} (h : SpeedLive (requests.erase policyIndex)) :
    SpeedLive requests := by
  obtain ⟨p, hp⟩ := h
  rw [KeyMap.find_erase] at hp
  by_cases heq : p = policyIndex
  · simp [heq] at hp
  · exact ⟨p, by simpa [heq] using hp⟩

theorem capsLive_of_remove {requests : CapsRequests}
    (h : CapsLive (requests.removeCapabilitiesRequest policyIndex)) : CapsLive requests := by
  obtain ⟨p, hp⟩ := h
  simp only [CapsRequests.removeCapabilitiesRequest, KeyMap.find_erase] at hp
  by_cases heq : p = policyIndex
  · simp [heq] at hp
  · exact ⟨p, by simpa [heq] using hp⟩

theorem lockLive_of_erase {requests : LockRequests} (h : LockLive (requests.erase policyIndex)) :
    LockLive requests := by
  obtain ⟨p, hp⟩ := h
  rw [KeyMap.find_erase] at hp
  by_cases heq : p = policyIndex
  · simp [heq] at hp
  · exact ⟨p, by simpa [heq] using hp⟩

/-- The capabilities that are requested are valid and can be arbitrated. -/
structure CapsRequests.Valid (requests : CapsRequests) : Prop where
  minima : requests.minRequests.AllValues fun request => request.isSome
  maxima : requests.maxRequests.AllValues fun request => request.isSome
  arbitrated : ∃ caps, calculateArbitratedCapabilities requests = .ok caps

/-- A request that is kept if it is valid leaves the requests valid. -/
theorem allValues_commit {requests : KeyMap PolicyIndex (Option Percentage)}
    (h : requests.AllValues fun request => request.isSome) {request : Option Percentage} :
    (if request.isSome then requests.assign policyIndex request else requests).AllValues
      fun request => request.isSome := by
  by_cases hsome : request.isSome
  · rw [if_pos hsome]
    exact h.assign policyIndex hsome
  · rwa [if_neg hsome]

namespace FanDomain

variable {policyIndex : PolicyIndex}

/-! ## What should hold -/

/-- Nobody has requested anything yet.  What the hardware was set to before is left open. -/
structure NoRequests (d : FanDomain) : Prop where
  speed : d.speed.requests = KeyMap.empty
  caps : d.caps.requests = ⟨KeyMap.empty, KeyMap.empty⟩
  lock : d.lock.requests = KeyMap.empty

/-- A policy has no request left that could take part in an arbitration. -/
structure HoldsNothing (d : FanDomain) (policyIndex : PolicyIndex) : Prop where
  speed : d.speed.requests.find policyIndex = none
  caps : d.caps.requests.HoldsNothing policyIndex
  lock : d.lock.requests.find policyIndex = none

/-- The arbitrated values are the highest speed, the highest minimum, the lowest maximum raised to
it, and a lock if there is one; where there are requests, they are applied. -/
structure Settled (d : FanDomain) : Prop where
  speed : ∃ highest, getHighestRequest d.speed.requests = .ok highest ∧
    IsTightest (· ≥ ·) (Requested (validRequests d.speed.requests)) highest
  caps : ∃ caps highest lowest, calculateArbitratedCapabilities d.caps.requests = .ok caps ∧
    IsTightest (· ≥ ·) (Requested (validRequests d.caps.requests.minRequests)) highest ∧
    IsTightest (· ≤ ·) (Requested (validRequests d.caps.requests.maxRequests)) lowest ∧
    caps.minFanSpeed = some (highest.getD defaultMinimumSpeed) ∧
    caps.maxFanSpeed =
      some (max (lowest.getD defaultMaximumSpeed) (highest.getD defaultMinimumSpeed))
  lock : calculateArbitratedLock d.lock.requests = true ↔
    ∃ policyIndex, d.lock.requests.find policyIndex = some true
  speedApplied : d.speed.Synced speedArbitration SpeedLive
  capsApplied : d.caps.Synced capsArbitration CapsLive
  lockApplied : d.lock.Synced lockArbitration LockLive

/-! ## Which requests keep it so -/

/-- The end of the condition on a removal. -/
def KeepsLock (d : FanDomain) (policyIndex : PolicyIndex) (lockSucceeds : Bool) : Prop :=
  LockLive (d.lock.requests.erase policyIndex) →
    d.lock.IsRemovable lockArbitration (fun _ => hardwareWrite lockSucceeds)
      (d.lock.requests.erase policyIndex)

/-- The condition on a removal from the capabilities on. -/
def KeepsCaps (d : FanDomain) (policyIndex : PolicyIndex) (capsSucceeds lockSucceeds : Bool) :
    Prop :=
  let next := d.caps.requests.removeCapabilitiesRequest policyIndex
  let removable := d.caps.IsRemovable capsArbitration (fun _ => hardwareWrite capsSucceeds) next
  (∃ caps, calculateArbitratedCapabilities next = .ok caps) ∧
    (removable → d.KeepsLock policyIndex lockSucceeds) ∧
    (¬removable → ¬CapsLive next ∧ d.lock.requests.find policyIndex = none)

/-- The requests that keep the fan as it should be.  A speed is not below zero.  The first
capabilities and the first lock are not those arbitrated without any, unless these are applied.
And where the requests of a policy are removed, each kind can be applied without them, or the
policy has the only request of that kind and no request of the kinds behind it. -/
def Keeps (d : FanDomain) : FanCall → Prop
  | .setFanSpeed _ fanSpeed _ => ∀ speed, fanSpeed = some speed → fromWholeNumber 0 ≤ speed
  | .setDynamicCaps policyIndex minspeed maxspeed _ =>
    ∀ caps, ActiveControlDynamicCaps.createFromFcdc minspeed maxspeed = .ok caps →
      d.caps.FirstIsApplied capsArbitration CapsLive
        (d.caps.requests.commitDynamicCapsRequest policyIndex caps)
  | .setFanCapsLock policyIndex lock _ =>
    d.lock.FirstIsApplied lockArbitration LockLive (d.lock.requests.assign policyIndex lock)
  | .removePolicyRequests policyIndex speedSucceeds capsSucceeds lockSucceeds =>
    let next := d.speed.requests.erase policyIndex
    let removable := d.speed.IsRemovable speedArbitration (setActiveControl speedSucceeds) next
    (removable → d.KeepsCaps policyIndex capsSucceeds lockSucceeds) ∧
      (¬removable → ¬SpeedLive next ∧ d.caps.requests.HoldsNothing policyIndex ∧
        d.lock.requests.find policyIndex = none)

/-! ## The invariant -/

/-- Requests that are kept are valid, what they amount to can be arbitrated, and it is applied. -/
structure Inv (d : FanDomain) : Prop where
  speeds : d.speed.requests.AllValues fun request =>
    ∃ speed, request = some speed ∧ fromWholeNumber 0 ≤ speed
  caps : d.caps.requests.Valid
  speedApplied : d.speed.Synced speedArbitration SpeedLive
  capsApplied : d.caps.Synced capsArbitration CapsLive
  lockApplied : d.lock.Synced lockArbitration LockLive

variable {d : FanDomain}

/-- The invariant says that the fan is as it should be. -/
theorem Inv.settled (h : d.Inv) : d.Settled := by
  obtain ⟨caps, hcaps⟩ := h.caps.arbitrated
  obtain ⟨highest, lowest, hspec⟩ :=
    calculateArbitratedCapabilities_spec h.caps.minima h.caps.maxima hcaps
  exact ⟨getHighestRequest_spec h.speeds, ⟨caps, highest, lowest, hcaps, hspec⟩,
    calculateArbitratedLock_iff _, h.speedApplied, h.capsApplied, h.lockApplied⟩

theorem NoRequests.inv (h : d.NoRequests) : d.Inv := by
  refine ⟨?_, ?_, ?_, ?_, ?_⟩
  · rw [h.speed]
    exact KeyMap.allValues_empty
  · rw [h.caps]
    exact ⟨KeyMap.allValues_empty, KeyMap.allValues_empty,
      ⟨some defaultMinimumSpeed, some defaultMaximumSpeed⟩, by decide +kernel⟩
  · rintro ⟨p, hp⟩
    rw [h.speed] at hp
    cases hp
  · rintro ⟨p, hp⟩
    rw [h.caps] at hp
    rcases hp with hp | hp <;> cases hp
  · rintro ⟨p, hp⟩
    rw [h.lock] at hp
    cases hp

/-! ## Setting -/

/-- The highest of some speeds that are not below zero can be arbitrated. -/
theorem Inv.exists_speed (h : d.Inv) :
    ∃ speed, speedArbitration.arbitrate d.speed.requests = .ok speed := by
  obtain ⟨highest, hhighest, -⟩ := getHighestRequest_spec h.speeds
  exact ⟨highest, hhighest⟩

theorem Inv.exists_caps (h : d.Inv) :
    ∃ caps, capsArbitration.arbitrate d.caps.requests = .ok caps := h.caps.arbitrated

theorem inv_handleSetFanSpeed (h : d.Inv) {fanSpeed : Option Percentage} (succeeds : Bool)
    (hok : ∀ speed, fanSpeed = some speed → fromWholeNumber 0 ≤ speed) :
    (d.handleSetFanSpeed policyIndex fanSpeed succeeds).1.Inv := by
  refine ⟨?_, h.caps, ?_, h.capsApplied, h.lockApplied⟩
  · rcases Applied.requests_set speedArbitration (setActiveControl succeeds) d.speed
      (d.speed.requests.assign policyIndex fanSpeed) with hsame | ⟨hnew, speed, hspeed⟩
    · exact hsame ▸ h.speeds
    · have hvalid := allValues_of_getHighestRequest hspeed policyIndex fanSpeed
        (by rw [KeyMap.find_assign, if_pos rfl])
      obtain ⟨x, rfl⟩ := Option.isSome_iff_exists.mp hvalid
      exact hnew ▸ h.speeds.assign policyIndex ⟨x, rfl, hok x rfl⟩
  · -- without a request no speed is arbitrated, with one there is
    refine Applied.synced_set h.speedApplied fun hnone _ => .inr ?_
    intro current calculated hcur hnext
    have hempty : d.speed.requests.isEmpty = true := by
      rw [KeyMap.isEmpty_iff]
      intro p
      exact Option.not_isSome_iff_eq_none.mp fun hp => hnone ⟨p, hp⟩
    have hcurrent : current = none := by
      have heq : getHighestRequest d.speed.requests = .ok current := hcur
      rw [getHighestRequest, if_pos hempty] at heq
      exact (Except.ok.inj heq).symm
    have hvalid := allValues_of_getHighestRequest hnext policyIndex fanSpeed
      (by rw [KeyMap.find_assign, if_pos rfl])
    obtain ⟨speed, rfl⟩ := Option.isSome_iff_exists.mp hvalid
    have hassigned : (d.speed.requests.assign policyIndex (some speed)).AllValues fun request =>
        ∃ speed, request = some speed ∧ fromWholeNumber 0 ≤ speed :=
      h.speeds.assign policyIndex ⟨speed, rfl, hok speed rfl⟩
    obtain ⟨highest, hhighest, htight⟩ := getHighestRequest_spec hassigned
    obtain rfl : highest = calculated := Except.ok.inj (hhighest.symm.trans hnext)
    rw [hcurrent]
    cases highest with
    | none =>
      refine absurd ⟨policyIndex, ?_⟩ (htight speed)
      simp [validRequests, KeyMap.find_assign]
    | some highest => simp [speedArbitration, samePercentage]

theorem inv_handleSetDynamicCaps (h : d.Inv) {minspeed maxspeed : UInt64} (succeeds : Bool)
    (hok : d.Keeps (.setDynamicCaps policyIndex minspeed maxspeed succeeds)) :
    (d.handleSetDynamicCaps policyIndex minspeed maxspeed succeeds).1.Inv := by
  unfold handleSetDynamicCaps
  cases hcreate : ActiveControlDynamicCaps.createFromFcdc minspeed maxspeed with
  | error message => exact h
  | ok caps =>
    have hsynced : (d.caps.set capsArbitration (fun _ => hardwareWrite succeeds)
        (d.caps.requests.commitDynamicCapsRequest policyIndex caps)).1.Synced capsArbitration
          CapsLive := Applied.synced_set h.capsApplied (hok caps hcreate)
    have hrequests : (d.caps.set capsArbitration (fun _ => hardwareWrite succeeds)
        (d.caps.requests.commitDynamicCapsRequest policyIndex caps)).1.requests.Valid := by
      rcases Applied.requests_set capsArbitration (fun _ => hardwareWrite succeeds) d.caps
        (d.caps.requests.commitDynamicCapsRequest policyIndex caps) with hsame | ⟨hnew, hdefined⟩
      · rw [hsame]
        exact h.caps
      · rw [hnew]
        exact ⟨allValues_commit h.caps.minima, allValues_commit h.caps.maxima, hdefined⟩
    exact ⟨h.speeds, hrequests, h.speedApplied, hsynced, h.lockApplied⟩

theorem inv_handleSetFanCapsLock (h : d.Inv) {lock : Bool} (succeeds : Bool)
    (hok : d.Keeps (.setFanCapsLock policyIndex lock succeeds)) :
    (d.handleSetFanCapsLock policyIndex lock succeeds).1.Inv :=
  ⟨h.speeds, h.caps, h.speedApplied, h.capsApplied, Applied.synced_set h.lockApplied hok⟩

/-- **A failed request leaves everything as it was.** -/
theorem handle_of_error {call : FanCall} (hset : call.setter.isSome) {message : String}
    (h : (d.handle call).2 = .error message) : (d.handle call).1 = d := by
  cases call with
  | setFanSpeed policyIndex fanSpeed succeeds =>
    simp only [handle, handleSetFanSpeed] at h ⊢
    rw [Applied.set_of_error h]
  | setDynamicCaps policyIndex minspeed maxspeed succeeds =>
    simp only [handle, handleSetDynamicCaps] at h ⊢
    cases hcreate : ActiveControlDynamicCaps.createFromFcdc minspeed maxspeed with
    | error message => rfl
    | ok caps =>
      simp only [hcreate] at h ⊢
      rw [Applied.set_of_error h]
  | setFanCapsLock policyIndex lock succeeds =>
    simp only [handle, handleSetFanCapsLock] at h ⊢
    rw [Applied.set_of_error h]
  | removePolicyRequests => cases hset

/-! ## Removing -/

theorem find_erase_self {V : Type} (m : KeyMap PolicyIndex V) (policyIndex : PolicyIndex) :
    (m.erase policyIndex).find policyIndex = none := by
  rw [KeyMap.find_erase, if_pos rfl]

theorem inv_removeLockRequest (h : d.Inv) {lockSucceeds : Bool}
    (hok : d.KeepsLock policyIndex lockSucceeds) :
    (d.removeLockRequest policyIndex lockSucceeds).1.Inv :=
  ⟨h.speeds, h.caps, h.speedApplied, h.capsApplied,
    Applied.synced_remove h.lockApplied rfl rfl lockLive_of_erase hok⟩

/-- The lock of the policy is gone, and the rest is as it was. -/
theorem removeLockRequest_frame (d : FanDomain) (policyIndex : PolicyIndex) (lockSucceeds : Bool) :
    (d.removeLockRequest policyIndex lockSucceeds).1.speed = d.speed ∧
      (d.removeLockRequest policyIndex lockSucceeds).1.caps = d.caps ∧
      (d.removeLockRequest policyIndex lockSucceeds).1.lock.requests.find policyIndex = none := by
  refine ⟨rfl, rfl, ?_⟩
  simp only [removeLockRequest]
  rw [@Applied.requests_remove _ _ lockArbitration d.lock _ rfl]
  exact find_erase_self _ _

/-- The capabilities and the lock of the policy are gone, and the invariant stays. -/
theorem inv_removeCapsRequests (h : d.Inv) {capsSucceeds lockSucceeds : Bool}
    (hok : d.KeepsCaps policyIndex capsSucceeds lockSucceeds) :
    (d.removeCapsRequests policyIndex capsSucceeds lockSucceeds).1.Inv ∧
      (d.removeCapsRequests policyIndex capsSucceeds lockSucceeds).1.speed = d.speed ∧
      (d.removeCapsRequests policyIndex capsSucceeds lockSucceeds).1.caps.requests.HoldsNothing
        policyIndex ∧
      (d.removeCapsRequests policyIndex capsSucceeds lockSucceeds).1.lock.requests.find
        policyIndex = none := by
  obtain ⟨caps, hcaps⟩ := h.exists_caps
  obtain ⟨⟨rest, hrest⟩, hremovable, hstuck⟩ := hok
  have hrequests := Applied.requests_remove hcaps (fun _ => hardwareWrite capsSucceeds)
    (d.caps.requests.removeCapabilitiesRequest policyIndex)
  have hreturns := Applied.remove_ok_iff hcaps hrest fun _ => hardwareWrite capsSucceeds
  have hvalid : (d.caps.requests.removeCapabilitiesRequest policyIndex).Valid :=
    ⟨h.caps.minima.erase policyIndex, h.caps.maxima.erase policyIndex, rest, hrest⟩
  have hsynced : (d.caps.remove capsArbitration (fun _ => hardwareWrite capsSucceeds)
      (d.caps.requests.removeCapabilitiesRequest policyIndex)).1.Synced capsArbitration CapsLive :=
    Applied.synced_remove h.capsApplied hcaps hrest capsLive_of_remove fun hlive =>
      Classical.byContradiction fun hne => (hstuck hne).1 hlive
  have hinv : FanDomain.Inv { d with caps := (d.caps.remove capsArbitration
      (fun _ => hardwareWrite capsSucceeds)
      (d.caps.requests.removeCapabilitiesRequest policyIndex)).1 } :=
    ⟨h.speeds, by rwa [hrequests], h.speedApplied, hsynced, h.lockApplied⟩
  have hnothing : (d.caps.remove capsArbitration (fun _ => hardwareWrite capsSucceeds)
      (d.caps.requests.removeCapabilitiesRequest policyIndex)).1.requests.HoldsNothing
        policyIndex := by
    rw [hrequests]
    exact ⟨find_erase_self _ _, find_erase_self _ _⟩
  unfold removeCapsRequests
  generalize d.caps.remove capsArbitration (fun _ => hardwareWrite capsSucceeds)
    (d.caps.requests.removeCapabilitiesRequest policyIndex) = result at *
  obtain ⟨applied, outcome⟩ := result
  cases outcome with
  | error message =>
    have hne : ¬d.caps.IsRemovable capsArbitration (fun _ => hardwareWrite capsSucceeds)
        (d.caps.requests.removeCapabilitiesRequest policyIndex) := by
      rw [← hreturns]
      simp
    exact ⟨hinv, rfl, hnothing, (hstuck hne).2⟩
  | ok u =>
    obtain ⟨hspeed, hcaps', hlock⟩ :=
      removeLockRequest_frame { d with caps := applied } policyIndex lockSucceeds
    refine ⟨inv_removeLockRequest hinv (hremovable (hreturns.mp rfl)), hspeed, ?_, hlock⟩
    exact hcaps' ▸ hnothing

/-- **The requests of the policy are gone**, and the invariant stays. -/
theorem inv_handleRemovePolicyRequests (h : d.Inv) {speedSucceeds capsSucceeds lockSucceeds : Bool}
    (hok : d.Keeps (.removePolicyRequests policyIndex speedSucceeds capsSucceeds lockSucceeds)) :
    (d.handleRemovePolicyRequests policyIndex speedSucceeds capsSucceeds lockSucceeds).1.Inv ∧
      (d.handleRemovePolicyRequests policyIndex speedSucceeds capsSucceeds
        lockSucceeds).1.HoldsNothing policyIndex := by
  obtain ⟨speed, hspeed⟩ := h.exists_speed
  obtain ⟨hremovable, hstuck⟩ := hok
  have hvalid := h.speeds.erase policyIndex
  obtain ⟨rest, hrest, -⟩ := getHighestRequest_spec hvalid
  have hrequests := Applied.requests_remove hspeed (setActiveControl speedSucceeds)
    (d.speed.requests.erase policyIndex)
  have hreturns := Applied.remove_ok_iff hspeed hrest (setActiveControl speedSucceeds)
  have hsynced : (d.speed.remove speedArbitration (setActiveControl speedSucceeds)
      (d.speed.requests.erase policyIndex)).1.Synced speedArbitration SpeedLive :=
    Applied.synced_remove h.speedApplied hspeed hrest speedLive_of_erase fun hlive =>
      Classical.byContradiction fun hne => (hstuck hne).1 hlive
  have hinv : FanDomain.Inv { d with speed := (d.speed.remove speedArbitration
      (setActiveControl speedSucceeds) (d.speed.requests.erase policyIndex)).1 } :=
    ⟨by rwa [hrequests], h.caps, hsynced, h.capsApplied, h.lockApplied⟩
  have hnothing : (d.speed.remove speedArbitration (setActiveControl speedSucceeds)
      (d.speed.requests.erase policyIndex)).1.requests.find policyIndex = none := by
    rw [hrequests]
    exact find_erase_self _ _
  unfold handleRemovePolicyRequests
  generalize d.speed.remove speedArbitration (setActiveControl speedSucceeds)
    (d.speed.requests.erase policyIndex) = result at *
  obtain ⟨applied, outcome⟩ := result
  cases outcome with
  | error message =>
    have hne : ¬d.speed.IsRemovable speedArbitration (setActiveControl speedSucceeds)
        (d.speed.requests.erase policyIndex) := by
      rw [← hreturns]
      simp
    exact ⟨hinv, hnothing, (hstuck hne).2.1, (hstuck hne).2.2⟩
  | ok u =>
    obtain ⟨hinv', hspeed', hcaps, hlock⟩ := inv_removeCapsRequests hinv
      (hremovable (hreturns.mp rfl))
    exact ⟨hinv', hspeed' ▸ hnothing, hcaps, hlock⟩

/-! ## What is removed stays removed -/

section HoldsNothing

variable {policyIndex other : PolicyIndex}

/-- A policy has no request of one kind. -/
def Lacks {V : Type} (policyIndex : PolicyIndex) (m : KeyMap PolicyIndex V) : Prop :=
  m.find policyIndex = none

theorem find_assign_of_ne {V : Type} {m : KeyMap PolicyIndex V} {v : V}
    (h : m.find policyIndex = none) (hne : other ≠ policyIndex) :
    (m.assign other v).find policyIndex = none := by
  rw [KeyMap.find_assign, if_neg (Ne.symm hne), h]

theorem find_erase_none {V : Type} {m : KeyMap PolicyIndex V} (h : m.find policyIndex = none) :
    (m.erase other).find policyIndex = none := by
  rw [KeyMap.find_erase, h, ite_self]

theorem capsHoldNothing_commit {requests : CapsRequests} {caps : ActiveControlDynamicCaps}
    (h : requests.HoldsNothing policyIndex) (hne : other ≠ policyIndex) :
    (requests.commitDynamicCapsRequest other caps).HoldsNothing policyIndex := by
  constructor
  · simp only [CapsRequests.commitDynamicCapsRequest]
    split
    · exact find_assign_of_ne h.1 hne
    · exact h.1
  · simp only [CapsRequests.commitDynamicCapsRequest]
    split
    · exact find_assign_of_ne h.2 hne
    · exact h.2

theorem holdsNothing_removeLockRequest (h : d.HoldsNothing policyIndex) (succeeds : Bool) :
    (d.removeLockRequest other succeeds).1.HoldsNothing policyIndex :=
  ⟨h.speed, h.caps, Applied.requests_remove_of (Lacks policyIndex) h.lock
    (find_erase_none h.lock) _ _⟩

theorem holdsNothing_removeCapsRequests (h : d.HoldsNothing policyIndex)
    (capsSucceeds lockSucceeds : Bool) :
    (d.removeCapsRequests other capsSucceeds lockSucceeds).1.HoldsNothing policyIndex := by
  have hrest : (d.caps.requests.removeCapabilitiesRequest other).HoldsNothing policyIndex :=
    ⟨find_erase_none h.caps.1, find_erase_none h.caps.2⟩
  have hcaps := Applied.requests_remove_of (CapsRequests.HoldsNothing · policyIndex) h.caps hrest
    capsArbitration fun _ => hardwareWrite capsSucceeds
  unfold removeCapsRequests
  generalize d.caps.remove capsArbitration (fun _ => hardwareWrite capsSucceeds)
    (d.caps.requests.removeCapabilitiesRequest other) = result at *
  obtain ⟨applied, outcome⟩ := result
  have hd : FanDomain.HoldsNothing { d with caps := applied } policyIndex :=
    ⟨h.speed, hcaps, h.lock⟩
  cases outcome with
  | error message => exact hd
  | ok u => exact holdsNothing_removeLockRequest hd lockSucceeds

theorem holdsNothing_handleRemovePolicyRequests (h : d.HoldsNothing policyIndex)
    (speedSucceeds capsSucceeds lockSucceeds : Bool) :
    (d.handleRemovePolicyRequests other speedSucceeds capsSucceeds lockSucceeds).1.HoldsNothing
      policyIndex := by
  have hrest : (d.speed.requests.erase other).find policyIndex = none := find_erase_none h.speed
  have hspeed := Applied.requests_remove_of (Lacks policyIndex) h.speed hrest
    speedArbitration (setActiveControl speedSucceeds)
  unfold handleRemovePolicyRequests
  generalize d.speed.remove speedArbitration (setActiveControl speedSucceeds)
    (d.speed.requests.erase other) = result at *
  obtain ⟨applied, outcome⟩ := result
  have hd : FanDomain.HoldsNothing { d with speed := applied } policyIndex :=
    ⟨hspeed, h.caps, h.lock⟩
  cases outcome with
  | error message => exact hd
  | ok u => exact holdsNothing_removeCapsRequests hd capsSucceeds lockSucceeds

/-- A policy that has no request gets none from the requests of others. -/
theorem holdsNothing_handle (h : d.HoldsNothing policyIndex) {call : FanCall}
    (hne : call.setter ≠ some policyIndex) : (d.handle call).1.HoldsNothing policyIndex := by
  cases call with
  | setFanSpeed other fanSpeed succeeds =>
    have hother : other ≠ policyIndex := fun heq => hne (congrArg some heq)
    exact ⟨Applied.requests_set_of (Lacks policyIndex) h.speed
      (find_assign_of_ne h.speed hother) _ _, h.caps, h.lock⟩
  | setDynamicCaps other minspeed maxspeed succeeds =>
    have hother : other ≠ policyIndex := fun heq => hne (congrArg some heq)
    simp only [handle, handleSetDynamicCaps]
    cases ActiveControlDynamicCaps.createFromFcdc minspeed maxspeed with
    | error message => exact h
    | ok caps =>
      exact ⟨h.speed, Applied.requests_set_of (CapsRequests.HoldsNothing · policyIndex) h.caps
        (capsHoldNothing_commit h.caps hother) _ _, h.lock⟩
  | setFanCapsLock other lock succeeds =>
    have hother : other ≠ policyIndex := fun heq => hne (congrArg some heq)
    exact ⟨h.speed, h.caps, Applied.requests_set_of (Lacks policyIndex) h.lock
      (find_assign_of_ne h.lock hother) _ _⟩
  | removePolicyRequests other speedSucceeds capsSucceeds lockSucceeds =>
    exact holdsNothing_handleRemovePolicyRequests h speedSucceeds capsSucceeds lockSucceeds

/-- Nor does a run of such requests. -/
theorem holdsNothing_run {calls : List FanCall} {d' : FanDomain} (h : d.HoldsNothing policyIndex)
    (hne : ∀ call ∈ calls, call.setter ≠ some policyIndex)
    (hrun : run FanDomain.step d calls = some d') : d'.HoldsNothing policyIndex := by
  have hevery : EveryStep FanDomain.step (fun _ call => FanCall.setter call ≠ some policyIndex) d
      calls := everyStep_of_mem (fun call hcall _ => hne call hcall) d
  refine @run_invariant_of_everyStep _ _ FanDomain.step _ (fun t => t.HoldsNothing policyIndex)
    (fun t call t' hcall hstep hnothing => ?_) _ _ _ hevery hrun h
  rw [← Option.some.inj hstep]
  exact holdsNothing_handle hnothing hcall

end HoldsNothing

/-! ## Every run -/

/-- **The step**: a request that keeps the fan as it should be keeps the invariant. -/
theorem inv_handle (h : d.Inv) {call : FanCall} (hok : d.Keeps call) : (d.handle call).1.Inv := by
  cases call with
  | setFanSpeed policyIndex fanSpeed succeeds => exact inv_handleSetFanSpeed h succeeds hok
  | setDynamicCaps policyIndex minspeed maxspeed succeeds =>
    exact inv_handleSetDynamicCaps h succeeds hok
  | setFanCapsLock policyIndex lock succeeds => exact inv_handleSetFanCapsLock h succeeds hok
  | removePolicyRequests policyIndex speedSucceeds capsSucceeds lockSucceeds =>
    exact (inv_handleRemovePolicyRequests h hok).1

/-- The invariant holds after every run of such requests. -/
theorem inv_run {start : FanDomain} {calls : List FanCall} (hstart : start.Inv)
    (hok : EveryStep FanDomain.step FanDomain.Keeps start calls)
    (hrun : run FanDomain.step start calls = some d) : d.Inv := by
  refine run_invariant_of_everyStep (fun t call t' hkeeps hstep hinv => ?_) hok hrun hstart
  rw [← Option.some.inj hstep]
  exact inv_handle hinv hkeeps

end FanDomain

/-- **The fan in every run of requests that keep it as it should be**, whichever of their writes
fail.  A request that fails leaves the requests as they were; the arbitrated values are those
requested, and they are applied where somebody requests them; and the requests of a policy that
were removed are gone until it sets something again. -/
theorem fanArbitration {start d : FanDomain} {calls : List FanCall} (hstart : start.NoRequests)
    (hok : EveryStep FanDomain.step FanDomain.Keeps start calls)
    (hrun : run FanDomain.step start calls = some d) :
    (∀ call : FanCall, call.setter.isSome → ∀ message, (d.handle call).2 = .error message →
        (d.handle call).1 = d) ∧
      d.Settled ∧
      ∀ before policyIndex speedSucceeds capsSucceeds lockSucceeds after,
        calls = before ++
          .removePolicyRequests policyIndex speedSucceeds capsSucceeds lockSucceeds :: after →
        (∀ call ∈ after, call.setter ≠ some policyIndex) → d.HoldsNothing policyIndex := by
  refine ⟨fun call hset message => FanDomain.handle_of_error hset,
    (FanDomain.inv_run hstart.inv hok hrun).settled, ?_⟩
  rintro before policyIndex speedSucceeds capsSucceeds lockSucceeds after rfl hafter
  obtain ⟨t, hbefore, hrest⟩ := run_append_eq_some hrun
  have hinv := FanDomain.inv_run hstart.inv hok.left hbefore
  have hkeeps := (hok.right hbefore).1
  obtain ⟨u, hremove, hrest'⟩ := run_cons_eq_some hrest
  refine FanDomain.holdsNothing_run ?_ hafter hrest'
  rw [← Option.some.inj hremove]
  exact (FanDomain.inv_handleRemovePolicyRequests hinv hkeeps).2

/-- A fan nobody has requested anything of. -/
def idleFan : FanDomain where
  speed := ⟨KeyMap.empty, none⟩
  caps := ⟨⟨KeyMap.empty, KeyMap.empty⟩, none⟩
  lock := ⟨KeyMap.empty, some false⟩

/-- A speed is raised by another policy, whose write fails the first time, and lowered again when
its requests are removed. -/
theorem fanArbitration_raised :
    ∃ d, run FanDomain.step idleFan [.setFanSpeed 0 (some (fromWholeNumber 50)) true,
        .setFanSpeed 1 (some (fromWholeNumber 80)) false,
        .setFanSpeed 1 (some (fromWholeNumber 80)) true,
        .removePolicyRequests 1 true true true] = some d ∧
      d.Settled ∧ d.HoldsNothing 1 ∧ d.speed.applied = some (some (fromWholeNumber 50)) := by
  have hok : EveryStep FanDomain.step FanDomain.Keeps idleFan
      [.setFanSpeed 0 (some (fromWholeNumber 50)) true,
        .setFanSpeed 1 (some (fromWholeNumber 80)) false,
        .setFanSpeed 1 (some (fromWholeNumber 80)) true,
        .removePolicyRequests 1 true true true] := by
    refine ⟨?_, fun s₁ h₁ => ⟨?_, fun s₂ h₂ => ⟨?_, fun s₃ h₃ => ⟨?_, fun _ _ => trivial⟩⟩⟩⟩
    · rintro speed ⟨⟩
      decide +kernel
    · rintro speed ⟨⟩
      decide +kernel
    · rintro speed ⟨⟩
      decide +kernel
    · obtain rfl := Option.some.inj h₁
      obtain rfl := Option.some.inj h₂
      obtain rfl := Option.some.inj h₃
      refine ⟨fun _ => ⟨⟨⟨some defaultMinimumSpeed, some defaultMaximumSpeed⟩, by decide +kernel⟩,
        fun _ hlive => ?_, fun hne => absurd ?_ hne⟩, fun hne => absurd ?_ hne⟩
      · obtain ⟨p, hp⟩ := hlive
        cases hp
      · intro previous new hprevious hnew hdiff
        obtain rfl := Except.ok.inj (hprevious.symm.trans hnew)
        exact absurd (capsArbitration.same_self _) hdiff
      · intro previous new _ hnew _
        have heq : new = some (fromWholeNumber 50) :=
          Except.ok.inj (hnew.symm.trans (by decide +kernel))
        rw [heq]
        rfl
  have hstart : idleFan.NoRequests := ⟨rfl, rfl, rfl⟩
  obtain ⟨-, hsettled, hremoved⟩ := fanArbitration hstart hok rfl
  refine ⟨_, rfl, hsettled, ?_, by decide +kernel⟩
  exact hremoved [.setFanSpeed 0 (some (fromWholeNumber 50)) true,
    .setFanSpeed 1 (some (fromWholeNumber 80)) false,
    .setFanSpeed 1 (some (fromWholeNumber 80)) true] 1 true true true [] rfl (by simp)

/-- The policy with the only speed has a lock, too: removing its requests throws because no speed
is arbitrated any more, and the lock stays.  And a speed that could not be lowered when the
highest request was removed is not lowered by a request for the arbitrated speed either. -/
theorem fanArbitration_fails :
    (∃ d, run FanDomain.step idleFan [.setFanSpeed 0 (some (fromWholeNumber 50)) true,
        .setFanCapsLock 0 true true, .removePolicyRequests 0 true true true] = some d ∧
      ¬d.HoldsNothing 0 ∧ calculateArbitratedLock d.lock.requests = true) ∧
    ∃ d, run FanDomain.step idleFan [.setFanSpeed 0 (some (fromWholeNumber 80)) true,
        .setFanSpeed 1 (some (fromWholeNumber 50)) true,
        .removePolicyRequests 0 false true true] = some d ∧
      (d.handle (.setFanSpeed 1 (some (fromWholeNumber 50)) true)).2 = .ok () ∧
      ¬(d.handle (.setFanSpeed 1 (some (fromWholeNumber 50)) true)).1.Settled := by
  constructor
  · refine ⟨_, rfl, fun h => ?_, by decide +kernel⟩
    exact absurd h.lock (by decide +kernel)
  · refine ⟨_, rfl, by decide +kernel, fun h => ?_⟩
    obtain ⟨v, w, hv, hw, hsame⟩ := h.speedApplied ⟨1, by decide +kernel⟩
    have harbitrated : v = some (fromWholeNumber 50) :=
      Except.ok.inj (hv.symm.trans (by decide +kernel))
    have happlied : w = some (fromWholeNumber 80) :=
      Option.some.inj (hw.symm.trans (by decide +kernel))
    subst harbitrated happlied
    exact absurd hsame (by decide +kernel)

end Participant

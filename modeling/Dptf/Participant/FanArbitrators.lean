import Dptf.Lib.Applied
import Dptf.Lib.Tightest
import Dptf.Mgr.RequestTable

/-!
# The requests for a fan

`DomainActiveControlBase.cpp`, `ArbitratorFanSpeed.cpp` and
`ArbitratorActiveControlCapabilities.cpp`.  Policies request a speed, capabilities and a lock of
the capabilities; each kind has an arbitrator and is applied on its own.
-/

open Lib

namespace Participant

open Mgr (Percentage PolicyIndex RequestValue)

/-! ## Percentages that may be invalid -/

/-- `Percentage::fromWholeNumber`. -/
def fromWholeNumber (wholeNumber : Nat) : Percentage := divDouble wholeNumber 100

/-- `Percentage::operator==`; `none` is an invalid percentage. -/
def samePercentage : Option Percentage → Option Percentage → Bool
  | some x, some y => RequestValue.same x y
  | none, none => true
  | _, _ => false

/-- `std::max`, with the comparison of percentages that throws. -/
def maxPercentage : Option Percentage → Option Percentage → Except String (Option Percentage)
  | some a, some b => .ok (some (if a < b then b else a))
  | _, _ => .error "Percentage is not valid."

/-! ## The arbitrators -/

/-- `ArbitratorFanSpeed::m_requests`. -/
abbrev SpeedRequests := KeyMap PolicyIndex (Option Percentage)

/-- `ArbitratorFanSpeed::getHighestRequest`. -/
def getHighestRequest (requests : SpeedRequests) : Except String (Option Percentage) :=
  if requests.isEmpty then .ok none
  else
    requests.values.foldlM (fun highestRequest request => maxPercentage request highestRequest)
      (some (fromWholeNumber 0))

/-- `ActiveControlDynamicCaps`. -/
structure ActiveControlDynamicCaps where
  minFanSpeed : Option Percentage
  maxFanSpeed : Option Percentage
deriving DecidableEq

/-- The constructor of `ActiveControlDynamicCaps`. -/
def ActiveControlDynamicCaps.create (minFanSpeed maxFanSpeed : Option Percentage) :
    Except String ActiveControlDynamicCaps :=
  match minFanSpeed, maxFanSpeed with
  | some minimum, some maximum =>
    if minimum < fromWholeNumber 0 ∨ minimum > fromWholeNumber 100 then
      .error "minFanSpeed percentage is not valid"
    else if maximum < fromWholeNumber 0 ∨ maximum > fromWholeNumber 100 then
      .error "maxFanSpeed percentage is not valid"
    else if minimum > maximum then .error "minFanSpeed > maxFanSpeed"
    else .ok ⟨some minimum, some maximum⟩
  | _, _ => .ok ⟨minFanSpeed, maxFanSpeed⟩

/-- `ActiveControlDynamicCaps::operator==`. -/
def ActiveControlDynamicCaps.same (a b : ActiveControlDynamicCaps) : Bool :=
  samePercentage a.minFanSpeed b.minFanSpeed && samePercentage a.maxFanSpeed b.maxFanSpeed

/-- A speed of an FCDC: all but `Constants::Invalid` is cut to 32 bits. -/
def fcdcSpeed (value : UInt64) : Option Percentage :=
  if value ≠ 0xFFFFFFFF then some (fromWholeNumber value.toUInt32.toNat) else none

/-- `ActiveControlDynamicCaps::createFromFcdc`, of a buffer that has the size of an FCDC. -/
def ActiveControlDynamicCaps.createFromFcdc (minspeed maxspeed : UInt64) :
    Except String ActiveControlDynamicCaps :=
  ActiveControlDynamicCaps.create (fcdcSpeed minspeed) (fcdcSpeed maxspeed)

/-- `m_minRequests` and `m_maxRequests`. -/
structure CapsRequests where
  minRequests : KeyMap PolicyIndex (Option Percentage)
  maxRequests : KeyMap PolicyIndex (Option Percentage)

/-- `DefaultMinimumSpeed`. -/
def defaultMinimumSpeed : Percentage := fromWholeNumber 0

/-- `DefaultMaximumSpeed`. -/
def defaultMaximumSpeed : Percentage := fromWholeNumber 100

/-- The body of `getHighestMinSpeed` and `getLowestMaxSpeed`. -/
def tightestSpeed (pick : Percentage → Percentage → Percentage) (default : Percentage)
    (requests : KeyMap PolicyIndex (Option Percentage)) : Option Percentage :=
  if requests.isEmpty then some default
  else
    requests.values.foldl (fun tightest request =>
      let speed := request.getD default
      match tightest with
      | some t => some (pick speed t)
      | none => some speed) none

/-- `getHighestMinSpeed`. -/
def getHighestMinSpeed : KeyMap PolicyIndex (Option Percentage) → Option Percentage :=
  tightestSpeed max defaultMinimumSpeed

/-- `getLowestMaxSpeed`. -/
def getLowestMaxSpeed : KeyMap PolicyIndex (Option Percentage) → Option Percentage :=
  tightestSpeed min defaultMaximumSpeed

/-- `calculateArbitratedCapabilities`. -/
def calculateArbitratedCapabilities (requests : CapsRequests) :
    Except String ActiveControlDynamicCaps :=
  let minSpeed := getHighestMinSpeed requests.minRequests
  let maxSpeed := getLowestMaxSpeed requests.maxRequests
  match minSpeed, maxSpeed with
  | some minimum, some maximum =>
    ActiveControlDynamicCaps.create minSpeed (if maximum < minimum then minSpeed else maxSpeed)
  | _, _ => ActiveControlDynamicCaps.create minSpeed maxSpeed

/-- `m_lockRequests`. -/
abbrev LockRequests := KeyMap PolicyIndex Bool

/-- `calculateArbitratedLock`. -/
def calculateArbitratedLock (requests : LockRequests) : Bool := requests.values.any id

namespace CapsRequests

/-- `commitDynamicCapsRequest`, which `calculateNewArbitratedCapabilities` repeats on copies of
the maps. -/
def commitDynamicCapsRequest (requests : CapsRequests) (policyIndex : PolicyIndex)
    (caps : ActiveControlDynamicCaps) : CapsRequests where
  minRequests :=
    if caps.minFanSpeed.isSome then requests.minRequests.assign policyIndex caps.minFanSpeed
    else requests.minRequests
  maxRequests :=
    if caps.maxFanSpeed.isSome then requests.maxRequests.assign policyIndex caps.maxFanSpeed
    else requests.maxRequests

/-- `removeCapabilitiesRequest`. -/
def removeCapabilitiesRequest (requests : CapsRequests) (policyIndex : PolicyIndex) :
    CapsRequests :=
  ⟨requests.minRequests.erase policyIndex, requests.maxRequests.erase policyIndex⟩

end CapsRequests

/-! ## What counts as the same -/

theorem samePercentage_self (p : Option Percentage) : samePercentage p p = true := by
  cases p with
  | none => rfl
  | some x => exact RequestValue.same_self x

theorem samePercentage_symm (p q : Option Percentage) :
    samePercentage p q = samePercentage q p := by
  cases p <;> cases q <;> simp only [samePercentage]
  exact decide_eq_decide.mpr eq_comm

theorem samePercentage_trans {p q r : Option Percentage} (hpq : samePercentage p q = true)
    (hqr : samePercentage q r = true) : samePercentage p r = true := by
  cases p <;> cases q <;> cases r <;> simp only [samePercentage, Bool.false_eq_true] at hpq hqr ⊢
  exact decide_eq_true ((of_decide_eq_true hpq).trans (of_decide_eq_true hqr))

/-- How speeds are arbitrated. -/
def speedArbitration : Arbitration SpeedRequests (Option Percentage) where
  arbitrate := getHighestRequest
  same := samePercentage
  same_symm := samePercentage_symm
  same_self := samePercentage_self
  same_trans _ _ _ := samePercentage_trans

/-- How capabilities are arbitrated. -/
def capsArbitration : Arbitration CapsRequests ActiveControlDynamicCaps where
  arbitrate := calculateArbitratedCapabilities
  same := ActiveControlDynamicCaps.same
  same_symm a b := by
    rw [ActiveControlDynamicCaps.same, samePercentage_symm, samePercentage_symm a.maxFanSpeed]
    rfl
  same_self a := by
    rw [ActiveControlDynamicCaps.same, samePercentage_self, samePercentage_self]
    rfl
  same_trans a b c hab hbc := by
    obtain ⟨hmin, hmax⟩ := Bool.and_eq_true_iff.mp hab
    obtain ⟨hmin', hmax'⟩ := Bool.and_eq_true_iff.mp hbc
    exact Bool.and_eq_true_iff.mpr
      ⟨samePercentage_trans hmin hmin', samePercentage_trans hmax hmax'⟩

/-- How locks are arbitrated. -/
def lockArbitration : Arbitration LockRequests Bool where
  arbitrate requests := .ok (calculateArbitratedLock requests)
  same a b := a == b
  same_symm a b := by cases a <;> cases b <;> rfl
  same_self a := by cases a <;> rfl
  same_trans a b c hab hbc := by
    rw [eq_of_beq hab, hbc]

/-! ## The arbitrators in closed form -/

section Specs

variable {requests : KeyMap PolicyIndex (Option Percentage)} {caps : ActiveControlDynamicCaps}

/-- The requests of a map that may hold invalid ones. -/
def validRequests (requests : KeyMap PolicyIndex (Option Percentage)) (policyIndex : PolicyIndex) :
    Option Percentage :=
  (requests.find policyIndex).bind id

theorem maxPercentage_ok_iff {a b r : Option Percentage} :
    maxPercentage a b = .ok r ↔ ∃ x y, a = some x ∧ b = some y ∧ r = some (max x y) := by
  cases a <;> cases b <;> simp [maxPercentage, max_def_lt, eq_comm]

/-- The loop of `getHighestRequest` ends if all requests are valid, -/
theorem foldlM_maxPercentage (start : Percentage) (speeds : List Percentage) :
    (speeds.map some).foldlM (fun highest request => maxPercentage request highest) (some start) =
      .ok (some (speeds.foldl max start)) := by
  induction speeds generalizing start with
  | nil => rfl
  | cons speed speeds ih =>
    have hstep : maxPercentage (some speed) (some start) = .ok (some (max start speed)) :=
      maxPercentage_ok_iff.mpr ⟨speed, start, rfl, rfl, by rw [max_comm]⟩
    rw [List.map_cons, List.foldlM_cons, hstep]
    exact ih (max start speed)

/-- and only if they are. -/
theorem isSome_of_foldlM_maxPercentage {start r : Option Percentage}
    {requests : List (Option Percentage)}
    (h : requests.foldlM (fun highest request => maxPercentage request highest) start = .ok r) :
    ∀ request ∈ requests, request.isSome := by
  induction requests generalizing start with
  | nil => simp
  | cons request requests ih =>
    rw [List.foldlM_cons] at h
    cases hstep : maxPercentage request start with
    | error message =>
      rw [hstep] at h
      cases h
    | ok highest =>
      rw [hstep] at h
      obtain ⟨x, -, rfl, -, -⟩ := maxPercentage_ok_iff.mp hstep
      exact List.forall_mem_cons.mpr ⟨rfl, ih h⟩

/-- The values of a map without an invalid one. -/
theorem exists_values_eq_map (h : requests.AllValues fun request => request.isSome) :
    ∃ speeds : List Percentage, requests.values = speeds.map some := by
  have hmem : ∀ request ∈ requests.values, request.isSome := by
    intro request hrequest
    obtain ⟨policyIndex, hfind⟩ := (requests.mem_values_iff request).1 hrequest
    exact h policyIndex request hfind
  revert hmem
  induction requests.values with
  | nil => exact fun _ => ⟨[], rfl⟩
  | cons request rest ih =>
    intro hmem
    obtain ⟨hhead, htail⟩ := List.forall_mem_cons.mp hmem
    obtain ⟨speeds, rfl⟩ := ih htail
    obtain ⟨speed, rfl⟩ := Option.isSome_iff_exists.mp hhead
    exact ⟨speed :: speeds, rfl⟩

/-- A speed can be arbitrated only if all requests are valid. -/
theorem allValues_of_getHighestRequest {requests : SpeedRequests} {r : Option Percentage}
    (h : getHighestRequest requests = .ok r) :
    requests.AllValues fun request => request.isSome := by
  intro policyIndex request hfind
  have hne : requests.isEmpty = false := by
    rw [Bool.eq_false_iff]
    intro hempty
    rw [requests.isEmpty_iff.mp hempty policyIndex] at hfind
    cases hfind
  rw [getHighestRequest, hne] at h
  exact isSome_of_foldlM_maxPercentage h request ((requests.mem_values_iff _).2 ⟨_, hfind⟩)

/-- **The arbitrated speed is the highest one requested**, if none is below zero. -/
theorem getHighestRequest_spec {requests : SpeedRequests}
    (hvalid : requests.AllValues fun request =>
      ∃ speed, request = some speed ∧ fromWholeNumber 0 ≤ speed) :
    ∃ highest, getHighestRequest requests = .ok highest ∧
      IsTightest (· ≥ ·) (Requested (validRequests requests)) highest := by
  have hsome : requests.AllValues fun request => request.isSome := by
    intro policyIndex request hfind
    obtain ⟨speed, rfl, -⟩ := hvalid policyIndex request hfind
    rfl
  obtain ⟨speeds, hspeeds⟩ := exists_values_eq_map hsome
  have htight := isTightest_foldl_values picks_max requests id
  rw [List.map_id, hspeeds] at htight
  refine ⟨_, ?_, htight⟩
  rw [getHighestRequest]
  cases speeds with
  | nil =>
    have hempty : requests.isEmpty = true := by
      rw [KeyMap.isEmpty, List.isEmpty_iff]
      exact List.map_eq_nil_iff.mp hspeeds
    rw [if_pos hempty]
    rfl
  | cons speed speeds =>
    have hempty : ¬requests.isEmpty = true := by
      rw [KeyMap.isEmpty, List.isEmpty_iff]
      intro hnil
      rw [KeyMap.values, hnil] at hspeeds
      cases hspeeds
    have hnonneg : fromWholeNumber 0 ≤ speed := by
      obtain ⟨policyIndex, hfind⟩ := (requests.mem_values_iff (some speed)).1
        (hspeeds ▸ List.mem_cons_self)
      obtain ⟨speed', heq, hle⟩ := hvalid policyIndex _ hfind
      rwa [Option.some.inj heq]
    rw [if_neg hempty, hspeeds, foldlM_maxPercentage, List.foldl_cons, max_eq_right hnonneg,
      List.map_cons, List.foldl_cons, Option.merge_none_left, foldl_merge_some]

/-- The loop over the minimum or the maximum speeds. -/
theorem tightestSpeed_spec {tighter : Percentage → Percentage → Prop}
    {pick : Percentage → Percentage → Percentage} (hpick : Picks tighter pick)
    (hcomm : ∀ a b, pick a b = pick b a) (default : Percentage)
    (hvalid : requests.AllValues fun request => request.isSome) :
    ∃ tightest, tightestSpeed pick default requests = some (tightest.getD default) ∧
      IsTightest tighter (Requested (validRequests requests)) tightest := by
  obtain ⟨speeds, hspeeds⟩ := exists_values_eq_map hvalid
  have htight := isTightest_foldl_values hpick requests id
  rw [List.map_id, hspeeds] at htight
  refine ⟨_, ?_, htight⟩
  have hfold : ∀ start : Option Percentage, (speeds.map some).foldl (fun tightest request =>
        match tightest with
        | some t => some (pick (request.getD default) t)
        | none => some (request.getD default)) start =
        (speeds.map some).foldl (Option.merge pick) start := by
    intro start
    rw [List.foldl_map, List.foldl_map]
    congr 1
    funext tightest speed
    cases tightest with
    | none => rfl
    | some t => exact congrArg some (hcomm speed t)
  rw [tightestSpeed]
  cases speeds with
  | nil =>
    have hempty : requests.isEmpty = true := by
      rw [KeyMap.isEmpty, List.isEmpty_iff]
      exact List.map_eq_nil_iff.mp hspeeds
    rw [if_pos hempty]
    rfl
  | cons speed speeds =>
    have hempty : ¬requests.isEmpty = true := by
      rw [KeyMap.isEmpty, List.isEmpty_iff]
      intro hnil
      rw [KeyMap.values, hnil] at hspeeds
      cases hspeeds
    rw [if_neg hempty, hspeeds]
    refine (hfold none).trans ?_
    rw [List.map_cons, List.foldl_cons, Option.merge_none_left, foldl_merge_some]
    rfl

/-- Capabilities that are created are those asked for. -/
theorem create_ok {minFanSpeed maxFanSpeed : Option Percentage}
    (h : ActiveControlDynamicCaps.create minFanSpeed maxFanSpeed = .ok caps) :
    caps = ⟨minFanSpeed, maxFanSpeed⟩ := by
  cases minFanSpeed with
  | none => exact (Except.ok.inj h).symm
  | some minimum =>
    cases maxFanSpeed with
    | none => exact (Except.ok.inj h).symm
    | some maximum =>
      unfold ActiveControlDynamicCaps.create at h
      by_cases h₁ : minimum < fromWholeNumber 0 ∨ minimum > fromWholeNumber 100
      · simp [h₁] at h
      by_cases h₂ : maximum < fromWholeNumber 0 ∨ maximum > fromWholeNumber 100
      · simp [h₁, h₂] at h
      by_cases h₃ : minimum > maximum
      · simp [h₁, h₂, h₃] at h
      simp only [h₁, h₂, h₃, if_false] at h
      exact (Except.ok.inj h).symm

/-- **The arbitrated capabilities**: the highest minimum, and the lowest maximum, but not below
it. -/
theorem calculateArbitratedCapabilities_spec {requests : CapsRequests}
    (hmin : requests.minRequests.AllValues fun request => request.isSome)
    (hmax : requests.maxRequests.AllValues fun request => request.isSome)
    (h : calculateArbitratedCapabilities requests = .ok caps) :
    ∃ highest lowest, IsTightest (· ≥ ·) (Requested (validRequests requests.minRequests)) highest ∧
      IsTightest (· ≤ ·) (Requested (validRequests requests.maxRequests)) lowest ∧
      caps.minFanSpeed = some (highest.getD defaultMinimumSpeed) ∧
      caps.maxFanSpeed =
        some (max (lowest.getD defaultMaximumSpeed) (highest.getD defaultMinimumSpeed)) := by
  obtain ⟨highest, hhighest, htight⟩ :=
    tightestSpeed_spec picks_max max_comm defaultMinimumSpeed hmin
  obtain ⟨lowest, hlowest, htight'⟩ :=
    tightestSpeed_spec picks_min min_comm defaultMaximumSpeed hmax
  refine ⟨highest, lowest, htight, htight', ?_⟩
  unfold calculateArbitratedCapabilities getHighestMinSpeed getLowestMaxSpeed at h
  simp only [hhighest, hlowest] at h
  have hraised : (if lowest.getD defaultMaximumSpeed < highest.getD defaultMinimumSpeed then
      some (highest.getD defaultMinimumSpeed) else some (lowest.getD defaultMaximumSpeed)) =
      some (max (lowest.getD defaultMaximumSpeed) (highest.getD defaultMinimumSpeed)) := by
    rw [max_def_lt]
    split <;> rfl
  rw [hraised] at h
  rw [create_ok h]
  exact ⟨rfl, rfl⟩

/-- The lock is on if somebody requests it. -/
theorem calculateArbitratedLock_iff (requests : LockRequests) :
    calculateArbitratedLock requests = true ↔
      ∃ policyIndex, requests.find policyIndex = some true := by
  rw [calculateArbitratedLock, List.any_eq_true, ← requests.mem_values_iff]
  simp

end Specs

/-! ## The handlers -/

/-- The requests for a fan, and what was last passed to `setActiveControl`,
`setActiveControlDynamicCaps` and `setFanCapsLock`. -/
structure FanDomain where
  speed : Applied SpeedRequests (Option Percentage)
  caps : Applied CapsRequests ActiveControlDynamicCaps
  lock : Applied LockRequests Bool

/-- A write to the hardware, which succeeds or does not. -/
def hardwareWrite (succeeds : Bool) : Except String Unit :=
  if succeeds then .ok () else .error "Failed to execute primitive."

/-- `DomainActiveControl_001::setActiveControl`. -/
def setActiveControl (succeeds : Bool) (fanSpeed : Option Percentage) : Except String Unit :=
  if fanSpeed.isSome then hardwareWrite succeeds else .error "Fan speed percentage is not valid."

namespace FanDomain

/-- `handleSetFanSpeed`. -/
def handleSetFanSpeed (d : FanDomain) (policyIndex : PolicyIndex)
    (fanSpeedRequest : Option Percentage) (succeeds : Bool) : FanDomain × Except String Unit :=
  let result := d.speed.set speedArbitration (setActiveControl succeeds)
    (d.speed.requests.assign policyIndex fanSpeedRequest)
  ({ d with speed := result.1 }, result.2)

/-- `handleSetDynamicCaps`. -/
def handleSetDynamicCaps (d : FanDomain) (policyIndex : PolicyIndex) (minspeed maxspeed : UInt64)
    (succeeds : Bool) : FanDomain × Except String Unit :=
  match ActiveControlDynamicCaps.createFromFcdc minspeed maxspeed with
  | .error message => (d, .error message)
  | .ok capsRequest =>
    let result := d.caps.set capsArbitration (fun _ => hardwareWrite succeeds)
      (d.caps.requests.commitDynamicCapsRequest policyIndex capsRequest)
    ({ d with caps := result.1 }, result.2)

/-- `handleSetFanCapsLock`. -/
def handleSetFanCapsLock (d : FanDomain) (policyIndex : PolicyIndex) (lock : Bool)
    (succeeds : Bool) : FanDomain × Except String Unit :=
  let result := d.lock.set lockArbitration (fun _ => hardwareWrite succeeds)
    (d.lock.requests.assign policyIndex lock)
  ({ d with lock := result.1 }, result.2)

/-- The end of `handleRemovePolicyRequests`: the lock. -/
def removeLockRequest (d : FanDomain) (policyIndex : PolicyIndex) (lockSucceeds : Bool) :
    FanDomain × Except String Unit :=
  let result := d.lock.remove lockArbitration (fun _ => hardwareWrite lockSucceeds)
    (d.lock.requests.erase policyIndex)
  ({ d with lock := result.1 }, result.2)

/-- The rest of `handleRemovePolicyRequests` from the capabilities on. -/
def removeCapsRequests (d : FanDomain) (policyIndex : PolicyIndex)
    (capsSucceeds lockSucceeds : Bool) : FanDomain × Except String Unit :=
  let result := d.caps.remove capsArbitration (fun _ => hardwareWrite capsSucceeds)
    (d.caps.requests.removeCapabilitiesRequest policyIndex)
  match result.2 with
  | .error message => ({ d with caps := result.1 }, .error message)
  | .ok _ => removeLockRequest { d with caps := result.1 } policyIndex lockSucceeds

/-- `handleRemovePolicyRequests`: the speed, the capabilities and the lock, one after the
other; an exception leaves the rest where it is. -/
def handleRemovePolicyRequests (d : FanDomain) (policyIndex : PolicyIndex)
    (speedSucceeds capsSucceeds lockSucceeds : Bool) : FanDomain × Except String Unit :=
  let result := d.speed.remove speedArbitration (setActiveControl speedSucceeds)
    (d.speed.requests.erase policyIndex)
  match result.2 with
  | .error message => ({ d with speed := result.1 }, .error message)
  | .ok _ => removeCapsRequests { d with speed := result.1 } policyIndex capsSucceeds lockSucceeds

end FanDomain

/-- A request of a policy, and which of the writes it makes succeed. -/
inductive FanCall
  | setFanSpeed (policyIndex : PolicyIndex) (fanSpeed : Option Percentage) (succeeds : Bool)
  | setDynamicCaps (policyIndex : PolicyIndex) (minspeed maxspeed : UInt64) (succeeds : Bool)
  | setFanCapsLock (policyIndex : PolicyIndex) (lock : Bool) (succeeds : Bool)
  | removePolicyRequests (policyIndex : PolicyIndex)
      (speedSucceeds capsSucceeds lockSucceeds : Bool)

/-- The policy of a request that sets something. -/
def FanCall.setter : FanCall → Option PolicyIndex
  | .setFanSpeed policyIndex _ _ => some policyIndex
  | .setDynamicCaps policyIndex _ _ _ => some policyIndex
  | .setFanCapsLock policyIndex _ _ => some policyIndex
  | .removePolicyRequests _ _ _ _ => none

namespace FanDomain

/-- What a handler does, and whether it throws. -/
def handle (d : FanDomain) : FanCall → FanDomain × Except String Unit
  | .setFanSpeed policyIndex fanSpeed succeeds => d.handleSetFanSpeed policyIndex fanSpeed succeeds
  | .setDynamicCaps policyIndex minspeed maxspeed succeeds =>
    d.handleSetDynamicCaps policyIndex minspeed maxspeed succeeds
  | .setFanCapsLock policyIndex lock succeeds => d.handleSetFanCapsLock policyIndex lock succeeds
  | .removePolicyRequests policyIndex speedSucceeds capsSucceeds lockSucceeds =>
    d.handleRemovePolicyRequests policyIndex speedSucceeds capsSucceeds lockSucceeds

/-- The handlers as a machine; it goes on after an exception. -/
def step (d : FanDomain) (call : FanCall) : Option FanDomain := some (d.handle call).1

end FanDomain

end Participant

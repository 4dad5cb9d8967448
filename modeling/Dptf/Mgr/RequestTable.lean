import Mathlib.Algebra.Order.Ring.Unbundled.Rat
import Dptf.Lib.KeyMap
import Dptf.Lib.Machine
import Dptf.Lib.Rounding

/-!
# Requests of policies and what is arbitrated from them

The power arbitrators of the manager keep the requests of each policy for each control type, and
beside them the least one for each type.  They do so for powers, for times and for percentages,
with the same functions.
-/

open Lib

namespace Mgr

/-! ## Values and control types -/

/-- `UIntN`, the index of a policy. -/
abbrev PolicyIndex := Nat

/-- What an arbitrator uses of a value: its order and `operator==`, which need not tell all
values apart. -/
class RequestValue (V : Type) extends LinearOrder V where
  same : V → V → Bool
  same_self : ∀ v, same v v

/-- The control types, in the order of their numbers. -/
class ControlType (K : Type) extends LinearOrder K where
  types : List K
  mem_types : ∀ k, k ∈ types

/-- A valid `Power`, in milliwatts up to `MaxValidPower`. -/
def Power : Type := { milliwatts : Nat // milliwatts ≤ 10000000 }

/-- A power of 0 is valid. -/
theorem Power.valid_zero : 0 ≤ 10000000 := by decide

/-- So are 15 W. -/
theorem Power.valid_fifteen : 15000 ≤ 10000000 := by decide

instance : DecidableEq Power :=
  inferInstanceAs (DecidableEq { milliwatts : Nat // milliwatts ≤ 10000000 })

instance : RequestValue Power where
  toLinearOrder := inferInstanceAs (LinearOrder { milliwatts : Nat // milliwatts ≤ 10000000 })
  same a b := decide (a.1 = b.1)
  same_self _ := decide_eq_true rfl

theorem Power.same_iff (a b : Power) : RequestValue.same a b ↔ a = b :=
  decide_eq_true_iff.trans Subtype.ext_iff.symm

/-- A valid `TimeSpan`, in microseconds. -/
def TimeSpan : Type := Int

instance : RequestValue TimeSpan where
  toLinearOrder := inferInstanceAs (LinearOrder Int)
  same := fun (a b : Int) => decide (a = b)
  same_self := fun (a : Int) => decide_eq_true (Eq.refl a)

/-- A valid `Percentage`, the value of the `double` it is kept in. -/
def Percentage : Type := ℚ

/-- `Percentage::toWholeNumber`: the product with 100 is a `double`, and rounded once more. -/
def Percentage.toWholeNumber (p : Percentage) : Int :=
  let product := roundDouble (Rat.mul p 100)
  roundAway product.num product.den

/-- `<` compares the numbers, `==` the whole numbers they are rounded to. -/
instance : RequestValue Percentage where
  toLinearOrder := inferInstanceAs (LinearOrder ℚ)
  same a b := decide (a.toWholeNumber = b.toWholeNumber)
  same_self _ := decide_eq_true rfl

/-! ## The table -/

section RequestTable

variable {K V : Type} [ControlType K] [RequestValue V]

/-- The requests by policy and control type. -/
abbrev Requests (K V : Type) [ControlType K] : Type := KeyMap PolicyIndex (KeyMap K V)

/-- The requests and the arbitrated values of one kind. -/
structure RequestTable (K V : Type) [ControlType K] where
  requested : Requests K V
  arbitrated : KeyMap K V

/-- `updatePolicyRequest`. -/
def updatePolicyRequest (policyIndex : PolicyIndex) (controlType : K) (value : V)
    (requests : Requests K V) : Requests K V :=
  let policyRequests := (requests.find policyIndex).getD KeyMap.empty
  requests.assign policyIndex (policyRequests.assign controlType value)

/-- `getLowestRequest`, which throws if there is no request. -/
def getLowestRequest (controlType : K) (requests : Requests K V) : Option V :=
  requests.values.foldl (fun lowestRequest controls =>
    match controls.find controlType with
    | some control => keepLower lowestRequest control
    | none => lowestRequest) none

/-- `findControlTypesSetForPolicy`. -/
def findControlTypesSetForPolicy (controlRequests : KeyMap K V) : List K :=
  (ControlType.types (K := K)).filter fun controlType => (controlRequests.find controlType).isSome

namespace RequestTable

/-- Without requests. -/
def empty : RequestTable K V := ⟨KeyMap.empty, KeyMap.empty⟩

/-- `hasArbitrated…`. -/
def hasArbitrated (t : RequestTable K V) (controlType : K) : Bool :=
  (t.arbitrated.find controlType).isSome

/-- `getArbitrated…`, which throws if there is no value. -/
def getArbitrated (t : RequestTable K V) (controlType : K) : Option V :=
  t.arbitrated.find controlType

/-- `setArbitratedRequest`. -/
def setArbitratedRequest (t : RequestTable K V) (controlType : K) (lowestRequest : V) :
    RequestTable K V :=
  match t.arbitrated.find controlType with
  | none => { t with arbitrated := t.arbitrated.assign controlType lowestRequest }
  | some old =>
    if RequestValue.same old lowestRequest then t
    else { t with arbitrated := t.arbitrated.assign controlType lowestRequest }

/-- `commitPolicyRequest`. -/
def commitPolicyRequest (t : RequestTable K V) (policyIndex : PolicyIndex) (controlType : K)
    (value : V) : RequestTable K V :=
  let t := { t with requested := updatePolicyRequest policyIndex controlType value t.requested }
  match getLowestRequest controlType t.requested with
  | some lowestRequest => t.setArbitratedRequest controlType lowestRequest
  | none => t

/-- `arbitrate`. -/
def arbitrate (t : RequestTable K V) (policyIndex : PolicyIndex) (controlType : K) (value : V) :
    Option V :=
  getLowestRequest controlType (updatePolicyRequest policyIndex controlType value t.requested)

/-- `setArbitrated…ForControlTypes`; the exception for a type without requests is swallowed. -/
def setArbitratedForControlTypes (t : RequestTable K V) (controlTypes : List K) :
    RequestTable K V :=
  controlTypes.foldl (fun t controlType =>
    match getLowestRequest controlType t.requested with
    | some lowestRequest => t.setArbitratedRequest controlType lowestRequest
    | none => t) t

/-- `remove…Request(policyIndex)` and `clearPolicyCachedData`: all requests of a policy. -/
def removeRequests (t : RequestTable K V) (policyIndex : PolicyIndex) : RequestTable K V :=
  match t.requested.find policyIndex with
  | none => t
  | some policyRequests =>
    let controlTypes := findControlTypesSetForPolicy policyRequests
    let t := { t with requested := t.requested.erase policyIndex }
    if ¬ t.requested.isEmpty then t.setArbitratedForControlTypes controlTypes
    else { t with arbitrated := KeyMap.empty }

/-- `remove…RequestForPolicy`: one request; nothing is arbitrated anew. -/
def removeRequestForPolicy (t : RequestTable K V) (policyIndex : PolicyIndex) (controlType : K) :
    RequestTable K V :=
  match t.requested.find policyIndex with
  | none => t
  | some policyRequests =>
    match policyRequests.find controlType with
    | none => t
    | some _ =>
      { t with requested := t.requested.assign policyIndex (policyRequests.erase controlType) }

end RequestTable

/-! ## The requests that live -/

/-- The requests that were made and not taken back. -/
abbrev LiveRequests (K V : Type) : Type := PolicyIndex → K → Option V

/-- What changes the requests of a table. -/
inductive TableOp (K V : Type)
  | commit (policyIndex : PolicyIndex) (controlType : K) (value : V)
  | removeOne (policyIndex : PolicyIndex) (controlType : K)
  | removeAll (policyIndex : PolicyIndex)
deriving Repr

/-- An operation on a table. -/
def RequestTable.apply (t : RequestTable K V) : TableOp K V → RequestTable K V
  | .commit policyIndex controlType value => t.commitPolicyRequest policyIndex controlType value
  | .removeOne policyIndex controlType => t.removeRequestForPolicy policyIndex controlType
  | .removeAll policyIndex => t.removeRequests policyIndex

/-- What an operation means for the requests. -/
def TableOp.live (live : LiveRequests K V) : TableOp K V → LiveRequests K V
  | .commit policyIndex controlType value => fun p k =>
      if p = policyIndex ∧ k = controlType then some value else live p k
  | .removeOne policyIndex controlType => fun p k =>
      if p = policyIndex ∧ k = controlType then none else live p k
  | .removeAll policyIndex => fun p k => if p = policyIndex then none else live p k

section Live

variable (live : LiveRequests K V) (p : PolicyIndex) (k : K) (q : PolicyIndex) (l : K)

omit [RequestValue V]

theorem live_commit (v : V) : (TableOp.commit p k v).live live q l =
    if q = p ∧ l = k then some v else live q l := rfl

theorem live_removeOne : (TableOp.removeOne p k : TableOp K V).live live q l =
    if q = p ∧ l = k then none else live q l := rfl

theorem live_removeAll : (TableOp.removeAll p : TableOp K V).live live q l =
    if q = p then none else live q l := rfl

end Live

/-- The least of the live requests for a control type. -/
def LeastLive (live : LiveRequests K V) (controlType : K) (v : V) : Prop :=
  IsLeast {w | ∃ p, live p controlType = some w} v

/-- The requests in a map. -/
def Requests.live (requests : Requests K V) : LiveRequests K V :=
  fun p k => (requests.find p).bind fun controls => controls.find k

/-- The arbitrated values are the least live requests: there is one where there is a request. -/
def RequestTable.Holds (t : RequestTable K V) (live : LiveRequests K V) : Prop :=
  ∀ k, (t.hasArbitrated k ↔ ∃ p, (live p k).isSome) ∧
    ∀ v, t.getArbitrated k = some v → LeastLive live k v

theorem getLowestRequest_eq_lowest (k : K) (requests : Requests K V) :
    getLowestRequest k requests = lowest (requests.values.filterMap fun controls =>
      controls.find k) := by
  rw [getLowestRequest, lowest, List.foldl_filterMap]
  rfl

omit [RequestValue V] in
theorem mem_requests_iff (k : K) (requests : Requests K V) (v : V) :
    v ∈ requests.values.filterMap (fun controls => controls.find k) ↔
      ∃ p, Requests.live requests p k = some v := by
  rw [List.mem_filterMap]
  constructor
  · rintro ⟨controls, hmem, hv⟩
    obtain ⟨p, hp⟩ := (requests.mem_values_iff controls).1 hmem
    exact ⟨p, by rw [Requests.live, hp, Option.bind_some, hv]⟩
  · rintro ⟨p, hp⟩
    obtain ⟨controls, hfind, hv⟩ := Option.bind_eq_some_iff.1 hp
    exact ⟨controls, (requests.mem_values_iff controls).2 ⟨p, hfind⟩, hv⟩

/-- The lowest request is the least of the requests in the map. -/
theorem getLowestRequest_eq_some_iff (k : K) (requests : Requests K V) (v : V) :
    getLowestRequest k requests = some v ↔ LeastLive (Requests.live requests) k v := by
  rw [getLowestRequest_eq_lowest, lowest_eq_some_iff, mem_requests_iff]
  refine and_congr_right fun _ => ?_
  constructor
  · intro h w hw
    exact h w ((mem_requests_iff k requests w).2 hw)
  · intro h w hw
    exact h ((mem_requests_iff k requests w).1 hw)

theorem getLowestRequest_eq_none_iff (k : K) (requests : Requests K V) :
    getLowestRequest k requests = none ↔ ∀ p, Requests.live requests p k = none := by
  rw [getLowestRequest_eq_lowest, lowest_eq_none_iff, List.eq_nil_iff_forall_not_mem]
  constructor
  · intro h p
    rw [Option.eq_none_iff_forall_ne_some]
    intro v hv
    exact h v ((mem_requests_iff k requests v).2 ⟨p, hv⟩)
  · intro h v hv
    obtain ⟨p, hp⟩ := (mem_requests_iff k requests v).1 hv
    rw [h p] at hp
    contradiction

omit [RequestValue V] in
theorem live_updatePolicyRequest (p : PolicyIndex) (k : K) (v : V) (requests : Requests K V) :
    Requests.live (updatePolicyRequest p k v requests) =
      TableOp.live (Requests.live requests) (.commit p k v) := by
  funext q l
  exact requests.find_assign_getD p k v q l

omit [RequestValue V] in
theorem live_assign_erase {requests : Requests K V} {p : PolicyIndex} {controls : KeyMap K V}
    (hfind : requests.find p = some controls) (k : K) :
    Requests.live (requests.assign p (controls.erase k)) =
      TableOp.live (Requests.live requests) (.removeOne p k) := by
  funext q l
  simp only [Requests.live, TableOp.live, KeyMap.find_assign]
  by_cases hq : q = p
  · subst hq
    rw [if_pos rfl, Option.bind_some, KeyMap.find_erase, hfind, Option.bind_some]
    by_cases hl : l = k
    · rw [if_pos hl, if_pos ⟨rfl, hl⟩]
    · rw [if_neg hl, if_neg (fun h => hl h.2)]
  · rw [if_neg hq, if_neg (fun h => hq h.1)]

omit [RequestValue V] in
theorem live_erase (requests : Requests K V) (p : PolicyIndex) :
    Requests.live (requests.erase p) = TableOp.live (Requests.live requests) (.removeAll p) := by
  funext q l
  simp only [Requests.live, TableOp.live, KeyMap.find_erase]
  by_cases hq : q = p
  · rw [if_pos hq, if_pos hq]
    rfl
  · rw [if_neg hq, if_neg hq]

end RequestTable

end Mgr

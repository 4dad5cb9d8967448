import Mathlib.Logic.Function.Basic
import Dptf.Mgr.TemperatureThresholds

/-!
# The trips that are arbitrated

Policies set temperature thresholds on a domain and their requests are removed, while any read or
write of the participant may fail.

* `not_tripsOfLive` — they are not arbitrated before a first request was accepted, and a maximal
  number is not clamped.
* `TripArbitration` — what is to hold else; `tripArbitration_run` — **it holds after every run**.
-/

open Lib

namespace Mgr

variable {requests : KeyMap PolicyIndex TemperatureThresholds} {thresholds : TemperatureThresholds}

/-- A request to the control. -/
inductive TemperatureOp
  | setTemperatureThresholds (policyIndex : PolicyIndex)
      (temperatureThresholds : TemperatureThresholds) (primitives : TemperaturePrimitives)
  | removePolicyRequests (policyIndex : PolicyIndex) (primitives : TemperaturePrimitives)
  | getTemperatureStatus (primitives : TemperaturePrimitives)
  | getTemperatureThresholds (primitives : TemperaturePrimitives)
  | clearCachedData

/-- A domain, with the last requests that were accepted and not removed, whether any request was
accepted, and whether the last step reports success. -/
structure TripHistory where
  domain : DomainTemperature
  live : PolicyIndex → Option TemperatureThresholds
  accepted : Bool
  succeeded : Bool

namespace TripHistory

/-- What a request does.  A removal ends a request also when it fails. -/
def step (s : TripHistory) : TemperatureOp → TripHistory
  | .setTemperatureThresholds policyIndex temperatureThresholds primitives =>
    let r := s.domain.handleSetTemperatureThresholds policyIndex temperatureThresholds primitives
    { domain := r.1
      live := if r.2 then Function.update s.live policyIndex (some temperatureThresholds) else s.live
      accepted := s.accepted || r.2
      succeeded := r.2 }
  | .removePolicyRequests policyIndex primitives =>
    let r := s.domain.handleRemovePolicyRequests policyIndex primitives
    { s with
      domain := r.1
      live := Function.update s.live policyIndex none
      succeeded := r.2 }
  | .getTemperatureStatus primitives =>
    let r := s.domain.handleGetTemperatureStatus primitives
    { s with domain := r.1, succeeded := r.2.isSome }
  | .getTemperatureThresholds primitives =>
    let r := s.domain.handleGetTemperatureThresholds primitives
    { s with domain := r.1, succeeded := r.2.isSome }
  | .clearCachedData => { s with domain := s.domain.handleClearCachedResults, succeeded := true }

/-- What a history of requests leads to on a new domain. -/
def run (version : TemperatureVersion) (supported : Bool) (ops : List TemperatureOp) :
    TripHistory :=
  ops.foldl step ⟨DomainTemperature.make version supported, fun _ => none, false, true⟩

theorem run_concat (version : TemperatureVersion) (supported : Bool) (ops : List TemperatureOp)
    (op : TemperatureOp) : run version supported (ops ++ [op]) = (run version supported ops).step op :=
  List.foldl_append ..

end TripHistory

/-- A temperature clamped to the allowed range of trips. -/
def clampTrip (t : Temperature) : Temperature := max Temperature.minAux (min t Temperature.maxAux)

/-- A trip is at the tightest of the requests, brought into range, or at the end of the range. -/
def IsTrip (tighter : Temperature → Temperature → Prop)
    (requests : PolicyIndex → Option Temperature) (snap : Temperature → Temperature)
    (fallback : Temperature) (aux : Option Temperature) : Prop :=
  ∃ t, IsTightest tighter (Requested requests) t ∧ aux = some (t.elim fallback snap)

/-- The trips that the live requests lead to, when `snap` brings aux1 into range. -/
structure TripsOfLive (snap : Temperature → Temperature)
    (live : PolicyIndex → Option TemperatureThresholds) (arbitrated : TemperatureThresholds) :
    Prop where
  aux0 : IsTrip (· ≥ ·) (fun p => (live p).bind TemperatureThresholds.aux0) clampTrip
    Temperature.minAux arbitrated.aux0
  aux1 : IsTrip (· ≤ ·) (fun p => (live p).bind TemperatureThresholds.aux1) snap
    Temperature.maxAux arbitrated.aux1

/-- A participant at 0 degrees that answers everything. -/
def answering : TemperaturePrimitives :=
  ⟨some Temperature.zeroCelsius, some Temperature.minAux, some Temperature.maxAux,
    some Temperature.zeroCelsius, true, true⟩

/-- **Removing a request that was never made** succeeds and leaves no trips, and **a maximal number**
is arbitrated as it is. -/
theorem not_tripsOfLive :
    (∃ s, s = TripHistory.run .v001 true [.removePolicyRequests 0 answering] ∧
      s.succeeded = true ∧ ¬ TripsOfLive clampTrip s.live s.domain.arbitrator.arbitratedValue) ∧
    (∃ s, s = TripHistory.run .v001 true
        [.setTemperatureThresholds 0 ⟨none, some Temperature.unspecified, none⟩ answering] ∧
      s.succeeded = true ∧ ¬ TripsOfLive clampTrip s.live s.domain.arbitrator.arbitratedValue) := by
  refine ⟨⟨_, rfl, rfl, fun h => ?_⟩, ⟨_, rfl, rfl, fun h => ?_⟩⟩
  · obtain ⟨t, -, htrip⟩ := h.aux0
    cases htrip
  · obtain ⟨t, ht, htrip⟩ := h.aux1
    have htrip : some Temperature.unspecified = some (t.elim Temperature.maxAux clampTrip) := htrip
    cases t with
    | none => exact absurd (Option.some.inj htrip) (by decide)
    | some t =>
      have hle : clampTrip t ≤ Temperature.maxAux :=
        max_le (by decide) (min_le_right t Temperature.maxAux)
      rw [Option.elim_some, Option.some.injEq] at htrip
      rw [← htrip] at hle
      exact absurd hle (by decide)

/-- A temperature clamped to the allowed range, unless it is the maximal number. -/
def snapTrip (t : Temperature) : Temperature :=
  if t = Temperature.unspecified then t else clampTrip t

/-- What is to hold of a history. -/
structure TripArbitration (s : TripHistory) : Prop where
  /-- Nothing is arbitrated before a request was accepted. -/
  fresh : s.accepted = false →
    s.domain.arbitrator.arbitratedValue = .invalid ∧ ∀ p, s.live p = none
  /-- After that the trips are those of the live requests. -/
  arbitrated : s.accepted = true →
    TripsOfLive snapTrip s.live s.domain.arbitrator.arbitratedValue
  /-- A further request is arbitrated together with the live ones, and no others. -/
  next : ∀ p thresholds currentTemperature hysteresis newArbitrated,
    s.domain.arbitrator.arbitrateTemperatureThresholdsRequest p thresholds currentTemperature
      hysteresis = some newArbitrated →
    TripsOfLive snapTrip (Function.update s.live p (some thresholds)) newArbitrated

/-! ## The loop -/

open ArbitratorTemperatureThresholds

theorem higherAux0_eq : higherAux0 = Option.merge max := by
  funext newAux0 currentAux0
  cases currentAux0 with
  | none => cases newAux0 <;> rfl
  | some current =>
    cases newAux0 with
    | none => rfl
    | some new =>
      rw [higherAux0]
      show _ = some (max new current)
      split
      · rename_i hlt
        rw [max_eq_right hlt.le]
      · rename_i hlt
        rw [max_eq_left (not_lt.1 hlt)]

theorem lowerAux1_eq : lowerAux1 = Option.merge min := by
  funext newAux1 currentAux1
  cases currentAux1 with
  | none => cases newAux1 <;> rfl
  | some current =>
    cases newAux1 with
    | none => rfl
    | some new =>
      rw [lowerAux1]
      show _ = some (min new current)
      split
      · rename_i hlt
        rw [min_eq_right hlt.le]
      · rename_i hlt
        rw [min_eq_left (not_lt.1 hlt)]

theorem snapWithinAllowableTripPointRange_eq (t : Temperature) :
    t.snapWithinAllowableTripPointRange = snapTrip t := by
  rw [Temperature.snapWithinAllowableTripPointRange, snapTrip]
  by_cases hmax : t = Temperature.unspecified
  · rw [if_neg (not_not.2 hmax), if_pos hmax]
  · rw [if_pos hmax, if_neg hmax, clampTrip]
    have hle : Temperature.minAux ≤ Temperature.maxAux := by decide
    by_cases hlow : t < Temperature.minAux
    · simp only [hlow, if_true, if_neg (not_lt.2 hle)]
      rw [min_eq_left (hlow.le.trans hle), max_eq_left hlow.le]
    · simp only [hlow, if_false]
      by_cases hhigh : t > Temperature.maxAux
      · rw [if_pos hhigh, min_eq_right hhigh.le, max_eq_right hle]
      · rw [if_neg hhigh, min_eq_left (not_lt.1 hhigh), max_eq_right (not_lt.1 hlow)]

theorem snapTrip_of_ne {t : Temperature} (h : t ≠ Temperature.unspecified) :
    snapTrip t = clampTrip t := if_neg h

theorem snapOr_eq (fallback : Temperature) (t : Option Temperature) :
    snapOr fallback t = t.elim fallback snapTrip := by
  cases t with
  | none => rfl
  | some t => exact snapWithinAllowableTripPointRange_eq t

/-- **The loop** finds the trips of the requests it goes through. -/
theorem tripsOfLive_findNew {live : PolicyIndex → Option TemperatureThresholds}
    (haux0 : ∀ p, (requests.find p).bind TemperatureThresholds.aux0 =
      (live p).bind TemperatureThresholds.aux0)
    (haux1 : ∀ p, (requests.find p).bind TemperatureThresholds.aux1 =
      (live p).bind TemperatureThresholds.aux1)
    (hranged : ∀ p, (live p).bind TemperatureThresholds.aux0 ≠ some Temperature.unspecified) :
    TripsOfLive snapTrip live (findNewTemperatureThresholds requests) where
  aux0 := by
    have htightest :=
      isTightest_foldl_values (picks_max (V := Temperature)) requests TemperatureThresholds.aux0
    rw [funext haux0, ← higherAux0_eq] at htightest
    refine ⟨_, htightest, ?_⟩
    rw [findNewTemperatureThresholds]
    dsimp only
    rw [snapOr_eq]
    cases hmax : (requests.values.map TemperatureThresholds.aux0).foldl higherAux0 none with
    | none => rfl
    | some t =>
      rw [hmax] at htightest
      obtain ⟨p, hp⟩ := htightest.1
      rw [Option.elim_some, Option.elim_some, snapTrip_of_ne]
      rintro rfl
      exact hranged p hp
  aux1 := by
    have htightest :=
      isTightest_foldl_values (picks_min (V := Temperature)) requests TemperatureThresholds.aux1
    rw [funext haux1, ← lowerAux1_eq] at htightest
    refine ⟨_, htightest, ?_⟩
    rw [findNewTemperatureThresholds]
    dsimp only
    rw [snapOr_eq]

/-! ## What the requests do -/

/-- The difference to a maximal number is out of range. -/
theorem sub_unspecified (t : Temperature) : Temperature.unspecified.sub t = none := by
  rw [Temperature.sub]
  have hself : (if Temperature.unspecified.1 = 2 ^ 32 - 1 then 0 else Temperature.unspecified.1) =
      0 := rfl
  rw [hself]
  simp only [true_or, if_true]
  rw [Temperature.ofTenthKelvin, dif_neg]
  have hrange := t.2
  split <;> omega

/-- A maximal number is no aux0. -/
theorem aux0_ne_unspecified {currentTemperature hysteresis : Option Temperature}
    (h : throwsIfTemperatureThresholdsInvalid thresholds currentTemperature hysteresis = false) :
    thresholds.aux0 ≠ some Temperature.unspecified := by
  intro haux0
  rw [throwsIfTemperatureThresholdsInvalid, haux0, Bool.or_eq_false_iff] at h
  obtain ⟨hrejects, -⟩ := h
  have hnone : hysteresis.bind Temperature.unspecified.sub = none := by
    cases hysteresis with
    | none => rfl
    | some t => rw [Option.bind_some, sub_unspecified]
  have hthrows : rejectsAux0 (some Temperature.unspecified) currentTemperature hysteresis =
      true := by
    unfold rejectsAux0
    dsimp only
    rw [hnone]
    rfl
  rw [hthrows] at hrejects
  cases hrejects

/-- An invalid request is not rejected. -/
theorem throwsIfInvalid_invalid (currentTemperature hysteresis : Option Temperature) :
    throwsIfTemperatureThresholdsInvalid .invalid currentTemperature hysteresis = false := rfl

@[simp] theorem update_requests (a : ArbitratorTemperatureThresholds) (p : PolicyIndex)
    (thresholds : TemperatureThresholds) : (a.updateTemperatureThresholdsRequestAndArbitrate p
      thresholds).temperatureThresholdsPolicyRequests =
        a.temperatureThresholdsPolicyRequests.assign p thresholds := by
  unfold updateTemperatureThresholdsRequestAndArbitrate
  simp only
  split <;> rfl

/-- What is arbitrated is what the loop finds, also if it did not change. -/
theorem update_arbitrated (a : ArbitratorTemperatureThresholds) (p : PolicyIndex)
    (thresholds : TemperatureThresholds) :
    let new := findNewTemperatureThresholds
      (a.temperatureThresholdsPolicyRequests.assign p thresholds)
    let arbitrated :=
      (a.updateTemperatureThresholdsRequestAndArbitrate p thresholds).arbitratedValue
    arbitrated.aux0 = new.aux0 ∧ arbitrated.aux1 = new.aux1 := by
  unfold updateTemperatureThresholdsRequestAndArbitrate
  simp only
  split
  · exact ⟨rfl, rfl⟩
  · rename_i hsame
    rw [not_or, not_not, not_not] at hsame
    exact ⟨hsame.1.symm, hsame.2.symm⟩

/-- What a removal does to the arbitrator: it records an invalid request in the place of one. -/
theorem remove_cases (a : ArbitratorTemperatureThresholds) (p : PolicyIndex)
    (currentTemperature : Option Temperature) :
    (∃ thresholds, a.temperatureThresholdsPolicyRequests.find p = some thresholds ∧
      a.removeTemperatureThresholdsRequest p currentTemperature =
        some (a.updateTemperatureThresholdsRequestAndArbitrate p .invalid)) ∨
    (a.temperatureThresholdsPolicyRequests.find p = none ∧
      a.removeTemperatureThresholdsRequest p currentTemperature =
        some { a with arbitratedValueChangedSinceLastSet := false }) := by
  rw [removeTemperatureThresholdsRequest]
  cases hfind : a.temperatureThresholdsPolicyRequests.find p with
  | some thresholds =>
    refine Or.inl ⟨thresholds, rfl, ?_⟩
    dsimp only
    rw [commitTemperatureThresholdsRequest, throwsIfInvalid_invalid]
    rfl
  | none => exact Or.inr ⟨rfl, rfl⟩

namespace DomainTemperature

/-- A status that is asked for leaves the arbitrator; version 0 has none. -/
theorem handleGetTemperatureStatus_spec (d : DomainTemperature)
    (primitives : TemperaturePrimitives) :
    let r := d.handleGetTemperatureStatus primitives
    r.1.version = d.version ∧ r.1.arbitrator = d.arbitrator ∧
      (d.version = .v000 → d.cachedStatus = none → r.1.cachedStatus = none ∧ r.2 = none) := by
  rw [handleGetTemperatureStatus]
  cases hcached : d.cachedStatus with
  | some status => exact ⟨rfl, rfl, fun _ hnone => absurd hnone (by simp)⟩
  | none =>
    refine ⟨rfl, rfl, fun hversion _ => ?_⟩
    dsimp only
    rw [getTemperatureStatus, hversion]
    exact ⟨rfl, rfl⟩

theorem handleGetTemperatureThresholds_spec (d : DomainTemperature)
    (primitives : TemperaturePrimitives) :
    let r := d.handleGetTemperatureThresholds primitives
    r.1.version = d.version ∧ r.1.arbitrator = d.arbitrator ∧
      r.1.cachedStatus = d.cachedStatus := by
  rw [handleGetTemperatureThresholds]
  cases d.cachedThresholds with
  | some thresholds => exact ⟨rfl, rfl, rfl⟩
  | none => exact ⟨rfl, rfl, rfl⟩

/-- **What a set does** to the arbitrator: it commits a request that is not rejected and reports
success, or nothing; version 0 does nothing. -/
theorem handleSetTemperatureThresholds_spec (d : DomainTemperature) (p : PolicyIndex)
    (thresholds : TemperatureThresholds) (primitives : TemperaturePrimitives) :
    let r := d.handleSetTemperatureThresholds p thresholds primitives
    r.1.version = d.version ∧
      (d.version = .v000 → d.cachedStatus = none → r.1.cachedStatus = none ∧ r.2 = false) ∧
      ((r.2 = false ∧ r.1.arbitrator = d.arbitrator) ∨
        (r.2 = true ∧ thresholds.aux0 ≠ some Temperature.unspecified ∧ r.1.arbitrator =
            d.arbitrator.updateTemperatureThresholdsRequestAndArbitrate p thresholds)) := by
  obtain ⟨hversion, harbitrator, hnone⟩ := d.handleGetTemperatureStatus_spec primitives
  rw [handleSetTemperatureThresholds]
  generalize d.handleGetTemperatureStatus primitives = status at hversion harbitrator hnone ⊢
  obtain ⟨d₁, status⟩ := status
  cases status with
  | none => exact ⟨hversion, fun h h' => ⟨(hnone h h').1, rfl⟩, Or.inl ⟨rfl, harbitrator⟩⟩
  | some currentTemperature =>
    have hno : ¬ (d.version = .v000 ∧ d.cachedStatus = none) := fun h => by
      cases (hnone h.1 h.2).2
    obtain ⟨hversion', harbitrator', -⟩ := d₁.handleGetTemperatureThresholds_spec primitives
    dsimp only
    generalize d₁.handleGetTemperatureThresholds primitives = current at hversion' harbitrator' ⊢
    obtain ⟨d₂, current⟩ := current
    have hversion₂ : d₂.version = d.version := hversion'.trans hversion
    have harbitrator₂ : d₂.arbitrator = d.arbitrator := harbitrator'.trans harbitrator
    cases current with
    | none => exact ⟨hversion₂, fun h h' => absurd ⟨h, h'⟩ hno, Or.inl ⟨rfl, harbitrator₂⟩⟩
    | some current =>
      dsimp only
      rw [arbitrateTemperatureThresholdsRequest, commitTemperatureThresholdsRequest]
      cases hthrows : throwsIfTemperatureThresholdsInvalid thresholds (some currentTemperature)
        current.hysteresis with
      | true => exact ⟨hversion₂, fun h h' => absurd ⟨h, h'⟩ hno, Or.inl ⟨rfl, harbitrator₂⟩⟩
      | false =>
        simp only [Bool.false_eq_true, if_false]
        split
        · refine ⟨hversion₂, fun h h' => absurd ⟨h, h'⟩ hno, Or.inr ⟨rfl, ?_, ?_⟩⟩
          · exact aux0_ne_unspecified hthrows
          · dsimp only
            rw [harbitrator₂]
        · exact ⟨hversion₂, fun h h' => absurd ⟨h, h'⟩ hno, Or.inl ⟨rfl, harbitrator₂⟩⟩

/-- **What a removal does** to the arbitrator; version 0 does nothing. -/
theorem handleRemovePolicyRequests_spec (d : DomainTemperature) (p : PolicyIndex)
    (primitives : TemperaturePrimitives) :
    let r := d.handleRemovePolicyRequests p primitives
    r.1.version = d.version ∧ r.1.cachedStatus = d.cachedStatus ∧ ((d.version = .v000 ∧ r.1 = d) ∨
        ∃ currentTemperature,
          d.arbitrator.removeTemperatureThresholdsRequest p (some currentTemperature) =
            some r.1.arbitrator) := by
  rw [handleRemovePolicyRequests]
  cases hstatus : d.getTemperatureStatus primitives with
  | none =>
    refine ⟨rfl, rfl, Or.inl ⟨?_, rfl⟩⟩
    rw [getTemperatureStatus] at hstatus
    split at hstatus
    · assumption
    · cases hstatus
    · cases hstatus
  | some currentTemperature =>
    dsimp only
    cases hremove : d.arbitrator.removeTemperatureThresholdsRequest p (some currentTemperature) with
    | none =>
      rcases remove_cases d.arbitrator p (some currentTemperature) with ⟨-, -, heq⟩ | ⟨-, heq⟩
      · rw [hremove] at heq
        cases heq
      · rw [hremove] at heq
        cases heq
    | some arbitrator =>
      dsimp only
      split
      · exact ⟨rfl, rfl, Or.inr ⟨currentTemperature, hremove⟩⟩
      · exact ⟨rfl, rfl, Or.inr ⟨currentTemperature, hremove⟩⟩

end DomainTemperature

/-! ## Each request -/

/-- What the arbitrator records of the live requests. -/
structure TripsRecorded (s : TripHistory) : Prop where
  aux0 : ∀ p, (s.domain.arbitrator.temperatureThresholdsPolicyRequests.find p).bind
    TemperatureThresholds.aux0 = (s.live p).bind TemperatureThresholds.aux0
  aux1 : ∀ p, (s.domain.arbitrator.temperatureThresholdsPolicyRequests.find p).bind
    TemperatureThresholds.aux1 = (s.live p).bind TemperatureThresholds.aux1
  ranged : ∀ p, (s.live p).bind TemperatureThresholds.aux0 ≠ some Temperature.unspecified
  fresh : s.accepted = false → s.domain.arbitrator.arbitratedValue = .invalid ∧
    ∀ p, s.domain.arbitrator.temperatureThresholdsPolicyRequests.find p = none ∧ s.live p = none
  arbitrated : s.accepted = true →
    let new := findNewTemperatureThresholds s.domain.arbitrator.temperatureThresholdsPolicyRequests
    s.domain.arbitrator.arbitratedValue.aux0 = new.aux0 ∧
      s.domain.arbitrator.arbitratedValue.aux1 = new.aux1
  version0 : s.domain.version = .v000 → s.domain.cachedStatus = none ∧ s.accepted = false

/-- A field of a request that is set or replaced by an invalid one. -/
theorem bind_assign {live : PolicyIndex → Option TemperatureThresholds}
    {field : TemperatureThresholds → Option Temperature}
    (h : ∀ p, (requests.find p).bind field = (live p).bind field) (p : PolicyIndex)
    {request : Option TemperatureThresholds} (hrequest : request.bind field = field thresholds)
    (q : PolicyIndex) : ((requests.assign p thresholds).find q).bind field =
      (Function.update live p request q).bind field := by
  rw [KeyMap.find_assign]
  by_cases hq : q = p
  · rw [if_pos hq, hq, Function.update_self, hrequest, Option.bind_some]
  · rw [if_neg hq, Function.update_of_ne hq, h q]

namespace TripsRecorded

variable {s : TripHistory}
variable {d : DomainTemperature}

/-- A request that leaves the arbitrator. -/
theorem congr (h : TripsRecorded s) {succeeded : Bool} (hversion : d.version = s.domain.version)
    (harbitrator : d.arbitrator = s.domain.arbitrator)
    (hcached : s.domain.version = .v000 → d.cachedStatus = none) :
    TripsRecorded { s with domain := d, succeeded := succeeded } where
  aux0 := by
    dsimp only
    rw [harbitrator]
    exact h.aux0
  aux1 := by
    dsimp only
    rw [harbitrator]
    exact h.aux1
  ranged := h.ranged
  fresh := by
    dsimp only
    rw [harbitrator]
    exact h.fresh
  arbitrated := by
    dsimp only
    rw [harbitrator]
    exact h.arbitrated
  version0 := by
    dsimp only
    rw [hversion]
    exact fun hv => ⟨hcached hv, (h.version0 hv).2⟩

/-- A request that is accepted. -/
theorem accept (h : TripsRecorded s) {p : PolicyIndex} {thresholds : TemperatureThresholds}
    (hversion : s.domain.version ≠ .v000) (hdversion : d.version = s.domain.version)
    (haux0 : thresholds.aux0 ≠ some Temperature.unspecified) (harbitrator : d.arbitrator =
      s.domain.arbitrator.updateTemperatureThresholdsRequestAndArbitrate p thresholds) :
    TripsRecorded
      { domain := d, live := Function.update s.live p (some thresholds), accepted := true,
        succeeded := true } where
  aux0 q := by
    dsimp only
    rw [harbitrator, update_requests]
    exact bind_assign h.aux0 p rfl q
  aux1 q := by
    dsimp only
    rw [harbitrator, update_requests]
    exact bind_assign h.aux1 p rfl q
  ranged q := by
    dsimp only
    by_cases hq : q = p
    · rw [hq, Function.update_self, Option.bind_some]
      exact haux0
    · rw [Function.update_of_ne hq]
      exact h.ranged q
  fresh hno := by cases hno
  arbitrated _ := by
    dsimp only
    rw [harbitrator, update_requests]
    exact update_arbitrated s.domain.arbitrator p thresholds
  version0 hv := absurd (hdversion.symm.trans hv) hversion

/-- A request that is removed. -/
theorem remove (h : TripsRecorded s) {p : PolicyIndex} {succeeded : Bool}
    {currentTemperature : Option Temperature} (hversion : d.version = s.domain.version)
    (hcached : d.cachedStatus = s.domain.cachedStatus)
    (hremove : s.domain.arbitrator.removeTemperatureThresholdsRequest p currentTemperature =
      some d.arbitrator) :
    TripsRecorded
      { s with domain := d, live := Function.update s.live p none, succeeded := succeeded } := by
  have hranged : ∀ q, (Function.update s.live p none q).bind TemperatureThresholds.aux0 ≠
      some Temperature.unspecified := by
    intro q
    by_cases hq : q = p
    · rw [hq, Function.update_self]
      exact nofun
    · rw [Function.update_of_ne hq]
      exact h.ranged q
  have hversion0 : d.version = .v000 → d.cachedStatus = none ∧ s.accepted = false := by
    rw [hversion, hcached]
    exact h.version0
  rcases remove_cases s.domain.arbitrator p currentTemperature with
    ⟨thresholds, hfind, heq⟩ | ⟨hfind, heq⟩
  · obtain heq := Option.some.inj (hremove.symm.trans heq)
    refine ⟨fun q => ?_, fun q => ?_, hranged, fun hno => ?_, fun _ => ?_, hversion0⟩
    · dsimp only
      rw [heq, update_requests]
      exact bind_assign h.aux0 p rfl q
    · dsimp only
      rw [heq, update_requests]
      exact bind_assign h.aux1 p rfl q
    · have hnone := ((h.fresh hno).2 p).1
      rw [hfind] at hnone
      cases hnone
    · dsimp only
      rw [heq, update_requests]
      exact update_arbitrated s.domain.arbitrator p .invalid
  · obtain heq := Option.some.inj (hremove.symm.trans heq)
    -- Nothing was recorded of the policy, so nothing of it lives.
    have hgone : ∀ (field : TemperatureThresholds → Option Temperature),
        (∀ q, (s.domain.arbitrator.temperatureThresholdsPolicyRequests.find q).bind field =
          (s.live q).bind field) → ∀ q,
        (s.domain.arbitrator.temperatureThresholdsPolicyRequests.find q).bind field =
          (Function.update s.live p none q).bind field := by
      intro field hfield q
      by_cases hq : q = p
      · rw [hq, Function.update_self, hfind]
      · rw [Function.update_of_ne hq, hfield q]
    refine ⟨?_, ?_, hranged, fun hno => ?_, fun hyes => ?_, hversion0⟩
    · dsimp only
      rw [heq]
      exact hgone _ h.aux0
    · dsimp only
      rw [heq]
      exact hgone _ h.aux1
    · dsimp only
      rw [heq]
      refine ⟨(h.fresh hno).1, fun q => ⟨((h.fresh hno).2 q).1, ?_⟩⟩
      by_cases hq : q = p
      · rw [hq, Function.update_self]
      · rw [Function.update_of_ne hq]
        exact ((h.fresh hno).2 q).2
    · dsimp only
      rw [heq]
      exact h.arbitrated hyes

/-- A removal from a control of version 0, which has no requests. -/
theorem remove_version0 (h : TripsRecorded s) (hversion : s.domain.version = .v000)
    (p : PolicyIndex) (succeeded : Bool) :
    TripsRecorded { s with live := Function.update s.live p none, succeeded := succeeded } := by
  have hlive := fun q => ((h.fresh (h.version0 hversion).2).2 q).2
  have hsame : Function.update s.live p none = s.live := by
    rw [← hlive p, Function.update_eq_self]
  rw [hsame]
  exact { h with }

/-- **Each request** keeps what is recorded. -/
theorem step (h : TripsRecorded s) (op : TemperatureOp) : TripsRecorded (s.step op) := by
  cases op with
  | setTemperatureThresholds p thresholds primitives =>
    obtain ⟨hversion, hversion0, hcases⟩ :=
      s.domain.handleSetTemperatureThresholds_spec p thresholds primitives
    rw [TripHistory.step]
    rcases hcases with ⟨hfailed, harbitrator⟩ | ⟨hsucceeded, haux0, harbitrator⟩
    · rw [hfailed, Bool.or_false]
      exact h.congr hversion harbitrator fun hv => (hversion0 hv (h.version0 hv).1).1
    · rw [hsucceeded, Bool.or_true]
      refine h.accept (fun hv => ?_) hversion haux0 harbitrator
      rw [(hversion0 hv (h.version0 hv).1).2] at hsucceeded
      cases hsucceeded
  | removePolicyRequests p primitives =>
    obtain ⟨hversion, hcached, hcases⟩ := s.domain.handleRemovePolicyRequests_spec p primitives
    rw [TripHistory.step]
    rcases hcases with ⟨hv, hsame⟩ | ⟨currentTemperature, hremove⟩
    · rw [hsame]
      exact h.remove_version0 hv p _
    · exact h.remove hversion hcached hremove
  | getTemperatureStatus primitives =>
    obtain ⟨hversion, harbitrator, hnone⟩ := s.domain.handleGetTemperatureStatus_spec primitives
    exact h.congr hversion harbitrator fun hv => (hnone hv (h.version0 hv).1).1
  | getTemperatureThresholds primitives =>
    obtain ⟨hversion, harbitrator, hcached⟩ :=
      s.domain.handleGetTemperatureThresholds_spec primitives
    exact h.congr hversion harbitrator fun hv => hcached.trans (h.version0 hv).1
  | clearCachedData => exact h.congr rfl rfl fun _ => rfl

end TripsRecorded

theorem tripsRecorded_run (version : TemperatureVersion) (supported : Bool)
    (ops : List TemperatureOp) : TripsRecorded (TripHistory.run version supported ops) := by
  induction ops using List.reverseRecOn with
  | nil => exact ⟨fun _ => rfl, fun _ => rfl, fun _ => nofun, fun _ => ⟨rfl, fun _ => ⟨rfl, rfl⟩⟩,
      nofun, fun _ => ⟨rfl, rfl⟩⟩
  | append_singleton ops op ih =>
    rw [TripHistory.run_concat]
    exact ih.step op

/-- **The arbitrated trips are those of the live requests** once a request was accepted, after every
history of sets and removals in which any read or write may fail. -/
theorem tripArbitration_run (version : TemperatureVersion) (supported : Bool)
    (ops : List TemperatureOp) : TripArbitration (TripHistory.run version supported ops) := by
  have hrecorded := tripsRecorded_run version supported ops
  refine ⟨fun hno => ?_, fun hyes => ?_, ?_⟩
  · exact ⟨(hrecorded.fresh hno).1, fun p => ((hrecorded.fresh hno).2 p).2⟩
  · have htrips := tripsOfLive_findNew hrecorded.aux0 hrecorded.aux1 hrecorded.ranged
    obtain ⟨haux0, haux1⟩ := hrecorded.arbitrated hyes
    exact ⟨haux0 ▸ htrips.aux0, haux1 ▸ htrips.aux1⟩
  · intro p thresholds currentTemperature hysteresis newArbitrated hnew
    rw [arbitrateTemperatureThresholdsRequest] at hnew
    split at hnew
    · cases hnew
    · rename_i haccepted
      obtain rfl := Option.some.inj hnew
      refine tripsOfLive_findNew (bind_assign hrecorded.aux0 p rfl)
        (bind_assign hrecorded.aux1 p rfl) fun q => ?_
      by_cases hq : q = p
      · rw [hq, Function.update_self, Option.bind_some]
        exact aux0_ne_unspecified (Bool.eq_false_iff.2 haccepted)
      · rw [Function.update_of_ne hq]
        exact hrecorded.ranged q

end Mgr

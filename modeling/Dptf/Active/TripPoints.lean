import Dptf.Lib.Window
import Dptf.Participant.FanArbitrators
import Dptf.Tables.Art
import Dptf.Thermal.SpecificInfo
import Mathlib.Data.Finset.Max
import Mathlib.Data.List.TakeWhile

/-!
# The trip points of the active policy

`ActivePolicy.cpp`.  The policy asks to be told when the temperature of a target leaves a window
between two trip points, and chooses a fan speed by the first trip point, in the order of the
keys, that the temperature has reached.  The lower end of the window is that trip point.  The
upper end is the *last* one above the temperature, which is the nearest one only if the trip
points descend.

* `activeWatches_iff` — **no decision is missed** but for such a table.
-/

open Lib

namespace Active

open Mgr (Percentage)
open Participant (fromWholeNumber)
open Tables (ActiveRelationshipTableEntry)
open Thermal

/-! ## The window and the decision -/

/-- `determineLowerTemperatureThreshold`: the first trip point that is reached. -/
def determineLowerTemperatureThreshold (currentTemperature : Temperature)
    (trips : List TripPoint) : Option Temperature :=
  (trips.find? fun trip => currentTemperature ≥ trip.2).map Prod.snd

/-- `determineUpperTemperatureThreshold`: the last supported trip point that is not reached. -/
def determineUpperTemperatureThreshold (currentTemperature : Temperature)
    (trips : List TripPoint) : Option Temperature :=
  trips.foldl (fun upperTemperatureThreshold trip =>
    if currentTemperature < trip.2 ∧ trip.2 ≠ Temperature.unsupported then some trip.2
    else upperTemperatureThreshold) none

/-- `findTripPointCrossed`; `none` is `Constants::Invalid`. -/
def findTripPointCrossed (trips : List TripPoint) (temperature : Temperature) : Option Nat :=
  (trips.find? fun trip => temperature ≥ trip.2).map fun trip => trip.1.acIndex

/-- `selectFanSpeed`: the speed at the index of the trip point or the next one that has one, and
zero if none has. -/
def selectFanSpeed (entry : ActiveRelationshipTableEntry) (trips : List TripPoint)
    (temperature : Temperature) : Option Percentage :=
  (findTripPointCrossed trips temperature).map fun crossedTripPointIndex =>
    match (entry.acEntries.toList.drop crossedTripPointIndex).find? fun ac => ac ≠ 0xFFFFFFFF with
    | some ac => fromWholeNumber ac.toNat
    | none => fromWholeNumber 0

/-- A table of trip points that has `AC0` to `AC9` only, which is what the policy asks for. -/
structure ActiveTripPoints extends SpecificInfo where
  isAc : ∀ trip ∈ specificInfo.entries, trip.1.IsAc

/-- The window that `setTripPointNotificationForTarget` sets. -/
def window (tripPoints : ActiveTripPoints) (temperature : Temperature) :
    Option Temperature × Option Temperature :=
  let trips := tripPoints.sortedTripPointsByKey
  (determineLowerTemperatureThreshold temperature trips,
    determineUpperTemperatureThreshold temperature trips)

/-! ## Tables that hide a trip point -/

/-- Behind a trip point comes a hotter one, and some temperature is below the first trip point and
all before it, but not below the supported ones behind the hotter one. -/
def HidesTripPoint (trips : List TripPoint) : Prop :=
  ∃ before hidden between hotter after,
    trips = before ++ hidden :: (between ++ hotter :: after) ∧
      hidden.2 < hotter.2 ∧ hotter.2.IsReading ∧
      ∀ trip ∈ before ++ [hidden], minValidTemperature < trip.2.1 ∧
        ∀ trip' ∈ after, trip'.2.IsReading → trip'.2 < trip.2

/-- The trip points that are not reached before the first that is. -/
def pending (trips : List TripPoint) (t : Temperature) : List TripPoint :=
  trips.takeWhile fun trip => t < trip.2

section Scan

variable {trips : List TripPoint} {t t' : Temperature}
variable {tripPoints : ActiveTripPoints}

/-- The trips are those not reached and, if one is reached, the first one and the others. -/
theorem exists_pending (trips : List TripPoint) (t : Temperature) :
    ∃ rest, trips = pending trips t ++ rest ∧ (∀ trip ∈ pending trips t, t < trip.2) ∧
      (rest = [] ∨ ∃ reached others, rest = reached :: others ∧ reached.2 ≤ t) := by
  refine ⟨trips.dropWhile fun trip => t < trip.2, List.takeWhile_append_dropWhile.symm,
    fun trip htrip => by simpa using List.mem_takeWhile_imp htrip, ?_⟩
  cases hdrop : trips.dropWhile fun trip => t < trip.2 with
  | nil => exact .inl rfl
  | cons reached others =>
    refine .inr ⟨reached, others, rfl, ?_⟩
    have hhead := List.head?_dropWhile_not (fun trip : TripPoint => decide (t < trip.2)) trips
    rw [hdrop] at hhead
    simpa using hhead

/-- The first trip point that is reached. -/
theorem find_eq_of_pending {before rest : List TripPoint} (hbefore : ∀ trip ∈ before, t < trip.2)
    (hrest : rest = [] ∨ ∃ reached others, rest = reached :: others ∧ reached.2 ≤ t) :
    (before ++ rest).find? (fun trip => decide (t ≥ trip.2)) = rest.head? := by
  rw [List.find?_append, List.find?_eq_none.mpr fun trip htrip => by
    simpa using hbefore trip htrip, Option.none_or]
  rcases hrest with rfl | ⟨reached, others, rfl, hle⟩
  · rfl
  · simp [hle]

/-- **In a table that hides none** a temperature below the upper end reaches no trip point before
the first one that is reached. -/
theorem pending_lt (hnot : ¬HidesTripPoint trips) (ht : t.IsReading) (ht' : t'.IsReading)
    (hupper : ∀ upper, determineUpperTemperatureThreshold t trips = some upper → t' < upper) :
    ∀ trip ∈ pending trips t, t' < trip.2 := by
  intro hidden hhidden
  by_contra hreached
  have hle : hidden.2 ≤ t' := not_lt.mp hreached
  have hreading : hidden.2.IsReading := .of_lt (hle.trans_lt ht'.lt_unsupported)
  obtain ⟨rest, htrips, hpending, -⟩ := exists_pending trips t
  have hbelow := hpending hidden hhidden
  have hmem : hidden ∈ trips := htrips ▸ List.mem_append_left rest hhidden
  cases hup : determineUpperTemperatureThreshold t trips with
  | none => exact foldl_last_eq_none hup hidden hmem ⟨hbelow, hreading⟩
  | some upper =>
    obtain ⟨front, hotter, after, hsplit, rfl, hhotter, hafter⟩ := foldl_last_eq_some hup
    have hlt : hidden.2 < hotter.2 := hle.trans_lt (hupper _ hup)
    obtain ⟨before, others, hbefore⟩ := List.append_of_mem hhidden
    have hfirst : ∀ trip ∈ before ++ [hidden], t < trip.2 := by
      intro trip htrip
      refine hpending trip ?_
      rw [hbefore, List.append_cons]
      exact List.mem_append_left others htrip
    have hposition : before ++ hidden :: (others ++ rest) = front ++ hotter :: after := by
      rw [← hsplit, htrips, hbefore, List.append_assoc, List.cons_append]
    rcases List.append_eq_append_iff.mp hposition with ⟨gap, hfront, hgap⟩ | ⟨gap, -, hgap⟩
    · cases gap with
      | nil =>
        obtain rfl := (List.cons.inj hgap).1
        exact lt_irrefl _ hlt
      | cons x between =>
        obtain ⟨rfl, hrest⟩ := List.cons.inj hgap
        refine hnot ⟨before, hidden, between, hotter, after, ?_, hlt, hhotter.2,
          fun trip htrip => ⟨?_, fun trip' htrip' hreading' => ?_⟩⟩
        · rw [hsplit, hfront, List.append_assoc, List.cons_append]
        · exact lt_of_le_of_lt ht.range.1 (hfirst trip htrip)
        · have hle' : trip'.2 ≤ t := by
            by_contra hlt'
            exact hafter trip' htrip' ⟨not_le.mp hlt', hreading'⟩
          exact hle'.trans_lt (hfirst trip htrip)
    · cases gap with
      | nil =>
        obtain rfl := (List.cons.inj hgap).1
        exact lt_irrefl _ hlt
      | cons x between =>
        obtain ⟨rfl, rfl⟩ := List.cons.inj hgap
        exact hafter hidden (by simp) ⟨hbelow, hreading⟩

/-- The window contains its temperature. -/
theorem inside_window (tripPoints : ActiveTripPoints) (t : Temperature) :
    Inside (window tripPoints t) t := by
  constructor
  · rintro lower hlower
    obtain ⟨trip, hfind, rfl⟩ := Option.map_eq_some_iff.mp hlower
    simpa using List.find?_some hfind
  · rintro upper hupper
    obtain ⟨before, trip, after, -, rfl, hlt, -⟩ := foldl_last_eq_some hupper
    exact hlt.1

/-- Then the first trip point that is reached is the same throughout the window. -/
theorem findTripPointCrossed_eq (hnot : ¬HidesTripPoint tripPoints.sortedTripPointsByKey)
    (ht : t.IsReading) (ht' : t'.IsReading) (hinside : Inside (window tripPoints t) t') :
    findTripPointCrossed tripPoints.sortedTripPointsByKey t' =
      findTripPointCrossed tripPoints.sortedTripPointsByKey t := by
  have hpending' := pending_lt hnot ht ht' hinside.2
  obtain ⟨rest, htrips, hpending, hrest⟩ := exists_pending tripPoints.sortedTripPointsByKey t
  have hfind := find_eq_of_pending hpending hrest
  rw [← htrips] at hfind
  have hrest' : rest = [] ∨ ∃ reached others, rest = reached :: others ∧ reached.2 ≤ t' := by
    rcases hrest with rfl | ⟨reached, others, rfl, -⟩
    · exact .inl rfl
    · refine .inr ⟨reached, others, rfl, hinside.1 reached.2 ?_⟩
      show Option.map _ _ = _
      rw [hfind]
      rfl
  have hfind' := find_eq_of_pending hpending' hrest'
  rw [← htrips] at hfind'
  unfold findTripPointCrossed
  rw [hfind, hfind']

/-- A first trip point that is reached is the one. -/
theorem find_eq_first {first : TripPoint} {trips : List TripPoint}
    (hfirst : trips.head? = some first) (hle : first.2 ≤ t) :
    trips.find? (fun trip => decide (t ≥ trip.2)) = some first := by
  obtain ⟨others, rfl⟩ := List.head?_eq_some_iff.mp hfirst
  rw [List.find?_cons_of_pos]
  exact decide_eq_true hle

/-- Where the first trip point is supported, so it is for the mark. -/
theorem findTripPointCrossed_eq_of_first (hnot : ¬HidesTripPoint tripPoints.sortedTripPointsByKey)
    (hsupported : ∀ first, tripPoints.sortedTripPointsByKey.head? = some first → first.2.IsReading)
    (hinside : Inside (window tripPoints t) t') :
    findTripPointCrossed tripPoints.sortedTripPointsByKey t' =
      findTripPointCrossed tripPoints.sortedTripPointsByKey t := by
  cases hhead : tripPoints.sortedTripPointsByKey.head? with
  | none =>
    rw [List.head?_eq_none_iff.mp hhead]
    rfl
  | some first =>
    -- with the mark on one of the two sides, the first trip point is reached on both
    have hboth (hle : first.2 ≤ t) : findTripPointCrossed tripPoints.sortedTripPointsByKey t' =
        findTripPointCrossed tripPoints.sortedTripPointsByKey t := by
      have hle' : first.2 ≤ t' := by
        refine hinside.1 first.2 ?_
        show Option.map _ _ = _
        rw [find_eq_first hhead hle]
        rfl
      unfold findTripPointCrossed
      rw [find_eq_first hhead hle, find_eq_first hhead hle']
    by_cases ht : t.IsReading
    · by_cases ht' : t'.IsReading
      · exact findTripPointCrossed_eq hnot ht ht' hinside
      · refine hboth (not_lt.mp fun hlt => ?_)
        cases hup : determineUpperTemperatureThreshold t tripPoints.sortedTripPointsByKey with
        | none =>
          exact foldl_last_eq_none hup first (List.mem_of_mem_head? hhead)
            ⟨hlt, hsupported first hhead⟩
        | some upper =>
          exact ht' (.of_lt (hinside.2 upper hup))
    · rw [not_not.mp ht] at hboth ⊢
      exact hboth first.2.le_unsupported

/-! ## A table that hides a trip point -/

/-- An entry whose fan runs at full speed at one index and not at the others. -/
def loudAt (index : Nat) : ActiveRelationshipTableEntry where
  sourceDeviceScope := []
  targetDeviceScope := []
  weight := 0
  acEntries := Vector.ofFn fun i => if i.1 = index then 100 else 0

/-- What the fan does there. -/
theorem find_loudAt {index i : Nat} (hi : i < 10) :
    ((loudAt index).acEntries.toList.drop i).find? (fun ac => ac ≠ 0xFFFFFFFF) =
      some (if i = index then 100 else 0) := by
  have hlength : i < (loudAt index).acEntries.toList.length := by simpa using hi
  have hget : (loudAt index).acEntries.toList[i] = if i = index then 100 else 0 := by
    simp [loudAt]
  rw [List.drop_eq_getElem_cons hlength, hget, List.find?_cons_of_pos]
  split <;> decide

/-- The trip points at the temperature of one of them are reached there or before. -/
theorem exists_find_of_mem {before : List TripPoint} {hidden : TripPoint} (after : List TripPoint)
    (hmem : hidden ∈ before) :
    ∃ reached ∈ before,
      (before ++ after).find? (fun trip => decide (hidden.2 ≥ trip.2)) = some reached := by
  have hsome : (before.find? fun trip => decide (hidden.2 ≥ trip.2)).isSome :=
    List.find?_isSome.mpr ⟨hidden, hmem, by simp⟩
  obtain ⟨reached, hreached⟩ := Option.isSome_iff_exists.mp hsome
  refine ⟨reached, List.mem_of_find?_eq_some hreached, ?_⟩
  rw [List.find?_append, hreached, Option.some_or]

/-- Where two temperatures reach a first trip point on two sides of the table, some fan runs at
another speed. -/
theorem exists_selectFanSpeed_ne {before after : List TripPoint}
    (hsplit : tripPoints.sortedTripPointsByKey = before ++ after) {reached : TripPoint}
    (hreached : reached ∈ before)
    (hfind' : tripPoints.sortedTripPointsByKey.find? (fun trip => decide (t' ≥ trip.2)) =
      some reached)
    (hfind : tripPoints.sortedTripPointsByKey.find? (fun trip => decide (t ≥ trip.2)) =
      after.find? fun trip => decide (t ≥ trip.2)) :
    ∃ entry, selectFanSpeed entry tripPoints.sortedTripPointsByKey t' ≠
      selectFanSpeed entry tripPoints.sortedTripPointsByKey t := by
  have hAc : ∀ trip ∈ tripPoints.sortedTripPointsByKey, trip.1.IsAc := fun trip htrip =>
    tripPoints.isAc trip (tripPoints.byKey_perm.subset htrip)
  have hreachedAc : reached.1.IsAc := hAc reached (hsplit ▸ List.mem_append_left _ hreached)
  refine ⟨loudAt reached.1.acIndex, ?_⟩
  unfold selectFanSpeed findTripPointCrossed
  rw [hfind', hfind]
  simp only [Option.map_some, find_loudAt (ParticipantSpecificInfoKey.acIndex_lt_ten hreachedAc),
    if_pos]
  cases hcross : after.find? fun trip => decide (t ≥ trip.2) with
  | none => simp
  | some crossed =>
    have hcrossed := List.mem_of_find?_eq_some hcross
    have hcrossedAc : crossed.1.IsAc := hAc crossed (hsplit ▸ List.mem_append_right _ hcrossed)
    have hkey : reached.1 < crossed.1 := by
      have hpairs := tripPoints.sortedTripPointsByKey_eq ▸ tripPoints.specificInfo.ascending
      rw [hsplit] at hpairs
      exact (List.pairwise_append.mp hpairs).2.2 reached hreached crossed hcrossed
    have hne := (ParticipantSpecificInfoKey.acIndex_lt hreachedAc hkey).ne'
    simp only [Option.map_some, find_loudAt (ParticipantSpecificInfoKey.acIndex_lt_ten hcrossedAc),
      if_neg hne]
    decide +kernel

/-- **A trip point that is hidden is missed**: some temperature has it inside its window, and some
fan runs at another speed from there on. -/
theorem exists_missed (h : HidesTripPoint tripPoints.sortedTripPointsByKey) :
    ∃ entry t t', Temperature.IsReading t ∧ Temperature.IsReading t' ∧
      Inside (window tripPoints t) t' ∧
      selectFanSpeed entry tripPoints.sortedTripPointsByKey t' ≠
        selectFanSpeed entry tripPoints.sortedTripPointsByKey t := by
  obtain ⟨before, hidden, between, hotter, after, htrips, hlt, hreading, hfirst⟩ := h
  -- a temperature just below the least of the trip points up to the hidden one
  obtain ⟨least, hleast, hmin⟩ := Finset.exists_min_image (before ++ [hidden]).toFinset Prod.snd
    ⟨hidden, by simp⟩
  rw [List.mem_toFinset] at hleast
  have hmin' : ∀ trip ∈ before ++ [hidden], least.2 ≤ trip.2 := fun trip htrip =>
    hmin trip (List.mem_toFinset.mpr htrip)
  have hleastHidden : least.2 ≤ hidden.2 := hmin' hidden (by simp)
  have hleastReading : least.2.IsReading := .of_lt (hleastHidden.trans_lt hlt)
  have hbound := (hfirst least hleast).1
  let t := least.2.pred hleastReading hbound
  have ht : t < least.2 := by
    rw [Temperature.lt_iff]
    simp only [t, Temperature.pred]
    omega
  have htReading : t.IsReading := .of_lt ht
  have htHidden : t < hidden.2 := ht.trans_le hleastHidden
  have hafter : ∀ trip ∈ after, ¬(t < trip.2 ∧ trip.2 ≠ Temperature.unsupported) := by
    rintro trip htrip ⟨hlt', hreading'⟩
    have hcool := (hfirst least hleast).2 trip htrip hreading'
    rw [Temperature.lt_iff] at hlt' hcool
    simp only [t, Temperature.pred] at hlt'
    omega
  -- the window around it ends at the hotter trip point
  have hupper : determineUpperTemperatureThreshold t tripPoints.sortedTripPointsByKey =
      some hotter.2 := by
    unfold determineUpperTemperatureThreshold
    rw [htrips, ← List.cons_append, ← List.append_assoc]
    exact foldl_last_append_cons ⟨htHidden.trans hlt, hreading⟩ hafter none
  have hinside : Inside (window tripPoints t) hidden.2 := by
    refine ⟨fun lower hlower => ?_, fun upper hup => ?_⟩
    · exact ((inside_window tripPoints t).1 lower hlower).trans htHidden.le
    · obtain rfl := Option.some.inj (hupper.symm.trans hup)
      exact hlt
  -- at the hidden trip point an earlier one is reached than at the temperature
  have hsplit : tripPoints.sortedTripPointsByKey =
      (before ++ [hidden]) ++ (between ++ hotter :: after) := by
    rw [htrips, List.append_assoc, List.singleton_append]
  obtain ⟨reached, hreached, hfind'⟩ := exists_find_of_mem (between ++ hotter :: after)
    (show hidden ∈ before ++ [hidden] by simp)
  have hfind : tripPoints.sortedTripPointsByKey.find? (fun trip => decide (t ≥ trip.2)) =
      (between ++ hotter :: after).find? fun trip => decide (t ≥ trip.2) := by
    rw [hsplit, List.find?_append, List.find?_eq_none.mpr fun trip htrip => ?_, Option.none_or]
    simpa using ht.trans_le (hmin' trip htrip)
  rw [← hsplit] at hfind'
  obtain ⟨entry, hne⟩ := exists_selectFanSpeed_ne hsplit hreached hfind' hfind
  exact ⟨entry, t, hidden.2, htReading, .of_lt hlt, hinside, hne⟩

/-- A first trip point that is not supported is missed by a temperature that is not one. -/
theorem exists_missed_unsupported {first : TripPoint}
    (hfirst : tripPoints.sortedTripPointsByKey.head? = some first)
    (hunsupported : ¬first.2.IsReading) :
    ∃ entry t t', Inside (window tripPoints t) t' ∧
      selectFanSpeed entry tripPoints.sortedTripPointsByKey t' ≠
        selectFanSpeed entry tripPoints.sortedTripPointsByKey t := by
  obtain ⟨others, htrips⟩ : ∃ others, tripPoints.sortedTripPointsByKey = [first] ++ others := by
    cases hcase : tripPoints.sortedTripPointsByKey with
    | nil => simp [hcase] at hfirst
    | cons x others =>
      rw [hcase] at hfirst
      exact ⟨others, by rw [Option.some.inj hfirst]; rfl⟩
  have hmark : first.2 = Temperature.unsupported := not_not.mp hunsupported
  have hnone : determineUpperTemperatureThreshold Temperature.greatest
      tripPoints.sortedTripPointsByKey = none := by
    refine foldl_last_of_forall_not (fun trip _ => ?_) none
    rintro ⟨hlt, hreading⟩
    exact absurd hlt (not_lt.mpr (Temperature.IsReading.le_greatest hreading))
  have hinside : Inside (window tripPoints Temperature.greatest) Temperature.unsupported := by
    refine ⟨fun lower _ => lower.le_unsupported, fun upper hupper => ?_⟩
    exact absurd (hnone.symm.trans hupper) (by simp)
  have hfind' : tripPoints.sortedTripPointsByKey.find?
      (fun trip => decide (Temperature.unsupported ≥ trip.2)) = some first := by
    rw [htrips]
    simp [first.2.le_unsupported]
  have hfind : tripPoints.sortedTripPointsByKey.find?
      (fun trip => decide (Temperature.greatest ≥ trip.2)) =
      others.find? fun trip => decide (Temperature.greatest ≥ trip.2) := by
    rw [htrips, List.singleton_append, List.find?_cons_of_neg]
    rw [hmark]
    decide
  obtain ⟨entry, hne⟩ :=
    exists_selectFanSpeed_ne htrips (List.mem_singleton_self first) hfind' hfind
  exact ⟨entry, _, _, hinside, hne⟩

end Scan

/-- **In which tables the active policy misses no decision**: those that hide no trip point. -/
theorem activeWatches_iff (tripPoints : ActiveTripPoints) :
    (∀ entry, Watches Temperature.IsReading (window tripPoints)
        (selectFanSpeed entry tripPoints.sortedTripPointsByKey)) ↔
      ¬HidesTripPoint tripPoints.sortedTripPointsByKey := by
  constructor
  · intro h hhides
    obtain ⟨entry, t, t', ht, ht', hinside, hne⟩ := exists_missed hhides
    exact hne ((h entry t ht).2 t' ht' hinside)
  · intro hnot entry t ht
    refine ⟨inside_window tripPoints t, fun t' ht' hinside => ?_⟩
    unfold selectFanSpeed
    rw [findTripPointCrossed_eq hnot ht ht' hinside]

/-- The mark counted as a temperature, the first trip point has to be supported too. -/
theorem activeWatches_all_iff (tripPoints : ActiveTripPoints) :
    (∀ entry, Watches (fun _ => True) (window tripPoints)
        (selectFanSpeed entry tripPoints.sortedTripPointsByKey)) ↔
      ¬HidesTripPoint tripPoints.sortedTripPointsByKey ∧
      ∀ first, tripPoints.sortedTripPointsByKey.head? = some first → first.2.IsReading := by
  constructor
  · intro h
    refine ⟨fun hhides => ?_, fun first hfirst => ?_⟩
    · obtain ⟨entry, t, t', -, -, hinside, hne⟩ := exists_missed hhides
      exact hne ((h entry t trivial).2 t' trivial hinside)
    · by_contra hunsupported
      obtain ⟨entry, t, t', hinside, hne⟩ := exists_missed_unsupported hfirst hunsupported
      exact hne ((h entry t trivial).2 t' trivial hinside)
  · rintro ⟨hnot, hfirst⟩ entry t -
    refine ⟨inside_window tripPoints t, fun t' _ hinside => ?_⟩
    unfold selectFanSpeed
    rw [findTripPointCrossed_eq_of_first hnot hfirst hinside]

end Active

import Dptf.Lib.KeyMap
import Mathlib.Data.List.Sort
import Mathlib.Algebra.Group.Nat.Defs

/-!
# Trip points of a participant

`SpecificInfo.cpp` and `Temperature.cpp`.  A participant reports temperatures under keys; the
policies look at them in the order of the keys or in that of the temperatures.
-/

open Lib

namespace Thermal

/-! ## Temperatures -/

/-- `Constants::MaxUInt32`, which stands for a trip point that is not supported. -/
def maxUInt32 : Nat := 2 ^ 32 - 1

/-- `minValidTemperature`, in tenths of a kelvin. -/
def minValidTemperature : Nat := 1372

/-- `maxValidTemperature`. -/
def maxValidTemperature : Nat := 4732

/-- A `Temperature` that is valid: the constructor throws for any other number. -/
def Temperature : Type :=
  { tenthKelvin : Nat //
    minValidTemperature ≤ tenthKelvin ∧ tenthKelvin ≤ maxValidTemperature ∨
      tenthKelvin = maxUInt32 }

instance : LinearOrder Temperature :=
  inferInstanceAs (LinearOrder { tenthKelvin : Nat //
    minValidTemperature ≤ tenthKelvin ∧ tenthKelvin ≤ maxValidTemperature ∨
      tenthKelvin = maxUInt32 })

namespace Temperature

variable {s t : Temperature}

/-- 50 °C is valid. -/
theorem valid_fifty :
    minValidTemperature ≤ 3232 ∧ 3232 ≤ maxValidTemperature ∨ 3232 = maxUInt32 := by decide

/-- So is 60 °C. -/
theorem valid_sixty :
    minValidTemperature ≤ 3332 ∧ 3332 ≤ maxValidTemperature ∨ 3332 = maxUInt32 := by decide

/-- `Temperature(Constants::MaxUInt32)`. -/
def unsupported : Temperature := ⟨maxUInt32, .inr rfl⟩

/-- It is a temperature, and not the mark of none. -/
def IsReading (t : Temperature) : Prop := t ≠ unsupported

instance (t : Temperature) : Decidable t.IsReading := inferInstanceAs (Decidable (t ≠ unsupported))

theorem lt_iff : s < t ↔ s.1 < t.1 := Iff.rfl

theorem le_iff : s ≤ t ↔ s.1 ≤ t.1 := Iff.rfl

theorem IsReading.range (h : t.IsReading) : minValidTemperature ≤ t.1 ∧ t.1 ≤ maxValidTemperature :=
  t.2.resolve_right fun heq => h (Subtype.ext heq)

theorem IsReading.lt_unsupported (h : t.IsReading) : t < unsupported := by
  have hmax := h.range.2
  rw [lt_iff]
  simp only [maxValidTemperature] at hmax
  simp only [unsupported, maxUInt32]
  omega

/-- What is below a temperature that may be unsupported is a reading. -/
theorem IsReading.of_lt (h : s < t) : s.IsReading := by
  rintro rfl
  rw [lt_iff] at h
  rcases t.2 with ⟨-, hmax⟩ | hmax
  · simp only [unsupported, maxUInt32, maxValidTemperature] at h hmax
    omega
  · rw [hmax] at h
    exact lt_irrefl _ h

theorem le_unsupported (t : Temperature) : t ≤ unsupported := by
  rw [le_iff]
  rcases t.2 with ⟨-, hmax⟩ | hmax
  · simp only [maxValidTemperature] at hmax
    simp only [unsupported, maxUInt32]
    omega
  · exact hmax.le

/-- The greatest one that is a temperature. -/
def greatest : Temperature := ⟨maxValidTemperature, .inl (by decide)⟩

theorem IsReading.le_greatest (h : t.IsReading) : t ≤ greatest :=
  le_iff.mpr h.range.2

/-- The temperature just below another one, which is not the least. -/
def pred (t : Temperature) (h : t.IsReading) (hmin : minValidTemperature < t.1) : Temperature :=
  ⟨t.1 - 1, .inl ⟨by omega, by have := h.range.2; omega⟩⟩

end Temperature

/-! ## Keys -/

/-- `ParticipantSpecificInfoKey::Type`, but for the number of the keys. -/
inductive ParticipantSpecificInfoKey
  | none | warm | hot | critical
  | ac0 | ac1 | ac2 | ac3 | ac4 | ac5 | ac6 | ac7 | ac8 | ac9
  | psv | ntt
deriving DecidableEq, Repr

namespace ParticipantSpecificInfoKey

variable {k k' : ParticipantSpecificInfoKey}

/-- The number of a key. -/
def toNat (key : ParticipantSpecificInfoKey) : Nat := key.ctorIdx

theorem toNat_injective (h : k.toNat = k'.toNat) : k = k' := by
  revert h
  cases k <;> cases k' <;> decide

instance : LinearOrder ParticipantSpecificInfoKey :=
  LinearOrder.lift' toNat fun _ _ => toNat_injective

/-- `key - ParticipantSpecificInfoKey::AC0`. -/
def acIndex (key : ParticipantSpecificInfoKey) : Nat := key.toNat - ac0.toNat

/-- One of `AC0` to `AC9`. -/
def IsAc (key : ParticipantSpecificInfoKey) : Prop := ac0 ≤ key ∧ key ≤ ac9

instance (key : ParticipantSpecificInfoKey) : Decidable key.IsAc :=
  inferInstanceAs (Decidable (_ ∧ _))

theorem le_iff : k ≤ k' ↔ k.toNat ≤ k'.toNat := Iff.rfl

theorem lt_iff : k < k' ↔ k.toNat < k'.toNat := Iff.rfl

/-- The index of a key from `AC0` on grows with it. -/
theorem acIndex_lt (h : k.IsAc) (hlt : k < k') : k.acIndex < k'.acIndex := by
  have hac := le_iff.mp h.1
  have hlt' := lt_iff.mp hlt
  unfold acIndex
  omega

theorem acIndex_lt_ten (h : k.IsAc) : k.acIndex < 10 := by
  have hac := le_iff.mp h.2
  have hnine : ac9.toNat = ac0.toNat + 9 := rfl
  unfold acIndex
  omega

end ParticipantSpecificInfoKey

/-! ## Tables of trip points -/

/-- A trip point and its key. -/
abbrev TripPoint := ParticipantSpecificInfoKey × Temperature

/-- `SpecificInfo`: the map and the two vectors made of it.  Where temperatures are equal,
`std::sort` may leave them in any order. -/
structure SpecificInfo where
  specificInfo : KeyMap ParticipantSpecificInfoKey Temperature
  sortedTripPointsByKey : List TripPoint
  sortedTripPointsByValue : List TripPoint
  byKey_perm : sortedTripPointsByKey.Perm specificInfo.entries
  byKey_sorted : sortedTripPointsByKey.Pairwise fun a b => a.1 ≤ b.1
  byValue_perm : sortedTripPointsByValue.Perm specificInfo.entries
  byValue_sorted : sortedTripPointsByValue.Pairwise fun a b => a.2 ≤ b.2

namespace SpecificInfo

/-- `compareTripPointsOnKey`, as sorting uses it. -/
def keyLe (a b : TripPoint) : Bool := decide (a.1 ≤ b.1)

/-- `compareTripPointsOnTemperature`, as sorting uses it. -/
def temperatureLe (a b : TripPoint) : Bool := decide (a.2 ≤ b.2)

/-- A table with its vectors, sorted in one of the ways there are. -/
def ofMap (specificInfo : KeyMap ParticipantSpecificInfoKey Temperature) : SpecificInfo where
  specificInfo := specificInfo
  sortedTripPointsByKey := specificInfo.entries.mergeSort keyLe
  sortedTripPointsByValue := specificInfo.entries.mergeSort temperatureLe
  byKey_perm := List.mergeSort_perm _ _
  byKey_sorted := by
    refine (List.pairwise_mergeSort (fun a b c hab hbc => ?_) (fun a b => ?_) _).imp
      fun hab => of_decide_eq_true hab
    · exact decide_eq_true ((of_decide_eq_true hab).trans (of_decide_eq_true hbc))
    · simp only [Bool.or_eq_true, decide_eq_true_eq]
      exact le_total a.1 b.1
  byValue_perm := List.mergeSort_perm _ _
  byValue_sorted := by
    refine (List.pairwise_mergeSort (fun a b c hab hbc => ?_) (fun a b => ?_) _).imp
      fun hab => of_decide_eq_true hab
    · exact decide_eq_true ((of_decide_eq_true hab).trans (of_decide_eq_true hbc))
    · simp only [Bool.or_eq_true, decide_eq_true_eq]
      exact le_total a.2 b.2

variable (info : SpecificInfo)

/-- **Sorting by key changes nothing**: the map is in that order, and no key is in it twice. -/
theorem sortedTripPointsByKey_eq : info.sortedTripPointsByKey = info.specificInfo.entries := by
  refine info.byKey_perm.eq_of_pairwise (fun a b ha hb hab hba => ?_) info.byKey_sorted
    (info.specificInfo.ascending.imp le_of_lt)
  obtain ⟨key, temperature⟩ := a
  obtain ⟨key', temperature'⟩ := b
  obtain rfl : key = key' := le_antisymm hab hba
  have hfind := (info.specificInfo.mem_entries_iff _ _).1 (info.byKey_perm.subset ha)
  rw [(info.specificInfo.mem_entries_iff _ _).1 hb] at hfind
  rw [Option.some.inj hfind]

end SpecificInfo

end Thermal

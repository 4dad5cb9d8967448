import Mathlib.Order.Basic
import Mathlib.Order.Bounds.Basic
import Mathlib.Order.Defs.LinearOrder
import Mathlib.Data.List.Basic

/-!
# Maps in the order of their keys

A map as its entries, strictly ascending by key, as `std::map` iterates over them.
-/

namespace Lib

section KeyMap

/-- A map, its entries ascending by key. -/
structure KeyMap (K V : Type) [LinearOrder K] where
  entries : List (K × V)
  ascending : entries.Pairwise fun a b => a.1 < b.1

variable {K V : Type} [LinearOrder K]

namespace KeyMap

variable {k k' : K}

/-- The map without entries. -/
def empty : KeyMap K V := ⟨[], List.Pairwise.nil⟩

/-- The value of a key. -/
def find (m : KeyMap K V) (k : K) : Option V := m.entries.lookup k

/-- The entries with the value of a key set. -/
def assignEntries (k : K) (v : V) : List (K × V) → List (K × V)
  | [] => [(k, v)]
  | e :: es =>
    if k < e.1 then (k, v) :: e :: es
    else if k = e.1 then (k, v) :: es
    else e :: assignEntries k v es

theorem mem_assignEntries {v : V} {es : List (K × V)} {e : K × V} (h : e ∈ assignEntries k v es) :
    e = (k, v) ∨ e ∈ es := by
  induction es with
  | nil => simpa [assignEntries] using h
  | cons e' es ih =>
    rw [assignEntries] at h
    split_ifs at h
    · simpa using h
    · rcases List.mem_cons.1 h with rfl | h
      · exact Or.inl rfl
      · exact Or.inr (List.mem_cons_of_mem _ h)
    · rcases List.mem_cons.1 h with rfl | h
      · exact Or.inr (List.mem_cons_self ..)
      · exact (ih h).imp_right (List.mem_cons_of_mem _)

theorem pairwise_assignEntries (k : K) (v : V) {es : List (K × V)}
    (h : es.Pairwise fun a b => a.1 < b.1) :
    (assignEntries k v es).Pairwise fun a b => a.1 < b.1 := by
  induction es with
  | nil => simp [assignEntries]
  | cons e es ih =>
    obtain ⟨hhead, htail⟩ := List.pairwise_cons.1 h
    rw [assignEntries]
    split_ifs with hlt heq
    · refine List.pairwise_cons.2 ⟨fun e' he' => ?_, h⟩
      rcases List.mem_cons.1 he' with rfl | he'
      · exact hlt
      · exact hlt.trans (hhead e' he')
    · exact List.pairwise_cons.2 ⟨fun e' he' => heq ▸ hhead e' he', htail⟩
    · refine List.pairwise_cons.2 ⟨fun e' he' => ?_, ih htail⟩
      rcases mem_assignEntries he' with rfl | he'
      · exact lt_of_le_of_ne (not_lt.1 hlt) (Ne.symm heq)
      · exact hhead e' he'

/-- The map with the value of a key set. -/
def assign (m : KeyMap K V) (k : K) (v : V) : KeyMap K V :=
  ⟨assignEntries k v m.entries, pairwise_assignEntries k v m.ascending⟩

/-- The map without a key. -/
def erase (m : KeyMap K V) (k : K) : KeyMap K V :=
  ⟨m.entries.filter fun e => e.1 ≠ k, m.ascending.sublist List.filter_sublist⟩

/-- Whether the map has no entries. -/
def isEmpty (m : KeyMap K V) : Bool := m.entries.isEmpty

/-- The map with each value replaced. -/
def mapValues {W : Type} (f : V → W) (m : KeyMap K V) : KeyMap K W :=
  ⟨m.entries.map fun e => (e.1, f e.2), List.pairwise_map.2 m.ascending⟩

/-- The values in the order of the keys. -/
def values (m : KeyMap K V) : List V := m.entries.map Prod.snd

@[simp] theorem find_empty (k : K) : (empty : KeyMap K V).find k = none := rfl

theorem lookup_cons_eq_ite (k : K) (e : K × V) (es : List (K × V)) :
    (e :: es).lookup k = if k = e.1 then some e.2 else es.lookup k := by
  rw [List.lookup_cons]
  by_cases h : k = e.1
  · rw [if_pos h, beq_iff_eq.2 h]
  · rw [if_neg h, beq_false_of_ne h]

theorem find_mapValues {W : Type} (f : V → W) (m : KeyMap K V) (k : K) :
    (m.mapValues f).find k = (m.find k).map f := by
  have h : ∀ es : List (K × V), (es.map fun e => (e.1, f e.2)).lookup k = (es.lookup k).map f := by
    intro es
    induction es with
    | nil => rfl
    | cons e es ih =>
      rw [List.map_cons, lookup_cons_eq_ite, lookup_cons_eq_ite, ih]
      split_ifs <;> rfl
  exact h m.entries

theorem find_cons (e : K × V) (es : List (K × V))
    (h : (e :: es).Pairwise fun a b => a.1 < b.1) (k : K) :
    (⟨e :: es, h⟩ : KeyMap K V).find k =
      if k = e.1 then some e.2 else (⟨es, (List.pairwise_cons.1 h).2⟩ : KeyMap K V).find k :=
  lookup_cons_eq_ite k e es

theorem lookup_assignEntries (k : K) (v : V) (k' : K) (es : List (K × V)) :
    (assignEntries k v es).lookup k' = if k' = k then some v else es.lookup k' := by
  induction es with
  | nil => rw [assignEntries, lookup_cons_eq_ite]
  | cons e es ih =>
    rw [assignEntries]
    by_cases hlt : k < e.1
    · rw [if_pos hlt, lookup_cons_eq_ite]
    · rw [if_neg hlt]
      by_cases heq : k = e.1
      · rw [if_pos heq, lookup_cons_eq_ite, lookup_cons_eq_ite, ← heq]
        split_ifs <;> rfl
      · rw [if_neg heq, lookup_cons_eq_ite, ih, lookup_cons_eq_ite]
        by_cases hk : k' = k
        · rw [if_pos hk, if_pos hk, if_neg (hk ▸ heq)]
        · rw [if_neg hk, if_neg hk]

theorem find_assign (m : KeyMap K V) (k : K) (v : V) (k' : K) :
    (m.assign k v).find k' = if k' = k then some v else m.find k' :=
  lookup_assignEntries k v k' m.entries

theorem find_erase (m : KeyMap K V) (k k' : K) :
    (m.erase k).find k' = if k' = k then none else m.find k' := by
  have h : ∀ es : List (K × V), (es.filter fun e => e.1 ≠ k).lookup k' =
      if k' = k then none else es.lookup k' := by
    intro es
    induction es with
    | nil => simp
    | cons e es ih =>
      by_cases hk : e.1 = k
      · rw [List.filter_cons_of_neg (by simpa using hk), ih, lookup_cons_eq_ite]
        split_ifs with h₁ h₂
        · rfl
        · exact absurd (h₂.trans hk) h₁
        · rfl
      · rw [List.filter_cons_of_pos (by simpa using hk), lookup_cons_eq_ite, ih, lookup_cons_eq_ite]
        split_ifs with h₁ h₂
        · exact absurd (h₁.symm.trans h₂) hk
        · rfl
        · rfl
        · rfl
  exact h m.entries

theorem mem_entries_iff (m : KeyMap K V) (k : K) (v : V) :
    (k, v) ∈ m.entries ↔ m.find k = some v := by
  have h : ∀ es : List (K × V), es.Pairwise (fun a b => a.1 < b.1) →
      ((k, v) ∈ es ↔ es.lookup k = some v) := by
    intro es hes
    induction es with
    | nil => simp
    | cons e es ih =>
      obtain ⟨hhead, htail⟩ := List.pairwise_cons.1 hes
      rw [lookup_cons_eq_ite, List.mem_cons]
      split_ifs with hk
      · constructor
        · rintro (rfl | hmem)
          · rfl
          · exact absurd (hhead _ hmem) (hk ▸ lt_irrefl _)
        · intro hv
          left
          rw [hk, ← Option.some.inj hv]
      · rw [← ih htail, or_iff_right]
        rintro rfl
        exact hk rfl
  exact h m.entries m.ascending

theorem mem_values_iff (m : KeyMap K V) (v : V) : v ∈ m.values ↔ ∃ k, m.find k = some v := by
  rw [values, List.mem_map]
  constructor
  · rintro ⟨⟨k, v'⟩, hmem, rfl⟩
    exact ⟨k, (m.mem_entries_iff k v').1 hmem⟩
  · rintro ⟨k, hk⟩
    exact ⟨(k, v), (m.mem_entries_iff k v).2 hk, rfl⟩

/-- Maps in which the same is found are the same. -/
theorem ext_find {m m' : KeyMap K V} (h : ∀ k, m.find k = m'.find k) : m = m' := by
  have hmem : ∀ e, e ∈ m.entries ↔ e ∈ m'.entries := by
    rintro ⟨k, v⟩
    rw [mem_entries_iff, mem_entries_iff, h]
  have hnodup : ∀ es : List (K × V), es.Pairwise (fun a b => a.1 < b.1) → es.Nodup := by
    intro es hes
    refine List.Pairwise.imp (fun {a b} (hlt : a.1 < b.1) heq => ?_) hes
    rw [heq] at hlt
    exact lt_irrefl b.1 hlt
  have hperm : m.entries.Perm m'.entries :=
    (List.perm_ext_iff_of_nodup (hnodup _ m.ascending) (hnodup _ m'.ascending)).2 hmem
  have hentries : m.entries = m'.entries :=
    hperm.eq_of_pairwise (fun a b _ _ hab hba => absurd hab hba.asymm) m.ascending m'.ascending
  cases m
  cases m'
  cases hentries
  rfl

/-! What is erased might as well not have been assigned. -/

theorem erase_assign_self (m : KeyMap K V) (k : K) (v : V) : (m.assign k v).erase k = m.erase k := by
  apply ext_find
  intro k'
  rw [find_erase, find_erase, find_assign]
  split_ifs <;> rfl

theorem erase_erase_self (m : KeyMap K V) (k : K) : (m.erase k).erase k = m.erase k := by
  apply ext_find
  intro k'
  rw [find_erase, find_erase]
  split_ifs <;> rfl

theorem erase_assign_of_ne (m : KeyMap K V) (h : k ≠ k') (v : V) :
    (m.assign k v).erase k' = (m.erase k').assign k v := by
  apply ext_find
  intro k''
  rw [find_erase, find_assign, find_assign, find_erase]
  by_cases hk : k'' = k
  · rw [if_pos hk, if_pos hk, if_neg (hk ▸ h)]
  · rw [if_neg hk, if_neg hk]

theorem erase_comm (m : KeyMap K V) (k k' : K) : (m.erase k).erase k' = (m.erase k').erase k := by
  apply ext_find
  intro k''
  rw [find_erase, find_erase, find_erase, find_erase]
  split_ifs <;> rfl

theorem find_erase_of_ne (m : KeyMap K V) (h : k' ≠ k) : (m.erase k).find k' = m.find k' := by
  rw [find_erase, if_neg h]

/-- What is found in a map of maps after a value was assigned to a pair of keys. -/
theorem find_assign_getD {L W : Type} [LinearOrder L] (m : KeyMap K (KeyMap L W)) (k : K) (l : L)
    (w : W) (k' : K) (l' : L) :
    ((m.assign k (((m.find k).getD empty).assign l w)).find k').bind (fun row => row.find l') =
      if k' = k ∧ l' = l then some w else (m.find k').bind fun row => row.find l' := by
  rw [find_assign]
  by_cases hk : k' = k
  · subst hk
    rw [if_pos rfl, Option.bind_some, find_assign]
    by_cases hl : l' = l
    · rw [if_pos hl, if_pos ⟨rfl, hl⟩]
    · rw [if_neg hl, if_neg (fun h => hl h.2)]
      cases m.find k' <;> rfl
  · rw [if_neg hk, if_neg (fun h => hk h.1)]

theorem erase_eq_self {m : KeyMap K V} (h : m.find k = none) : m.erase k = m := by
  apply ext_find
  intro k'
  rw [find_erase]
  split_ifs with hk
  · rw [hk, h]
  · rfl

theorem assignEntries_of_gt {v : V} {es : List (K × V)} (h : ∀ e ∈ es, e.1 < k) :
    assignEntries k v es = es ++ [(k, v)] := by
  induction es with
  | nil => rfl
  | cons e es ih =>
    have hlt : e.1 < k := h e (List.mem_cons_self ..)
    rw [assignEntries, if_neg hlt.asymm, if_neg hlt.ne', List.cons_append,
      ih fun e' he' => h e' (List.mem_cons_of_mem _ he')]

/-- The value of a key above all others comes last. -/
theorem values_assign_of_gt {m : KeyMap K V} {v : V} (h : ∀ k' v', m.find k' = some v' → k' < k) :
    (m.assign k v).values = m.values ++ [v] := by
  have hgt : ∀ e ∈ m.entries, e.1 < k := by
    rintro ⟨k', v'⟩ he
    exact h k' v' ((m.mem_entries_iff k' v').1 he)
  show (assignEntries k v m.entries).map Prod.snd = _
  rw [assignEntries_of_gt hgt, List.map_append]
  rfl

theorem isEmpty_iff (m : KeyMap K V) : m.isEmpty ↔ ∀ k, m.find k = none := by
  rw [isEmpty, List.isEmpty_iff]
  constructor
  · intro h k
    rw [find, h]
    rfl
  · intro h
    rw [List.eq_nil_iff_forall_not_mem]
    rintro ⟨k, v⟩ hmem
    rw [m.mem_entries_iff, h k] at hmem
    contradiction

/-! What holds of all values of a map. -/

/-- All values of a map satisfy a condition. -/
def AllValues (P : V → Prop) (m : KeyMap K V) : Prop := ∀ k v, m.find k = some v → P v

section AllValues

variable {P : V → Prop} {m : KeyMap K V}

theorem allValues_empty : AllValues P (empty : KeyMap K V) := by
  intro k v h
  cases h

theorem AllValues.assign (h : m.AllValues P) (k : K) {v : V} (hv : P v) :
    (m.assign k v).AllValues P := by
  intro k' v' hfind
  rw [find_assign] at hfind
  split_ifs at hfind with hk
  · exact Option.some.inj hfind ▸ hv
  · exact h k' v' hfind

theorem AllValues.erase (h : m.AllValues P) (k : K) : (m.erase k).AllValues P := by
  intro k' v' hfind
  rw [find_erase] at hfind
  split_ifs at hfind with hk
  exact h k' v' hfind

theorem AllValues.mapValues {W : Type} {Q : W → Prop} {f : V → W} (h : m.AllValues P)
    (hf : ∀ v, P v → Q (f v)) : (m.mapValues f).AllValues Q := by
  intro k w hfind
  rw [find_mapValues] at hfind
  obtain ⟨v, hv, rfl⟩ := Option.map_eq_some_iff.1 hfind
  exact hf v (h k v hv)

end AllValues

end KeyMap

end KeyMap

/-! ## The least of some values -/

section Lowest

variable {V : Type} [LinearOrder V]

/-- One turn of the loop that keeps the least value. -/
def keepLower (lowest : Option V) (v : V) : Option V :=
  match lowest with
  | none => some v
  | some l => if v < l then some v else some l

/-- The least of some values; none, if there are none. -/
def lowest (vs : List V) : Option V := vs.foldl keepLower none

theorem foldl_keepLower_some (l : V) (vs : List V) :
    ∃ v, vs.foldl keepLower (some l) = some v ∧ (v = l ∨ v ∈ vs) ∧ v ≤ l ∧ ∀ w ∈ vs, v ≤ w := by
  induction vs generalizing l with
  | nil => exact ⟨l, rfl, Or.inl rfl, le_refl l, by simp⟩
  | cons w ws ih =>
    rw [List.foldl_cons, keepLower]
    split_ifs with hlt
    · obtain ⟨v, hv, hmem, hle, hall⟩ := ih w
      refine ⟨v, hv, Or.inr ?_, hle.trans hlt.le, ?_⟩
      · exact List.mem_cons.2 hmem
      · intro u hu
        rcases List.mem_cons.1 hu with rfl | hu
        · exact hle
        · exact hall u hu
    · obtain ⟨v, hv, hmem, hle, hall⟩ := ih l
      refine ⟨v, hv, hmem.imp_right (List.mem_cons_of_mem _), hle, ?_⟩
      intro u hu
      rcases List.mem_cons.1 hu with rfl | hu
      · exact hle.trans (not_lt.1 hlt)
      · exact hall u hu

theorem lowest_eq_none_iff (vs : List V) : lowest vs = none ↔ vs = [] := by
  cases vs with
  | nil => exact iff_of_true rfl rfl
  | cons w ws =>
    obtain ⟨v, hv, -⟩ := foldl_keepLower_some w ws
    rw [lowest, List.foldl_cons, keepLower, hv]
    simp

theorem lowest_eq_some_iff (vs : List V) (v : V) :
    lowest vs = some v ↔ v ∈ vs ∧ ∀ w ∈ vs, v ≤ w := by
  cases vs with
  | nil => simp [lowest]
  | cons w ws =>
    obtain ⟨u, hu, hmem, hle, hall⟩ := foldl_keepLower_some w ws
    have hleast : ∀ x ∈ w :: ws, u ≤ x := by
      intro x hx
      rcases List.mem_cons.1 hx with rfl | hx
      · exact hle
      · exact hall x hx
    rw [lowest, List.foldl_cons, keepLower, hu, Option.some.injEq]
    constructor
    · rintro rfl
      exact ⟨List.mem_cons.2 hmem, hleast⟩
    · rintro ⟨hv, hvle⟩
      exact le_antisymm (hleast v hv) (hvle u (List.mem_cons.2 hmem))

end Lowest

end Lib

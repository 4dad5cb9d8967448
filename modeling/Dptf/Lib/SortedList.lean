import Dptf.Lib.BinarySearch
import Mathlib.Algebra.GroupWithZero.Nat

/-!
# Lists sorted by a key

A map kept as a list, strictly ascending by the key of its elements and searched
by bisection.
-/

namespace Lib

section SortedList

variable {α κ : Type*} [Ord κ] (key : α → κ)

/-- Strictly ascending by key. -/
def Ascending (xs : List α) : Prop := xs.Pairwise fun a b => compare (key a) (key b) = .lt

/-- The search for a key. -/
def slot (k : κ) (xs : List α) : Search := binarySearch (fun x => compare k (key x)) xs

/-- The element with the key. -/
def lookup (k : κ) (xs : List α) : Option α :=
  match slot key k xs with
  | .found node => xs[node]?
  | .missing _ => none

/-- Put an element where the search for its key ends. -/
def insertKey (x : α) (xs : List α) : List α :=
  let node := (slot key (key x) xs).node
  xs.take node ++ x :: xs.drop node

/-- Change the element with the key in place. -/
def modifyKey (k : κ) (f : α → α) (xs : List α) : List α :=
  match slot key k xs with
  | .found node => xs.modify node f
  | .missing _ => xs

/-- Take out the element with the key. -/
def eraseKey (k : κ) (xs : List α) : List α :=
  match slot key k xs with
  | .found node => xs.eraseIdx node
  | .missing _ => xs

variable {key}

theorem Ascending.sublist {xs ys : List α} (h : Ascending key ys) (hsub : xs.Sublist ys) :
    Ascending key xs := List.Pairwise.sublist hsub h

/-- An element may be changed as long as its key is not. -/
theorem Ascending.replace {before after : List α} {x y : α}
    (h : Ascending key (before ++ x :: after)) (hkey : key y = key x) :
    Ascending key (before ++ y :: after) := by
  obtain ⟨hl, hr, hlr⟩ := List.pairwise_append.mp h
  obtain ⟨hx, hr⟩ := List.pairwise_cons.mp hr
  refine List.pairwise_append.mpr ⟨hl, List.pairwise_cons.mpr ⟨?_, hr⟩, ?_⟩
  · intro b hb
    rw [hkey]
    exact hx b hb
  · intro a ha b hb
    rcases List.mem_cons.mp hb with rfl | hb
    · rw [hkey]
      exact hlr a ha x (by simp)
    · exact hlr a ha b (by simp [hb])

/-- A change of the elements that keeps the keys keeps the order. -/
theorem Ascending.map {xs : List α} (h : Ascending key xs) {f : α → α}
    (hf : ∀ x, key (f x) = key x) : Ascending key (xs.map f) := by
  refine List.pairwise_map.mpr (List.Pairwise.imp (fun {a b} hab => ?_) h)
  rwa [hf a, hf b]

theorem mem_insertKey {x y : α} {xs : List α} : y ∈ insertKey key x xs ↔ y = x ∨ y ∈ xs := by
  have hsplit : y ∈ xs ↔ y ∈ xs.take (slot key (key x) xs).node ∨
      y ∈ xs.drop (slot key (key x) xs).node := by
    rw [← List.mem_append, List.take_append_drop]
  rw [insertKey, List.mem_append, List.mem_cons, hsplit]
  tauto

theorem modify_append_cons (before after : List α) (x : α) (f : α → α) :
    (before ++ x :: after).modify before.length f = before ++ f x :: after := by
  induction before with
  | nil => rfl
  | cons y before ih => simp [ih]

/-! ## The search -/

section Search

variable [Std.TransOrd κ]

theorem Ascending.sortedFor {xs : List α} (h : Ascending key xs) (k : κ) :
    SortedFor (fun x => compare k (key x)) xs := by
  refine List.Pairwise.imp (fun {a b} hab hle => ?_) h
  have hka : (compare k (key a)).isLE := by
    cases hc : compare k (key a) with
    | lt => rfl
    | eq => rfl
    | gt => exact absurd hc hle
  exact Std.TransCmp.lt_of_isLE_of_lt hka hab

/-- Where the search misses the key, it lies between what is before and what is behind. -/
theorem slot_missing {k : κ} {xs : List α} (hs : Ascending key xs) {i : Nat}
    (h : slot key k xs = .missing i) :
    i ≤ xs.length ∧ (∀ x ∈ xs.take i, compare (key x) k = .lt) ∧
      ∀ x ∈ xs.drop i, compare k (key x) = .lt := by
  have hw := binarySearch_missing (hs.sortedFor k) h
  exact ⟨hw.stop_le, fun x hx => Std.OrientedCmp.gt_iff_lt.mp (hw.before x hx), hw.behind⟩

end Search

variable [Std.LawfulEqOrd κ]

theorem compare_key_self (k : κ) : compare k k = .eq := Std.LawfulEqOrd.compare_eq_iff_eq.mpr rfl

/-- Where the search finds the key, the list is cut around its element. -/
theorem slot_found {k : κ} {xs : List α} {i : Nat} (h : slot key k xs = .found i) :
    ∃ before x after, xs = before ++ x :: after ∧ before.length = i ∧ key x = k := by
  obtain ⟨x, hx, heq⟩ := binarySearch_found h
  obtain ⟨hi, rfl⟩ := List.getElem?_eq_some_iff.mp hx
  refine ⟨xs.take i, xs[i], xs.drop (i + 1), ?_, ?_, ?_⟩
  · rw [← List.drop_eq_getElem_cons hi, List.take_append_drop]
  · simp only [List.length_take]
    omega
  · exact (Std.LawfulEqOrd.compare_eq_iff_eq.mp heq).symm

/-- The search ends inside the list or behind it. -/
theorem slot_node_le [Std.TransOrd κ] {xs : List α} (hs : Ascending key xs) (k : κ) :
    (slot key k xs).node ≤ xs.length := by
  cases h : slot key k xs with
  | found i =>
    obtain ⟨before, x, after, rfl, rfl, -⟩ := slot_found h
    simp [Search.node]
  | missing i => exact (slot_missing hs h).1

/-- The list is cut where the search ends, and the new element is put there. -/
theorem insertKey_cut [Std.TransOrd κ] {xs : List α} (hs : Ascending key xs) (x : α) :
    ∃ before after, xs = before ++ after ∧ (slot key (key x) xs).node = before.length ∧
      insertKey key x xs = before ++ x :: after := by
  have hle := slot_node_le hs (key x)
  refine ⟨xs.take (slot key (key x) xs).node, xs.drop (slot key (key x) xs).node, ?_, ?_, rfl⟩
  · rw [List.take_append_drop]
  · rw [List.length_take_of_le hle]

/-- Two elements with one key are one element. -/
theorem Ascending.eq_of_key_eq {xs : List α} (h : Ascending key xs) {x y : α} (hx : x ∈ xs)
    (hy : y ∈ xs) (hkey : key x = key y) : x = y := by
  induction xs with
  | nil => cases hx
  | cons z zs ih =>
    have hhead : ∀ w ∈ zs, key w ≠ key z := by
      intro w hw heq
      have hlt := (List.pairwise_cons.mp h).1 w hw
      rw [heq, compare_key_self] at hlt
      cases hlt
    rcases List.mem_cons.mp hx with rfl | hx' <;> rcases List.mem_cons.mp hy with rfl | hy'
    · rfl
    · exact absurd hkey.symm (hhead y hy')
    · exact absurd hkey (hhead x hx')
    · exact ih (List.pairwise_cons.mp h).2 hx' hy'

/-- Of the elements around one, all have another key. -/
theorem Ascending.key_ne {before after : List α} {x y : α}
    (h : Ascending key (before ++ x :: after)) (hy : y ∈ before ++ after) : key y ≠ key x := by
  intro heq
  obtain ⟨_, hr, hlr⟩ := List.pairwise_append.mp h
  rcases List.mem_append.mp hy with hy | hy
  · have hlt := hlr y hy x (by simp)
    rw [heq, compare_key_self] at hlt
    cases hlt
  · have hlt := (List.pairwise_cons.mp hr).1 y hy
    rw [heq, compare_key_self] at hlt
    cases hlt

theorem filter_append_cons [DecidableEq κ] {before after : List α} {x : α}
    (hs : Ascending key (before ++ x :: after)) :
    (before ++ x :: after).filter (fun y => key y ≠ key x) = before ++ after := by
  have hother : ∀ y ∈ before ++ after, decide (key y ≠ key x) = true :=
    fun y hy => decide_eq_true (hs.key_ne hy)
  rw [List.filter_append, List.filter_eq_self.mpr fun y hy => hother y (by simp [hy]),
    List.filter_cons_of_neg (by simp), List.filter_eq_self.mpr fun y hy => hother y (by simp [hy])]

/-! ## Lookups -/

variable [Std.TransOrd κ]

/-- **A lookup is membership**: it gives the element with the key. -/
theorem lookup_eq_some_iff {k : κ} {xs : List α} (hs : Ascending key xs) {x : α} :
    lookup key k xs = some x ↔ x ∈ xs ∧ key x = k := by
  unfold lookup
  cases h : slot key k xs with
  | found i =>
    obtain ⟨before, y, after, rfl, rfl, hy⟩ := slot_found h
    have hget : (before ++ y :: after)[before.length]? = some y := by simp
    simp only [hget, Option.some.injEq]
    constructor
    · rintro rfl
      exact ⟨by simp, hy⟩
    · rintro ⟨hx, hk⟩
      exact hs.eq_of_key_eq (by simp) hx (hy.trans hk.symm)
  | missing i =>
    obtain ⟨_, hbefore, hbehind⟩ := slot_missing hs h
    refine iff_of_false (by simp) ?_
    rintro ⟨hx, rfl⟩
    rw [← List.take_append_drop i xs, List.mem_append] at hx
    rcases hx with hx | hx
    · have hlt := hbefore x hx
      rw [compare_key_self] at hlt
      cases hlt
    · have hlt := hbehind x hx
      rw [compare_key_self] at hlt
      cases hlt

theorem lookup_eq_none_iff {k : κ} {xs : List α} (hs : Ascending key xs) :
    lookup key k xs = none ↔ ∀ x ∈ xs, key x ≠ k := by
  constructor
  · intro hnone x hx hk
    have hsome := (lookup_eq_some_iff hs).mpr ⟨hx, hk⟩
    rw [hnone] at hsome
    cases hsome
  · intro hne
    cases h : lookup key k xs with
    | none => rfl
    | some x =>
      obtain ⟨hx, hk⟩ := (lookup_eq_some_iff hs).mp h
      exact absurd hk (hne x hx)

/-- Lookups agree that agree on their elements. -/
theorem lookup_congr {k : κ} {xs ys : List α} (hx : Ascending key xs) (hy : Ascending key ys)
    (h : ∀ a, key a = k → (a ∈ xs ↔ a ∈ ys)) : lookup key k xs = lookup key k ys := by
  apply Option.ext
  intro a
  rw [lookup_eq_some_iff hx, lookup_eq_some_iff hy]
  exact ⟨fun ⟨ha, hk⟩ => ⟨(h a hk).mp ha, hk⟩, fun ⟨ha, hk⟩ => ⟨(h a hk).mpr ha, hk⟩⟩

/-! ## The operations -/

/-- A new key goes where the search for it ends. -/
theorem Ascending.insertKey {xs : List α} (hs : Ascending key xs) {x : α}
    (hnew : ∀ y ∈ xs, key y ≠ key x) : Ascending key (insertKey key x xs) := by
  cases h : slot key (key x) xs with
  | found i =>
    obtain ⟨before, y, after, rfl, _, hy⟩ := slot_found h
    exact absurd hy (hnew y (by simp))
  | missing i =>
    obtain ⟨_, hbefore, hbehind⟩ := slot_missing hs h
    have hsplit : Ascending key (xs.take i ++ xs.drop i) := by rwa [List.take_append_drop]
    obtain ⟨hl, hr, hlr⟩ := List.pairwise_append.mp hsplit
    rw [Lib.insertKey, h]
    refine List.pairwise_append.mpr ⟨hl, List.pairwise_cons.mpr ⟨hbehind, hr⟩, ?_⟩
    intro a ha b hb
    rcases List.mem_cons.mp hb with rfl | hb
    · exact hbefore a ha
    · exact hlr a ha b hb

theorem insertKey_perm {xs : List α} (hs : Ascending key xs) (x : α) :
    (Lib.insertKey key x xs).Perm (x :: xs) := by
  obtain ⟨before, after, rfl, -, hinserted⟩ := insertKey_cut hs x
  rw [hinserted]
  exact List.perm_middle

/-- **There is one place for a new key**, where the search for it ends. -/
theorem ascending_cut_iff {xs : List α} (hs : Ascending key xs) {x : α}
    (hnew : ∀ y ∈ xs, key y ≠ key x) {j : Nat} (hj : j ≤ xs.length) :
    Ascending key (xs.take j ++ x :: xs.drop j) ↔ j = (slot key (key x) xs).node := by
  cases hslot : slot key (key x) xs with
  | found i =>
    obtain ⟨before, y, after, rfl, -, hy⟩ := slot_found hslot
    exact absurd hy (hnew y (by simp))
  | missing i =>
    obtain ⟨hi, hbefore, hbehind⟩ := slot_missing hs hslot
    constructor
    · intro hsorted
      obtain ⟨-, hright, hleft⟩ := List.pairwise_append.1 hsorted
      have hdrop := (List.pairwise_cons.1 hright).1
      rcases Nat.lt_trichotomy j i with hlt | heq | hgt
      · -- an element before the place is behind the new one
        have hlen : j < xs.length := by omega
        have hmem : xs[j] ∈ xs.drop j := by
          rw [List.drop_eq_getElem_cons hlen]
          exact List.mem_cons_self
        have hlow : xs[j] ∈ xs.take i := List.mem_take_iff_getElem.2 ⟨j, by omega, rfl⟩
        exact absurd (hdrop _ hmem) (fun h => Std.OrientedCmp.not_lt_of_lt (hbefore _ hlow) h)
      · exact heq
      · have hlen : i < xs.length := by omega
        have hmem : xs[i] ∈ xs.drop i := by
          rw [List.drop_eq_getElem_cons hlen]
          exact List.mem_cons_self
        have hlow : xs[i] ∈ xs.take j := List.mem_take_iff_getElem.2 ⟨i, by omega, rfl⟩
        exact absurd (hleft _ hlow x List.mem_cons_self)
          (fun h => Std.OrientedCmp.not_lt_of_lt (hbehind _ hmem) h)
    · rintro rfl
      have hinserted := hs.insertKey hnew
      rwa [Lib.insertKey, hslot] at hinserted

theorem lookup_map {xs : List α} (hs : Ascending key xs) {f : α → α}
    (hf : ∀ x, key (f x) = key x) (k : κ) : lookup key k (xs.map f) = (lookup key k xs).map f := by
  apply Option.ext
  intro y
  rw [lookup_eq_some_iff (hs.map hf), Option.map_eq_some_iff, List.mem_map]
  constructor
  · rintro ⟨⟨x, hx, rfl⟩, hk⟩
    exact ⟨x, (lookup_eq_some_iff hs).mpr ⟨hx, (hf x).symm.trans hk⟩, rfl⟩
  · rintro ⟨x, hx, rfl⟩
    obtain ⟨hx, hk⟩ := (lookup_eq_some_iff hs).mp hx
    exact ⟨⟨x, hx, rfl⟩, (hf x).trans hk⟩

theorem lookup_filter {xs : List α} (hs : Ascending key xs) (p : α → Bool) (k : κ) :
    lookup key k (xs.filter p) = (lookup key k xs).filter p := by
  apply Option.ext
  intro y
  rw [lookup_eq_some_iff (hs.sublist List.filter_sublist), Option.filter_eq_some_iff,
    lookup_eq_some_iff hs, List.mem_filter]
  tauto

variable [DecidableEq κ]

theorem lookup_insertKey {xs : List α} (hs : Ascending key xs) {x : α}
    (hnew : ∀ y ∈ xs, key y ≠ key x) (k : κ) :
    lookup key k (insertKey key x xs) = if key x = k then some x else lookup key k xs := by
  apply Option.ext
  intro y
  rw [lookup_eq_some_iff (hs.insertKey hnew), mem_insertKey]
  split
  · rename_i hk
    simp only [Option.some.injEq]
    constructor
    · rintro ⟨rfl | hy, hky⟩
      · rfl
      · exact absurd (hky.trans hk.symm) (hnew y hy)
    · rintro rfl
      exact ⟨Or.inl rfl, hk⟩
  · rename_i hk
    rw [lookup_eq_some_iff hs]
    constructor
    · rintro ⟨rfl | hy, hky⟩
      · exact absurd hky hk
      · exact ⟨hy, hky⟩
    · rintro ⟨hy, hky⟩
      exact ⟨Or.inr hy, hky⟩

theorem modifyKey_eq_map {xs : List α} (hs : Ascending key xs) (k : κ) (f : α → α) :
    modifyKey key k f xs = xs.map fun x => if key x = k then f x else x := by
  unfold modifyKey
  cases h : slot key k xs with
  | found i =>
    obtain ⟨before, x, after, rfl, rfl, rfl⟩ := slot_found h
    have hsame : ∀ y ∈ before ++ after, (if key y = key x then f y else y) = y :=
      fun y hy => if_neg (hs.key_ne hy)
    have hbefore : before.map (fun y => if key y = key x then f y else y) = before :=
      (List.map_congr_left fun y hy => hsame y (by simp [hy])).trans (List.map_id before)
    have hafter : after.map (fun y => if key y = key x then f y else y) = after :=
      (List.map_congr_left fun y hy => hsame y (by simp [hy])).trans (List.map_id after)
    simp [modify_append_cons, hbefore, hafter]
  | missing i =>
    have hne : ∀ y ∈ xs, key y ≠ k := (lookup_eq_none_iff hs).mp (by simp [lookup, h])
    exact ((List.map_congr_left fun y hy => if_neg (hne y hy)).trans (List.map_id xs)).symm

theorem eraseKey_eq_filter {xs : List α} (hs : Ascending key xs) (k : κ) :
    eraseKey key k xs = xs.filter fun x => key x ≠ k := by
  unfold eraseKey
  cases h : slot key k xs with
  | found i =>
    obtain ⟨before, x, after, rfl, rfl, rfl⟩ := slot_found h
    show (before ++ x :: after).eraseIdx before.length = _
    rw [filter_append_cons hs, List.eraseIdx_append_of_length_le (Nat.le_refl _), Nat.sub_self,
      List.eraseIdx_cons_zero]
  | missing i =>
    have hne : ∀ y ∈ xs, key y ≠ k := (lookup_eq_none_iff hs).mp (by simp [lookup, h])
    exact (List.filter_eq_self.mpr fun y hy => decide_eq_true (hne y hy)).symm

/-- The element is taken out of its place. -/
theorem eraseKey_append_cons {before after : List α} {x : α}
    (hs : Ascending key (before ++ x :: after)) :
    eraseKey key (key x) (before ++ x :: after) = before ++ after := by
  rw [eraseKey_eq_filter hs, filter_append_cons hs]

end SortedList

end Lib

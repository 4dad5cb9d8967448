import Mathlib.Data.List.Basic
import Mathlib.Data.List.Induction

/-!
# Stable sorting, one insertion at a time

The order is a Boolean relation `le` that is transitive and total: it may tie
elements that differ, so "the sorted list" only means something when ties keep
the order they came in.

* `isStableSort_mergeSort`, `IsStableSort.eq_mergeSort` — **`mergeSort` is the
  stable sort and the only one**, so a stable sort may be named by it.
-/

namespace Lib

section StableSort

variable {α : Type*} {le : α → α → Bool}

/-- `x` and `y` are of equal rank. -/
def tied (le : α → α → Bool) (x y : α) : Bool := le x y && le y x

/-- `s` is `l` sorted by `le`, tied elements in the order `l` has them. -/
structure IsStableSort (le : α → α → Bool) (l s : List α) : Prop where
  /-- The list is sorted. -/
  sorted : s.Pairwise fun a b => le a b
  /-- Each class of tied elements stands as it came. -/
  stable : ∀ x, s.filter (tied le x) = l.filter (tied le x)

/-- Insert `x` behind every element at least as good, in front of the first that is worse. -/
def insertLast (le : α → α → Bool) (x : α) : List α → List α
  | [] => [x]
  | y :: l => if le y x then y :: insertLast le x l else x :: y :: l

@[simp] theorem insertLast_nil (x : α) : insertLast le x [] = [x] := rfl

theorem insertLast_perm (x : α) (l : List α) : (insertLast le x l).Perm (x :: l) := by
  induction l with
  | nil => exact List.Perm.refl _
  | cons y l ih =>
    simp only [insertLast]
    split
    · exact (ih.cons y).trans (List.Perm.swap x y l)
    · exact List.Perm.refl _

theorem mem_insertLast {x a : α} {l : List α} : a ∈ insertLast le x l ↔ a = x ∨ a ∈ l := by
  rw [(insertLast_perm x l).mem_iff, List.mem_cons]

variable (trans : ∀ a b c, le a b → le b c → le a c) (total : ∀ a b, le a b || le b a)

include total in
theorem tied_self (x : α) : tied le x x := by
  have := total x x
  simp_all [tied]

include total in
theorem le_of_not_le {x y : α} (h : le x y = false) : le y x := by
  have := total x y
  simpa [h] using this

include trans total in
theorem pairwise_insertLast {x : α} {l : List α} (h : l.Pairwise fun a b => le a b) :
    (insertLast le x l).Pairwise fun a b => le a b := by
  induction l with
  | nil => simp
  | cons y l ih =>
    obtain ⟨hy, hl⟩ := List.pairwise_cons.mp h
    simp only [insertLast]
    split
    · rename_i hyx
      refine List.pairwise_cons.mpr ⟨?_, ih hl⟩
      intro b hb
      rcases mem_insertLast.mp hb with rfl | hb
      · exact hyx
      · exact hy b hb
    · rename_i hyx
      have hxy : le x y := le_of_not_le total (by simpa using hyx)
      refine List.pairwise_cons.mpr ⟨?_, h⟩
      intro b hb
      rcases List.mem_cons.mp hb with rfl | hb
      · exact hxy
      · exact trans x y b hxy (hy b hb)

include trans in
/-- Insertion disturbs no class of ties, and puts the new element last in its own. -/
theorem filter_tied_insertLast {x : α} {l : List α} (h : l.Pairwise fun a b => le a b) (z : α) :
    (insertLast le x l).filter (tied le z) = (l ++ [x]).filter (tied le z) := by
  induction l with
  | nil => simp
  | cons y l ih =>
    obtain ⟨hy, hl⟩ := List.pairwise_cons.mp h
    by_cases hyx : le y x
    · simp [insertLast, hyx, List.filter_cons, ih hl]
    · -- everything from `y` on is worse than `x`, so it is in no class of `x`'s
      have hworse : ∀ b ∈ y :: l, tied le z x → tied le z b = false := by
        intro b hb hzx
        have hyb : le y b ∨ b = y := by
          rcases List.mem_cons.mp hb with rfl | hb
          · exact Or.inr rfl
          · exact Or.inl (hy b hb)
        by_contra hzb
        simp only [tied, Bool.and_eq_true, Bool.not_eq_false] at hzx hzb
        have hbx : le b x := trans b z x hzb.2 hzx.1
        rcases hyb with hyb | rfl
        · exact hyx (trans y b x hyb hbx)
        · exact hyx hbx
      rw [insertLast, if_neg hyx, List.filter_append, List.filter_cons]
      by_cases hzx : tied le z x
      · have hnil : (y :: l).filter (tied le z) = [] := by
          rw [List.filter_eq_nil_iff]
          intro b hb
          simp [hworse b hb hzx]
        simp [hzx, hnil]
      · simp [hzx]

include trans in
/-- The same of the elements with one key, where elements of one key are tied. -/
theorem filter_key_insertLast {κ : Type*} [DecidableEq κ] {key : α → κ}
    (hties : ∀ a b, tied le a b ↔ key a = key b) {l : List α}
    (h : l.Pairwise fun a b => le a b) (x : α) (k : κ) :
    (insertLast le x l).filter (fun y => key y = k) =
      l.filter (fun y => key y = k) ++ [x].filter fun y => key y = k := by
  by_cases hsome : ∃ z ∈ x :: l, key z = k
  · obtain ⟨z, -, rfl⟩ := hsome
    have htied : (fun y => decide (key y = key z)) = tied le z := by
      funext y
      rw [Bool.eq_iff_iff, decide_eq_true_iff, hties, eq_comm]
    rw [htied, filter_tied_insertLast trans h, List.filter_append]
  · -- without an element of the key all parts are empty
    have hnone : ∀ y ∈ x :: l, ¬ key y = k := fun y hy hk => hsome ⟨y, hy, hk⟩
    have hinsert : ∀ y ∈ insertLast le x l, ¬ key y = k :=
      fun y hy => hnone y ((insertLast_perm x l).mem_iff.mp hy)
    rw [← List.filter_append]
    have hempty : ∀ m : List α, (∀ y ∈ m, ¬ key y = k) →
        m.filter (fun y => decide (key y = k)) = [] := by
      intro m hm
      rw [List.filter_eq_nil_iff]
      intro y hy
      simpa using hm y hy
    rw [hempty _ hinsert, hempty]
    intro y hy
    refine hnone y ?_
    rcases List.mem_append.mp hy with hy | hy
    · exact List.mem_cons_of_mem x hy
    · exact List.mem_singleton.mp hy ▸ List.mem_cons_self ..

include trans total in
/-- **Inserting into the stable sort is stably sorting the list with the element
appended.** -/
theorem IsStableSort.insertLast {x : α} {l s : List α} (h : IsStableSort le l s) :
    IsStableSort le (l ++ [x]) (insertLast le x s) where
  sorted := pairwise_insertLast trans total h.sorted
  stable z := by
    rw [filter_tied_insertLast trans h.sorted, List.filter_append, List.filter_append, h.stable]

/-- Dropping elements keeps a stable sort a stable sort. -/
theorem IsStableSort.filter {l s : List α} (h : IsStableSort le l s) (p : α → Bool) :
    IsStableSort le (l.filter p) (s.filter p) where
  sorted := h.sorted.filter p
  stable z := by
    rw [List.filter_comm, h.stable, List.filter_comm]

theorem isStableSort_nil : IsStableSort le ([] : List α) [] := ⟨List.Pairwise.nil, fun _ => rfl⟩

include total in
theorem IsStableSort.mem_iff {l s : List α} (h : IsStableSort le l s) {x : α} : x ∈ s ↔ x ∈ l := by
  have hmem : ∀ m : List α, x ∈ m ↔ x ∈ m.filter (tied le x) := fun m => by
    simp [tied_self total x]
  rw [hmem s, hmem l, h.stable]

include total in
/-- **There is only one stable sort of a list.** -/
theorem IsStableSort.unique {l s t : List α} (hs : IsStableSort le l s)
    (ht : IsStableSort le l t) : s = t := by
  have key : ∀ s t : List α, s.Pairwise (fun a b => le a b) → t.Pairwise (fun a b => le a b) →
      (∀ x, s.filter (tied le x) = t.filter (tied le x)) → s = t := by
    clear hs ht s t
    intro s
    induction s with
    | nil =>
      intro t _ _ hf
      cases t with
      | nil => rfl
      | cons b t => simpa [tied_self total b] using hf b
    | cons a s ih =>
      intro t hs ht hf
      cases t with
      | nil => simpa [tied_self total a] using hf a
      | cons b t =>
        obtain ⟨hsa, hs'⟩ := List.pairwise_cons.mp hs
        obtain ⟨htb, ht'⟩ := List.pairwise_cons.mp ht
        have hle_of_mem : ∀ {u v : α} {m : List α}, (∀ c ∈ m, le u c) → v ∈ u :: m → le u v := by
          intro u v m hm hv
          rcases List.mem_cons.mp hv with rfl | hv
          · simpa using total v v
          · exact hm v hv
        have hat : a ∈ b :: t := by
          have : a ∈ (a :: s).filter (tied le a) := by simp [tied_self total a]
          rw [hf a] at this
          exact List.mem_of_mem_filter this
        have hbs : b ∈ a :: s := by
          have : b ∈ (b :: t).filter (tied le b) := by simp [tied_self total b]
          rw [← hf b] at this
          exact List.mem_of_mem_filter this
        have hab : tied le a b := by simp [tied, hle_of_mem hsa hbs, hle_of_mem htb hat]
        obtain rfl : a = b := by
          have := hf a
          simp only [List.filter_cons, tied_self total a, hab, if_true, List.cons.injEq] at this
          exact this.1
        congr 1
        refine ih t hs' ht' fun x => ?_
        have := hf x
        by_cases hx : tied le x a
        · simpa [hx] using this
        · simpa [hx] using this
  exact key s t hs.sorted ht.sorted fun x => (hs.stable x).trans (ht.stable x).symm

include trans total in
/-- **`mergeSort` is a stable sort.** -/
theorem isStableSort_mergeSort (l : List α) : IsStableSort le l (l.mergeSort le) where
  sorted := List.pairwise_mergeSort trans total l
  stable x := by
    have hties : (l.filter (tied le x)).Pairwise fun a b => le a b := by
      refine List.pairwise_of_forall_mem_list ?_
      intro a ha b hb
      have ha' := List.of_mem_filter ha
      have hb' := List.of_mem_filter hb
      simp only [tied, Bool.and_eq_true] at ha' hb'
      exact trans a x b ha'.2 hb'.1
    have hsub : (l.filter (tied le x)).Sublist (l.mergeSort le) :=
      List.sublist_mergeSort trans total hties List.filter_sublist
    have hsub' : (l.filter (tied le x)).Sublist ((l.mergeSort le).filter (tied le x)) := by
      simpa using hsub.filter (tied le x)
    have hlen := ((List.mergeSort_perm l le).filter (tied le x)).length_eq
    exact (hsub'.eq_of_length hlen.symm).symm

include trans total in
/-- A stable sort is what `mergeSort` returns. -/
theorem IsStableSort.eq_mergeSort {l s : List α} (h : IsStableSort le l s) : s = l.mergeSort le :=
  h.unique total (isStableSort_mergeSort trans total l)

include trans total in
theorem IsStableSort.perm {l s : List α} (h : IsStableSort le l s) : s.Perm l := by
  rw [h.eq_mergeSort trans total]
  exact List.mergeSort_perm l le

/-- The head of a stable sort is as good as every element. -/
theorem IsStableSort.le_of_mem_head? {l s : List α} (h : IsStableSort le l s)
    (refl : ∀ a, le a a) {best x : α} (hbest : best ∈ s.head?) (hx : x ∈ s) : le best x := by
  cases hs : s with
  | nil => simp [hs] at hx
  | cons a t =>
    have hsorted := h.sorted
    rw [hs] at hsorted hx
    obtain rfl : a = best := by simpa [hs] using hbest
    rcases List.mem_cons.mp hx with rfl | hx
    · exact refl x
    · exact (List.pairwise_cons.mp hsorted).1 x hx

/-- **Re-sorting.**  If every tie of the new order is a tie of the old one, then a
stable sort of the old stable sort is a stable sort of the list itself. -/
theorem IsStableSort.resort {le' : α → α → Bool} {l s t : List α}
    (hties : ∀ a b, tied le' a b → tied le a b)
    (hs : IsStableSort le l s) (ht : IsStableSort le' s t) : IsStableSort le' l t where
  sorted := ht.sorted
  stable x := by
    have hcut : ∀ m : List α, m.filter (tied le' x) = (m.filter (tied le x)).filter (tied le' x) := by
      intro m
      rw [List.filter_filter]
      refine List.filter_congr fun y _ => ?_
      by_cases h : tied le' x y
      · simp [h, hties x y h]
      · simp [h]
    rw [ht.stable, hcut s, hs.stable, ← hcut l]

include trans total in
/-- Inserting the elements of a list one after the other sorts it. -/
theorem isStableSort_foldl_insertLast (l : List α) :
    IsStableSort le l (l.foldl (fun s x => Lib.insertLast le x s) []) := by
  induction l using List.reverseRecOn with
  | nil => exact isStableSort_nil
  | append_singleton l x ih =>
    rw [List.foldl_append]
    exact ih.insertLast trans total

end StableSort

end Lib

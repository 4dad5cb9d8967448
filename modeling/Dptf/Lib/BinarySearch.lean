import Mathlib.Data.List.Basic
import Mathlib.Data.List.Pairwise

/-!
# Binary search with an ordering

The usual loop over a sorted list: `comp x` says how the key searched for compares
with the element `x`.  It ends at an equal element or at the place where the key
belongs.
-/

namespace Lib

section BinarySearch

variable {α : Type*}

/-- Where a search ends. -/
inductive Search
  /-- At an element that compares equal. -/
  | found (node : Nat)
  /-- There is none; it would belong here. -/
  | missing (node : Nat)
deriving DecidableEq, Repr

/-- The place, either way. -/
def Search.node : Search → Nat
  | .found node => node
  | .missing node => node

/-- The loop over the interval from `start` up to `stop`, which is not included. -/
def searchLoop (comp : α → Ordering) (xs : List α) : Nat → Nat → Nat → Nat → Search
  | 0, _, _, node => .missing node
  | fuel + 1, start, stop, node =>
    if start < stop then
      match (xs[node]?).map comp with
      | some .eq => .found node
      | some .gt => searchLoop comp xs fuel (node + 1) stop ((stop - 1 - (node + 1)) / 2 + (node + 1))
      | some .lt => searchLoop comp xs fuel start node ((node - 1 - start) / 2 + start)
      | none => .missing node
    else .missing node

/-- Search the whole list, from its middle. -/
def binarySearch (comp : α → Ordering) (xs : List α) : Search :=
  searchLoop comp xs xs.length 0 xs.length (xs.length / 2)

/-- The list is sorted as far as the key can tell. -/
def SortedFor (comp : α → Ordering) (xs : List α) : Prop :=
  xs.Pairwise fun a b => comp a ≠ .gt → comp b = .lt

variable {comp : α → Ordering} {xs : List α}

theorem searchLoop_found {fuel start stop node i : Nat}
    (h : searchLoop comp xs fuel start stop node = .found i) :
    ∃ x, xs[i]? = some x ∧ comp x = .eq := by
  induction fuel generalizing start stop node with
  | zero => simp [searchLoop] at h
  | succ fuel ih =>
    unfold searchLoop at h
    split at h
    · split at h
      · rename_i heq
        obtain rfl : node = i := by simpa using h
        exact Option.map_eq_some_iff.mp heq
      · exact ih h
      · exact ih h
      · simp at h
    · simp at h

/-- **What is found compares equal.** -/
theorem binarySearch_found {i : Nat} (h : binarySearch comp xs = .found i) :
    ∃ x, xs[i]? = some x ∧ comp x = .eq :=
  searchLoop_found h

/-- The bounds of an interval that still may hold the key. -/
structure Window (comp : α → Ordering) (xs : List α) (start stop : Nat) : Prop where
  start_le : start ≤ stop
  stop_le : stop ≤ xs.length
  before : ∀ x ∈ xs.take start, comp x = .gt
  behind : ∀ x ∈ xs.drop stop, comp x = .lt

theorem window_whole : Window comp xs 0 xs.length :=
  ⟨Nat.zero_le _, Nat.le_refl _, by simp, by simp⟩

/-- A window without elements. -/
theorem Window.closed {start stop : Nat} (h : Window comp xs start stop) (hle : stop ≤ start) :
    Window comp xs start start := by
  have heq : start = stop := Nat.le_antisymm h.start_le hle
  rw [← heq] at h
  exact h

/-- The key is greater than the element in the middle, and so than all before it. -/
theorem Window.right {start stop node : Nat} {x : α} (h : Window comp xs start stop)
    (hs : SortedFor comp xs) (hlt : node < stop) (hx : xs[node]? = some x)
    (hgt : comp x = .gt) : Window comp xs (node + 1) stop where
  start_le := hlt
  stop_le := h.stop_le
  behind := h.behind
  before := by
    intro y hy
    rw [List.take_add_one, hx, Option.toList_some, List.mem_append, List.mem_singleton] at hy
    rcases hy with hy | rfl
    · by_contra hne
      obtain ⟨hn, rfl⟩ := List.getElem?_eq_some_iff.mp hx
      have hsplit : xs = xs.take node ++ xs.drop node := (List.take_append_drop node xs).symm
      rw [SortedFor, hsplit, List.pairwise_append] at hs
      have hmem : xs[node] ∈ xs.drop node := by
        rw [List.drop_eq_getElem_cons hn]
        exact List.mem_cons_self
      rw [hs.2.2 y hy _ hmem hne] at hgt
      cases hgt
    · exact hgt

/-- The key is less than the element in the middle, and so than all behind it. -/
theorem Window.left {start stop node : Nat} {x : α} (h : Window comp xs start stop)
    (hs : SortedFor comp xs) (hle : start ≤ node) (hx : xs[node]? = some x)
    (hlt : comp x = .lt) : Window comp xs start node where
  start_le := hle
  stop_le := Nat.le_of_lt (List.getElem?_eq_some_iff.mp hx).1
  before := h.before
  behind := by
    intro y hy
    obtain ⟨hn, rfl⟩ := List.getElem?_eq_some_iff.mp hx
    rw [List.drop_eq_getElem_cons hn, List.mem_cons] at hy
    rcases hy with rfl | hy
    · exact hlt
    · have hs' : SortedFor comp (xs.drop node) := hs.sublist (List.drop_sublist node xs)
      rw [SortedFor, List.drop_eq_getElem_cons hn, List.pairwise_cons] at hs'
      exact hs'.1 y hy (by simp [hlt])

theorem searchLoop_missing (hs : SortedFor comp xs) {fuel start stop node i : Nat}
    (hw : Window comp xs start stop) (hfuel : stop - start ≤ fuel)
    (hnode : start ≤ node ∧ (start < stop → node < stop) ∧ (start = stop → node = start))
    (h : searchLoop comp xs fuel start stop node = .missing i) : Window comp xs i i := by
  induction fuel generalizing start stop node with
  | zero =>
    obtain rfl : node = i := by simpa [searchLoop] using h
    obtain rfl : node = start := hnode.2.2 (by have := hw.start_le; omega)
    exact hw.closed (by omega)
  | succ fuel ih =>
    unfold searchLoop at h
    split at h
    · rename_i hlt
      have hn := hnode.2.1 hlt
      split at h
      · simp at h
      · rename_i hgt
        obtain ⟨x, hx, hgt⟩ := Option.map_eq_some_iff.mp hgt
        exact ih (hw.right hs hn hx hgt) (by omega) (by omega) h
      · rename_i hlt'
        obtain ⟨x, hx, hlt'⟩ := Option.map_eq_some_iff.mp hlt'
        exact ih (hw.left hs hnode.1 hx hlt') (by omega) (by omega) h
      · rename_i hnone
        have hlen := hw.stop_le
        rw [Option.map_eq_none_iff, List.getElem?_eq_none_iff] at hnone
        omega
    · rename_i hge
      obtain rfl : node = i := by simpa using h
      obtain rfl : node = start := hnode.2.2 (by have := hw.start_le; omega)
      exact hw.closed (Nat.not_lt.mp hge)

/-- **What is missing belongs where the search ends**: the key is greater than all before
that place and less than all behind it. -/
theorem binarySearch_missing (hs : SortedFor comp xs) {i : Nat}
    (h : binarySearch comp xs = .missing i) : Window comp xs i i :=
  searchLoop_missing hs window_whole (by omega) (by omega) h

end BinarySearch

end Lib

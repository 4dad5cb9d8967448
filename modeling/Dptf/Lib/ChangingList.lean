import Mathlib.Data.List.Basic
import Mathlib.Data.List.Nodup
import Mathlib.Algebra.GroupWithZero.Nat

/-!
# Lists that change while they are in use

A state keeps its threads in a list, and a quantity each thread holds a share of
is a sum over it: `total f ts`.  A step of one thread replaces it
(`total_set`), a new thread is put at the end (`total_append_singleton`).

A loop keeps a plain index into a list while others erase from the list and append
to it.  `Passed good xs n` — the elements before the cursor `n` are good — is kept
by everything but an erasure before the cursor: then the element at the cursor
slides behind it (`Passed.erase`).

A walker stands at an element of a list without duplicates and goes on with what is
behind it.  Meanwhile others put elements at the end and take elements out, so the
elements that stay keep their order.
-/

namespace Lib

/-! ## Shares -/

section Threads

variable {τ : Type*}

/-- The sum of what the threads hold. -/
def total (f : τ → Nat) (ts : List τ) : Nat := (ts.map f).sum

@[simp] theorem total_nil (f : τ → Nat) : total f [] = 0 := rfl

@[simp] theorem total_cons (f : τ → Nat) (t : τ) (ts : List τ) :
    total f (t :: ts) = f t + total f ts := rfl

@[simp] theorem total_append_singleton (f : τ → Nat) (ts : List τ) (t : τ) :
    total f (ts ++ [t]) = total f ts + f t := by
  simp [total]

/-- **Replacing a thread** exchanges its share. -/
theorem total_set {f : τ → Nat} {ts : List τ} {i : Nat} {t : τ} (h : ts[i]? = some t) (t' : τ) :
    total f (ts.set i t') + f t = total f ts + f t' := by
  induction ts generalizing i with
  | nil => simp at h
  | cons x xs ih =>
    cases i with
    | zero =>
      obtain rfl : x = t := by simpa using h
      simp only [List.set_cons_zero, total_cons]
      omega
    | succ j =>
      have := ih (i := j) (by simpa using h)
      simp only [List.set_cons_succ, total_cons]
      omega

/-- No thread holds more than all of them. -/
theorem le_total_of_mem {f : τ → Nat} {ts : List τ} {t : τ} (h : t ∈ ts) : f t ≤ total f ts := by
  induction ts with
  | nil => simp at h
  | cons x xs ih =>
    rcases List.mem_cons.mp h with rfl | h
    · simp
    · have := ih h
      simp only [total_cons]
      omega

end Threads

/-! ## A cursor -/

section Cursor

variable {α : Type*}

/-- What stands before the cursor is good. -/
def Passed (good : α → Prop) (xs : List α) (n : Nat) : Prop := ∀ x ∈ xs.take n, good x

variable {good good' : α → Prop} {xs : List α} {n : Nat}

theorem passed_zero : Passed good xs 0 := by simp [Passed]

theorem Passed.mono (h : Passed good xs n) (hgood : ∀ x ∈ xs, good x → good' x) :
    Passed good' xs n :=
  fun x hx => hgood x (List.mem_of_mem_take hx) (h x hx)

/-- The cursor moves over an element that is good. -/
theorem Passed.succ (h : Passed good xs n) (hn : ∀ x ∈ xs[n]?, good x) :
    Passed good xs (n + 1) := by
  intro x hx
  rw [List.take_add_one] at hx
  rcases List.mem_append.mp hx with hx | hx
  · exact h x hx
  · exact hn x (by simpa using hx)

/-- A cursor at the end has passed everything. -/
theorem Passed.all (h : Passed good xs n) (hn : xs.length ≤ n) : ∀ x ∈ xs, good x := by
  intro x hx
  exact h x (by rwa [List.take_of_length_le hn])

/-- Good elements are appended. -/
theorem Passed.append (h : Passed good xs n) {ys : List α} (hys : ∀ y ∈ ys, good y) :
    Passed good (xs ++ ys) n := by
  intro x hx
  rw [List.take_append] at hx
  rcases List.mem_append.mp hx with hx | hx
  · exact h x hx
  · exact hys x (List.mem_of_mem_take hx)

/-- What an erasure leaves before the cursor: what was there, and what stood at the cursor
if the erasure was before it. -/
theorem mem_take_erase [DecidableEq α] {a x : α} (hx : x ∈ (xs.erase a).take n) :
    x ∈ xs.take n ∨ a ∈ xs.take n ∧ x ∈ xs[n]? := by
  induction xs generalizing n with
  | nil => simp at hx
  | cons y ys ih =>
    cases n with
    | zero => simp at hx
    | succ m =>
      by_cases hya : y = a
      · subst hya
        rw [List.erase_cons_head, List.take_add_one] at hx
        rcases List.mem_append.mp hx with hx | hx
        · exact .inl (by simp [hx])
        · exact .inr ⟨by simp, by simpa using hx⟩
      · rw [List.erase_cons_tail (by simpa using hya), List.take_succ_cons] at hx
        rcases List.mem_cons.mp hx with rfl | hx
        · exact .inl (by simp)
        · rcases ih hx with hx | ⟨ha, hx⟩
          · exact .inl (by simp [hx])
          · exact .inr ⟨by simp [ha], by simpa using hx⟩

/-- **An erasure keeps what the cursor has passed** unless it is before the cursor and the
element at the cursor is not good. -/
theorem Passed.erase [DecidableEq α] (h : Passed good xs n) {a : α}
    (hskip : a ∈ xs.take n → ∀ x ∈ xs[n]?, good x) : Passed good (xs.erase a) n := by
  intro x hx
  rcases mem_take_erase hx with hx | ⟨ha, hx⟩
  · exact h x hx
  · exact hskip ha x hx

end Cursor

/-! ## A walker -/

section Walk

variable {α : Type*}

/-- `y` is behind `x`. -/
abbrev Pair (l : List α) (x y : α) : Prop := [x, y].Sublist l

/-- Two lists have their common elements in the same order. -/
def SameOrder (l l' : List α) : Prop :=
  ∀ x y, x ∈ l → y ∈ l → x ∈ l' → y ∈ l' → (Pair l' x y ↔ Pair l x y)

theorem SameOrder.refl (l : List α) : SameOrder l l := fun _ _ _ _ _ _ => Iff.rfl

/-- An element that is put at the end. -/
theorem SameOrder.append_singleton {l : List α} {z : α} (hz : z ∉ l) : SameOrder l (l ++ [z]) := by
  intro x y hx hy _ _
  refine ⟨fun h => ?_, fun h => h.trans (List.sublist_append_left l [z])⟩
  obtain ⟨as, bs, heq, has, hbs⟩ := List.sublist_append_iff.mp h
  cases bs with
  | nil =>
    rw [List.append_nil] at heq
    rwa [Pair, heq]
  | cons b bs =>
    -- the last element of the pair would be the new one
    have hlast : y ∈ b :: bs := by
      have : (as ++ b :: bs).getLast? = some y := by rw [← heq]; rfl
      rw [List.getLast?_append_cons] at this
      exact List.mem_of_getLast? this
    have := List.mem_singleton.mp (hbs.subset hlast)
    exact absurd (this ▸ hy) hz

/-- Elements that are taken out. -/
theorem SameOrder.filter (l : List α) (p : α → Bool) : SameOrder l (l.filter p) := by
  intro x y _ _ hx hy
  refine ⟨fun h => h.trans List.filter_sublist, fun h => ?_⟩
  have := h.filter p
  rwa [List.filter_cons_of_pos (List.mem_filter.mp hx).2,
    List.filter_cons_of_pos (List.mem_filter.mp hy).2, List.filter_nil] at this

theorem pair_irrefl {l : List α} (h : l.Nodup) (x : α) : ¬Pair l x x := by
  intro hpair
  have := h.sublist hpair
  simp at this

/-- What was passed is not met again. -/
theorem mem_of_pair_append {as bs : List α} (h : (as ++ bs).Nodup) {x y : α} (hx : x ∈ bs)
    (hpair : Pair (as ++ bs) x y) : y ∈ bs := by
  obtain ⟨cs, ds, heq, hcs, hds⟩ := List.sublist_append_iff.mp hpair
  cases cs with
  | nil =>
    rw [List.nil_append] at heq
    rw [← heq] at hds
    exact hds.subset (by simp)
  | cons c cs =>
    obtain ⟨rfl, -⟩ := List.cons.inj heq
    exact absurd rfl ((List.nodup_append.mp h).2.2 x (hcs.subset (by simp)) x hx)

/-- Where the walker stops, what it looks for as well is behind. -/
theorem pair_of_find {l : List α} {p : α → Bool} {x y : α} (hfind : l.find? p = some x)
    (hy : y ∈ l) (hp : p y = true) (hne : y ≠ x) : Pair l x y := by
  obtain ⟨-, as, bs, rfl, has⟩ := List.find?_eq_some_iff_append.mp hfind
  have hbs : y ∈ bs := by
    rcases List.mem_append.mp hy with hmem | hmem
    · exact absurd hp (by simpa using has y hmem)
    · exact (List.mem_cons.mp hmem).resolve_left hne
  exact ((List.singleton_sublist.mpr hbs).cons_cons x).trans (List.sublist_append_right as _)

variable [DecidableEq α]

theorem SameOrder.erase {l : List α} (h : l.Nodup) (z : α) : SameOrder l (l.erase z) := by
  rw [h.erase_eq_filter]
  exact SameOrder.filter l _

/-- What is behind an element. -/
def behind (l : List α) (x : α) : List α := (l.dropWhile (· ≠ x)).tail

theorem behind_append_cons {as : List α} {x : α} (hx : x ∉ as) (bs : List α) :
    behind (as ++ x :: bs) x = bs := by
  induction as with
  | nil => simp [behind]
  | cons a as ih =>
    rw [List.mem_cons, not_or] at hx
    simpa [behind, List.dropWhile_cons, Ne.symm hx.1] using ih hx.2

/-- A list is cut in two at an element. -/
theorem exists_eq_append_behind {l : List α} {x : α} (hx : x ∈ l) :
    ∃ as, x ∉ as ∧ l = as ++ x :: behind l x := by
  obtain ⟨as, bs, heq, has⟩ := List.eq_append_cons_of_mem hx
  exact ⟨as, has, by rw [heq, behind_append_cons has]⟩

theorem mem_of_mem_behind {l : List α} {x y : α} (h : y ∈ behind l x) : y ∈ l :=
  List.dropWhile_subset _ (List.mem_of_mem_tail h)

theorem not_mem_behind {l : List α} (h : l.Nodup) (x : α) : x ∉ behind l x := by
  by_cases hx : x ∈ l
  · obtain ⟨as, -, heq⟩ := exists_eq_append_behind hx
    rw [heq] at h
    exact (List.nodup_cons.mp (List.nodup_append.mp h).2.1).1
  · exact fun hmem => hx (mem_of_mem_behind hmem)

theorem mem_behind {l : List α} (h : l.Nodup) {x y : α} (hx : x ∈ l) :
    y ∈ behind l x ↔ Pair l x y := by
  obtain ⟨as, hxas, heq⟩ := exists_eq_append_behind hx
  constructor
  · intro hy
    rw [heq]
    exact ((List.singleton_sublist.mpr hy).cons_cons x).trans (List.sublist_append_right as _)
  · intro hpair
    rw [heq] at h hpair
    have hmem := mem_of_pair_append h (by simp) hpair
    rcases List.mem_cons.mp hmem with rfl | hmem
    · exact absurd hpair (pair_irrefl h y)
    · exact hmem

end Walk

end Lib

import Dptf.Lib.SortedList
import Mathlib.Data.Set.Card
import Mathlib.Data.Finset.Card

/-!
# Enumerating a set that changes

An enumeration asks again and again for the least good key behind the last one that it
found.  The set of the keys that are present may be another one each time.

* `Scans.count_eq_one` — **a good key that is present each time is found exactly once**.
* `Scans.ended_of_finite` — **over finitely many keys the enumeration ends**.
-/

namespace Lib

section Enumeration

variable {κ : Type*} [Ord κ]

/-- The keys found, in their order, and whether there was no further one. -/
structure Scan (κ : Type*) where
  found : List κ
  ended : Bool

/-- An enumeration that has found nothing yet. -/
def Scan.start : Scan κ := ⟨[], false⟩

/-- The key is behind the last one. -/
def Beyond (found : List κ) (k : κ) : Prop :=
  ∀ c, found.getLast? = some c → compare c k = .lt

variable (good : κ → Prop)

/-- The least good key behind the last one is found among those that are present, or there is
none and the enumeration ends. -/
inductive ScanStep (present : κ → Prop) (s : Scan κ) : Scan κ → Prop
  | found {k : κ} (running : s.ended = false) (hpresent : present k) (hgood : good k)
      (hbeyond : Beyond s.found k)
      (hleast : ∀ k', present k' → good k' → Beyond s.found k' → compare k k' ≠ .gt) :
      ScanStep present s ⟨s.found ++ [k], false⟩
  | done (running : s.ended = false)
      (hnone : ∀ k, present k → good k → ¬Beyond s.found k) :
      ScanStep present s ⟨s.found, true⟩

/-- A question to each of these sets, in their order. -/
inductive Scans : Scan κ → List (κ → Prop) → Scan κ → Prop
  | nil (s : Scan κ) : Scans s [] s
  | cons {s t u : Scan κ} {present : κ → Prop} {sets : List (κ → Prop)}
      (hstep : ScanStep good present s t) (hrest : Scans t sets u) : Scans s (present :: sets) u

variable {good} {s t : Scan κ} {present : κ → Prop} {sets : List (κ → Prop)}

/-- An enumeration that has ended is asked nothing more. -/
theorem Scans.eq_of_ended (h : Scans good s sets t) (hended : s.ended = true) :
    t = s ∧ sets = [] := by
  cases h with
  | nil => exact ⟨rfl, rfl⟩
  | cons hstep _ =>
    cases hstep with
    | found running => rw [hended] at running; cases running
    | done running => rw [hended] at running; cases running

/-- As many keys are found as questions were asked, less one for the end. -/
theorem Scans.length (h : Scans good s sets t) :
    s.found.length + sets.length ≤ t.found.length + 1 ∧
      (t.ended = false → s.found.length + sets.length = t.found.length) := by
  induction h with
  | nil s => simp
  | cons hstep hrest ih =>
    cases hstep with
    | found _ _ _ _ _ =>
      simp only [List.length_append, List.length_cons, List.length_nil] at ih ⊢
      refine ⟨by omega, fun hrunning => ?_⟩
      have := ih.2 hrunning
      omega
    | done _ _ =>
      obtain ⟨rfl, rfl⟩ := hrest.eq_of_ended rfl
      simp

/-- What is found was present at some question, or was found before. -/
theorem Scans.mem (h : Scans good s sets t) {k : κ} (hk : k ∈ t.found) :
    k ∈ s.found ∨ ∃ present ∈ sets, present k := by
  induction h with
  | nil s => exact .inl hk
  | cons hstep _ ih =>
    rcases ih hk with hfound | ⟨present, hmem, hpresent⟩
    · cases hstep with
      | found _ hpresent =>
        rcases List.mem_append.mp hfound with hfound | hlast
        · exact .inl hfound
        · obtain rfl := List.mem_singleton.mp hlast
          exact .inr ⟨_, List.mem_cons_self, hpresent⟩
      | done => exact .inl hfound
    · exact .inr ⟨present, List.mem_cons_of_mem _ hmem, hpresent⟩

section Lawful

variable [Std.LawfulEqOrd κ]

/-- A good key that is present at each question has been found, or is behind what was. -/
theorem Scans.found_or_beyond (h : Scans good s sets t) {k : κ} (hgood : good k)
    (hpresent : ∀ present ∈ sets, present k)
    (hs : k ∈ s.found ∨ s.ended = false ∧ Beyond s.found k) :
    k ∈ t.found ∨ t.ended = false ∧ Beyond t.found k := by
  induction h with
  | nil s => exact hs
  | cons hstep _ ih =>
    obtain ⟨hfirst, hrest⟩ := List.forall_mem_cons.mp hpresent
    refine ih hrest ?_
    cases hstep with
    | @found k₀ _ _ _ _ hleast =>
      rcases hs with hk | ⟨_, hk⟩
      · exact .inl (List.mem_append_left _ hk)
      · cases hcmp : compare k₀ k with
        | gt => exact absurd hcmp (hleast k hfirst hgood hk)
        | eq =>
          obtain rfl : k₀ = k := Std.LawfulEqOrd.compare_eq_iff_eq.mp hcmp
          exact .inl (by simp)
        | lt => exact .inr ⟨rfl, by simpa [Beyond] using hcmp⟩
    | done _ hnone =>
      rcases hs with hk | ⟨_, hk⟩
      · exact .inl hk
      · exact absurd hk (hnone k hfirst hgood)

/-- No key is found twice. -/
theorem Ascending.nodup {found : List κ} (h : Ascending id found) : found.Nodup := by
  refine List.Pairwise.imp (fun {a b} hlt heq => ?_) h
  subst heq
  rw [id, compare_key_self] at hlt
  cases hlt

end Lawful

section Trans

variable [Std.TransOrd κ]

/-- All keys found are before one that is behind the last. -/
theorem lt_of_beyond {found : List κ} (h : Ascending id found) {k : κ} (hk : Beyond found k) :
    ∀ a ∈ found, compare a k = .lt := by
  intro a ha
  rcases List.eq_nil_or_concat' found with rfl | ⟨before, c, rfl⟩
  · cases ha
  · have hc : compare c k = .lt := hk c (by simp)
    rcases List.mem_append.mp ha with hbefore | hlast
    · have hlt := (List.pairwise_append.mp h).2.2 a hbefore c List.mem_cons_self
      exact Std.TransCmp.lt_trans hlt hc
    · obtain rfl := List.mem_singleton.mp hlast
      exact hc

/-- **What is found ascends.** -/
theorem Scans.ascending (h : Scans good s sets t) (hs : Ascending id s.found) :
    Ascending id t.found := by
  induction h with
  | nil s => exact hs
  | cons hstep _ ih =>
    refine ih ?_
    cases hstep with
    | found _ _ _ hbeyond _ =>
      refine List.pairwise_append.mpr ⟨hs, List.pairwise_singleton _ _, fun a ha b hb => ?_⟩
      obtain rfl := List.mem_singleton.mp hb
      exact lt_of_beyond hs hbeyond a ha
    | done _ _ => exact hs

end Trans

variable [Std.TransOrd κ] [Std.LawfulEqOrd κ]

/-- **A good key that is present at each question is found exactly once.** -/
theorem Scans.count_eq_one [BEq κ] [LawfulBEq κ] (h : Scans good .start sets t)
    (hended : t.ended = true) {k : κ} (hgood : good k)
    (hpresent : ∀ present ∈ sets, present k) : t.found.count k = 1 := by
  have hk : k ∈ t.found := by
    refine (h.found_or_beyond hgood hpresent (.inr ⟨rfl, ?_⟩)).resolve_right ?_
    · simp [Beyond, Scan.start]
    · rw [hended]
      simp
  exact List.count_eq_one_of_mem (h.ascending List.Pairwise.nil).nodup hk

/-- **Over finitely many keys the enumeration ends**, whatever becomes of the set. -/
theorem Scans.ended_of_finite {all : Set κ} (hfinite : all.Finite)
    (hall : ∀ present ∈ sets, ∀ k, present k → k ∈ all) (h : Scans good .start sets t)
    (hmany : all.ncard < sets.length) : t.ended = true := by
  classical
  by_contra hrunning
  have hlength := h.length.2 (by simpa using hrunning)
  have hnodup := (h.ascending List.Pairwise.nil).nodup
  have hsub : (t.found.toFinset : Set κ) ⊆ all := by
    intro k hk
    rcases h.mem (by simpa using hk) with hstart | ⟨present, hmem, hpresent⟩
    · cases hstart
    · exact hall present hmem k hpresent
  have hcard := Set.ncard_le_ncard hsub hfinite
  rw [Set.ncard_coe_finset, List.toFinset_card_of_nodup hnodup] at hcard
  simp only [Scan.start, List.length_nil, Nat.zero_add] at hlength
  omega

end Enumeration

end Lib

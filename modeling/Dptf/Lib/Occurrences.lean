import Mathlib.Data.List.Basic

/-!
# Occurrences in a text, and their replacement

A test says whether an occurrence stands at the front of a text; all are of one length.  They
are found from the left and do not overlap.

* `occurrences_induction` — **induction from one occurrence to the next**.
-/

namespace Lib

section Occurrences

variable {α : Type*} (occurs : List α → Bool) (n : Nat) (new : List α)

/-- Where the first occurrence begins. -/
def firstOccurrence : List α → Option Nat
  | [] => none
  | a :: text => if occurs (a :: text) then some 0 else (firstOccurrence text).map (· + 1)

/-- The replacement, after so many elements that belong to an occurrence. -/
def replaceFrom : Nat → List α → List α
  | _, [] => []
  | skip + 1, _ :: text => replaceFrom skip text
  | 0, a :: text =>
    if occurs (a :: text) then new ++ replaceFrom (n - 1) text else a :: replaceFrom 0 text

/-- Each occurrence replaced. -/
def replaceAll (text : List α) : List α := replaceFrom occurs n new 0 text

/-- What is between the occurrences, after so many elements that belong to one. -/
def piecesFrom : Nat → List α → List (List α)
  | _, [] => [[]]
  | skip + 1, _ :: text => piecesFrom skip text
  | 0, a :: text =>
    if occurs (a :: text) then [] :: piecesFrom (n - 1) text
    else (piecesFrom 0 text).modifyHead (a :: ·)

/-- What is before, between and behind the occurrences. -/
def pieces (text : List α) : List (List α) := piecesFrom occurs n 0 text

variable {occurs n new}

theorem replaceFrom_eq_drop (skip : Nat) (text : List α) :
    replaceFrom occurs n new skip text = replaceAll occurs n new (text.drop skip) := by
  induction skip generalizing text with
  | zero => rfl
  | succ skip ih =>
    cases text with
    | nil => rfl
    | cons a text => exact ih text

theorem piecesFrom_eq_drop (skip : Nat) (text : List α) :
    piecesFrom occurs n skip text = pieces occurs n (text.drop skip) := by
  induction skip generalizing text with
  | zero => rfl
  | succ skip ih =>
    cases text with
    | nil => rfl
    | cons a text => exact ih text

theorem firstOccurrence_eq_some {text : List α} {k : Nat}
    (h : firstOccurrence occurs text = some k) : k < text.length ∧ occurs (text.drop k) = true := by
  induction text generalizing k with
  | nil => cases h
  | cons a text ih =>
    rw [firstOccurrence] at h
    split at h
    · next hoccurs =>
      cases h
      exact ⟨Nat.succ_pos _, hoccurs⟩
    · rw [Option.map_eq_some_iff] at h
      obtain ⟨k, hk, rfl⟩ := h
      obtain ⟨hlt, hoccurs⟩ := ih hk
      exact ⟨Nat.succ_lt_succ hlt, hoccurs⟩

/-- Without an occurrence nothing is replaced. -/
theorem replaceAll_of_none (new : List α) {text : List α} (h : firstOccurrence occurs text = none) :
    replaceAll occurs n new text = text ∧ pieces occurs n text = [text] := by
  induction text with
  | nil => exact ⟨rfl, rfl⟩
  | cons a text ih =>
    rw [firstOccurrence] at h
    split at h
    · cases h
    · next hnot =>
      obtain ⟨hreplace, hpieces⟩ := ih (Option.map_eq_none_iff.mp h)
      rw [replaceAll] at hreplace
      rw [pieces] at hpieces
      constructor
      · rw [replaceAll, replaceFrom, if_neg hnot, hreplace]
      · rw [pieces, piecesFrom, if_neg hnot, hpieces]
        rfl

/-- The first occurrence is replaced, and the text behind it. -/
theorem replaceAll_of_some (hn : 0 < n) (new : List α) {text : List α} {k : Nat}
    (h : firstOccurrence occurs text = some k) :
    replaceAll occurs n new text =
        text.take k ++ new ++ replaceAll occurs n new (text.drop (k + n)) ∧
      pieces occurs n text = text.take k :: pieces occurs n (text.drop (k + n)) := by
  induction text generalizing k with
  | nil => cases h
  | cons a text ih =>
    rw [firstOccurrence] at h
    split at h
    · next hoccurs =>
      cases h
      obtain ⟨n, rfl⟩ : ∃ n', n = n' + 1 := ⟨n - 1, by omega⟩
      constructor
      · rw [replaceAll, replaceFrom, if_pos hoccurs, replaceFrom_eq_drop]
        simp
      · rw [pieces, piecesFrom, if_pos hoccurs, piecesFrom_eq_drop]
        simp
    · next hnot =>
      rw [Option.map_eq_some_iff] at h
      obtain ⟨k, hk, rfl⟩ := h
      obtain ⟨hreplace, hpieces⟩ := ih hk
      rw [replaceAll] at hreplace
      rw [pieces] at hpieces
      have hdrop : (a :: text).drop (k + 1 + n) = text.drop (k + n) := by
        rw [Nat.add_right_comm, List.drop_succ_cons]
      constructor
      · rw [replaceAll, replaceFrom, if_neg hnot, hreplace, hdrop]
        simp
      · rw [pieces, piecesFrom, if_neg hnot, hpieces, hdrop]
        rfl

theorem pieces_ne_nil (occurs : List α → Bool) (hn : 0 < n) (text : List α) :
    pieces occurs n text ≠ [] := by
  cases h : firstOccurrence occurs text with
  | none => rw [(replaceAll_of_none [] h).2]; exact List.cons_ne_nil _ _
  | some k => rw [(replaceAll_of_some hn [] h).2]; exact List.cons_ne_nil _ _

/-- **From one occurrence to the next.**  What holds of a text without an occurrence, and of one
if it holds of the text behind the first, holds of every text. -/
theorem occurrences_induction (occurs : List α → Bool) (hn : 0 < n) {motive : List α → Prop}
    (none : ∀ text, firstOccurrence occurs text = none → motive text)
    (some : ∀ text k, firstOccurrence occurs text = some k → motive (text.drop (k + n)) →
      motive text)
    (text : List α) : motive text := by
  induction hlen : text.length using Nat.strongRecOn generalizing text with
  | _ len ih =>
  subst hlen
  cases h : firstOccurrence occurs text with
  | none => exact none text h
  | some k =>
    refine some text k h (ih _ ?_ _ rfl)
    have hlt := (firstOccurrence_eq_some h).1
    rw [List.length_drop]
    omega

/-- Each occurrence counts as it is in the old text, and as what replaces it in the new one. -/
theorem length_replaceAll (new : List α) (hn : 0 < n) (hlen : ∀ text, occurs text = true → n ≤ text.length)
    (text : List α) :
    (replaceAll occurs n new text).length + ((pieces occurs n text).length - 1) * n =
      text.length + ((pieces occurs n text).length - 1) * new.length := by
  induction text using occurrences_induction occurs hn with
  | none text h =>
    obtain ⟨hreplace, hpieces⟩ := replaceAll_of_none (n := n) new h
    simp [hreplace, hpieces]
  | some text k h ih =>
    obtain ⟨hreplace, hpieces⟩ := replaceAll_of_some hn new h
    obtain ⟨hlt, hoccurs⟩ := firstOccurrence_eq_some h
    have hle := hlen _ hoccurs
    have hpos := List.length_pos_iff.mpr (pieces_ne_nil occurs hn (text.drop (k + n)))
    rw [List.length_drop] at hle
    rw [hreplace, hpieces]
    obtain ⟨c, hc⟩ : ∃ c, (pieces occurs n (text.drop (k + n))).length = c + 1 :=
      ⟨_, (Nat.sub_add_cancel hpos).symm⟩
    rw [hc, Nat.add_sub_cancel, List.length_drop] at ih
    simp only [List.length_append, List.length_take, List.length_cons, hc, Nat.add_sub_cancel,
      Nat.succ_mul]
    omega

/-- There are no more occurrences than elements. -/
theorem length_pieces_le (hn : 0 < n) (hlen : ∀ text, occurs text = true → n ≤ text.length)
    (text : List α) : (pieces occurs n text).length ≤ text.length + 1 := by
  have hcount := length_replaceAll [] hn hlen text
  have hle := Nat.le_mul_of_pos_right ((pieces occurs n text).length - 1) hn
  simp only [List.length_nil, Nat.mul_zero] at hcount
  omega

theorem length_le_replaceAll (hn : 0 < n) (hlen : ∀ text, occurs text = true → n ≤ text.length)
    (hle : n ≤ new.length) (text : List α) :
    text.length ≤ (replaceAll occurs n new text).length := by
  have hcount := length_replaceAll new hn hlen text
  have hmul := Nat.mul_le_mul_left ((pieces occurs n text).length - 1) hle
  omega

/-- Two tests find the same where they agree on what is behind each place. -/
theorem firstOccurrence_congr {occurs' : List α → Bool} {text : List α}
    (h : ∀ rest, rest <:+ text → occurs rest = occurs' rest) :
    firstOccurrence occurs text = firstOccurrence occurs' text := by
  induction text with
  | nil => rfl
  | cons a text ih =>
    rw [firstOccurrence, firstOccurrence, h _ List.suffix_rfl,
      ih fun rest hrest => h rest (hrest.trans (List.suffix_cons a text))]

/-! ## Moving the pieces -/

/-- From a distance on, the pieces can be moved to where they belong, each to a place that does
not overlap with where it is.  Behind the last piece there is one more element. -/
def Apart (n new : Nat) : Nat → List (List α) → Prop
  | _, [] => True
  | gap, [last] => gap = 0 ∨ last.length + 1 ≤ gap
  | gap, piece :: next :: rest =>
    (gap = 0 ∨ piece.length ≤ gap) ∧ Apart n new (gap + n - new) (next :: rest)

instance Apart.decidable (n new : Nat) :
    ∀ (gap : Nat) (pieces : List (List α)), Decidable (Apart n new gap pieces)
  | _, [] => isTrue trivial
  | gap, [last] => inferInstanceAs (Decidable (gap = 0 ∨ last.length + 1 ≤ gap))
  | gap, _ :: next :: rest =>
    have : Decidable (Apart n new (gap + n - new) (next :: rest)) := Apart.decidable n new _ _
    inferInstanceAs (Decidable (_ ∧ _))

theorem apart_cons (n new gap : Nat) (piece : List α) {rest : List (List α)} (h : rest ≠ []) :
    Apart n new gap (piece :: rest) ↔
      (gap = 0 ∨ piece.length ≤ gap) ∧ Apart n new (gap + n - new) rest := by
  cases rest with
  | nil => exact absurd rfl h
  | cons next rest => rfl

end Occurrences

end Lib

import Dptf.Lib.Machine
import Mathlib.Data.List.Induction
import Mathlib.Data.List.Flatten

/-!
# Words in a stream that comes in pieces

A sender writes words one behind the other.  The receiver gets the letters in
pieces that are cut anywhere, does the words that are complete and keeps the part of
the next one.  What it has done in the end does not depend on the cuts.

* `Serves.run_prefix`, `Serves.run` — **the stream rule**: so it does with any stream in
  any pieces.
-/

namespace Lib

section Stream

variable {α β : Type*} (enc : β → List α)

/-- The letters end behind the words that are done, in a part of the next one. -/
structure Cut (words : List β) (letters : List α) (done todo : List β) (part : List α) :
    Prop where
  words_eq : words = done ++ todo
  letters_eq : letters = done.flatMap enc ++ part
  part_lt : (part = [] ∧ todo = []) ∨
    ∃ word rest behind, todo = word :: rest ∧ enc word = part ++ behind ∧ behind ≠ []

/-- The letters of the word that is not complete. -/
def leftover : List β → List α → List α
  | [], letters => letters
  | word :: words, letters =>
    if (enc word).length ≤ letters.length then leftover words (letters.drop (enc word).length)
    else letters

/-- No more is left over than was received. -/
theorem length_leftover_le (words : List β) (letters : List α) :
    (leftover enc words letters).length ≤ letters.length := by
  induction words generalizing letters with
  | nil => exact Nat.le_refl _
  | cons word words ih =>
    rw [leftover]
    split
    · refine Nat.le_trans (ih _) ?_
      rw [List.length_drop]
      exact Nat.sub_le _ _
    · exact Nat.le_refl _

variable {enc}

/-- Some letters of a stream begin with its first word, or are a part of it. -/
theorem word_or_part {word more letters rest : List α} (h : letters ++ rest = word ++ more) :
    (∃ letters', letters = word ++ letters' ∧ letters' ++ rest = more) ∨
      ∃ behind, word = letters ++ behind ∧ behind ≠ [] := by
  rcases List.append_eq_append_iff.mp h with ⟨behind, hword, hmore⟩ | ⟨letters', hletters, hmore⟩
  · by_cases hb : behind = []
    · subst hb
      exact .inl ⟨[], by simpa using hword.symm, by simpa using hmore⟩
    · exact .inr ⟨behind, hword, hb⟩
  · exact .inl ⟨letters', hletters, hmore.symm⟩

/-- **Any letters of a stream end somewhere among its words.** -/
theorem cut_exists (words : List β) {letters rest : List α}
    (h : letters ++ rest = words.flatMap enc) :
    ∃ done todo part, Cut enc words letters done todo part := by
  induction words generalizing letters with
  | nil =>
    obtain ⟨rfl, rfl⟩ := List.append_eq_nil_iff.mp h
    exact ⟨[], [], [], rfl, rfl, .inl ⟨rfl, rfl⟩⟩
  | cons word words ih =>
    rcases word_or_part h with ⟨letters', rfl, hmore⟩ | ⟨behind, hword, hb⟩
    · obtain ⟨done, todo, part, rfl, rfl, hpart⟩ := ih hmore
      exact ⟨word :: done, todo, part, rfl, by simp, hpart⟩
    · exact ⟨[], word :: words, letters, rfl, rfl, .inr ⟨word, words, behind, rfl, hword, hb⟩⟩

/-- The cut says what is left over. -/
theorem Cut.leftover_eq {words done todo : List β} {letters part : List α}
    (h : Cut enc words letters done todo part) : leftover enc words letters = part := by
  obtain ⟨rfl, rfl, hpart⟩ := h
  induction done with
  | nil =>
    rcases hpart with ⟨rfl, rfl⟩ | ⟨word, rest, behind, rfl, hword, hb⟩
    · rfl
    · have hpos : 0 < behind.length := List.length_pos_iff.mpr hb
      have hlt : ¬(enc word).length ≤ part.length := by
        rw [hword, List.length_append]
        omega
      simp only [List.nil_append, List.flatMap_nil, leftover, if_neg hlt]
  | cons word done ih =>
    have hle : (enc word).length ≤ ((word :: done).flatMap enc ++ part).length := by
      simp only [List.flatMap_cons, List.length_append]
      omega
    rw [List.cons_append, leftover, if_pos hle, List.flatMap_cons, List.append_assoc,
      List.drop_left]
    exact ih

/-- If some pieces end with a word, the piece that completes it ends with it too. -/
theorem Cut.ends {words done first last todo : List β} {word : β} {part part' piece : List α}
    {before behind got rest : List (List α)} (hword : ∀ word, enc word ≠ [])
    (hcut : Cut enc words before.flatten done (first ++ word :: last ++ todo) part)
    (hcut' : Cut enc words (before ++ [piece]).flatten (done ++ (first ++ word :: last)) todo part')
    (hgot : before ++ piece :: behind = got ++ rest)
    (hend : got.flatten = (done ++ first ++ [word]).flatMap enc) : last = [] ∧ part' = [] := by
  -- the word is not complete before the piece
  have hbefore : before.flatten.length < got.flatten.length := by
    rw [hend, hcut.letters_eq]
    simp only [List.flatMap_append, List.length_append]
    rcases hcut.part_lt with ⟨-, hnil⟩ | ⟨w, later, tail, htodo, henc, htail⟩
    · simp at hnil
    · have hpos : 0 < tail.length := List.length_pos_iff.mpr htail
      have hlen := congrArg List.length henc
      rw [List.length_append] at hlen
      cases first with
      | nil =>
        obtain ⟨rfl, -⟩ := List.cons_eq_cons.mp htodo
        simp only [List.flatMap_nil, List.length_nil, List.flatMap_cons, List.append_nil]
        omega
      | cons v first =>
        obtain ⟨rfl, -⟩ := List.cons_eq_cons.mp htodo
        simp only [List.flatMap_cons, List.length_append]
        omega
  -- so the pieces that end with it go up to this one
  rcases List.append_eq_append_iff.mp hgot with ⟨more, rfl, hmore⟩ | ⟨more, rfl, -⟩
  · cases more with
    | nil => simp at hbefore
    | cons p more =>
      obtain ⟨rfl, -⟩ := List.cons_eq_cons.mp hmore
      have hlen := congrArg List.length hend
      have hlen' := congrArg List.length hcut'.letters_eq
      simp only [List.flatten_append, List.flatten_cons, List.flatten_nil, List.append_nil,
        List.flatMap_append, List.flatMap_cons, List.flatMap_nil, List.length_append] at hlen hlen'
      have hnone : (last.flatMap enc).length = 0 ∧ part'.length = 0 := by omega
      refine ⟨?_, List.length_eq_zero_iff.mp hnone.2⟩
      cases last with
      | nil => rfl
      | cons v last => simp [hword v] at hnone
  · rw [List.flatten_append, List.length_append] at hbefore
    omega

/-- A complete stream leaves nothing over. -/
theorem Cut.all_done {words done todo : List β} {part : List α}
    (h : Cut enc words (words.flatMap enc) done todo part) : done = words ∧ part = [] := by
  obtain ⟨rfl, hletters, hpart⟩ := h
  rcases hpart with ⟨rfl, rfl⟩ | ⟨word, rest, behind, rfl, hword, hb⟩
  · exact ⟨by simp, rfl⟩
  · have hpos : 0 < behind.length := List.length_pos_iff.mpr hb
    have hlen := congrArg List.length hletters
    simp only [List.flatMap_append, List.flatMap_cons, List.length_append, hword] at hlen
    omega

/-! ## The receiver -/

variable {σ τ : Type*} (enc) (serve : σ → List α → Option σ) (spec : τ → β → Option τ)
  (rel : σ → List α → τ → Prop)
  (room : σ → List α → List α → List β → List α → Prop)

/-- What the receiver holds and gets is served as the words that are complete in it are by the
machine, which can do the others too, if there is room for it: `room` is about the state, what
is held, what comes, the words it completes and what is left over. -/
def Serves : Prop :=
  ∀ ⦃s : σ⦄ ⦃held piece : List α⦄ ⦃t t' t'' : τ⦄ ⦃words done todo : List β⦄ ⦃part : List α⦄,
    rel s held t → piece ≠ [] → room s held piece done part →
      Cut enc words (held ++ piece) done todo part →
      run spec t done = some t' → run spec t' todo = some t'' →
        ∃ s', serve s piece = some s' ∧ rel s' part t'

/-- There is room for each of the pieces when it comes. -/
def Fits (s : σ) (words : List β) (pieces : List (List α)) : Prop :=
  ∀ ⦃before piece behind s' done done' todo part part'⦄, pieces = before ++ piece :: behind →
    run serve s before = some s' → Cut enc words before.flatten done (done' ++ todo) part →
    Cut enc words (before ++ [piece]).flatten (done ++ done') todo part' →
    room s' part piece done' part'

variable {enc serve spec rel room}

/-- The letters may end between two words. -/
theorem cut_between (hword : ∀ word, enc word ≠ []) (done todo : List β) :
    Cut enc (done ++ todo) (done.flatMap enc) done todo [] := by
  refine ⟨rfl, (List.append_nil _).symm, ?_⟩
  cases todo with
  | nil => exact .inl ⟨rfl, rfl⟩
  | cons word words => exact .inr ⟨word, words, enc word, rfl, rfl, hword word⟩

/-- Where nothing was received yet, nothing is done. -/
theorem cut_nil (hword : ∀ word, enc word ≠ []) (words : List β) :
    Cut enc words [] [] words [] := cut_between hword [] words

/-- **The stream rule**, while the stream has not come to its end. -/
theorem Serves.run_prefix (h : Serves enc serve spec rel room) (hword : ∀ word, enc word ≠ [])
    {s : σ} {t t' : τ} {words : List β} (hrel : rel s [] t) (hspec : run spec t words = some t')
    {pieces : List (List α)} {rest : List α}
    (hpieces : pieces.flatten ++ rest = words.flatMap enc) (hne : ∀ piece ∈ pieces, piece ≠ [])
    (hfits : Fits enc serve room s words pieces) :
    ∃ s' t'' done todo part, run serve s pieces = some s' ∧
      Cut enc words pieces.flatten done todo part ∧ run spec t done = some t'' ∧
      rel s' part t'' := by
  induction pieces using List.reverseRecOn generalizing rest with
  | nil => exact ⟨s, t, [], words, [], rfl, cut_nil hword words, rfl, hrel⟩
  | append_singleton pieces piece ih =>
    rw [List.flatten_append, List.append_assoc] at hpieces
    have hfits₁ : Fits enc serve room s words pieces := by
      intro before p behind s₁ done done' todo part part' hp
      have hp' : pieces ++ [piece] = before ++ p :: (behind ++ [piece]) := by simp [hp]
      exact hfits hp'
    obtain ⟨s₁, t₁, done, todo, part, hrun, hcut, hdone, hrel₁⟩ :=
      ih hpieces (fun p hp => hne p (by simp [hp])) hfits₁
    -- what was kept and the piece end among the words that are left
    have htail : (part ++ piece) ++ rest = todo.flatMap enc := by
      rw [hcut.letters_eq, hcut.words_eq, List.flatMap_append, List.append_assoc] at hpieces
      simpa using List.append_cancel_left hpieces
    obtain ⟨done', todo', part', hcut'⟩ := cut_exists todo htail
    have hsplit : words = (done ++ done') ++ todo' := by
      rw [List.append_assoc, ← hcut'.words_eq, hcut.words_eq]
    have hletters : (pieces ++ [piece]).flatten = (done ++ done').flatMap enc ++ part' := by
      rw [List.flatten_append, hcut.letters_eq, List.append_assoc, List.flatMap_append,
        List.append_assoc, ← hcut'.letters_eq]
      simp
    have hall : Cut enc words (pieces ++ [piece]).flatten (done ++ done') todo' part' :=
      ⟨hsplit, hletters, hcut'.part_lt⟩
    rw [hsplit] at hspec
    obtain ⟨t₂, hboth, hlater⟩ := run_append_eq_some hspec
    obtain ⟨t₃, hfirst, hsecond⟩ := run_append_eq_some hboth
    obtain rfl : t₁ = t₃ := Option.some.inj (hdone.symm.trans hfirst)
    have hroom := hfits rfl hrun (hcut'.words_eq ▸ hcut) hall
    obtain ⟨s₂, hserve, hrel₂⟩ := h hrel₁ (hne piece (by simp)) hroom hcut' hsecond hlater
    refine ⟨s₂, t₂, done ++ done', todo', part', ?_, hall, hboth, hrel₂⟩
    rw [run_append, hrun]
    simp [hserve]

/-- **The stream rule.**  A stream is served as its words are by the machine, whatever pieces it
comes in. -/
theorem Serves.run (h : Serves enc serve spec rel room) (hword : ∀ word, enc word ≠ [])
    {s : σ} {t t' : τ} {words : List β} (hrel : rel s [] t)
    (hspec : Lib.run spec t words = some t') {pieces : List (List α)}
    (hpieces : pieces.flatten = words.flatMap enc) (hne : ∀ piece ∈ pieces, piece ≠ [])
    (hfits : Fits enc serve room s words pieces) :
    ∃ s', Lib.run serve s pieces = some s' ∧ rel s' [] t' := by
  have hall : pieces.flatten ++ [] = words.flatMap enc := by simpa using hpieces
  obtain ⟨s', t'', done, todo, part, hrun, hcut, hdone, hrel'⟩ :=
    h.run_prefix hword hrel hspec hall hne hfits
  rw [hpieces] at hcut
  obtain ⟨rfl, rfl⟩ := hcut.all_done
  obtain rfl : t' = t'' := Option.some.inj (hspec.symm.trans hdone)
  exact ⟨s', hrun, hrel'⟩

end Stream

end Lib

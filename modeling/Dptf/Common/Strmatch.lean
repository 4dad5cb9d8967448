import Dptf.Common.CString
import Dptf.Lib.Wildcard

/-!
# Matching a name against a pattern

`esif_ccb_strmatch` walks two C strings at once and calls itself at a `*`.  Its pointers are
what is left of the two buffers, and a read behind a buffer's end, or a call too many, gives
no answer.

* `esifCcbStrmatch_decides_language` — **and that answer is whether the pattern stands for
  the string**.
-/

open Lib.Wildcard

/-- `esif_ccb_strmatch`, for at most `fuel` turns and calls, one inside the other. -/
def esifCcbStrmatch : Nat → List UInt8 → List UInt8 → Option Bool
  | 0, _, _ => none
  | fuel + 1, string, pattern => do
    let p ← pattern.head?
    if p = 42 then
      match ← esifCcbStrmatch fuel string pattern.tail with
      | true => some true
      | false =>
        let s ← string.head?
        if s ≠ 0 then esifCcbStrmatch fuel string.tail pattern else some false
    else
      let s ← string.head?
      if p = 0 ∧ s = 0 then some true
      else if s ≠ 0 ∧ (p = 63 ∨ (p ≠ 0 ∧ tolower s = tolower p)) then
        esifCcbStrmatch fuel string.tail pattern.tail
      else some false

namespace CName

/-- What one character of a pattern stands for. -/
def sign (p : UInt8) : Sign UInt8 :=
  if p = 42 then .any else if p = 63 then .one else .char fun b => tolower b = tolower p

/-- The texts a pattern stands for. -/
def language (pattern : List UInt8) : Language UInt8 :=
  Lib.Wildcard.language (pattern.map sign)

end CName

/-! ## One character of the pattern at a time -/

section Turns

variable {b p : UInt8} {s pattern : List UInt8}

@[simp] theorem strmatch_nil : strmatch s [] = s.isEmpty := by
  cases s <;> rfl

theorem strmatch_nil_star : strmatch [] (42 :: pattern) = strmatch [] pattern := by
  simp [strmatch]

theorem strmatch_cons_star :
    strmatch (b :: s) (42 :: pattern) =
      (strmatch (b :: s) pattern || strmatch s (42 :: pattern)) := by
  simp [strmatch]

theorem strmatch_nil_cons (hp : p ≠ 42) : strmatch [] (p :: pattern) = false := by
  simp [strmatch, hp]

theorem strmatch_cons_cons (hp : p ≠ 42) :
    strmatch (b :: s) (p :: pattern) =
      ((p = 63 || tolower b = tolower p) && strmatch s pattern) := by
  simp [strmatch, hp]

/-- A pattern's language, where its first character is no star. -/
theorem CName.cons_mem_language (hp : p ≠ 42) :
    b :: s ∈ CName.language (p :: pattern) ↔
      (p = 63 ∨ tolower b = tolower p) ∧ s ∈ CName.language pattern := by
  simp only [CName.language, List.map_cons, CName.sign, if_neg hp]
  by_cases hone : p = 63
  · simp [hone]
  · simp [hone]

theorem CName.nil_mem_language (hp : p ≠ 42) : [] ∉ CName.language (p :: pattern) := by
  simp only [CName.language, List.map_cons, CName.sign, if_neg hp]
  by_cases hone : p = 63
  · simp [hone]
  · simp [hone]

end Turns

/-! ## The language of a pattern -/

/-- **`strmatch` decides the language of its pattern**.  The induction is on the pattern, and
at a star on the string. -/
theorem strmatch_iff_mem_language (s pattern : List UInt8) :
    strmatch s pattern = true ↔ s ∈ CName.language pattern := by
  induction pattern generalizing s with
  | nil => simp [CName.language]
  | cons p pattern ih =>
    by_cases hstar : p = 42
    · subst hstar
      have hlanguage : CName.language (42 :: pattern) =
          Lib.Wildcard.language (Sign.any :: pattern.map CName.sign) := rfl
      induction s with
      | nil =>
        rw [strmatch_nil_star, ih, hlanguage, nil_mem_language_any]
        rfl
      | cons b s ihs =>
        rw [strmatch_cons_star, Bool.or_eq_true, hlanguage, cons_mem_language_any, ← hlanguage]
        exact or_congr (ih (b :: s)) ihs
    · cases s with
      | nil => simp [strmatch_nil_cons hstar, CName.nil_mem_language hstar]
      | cons b s => simp [strmatch_cons_cons hstar, CName.cons_mem_language hstar, ih]

/-! ## The loop -/

/-- The loop on two strings in front of their NULs. -/
theorem esifCcbStrmatch_append {fuel : Nat} {s pattern : List UInt8} (hs : (0 : UInt8) ∉ s)
    (hpattern : (0 : UInt8) ∉ pattern) (hfuel : s.length + pattern.length < fuel)
    (rest rest' : List UInt8) :
    esifCcbStrmatch fuel (s ++ 0 :: rest) (pattern ++ 0 :: rest') = some (strmatch s pattern) := by
  induction fuel generalizing s pattern with
  | zero => omega
  | succ fuel ih =>
    cases pattern with
    | nil =>
      cases s with
      | nil => simp [esifCcbStrmatch]
      | cons b s =>
        have hb : b ≠ 0 := fun h => hs (h ▸ List.mem_cons_self)
        simp [esifCcbStrmatch, hb]
    | cons p pattern =>
      have hp : p ≠ 0 := fun h => hpattern (h ▸ List.mem_cons_self)
      have hrest : (0 : UInt8) ∉ pattern := fun h => hpattern (List.mem_cons_of_mem p h)
      simp only [List.length_cons] at hfuel
      by_cases hstar : p = 42
      · subst hstar
        -- the star as nothing
        have hnothing := ih hs hrest (by omega)
        cases s with
        | nil =>
          rw [List.nil_append] at hnothing
          cases h : strmatch [] pattern with
          | false => simp [esifCcbStrmatch, hnothing, h, strmatch_nil_star]
          | true => simp [esifCcbStrmatch, hnothing, h, strmatch_nil_star]
        | cons b s =>
          have hb : b ≠ 0 := fun h => hs (h ▸ List.mem_cons_self)
          have htail : (0 : UInt8) ∉ s := fun h => hs (List.mem_cons_of_mem b h)
          -- the star with one more character
          have hmore := ih htail hpattern (by simp only [List.length_cons] at hfuel ⊢; omega)
          rw [List.cons_append] at hnothing hmore
          cases h : strmatch (b :: s) pattern with
          | false => simp [esifCcbStrmatch, hnothing, h, hb, hmore, strmatch_cons_star]
          | true => simp [esifCcbStrmatch, hnothing, h, strmatch_cons_star]
      · cases s with
        | nil => simp [esifCcbStrmatch, hstar, hp, strmatch_nil_cons hstar]
        | cons b s =>
          have hb : b ≠ 0 := fun h => hs (h ▸ List.mem_cons_self)
          have htail : (0 : UInt8) ∉ s := fun h => hs (List.mem_cons_of_mem b h)
          have hturn := ih htail hrest (by simp only [List.length_cons] at hfuel; omega)
          rw [strmatch_cons_cons hstar]
          by_cases hsame : p = 63 ∨ tolower b = tolower p
          · simp [esifCcbStrmatch, hstar, hp, hb, hsame, hturn]
          · simp [esifCcbStrmatch, hstar, hp, hb, hsame]

/-- **The loop comes to the answer of `strmatch`.** -/
theorem esifCcbStrmatch_eq_strmatch (s pattern : CName) (rest rest' : List UInt8) {fuel : Nat}
    (hfuel : s.bytes.length + pattern.bytes.length < fuel) :
    esifCcbStrmatch fuel (s.bytes ++ 0 :: rest) (pattern.bytes ++ 0 :: rest') =
      some (s.matchesPattern pattern) :=
  esifCcbStrmatch_append s.nul_free pattern.nul_free hfuel rest rest'

/-- **`esif_ccb_strmatch` decides the wildcard language**: on any two C strings it comes to
an end, and says whether the pattern stands for the string. -/
theorem esifCcbStrmatch_decides_language (s pattern : CName) (rest rest' : List UInt8) :
    ∃ answer : Bool,
      (∀ fuel, s.bytes.length + pattern.bytes.length < fuel →
        esifCcbStrmatch fuel (s.bytes ++ 0 :: rest) (pattern.bytes ++ 0 :: rest') =
          some answer) ∧
      (answer = true ↔ s.bytes ∈ CName.language pattern.bytes) := by
  refine ⟨s.matchesPattern pattern, ?_, ?_⟩
  · intro fuel hfuel
    exact esifCcbStrmatch_eq_strmatch s pattern rest rest' hfuel
  · exact strmatch_iff_mem_language s.bytes pattern.bytes

example : esifCcbStrmatch 8 [97, 66, 0] [65, 42, 63, 42, 0] = some true := by decide

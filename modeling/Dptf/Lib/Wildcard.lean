import Mathlib.Computability.Language

/-!
# Patterns with wildcards

A pattern is a list of signs over an alphabet, and its language is the product of what its
signs stand for.

* `nil_mem_language_any`, `cons_mem_language_any` — **what a star leaves to the rest of the
  pattern**, one character at a time.
-/

namespace Lib

namespace Wildcard

variable {α : Type*}

/-- One sign of a pattern. -/
inductive Sign (α : Type*) where
  /-- Any text, the empty one too. -/
  | any
  /-- Any single character. -/
  | one
  /-- A single character of a class. -/
  | char (p : α → Prop)

/-- The texts a sign stands for. -/
def Sign.language : Sign α → Language α
  | .any => ⊤
  | .one => {s | ∃ a, s = [a]}
  | .char p => {s | ∃ a, p a ∧ s = [a]}

/-- The texts a pattern stands for. -/
def language (pattern : List (Sign α)) : Language α := (pattern.map Sign.language).prod

variable {pattern : List (Sign α)} {s : List α} {a : α}

@[simp] theorem mem_language_nil : s ∈ language ([] : List (Sign α)) ↔ s = [] := by
  simp [language, Language.mem_one]

/-- A pattern stands for a text whose front its first sign stands for. -/
theorem mem_language_cons {sign : Sign α} :
    s ∈ language (sign :: pattern) ↔
      ∃ front ∈ sign.language, ∃ rest ∈ language pattern, front ++ rest = s := by
  simp only [language, List.map_cons, List.prod_cons]
  exact Language.mem_mul

/-! ## A single character -/

@[simp] theorem nil_mem_language_one : [] ∈ language (Sign.one :: pattern) ↔ False := by
  rw [mem_language_cons]
  constructor
  · rintro ⟨front, ⟨b, rfl⟩, rest, -, h⟩
    cases h
  · exact False.elim

@[simp] theorem cons_mem_language_one :
    a :: s ∈ language (Sign.one :: pattern) ↔ s ∈ language pattern := by
  rw [mem_language_cons]
  constructor
  · rintro ⟨front, ⟨b, rfl⟩, rest, hrest, h⟩
    obtain ⟨-, rfl⟩ := List.cons.inj h
    exact hrest
  · intro h
    exact ⟨[a], ⟨a, rfl⟩, s, h, rfl⟩

@[simp] theorem nil_mem_language_char {p : α → Prop} :
    [] ∈ language (Sign.char p :: pattern) ↔ False := by
  rw [mem_language_cons]
  constructor
  · rintro ⟨front, ⟨b, -, rfl⟩, rest, -, h⟩
    cases h
  · exact False.elim

@[simp] theorem cons_mem_language_char {p : α → Prop} :
    a :: s ∈ language (Sign.char p :: pattern) ↔ p a ∧ s ∈ language pattern := by
  rw [mem_language_cons]
  constructor
  · rintro ⟨front, ⟨b, hb, rfl⟩, rest, hrest, h⟩
    obtain ⟨rfl, rfl⟩ := List.cons.inj h
    exact ⟨hb, hrest⟩
  · rintro ⟨ha, h⟩
    exact ⟨[a], ⟨a, ha, rfl⟩, s, h, rfl⟩

/-! ## A star -/

theorem mem_language_any :
    s ∈ language (Sign.any :: pattern) ↔ ∃ front rest, rest ∈ language pattern ∧
      front ++ rest = s := by
  rw [mem_language_cons]
  constructor
  · rintro ⟨front, -, rest, hrest, h⟩
    exact ⟨front, rest, hrest, h⟩
  · rintro ⟨front, rest, hrest, h⟩
    exact ⟨front, trivial, rest, hrest, h⟩

/-- A star leaves what comes behind it the whole text. -/
theorem mem_language_any_of_mem (h : s ∈ language pattern) : s ∈ language (Sign.any :: pattern) :=
  mem_language_any.2 ⟨[], s, h, rfl⟩

/-- **A star in front of the empty text** stands for nothing. -/
theorem nil_mem_language_any : [] ∈ language (Sign.any :: pattern) ↔ [] ∈ language pattern := by
  constructor
  · intro h
    obtain ⟨front, rest, hrest, happend⟩ := mem_language_any.1 h
    obtain ⟨-, rfl⟩ := List.append_eq_nil_iff.1 happend
    exact hrest
  · exact mem_language_any_of_mem

/-- **A star in front of a character** stands for nothing, or takes it and goes on. -/
theorem cons_mem_language_any :
    a :: s ∈ language (Sign.any :: pattern) ↔
      a :: s ∈ language pattern ∨ s ∈ language (Sign.any :: pattern) := by
  constructor
  · intro h
    obtain ⟨front, rest, hrest, happend⟩ := mem_language_any.1 h
    cases front with
    | nil =>
      left
      rw [List.nil_append] at happend
      exact happend ▸ hrest
    | cons b front =>
      right
      obtain ⟨-, rfl⟩ := List.cons.inj happend
      exact mem_language_any.2 ⟨front, rest, hrest, rfl⟩
  · rintro (h | h)
    · exact mem_language_any_of_mem h
    · obtain ⟨front, rest, hrest, rfl⟩ := mem_language_any.1 h
      exact mem_language_any.2 ⟨a :: front, rest, hrest, rfl⟩

end Wildcard

end Lib

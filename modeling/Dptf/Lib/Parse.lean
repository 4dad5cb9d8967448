import Dptf.Lib.Layout

/-!
# Parsers that may throw

A parser reads a byte string at positions it computes from what it has read.  It gives a
value, or throws, or does what the language leaves undefined: it reads outside of the string
or divides by zero.
-/

namespace Lib

/-- A parser with its exceptions; `none` is undefined behaviour. -/
abbrev Parse (α : Type) := ExceptT String Option α

namespace Parse

variable {α β : Type}

/-- A step that is undefined where it has no value, such as a checked read. -/
def checked (x : Option α) : Parse α := x.map Except.ok

/-- The division of unsigned numbers. -/
def divided (a b : UInt64) : Parse UInt64 := checked (if b = 0 then none else some (a / b))

/-! ## Safety -/

/-- Nothing undefined happens, and what is returned is as `post` says. -/
def Safe (p : Parse α) (post : α → Prop) : Prop :=
  ∃ r, p.run = some r ∧ ∀ a, r = .ok a → post a

theorem Safe.mono {p : Parse α} {post post' : α → Prop} (h : Safe p post)
    (himp : ∀ a, post a → post' a) : Safe p post' := by
  obtain ⟨r, hr, hpost⟩ := h
  exact ⟨r, hr, fun a ha => himp a (hpost a ha)⟩

theorem safe_pure {post : α → Prop} {a : α} (h : post a) : Safe (pure a) post :=
  ⟨.ok a, rfl, fun b hb => by rwa [← Except.ok.inj hb]⟩

theorem safe_throw (message : String) (post : α → Prop) : Safe (throw message) post :=
  ⟨.error message, rfl, fun a ha => by cases ha⟩

theorem safe_checked {x : Option α} (h : x.isSome) : Safe (checked x) fun a => x = some a := by
  obtain ⟨a, ha⟩ := Option.isSome_iff_exists.mp h
  exact ⟨.ok a, by rw [ha]; rfl, fun b hb => by rw [ha, ← Except.ok.inj hb]⟩

/-- **One step after another.** -/
theorem Safe.bind {p : Parse α} {f : α → Parse β} {mid : α → Prop} {post : β → Prop}
    (h : Safe p mid) (hf : ∀ a, mid a → Safe (f a) post) : Safe (p >>= f) post := by
  obtain ⟨r, hr, hmid⟩ := h
  cases r with
  | error e =>
    refine ⟨.error e, ?_, fun b hb => by cases hb⟩
    rw [ExceptT.run_bind, hr]
    rfl
  | ok a =>
    obtain ⟨r', hr', hpost⟩ := hf a (hmid a rfl)
    refine ⟨r', ?_, hpost⟩
    rw [ExceptT.run_bind, hr]
    exact hr'

/-- A step whose value is known. -/
theorem safe_checked_bind {x : Option α} {a : α} (h : x = some a) {f : α → Parse β}
    {post : β → Prop} (hf : Safe (f a) post) : Safe (checked x >>= f) post :=
  (safe_checked (h ▸ rfl)).bind fun b hb => by
    rwa [← Option.some.inj (h.symm.trans hb)]

theorem safe_divided {a b : UInt64} (h : b ≠ 0) : Safe (divided a b) fun _ => True :=
  (safe_checked (by simp [h])).mono fun _ _ => trivial

/-- What is safe with what comes after it is safe. -/
theorem Safe.of_bind {p : Parse α} {f : α → Parse β} {post : β → Prop}
    (h : Safe (p >>= f) post) : Safe p fun a => Safe (f a) post := by
  obtain ⟨r, hr, hpost⟩ := h
  rw [ExceptT.run_bind] at hr
  cases hp : p.run with
  | none =>
    rw [hp] at hr
    cases hr
  | some r' =>
    refine ⟨r', hp, fun a ha => ?_⟩
    subst ha
    rw [hp] at hr
    exact ⟨r, hr, hpost⟩

theorem safe_ite {c : Prop} [Decidable c] {p q : Parse α} {post : α → Prop}
    (hp : c → Safe p post) (hq : ¬c → Safe q post) : Safe (if c then p else q) post := by
  by_cases hc : c
  · rw [if_pos hc]
    exact hp hc
  · rw [if_neg hc]
    exact hq hc

/-- A check that throws. -/
theorem safe_guard {c : Prop} [Decidable c] {message : String} {p : Parse α} {post : α → Prop}
    (hp : ¬c → Safe p post) : Safe (if c then throw message else p) post :=
  safe_ite (fun _ => safe_throw message post) hp

/-- An exception that is caught. -/
theorem safe_tryCatch {p : Parse α} {handle : String → Parse α} {post : α → Prop}
    (hp : Safe p post) (hhandle : ∀ message, Safe (handle message) post) :
    Safe (tryCatch p handle) post := by
  obtain ⟨r, hr, hpost⟩ := hp
  cases r with
  | error message =>
    obtain ⟨r', hr', hpost'⟩ := hhandle message
    refine ⟨r', ?_, hpost'⟩
    rw [ExceptT.run_tryCatch, hr]
    exact hr'
  | ok a =>
    refine ⟨.ok a, ?_, hpost⟩
    rw [ExceptT.run_tryCatch, hr]
    rfl

/-! ## Values -/

/-- The parser gives this value. -/
def Returns (p : Parse α) (a : α) : Prop := p.run = some (.ok a)

/-- What is given is what the parser gives. -/
theorem Safe.returns {p : Parse α} {post : α → Prop} (h : Safe p post) :
    Safe p fun a => post a ∧ Returns p a := by
  obtain ⟨r, hr, hpost⟩ := h
  refine ⟨r, hr, fun a ha => ⟨hpost a ha, ?_⟩⟩
  rw [Returns, hr, ha]

@[simp] theorem returns_pure_iff {a b : α} : Returns (pure a) b ↔ a = b := by
  simp [Returns]

@[simp] theorem returns_checked_iff {x : Option α} {a : α} : Returns (checked x) a ↔ x = some a := by
  cases x <;> simp [Returns, checked, ExceptT.run]

/-- **A value is given by two steps, one after the other.** -/
theorem returns_bind_iff {p : Parse α} {f : α → Parse β} {b : β} :
    Returns (p >>= f) b ↔ ∃ a, Returns p a ∧ Returns (f a) b := by
  unfold Returns
  rw [ExceptT.run_bind]
  cases p.run with
  | none => simp
  | some r => cases r <;> simp

theorem Returns.bind {p : Parse α} {f : α → Parse β} {a : α} {b : β} (h : Returns p a)
    (hf : Returns (f a) b) : Returns (p >>= f) b :=
  returns_bind_iff.mpr ⟨a, h, hf⟩

theorem returns_mapM {f : α → Parse β} {g : α → β} {as : List α}
    (h : ∀ a ∈ as, Returns (f a) (g a)) : Returns (as.mapM f) (as.map g) := by
  induction as with
  | nil => exact returns_pure_iff.mpr rfl
  | cons a as ih =>
    rw [List.mapM_cons]
    have hrest := ih fun b hb => h b (List.mem_cons_of_mem a hb)
    exact (h a List.mem_cons_self).bind (hrest.bind (returns_pure_iff.mpr rfl))

/-- A parser gives one value at most. -/
theorem Returns.unique {p : Parse α} {a b : α} (h : Returns p a) (h' : Returns p b) : a = b := by
  simpa [Returns] using (Eq.symm h).trans h'

theorem Returns.safe {p : Parse α} {post : α → Prop} {a : α} (h : Returns p a) (hpost : post a) :
    Safe p post :=
  ⟨.ok a, h, fun b hb => by rwa [← Except.ok.inj hb]⟩

/-- A safe parser that returns has the property it promises. -/
theorem Safe.of_returns {p : Parse α} {post : α → Prop} {a : α} (h : Safe p post)
    (hret : Returns p a) : post a := by
  obtain ⟨r, hr, hpost⟩ := h
  exact hpost a (Option.some.inj (hr.symm.trans hret))

/-- An undefined step is not saved by what comes after it. -/
theorem not_safe_checked_bind {x : Option α} (h : x = none) {f : α → Parse β} {post : β → Prop} :
    ¬Safe (checked x >>= f) post := by
  rintro ⟨r, hr, -⟩
  rw [ExceptT.run_bind, h] at hr
  cases hr

end Parse

end Lib

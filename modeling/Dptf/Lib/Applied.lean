import Mathlib.Logic.Basic

/-!
# Requests that are arbitrated and applied

A component keeps requests, arbitrates one value from them and applies it somewhere.  It does
not keep what it has applied: a value is applied if it is not the same as the one that was
arbitrated before.  A new request is kept once it is applied; one that is taken back is
forgotten before.
-/

namespace Lib

/-- The requests, and the value last applied, if one was. -/
structure Applied (R V : Type) where
  requests : R
  applied : Option V

/-- How requests are arbitrated, and which values count as the same. -/
structure Arbitration (R V : Type) where
  arbitrate : R → Except String V
  same : V → V → Bool
  same_symm : ∀ v w, same v w = same w v
  same_self : ∀ v, same v v = true
  same_trans : ∀ u v w, same u v = true → same v w = true → same u w = true

namespace Applied

variable {R V : Type} (arb : Arbitration R V) (write : V → Except String Unit) (a : Applied R V)
  (next : R)
variable {previous new : V}

/-- The requests become `next`, once what they amount to is applied. -/
def set : Applied R V × Except String Unit :=
  match arb.arbitrate a.requests with
  | .error message => (a, .error message)
  | .ok current =>
    match arb.arbitrate next with
    | .error message => (a, .error message)
    | .ok calculated =>
      if arb.same calculated current then ({ a with requests := next }, .ok ())
      else
        match write calculated with
        | .error message => (a, .error message)
        | .ok _ => (⟨next, some calculated⟩, .ok ())

/-- The requests become `next`, and what they amount to is applied. -/
def remove : Applied R V × Except String Unit :=
  match arb.arbitrate a.requests with
  | .error message => (a, .error message)
  | .ok previous =>
    match arb.arbitrate next with
    | .error message => ({ a with requests := next }, .error message)
    | .ok new =>
      if arb.same previous new then ({ a with requests := next }, .ok ())
      else
        match write new with
        | .error message => ({ a with requests := next }, .error message)
        | .ok _ => (⟨next, some new⟩, .ok ())

variable {arb write a next}

/-! ## What becomes of the requests -/

theorem set_cases (arb : Arbitration R V) (write : V → Except String Unit) (a : Applied R V)
    (next : R) : (∃ message, a.set arb write next = (a, .error message)) ∨
      ∃ current calculated, arb.arbitrate a.requests = .ok current ∧
        arb.arbitrate next = .ok calculated ∧
        (arb.same calculated current = true ∧ a.set arb write next = (⟨next, a.applied⟩, .ok ()) ∨
          ¬arb.same calculated current = true ∧
            a.set arb write next = (⟨next, some calculated⟩, .ok ())) := by
  unfold set
  cases hcur : arb.arbitrate a.requests with
  | error message => exact .inl ⟨message, rfl⟩
  | ok current =>
    cases hnext : arb.arbitrate next with
    | error message => exact .inl ⟨message, rfl⟩
    | ok calculated =>
      by_cases hsame : arb.same calculated current = true
      · exact .inr ⟨current, calculated, rfl, rfl, .inl ⟨hsame, if_pos hsame⟩⟩
      · cases hw : write calculated with
        | error message => exact .inl ⟨message, by simp only [if_neg hsame, hw]⟩
        | ok u =>
          exact .inr ⟨current, calculated, rfl, rfl, .inr ⟨hsame, by simp only [if_neg hsame, hw]⟩⟩

/-- What `remove` can do, where the requests can be arbitrated. -/
theorem remove_cases (hcur : arb.arbitrate a.requests = .ok previous)
    (write : V → Except String Unit) (next : R) :
    (∃ message, a.remove arb write next = (⟨next, a.applied⟩, .error message) ∧
        ∀ new, arb.arbitrate next = .ok new →
          ¬arb.same previous new = true ∧ write new = .error message) ∨
      ∃ new, arb.arbitrate next = .ok new ∧ (arb.same previous new = true ∧
            a.remove arb write next = (⟨next, a.applied⟩, .ok ()) ∨
          ¬arb.same previous new = true ∧ write new = .ok () ∧
            a.remove arb write next = (⟨next, some new⟩, .ok ())) := by
  unfold remove
  rw [hcur]
  cases hnext : arb.arbitrate next with
  | error message => exact .inl ⟨message, rfl, fun new h => by cases h⟩
  | ok new =>
    by_cases hsame : arb.same previous new = true
    · exact .inr ⟨new, rfl, .inl ⟨hsame, if_pos hsame⟩⟩
    · cases hw : write new with
      | error message =>
        refine .inl ⟨message, by simp only [if_neg hsame, hw], fun new' h => ?_⟩
        obtain rfl := Except.ok.inj h
        exact ⟨hsame, hw⟩
      | ok u => exact .inr ⟨new, rfl, .inr ⟨hsame, hw, by simp only [if_neg hsame, hw]⟩⟩

/-- A request that fails leaves everything as it was. -/
theorem set_of_error {message : String} (h : (a.set arb write next).2 = .error message) :
    (a.set arb write next).1 = a := by
  rcases set_cases arb write a next with
    ⟨_, heq⟩ | ⟨current, calculated, -, -, ⟨-, heq⟩ | ⟨-, heq⟩⟩
  · rw [heq]
  · rw [heq] at h
    cases h
  · rw [heq] at h
    cases h

/-- The requests are those before, or those asked for, which can be arbitrated then. -/
theorem requests_set (arb : Arbitration R V) (write : V → Except String Unit) (a : Applied R V)
    (next : R) : (a.set arb write next).1.requests = a.requests ∨
      (a.set arb write next).1.requests = next ∧ ∃ v, arb.arbitrate next = .ok v := by
  rcases set_cases arb write a next with
    ⟨_, heq⟩ | ⟨current, calculated, -, hnext, ⟨-, heq⟩ | ⟨-, heq⟩⟩
  · exact .inl (by rw [heq])
  · exact .inr ⟨by rw [heq], calculated, hnext⟩
  · exact .inr ⟨by rw [heq], calculated, hnext⟩

/-- What is taken back is forgotten, unless the requests before cannot be arbitrated. -/
theorem requests_remove (hcur : arb.arbitrate a.requests = .ok previous)
    (write : V → Except String Unit) (next : R) : (a.remove arb write next).1.requests = next := by
  rcases remove_cases hcur write next with
    ⟨_, heq, -⟩ | ⟨new, -, ⟨-, heq⟩ | ⟨-, -, heq⟩⟩ <;> rw [heq]

/-- What holds of the requests before and of those asked for holds of the requests after. -/
theorem requests_set_of (P : R → Prop) (h : P a.requests) (hnext : P next)
    (arb : Arbitration R V) (write : V → Except String Unit) :
    P (a.set arb write next).1.requests := by
  rcases requests_set arb write a next with heq | ⟨heq, -⟩
  · rwa [heq]
  · rwa [heq]

/-- The same of the requests before and the rest. -/
theorem requests_remove_of (P : R → Prop) (h : P a.requests) (hnext : P next)
    (arb : Arbitration R V) (write : V → Except String Unit) :
    P (a.remove arb write next).1.requests := by
  cases hcur : arb.arbitrate a.requests with
  | error message =>
    unfold remove
    rwa [hcur]
  | ok previous => rwa [requests_remove hcur]

/-! ## What is applied -/

/-- The value arbitrated is the one applied. -/
def UpToDate (arb : Arbitration R V) (a : Applied R V) : Prop :=
  ∃ v w, arb.arbitrate a.requests = .ok v ∧ a.applied = some w ∧ arb.same w v = true

/-- Where there are requests, what they amount to is applied. -/
def Synced (arb : Arbitration R V) (live : R → Prop) (a : Applied R V) : Prop :=
  live a.requests → a.UpToDate arb

variable {live : R → Prop}

/-- Other requests that amount to the same leave what is applied up to date. -/
theorem UpToDate.of_same {current new : V} (h : a.UpToDate arb)
    (hcur : arb.arbitrate a.requests = .ok current) (hnext : arb.arbitrate next = .ok new)
    (hsame : arb.same current new = true) : UpToDate arb ⟨next, a.applied⟩ := by
  obtain ⟨v, w, hv, hw, hwv⟩ := h
  obtain rfl : v = current := Except.ok.inj (hv.symm.trans hcur)
  exact ⟨new, w, hnext, hw, arb.same_trans _ _ _ hwv hsame⟩

/-- The first request changes the value that is arbitrated without any, unless that is the one
applied. -/
def FirstIsApplied (arb : Arbitration R V) (live : R → Prop) (a : Applied R V) (next : R) : Prop :=
  ¬live a.requests → live next → a.UpToDate arb ∨
    ∀ current calculated, arb.arbitrate a.requests = .ok current →
      arb.arbitrate next = .ok calculated → ¬arb.same calculated current = true

/-- What the others amount to can be applied, if it has to be. -/
def IsRemovable (arb : Arbitration R V) (write : V → Except String Unit) (a : Applied R V)
    (next : R) : Prop :=
  ∀ previous new, arb.arbitrate a.requests = .ok previous → arb.arbitrate next = .ok new →
    ¬arb.same previous new = true → write new = .ok ()

/-- **A request leaves the arbitrated value applied**, if the first one is. -/
theorem synced_set (h : a.Synced arb live) (hfirst : a.FirstIsApplied arb live next) :
    (a.set arb write next).1.Synced arb live := by
  rcases set_cases arb write a next with
    ⟨_, heq⟩ | ⟨current, calculated, hcur, hnext, ⟨hsame, heq⟩ | ⟨-, heq⟩⟩
  · rwa [heq]
  · rw [heq]
    intro hlive
    have hup : a.UpToDate arb := by
      by_cases hbefore : live a.requests
      · exact h hbefore
      · exact (hfirst hbefore hlive).resolve_right fun hdiff => hdiff _ _ hcur hnext hsame
    exact hup.of_same hcur hnext (arb.same_symm _ _ ▸ hsame)
  · rw [heq]
    exact fun _ => ⟨calculated, calculated, hnext, rfl, arb.same_self _⟩

/-- Taking back returns just if what the others amount to can be applied. -/
theorem remove_ok_iff (hcur : arb.arbitrate a.requests = .ok previous)
    (hnext : arb.arbitrate next = .ok new) (write : V → Except String Unit) :
    (a.remove arb write next).2 = .ok () ↔ a.IsRemovable arb write next := by
  rcases remove_cases hcur write next with
    ⟨_, heq, hfail⟩ | ⟨new', hnew, ⟨hsame, heq⟩ | ⟨hsame, hw, heq⟩⟩
  · obtain ⟨hsame, hw⟩ := hfail new hnext
    refine iff_of_false (by rw [heq]; simp) fun h => ?_
    rw [h previous new hcur hnext hsame] at hw
    cases hw
  · refine iff_of_true (by rw [heq]) fun v w hv hw hdiff => ?_
    obtain rfl := Except.ok.inj (hcur.symm.trans hv)
    obtain rfl := Except.ok.inj (hnew.symm.trans hw)
    exact absurd hsame hdiff
  · refine iff_of_true (by rw [heq]) fun v w _ hw' _ => ?_
    obtain rfl := Except.ok.inj (hnew.symm.trans hw')
    exact hw

/-- **Taking a request back leaves the arbitrated value applied**, if the others can be
arbitrated and what they amount to can be applied. -/
theorem synced_remove (h : a.Synced arb live) (hcur : arb.arbitrate a.requests = .ok previous)
    (hnext : arb.arbitrate next = .ok new) (hlive : live next → live a.requests)
    (hwrite : live next → a.IsRemovable arb write next) :
    (a.remove arb write next).1.Synced arb live := by
  rcases remove_cases hcur write next with
    ⟨_, heq, hfail⟩ | ⟨new', hnew, ⟨hsame, heq⟩ | ⟨-, -, heq⟩⟩
  · rw [heq]
    intro hl
    obtain ⟨hsame, hw⟩ := hfail new hnext
    rw [hwrite hl previous new hcur hnext hsame] at hw
    cases hw
  · rw [heq]
    exact fun hl => (h (hlive hl)).of_same hcur hnew hsame
  · rw [heq]
    exact fun _ => ⟨new', new', hnew, rfl, arb.same_self _⟩

end Applied

end Lib

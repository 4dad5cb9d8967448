import Dptf.Vault.Spared

/-!
# Read-only keys

Whether the row of a key stays as it is for good once it is read-only, in any
sequence of calls of `DataVault_SetValue`.

* `immutable_of_spares` — any sequence of such calls.
-/

open Lib

namespace Vault

variable {δ : Type}

section Plans

variable {env : Env δ} {io : SetIo} {v : DataVault δ} {c : SetCall} {k : CName}
  {e : DataCacheEntry}

/-- **A row that is read-only** is not updated, and not deleted under its own name. -/
theorem Planned.spares {p : Plan} (h : Planned env io v c p) (hs : DataCache.Sorted v.cache)
    (he : DataCache.getValue v.cache k = some e) (hro : e.has ServiceConfig.readonly = true)
    (hpattern : ∀ pattern, c.key = some pattern → pattern.hasWildcard = true →
      flagsTest c.flags ServiceConfig.delete = true → e.key.matchesPattern pattern = false) :
    p.Spares v.cache k := by
  obtain ⟨hmem, hk⟩ := (DataCache.getValue_eq_some_iff hs).mp he
  have hother : ∀ key a, DataCache.getValue v.cache key = some a →
      a.has ServiceConfig.readonly = false → key.folded ≠ k.folded := by
    intro key a ha hnot heq
    obtain ⟨hmem', hk'⟩ := (DataCache.getValue_eq_some_iff hs).mp ha
    obtain rfl := Ascending.eq_of_key_eq hs hmem' hmem (hk'.trans (heq.trans hk.symm))
    rw [hro] at hnot
    cases hnot
  cases h with
  | stop _ => trivial
  | delete _ _ _ hget hnot => exact hother _ _ hget hnot
  | deleteMatching hkey hwild hdel =>
    intro a ha
    obtain rfl := Option.some.inj (he.symm.trans ha)
    exact hpattern _ hkey hwild hdel
  | update _ _ _ _ _ _ hget hnot => exact hother _ _ hget hnot
  | add _ _ _ _ _ _ hnew =>
    intro heq
    rw [DataCache.getValue_eq_none_iff hs] at hnew
    exact hnew e hmem (hk.trans heq.symm)

end Plans

section Calls

variable [DecidableEq δ] {env : Env δ} {v w : DataVault δ} {k : CName} {e : DataCacheEntry}

/-- Once a key is read-only, it is never removed and shows the same whatever follows. -/
def Immutable (env : Env δ) (v : DataVault δ) (as : List (SetIo × SetCall)) : Prop :=
  ∀ bs cs w w', as = bs ++ cs → run (DataVault.setStep env) v bs = some w →
    run (DataVault.setStep env) w cs = some w' → ∀ k e, DataCache.getValue w.cache k = some e →
    e.has ServiceConfig.readonly = true →
      (DataCache.getValue w'.cache k).isSome = true ∧ DataVault.ShowsSame w w' k

/-- If the call gets as far as that: it allocates what it says, it deletes no pattern that a
read-only row matches, and if it comes to a flush, such a row lasts if it is not cached. -/
def SparesReadonly (env : Env δ) (v : DataVault δ) (a : SetIo × SetCall) : Prop :=
  v.isReadonly = false → a.1.cloneOffsets = true →
    (v.plan env a.1 a.2).Fits (· ≤ ·) a.1 ∧
      ∀ k e, DataCache.getValue v.cache k = some e → e.has ServiceConfig.readonly = true →
        (∀ pattern, a.2.key = some pattern → pattern.hasWildcard = true →
          flagsTest a.2.flags ServiceConfig.delete = true →
          e.key.matchesPattern pattern = false) ∧
        ((v.change env a.1 a.2).Flushes → e.has ServiceConfig.nocache = true →
          Lasts env a.1.flush (v.withChange (v.change env a.1 a.2)) e)

/-- A read-only key shows after a call what it showed before. -/
theorem SparesReadonly.viewAt {a : SetIo × SetCall} (h : SparesReadonly env v a)
    (hsound : Sound v) (he : DataCache.getValue v.cache k = some e)
    (hro : e.has ServiceConfig.readonly = true) :
    (v.setValue env a.1 a.2).vault.isStatic = v.isStatic ∧
      (v.setValue env a.1 a.2).vault.viewAt k = some (v.view e) := by
  obtain ⟨horderly, howned⟩ := hsound
  have hmem := ((DataCache.getValue_eq_some_iff horderly.sorted).mp he).1
  obtain ⟨hstatic, e', hget, hview⟩ := @setValue_view δ _ env a.1 v a.2 k e horderly
    (howned e hmem) he fun hfree hclone => by
      obtain ⟨hfits, hrows⟩ := h hfree hclone
      obtain ⟨hpattern, hlasts⟩ := hrows k e he hro
      exact ⟨(DataVault.plan_planned env a.1 v a.2).spares horderly.sorted he hro hpattern,
        hfits.staysInImage, hlasts⟩
  refine ⟨hstatic, ?_⟩
  rw [DataVault.viewAt, hget, Option.map_some, hview]

/-- A run of such calls leaves the key as it is. -/
theorem viewAt_run {as : List (SetIo × SetCall)} (hsound : Sound v)
    (hok : EveryStep (DataVault.setStep env) (SparesReadonly env) v as)
    (hrun : run (DataVault.setStep env) v as = some w)
    (he : DataCache.getValue v.cache k = some e) (hro : e.has ServiceConfig.readonly = true) :
    w.isStatic = v.isStatic ∧ w.viewAt k = some (v.view e) := by
  -- the row may become another one, which is read-only like it and shows the same
  have hstep : ∀ (u : DataVault δ) (a : SetIo × SetCall) (u' : DataVault δ),
      SparesReadonly env u a → DataVault.setStep env u a = some u' →
      (Sound u ∧ u.isStatic = v.isStatic ∧ u.viewAt k = some (v.view e)) →
      Sound u' ∧ u'.isStatic = v.isStatic ∧ u'.viewAt k = some (v.view e) := by
    rintro u a u' hspares hstep ⟨hu, hstatic, hview⟩
    cases hstep
    obtain ⟨e', hget, hview'⟩ := Option.map_eq_some_iff.mp hview
    have hro' : e'.has ServiceConfig.readonly = true := by
      have hflags : e'.flags = e.flags := congrArg View.flags hview'
      rw [DataCacheEntry.has, hflags]
      exact hro
    obtain ⟨hstatic', hshown⟩ := hspares.viewAt hu hget hro'
    exact ⟨hu.setValue fun hfree hclone => (hspares hfree hclone).1,
      hstatic'.trans hstatic, by rw [hshown, hview']⟩
  have hview : v.viewAt k = some (v.view e) := by rw [DataVault.viewAt, he, Option.map_some]
  exact (run_invariant_of_everyStep hstep hok hrun ⟨hsound, rfl, hview⟩).2

/-- **Read-only keys stay as they are** in every sequence of calls on a vault that was opened
of which none deletes a pattern they match, writes past a buffer or loses a value in the file. -/
theorem immutable_of_spares (hv : Opened env v) (as : List (SetIo × SetCall))
    (hok : EveryStep (DataVault.setStep env) (SparesReadonly env) v as) :
    Immutable env v as := by
  rintro bs cs w w' rfl hbs hcs k e he hro
  have hstep : ∀ (u : DataVault δ) (a : SetIo × SetCall) (u' : DataVault δ),
      SparesReadonly env u a → DataVault.setStep env u a = some u' → Sound u →
      Sound u' := by
    intro u a u' hspares hstep hu
    obtain rfl := Option.some.inj hstep
    exact hu.setValue fun hfree hclone => (hspares hfree hclone).1
  have hsound := run_invariant_of_everyStep hstep hok.left hbs hv.sound
  obtain ⟨hstatic, hview⟩ := viewAt_run hsound (hok.right hbs) hcs he hro
  refine ⟨?_, DataVault.showsSame_of_viewAt hstatic ?_⟩
  · obtain ⟨e', hget, _⟩ := Option.map_eq_some_iff.mp hview
    rw [hget]
    rfl
  · rw [hview, DataVault.viewAt, he, Option.map_some]

end Calls

/-! ## Calls on fixed keys -/

/-- Every key is deleted. -/
def deleteAll : SetIo × SetCall := (.ok, ⟨some ⟨[42], by decide⟩, none, ServiceConfig.delete⟩)

theorem immutable_of_spares_other : Immutable plainEnv emptyVault [setReadonly, setOther] := by
  refine immutable_of_spares emptyVault_opened _ ⟨?_, fun w hw => ⟨?_, fun _ _ => trivial⟩⟩
  · refine fun _ _ => ⟨trivial, fun k e he => ?_⟩
    rw [show emptyVault.cache = [] from rfl, DataCache.getValue_nil] at he
    cases he
  · obtain rfl := Option.some.inj hw
    refine fun _ _ => ⟨?_, fun k e he _ => ⟨?_, fun _ _ => lasts_setOther he⟩⟩
    · rw [show (emptyVault.setValue plainEnv setReadonly.1 setReadonly.2).vault.plan plainEnv
        setOther.1 setOther.2 = _ from plan_setOther]
      trivial
    · intro pattern hkey hwild
      obtain rfl := Option.some.inj hkey
      cases hwild

/-- Not every read-only key stays. -/
theorem not_immutable : ¬ ∀ (env : Env (List UInt8)) (v : DataVault (List UInt8)), Opened env v →
    ∀ as, Immutable env v as := by
  intro h
  obtain ⟨w, hw, e, he, hro, hgone⟩ :
      ∃ w, run (DataVault.setStep plainEnv) emptyVault [setReadonly] = some w ∧
        ∃ e, DataCache.getValue w.cache ⟨[107], by decide⟩ = some e ∧
          e.has ServiceConfig.readonly = true ∧
          DataCache.getValue (w.setValue plainEnv deleteAll.1 deleteAll.2).vault.cache
            ⟨[107], by decide⟩ = none :=
    ⟨_, rfl, _, rfl, by decide +kernel, by decide +kernel⟩
  obtain ⟨hsome, _⟩ := h plainEnv emptyVault emptyVault_opened [setReadonly, deleteAll]
    [setReadonly] [deleteAll] w _ rfl hw rfl _ e he hro
  rw [hgone] at hsome
  cases hsome

end Vault

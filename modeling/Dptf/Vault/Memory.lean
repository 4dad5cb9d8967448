import Dptf.Vault.Opened

/-!
# Values own the memory their lengths say

Whether `DataVault_SetValue` keeps `buf_len` true of every buffer, and copies no
more than there is room for, in any sequence of calls.

* `memorySafe_iff`, `everyCall_memorySafe_iff` — of one call and of any sequence.
-/

open Lib

namespace Vault

/-- What `buf_len` says of a row: so many bytes are allocated, and the value is in them. -/
def OwnsBuffer (e : DataCacheEntry) : Prop :=
  0 < e.value.bufLen → ∃ bytes, e.value.bufPtr = .block bytes ∧
    bytes.length = e.value.bufLen ∧ e.value.dataLen ≤ e.value.bufLen

theorem Owned.ownsBuffer {e : DataCacheEntry} (h : Owned Eq e) : OwnsBuffer e := by
  intro hpos
  obtain ⟨bytes, hp, hlen, hle⟩ := h.block_of_bufLen hpos
  exact ⟨bytes, hp, hlen.symm, hle⟩

variable {δ : Type} [DecidableEq δ] {env : Env δ} {io : SetIo} {v : DataVault δ} {c : SetCall}

/-- Before a call, where it has changed the cache and when it is done all rows own what they
say, and its copies stay inside. -/
def MemorySafe (env : Env δ) (io : SetIo) (v : DataVault δ) (c : SetCall) : Prop :=
  (∀ e ∈ v.cache, OwnsBuffer e) ∧ (∀ e ∈ (v.setValue env io c).atExit, OwnsBuffer e) ∧
    (∀ e ∈ (v.setValue env io c).vault.cache, OwnsBuffer e) ∧
    ∀ cp ∈ (v.setValue env io c).copies, cp.Inside

/-- If the call gets as far as an update, the update allocates what it says. -/
def Allocates (env : Env δ) (io : SetIo) (v : DataVault δ) (c : SetCall) : Prop :=
  v.isReadonly = false → io.cloneOffsets = true → (v.plan env io c).Fits Eq io

omit [DecidableEq δ] in
/-- An update that does not allocate what it says leaves a row without it, or copies past the
end. -/
theorem change_of_not_fits (hs : DataCache.Sorted v.cache) (h : AllOwned Eq v.cache)
    (hnot : ¬ (v.plan env io c).Fits Eq io) : (∃ e ∈ (v.change env io c).cache, ¬ OwnsBuffer e) ∨
      ∃ cp ∈ (v.change env io c).copies, ¬ cp.Inside := by
  have hplanned := DataVault.plan_planned env io v c
  unfold DataVault.change
  cases hp : v.plan env io c with
  | stop _ | delete _ _ | deleteMatching _ | add _ _ =>
    rw [hp] at hnot
    exact absurd trivial hnot
  | update key e d =>
    rw [hp] at hplanned hnot
    cases hplanned with
    | update _ _ _ _ _ _ hget _ =>
      obtain ⟨he, hk⟩ := (DataCache.getValue_eq_some_iff hs).mp hget
      have hrow := h e he
      simp only [Plan.Fits] at hnot
      by_cases hneeds : needsBuffer d e e.value = true
      · -- the buffer is not there, or not as long as `buf_len` says
        rw [if_pos hneeds] at hnot
        have hzero : e.value.bufLen = 0 := by
          by_contra hne
          rw [needsBuffer_of_bufLen (Nat.pos_of_ne_zero hne)] at hneeds
          cases hneeds
        simp only [DataVault.carryOut, resize_of_bufLen_zero hzero]
        refine Or.inl ⟨updated d c.flags (ownBuffer io d e e.value) e, ?_, ?_⟩
        · have hfound := DataCache.getValue_modifyValue hs key
            (updated_key d c.flags (ownBuffer io d e e.value)) key
          rw [if_pos rfl, hget] at hfound
          exact ((DataCache.getValue_eq_some_iff (hs.modifyValue key (updated_key _ _ _))).mp
            hfound).1
        · intro howns
          rw [ownBuffer, if_pos hneeds] at howns
          obtain ⟨bytes, hptr, hlen, _⟩ := howns (by simp [updated])
          simp only [updated] at hptr hlen
          by_cases hmalloc : io.malloc = true
          · rw [if_pos hmalloc] at hptr
            simp only [copyTo, BufPtr.block.injEq] at hptr
            refine hnot ⟨hmalloc, ?_⟩
            rw [← hlen, ← hptr, length_copyTo, List.length_replicate]
          · rw [if_neg hmalloc] at hptr
            cases hptr
      · -- the value is too long for its part of the image
        rw [if_neg hneeds] at hnot
        simp only [not_forall, not_le] at hnot
        obtain ⟨start, owned, hptr, hlt⟩ := hnot
        have hzero : e.value.bufLen = 0 := by
          unfold Owned at hrow
          rw [hptr] at hrow
          exact hrow.1
        simp only [DataVault.carryOut, resize_of_bufLen_zero hzero, ownBuffer, if_neg hneeds]
        refine Or.inr ⟨_, List.mem_singleton.mpr rfl, ?_⟩
        simp only [Copy.Inside, hptr, BufPtr.room]
        omega

/-- **One call keeps the values in their memory** exactly if it allocates what it says. -/
theorem memorySafe_iff (h : Sane v) : MemorySafe env io v c ↔ Allocates env io v c := by
  obtain ⟨horderly, howned⟩ := h
  have hs := horderly.sorted
  rcases DataVault.setValue_cases env io hs c with
    ⟨_, hsame, hexit, hcopies, hrefused⟩ | ⟨hro, hclone, hexit, hcopies, hfin⟩
  · refine iff_of_true ⟨fun e he => (howned e he).ownsBuffer, ?_, ?_, ?_⟩
      fun hro hclone => absurd ⟨hro, hclone⟩ hrefused
    · rw [hexit]
      exact fun e he => (howned e he).ownsBuffer
    · rw [hsame]
      exact fun e he => (howned e he).ownsBuffer
    · rw [hcopies]
      simp
  · constructor
    · rintro ⟨_, hatExit, _, hinside⟩ _ _
      by_contra hnot
      rw [hexit] at hatExit
      rw [hcopies] at hinside
      rcases change_of_not_fits hs howned hnot with ⟨e, he, hbad⟩ | ⟨cp, hcp, hbad⟩
      · exact hbad (hatExit e he)
      · exact hbad (hinside cp hcp)
    · intro halloc
      have hch := change_changed env io hs c
      obtain ⟨howned', hinside⟩ := hch.owned (fun _ => rfl) (fun _ _ h => Nat.le_of_eq h) hs
        howned (halloc hro hclone)
      refine ⟨fun e he => (howned e he).ownsBuffer, ?_, ?_, ?_⟩
      · rw [hexit]
        exact fun e he => (howned' e he).ownsBuffer
      · intro e he
        exact (Finished.owned (fun _ => rfl) hfin hs (hch.sorted hs) howned howned' e he).ownsBuffer
      · rw [hcopies]
        exact hinside

/-- A call that allocates what it says keeps a vault sane. -/
theorem Sane.setValue (h : Sane v) (halloc : Allocates env io v c) :
    Sane (v.setValue env io c).vault := by
  refine ⟨h.1.setValue io c, ?_⟩
  rcases DataVault.setValue_cases env io h.1.sorted c with
    ⟨_, hsame, _⟩ | ⟨hro, hclone, _, _, hfin⟩
  · rw [hsame]
    exact h.2
  · have hch := change_changed env io h.1.sorted c
    obtain ⟨howned, _⟩ := hch.owned (fun _ => rfl) (fun _ _ h => Nat.le_of_eq h) h.1.sorted h.2
      (halloc hro hclone)
    exact Finished.owned (fun _ => rfl) hfin h.1.sorted (hch.sorted h.1.sorted) h.2 howned

/-- **In any sequence of calls on a vault that was opened**, whatever the values and however
the operations end, the values own the memory their lengths say at every point, exactly if
every call allocates what it says. -/
theorem everyCall_memorySafe_iff {v : DataVault δ} (hv : Opened env v)
    (as : List (SetIo × SetCall)) :
    EveryStep (DataVault.setStep env) (fun v a => MemorySafe env a.1 v a.2) v as ↔
      EveryStep (DataVault.setStep env) (fun v a => Allocates env a.1 v a.2) v as := by
  have hstep : ∀ (v : DataVault δ) (a : SetIo × SetCall) (v' : DataVault δ),
      Allocates env a.1 v a.2 → DataVault.setStep env v a = some v' → Sane v →
      Sane v' := by
    intro v a v' halloc hstep hsane
    obtain rfl := Option.some.inj hstep
    exact hsane.setValue halloc
  exact everyStep_congr_of_ok hstep (fun v a hsane => memorySafe_iff hsane) hv.sane as

/-- A value that is not cached, replaced by a longer one in a buffer the caller owns: the new
buffer is allocated with no bytes, and three are copied into it. -/
def borrowedValue : List (SetIo × SetCall) :=
  [(.ok, setK (.ofBytes 7 2 [1, 2]) (ServiceConfig.persist ||| ServiceConfig.nocache)),
    (.ok, setK (.ofBytes 7 0 [1, 2, 3]) (ServiceConfig.persist ||| ServiceConfig.nocache))]

theorem everyCall_memorySafe_iff_borrowed :
    EveryStep (DataVault.setStep plainEnv) (fun v a => MemorySafe plainEnv a.1 v a.2)
        emptyVault borrowedValue ↔
      EveryStep (DataVault.setStep plainEnv) (fun v a => Allocates plainEnv a.1 v a.2)
        emptyVault borrowedValue :=
  everyCall_memorySafe_iff emptyVault_opened borrowedValue

/-- Not every sequence of calls is memory safe. -/
theorem not_everyCall_memorySafe :
    ¬ ∀ (env : Env (List UInt8)) (v : DataVault (List UInt8)), Opened env v →
      ∀ as, EveryStep (DataVault.setStep env) (fun v a => MemorySafe env a.1 v a.2) v as := by
  intro h
  obtain ⟨_, hsecond⟩ := h plainEnv emptyVault emptyVault_opened borrowedValue
  obtain ⟨⟨_, _, _, hinside⟩, _⟩ := hsecond _ rfl
  exact absurd (hinside ⟨0, 3⟩ (by decide +kernel)) (by decide)

end Vault

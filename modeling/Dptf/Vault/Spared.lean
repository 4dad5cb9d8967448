import Dptf.Vault.Settled

/-!
# Calls that leave a row alone

A call of `DataVault_SetValue` that has nothing to do with a key leaves what is shown
under it.
-/

open Lib

namespace Vault

variable {δ : Type}

/-! ## Plans -/

/-- A plan has nothing to do with a key. -/
def Plan.Spares (cache : DataCache) (k : CName) : Plan → Prop
  | .stop _ => True
  | .delete key _ => key.folded ≠ k.folded
  | .deleteMatching pattern =>
    ∀ e, DataCache.getValue cache k = some e → e.key.matchesPattern pattern = false
  | .update key _ _ => key.folded ≠ k.folded
  | .add key _ => key.folded ≠ k.folded

/-- A value in the image is overwritten by one that is no longer than its part. -/
def Plan.StaysInImage : Plan → Prop
  | .update _ e d => needsBuffer d e e.value = false →
    ∀ start owned, e.value.bufPtr = .image start owned → d.dataLen.toNat ≤ owned
  | _ => True

theorem Plan.Fits.staysInImage {fits : Nat → Nat → Prop} {io : SetIo} {p : Plan}
    (h : p.Fits fits io) : p.StaysInImage := by
  cases p with
  | update key e d =>
    intro hneeds start owned hp
    simp only [Plan.Fits, hneeds, Bool.false_eq_true, if_false] at h
    exact h start owned hp
  | stop rc => trivial
  | delete key e => trivial
  | deleteMatching pattern => trivial
  | add key d => trivial

section Spared

variable {env : Env δ} {io : SetIo} {v : DataVault δ} {c : SetCall} {ch : Change} {k : CName}
  {e : DataCacheEntry}

/-- A key that is spared has what it had. -/
theorem Changed.getValue_spared (h : Changed env io v c ch) (hs : DataCache.Sorted v.cache)
    (hspares : (v.plan env io c).Spares v.cache k) :
    DataCache.getValue ch.cache k = DataCache.getValue v.cache k := by
  cases h with
  | unchanged _ => rfl
  | deleted hplan _ =>
    rw [hplan] at hspares
    rw [DataCache.getValue_deleteValue hs, if_neg hspares]
  | @deletedMatching pattern hplan _ =>
    rw [hplan] at hspares
    simp only [DataCache.getValue]
    rw [lookup_filter hs, ← DataCache.getValue]
    cases hget : DataCache.getValue v.cache k with
    | none => rfl
    | some e => rw [Option.filter_some, if_pos (by simp [hspares e hget])]
  | updated hplan _ _ =>
    rw [hplan] at hspares
    rw [DataCache.getValue_modifyValue hs _ (updated_key _ _ _), if_neg hspares]
  | added hplan hplanned _ _ =>
    rw [hplan] at hspares
    cases hplanned with
    | add _ _ _ _ _ _ hnew => rw [DataCache.getValue_insertValue hs hnew, if_neg hspares]

/-- An update that writes into the image writes in place. -/
theorem not_needsBuffer_of_image {d : SetData} {value : CacheData}
    (h : resize io d e.value = some value) {start owned : Nat}
    (hp : (ownBuffer io d e value).bufPtr = .image start owned) :
    needsBuffer d e e.value = false := by
  by_contra hneeds
  have hzero : e.value.bufLen = 0 := by
    by_contra hne
    exact hneeds (needsBuffer_of_bufLen (Nat.pos_of_ne_zero hne))
  rw [resize_of_bufLen_zero hzero] at h
  cases h
  rw [ownBuffer, if_pos (by simpa using hneeds)] at hp
  simp only at hp
  split at hp <;> cases hp

/-- The bytes of a row that is spared are not written over. -/
theorem Changed.read_spared (h : Changed env io v c ch) (horderly : Orderly v)
    (himage : (v.plan env io c).StaysInImage)
    (hspares : (v.plan env io c).Spares v.cache k) (howned : Owned (· ≤ ·) e)
    (he : DataCache.getValue v.cache k = some e) :
    e.value.bufPtr.read ch.image e.value.dataLen = e.value.bufPtr.read v.image e.value.dataLen := by
  cases h with
  | @updated key e' d value hplan hplanned hresize =>
    rw [hplan] at hspares himage
    cases hplanned with
    | update _ _ _ _ _ hbuf hget _ =>
      have hlen : d.bytes.length = d.dataLen.toNat := SetData.length_bytes hbuf
      cases hp : (ownBuffer io d e' value).bufPtr with
      | null => rfl
      | block bytes => rfl
      | offset pos => rfl
      | image start owned =>
        have hp' := resized_image hresize hp
        have hfits := himage (not_needsBuffer_of_image hresize hp) start owned hp'
        obtain ⟨hmem', hk'⟩ := (DataCache.getValue_eq_some_iff horderly.sorted).mp hget
        obtain ⟨hmem, hk⟩ := (DataCache.getValue_eq_some_iff horderly.sorted).mp he
        have hbelow := horderly.below e' hmem' start owned hp'
        have hinside : start + d.bytes.length ≤ v.image.length := by omega
        simp only [copyToImage]
        rw [List.take_of_length_le (le_of_eq (length_overwrite hinside))]
        cases hptr : e.value.bufPtr with
        | null => rfl
        | block bytes => rfl
        | offset pos => rfl
        | image start' owned' =>
          unfold Owned at howned
          rw [hptr] at howned
          have hapart := horderly.apart e hmem e' hmem' (by rw [hk, hk']; exact Ne.symm hspares)
            start' owned' start owned hptr hp'
          refine peekAt_overwrite hinside ?_
          omega
  | unchanged _ => rfl
  | deleted _ _ => rfl
  | deletedMatching _ _ => rfl
  | added _ _ _ _ => rfl

end Spared

/-! ## Sound vaults -/

section Sound

variable [DecidableEq δ] {env : Env δ} {v : DataVault δ}

/-- What a vault is at any time, if no call has written past a buffer. -/
def Sound (v : DataVault δ) : Prop :=
  Orderly v ∧ AllOwned (· ≤ ·) v.cache

theorem Opened.sound (h : Opened env v) : Sound v :=
  ⟨h.sane.1, fun e he => (h.sane.2 e he).mono fun _ _ => Nat.le_of_eq⟩

theorem Sound.setValue {io : SetIo} {c : SetCall} (h : Sound v)
    (hfits : v.isReadonly = false → io.cloneOffsets = true →
      (v.plan env io c).Fits (· ≤ ·) io) : Sound (v.setValue env io c).vault := by
  refine ⟨h.1.setValue io c, ?_⟩
  rcases DataVault.setValue_cases env io h.1.sorted c with
    ⟨_, hsame, _⟩ | ⟨hro, hclone, _, _, hfin⟩
  · rw [hsame]
    exact h.2
  · have hch := change_changed env io h.1.sorted c
    obtain ⟨howned, _⟩ := hch.owned Nat.le_refl (fun _ _ h => h) h.1.sorted h.2 (hfits hro hclone)
    exact Finished.owned Nat.le_refl hfin h.1.sorted (hch.sorted h.1.sorted) h.2 howned

end Sound

/-! ## Whole calls -/

/-- A call leaves a row alone, and if it comes to a flush, the row lasts if it is not cached. -/
structure LeavesAlone (env : Env δ) (io : SetIo) (v : DataVault δ) (c : SetCall) (k : CName)
    (e : DataCacheEntry) : Prop where
  spares : (v.plan env io c).Spares v.cache k
  inImage : (v.plan env io c).StaysInImage
  lasts : (v.change env io c).Flushes → e.has ServiceConfig.nocache = true →
    Lasts env io.flush (v.withChange (v.change env io c)) e

section Whole

variable [DecidableEq δ] {env : Env δ} {io : SetIo} {v : DataVault δ} {c : SetCall} {k : CName}
  {e : DataCacheEntry}

/-- **A row that a call leaves alone is shown as it was.** -/
theorem setValue_view (horderly : Orderly v) (howned : Owned (· ≤ ·) e)
    (he : DataCache.getValue v.cache k = some e)
    (halone : v.isReadonly = false → io.cloneOffsets = true → LeavesAlone env io v c k e) :
    (v.setValue env io c).vault.isStatic = v.isStatic ∧
      ∃ e', DataCache.getValue (v.setValue env io c).vault.cache k = some e' ∧
        (v.setValue env io c).vault.view e' = v.view e := by
  have hs := horderly.sorted
  rcases DataVault.setValue_cases env io hs c with ⟨_, hsame, _⟩ | ⟨hro, hclone, _, _, hfin⟩
  · rw [hsame]
    exact ⟨rfl, e, he, rfl⟩
  · have hch := change_changed env io hs c
    obtain ⟨hspares, hinImage, hlasts⟩ := halone hro hclone
    exact Finished.view hfin hs (hch.sorted hs) howned he
      ((hch.getValue_spared hs hspares).trans he)
      (hch.read_spared horderly hinImage hspares howned he) hlasts

/-- A call does not make a vault static. -/
theorem setValue_isStatic (hs : DataCache.Sorted v.cache) :
    (v.setValue env io c).vault.isStatic = v.isStatic := by
  rcases DataVault.setValue_cases env io hs c with ⟨_, hsame, _⟩ | ⟨_, _, _, _, hfin⟩
  · rw [hsame]
  · have hends : ∀ {rc : EsifError} {u : DataVault δ}, DataVault.FlushEnds env io.flush
        (v.withChange (v.change env io c)) (rc, u) → u.isStatic = v.isStatic := by
      intro rc u h
      cases h with
      | refused => rfl
      | failed _ _ _ hflags => exact DataVault.isStatic_congr hflags
      | done _ _ _ _ _ hflags _ => exact DataVault.isStatic_congr hflags
    generalize (v.setValue env io c).rc = rc at hfin
    generalize (v.setValue env io c).vault = w at hfin ⊢
    cases hfin with
    | kept _ => rfl
    | delayed _ _ _ => rfl
    | flushed _ _ _ h => exact hends h
    | @failed _ u _ _ _ _ h => exact show u.isStatic = v.isStatic from hends h

/-- A key that is spared and has no row gets none. -/
theorem setValue_getValue_none (hs : DataCache.Sorted v.cache)
    (hnone : DataCache.getValue v.cache k = none) (hspares : (v.plan env io c).Spares v.cache k) :
    DataCache.getValue (v.setValue env io c).vault.cache k = none := by
  rcases DataVault.setValue_cases env io hs c with ⟨_, hsame, _⟩ | ⟨_, _, _, _, hfin⟩
  · rw [hsame]
    exact hnone
  · have hch := change_changed env io hs c
    exact Finished.getValue_none hfin hs (hch.sorted hs) hnone
      ((hch.getValue_spared hs hspares).trans hnone)

end Whole

/-! ## A call on a fixed vault -/

/-- The key `k` is set once and for all, to a value that is not cached. -/
def setReadonly : SetIo × SetCall :=
  (.ok, setK (.ofBytes 7 1 [1])
    (ServiceConfig.readonly ||| ServiceConfig.persist ||| ServiceConfig.nocache))

/-- The key `j` is set. -/
def setOther : SetIo × SetCall :=
  (.ok, ⟨some ⟨[106], by decide⟩, some (.ofBytes 7 1 [2]), ServiceConfig.persist⟩)

/-- The key `k` is in the file. -/
def vaultWithReadonly : DataVault (List UInt8) :=
  (emptyVault.setValue plainEnv setReadonly.1 setReadonly.2).vault

theorem plan_setOther : vaultWithReadonly.plan plainEnv setOther.1 setOther.2 =
    .add ⟨[106], by decide⟩ (.ofBytes 7 1 [2]) := by
  decide +kernel

/-- The value of `k` is taken along to the new file. -/
theorem lasts_setOther {k : CName} {e : DataCacheEntry}
    (he : DataCache.getValue vaultWithReadonly.cache k = some e) :
    Lasts plainEnv setOther.1.flush (vaultWithReadonly.withChange
      (vaultWithReadonly.change plainEnv setOther.1 setOther.2)) e := by
  -- the value lies behind the header and the head of its pair
  have hrow : vaultWithReadonly.cache =
      [⟨ServiceConfig.readonly ||| ServiceConfig.persist ||| ServiceConfig.nocache,
        ⟨[107], by decide⟩, ⟨7, .offset 168, 0, 1⟩⟩] := by decide +kernel
  have hs : DataCache.Sorted vaultWithReadonly.cache :=
    (emptyVault_opened.sane.1.setValue setReadonly.1 setReadonly.2).sorted
  have hmem := ((DataCache.getValue_eq_some_iff hs).mp he).1
  rw [hrow] at hmem
  obtain rfl := List.mem_singleton.mp hmem
  refine ⟨fun _ => ?_, fun _ _ => rfl, fun _ _ _ => ⟨fun _ => ⟨rfl, rfl⟩, fun h => ?_, ?_⟩⟩
  · exact ⟨by decide +kernel, by decide +kernel, [1], by decide +kernel, by decide +kernel⟩
  · revert h
    unfold DataVault.SameHeader
    decide +kernel
  · decide +kernel

end Vault

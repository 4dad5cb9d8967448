import Dptf.Vault.Spared

/-!
# One key at a time

Whether `DataVault_SetValue` of a key changes what is shown under other keys, and
writes outside the buffer of its own.

* `touchesOne_of_staysInside` — any call on any vault that can be reached.
-/

open Lib

namespace Vault

variable {δ : Type}

/-! ## The plan -/

/-- The buffer that is to take the place of a file offset or a null pointer is allocated. -/
def Plan.Allocated (io : SetIo) : Plan → Prop
  | .update _ e d => needsBuffer d e e.value = true → io.malloc = true ∨ d.dataLen = 0
  | _ => True

section Plans

variable {env : Env δ} {io : SetIo} {v : DataVault δ} {c : SetCall} {ch : Change}
  {key k : CName}

/-- The plan of a call without wildcards is about its key. -/
theorem Planned.spares_others {p : Plan} (h : Planned env io v c p) (hkey : c.key = some key)
    (hwild : key.hasWildcard = false) (hne : k.folded ≠ key.folded) : p.Spares v.cache k := by
  have hsame : ∀ a, c.key = some a → a.folded ≠ k.folded := by
    intro a ha
    obtain rfl := Option.some.inj (hkey.symm.trans ha)
    exact hne.symm
  cases h with
  | stop _ => trivial
  | delete ha _ _ _ _ => exact hsame _ ha
  | deleteMatching ha hw _ =>
    obtain rfl := Option.some.inj (hkey.symm.trans ha)
    rw [hwild] at hw
    cases hw
  | update ha _ _ _ _ _ _ _ => exact hsame _ ha
  | add ha _ _ _ _ _ _ => exact hsame _ ha

/-- A value that was loaded from a file fits its buffer. -/
theorem SetData.loaded_le {d₀ d : SetData} (h : d₀.loaded env io = .ok d)
    (hle : d₀.dataLen ≤ d₀.bufLen) : d.dataLen ≤ d.bufLen := by
  unfold SetData.loaded at h
  split at h
  · simp only at h
    split at h
    · cases h
    · obtain rfl := Except.ok.inj h
      exact UInt32.le_refl _
  · obtain rfl := Except.ok.inj h
    exact hle

/-- **The copy of an update stays in its buffer**, by what the buffer is. -/
theorem updated_inside {e : DataCacheEntry} {d : SetData} {value : CacheData}
    (howned : Owned (· ≤ ·) e) (hle : d.dataLen ≤ d.bufLen)
    (himage : (Plan.update key e d).StaysInImage) (halloc : (Plan.update key e d).Allocated io)
    (hresize : resize io d e.value = some value) :
    d.dataLen.toNat ≤ (ownBuffer io d e value).bufPtr.room := by
  rcases Nat.eq_zero_or_pos e.value.bufLen with hzero | hpos
  · rw [resize_of_bufLen_zero hzero] at hresize
    cases hresize
    by_cases hneeds : needsBuffer d e e.value = true
    · -- a new buffer has the capacity of the caller's
      rw [ownBuffer, if_pos hneeds]
      simp only
      have hle := UInt32.le_iff_toNat_le.mp hle
      split
      · simpa [BufPtr.room] using hle
      · rename_i hmalloc
        rw [(halloc hneeds).resolve_left hmalloc]
        exact Nat.zero_le _
    · rw [ownBuffer, if_neg hneeds]
      have hneeds : needsBuffer d e e.value = false := by simpa using hneeds
      unfold Owned at howned
      cases hp : e.value.bufPtr with
      | null =>
        have hempty : ¬ 0 < d.dataLen := by
          intro hlt
          simp [needsBuffer, hp, hzero, hlt] at hneeds
        have hempty : d.dataLen.toNat = 0 := by
          by_contra hne
          exact hempty (UInt32.lt_iff_toNat_lt.mpr (Nat.pos_of_ne_zero hne))
        rw [hempty]
        exact Nat.zero_le _
      | block bytes =>
        rw [hp] at howned
        omega
      | offset pos =>
        rw [hp] at howned
        simp [needsBuffer, howned.2, hzero] at hneeds
      | image start owned => exact himage hneeds start owned hp
  · obtain ⟨bytes, hp, hfits, _⟩ := howned.block_of_bufLen hpos
    obtain ⟨bytes', hp', hpos', hfits', hlen'⟩ := resize_block Nat.le_refl hp hpos hfits hresize
    rw [ownBuffer, needsBuffer_of_bufLen hpos', if_neg (by simp), hp']
    exact le_trans hlen' hfits'

/-- The copies of a call stay in their buffers. -/
theorem Changed.copies_inside (h : Changed env io v c ch) (hs : DataCache.Sorted v.cache)
    (howned : AllOwned (· ≤ ·) v.cache) (hle : ∀ d, c.value = some d → d.dataLen ≤ d.bufLen)
    (himage : (v.plan env io c).StaysInImage) (halloc : (v.plan env io c).Allocated io) :
    ∀ cp ∈ ch.copies, cp.Inside := by
  cases h with
  | unchanged _ => simp [DataVault.unchanged]
  | deleted _ _ => simp
  | deletedMatching _ _ => simp
  | @updated key e d value hplan hplanned hresize =>
    rw [hplan] at himage halloc
    cases hplanned with
    | update _ _ _ hvalue hload _ hget _ =>
      have hmem := ((DataCache.getValue_eq_some_iff hs).mp hget).1
      have hinside := updated_inside (howned e hmem) (SetData.loaded_le hload (hle _ hvalue))
        himage halloc hresize
      simpa [Copy.Inside] using hinside
  | @added key d _ hplanned _ _ =>
    cases hplanned with
    | add _ _ _ _ _ hbuf _ =>
      have hroom := (@owned_added (· ≤ ·) d Nat.le_refl v.image hbuf key (itemFlags c.flags)).2
      simpa [Copy.Inside] using hroom

/-- A copy that stays in its buffer is one of an update that has the memory for it. -/
theorem inside_of_copies (hs : DataCache.Sorted v.cache)
    (howned : AllOwned (· ≤ ·) v.cache)
    (hcopies : ∀ cp ∈ (v.change env io c).copies, cp.Inside) :
    (v.plan env io c).StaysInImage ∧ (v.plan env io c).Allocated io := by
  cases hplan : v.plan env io c with
  | stop _ | delete _ _ | deleteMatching _ | add _ _ => exact ⟨trivial, trivial⟩
  | update key e d =>
    have hplanned := DataVault.plan_planned env io v c
    rw [hplan] at hplanned
    cases hplanned with
    | update _ _ _ _ _ _ hget _ =>
      have howned := howned e ((DataCache.getValue_eq_some_iff hs).mp hget).1
      have hcarry : v.change env io c = v.carryOut io c.flags (.update key e d) := hplan ▸ rfl
      -- a row without a buffer of its own is not resized
      have hroom : e.value.bufLen = 0 →
          d.dataLen.toNat ≤ (ownBuffer io d e e.value).bufPtr.room := by
        intro hzero
        simp only [DataVault.carryOut, resize_of_bufLen_zero hzero] at hcarry
        rw [hcarry] at hcopies
        exact hcopies _ (List.mem_singleton.mpr rfl)
      constructor
      · intro hneeds start owned hp
        unfold Owned at howned
        rw [hp] at howned
        have hroom := hroom howned.1
        rw [ownBuffer, if_neg (by simp [hneeds]), hp] at hroom
        exact hroom
      · intro hneeds
        have hzero : e.value.bufLen = 0 := by
          by_contra hne
          rw [needsBuffer_of_bufLen (Nat.pos_of_ne_zero hne)] at hneeds
          cases hneeds
        have hroom := hroom hzero
        rw [ownBuffer, if_pos hneeds] at hroom
        by_cases hmalloc : io.malloc = true
        · exact Or.inl hmalloc
        · simp only [if_neg hmalloc, BufPtr.room] at hroom
          exact Or.inr (UInt32.toNat_inj.mp (Nat.le_zero.mp hroom))

end Plans

section Calls

variable [DecidableEq δ] {env : Env δ} {io : SetIo} {v : DataVault δ} {c : SetCall}

/-- A call that sets or deletes one key, and succeeds with a value that is no longer than its
buffer, changes nothing under any other key and copies no byte outside the key's buffer. -/
def TouchesOne (env : Env δ) (io : SetIo) (v : DataVault δ) (c : SetCall) : Prop :=
  ∀ key, c.key = some key → key.hasWildcard = false →
    (∀ d, c.value = some d → d.dataLen ≤ d.bufLen) → (v.setValue env io c).rc = esifOk →
      (∀ k : CName, k.folded ≠ key.folded →
        DataVault.ShowsSame v (v.setValue env io c).vault k) ∧
      ∀ cp ∈ (v.setValue env io c).copies, cp.Inside

/-- If a call that sets or deletes one key succeeds with an update, it overwrites a value in the
image by one that is no longer than its part, and the buffer that is to take the place of a file
offset or a null pointer is allocated. -/
def UpdatesInside (env : Env δ) (io : SetIo) (v : DataVault δ) (c : SetCall) : Prop :=
  ∀ key, c.key = some key → key.hasWildcard = false →
    (∀ d, c.value = some d → d.dataLen ≤ d.bufLen) → (v.setValue env io c).rc = esifOk →
      (v.plan env io c).StaysInImage ∧ (v.plan env io c).Allocated io

/-- No call so far has written past a buffer, and this one does not either.  If it succeeds with
a flush, what is not cached under other keys lasts. -/
structure StaysInside (env : Env δ) (io : SetIo) (v : DataVault δ) (c : SetCall) : Prop where
  owned : AllOwned (· ≤ ·) v.cache
  updates : UpdatesInside env io v c
  others : (v.setValue env io c).rc = esifOk → (v.change env io c).Flushes →
    ∀ key k e, c.key = some key → k.folded ≠ key.folded →
      DataCache.getValue v.cache k = some e → e.has ServiceConfig.nocache = true →
        Lasts env io.flush (v.withChange (v.change env io c)) e

/-- **One call touches one key**, in any state that calls lead to from a vault that was opened.
What is asked of the update is needed as well. -/
theorem touchesOne_of_staysInside (hv : Reachable (DataVault.setStep env) (Opened env) v) :
    (StaysInside env io v c → TouchesOne env io v c) ∧
      (AllOwned (· ≤ ·) v.cache → TouchesOne env io v c → UpdatesInside env io v c) := by
  have hstep : ∀ (u : DataVault δ) (a : SetIo × SetCall) (u' : DataVault δ),
      DataVault.setStep env u a = some u' → Orderly u → Orderly u' := by
    intro u a u' hstep hu
    obtain rfl := Option.some.inj hstep
    exact hu.setValue a.1 a.2
  have horderly : Orderly v := reachable_invariant (fun u hu => hu.sane.1) hstep hv
  have hs := horderly.sorted
  have hch := change_changed env io hs c
  constructor
  · intro hinside key hkey hwild hle hrc
    obtain ⟨hinImage, hallocated⟩ := hinside.updates key hkey hwild hle hrc
    have hspares : ∀ k : CName, k.folded ≠ key.folded → (v.plan env io c).Spares v.cache k :=
      fun k hne => (DataVault.plan_planned env io v c).spares_others hkey hwild hne
    refine ⟨fun k hne => ?_, ?_⟩
    · cases hget : DataCache.getValue v.cache k with
      | none =>
        refine DataVault.showsSame_of_viewAt (setValue_isStatic hs) ?_
        rw [DataVault.viewAt, DataVault.viewAt, hget,
          setValue_getValue_none hs hget (hspares k hne), Option.map_none, Option.map_none]
      | some e =>
        have hmem := ((DataCache.getValue_eq_some_iff hs).mp hget).1
        obtain ⟨hstatic, e', hget', hview⟩ := setValue_view horderly (hinside.owned e hmem) hget
          fun _ _ => ⟨hspares k hne, hinImage,
            fun hflushes => hinside.others hrc hflushes key k e hkey hne hget⟩
        refine DataVault.showsSame_of_viewAt hstatic ?_
        rw [DataVault.viewAt, DataVault.viewAt, hget, hget', Option.map_some, Option.map_some,
          hview]
    · rcases DataVault.setValue_cases env io hs c with
        ⟨_, _, _, hcopies, _⟩ | ⟨_, _, _, hcopies, _⟩
      · rw [hcopies]
        simp
      · rw [hcopies]
        exact hch.copies_inside hs hinside.owned hle hinImage hallocated
  · intro howned htouches key hkey hwild hle hrc
    obtain ⟨_, hcopies⟩ := htouches key hkey hwild hle hrc
    rcases DataVault.setValue_cases env io hs c with ⟨hno, _⟩ | ⟨_, _, _, hsame, _⟩
    · exact absurd hrc hno
    · rw [hsame] at hcopies
      exact inside_of_copies hs howned hcopies

end Calls

/-! ## A memory image -/

/-- A segment in static memory: the keys `k` and `m` with a byte each. -/
def imageSegment : DvFile (List UInt8) where
  header :=
    { signature := headerSignature, headersize := sizeofHeaderV1, version := esifhdrVersion 1 0 0,
      flags := 0, v2 := none }
  payload :=
    pairHead 1 ⟨0, ⟨[107], nul_free_k⟩, ⟨7, .null, 0, 1⟩⟩ ++ [1] ++
      (pairHead 1 ⟨0, ⟨[109], by decide⟩, ⟨7, .null, 0, 1⟩⟩ ++ [2])

/-- The key `k` is set to twenty bytes. -/
def setLong : SetIo × SetCall := (.ok, setK (.ofBytes 7 20 (List.replicate 20 9)) 0)

/-- A second key, next to one whose value stays in the file. -/
theorem touchesOne_of_staysInside_other : ∃ v, run (DataVault.setStep plainEnv) emptyVault
      [setReadonly] = some v ∧
    v.cache.map inFile = [true] ∧ (v.setValue plainEnv setOther.1 setOther.2).rc = esifOk ∧
      TouchesOne plainEnv setOther.1 v setOther.2 := by
  refine ⟨_, rfl, by decide +kernel, by decide +kernel, ?_⟩
  refine (touchesOne_of_staysInside ⟨emptyVault, [setReadonly], emptyVault_opened, rfl⟩).1
    ⟨?_, fun _ _ _ _ _ => ?_, fun _ _ key k e _ _ he _ => lasts_setOther he⟩
  · refine (emptyVault_opened.sound.setValue fun _ _ => ?_).2
    rw [show emptyVault.plan plainEnv setReadonly.1 setReadonly.2 =
      .add ⟨[107], nul_free_k⟩ (.ofBytes 7 1 [1]) from by decide +kernel]
    trivial
  · rw [show (emptyVault.setValue plainEnv setReadonly.1 setReadonly.2).vault.plan plainEnv
      setOther.1 setOther.2 = _ from plan_setOther]
    exact ⟨trivial, trivial⟩

/-- Not every call touches one key only: the twenty bytes are copied over the byte of `m`. -/
theorem not_touchesOne : ¬ ∀ (env : Env (List UInt8)) (v : DataVault (List UInt8)),
    Reachable (DataVault.setStep env) (Opened env) v → ∀ io c, TouchesOne env io v c := by
  intro h
  obtain ⟨v, hload, hwild, hle, hrc, hcopies⟩ :
      ∃ v, emptyVault.loadSegment plainEnv true ⟨.memory, .static⟩ imageSegment =
          some (esifOk, v) ∧
        (CName.hasWildcard ⟨[107], by decide⟩ = false) ∧
        (∀ d, setLong.2.value = some d → d.dataLen ≤ d.bufLen) ∧
        (v.setValue plainEnv setLong.1 setLong.2).rc = esifOk ∧
        (v.setValue plainEnv setLong.1 setLong.2).copies = [⟨1, 20⟩] :=
    ⟨_, rfl, by decide, fun d hd => Option.some.inj hd ▸ by decide, by decide +kernel,
      by decide +kernel⟩
  have hv : Reachable (DataVault.setStep plainEnv) (Opened plainEnv) v :=
    ⟨v, [], .loaded emptyVault_opened hload, rfl⟩
  obtain ⟨_, hinside⟩ := h plainEnv v hv setLong.1 setLong.2 _ rfl hwild hle hrc
  rw [hcopies] at hinside
  exact absurd (hinside _ (List.mem_singleton.mpr rfl)) (by decide)

end Vault

import Dptf.Lib.Machine
import Dptf.Vault.Load

/-!
# The vaults there are

A vault is created empty, read from its own file or filled from the segments of a
repository, and then it takes calls.  What holds of any of them, whatever the calls
and however their operations end.
-/

open Lib

namespace Vault

variable {δ : Type}
variable {cache cache' before : DataCache}

/-! ## Opening -/

namespace DataVault

/-- `DataVault_Create`, next to what is on disk under its name. -/
def created (name comment : CName) (file : Option (DvFile δ)) : DataVault δ where
  version := currentVersion
  flags := 0
  name := name
  comment := comment
  segmentid := ⟨[], CName.nul_free_nil⟩
  cache := []
  stream := ⟨.null, .readOnly⟩
  dataclass := payloadClassKeys
  file := file
  image := []

/-- The machine: an action is a call with how its operations end. -/
def setStep [DecidableEq δ] (env : Env δ) (v : DataVault δ) (a : SetIo × SetCall) :
    Option (DataVault δ) :=
  some (v.setValue env a.1 a.2).vault

end DataVault

/-- The vaults that can be opened: new ones, whatever is on disk under their name, and what
is loaded into them, also by a load that fails on its way.  A payload that is compressed or a
repository is not loaded here. -/
inductive Opened [DecidableEq δ] (env : Env δ) : DataVault δ → Prop
  | created {name comment : CName} {file : Option (DvFile δ)} :
    isAscii name = true → isAscii comment = true → Opened env (.created name comment file)
  | imported {v v' : DataVault δ} {emptyDigest : Bool} {rc : EsifError} :
    Opened env v → v.importStream env emptyDigest = some (rc, v') → Opened env v'
  | loaded {v v' : DataVault δ} {emptyDigest : Bool} {stream : IOStream} {seg : DvFile δ}
    {rc : EsifError} :
    Opened env v → v.loadSegment env emptyDigest stream seg = some (rc, v') → Opened env v'

/-! ## The parts of the image -/

/-- No two rows point to one part of the image. -/
def Apart (cache : DataCache) : Prop :=
  ∀ e ∈ cache, ∀ e' ∈ cache, e.folded ≠ e'.folded → ∀ start owned start' owned',
    e.value.bufPtr = .image start owned → e'.value.bufPtr = .image start' owned' →
      start + owned ≤ start' ∨ start' + owned' ≤ start

/-- All rows that point into the image point below a place in it. -/
def Below (limit : Nat) (cache : DataCache) : Prop :=
  ∀ e ∈ cache, ∀ start owned, e.value.bufPtr = .image start owned → start + owned ≤ limit

/-- What points into the image did so before, under the same key. -/
def Derived (cache cache' : DataCache) : Prop :=
  ∀ e' ∈ cache', ∀ start owned, e'.value.bufPtr = .image start owned →
    ∃ e ∈ cache, e.folded = e'.folded ∧ e.value.bufPtr = .image start owned

theorem Derived.refl (cache : DataCache) : Derived cache cache :=
  fun e he _ _ hp => ⟨e, he, rfl, hp⟩

theorem Derived.trans {a b c : DataCache} (h : Derived a b) (h' : Derived b c) : Derived a c := by
  intro e he start owned hp
  obtain ⟨e', he', hk, hp'⟩ := h' e he start owned hp
  obtain ⟨e'', he'', hk', hp''⟩ := h e' he' start owned hp'
  exact ⟨e'', he'', hk'.trans hk, hp''⟩

theorem Derived.of_subset (h : ∀ e ∈ cache', e ∈ cache) :
    Derived cache cache' := fun e he _ _ hp => ⟨e, h e he, rfl, hp⟩

theorem Apart.derived (h : Apart cache) (hd : Derived cache cache') : Apart cache' := by
  intro e he e' he' hne start owned start' owned' hp hp'
  obtain ⟨a, ha, hk, hpa⟩ := hd e he start owned hp
  obtain ⟨b, hb, hk', hpb⟩ := hd e' he' start' owned' hp'
  exact h a ha b hb (by rwa [hk, hk']) start owned start' owned' hpa hpb

theorem Below.derived {limit : Nat} (h : Below limit cache) (hd : Derived cache cache') :
    Below limit cache' := by
  intro e he start owned hp
  obtain ⟨a, ha, _, hpa⟩ := hd e he start owned hp
  exact h a ha start owned hpa

theorem cloneCacheData_image {image : List UInt8} {d : CacheData} {start owned : Nat}
    (h : (DataCache.cloneCacheData image d).bufPtr = .image start owned) :
    d.bufPtr = .image start owned := by
  unfold DataCache.cloneCacheData at h
  split at h
  · exact h
  · cases h

theorem Touched.derived {file : Option (DvFile δ)} {io : Nat → PairIo} {cache out : DataCache}
    (h : Touched file io cache out) : Derived cache out := by
  intro e' he' start owned hp
  obtain ⟨e, he, hk⟩ := h.mem e' he'
  refine ⟨e, he, congrArg CName.folded hk.key.symm, ?_⟩
  rcases hk with rfl | ⟨_, pos, rfl⟩
  · exact hp
  · unfold placed at hp
    split at hp
    · cases hp
    · exact hp

theorem derived_cloneOffsets (hs : DataCache.Sorted cache) (image : List UInt8) :
    Derived cache (DataCache.cloneOffsets image cache) := by
  intro c hc start owned hp
  obtain ⟨e, he, _, rfl⟩ := (DataCache.mem_cloneOffsets hs).mp hc
  exact ⟨e, he, rfl, cloneCacheData_image hp⟩

/-- A row that was changed points where one under its key pointed. -/
theorem derived_modifyValue (hs : DataCache.Sorted cache) (h : Derived before cache) (key : CName)
    {f : DataCacheEntry → DataCacheEntry} (hkey : ∀ e, (f e).key = e.key)
    (hf : ∀ e ∈ cache, e.folded = key.folded → ∀ start owned,
      (f e).value.bufPtr = .image start owned →
      ∃ a ∈ before, a.folded = key.folded ∧ a.value.bufPtr = .image start owned) :
    Derived before (DataCache.modifyValue cache key f) := by
  rw [DataCache.modifyValue_eq_map hs]
  intro e' he' start owned hp
  obtain ⟨e, he, rfl⟩ := List.mem_map.mp he'
  split at hp
  · rename_i hmatch
    obtain ⟨a, ha, hk, hpa⟩ := hf e he hmatch start owned hp
    refine ⟨a, ha, ?_, hpa⟩
    rw [if_pos hmatch, hk, ← hmatch, DataCacheEntry.folded, DataCacheEntry.folded, hkey]
  · rename_i hmatch
    rw [if_neg hmatch]
    exact h e he start owned hp

/-- What is restored pointed there before, in the cache or in the one the snapshot is of. -/
theorem derived_restoreOffsets {before cache clone : DataCache} (hs : DataCache.Sorted cache)
    (h : Derived before cache) (hclone : Derived before clone) :
    Derived before (DataCache.restoreOffsets cache clone) := by
  induction clone generalizing cache with
  | nil => exact h
  | cons c clone ih =>
    rw [DataCache.restoreOffsets, List.foldl_cons]
    refine ih (hs.modifyValue c.key (DataCache.restoreOffset_key c)) ?_
      (fun c' hc' => hclone c' (by simp [hc']))
    refine derived_modifyValue hs h c.key (DataCache.restoreOffset_key c) ?_
    intro e he hmatch start owned hp
    unfold DataCache.restoreOffset at hp
    split at hp
    · exact hclone c (by simp) start owned hp
    · obtain ⟨a, ha, hk, hpa⟩ := h e he start owned hp
      exact ⟨a, ha, hk.trans hmatch, hpa⟩

theorem length_copyToImage (image bytes : List UInt8) (p : BufPtr) :
    (copyToImage image bytes p).length = image.length := by
  cases p with
  | image start owned =>
    simp only [copyToImage, overwrite, List.length_take, List.length_append, List.length_drop]
    omega
  | null => rfl
  | block bytes => rfl
  | offset pos => rfl

/-! ## The state -/

/-- What holds of a vault at any time. -/
structure Orderly (v : DataVault δ) : Prop where
  sorted : DataCache.Sorted v.cache
  apart : Apart v.cache
  below : Below v.image.length v.cache

section Call

variable {env : Env δ} {io : SetIo} {v : DataVault δ} {c : SetCall} {ch : Change}

theorem copyTo_image {bytes : List UInt8} {p : BufPtr} {start owned : Nat}
    (h : copyTo bytes p = .image start owned) : p = .image start owned := by
  cases p with
  | image start' owned' => exact h
  | null => cases h
  | block old => cases h
  | offset pos => cases h

/-- An update leaves a value in the image only where it was. -/
theorem resized_image {d : SetData} {e : DataCacheEntry} {value : CacheData}
    (h : resize io d e.value = some value) {start owned : Nat}
    (hp : (ownBuffer io d e value).bufPtr = .image start owned) :
    e.value.bufPtr = .image start owned := by
  have hvalue : value.bufPtr = .image start owned := by
    unfold ownBuffer at hp
    split at hp
    · simp only at hp
      split at hp <;> cases hp
    · exact hp
  unfold resize at h
  split at h
  · split at h
    · cases h
      cases hvalue
    · cases h
  · cases h
    exact hvalue

theorem Changed.derived (h : Changed env io v c ch) (hs : DataCache.Sorted v.cache) :
    Derived v.cache ch.cache := by
  cases h with
  | unchanged _ => exact .refl _
  | deleted _ _ => exact .of_subset fun e he => ((DataCache.mem_deleteValue hs).mp he).1
  | deletedMatching _ _ => exact .of_subset fun e he => (List.mem_filter.mp he).1
  | @updated key e d value _ hplanned hresize =>
    cases hplanned with
    | update _ _ _ _ _ _ hget _ =>
      obtain ⟨he, hk⟩ := (DataCache.getValue_eq_some_iff hs).mp hget
      refine derived_modifyValue hs (.refl _) key (updated_key _ _ _) ?_
      intro e' _ _ start owned hp
      exact ⟨e, he, hk, resized_image hresize (copyTo_image hp)⟩
  | @added key d _ hplanned _ _ =>
    cases hplanned with
    | add _ _ _ _ _ hbuf _ =>
      intro e he start owned hp
      rcases DataCache.mem_insertValue.mp he with rfl | he
      · have hclone := cloneCacheData_image hp
        rcases clonedValue_cases hbuf with ⟨_, _, hv⟩ | ⟨bytes, hv, _, _⟩
        · rw [hv] at hclone
          cases hclone
        · rw [hv] at hclone
          cases hclone
      · exact ⟨e, he, rfl, hp⟩

theorem Changed.length_image (h : Changed env io v c ch) : ch.image.length = v.image.length := by
  cases h with
  | updated _ _ _ => exact length_copyToImage _ _ _
  | unchanged _ => rfl
  | deleted _ _ => rfl
  | deletedMatching _ _ => rfl
  | added _ _ _ _ => rfl

theorem FlushEnds.derived {io : FlushIo} {w : DataVault δ} {r : EsifError × DataVault δ}
    (h : DataVault.FlushEnds env io w r) : Derived w.cache r.2.cache ∧ r.2.image = w.image := by
  cases h with
  | refused => exact ⟨.refl _, rfl⟩
  | failed _ _ ht _ => exact ⟨ht.derived, DataVault.openStream_image w⟩
  | done _ _ _ _ hrows _ _ =>
    refine ⟨?_, DataVault.openStream_image w⟩
    unfold DataVault.RowsWritten at hrows
    rw [DataVault.openStream_cache] at hrows
    split at hrows
    · exact hrows.touched.derived
    · rw [hrows.1]
      exact .refl _

/-- **Whatever a call does, the vault stays orderly.** -/
theorem Orderly.setValue [DecidableEq δ] (h : Orderly v) (io : SetIo) (c : SetCall) :
    Orderly (v.setValue env io c).vault := by
  rcases DataVault.setValue_cases env io h.sorted c with
    ⟨_, hsame, _⟩ | ⟨_, _, _, _, hfin⟩
  · rw [hsame]
    exact h
  have hch := change_changed env io h.sorted c
  generalize v.change env io c = ch at hch hfin
  have hs' := hch.sorted h.sorted
  have hd := hch.derived h.sorted
  have himage := hch.length_image
  have hclone := derived_cloneOffsets h.sorted v.image
  -- it is enough to know where the rows come from and what became of the image
  have hend : ∀ w : DataVault δ, DataCache.Sorted w.cache → Derived v.cache w.cache →
      w.image.length = v.image.length → Orderly w := by
    intro w hws hwd hwi
    exact ⟨hws, h.apart.derived hwd, hwi ▸ h.below.derived hwd⟩
  have hrestore : ∀ w : DataVault δ, DataCache.Sorted w.cache → Derived v.cache w.cache →
      w.image.length = v.image.length → Orderly (w.restore v) := by
    intro w hws hwd hwi
    exact hend _ (DataCache.Sorted.restoreOffsets hws (h.sorted.cloneOffsets v.image))
      (derived_restoreOffsets hws hwd hclone) hwi
  generalize hr : (v.setValue env io c).rc = rc at hfin
  generalize (v.setValue env io c).vault = w at hfin ⊢
  cases hfin with
  | kept _ => exact hend _ hs' hd himage
  | delayed _ _ _ => exact hrestore _ hs' hd himage
  | flushed _ _ _ hends =>
    have hfd := FlushEnds.derived hends
    exact hend w (hends.sorted hs') (hd.trans hfd.1) ((congrArg List.length hfd.2).trans himage)
  | failed _ _ _ _ hends =>
    have hfd := FlushEnds.derived hends
    exact hrestore _ (hends.sorted hs') (hd.trans hfd.1) ((congrArg List.length hfd.2).trans himage)

end Call

/-! ## Loading -/

section Loading

variable {r : Reading} {mode : ImportType} {contents : List UInt8} {p p' : ReadPos}
  {cache : DataCache} {e : DataCacheEntry}
variable {limit : Nat}

/-- How far the rows can point that are there when the reading has come to a place. -/
def Reading.reach (r : Reading) (limit : Nat) (p : ReadPos) : Nat :=
  if r.memory then r.base + p.pos else limit

/-- What holds of the cache while a payload is read into it. -/
structure Filling (r : Reading) (limit : Nat) (p : ReadPos) (cache : DataCache) : Prop where
  sorted : DataCache.Sorted cache
  owned : AllOwned Eq cache
  apart : Apart cache
  below : Below (r.reach limit p) cache

theorem Filling.sub {cache' : DataCache} (h : Filling r limit p cache)
    (hs : DataCache.Sorted cache') (hsub : ∀ e ∈ cache', e ∈ cache) : Filling r limit p cache' :=
  ⟨hs, fun e he => h.owned e (hsub e he), h.apart.derived (.of_subset hsub),
    h.below.derived (.of_subset hsub)⟩

theorem Filling.onward (h : Filling r limit p cache) (hp : p.pos ≤ p'.pos) :
    Filling r limit p' cache := by
  refine ⟨h.sorted, h.owned, h.apart, fun a ha start owned hptr => ?_⟩
  have hle := h.below a ha start owned hptr
  unfold Reading.reach at hle ⊢
  split at hle
  · rename_i hmem
    rw [if_pos hmem]
    omega
  · rename_i hmem
    rw [if_neg hmem]
    exact hle

/-- A pair that was read goes under a key that is free. -/
theorem Filling.insert (h : Filling r limit p cache)
    (hread : ReadValue r contents e.flags p p' e.value)
    (hfree : DataCache.getValue cache e.key = none) {flags : UInt32}
    (howned : Owned Eq ⟨flags, e.key, e.value⟩) (image : List UInt8) :
    Filling r limit p' (DataCache.insertValue image cache e.key e.value flags) := by
  have hbelow := (h.onward hread.onward.1).below
  -- a new row points behind all others
  have hnew : ∀ start owned, e.value.bufPtr = .image start owned →
      r.reach limit p ≤ start ∧ start + owned = r.reach limit p' := by
    intro start owned hptr
    obtain ⟨hmem, hstart, hend⟩ := hread.image start owned hptr
    simp only [Reading.reach, if_pos hmem]
    exact ⟨hstart, hend⟩
  refine ⟨h.sorted.insertValue hfree image e.value flags, ?_, ?_, ?_⟩
  · intro a ha
    rcases DataCache.mem_insertValue.mp ha with rfl | ha
    · exact howned.cloned (fun _ => rfl) image
    · exact h.owned a ha
  · intro a ha b hb hne start owned start' owned' hp hp'
    rcases DataCache.mem_insertValue.mp ha with rfl | ha <;>
      rcases DataCache.mem_insertValue.mp hb with rfl | hb
    · exact absurd rfl hne
    · have hstart := (hnew start owned (cloneCacheData_image hp)).1
      have hle := h.below b hb start' owned' hp'
      omega
    · have hstart := (hnew start' owned' (cloneCacheData_image hp')).1
      have hle := h.below a ha start owned hp
      omega
    · exact h.apart a ha b hb hne start owned start' owned' hp hp'
  · intro a ha start owned hp
    rcases DataCache.mem_insertValue.mp ha with rfl | ha
    · exact Nat.le_of_eq (hnew start owned (cloneCacheData_image hp)).2
    · exact hbelow a ha start owned hp

theorem Filling.addPair (h : Filling r limit p cache)
    (hread : ReadValue r contents e.flags p p' e.value) (hmode : mode = .merge → r.inPlace = false)
    (image : List UInt8) : Filling r limit p' (addPair mode image cache e) := by
  unfold Vault.addPair
  cases mode with
  | merge =>
    simp only
    split
    · rename_i hfree
      refine h.insert hread (Option.isNone_iff_eq_none.mp hfree) ?_ image
      have howned := hread.owned e.key
      unfold Owned at howned ⊢
      cases hp : e.value.bufPtr with
      | offset pos =>
        have hplace := hread.inPlace pos hp
        rw [hmode rfl] at hplace
        cases hplace
      | null | block _ | image _ _ =>
        simp only [hp] at howned ⊢
        exact howned
    · exact h.onward hread.onward.1
  | copy =>
    simp only
    split
    · have hdel := h.sub (h.sorted.deleteValue e.key)
        fun a ha => ((DataCache.mem_deleteValue h.sorted).mp ha).1
      refine hdel.insert hread ?_ (hread.owned e.key) image
      rw [DataCache.getValue_deleteValue h.sorted, if_pos rfl]
    · rename_i hnone
      exact h.insert hread (by simpa using hnone) (hread.owned e.key) image

/-- **Reading a payload** gives its values their memory, and the rows that point into the
image parts of their own. -/
theorem Filling.readPairs (hmode : mode = .merge → r.inPlace = false) (image : List UInt8)
    (fuel : Nat) : ∀ {p : ReadPos} {cache : DataCache}, Filling r limit p cache →
      p.pos ≤ contents.length →
      Filling r limit ⟨contents.length, []⟩
        (Vault.readPairs r mode image contents fuel p cache).cache := by
  induction fuel with
  | zero => exact fun h hp => h.onward hp
  | succ fuel ih =>
    intro p cache h hp
    unfold Vault.readPairs
    split
    · exact h.onward hp
    · exact h.onward hp
    · rename_i e p' hread
      have hvalue := readKeyValuePair_ok hread hp
      exact ih (h.addPair hvalue hmode image) hvalue.onward.2

end Loading

section Opening

variable {env : Env δ} {v v' : DataVault δ}

/-- A vault that is orderly and has the memory for its values. -/
def Sane (v : DataVault δ) : Prop := Orderly v ∧ AllOwned Eq v.cache

theorem Sane.takeHeader (h : Sane v) (emptyDigest : Bool) (mode : ImportType)
    (header : DataVaultHeader δ) : Sane (v.takeHeader emptyDigest mode header) := by
  have hsame : (v.takeHeader emptyDigest mode header).cache = v.cache ∧
      (v.takeHeader emptyDigest mode header).image = v.image := by
    unfold DataVault.takeHeader
    split <;> split <;> exact ⟨rfl, rfl⟩
  obtain ⟨hcache, himage⟩ := hsame
  obtain ⟨⟨hs, ha, hb⟩, ho⟩ := h
  refine ⟨⟨?_, ?_, ?_⟩, ?_⟩
  · rwa [hcache]
  · rwa [hcache]
  · rwa [hcache, himage]
  · rwa [hcache]

variable [DecidableEq δ]

/-- A segment that is read leaves a vault sane. -/
theorem Sane.readSegment {emptyDigest memory : Bool} {mode : ImportType} {seg : DvFile δ}
    {rc : EsifError} (h : Sane v)
    (hr : v.readSegment env emptyDigest mode memory seg = some (rc, v')) : Sane v' := by
  have hv := h.takeHeader emptyDigest mode seg.header
  unfold DataVault.readSegment at hr
  simp only at hr
  split at hr
  · obtain ⟨_, rfl⟩ := Prod.mk.inj (Option.some.inj hr)
    exact hv
  · obtain ⟨_, rfl⟩ := Prod.mk.inj (Option.some.inj hr)
    exact hv
  generalize v.takeHeader emptyDigest mode seg.header = w at hr hv
  obtain ⟨⟨hs, ha, hb⟩, ho⟩ := hv
  unfold DataVault.readPayload at hr
  split at hr
  · cases hr
  obtain ⟨_, rfl⟩ := Prod.mk.inj (Option.some.inj hr)
  have hmode : mode = .merge → (w.reading mode memory seg.header).inPlace = false := by
    rintro rfl
    simp [DataVault.reading]
  have hstart : Filling (w.reading mode memory seg.header) w.image.length ⟨0, []⟩ w.cache := by
    refine ⟨hs, ho, ha, fun e he start owned hp => ?_⟩
    have hle := hb e he start owned hp
    unfold Reading.reach DataVault.reading
    cases memory with
    | true => simpa using hle
    | false => simpa using hle
  obtain ⟨hs', ho', ha', hb'⟩ := hstart.readPairs hmode
    (if memory = true then w.image ++ seg.payload else w.image) (seg.payload.length + 1)
    (Nat.zero_le seg.payload.length)
  refine ⟨⟨hs', ha', ?_⟩, ho'⟩
  intro e he start owned hp
  have hle := hb' e he start owned hp
  unfold Reading.reach DataVault.reading at hle
  cases memory with
  | true => simpa using hle
  | false => simpa using hle

/-- **A vault that was opened is orderly and has the memory for its values.** -/
theorem Opened.sane (h : Opened env v) : Sane v := by
  induction h with
  | created _ _ =>
    refine ⟨⟨DataCache.sorted_nil, ?_, ?_⟩, ?_⟩
    · intro e he
      cases he
    · intro e he
      cases he
    · intro e he
      cases he
  | @imported v v' emptyDigest rc _ himport ih =>
    have hstream : ∀ stream, Sane { v with stream := stream } := fun _ =>
      ⟨⟨ih.1.sorted, ih.1.apart, ih.1.below⟩, ih.2⟩
    unfold DataVault.importStream at himport
    split at himport
    · obtain ⟨_, rfl⟩ := Prod.mk.inj (Option.some.inj himport)
      exact hstream _
    · simp only at himport
      split at himport
      · obtain ⟨_, rfl⟩ := Prod.mk.inj (Option.some.inj himport)
        exact hstream _
      · exact (hstream _).readSegment himport
  | loaded _ hload ih =>
    unfold DataVault.loadSegment at hload
    split at hload
    · obtain ⟨_, rfl⟩ := Prod.mk.inj (Option.some.inj hload)
      exact ih
    · exact ih.readSegment hload

end Opening

/-! ## Calls on fixed values -/

/-- No files to load values from, and a digest that is the payload itself. -/
def plainEnv : Env (List UInt8) := ⟨id, fun _ => none, fun _ => [], []⟩

/-- A value of some bytes in a buffer that is said to have a capacity. -/
def SetData.ofBytes (type bufLen : UInt32) (bytes : List UInt8) : SetData where
  type := type
  bufPtr := some bytes
  bufLen := bufLen
  dataLen := .ofNat bytes.length
  readable := by
    intro buffer hbuffer
    obtain rfl := Option.some.inj hbuffer
    exact Nat.mod_le _ _

/-- The name `a`. -/
theorem nul_free_a : (0 : UInt8) ∉ ([97] : List UInt8) := by decide

/-- The key `k`. -/
theorem nul_free_k : (0 : UInt8) ∉ ([107] : List UInt8) := by decide

/-- The vault `a` with nothing on disk. -/
def emptyVault : DataVault (List UInt8) := .created ⟨[97], nul_free_a⟩ ⟨[], CName.nul_free_nil⟩ none

theorem emptyVault_opened : Opened plainEnv emptyVault :=
  .created (by decide) (by decide)

/-- A call that sets the key `k`. -/
def setK (d : SetData) (flags : UInt32) : SetCall := ⟨some ⟨[107], nul_free_k⟩, some d, flags⟩

end Vault

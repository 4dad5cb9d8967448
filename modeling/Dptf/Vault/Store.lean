import Dptf.Vault.OneKey

/-!
# The vault as a map

Calls that cache what they set make of a vault a map from keys to values: what is shown
under a key is what the last call on it made of it, and no outcome of a flush changes
that.

* `Caching.viewAt`, `read_of_run` — one call, and every run.
-/

open Lib

namespace Vault

variable {δ : Type}

/-! ## The map -/

/-- What is shown under each key. -/
abbrev Store := CName → Option View

/-- What is shown of a value that was set. -/
def SetData.view (d : SetData) (flags : UInt32) : View :=
  ⟨itemFlags flags, d.type, d.dataLen.toNat, some d.bytes, []⟩

namespace Store

/-- Put something under a key, or nothing. -/
def put (s : Store) (key : CName) (shown : Option View) : Store :=
  fun k => if key.folded = k.folded then shown else s k

/-- What a call makes of the map. -/
def after (env : Env δ) (io : SetIo) (c : SetCall) (s : Store) : Store :=
  match c.key with
  | none => s
  | some key =>
    if (DataVault.valueOf c).any isAuto ∨ (DataVault.valueOf c).any tooSmall ∨
        (s key).any fun w => flagsTest w.flags ServiceConfig.readonly then s
    else if flagsTest c.flags ServiceConfig.delete then s.put key none
    else
      match c.value.map (SetData.loaded env io) with
      | some (.ok d) => if d.bufPtr = none then s else s.put key (some (d.view c.flags))
      | _ => s

end Store

/-- What a plan makes of the map. -/
def Plan.applied (flags : UInt32) (s : Store) : Plan → Store
  | .delete key _ => s.put key none
  | .update key _ d => s.put key (some (d.view flags))
  | .add key d => s.put key (some (d.view flags))
  | _ => s

/-- What a plan puts into the map is cached. -/
theorem Plan.applied_cached {p : Plan} {flags : UInt32} {s : Store}
    (hs : ∀ k w, s k = some w → flagsTest w.flags ServiceConfig.nocache = false)
    (hcached : flagsTest flags ServiceConfig.nocache = false) (k : CName) (w : View)
    (h : p.applied flags s k = some w) : flagsTest w.flags ServiceConfig.nocache = false := by
  have hset : ∀ (key : CName) (d : SetData), s.put key (some (d.view flags)) k = some w →
      flagsTest w.flags ServiceConfig.nocache = false := by
    intro key d h
    unfold Store.put at h
    split at h
    · cases h
      rw [SetData.view, itemFlags, flagsTest_flagsClear (by decide), hcached]
    · exact hs k w h
  cases p with
  | stop rc => exact hs k w h
  | deleteMatching pattern => exact hs k w h
  | update key e d => exact hset key d h
  | add key d => exact hset key d h
  | delete key e =>
    simp only [Plan.applied, Store.put] at h
    split at h
    · cases h
    · exact hs k w h

section Map

variable {env : Env δ} {io : SetIo} {v : DataVault δ} {c : SetCall}

theorem put_none_of_getValue {key : CName} (hs : DataCache.Sorted v.cache)
    (h : DataCache.getValue v.cache key = none) : Store.put v.viewAt key none = v.viewAt := by
  funext k
  unfold Store.put
  split
  · rename_i hk
    rw [DataCache.getValue_eq_none_iff hs, hk, ← DataCache.getValue_eq_none_iff hs] at h
    rw [DataVault.viewAt, h, Option.map_none]
  · rfl

/-- **The map after a call**, by the plan the checks of the call come to. -/
theorem after_viewAt (hs : DataCache.Sorted v.cache)
    (hwild : ∀ key, c.key = some key → key.hasWildcard = false) :
    Store.after env io c v.viewAt = (v.plan env io c).applied c.flags v.viewAt := by
  unfold Store.after DataVault.plan Vault.DataVault.decide
  cases hkey : c.key with
  | none => rfl
  | some key =>
    have hw := hwild key hkey
    have hro : ((v.viewAt key).any fun w => flagsTest w.flags ServiceConfig.readonly) =
        (DataCache.getValue v.cache key).any fun e => e.has ServiceConfig.readonly := by
      rw [DataVault.viewAt]
      cases DataCache.getValue v.cache key <;> rfl
    simp only [hro, hw, Bool.false_eq_true, if_false]
    by_cases hauto : (DataVault.valueOf c).any isAuto = true
    · simp [hauto, Plan.applied]
    by_cases hsmall : (DataVault.valueOf c).any tooSmall = true
    · simp [hauto, hsmall, Plan.applied]
    simp only [hauto, hsmall]
    cases hdel : flagsTest c.flags ServiceConfig.delete with
    | true =>
      rw [DataVault.valueOf_of_delete hdel]
      unfold DataVault.decideKey
      cases hget : DataCache.getValue v.cache key with
      | none => simp [Plan.applied, put_none_of_getValue hs hget]
      | some e =>
        by_cases hro' : e.has ServiceConfig.readonly = true <;> simp [hro', hdel, Plan.applied]
    | false =>
      rw [DataVault.valueOf_of_not_delete hdel]
      unfold DataVault.decideKey
      cases hval : c.value with
      | none =>
        cases hget : DataCache.getValue v.cache key with
        | none => simp [Plan.applied]
        | some e =>
          by_cases hro' : e.has ServiceConfig.readonly = true <;> simp [hro', hdel, Plan.applied]
      | some d₀ =>
        cases hload : d₀.loaded env io with
        | error rc => simp [hload, Plan.applied]
        | ok d =>
          cases hget : DataCache.getValue v.cache key with
          | none => by_cases hbuf : d.bufPtr = none <;> simp [hload, hbuf, Plan.applied]
          | some e =>
            by_cases hro' : e.has ServiceConfig.readonly = true <;>
              by_cases hbuf : d.bufPtr = none <;> simp [hload, hbuf, hro', hdel, Plan.applied]

end Map

/-! ## Behind the `exit:` label -/

section Finish

variable {env : Env δ} {io : FlushIo} {v w : DataVault δ} {ch : Change}
  {r : EsifError × DataVault δ} {k : CName}

/-- A flush leaves what is cached as it is, also one that fails. -/
theorem FlushEnds.viewAt (h : DataVault.FlushEnds env io v r) (hs : DataCache.Sorted v.cache)
    (hno : ∀ e, DataCache.getValue v.cache k = some e → e.has ServiceConfig.nocache = false) :
    r.2.viewAt k = v.viewAt k := by
  unfold DataVault.viewAt
  cases he : DataCache.getValue v.cache k with
  | none => rw [FlushEnds.getValue_none h hs he, Option.map_none, Option.map_none]
  | some e =>
    have hno := hno e he
    obtain ⟨rc, u⟩ := r
    by_cases hrc : rc = esifOk
    · subst hrc
      obtain ⟨_, e', hget, hview⟩ := FlushEnds.view h hs he fun h => by simp [hno] at h
      rw [hget, Option.map_some, hview, Option.map_some]
    · obtain ⟨hsame, e', hget, hkept⟩ := FlushEnds.kept h hrc hs he
        (not_lost_of_not_nocache (by simp [hno]) _ _)
      rw [hkept.eq_of_not_nocache hno] at hget
      rw [hget, Option.map_some, Option.map_some, view_congr hsame.isStatic (by rw [hsame.image])]
      intro hin
      simp [nocache_of_inFile hin] at hno

/-- **What is cached is shown** as at the `exit:` label, however the call ends. -/
theorem Finished.viewAt (h : DataVault.Finished env io v ch r) (hs : DataCache.Sorted v.cache)
    (hs' : DataCache.Sorted ch.cache)
    (hno : ∀ e, DataCache.getValue v.cache k = some e → e.has ServiceConfig.nocache = false)
    (hno' : ∀ e, DataCache.getValue ch.cache k = some e → e.has ServiceConfig.nocache = false) :
    r.2.viewAt k = (v.withChange ch).viewAt k := by
  -- the snapshot has nothing under the key
  have hrestore : ∀ u : DataVault δ, DataCache.Sorted u.cache →
      (u.restore v).viewAt k = u.viewAt k := by
    intro u hu
    have hnone : (DataCache.getValue v.cache k).filter (fun e => e.has ServiceConfig.nocache) =
        none := by
      rw [Option.filter_eq_none_iff]
      intro e he
      simp [hno e he]
    unfold DataVault.viewAt
    rw [DataVault.restore, DataCache.getValue_restoreOffsets hu hs, hnone]
    rfl
  cases h with
  | kept _ => rfl
  | delayed _ _ _ => exact hrestore _ hs'
  | flushed _ _ _ hends => exact FlushEnds.viewAt hends hs' hno'
  | failed _ _ _ _ hends =>
    exact (hrestore _ (hends.sorted hs')).trans (FlushEnds.viewAt hends hs' hno')

end Finish

/-! ## Before it -/

section Change

variable {env : Env δ} {io : SetIo} {v : DataVault δ} {c : SetCall} {k : CName}

/-- A value that was copied to a buffer is read from it. -/
theorem read_copied {p : BufPtr} {image bytes : List UInt8} (hroom : bytes.length ≤ p.room)
    (hbelow : ∀ start owned, p = .image start owned → start + owned ≤ image.length) :
    (copyTo bytes p).read (copyToImage image bytes p) bytes.length = bytes := by
  cases p with
  | null => simp [List.length_eq_zero_iff.mp (Nat.le_zero.mp hroom), copyTo, BufPtr.read]
  | offset pos => simp [List.length_eq_zero_iff.mp (Nat.le_zero.mp hroom), copyTo, BufPtr.read]
  | block old =>
    simp only [BufPtr.room] at hroom
    simp [copyTo, BufPtr.read, List.take_take, hroom]
  | image start owned =>
    have hbelow := hbelow start owned rfl
    simp only [BufPtr.room] at hroom
    simp only [copyTo, copyToImage, BufPtr.read]
    rw [List.take_of_length_le (le_of_eq (length_overwrite (by omega)))]
    exact (hasAt_overwrite (by omega)).peekAt

/-- A value that was cloned twice is read. -/
theorem read_added {d : SetData} (hbuf : d.bufPtr ≠ none) (image image' : List UInt8) :
    (DataCache.cloneCacheData image (clonedValue d)).bufPtr.read image' d.dataLen.toNat =
      d.bytes := by
  have hlen := SetData.length_bytes hbuf
  rcases clonedValue_cases hbuf with ⟨_, hd, hv⟩ | ⟨bytes, hv, hpos, htake⟩
  · rw [hv, cloneCacheData_of_bufLen rfl]
    exact (List.length_eq_zero_iff.mp (by rw [hlen, hd]; rfl)).symm
  · have hnot : ¬ ((BufPtr.block bytes : BufPtr) = .null ∨
        max d.bufLen.toNat d.dataLen.toNat = 0) := by
      simp
      omega
    rw [hv, DataCache.cloneCacheData]
    simp only [if_neg hnot, BufPtr.read, DataCache.mallocCopy, htake]
    rw [← hlen, List.take_append_of_le_length (le_refl _), List.take_length]

theorem has_itemFlags {e : DataCacheEntry} {flags : UInt32} (h : e.flags = itemFlags flags)
    (hcached : flagsTest flags ServiceConfig.nocache = false) :
    e.has ServiceConfig.nocache = false := by
  rw [DataCacheEntry.has, h, itemFlags, flagsTest_flagsClear (by decide), hcached]

/-- What is shown of a row whose buffer holds a value. -/
theorem view_of_read {w : DataVault δ} {e : DataCacheEntry} {d : SetData} {flags : UInt32}
    (hstatic : w.isStatic = false) (hcached : flagsTest flags ServiceConfig.nocache = false)
    (hflags : e.flags = itemFlags flags) (htype : e.value.type = d.type)
    (hlen : e.value.dataLen = d.dataLen.toNat)
    (hread : e.value.bufPtr.read w.image d.dataLen.toNat = d.bytes) : w.view e = d.view flags := by
  have hin : inFile e = false := by rw [inFile, has_itemFlags hflags hcached, Bool.false_and]
  simp [DataVault.view, DataVault.content, hin, hstatic, SetData.view, hflags, htype, hlen, hread]

/-- A key that the plan spares is shown as before. -/
theorem viewAt_spared (hsound : Sound v)
    (hno : ∀ e, DataCache.getValue v.cache k = some e → e.has ServiceConfig.nocache = false)
    (hfits : (v.plan env io c).Fits (· ≤ ·) io) (hspares : (v.plan env io c).Spares v.cache k) :
    (v.withChange (v.change env io c)).viewAt k = v.viewAt k := by
  obtain ⟨horderly, howned⟩ := hsound
  have hs := horderly.sorted
  have hch := change_changed env io hs c
  have hget := hch.getValue_spared hs hspares
  unfold DataVault.viewAt
  rw [show (v.withChange (v.change env io c)).cache = (v.change env io c).cache from rfl, hget]
  cases he : DataCache.getValue v.cache k with
  | none => rfl
  | some e =>
    have hmem := ((DataCache.getValue_eq_some_iff hs).mp he).1
    have hread := hch.read_spared horderly hfits.staysInImage hspares (howned e hmem) he
    refine congrArg some (view_congr rfl hread fun hin => ?_)
    have hnocache := nocache_of_inFile hin
    rw [hno e he] at hnocache
    cases hnocache

/-- A value that replaces another is shown. -/
theorem viewAt_updated {key : CName} {e : DataCacheEntry} {d : SetData} (hsound : Sound v)
    (hstatic : v.isStatic = false) (hcached : flagsTest c.flags ServiceConfig.nocache = false)
    (hrealloc : io.realloc = true) (hp : v.plan env io c = .update key e d)
    (hfits : (Plan.update key e d).Fits (· ≤ ·) io) (hk : key.folded = k.folded) :
    (v.withChange (v.change env io c)).viewAt k = some (d.view c.flags) := by
  obtain ⟨horderly, howned⟩ := hsound
  have hs := horderly.sorted
  have hplanned := DataVault.plan_planned env io v c
  rw [hp] at hplanned
  cases hplanned with
  | update _ _ _ _ _ hbuf hget _ =>
    obtain ⟨hmem, hk'⟩ := (DataCache.getValue_eq_some_iff hs).mp hget
    have hgetk := (DataCache.getValue_eq_some_iff hs).mpr ⟨hmem, hk'.trans hk⟩
    obtain ⟨value, hresize⟩ : ∃ value, resize io d e.value = some value := by
      unfold resize
      rw [if_pos hrealloc]
      split <;> exact ⟨_, rfl⟩
    have hroom := ((howned e hmem).updated Nat.le_refl (fun _ _ h => h) hfits hresize c.flags).2
    have hlen := SetData.length_bytes hbuf
    have hcarry : v.change env io c = v.carryOut io c.flags (.update key e d) := hp ▸ rfl
    simp only [DataVault.carryOut, hresize] at hcarry
    rw [hcarry, DataVault.viewAt, DataVault.withChange,
      DataCache.getValue_modifyValue hs _ (updated_key _ _ _), if_pos hk, hgetk, Option.map_some,
      Option.map_some]
    refine congrArg some (view_of_read hstatic hcached rfl rfl rfl ?_)
    rw [← hlen]
    refine read_copied (by rw [hlen]; exact hroom) fun start owned h => ?_
    exact horderly.below e hmem start owned (resized_image hresize h)

/-- A value that is new is shown. -/
theorem viewAt_added {key : CName} {d : SetData} (hs : DataCache.Sorted v.cache)
    (hstatic : v.isStatic = false) (hcached : flagsTest c.flags ServiceConfig.nocache = false)
    (hclone : io.cloneValue = true) (hinsert : io.insertValue = true)
    (hp : v.plan env io c = .add key d) (hk : key.folded = k.folded) :
    (v.withChange (v.change env io c)).viewAt k = some (d.view c.flags) := by
  have hplanned := DataVault.plan_planned env io v c
  rw [hp] at hplanned
  cases hplanned with
  | add _ _ _ _ _ hbuf hnew =>
    have hvalue : (clonedValue d).type = d.type ∧ (clonedValue d).dataLen = d.dataLen.toNat := by
      rcases clonedValue_cases hbuf with ⟨_, hd, hv⟩ | ⟨_, hv, _⟩
      · rw [hv, hd]
        exact ⟨rfl, rfl⟩
      · rw [hv]
        exact ⟨rfl, rfl⟩
    have hcarry : v.change env io c = v.carryOut io c.flags (.add key d) := hp ▸ rfl
    simp only [DataVault.carryOut, hclone, hinsert, if_true] at hcarry
    rw [hcarry, DataVault.viewAt, DataVault.withChange, DataCache.getValue_insertValue hs hnew,
      if_pos hk, Option.map_some]
    refine congrArg some (view_of_read hstatic hcached rfl ?_ ?_ (read_added hbuf _ _))
    · rw [cloneCacheData_type, hvalue.1]
    · rw [cloneCacheData_dataLen, hvalue.2]

/-- **The map at the `exit:` label** is what the plan says. -/
theorem viewAt_change (hsound : Sound v) (hstatic : v.isStatic = false)
    (hno : ∀ e, DataCache.getValue v.cache k = some e → e.has ServiceConfig.nocache = false)
    (hwild : ∀ key, c.key = some key → key.hasWildcard = false)
    (hcached : flagsTest c.flags ServiceConfig.nocache = false)
    (halloc : io.realloc = true ∧ io.cloneValue = true ∧ io.insertValue = true)
    (hfits : (v.plan env io c).Fits (· ≤ ·) io) : (v.withChange (v.change env io c)).viewAt k =
      (v.plan env io c).applied c.flags v.viewAt k := by
  have hs := hsound.1.sorted
  have hspared := viewAt_spared hsound hno hfits
  cases hp : v.plan env io c with
  | stop rc => exact hspared (by rw [hp]; trivial)
  | deleteMatching pattern =>
    have hplanned := DataVault.plan_planned env io v c
    rw [hp] at hplanned
    cases hplanned with
    | deleteMatching hkey hw _ => simp [hwild _ hkey] at hw
  | delete key e =>
    simp only [Plan.applied, Store.put]
    split
    · rename_i hk
      have hcarry : v.change env io c = v.carryOut io c.flags (.delete key e) := hp ▸ rfl
      simp [hcarry, DataVault.viewAt, DataVault.withChange, DataVault.carryOut,
        DataCache.getValue_deleteValue hs, hk]
    · exact hspared (by rw [hp]; assumption)
  | update key e d =>
    simp only [Plan.applied, Store.put]
    split
    · exact viewAt_updated hsound hstatic hcached halloc.1 hp (hp ▸ hfits) ‹_›
    · exact hspared (by rw [hp]; assumption)
  | add key d =>
    simp only [Plan.applied, Store.put]
    split
    · exact viewAt_added hs hstatic hcached halloc.2.1 halloc.2.2 hp ‹_›
    · exact hspared (by rw [hp]; assumption)

end Change

/-! ## Runs -/

/-- `DataVault_GetValue` of a map, with an `AUTO` type and auto-allocation. -/
def Store.read (s : Store) (k : CName) : Except GetError Got :=
  match s k with
  | none => .error ⟨esifENotFound, 0⟩
  | some w =>
    match w.content with
    | none => .error ⟨esifENotFound, 0⟩
    | some bytes => .ok ⟨w.type, bytes, w.flags⟩

section Runs

variable {env : Env δ} {v w : DataVault δ}

theorem read_viewAt (hstatic : v.isStatic = false) (k : CName) :
    v.read k = Store.read v.viewAt k := by
  unfold DataVault.read DataVault.getValue Store.read DataVault.viewAt
  cases he : DataCache.getValue v.cache k with
  | none => rfl
  | some e =>
    cases hcontent : v.content e <;> simp [hstatic, DataVault.view, hcontent]

variable [DecidableEq δ]

/-- The flags of a vault after a call. -/
theorem setValue_flags (hs : DataCache.Sorted v.cache) (io : SetIo) (c : SetCall) :
    v.FlushFlags (v.setValue env io c).vault.flags := by
  rcases DataVault.setValue_cases env io hs c with ⟨_, hsame, _⟩ | ⟨_, _, _, _, hfin⟩
  · rw [hsame]
    exact Or.inl rfl
  · have hends : ∀ {r : EsifError × DataVault δ}, DataVault.FlushEnds env io.flush
        (v.withChange (v.change env io c)) r → v.FlushFlags r.2.flags := by
      intro r h
      cases h with
      | refused => exact Or.inl rfl
      | failed _ _ _ hflags => exact hflags
      | done _ _ _ _ _ hflags _ => exact hflags
    generalize (v.setValue env io c).rc = rc at hfin
    generalize (v.setValue env io c).vault = u at hfin ⊢
    cases hfin with
    | kept _ => exact Or.inl rfl
    | delayed _ _ _ => exact Or.inl rfl
    | flushed _ _ _ h => exact hends h
    | failed _ _ _ _ h => exact hends h

/-- A vault that is a map: what is in it is cached, and it can be changed. -/
structure Cached (v : DataVault δ) : Prop where
  sound : Sound v
  isStatic : v.isStatic = false
  isReadonly : v.isReadonly = false
  cached : ∀ k w, v.viewAt k = some w → flagsTest w.flags ServiceConfig.nocache = false

/-- A call on one key, or a flush, that caches its value and has the memory it needs.  Nothing
is said of the flush. -/
structure Caching (env : Env δ) (v : DataVault δ) (a : SetIo × SetCall) : Prop where
  oneKey : ∀ key, a.2.key = some key → key.hasWildcard = false
  cached : flagsTest a.2.flags ServiceConfig.nocache = false
  snapshot : a.1.cloneOffsets = true
  allocated : a.1.realloc = true ∧ a.1.cloneValue = true ∧ a.1.insertValue = true
  fits : (v.plan env a.1 a.2).Fits (· ≤ ·) a.1

/-- **One call** does to the vault what it does to the map, however its flush ends. -/
theorem Caching.viewAt {a : SetIo × SetCall} (h : Caching env v a) (hv : Cached v) :
    Cached (v.setValue env a.1 a.2).vault ∧
      (v.setValue env a.1 a.2).vault.viewAt = Store.after env a.1 a.2 v.viewAt := by
  have hs := hv.sound.1.sorted
  rw [after_viewAt hs h.oneKey]
  have hmap := Plan.applied_cached (p := v.plan env a.1 a.2) hv.cached h.cached
  have hno : ∀ k e, DataCache.getValue v.cache k = some e → e.has ServiceConfig.nocache = false :=
    fun k e he => hv.cached k (v.view e) (by rw [DataVault.viewAt, he, Option.map_some])
  have hchange : ∀ k, (v.withChange (v.change env a.1 a.2)).viewAt k =
      (v.plan env a.1 a.2).applied a.2.flags v.viewAt k := fun k =>
    viewAt_change hv.sound hv.isStatic (hno k) h.oneKey h.cached h.allocated h.fits
  have hview : (v.setValue env a.1 a.2).vault.viewAt =
      (v.plan env a.1 a.2).applied a.2.flags v.viewAt := by
    funext k
    rcases DataVault.setValue_cases env a.1 hs a.2 with
      ⟨_, _, _, _, hnot⟩ | ⟨_, _, _, _, hfin⟩
    · exact absurd ⟨hv.isReadonly, h.snapshot⟩ hnot
    · rw [← hchange]
      refine Finished.viewAt hfin hs ((change_changed env a.1 hs a.2).sorted hs)
        (hno k) fun e he => ?_
      refine hmap k ((v.withChange (v.change env a.1 a.2)).view e) ?_
      rw [← hchange]
      exact congrArg (Option.map _) he
  have hflags : v.FlushFlags (v.setValue env a.1 a.2).vault.flags := setValue_flags hs a.1 a.2
  refine ⟨⟨hv.sound.setValue fun _ _ => h.fits, ?_, ?_, fun k w hw => hmap k w ?_⟩, hview⟩
  · exact (DataVault.isStatic_congr hflags).trans hv.isStatic
  · rcases hflags with hflags | hflags
    · rw [DataVault.isReadonly, hflags]
      exact hv.isReadonly
    · rw [DataVault.isReadonly, hflags, flagsTest_flagsClear (by decide)]
      exact hv.isReadonly
  · rw [← hview, hw]

/-- **A vault is a map.**  After a run of calls `DataVault_GetValue` gives for every key what the
calls one after another have made of the map. -/
theorem read_of_run {as : List (SetIo × SetCall)} (hv : Cached v)
    (hok : EveryStep (DataVault.setStep env) (Caching env) v as)
    (hrun : run (DataVault.setStep env) v as = some w) (k : CName) :
    w.read k = Store.read (as.foldl (fun s a => s.after env a.1 a.2) v.viewAt) k := by
  induction as generalizing v with
  | nil =>
    cases hrun
    exact read_viewAt hv.isStatic k
  | cons a as ih =>
    obtain ⟨u, hstep, hrest⟩ := run_cons_eq_some hrun
    have hu := hok.1.viewAt hv
    have hok' := hok.2 u hstep
    cases hstep
    rw [List.foldl_cons, ← hu.2]
    exact ih hu.1 hok' hrest

end Runs

/-- The key `k` is set to some bytes and cannot be written to disk. -/
def setUnflushed (bytes : List UInt8) : SetIo × SetCall :=
  ({ SetIo.ok with flush := { FlushIo.ok with createTemp := false } },
    setK (.ofBytes 7 (.ofNat bytes.length) bytes) ServiceConfig.persist)

/-- A value that is set again. -/
theorem read_of_run_setUnflushed : ∃ w,
    run (DataVault.setStep plainEnv) emptyVault [setUnflushed [1], setUnflushed [2, 3]] = some w ∧
      w.read ⟨[107], nul_free_k⟩ = .ok ⟨7, [2, 3], ServiceConfig.persist⟩ := by
  have hone : ∀ bytes key, (setUnflushed bytes).2.key = some key → key.hasWildcard = false := by
    rintro bytes key ⟨⟩
    decide
  have hok : EveryStep (DataVault.setStep plainEnv) (Caching plainEnv) emptyVault
      [setUnflushed [1], setUnflushed [2, 3]] := by
    refine ⟨⟨hone [1], by decide, rfl, by decide, ?_⟩, fun u hu =>
      ⟨⟨hone [2, 3], by decide, rfl, by decide, ?_⟩, fun _ _ => trivial⟩⟩
    · rw [show emptyVault.plan plainEnv (setUnflushed [1]).1 (setUnflushed [1]).2 =
        .add ⟨[107], nul_free_k⟩ (.ofBytes 7 1 [1]) from by decide +kernel]
      trivial
    · cases hu
      rw [show (emptyVault.setValue plainEnv (setUnflushed [1]).1 (setUnflushed [1]).2).vault.plan
          plainEnv (setUnflushed [2, 3]).1 (setUnflushed [2, 3]).2 = .update ⟨[107], nul_free_k⟩
          ⟨ServiceConfig.persist, ⟨[107], nul_free_k⟩, ⟨7, .block [1], 1, 1⟩⟩
          (.ofBytes 7 2 [2, 3]) from by decide +kernel]
      rintro start owned ⟨⟩
  refine ⟨_, rfl, (read_of_run ⟨emptyVault_opened.sound, rfl, rfl, ?_⟩ hok rfl _).trans rfl⟩
  intro k w h
  cases h

end Vault

import Dptf.Vault.SetValue

/-!
# What the parts of a call leave

The ways `DataVault_RepoFlush` ends, what is found under a key afterwards, and what
`DataVault_SetValue` makes of the cache before it flushes.  What follows uses these
and not the functions.
-/

open Lib

namespace Vault

variable {δ : Type}

/-! ## Rows after a pass -/

section Pass

variable {file : Option (DvFile δ)} {io : Nat → PairIo} {rest out : DataCache}

theorem Touched.mem (h : Touched file io rest out) : ∀ e' ∈ out, ∃ e ∈ rest, Kept e e' := by
  induction h with
  | stop rest => exact fun e he => ⟨e, he, Or.inl rfl⟩
  | @keep e e' rest out hkept _ ih =>
    intro a ha
    rcases List.mem_cons.mp ha with rfl | ha
    · exact ⟨e, by simp, hkept⟩
    · obtain ⟨b, hb, hk⟩ := ih a ha
      exact ⟨b, by simp [hb], hk⟩
  | drop _ _ ih =>
    intro a ha
    obtain ⟨b, hb, hk⟩ := ih a ha
    exact ⟨b, by simp [hb], hk⟩

theorem Touched.mem_or_lost (h : Touched file io rest out) :
    ∀ e ∈ rest, (∃ e' ∈ out, Kept e e') ∨ Lost file io e := by
  induction h with
  | stop rest => exact fun e he => Or.inl ⟨e, he, Or.inl rfl⟩
  | @keep e e' rest out hkept _ ih =>
    intro a ha
    rcases List.mem_cons.mp ha with rfl | ha
    · exact Or.inl ⟨e', by simp, hkept⟩
    · exact (ih a ha).imp_left fun ⟨b, hb, hk⟩ => ⟨b, by simp [hb], hk⟩
  | drop hlost _ ih =>
    intro a ha
    rcases List.mem_cons.mp ha with rfl | ha
    · exact Or.inr hlost
    · exact ih a ha

theorem Touched.keys_sublist (h : Touched file io rest out) :
    (out.map DataCacheEntry.folded).Sublist (rest.map DataCacheEntry.folded) := by
  induction h with
  | stop rest => exact List.Sublist.refl _
  | keep hkept _ ih =>
    rw [List.map_cons, List.map_cons, DataCacheEntry.folded, hkept.key]
    exact ih.cons_cons _
  | drop _ _ ih => exact ih.cons _

theorem Touched.sorted (h : Touched file io rest out) (hs : DataCache.Sorted rest) :
    DataCache.Sorted out :=
  List.pairwise_map.mp ((List.pairwise_map.mpr hs : List.Pairwise
    (fun a b => compare a b = Ordering.lt) _).sublist h.keys_sublist)

/-- **A row after a pass**: it was there before, and it is kept or lost. -/
theorem Touched.getValue (h : Touched file io rest out) (hs : DataCache.Sorted rest) (k : CName) :
    (DataCache.getValue rest k = none ∧ DataCache.getValue out k = none) ∨
      ∃ e, DataCache.getValue rest k = some e ∧
        ((∃ e', DataCache.getValue out k = some e' ∧ Kept e e') ∨
          DataCache.getValue out k = none ∧ Lost file io e) := by
  have hout := h.sorted hs
  cases hr : DataCache.getValue rest k with
  | none =>
    refine Or.inl ⟨rfl, (DataCache.getValue_eq_none_iff hout).mpr fun e' he' hk => ?_⟩
    obtain ⟨e, he, hkept⟩ := h.mem e' he'
    have hkey : e.folded = k.folded := by rw [← hk, DataCacheEntry.folded, ← hkept.key]; rfl
    exact (DataCache.getValue_eq_none_iff hs).mp hr e he hkey
  | some e =>
    obtain ⟨he, hk⟩ := (DataCache.getValue_eq_some_iff hs).mp hr
    refine Or.inr ⟨e, rfl, ?_⟩
    rcases h.mem_or_lost e he with ⟨e', he', hkept⟩ | hlost
    · refine Or.inl ⟨e', (DataCache.getValue_eq_some_iff hout).mpr ⟨he', ?_⟩, hkept⟩
      rw [DataCacheEntry.folded, hkept.key]
      exact hk
    · cases ho : DataCache.getValue out k with
      | none => exact Or.inr ⟨rfl, hlost⟩
      | some e' =>
        obtain ⟨he', hk'⟩ := (DataCache.getValue_eq_some_iff hout).mp ho
        obtain ⟨a, ha, hkept⟩ := h.mem e' he'
        have hsame : a.folded = e.folded := by
          rw [hk, ← hk', DataCacheEntry.folded, ← hkept.key]
          rfl
        rw [Ascending.eq_of_key_eq hs ha he hsame] at hkept
        exact Or.inl ⟨e', rfl, hkept⟩

variable {major : UInt32} {image bytes : List UInt8} {pos : Nat}

theorem WritesTo.touched (h : WritesTo major image file io pos rest out bytes) :
    Touched file io rest out := by
  induction h with
  | nil pos => exact .stop []
  | skip _ _ ih => exact .keep (Or.inl rfl) ih
  | drop hlost _ ih => exact .drop hlost ih
  | write hp _ _ _ ih => exact .keep (Or.inr ⟨hp, _, rfl⟩) ih

/-- **A row after a pass that succeeded**: what is not persisted is left alone; what is
persisted has its bytes in the file, and knows where if it is not cached. -/
theorem WritesTo.mem (h : WritesTo major image file io pos rest out bytes) :
    ∀ e' ∈ out, ∃ e ∈ rest, (e.has ServiceConfig.persist = false ∧ e' = e) ∨
      e.has ServiceConfig.persist = true ∧ ∃ q data, stored image file e = some data ∧
        data.length = e.value.dataLen ∧ e' = placed (pos + q) e ∧ HasAt bytes q data := by
  induction h with
  | nil pos => simp
  | @skip pos e rest out bytes hp _ ih =>
    intro a ha
    rcases List.mem_cons.mp ha with rfl | ha
    · exact ⟨a, by simp, Or.inl ⟨hp, rfl⟩⟩
    · obtain ⟨b, hb, h⟩ := ih a ha
      exact ⟨b, by simp [hb], h⟩
  | drop _ _ ih =>
    intro a ha
    obtain ⟨b, hb, h⟩ := ih a ha
    exact ⟨b, by simp [hb], h⟩
  | @write pos e rest out data bytes hp hstored hlen _ ih =>
    intro a ha
    rcases List.mem_cons.mp ha with rfl | ha
    · exact ⟨e, by simp, Or.inr ⟨hp, (pairHead major e).length, data, hstored, hlen, rfl,
        hasAt_append _ _ _⟩⟩
    · obtain ⟨b, hb, h⟩ := ih a ha
      refine ⟨b, by simp [hb], h.imp_right fun ⟨hp, q, d, hs, hl, he, hat⟩ =>
        ⟨hp, (pairHead major e ++ data).length + q, d, hs, hl, ?_, ?_⟩⟩
      · rw [he, List.length_append]
        congr 1
        omega
      · exact hat.shift _

end Pass

/-! ## The flush -/

namespace DataVault

/-- The flags a flush leaves. -/
def FlushFlags (v : DataVault δ) (flags : UInt32) : Prop :=
  flags = v.flags ∨ flags = flagsClear v.flags ServiceConfig.compressed

/-- The file is found to have the header that goes with a payload. -/
def SameHeader (env : Env δ) (io : FlushIo) (v : DataVault δ) (payload : List UInt8) : Prop :=
  v.major = 2 ∧ io.readCurrent = true ∧
    v.file.map DvFile.header = some (v.headerFor env payload)

/-- What is on disk after a flush that reports success: a file that has the header is left. -/
def FileAfter (env : Env δ) (io : FlushIo) (v : DataVault δ) (payload : List UInt8)
    (file : Option (DvFile δ)) : Prop :=
  (file = v.file ∧ v.SameHeader env io payload) ∨
    ¬ v.SameHeader env io payload ∧ ((file = v.file ∧ io.renameTemp = false) ∨
      file = if io.renameRollback then some ⟨v.headerFor env payload, payload⟩ else none)

/-- What the rows have become in a flush that reports success. -/
def RowsWritten (io : FlushIo) (v : DataVault δ) (out : DataCache) (payload : List UInt8) :
    Prop :=
  if v.dataclass = payloadClassKeys then
    WritesTo v.major v.image v.file io.pair v.headersize v.cache out payload
  else out = v.cache ∧ payload = []

/-- The vault with its stream open and what a flush has made of the rest. -/
def flushed (v : DataVault δ) (cache : DataCache) (flags : UInt32) (file : Option (DvFile δ)) :
    DataVault δ :=
  { v.openStream with cache := cache, flags := flags, file := file }

/-- How a flush ends. -/
inductive FlushEnds (env : Env δ) (io : FlushIo) (v : DataVault δ) :
    EsifError × DataVault δ → Prop
  /-- The vault is static or read-only: nothing is done. -/
  | refused : FlushEnds env io v (esifEReadonly, v)
  /-- It fails on its way, and the file is the old one. -/
  | failed {rc : EsifError} {out : DataCache} {flags : UInt32} :
    v.isStatic = false → rc ≠ esifOk → Touched v.file io.pair v.cache out →
      v.FlushFlags flags →
      FlushEnds env io v (rc, v.flushed out flags v.file)
  /-- It reports success. -/
  | done {out : DataCache} {flags : UInt32} {payload : List UInt8}
    {file : Option (DvFile δ)} :
    v.isStatic = false → v.openStream.stream.type = .file →
      v.openStream.major = 1 ∨ v.openStream.major = 2 →
      (v.openStream.visitRows io).rc = esifOk ∧ payload = (v.openStream.visitRows io).payload →
      v.openStream.RowsWritten io out payload → v.FlushFlags flags →
      v.openStream.FileAfter env io payload file →
      FlushEnds env io v (esifOk, v.flushed out flags file)

@[simp] theorem openStream_cache (v : DataVault δ) : v.openStream.cache = v.cache := by
  unfold openStream
  split <;> rfl

@[simp] theorem openStream_image (v : DataVault δ) : v.openStream.image = v.image := by
  unfold openStream
  split <;> rfl

@[simp] theorem openStream_file (v : DataVault δ) : v.openStream.file = v.file := by
  unfold openStream
  split <;> rfl

@[simp] theorem openStream_flags (v : DataVault δ) : v.openStream.flags = v.flags := by
  unfold openStream
  split <;> rfl

@[simp] theorem openStream_dataclass (v : DataVault δ) : v.openStream.dataclass = v.dataclass := by
  unfold openStream
  split <;> rfl

theorem flushed_self (v : DataVault δ) : v.flushed v.cache v.flags v.file = v.openStream := by
  unfold flushed openStream
  split <;> rfl

theorem replaceFile_cases (io : FlushIo) (w : DataVault δ) (new : DvFile δ) :
    w.replaceFile io new = (esifEIoDeleteFailed, w) ∨
      ∃ file, w.replaceFile io new = (esifOk, { w with file := file }) ∧
        (file = w.file ∧ io.renameTemp = false ∨
          file = if io.renameRollback then some new else none) := by
  unfold replaceFile
  split
  · split
    · exact Or.inl rfl
    · exact Or.inr ⟨_, rfl, Or.inr rfl⟩
  · rename_i hrename
    exact Or.inr ⟨w.file, rfl, Or.inl ⟨rfl, by simpa using hrename⟩⟩

/-- What a pass over the rows leaves, in any case and after a success. -/
theorem visitRows_spec (io : FlushIo) {v : DataVault δ} (hs : DataCache.Sorted v.cache) :
    Touched v.file io.pair v.cache (v.visitRows io).cache ∧ ((v.visitRows io).rc = esifOk →
        v.RowsWritten io (v.visitRows io).cache (v.visitRows io).payload) := by
  unfold visitRows RowsWritten
  by_cases hkeys : v.dataclass = payloadClassKeys
  · simp only [if_pos hkeys]
    exact writePairs_spec v.major v.headersize v.image v.file io.pair hs
  · simp only [if_neg hkeys]
    exact ⟨.stop v.cache, fun _ => ⟨trivial, trivial⟩⟩

theorem withRows_eq (v : DataVault δ) (cache : DataCache) :
    ∃ flags, v.FlushFlags flags ∧ v.withRows cache = { v with cache := cache, flags := flags } := by
  unfold withRows FlushFlags
  split
  · exact ⟨_, Or.inr rfl, rfl⟩
  · exact ⟨_, Or.inl rfl, rfl⟩

/-- **How a flush can end.** -/
theorem repoFlush_ends [DecidableEq δ] (env : Env δ) (io : FlushIo) {v : DataVault δ}
    (hs : DataCache.Sorted v.cache) : FlushEnds env io v (v.repoFlush env io) := by
  unfold repoFlush
  split
  · exact .refused
  rename_i hnot
  have hstatic : v.isStatic = false := by
    rw [flagsTest_or, not_or, Bool.or_eq_true, not_or] at hnot
    exact Bool.eq_false_iff.mpr hnot.1.1
  have hfail : ∀ rc, rc ≠ esifOk → FlushEnds env io v (rc, v.openStream) := by
    intro rc hrc
    have h := @FlushEnds.failed _ env io v rc v.cache v.flags hstatic hrc (.stop v.cache)
      (Or.inl rfl)
    rwa [flushed_self] at h
  obtain ⟨htouched, hwritten⟩ := @visitRows_spec _ io v.openStream (by rwa [openStream_cache])
  obtain ⟨flags, hflags, hrows⟩ := v.openStream.withRows_eq (v.openStream.visitRows io).cache
  have hend : ∀ file, { v.openStream.withRows (v.openStream.visitRows io).cache with
      file := file } = v.flushed (v.openStream.visitRows io).cache flags file := by
    intro file
    rw [hrows]
    rfl
  have hsame : v.openStream.withRows (v.openStream.visitRows io).cache =
      v.flushed (v.openStream.visitRows io).cache flags v.file := by
    rw [hrows, flushed]
    congr 1
    exact openStream_file v
  rw [openStream_file, openStream_cache] at htouched
  rw [FlushFlags, openStream_flags] at hflags
  have hfailed : ∀ rc, rc ≠ esifOk → FlushEnds env io v
      (rc, v.openStream.withRows (v.openStream.visitRows io).cache) := by
    intro rc hrc
    rw [hsame]
    exact .failed hstatic hrc htouched hflags
  simp only
  split
  · exact hfail _ (by decide)
  rename_i hfile
  split
  · exact hfail _ (by decide)
  rename_i hmajor
  split
  · exact hfail _ (by decide)
  split
  · exact hfail _ (by decide)
  split
  · exact hfail _ (by decide)
  unfold writeTemp
  simp only
  split
  · rename_i hrc
    exact hfailed _ hrc
  rename_i hrc
  have hdone : ∀ file, v.openStream.FileAfter env io (v.openStream.visitRows io).payload file →
      FlushEnds env io v (esifOk, v.flushed (v.openStream.visitRows io).cache flags file) := by
    intro file hafter
    have hrc := Decidable.not_not.mp hrc
    refine .done hstatic (Decidable.not_not.mp hfile) ?_ ⟨hrc, rfl⟩ (hwritten hrc) hflags hafter
    by_contra hne
    exact hmajor (not_or.mp hne)
  split
  · exact hfailed _ (by decide)
  split
  · rename_i hheader
    rw [hsame]
    exact hdone _ (Or.inl ⟨v.openStream_file.symm, hheader⟩)
  · rename_i hheader
    rcases replaceFile_cases io (v.openStream.withRows (v.openStream.visitRows io).cache)
      ⟨v.openStream.headerFor env (v.openStream.visitRows io).payload,
        (v.openStream.visitRows io).payload⟩ with h | ⟨file, h, hfile⟩
    · rw [h]
      exact hfailed _ (by decide)
    · rw [h, hend]
      refine hdone file (Or.inr ⟨hheader, hfile.imp_left fun ⟨hf, hr⟩ => ⟨?_, hr⟩⟩)
      rw [hf, hrows]

end DataVault

/-- A vault that is flushed stays sorted. -/
theorem DataVault.FlushEnds.sorted {env : Env δ} {io : FlushIo} {v : DataVault δ}
    {r : EsifError × DataVault δ} (h : FlushEnds env io v r) (hs : DataCache.Sorted v.cache) :
    DataCache.Sorted r.2.cache := by
  cases h with
  | refused => exact hs
  | failed _ _ ht _ => exact ht.sorted hs
  | done _ _ _ _ hrows _ _ =>
    unfold RowsWritten at hrows
    rw [openStream_cache] at hrows
    split at hrows
    · exact hrows.touched.sorted hs
    · rw [hrows.1]
      exact hs

/-! ## Deleting by a pattern -/

/-- The flag of a row that was deleted goes to the flags of the call. -/
def addPersist (pattern : CName) (flags : UInt32) (e : DataCacheEntry) : UInt32 :=
  if e.key.matchesPattern pattern then flagsSet flags (e.flags &&& ServiceConfig.persist)
  else flags

/-- The loop from some row on. -/
theorem deleteLoop_spec (pattern : CName) (rest : DataCache) :
    ∀ (before : DataCache) (flags : UInt32), DataCache.Sorted (before ++ rest) →
      deleteLoop pattern rest.length before.length (before ++ rest) flags =
        (before ++ rest.filter fun e => !e.key.matchesPattern pattern,
          rest.foldl (addPersist pattern) flags) := by
  induction rest with
  | nil =>
    intro before flags _
    simp [deleteLoop]
  | cons e rest ih =>
    intro before flags hs
    have hget : (before ++ e :: rest)[before.length]? = some e := by simp
    simp only [List.length_cons, deleteLoop, hget, List.foldl_cons, addPersist]
    by_cases hm : e.key.matchesPattern pattern = true
    · have hfound : (DataCache.getValue (before ++ e :: rest) e.key).isSome = true := by
        rw [(DataCache.getValue_eq_some_iff hs).mpr ⟨by simp, rfl⟩]
        rfl
      have herase : DataCache.deleteValue (before ++ e :: rest) e.key = before ++ rest :=
        eraseKey_append_cons hs
      have hs' : DataCache.Sorted (before ++ rest) := hs.sublist (by simp)
      rw [if_pos hm, if_pos hfound, herase, if_pos hm, List.filter_cons_of_neg (by simp [hm])]
      exact ih before _ hs'
    · have hnext : before ++ e :: rest = (before ++ [e]) ++ rest := by simp
      have hlen : before.length + 1 = (before ++ [e]).length := by simp
      rw [if_neg hm, if_neg hm, hlen, hnext, ih (before ++ [e]) flags (by rwa [← hnext]),
        List.filter_cons_of_pos (by simp [hm]), List.append_assoc]
      rfl

/-- **Deleting by a pattern** leaves the rows the pattern does not match. -/
theorem deleteMatching_spec {cache : DataCache} (hs : DataCache.Sorted cache)
    (pattern : CName) (flags : UInt32) :
    deleteMatching pattern cache flags = (cache.filter fun e => !e.key.matchesPattern pattern,
        cache.foldl (addPersist pattern) flags) :=
  deleteLoop_spec pattern cache [] flags hs

/-! ## The change -/

/-- The state at the `exit:` label, with what is known of the call that led there. -/
inductive Changed (env : Env δ) (io : SetIo) (v : DataVault δ) (c : SetCall) : Change → Prop
  | unchanged {rc : EsifError} :
    (rc = esifOk → io.insertValue = true → v.Idle env io c) →
      Changed env io v c (v.unchanged rc c.flags)
  | deleted {key : CName} {e : DataCacheEntry} :
    v.plan env io c = .delete key e → Planned env io v c (.delete key e) →
      Changed env io v c
        ⟨esifOk, flagsSet c.flags e.flags, DataCache.deleteValue v.cache key, v.image, []⟩
  | deletedMatching {pattern : CName} :
    v.plan env io c = .deleteMatching pattern → Planned env io v c (.deleteMatching pattern) →
      Changed env io v c
        ⟨esifOk, v.cache.foldl (addPersist pattern) c.flags,
          v.cache.filter fun e => !e.key.matchesPattern pattern, v.image, []⟩
  | updated {key : CName} {e : DataCacheEntry} {d : SetData} {value : CacheData} :
    v.plan env io c = .update key e d → Planned env io v c (.update key e d) →
      resize io d e.value = some value →
      Changed env io v c
        ⟨esifOk, flagsSet c.flags (e.flags &&& ServiceConfig.persist),
          DataCache.modifyValue v.cache key (updated d c.flags (ownBuffer io d e value)),
          copyToImage v.image d.bytes (ownBuffer io d e value).bufPtr,
          [⟨(ownBuffer io d e value).bufPtr.room, d.dataLen.toNat⟩]⟩
  | added {key : CName} {d : SetData} :
    v.plan env io c = .add key d → Planned env io v c (.add key d) →
      io.cloneValue = true → io.insertValue = true →
      Changed env io v c
        ⟨esifOk, c.flags,
          DataCache.insertValue v.image v.cache key (clonedValue d) (itemFlags c.flags), v.image,
          [⟨(DataCache.cloneCacheData v.image (clonedValue d)).bufPtr.room, d.dataLen.toNat⟩]⟩

/-- **What a call makes of the cache** before it flushes. -/
theorem change_changed (env : Env δ) (io : SetIo) {v : DataVault δ}
    (hs : DataCache.Sorted v.cache) (c : SetCall) : Changed env io v c (v.change env io c) := by
  have hplanned := DataVault.plan_planned env io v c
  unfold DataVault.change
  cases hp : v.plan env io c with
  | stop rc =>
    rw [hp] at hplanned
    cases hplanned with
    | stop hidle => exact .unchanged fun hrc _ => hidle hrc
  | delete key e =>
    rw [hp] at hplanned
    exact .deleted hp hplanned
  | deleteMatching pattern =>
    rw [hp] at hplanned
    simp only [DataVault.carryOut, deleteMatching_spec hs]
    exact .deletedMatching hp hplanned
  | update key e d =>
    rw [hp] at hplanned
    simp only [DataVault.carryOut]
    cases hr : resize io d e.value with
    | none => exact .unchanged fun h => absurd h (by decide)
    | some value => exact .updated hp hplanned hr
  | add key d =>
    rw [hp] at hplanned
    simp only [DataVault.carryOut]
    by_cases hclone : io.cloneValue = true
    · by_cases hinsert : io.insertValue = true
      · simp only [if_pos hclone, if_pos hinsert]
        exact .added hp hplanned hclone hinsert
      · simp only [if_pos hclone, if_neg hinsert]
        exact .unchanged fun _ h => absurd h hinsert
    · simp only [if_neg hclone]
      exact .unchanged fun h => absurd h (by decide)

@[simp] theorem updated_key (d : SetData) (flags : UInt32) (value : CacheData)
    (e : DataCacheEntry) : (updated d flags value e).key = e.key := rfl

/-- A call leaves the cache sorted. -/
theorem Changed.sorted {env : Env δ} {io : SetIo} {v : DataVault δ} {c : SetCall} {ch : Change}
    (h : Changed env io v c ch) (hs : DataCache.Sorted v.cache) : DataCache.Sorted ch.cache := by
  cases h with
  | unchanged _ => exact hs
  | deleted _ _ => exact hs.deleteValue _
  | deletedMatching _ _ => exact hs.sublist List.filter_sublist
  | updated _ _ _ => exact hs.modifyValue _ (updated_key _ _ _)
  | added _ hplanned _ _ =>
    cases hplanned with
    | add _ _ _ _ _ _ hnew => exact hs.insertValue hnew _ _ _

/-! ## The whole call -/

namespace DataVault

/-- How a call ends behind the `exit:` label. -/
inductive Finished (env : Env δ) (io : FlushIo) (v : DataVault δ) (ch : Change) :
    EsifError × DataVault δ → Prop
  /-- No flush. -/
  | kept : ch.rc ≠ esifOk ∨ flagsTest ch.flags ServiceConfig.persist = false →
    Finished env io v ch (ch.rc, v.withChange ch)
  /-- A flush that is put off. -/
  | delayed : ch.rc = esifOk → flagsTest ch.flags ServiceConfig.persist = true →
    flagsTest ch.flags ServiceConfig.delaywrite = true →
    Finished env io v ch (esifOk, (v.withChange ch).restore v)
  | flushed {w : DataVault δ} : ch.rc = esifOk →
    flagsTest ch.flags ServiceConfig.persist = true →
    flagsTest ch.flags ServiceConfig.delaywrite = false →
    FlushEnds env io (v.withChange ch) (esifOk, w) → Finished env io v ch (esifOk, w)
  | failed {rc : EsifError} {w : DataVault δ} : ch.rc = esifOk →
    flagsTest ch.flags ServiceConfig.persist = true →
    flagsTest ch.flags ServiceConfig.delaywrite = false → rc ≠ esifOk →
    FlushEnds env io (v.withChange ch) (rc, w) → Finished env io v ch (rc, w.restore v)

theorem finish_finished [DecidableEq δ] (env : Env δ) (io : FlushIo) (v : DataVault δ)
    {ch : Change} (hs : DataCache.Sorted ch.cache) : Finished env io v ch (v.finish env io ch) := by
  have hends := repoFlush_ends env io (show DataCache.Sorted (v.withChange ch).cache from hs)
  unfold finish
  split
  · rename_i h
    split
    · rename_i hdelay
      exact .delayed h.1 h.2 hdelay
    · rename_i hdelay
      have hdelay : flagsTest ch.flags ServiceConfig.delaywrite = false := by simpa using hdelay
      simp only
      split
      · rename_i hrc
        rw [← Prod.mk.eta (p := (v.withChange ch).repoFlush env io), hrc] at hends
        rw [← Prod.mk.eta (p := (v.withChange ch).repoFlush env io), hrc]
        exact .flushed h.1 h.2 hdelay hends
      · rename_i hrc
        exact .failed h.1 h.2 hdelay hrc hends
  · rename_i h
    refine .kept ?_
    rcases not_and_or.mp h with h | h
    · exact Or.inl h
    · exact Or.inr (by simpa using h)

/-- **How a call ends**: it is refused, or it changes the cache and comes to an end. -/
theorem setValue_cases [DecidableEq δ] (env : Env δ) (io : SetIo) {v : DataVault δ}
    (hs : DataCache.Sorted v.cache) (c : SetCall) :
    ((v.setValue env io c).rc ≠ esifOk ∧ (v.setValue env io c).vault = v ∧
      (v.setValue env io c).atExit = v.cache ∧ (v.setValue env io c).copies = [] ∧
      ¬ (v.isReadonly = false ∧ io.cloneOffsets = true)) ∨
    v.isReadonly = false ∧ io.cloneOffsets = true ∧
      (v.setValue env io c).atExit = (v.change env io c).cache ∧
      (v.setValue env io c).copies = (v.change env io c).copies ∧
      Finished env io.flush v (v.change env io c)
        ((v.setValue env io c).rc, (v.setValue env io c).vault) := by
  have hch := change_changed env io hs c
  unfold setValue
  simp only
  split
  · rename_i hro
    exact Or.inl ⟨(by decide : esifEReadonly ≠ esifOk), rfl, rfl, rfl,
      fun h => by simp [h.1] at hro⟩
  rename_i hro
  split
  · rename_i hclone
    exact Or.inr ⟨by simpa using hro, hclone, rfl, rfl,
      finish_finished env io.flush v (hch.sorted hs)⟩
  · rename_i hclone
    exact Or.inl ⟨(by decide : esifENoMemory ≠ esifOk), rfl, rfl, rfl, fun h => hclone h.2⟩

end DataVault

end Vault

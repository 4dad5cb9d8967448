import Dptf.Vault.View

/-!
# A row through a flush

What `DataVault_RepoFlush` and the end of `DataVault_SetValue` leave of a row that the
call did not change: what was shown of it before is shown of it then.
-/

open Lib

namespace Vault

variable {δ : Type}

/-- What was written takes the place of the old file, unless that is found to have the same
header: then it begins with what was written.  The places in it can be sought. -/
structure Settles (env : Env δ) (io : FlushIo) (v : DataVault δ) (payload : List UInt8) :
    Prop where
  renames : ¬ v.SameHeader env io payload → io.renameTemp = true ∧ io.renameRollback = true
  same : v.SameHeader env io payload → ∀ f, v.file = some f → payload <+: f.payload
  small : v.headersize + payload.length ≤ maxOffsetFilestream

/-- A row lasts through a flush: if its value is in the file, it is read there and written to
the new one, and if it is written, the new file takes the place of the old one. -/
structure Lasts (env : Env δ) (io : FlushIo) (v : DataVault δ) (e : DataCacheEntry) : Prop where
  steady : Steady v e
  loadBlock : inFile e = true → ∀ turn, (io.pair turn).loadBlock = true
  settles : e.has ServiceConfig.persist = true → v.dataclass = payloadClassKeys →
    (v.openStream.visitRows io).rc = esifOk →
      Settles env io v.openStream (v.openStream.visitRows io).payload

/-! ## A pass over the rows -/

/-- What lies in the payload is read from behind the header. -/
theorem loadBlock_hasAt {f : DvFile δ} {q : Nat} {data : List UInt8} (h : HasAt f.payload q data)
    (hsmall : f.header.headersize + q ≤ maxOffsetFilestream) :
    DvFile.loadBlock (some f) (f.header.headersize + q) data.length = some data := by
  unfold DvFile.loadBlock
  simp only
  rw [if_neg (by omega)]
  split
  · rename_i hlen
    rw [List.length_eq_zero_iff.mp hlen]
  · rw [if_neg (by omega), Nat.add_sub_cancel_left]
    exact h.readAt

section Pass

variable {major : UInt32} {image : List UInt8} {file : Option (DvFile δ)} {io : Nat → PairIo}
  {pos : Nat} {rest out : DataCache} {bytes : List UInt8}

/-- A row under its key after a pass that succeeded, if its value was not lost. -/
theorem WritesTo.getValue (h : WritesTo major image file io pos rest out bytes)
    (hs : DataCache.Sorted rest) {k : CName} {e : DataCacheEntry}
    (he : DataCache.getValue rest k = some e) (hlost : ¬ Lost file io e) :
    ∃ e', DataCache.getValue out k = some e' ∧ ((e.has ServiceConfig.persist = false ∧ e' = e) ∨
        e.has ServiceConfig.persist = true ∧ ∃ q data, stored image file e = some data ∧
          data.length = e.value.dataLen ∧ e' = placed (pos + q) e ∧ HasAt bytes q data) := by
  rcases h.touched.getValue hs k with ⟨hnone, _⟩ | ⟨a, ha, hend⟩
  · rw [hnone] at he
    cases he
  obtain rfl : a = e := Option.some.inj (ha.symm.trans he)
  rcases hend with ⟨e', he', _⟩ | ⟨_, h⟩
  · refine ⟨e', he', ?_⟩
    have hout := h.touched.sorted hs
    obtain ⟨hmem, hk'⟩ := (DataCache.getValue_eq_some_iff hout).mp he'
    obtain ⟨hmem₀, hk⟩ := (DataCache.getValue_eq_some_iff hs).mp ha
    obtain ⟨b, hb, hwritten⟩ := h.mem e' hmem
    have hkey : e'.folded = b.folded := by
      rcases hwritten with ⟨_, rfl⟩ | ⟨_, q, data, _, _, rfl, _⟩
      · rfl
      · exact congrArg CName.folded (placed_key _ b)
    obtain rfl : b = a := Ascending.eq_of_key_eq hs hb hmem₀ (by rw [← hkey, hk', hk])
    exact hwritten
  · exact absurd h hlost

end Pass

/-! ## The file -/

namespace DataVault

theorem isStatic_congr {flags : UInt32} {v : DataVault δ} (h : v.FlushFlags flags) :
    flagsTest flags ServiceConfig.static = v.isStatic := by
  rcases h with rfl | rfl
  · rfl
  · exact flagsTest_flagsClear (by decide) _

theorem major_headersize_headerFor (env : Env δ) (v : DataVault δ) (payload : List UInt8) :
    (v.headerFor env payload).headersize = v.headersize := by
  unfold headerFor headersize
  simp only
  split <;> rfl

end DataVault

/-- What a file holds behind its header once a flush is done. -/
structure Holds (headersize : Nat) (payload : List UInt8) (file : Option (DvFile δ)) : Prop where
  isSome : file.isSome = true
  headersize_eq : ∀ f, file = some f → f.header.headersize = headersize
  hasAt : ∀ f, file = some f → ∀ q data, HasAt payload q data → HasAt f.payload q data

/-- **The file a flush leaves** has what was written. -/
theorem Settles.holds {env : Env δ} {io : FlushIo} {v : DataVault δ} {payload : List UInt8}
    {file : Option (DvFile δ)} (h : Settles env io v payload)
    (hafter : v.FileAfter env io payload file) : Holds v.headersize payload file := by
  have hsize := DataVault.major_headersize_headerFor env v payload
  rcases hafter with ⟨rfl, hsame⟩ | ⟨hnot, ⟨_, hfail⟩ | rfl⟩
  · -- the old file is left
    obtain ⟨f, hfile, hheader⟩ := Option.map_eq_some_iff.mp hsame.2.2
    obtain ⟨rest, hrest⟩ := h.same hsame f hfile
    rw [← hheader] at hsize
    refine ⟨by rw [hfile]; rfl, ?_, ?_⟩
    · intro f' hf'
      obtain rfl := Option.some.inj (hfile.symm.trans hf')
      exact hsize
    · intro f' hf' q data hat
      obtain rfl := Option.some.inj (hfile.symm.trans hf')
      rw [← hrest]
      exact hat.extend _
  · rw [(h.renames hnot).1] at hfail
    cases hfail
  · rw [if_pos (h.renames hnot).2]
    refine ⟨rfl, ?_, ?_⟩
    · intro f hf
      cases hf
      exact hsize
    · intro f hf q data hat
      cases hf
      exact hat

/-- A value that was written is read back. -/
theorem Settles.load {env : Env δ} {io : FlushIo} {v : DataVault δ} {payload : List UInt8}
    {file : Option (DvFile δ)} {q : Nat} {data : List UInt8} (h : Settles env io v payload)
    (hafter : v.FileAfter env io payload file) (hat : HasAt payload q data) :
    DvFile.loadBlock file (v.headersize + q) data.length = some data := by
  obtain ⟨hsome, hsize, hhas⟩ := h.holds hafter
  obtain ⟨f, rfl⟩ := Option.isSome_iff_exists.mp hsome
  have hq := hat.length_le
  have hsmall := h.small
  rw [← hsize f rfl] at hsmall ⊢
  exact loadBlock_hasAt (hhas f rfl q data hat) (by omega)

/-! ## The flush -/

section Flush

variable {env : Env δ} {io : FlushIo} {v w : DataVault δ} {k : CName} {e : DataCacheEntry}

/-- A value that can be read is not lost. -/
theorem Lasts.not_lost (h : Lasts env io v e) : ¬ Lost v.file io.pair e := by
  rintro ⟨hin, _, hlost⟩
  obtain ⟨_, _, bytes, hload, _⟩ := h.steady hin
  rcases hlost with hnone | ⟨turn, hfail⟩
  · rw [hload] at hnone
    cases hnone
  · rw [h.loadBlock hin turn] at hfail
    cases hfail

/-- A value in memory is not lost either. -/
theorem not_lost_of_not_nocache (h : ¬ e.has ServiceConfig.nocache = true)
    (file : Option (DvFile δ)) (io : Nat → PairIo) : ¬ Lost file io e :=
  fun hlost => h (nocache_of_inFile hlost.1)

/-- All that is shown of a row next to its own fields is as it was. -/
structure Untouched (v w : DataVault δ) : Prop where
  isStatic : w.isStatic = v.isStatic
  file : w.file = v.file
  image : w.image = v.image
  dataclass : w.dataclass = v.dataclass
  null : w.stream.type = .null → v.stream.type = .null

/-- **A row after a flush that fails** is one that can be put back. -/
theorem FlushEnds.kept {rc : EsifError} (h : DataVault.FlushEnds env io v (rc, w))
    (hrc : rc ≠ esifOk) (hs : DataCache.Sorted v.cache)
    (he : DataCache.getValue v.cache k = some e) (hlost : ¬ Lost v.file io.pair e) :
    Untouched v w ∧ ∃ e', DataCache.getValue w.cache k = some e' ∧ Kept e e' := by
  cases h with
  | refused => exact ⟨⟨rfl, rfl, rfl, rfl, id⟩, e, he, Or.inl rfl⟩
  | done => exact absurd rfl hrc
  | failed _ _ ht hflags =>
    refine ⟨⟨DataVault.isStatic_congr hflags, rfl, DataVault.openStream_image v,
      DataVault.openStream_dataclass v, ?_⟩, ?_⟩
    · intro hnull
      change v.openStream.stream.type = .null at hnull
      unfold DataVault.openStream at hnull
      split at hnull
      · cases hnull
      · exact hnull
    · rcases ht.getValue hs k with ⟨hnone, _⟩ | ⟨a, ha, hend⟩
      · rw [hnone] at he
        cases he
      obtain rfl : a = e := Option.some.inj (ha.symm.trans he)
      rcases hend with hkept | ⟨_, hgone⟩
      · exact hkept
      · exact absurd hgone hlost

/-- A row that was written to the file is shown like before. -/
theorem view_placed {pos : Nat} {data : List UInt8} (hno : e.has ServiceConfig.nocache = true)
    (hsteady : Steady v e) (hdata : stored v.image v.file e = some data)
    (hstatic : v.isStatic = false) (hstatic' : w.isStatic = false) (hopen : w.stream.type ≠ .null)
    (hload : DvFile.loadBlock w.file pos e.value.dataLen = some data) :
    w.view (placed pos e) = v.view e := by
  obtain ⟨e', he'⟩ : ∃ e', e' = placed pos e := ⟨_, rfl⟩
  have hflags : e'.flags = e.flags := he' ▸ placed_flags pos e
  have hscramble : ∀ bytes, scrambleIf e' bytes = scrambleIf e bytes := by
    intro bytes
    rw [scrambleIf, scrambleIf, DataCacheEntry.has, DataCacheEntry.has, hflags]
  have hno' : e'.has ServiceConfig.nocache = true := by
    rw [DataCacheEntry.has, hflags]
    exact hno
  have hbuf : e'.value.bufLen = 0 := by rw [he', placed, if_pos hno]
  have hin : inFile e' = true := by
    rw [inFile, hno', hbuf]
    rfl
  have hload' : loadValue w.file e' = some data := by
    rw [he', placed, if_pos hno]
    exact hload
  have hcontent' : w.content e' = some (scrambleIf e data) := by
    rw [DataVault.content, if_pos ⟨hin, hopen⟩, hload', Option.map_some, hscramble]
  have hcontent : v.content e = some (scrambleIf e data) := by
    unfold stored at hdata
    split at hdata
    · rename_i hinFile
      obtain ⟨_, _, bytes, hbytes, hcontent⟩ := hsteady hinFile
      obtain rfl := Option.some.inj (hbytes.symm.trans hdata)
      exact hcontent
    · rename_i hinFile
      cases hdata
      rw [DataVault.content, if_neg fun h => hinFile h.1, scrambleIf_scrambleIf]
  rw [← he']
  unfold DataVault.view
  rw [hstatic, hstatic', hcontent, hcontent', hflags, he', placed_type, placed_dataLen]
  rfl

/-- **A row after a flush that succeeds** is shown as it was. -/
theorem FlushEnds.view (h : DataVault.FlushEnds env io v (esifOk, w))
    (hs : DataCache.Sorted v.cache) (he : DataCache.getValue v.cache k = some e)
    (hno : e.has ServiceConfig.nocache = true → Lasts env io v e) : w.isStatic = v.isStatic ∧
      ∃ e', DataCache.getValue w.cache k = some e' ∧ w.view e' = v.view e := by
  generalize hr : (esifOk, w) = r at h
  cases h with
  | refused => exact absurd (Prod.mk.inj hr).1 (by decide)
  | failed _ hrc => exact absurd (Prod.mk.inj hr).1.symm hrc
  | @done out flags payload file hstatic hopen _ hpass hrows hflags hafter =>
    obtain ⟨-, rfl⟩ := Prod.mk.inj hr
    have hstatic' := DataVault.isStatic_congr hflags
    -- a row that was left alone
    have hsame : inFile e = false → DataCache.getValue out k = some e →
        ∃ e', DataCache.getValue out k = some e' ∧
          (v.flushed out flags file).view e' = v.view e := by
      intro hin hget
      refine ⟨e, hget, view_congr hstatic' ?_ ?_⟩
      · rw [show (v.flushed out flags file).image = v.image from DataVault.openStream_image v]
      · intro h
        rw [hin] at h
        cases h
    refine ⟨hstatic', ?_⟩
    unfold DataVault.RowsWritten at hrows
    by_cases hnocache : e.has ServiceConfig.nocache = true
    · have hlasts := hno hnocache
      split at hrows
      · -- the rows were written
        rename_i hkeys
        rw [DataVault.openStream_dataclass] at hkeys
        have hlost := hlasts.not_lost
        rw [← DataVault.openStream_file] at hlost
        rw [← DataVault.openStream_cache] at hs he
        obtain ⟨e', hget, ⟨hpersist, rfl⟩ | ⟨hpersist, q, data, hdata, hlen, rfl, hat⟩⟩ :=
          hrows.getValue hs he hlost
        · refine hsame ?_ hget
          by_contra hin
          rw [(hlasts.steady (by simpa using hin)).1] at hpersist
          cases hpersist
        · have hload := (hlasts.settles hpersist hkeys hpass.1).load (hpass.2 ▸ hafter) (hpass.2 ▸ hat)
          rw [hlen] at hload
          rw [DataVault.openStream_image, DataVault.openStream_file] at hdata
          have hnull : (v.flushed out flags file).stream.type ≠ .null := by
            rw [show (v.flushed out flags file).stream = v.openStream.stream from rfl, hopen]
            decide
          exact ⟨_, hget, view_placed hnocache hlasts.steady hdata hstatic
            (hstatic'.trans hstatic) hnull hload⟩
      · -- there are no rows in the file
        rename_i hkeys
        rw [DataVault.openStream_dataclass] at hkeys
        obtain ⟨rfl, rfl⟩ := hrows
        refine hsame ?_ (by rwa [DataVault.openStream_cache])
        by_contra hin
        exact hkeys (hlasts.steady (by simpa using hin)).2.1
    · have hin : inFile e = false := by
        by_contra hin
        exact hnocache (nocache_of_inFile (by simpa using hin))
      refine hsame hin ?_
      have hlost := not_lost_of_not_nocache hnocache v.openStream.file io.pair
      rw [← DataVault.openStream_cache] at hs he
      split at hrows
      · rcases hrows.touched.getValue hs k with ⟨hnone, _⟩ | ⟨a, ha, hend⟩
        · rw [hnone] at he
          cases he
        obtain rfl : a = e := Option.some.inj (ha.symm.trans he)
        rcases hend with ⟨e', hget, hkept⟩ | ⟨_, hgone⟩
        · rwa [hkept.eq_of_not_nocache (by simpa using hnocache)] at hget
        · exact absurd hgone hlost
      · rw [hrows.1]
        exact he

end Flush

/-! ## The end of a call -/

/-- The call comes to a flush. -/
def Change.Flushes (ch : Change) : Prop :=
  ch.rc = esifOk ∧ flagsTest ch.flags ServiceConfig.persist = true ∧
    flagsTest ch.flags ServiceConfig.delaywrite = false

section Call

variable {env : Env δ} {io : FlushIo} {v w : DataVault δ} {ch : Change}
  {r : EsifError × DataVault δ} {k : CName} {e e' : DataCacheEntry}

/-- A flush puts nothing under a key that has no row. -/
theorem FlushEnds.getValue_none (h : DataVault.FlushEnds env io v r)
    (hs : DataCache.Sorted v.cache) (hnone : DataCache.getValue v.cache k = none) :
    DataCache.getValue r.2.cache k = none := by
  have htouched : ∀ out, Touched v.file io.pair v.cache out → DataCache.getValue out k = none := by
    intro out ht
    rcases ht.getValue hs k with ⟨_, hgone⟩ | ⟨e, he, _⟩
    · exact hgone
    · rw [hnone] at he
      cases he
  cases h with
  | refused => exact hnone
  | failed _ _ ht _ => exact htouched _ ht
  | done _ _ _ _ hrows _ _ =>
    unfold DataVault.RowsWritten at hrows
    rw [DataVault.openStream_cache, DataVault.openStream_file] at hrows
    split at hrows
    · exact htouched _ hrows.touched
    · rw [hrows.1]
      exact hnone

/-- Neither does the end of a call. -/
theorem Finished.getValue_none (h : DataVault.Finished env io v ch r)
    (hs : DataCache.Sorted v.cache) (hs' : DataCache.Sorted ch.cache)
    (hnone : DataCache.getValue v.cache k = none) (hnone' : DataCache.getValue ch.cache k = none) :
    DataCache.getValue r.2.cache k = none := by
  have hrestore : ∀ w : DataVault δ, DataCache.Sorted w.cache →
      DataCache.getValue w.cache k = none → DataCache.getValue (w.restore v).cache k = none := by
    intro w hw hgone
    unfold DataVault.restore
    rw [DataCache.getValue_restoreOffsets hw hs, hnone]
    exact hgone
  cases h with
  | kept _ => exact hnone'
  | delayed _ _ _ => exact hrestore _ hs' hnone'
  | flushed _ _ _ hends => exact FlushEnds.getValue_none hends hs' hnone'
  | failed _ _ _ _ hends =>
    exact hrestore _ (hends.sorted hs') (FlushEnds.getValue_none hends hs' hnone')

/-- **A row that a call leaves alone** is shown after the call as it was, whatever the call
comes to behind its `exit:` label. -/
theorem Finished.view (h : DataVault.Finished env io v ch r) (hs : DataCache.Sorted v.cache)
    (hs' : DataCache.Sorted ch.cache) (howned : Owned (· ≤ ·) e)
    (he : DataCache.getValue v.cache k = some e) (he' : DataCache.getValue ch.cache k = some e)
    (hread : e.value.bufPtr.read ch.image e.value.dataLen =
      e.value.bufPtr.read v.image e.value.dataLen)
    (hno : ch.Flushes → e.has ServiceConfig.nocache = true → Lasts env io (v.withChange ch) e) :
    r.2.isStatic = v.isStatic ∧ ∃ e', DataCache.getValue r.2.cache k = some e' ∧
      r.2.view e' = v.view e := by
  have hview : (v.withChange ch).view e = v.view e :=
    view_congr rfl hread fun _ => ⟨rfl, id, Or.inl⟩
  cases h with
  | kept _ => exact ⟨rfl, e, he', hview⟩
  | delayed _ _ _ => exact ⟨rfl, view_restore howned hs hs' he he' (Or.inl rfl) hview⟩
  | flushed hok hpersist hdelay hends =>
    obtain ⟨hstatic, e', hget, hshown⟩ :=
      FlushEnds.view hends hs' he' (hno ⟨hok, hpersist, hdelay⟩)
    exact ⟨hstatic, e', hget, hshown.trans hview⟩
  | @failed rc w hok hpersist hdelay hrc hends =>
    have hlasts := hno ⟨hok, hpersist, hdelay⟩
    have hlost : ¬ Lost (v.withChange ch).file io.pair e := by
      by_cases h : e.has ServiceConfig.nocache = true
      · exact (hlasts h).not_lost
      · exact not_lost_of_not_nocache h _ _
    obtain ⟨hsame, e', hget, hkept⟩ := FlushEnds.kept hends hrc hs' he' hlost
    have hview' : w.view e = (v.withChange ch).view e :=
      view_congr hsame.isStatic (by rw [hsame.image]) fun hin =>
        ⟨hsame.file, hsame.null, fun _ => Or.inr (hlasts (nocache_of_inFile hin)).steady⟩
    exact ⟨hsame.isStatic,
      view_restore howned hs (hends.sorted hs') he hget hkept (hview'.trans hview)⟩

end Call

end Vault

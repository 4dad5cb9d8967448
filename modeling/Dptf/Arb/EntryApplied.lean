import Dptf.Arb.EntryOrder
import Mathlib.Data.List.Nodup

/-!
# The last request queued is the limited winner

What an entry applies is what it put on the primitive queue last.  Queueing is
decided by comparing data pointers, so the argument is about addresses: those of
the list are distinct, and a new clone has an address of its own, hence an equal
pointer means the same request.

* `appliesWinner_iff` — **in every reachable state the winner is applied exactly when
  its clamp is not truncated**, and the limits are in order.
-/

open Lib

namespace Arb

variable {self : EsifArbEntry} {bytes : List UInt8} {s : EntryState} {queued : List EsifArbPrimReq}

/-! ## The requests an operation queues -/

/-- The last item that is not a dummy. -/
def lastQueued (queued : List EsifArbPrimReq) : Option EsifArbPrimReq :=
  (queued.filter fun req => !req.isDummyRequest).getLast?

theorem lastQueued_append_queuePrimitiveRequest (queued : List EsifArbPrimReq)
    (participantId : EsifHandle) (primitiveId : EsifPrimitiveType) (domain : UInt16) (inst : UInt8)
    (requestPtr : Option EsifData) (rsp event status : Option Nat) (requiresDelay : Bool) :
    lastQueued (queued ++ queuePrimitiveRequest participantId primitiveId domain inst requestPtr
        rsp event status requiresDelay) =
      some (EsifArbPrimReq.create participantId primitiveId domain inst requestPtr rsp event status
        requiresDelay) := by
  have hdummy : ∀ req : EsifArbPrimReq,
      req.dummy?.toList.filter (fun r => !r.isDummyRequest) = [] := by
    intro req
    unfold EsifArbPrimReq.dummy?
    split <;> simp
  have hreal : (EsifArbPrimReq.create participantId primitiveId domain inst requestPtr rsp event
      status requiresDelay).isDummyRequest = false := rfl
  simp [lastQueued, queuePrimitiveRequest, List.filter_append, hdummy, hreal]

/-- The data the code queues for a request: limited, and cloned once more. -/
def EsifArbEntry.queuedData (self : EsifArbEntry) (data : EsifData) : EsifData :=
  ((self.createLimitedData data).getD data).clone

/-- `req` is the entry's primitive with `data`. -/
structure Carries (entry : EsifArbEntry) (req : EsifArbPrimReq) (data : EsifData) : Prop where
  participantId : req.participantId = entry.participantId
  primitiveId : req.primitiveId = entry.primitiveId
  domain : req.domain = entry.domain
  inst : req.inst = entry.inst
  reqDataPtr : req.reqDataPtr = some data

/-- The last request queued carries what the code makes of the head. -/
def Applied (self : EsifArbEntry) (queued : List EsifArbPrimReq) : Prop :=
  ∀ head ∈ self.arbRequests.head?, ∃ req, lastQueued queued = some req ∧
    Carries self req (self.queuedData head.reqPtr.data)

theorem applied_of_nil (h : self.arbRequests = []) : Applied self queued := by
  intro head hhead
  simp [h] at hhead

/-- Queueing the head applies it. -/
theorem applied_queueLimitedPrimitiveRequest (self : EsifArbEntry) (queued : List EsifArbPrimReq)
    (requiresDelay : Bool) :
    Applied self (queued ++
      (self.queueLimitedPrimitiveRequest self.getArbitratedRequestData requiresDelay).2) := by
  intro head hhead
  have hcur : self.getArbitratedRequestData = some head.reqPtr := by
    simp [EsifArbEntry.getArbitratedRequestData, Option.mem_def.mp hhead]
  rw [hcur]
  exact ⟨_, lastQueued_append_queuePrimitiveRequest .., ⟨rfl, rfl, rfl, rfl, rfl⟩⟩

/-- The queueing rule applies the head, if an unchanged pointer means it is applied already. -/
theorem applied_queueIfChanged {prevArbDataPtr : Option ClonePtr} (rc : EsifError)
    (requiresDelay : Bool) (hsame : ∀ head ∈ self.arbRequests.head?,
      prevArbDataPtr.map ClonePtr.addr = some head.reqPtr.addr → Applied self queued) :
    Applied self (queued ++ (self.queueIfChanged rc prevArbDataPtr requiresDelay).2) := by
  unfold EsifArbEntry.queueIfChanged
  simp only
  split
  · exact applied_queueLimitedPrimitiveRequest self queued requiresDelay
  · rename_i hchanged
    intro head hhead
    have hcur : self.getArbitratedRequestData = some head.reqPtr := by
      simp [EsifArbEntry.getArbitratedRequestData, Option.mem_def.mp hhead]
    have hprev : prevArbDataPtr.map ClonePtr.addr = some head.reqPtr.addr := by
      simpa [hcur, eq_comm] using hchanged
    rw [List.append_nil]
    exact hsame head hhead hprev head hhead

/-! ## Every operation keeps the head applied -/

/-- The address of a request's data. -/
def EsifArbReq.addr (req : EsifArbReq) : Nat := req.reqPtr.addr

/-- What holds of an entry at all times. -/
structure EntryInv (s : EntryState) : Prop where
  limits : s.entry.lowerLimit ≤ s.entry.upperLimit
  nodupApp : (s.entry.arbRequests.map EsifArbReq.appHandle).Nodup
  nodupAddr : (s.entry.arbRequests.map EsifArbReq.addr).Nodup
  applied : Applied s.entry s.queued

/-- Requests of one list at one address are one request. -/
theorem eq_of_addr_eq {list : List EsifArbReq} (h : (list.map EsifArbReq.addr).Nodup)
    {r r' : EsifArbReq} (hr : r ∈ list) (hr' : r' ∈ list) (haddr : r.addr = r'.addr) : r = r' :=
  List.inj_on_of_nodup_map h hr hr' haddr

/-- If the new head has the old head's pointer and was in the old list, it is the old head. -/
theorem EntryInv.applied_of_same_addr (h : EntryInv s)
    (hcfg : self.limitedValue = s.entry.limitedValue ∧ self.participantId = s.entry.participantId ∧
      self.primitiveId = s.entry.primitiveId ∧ self.domain = s.entry.domain ∧
      self.inst = s.entry.inst) (hold : ∀ head ∈ self.arbRequests.head?,
      s.entry.getArbitratedRequestData.map ClonePtr.addr = some head.reqPtr.addr →
        head ∈ s.entry.arbRequests) :
    ∀ head ∈ self.arbRequests.head?,
      s.entry.getArbitratedRequestData.map ClonePtr.addr = some head.reqPtr.addr →
        Applied self s.queued := by
  intro head hhead haddr head' hhead'
  obtain rfl : head = head' := Option.some.inj (hhead.symm.trans hhead')
  have hmem := hold head hhead haddr
  cases hlist : s.entry.arbRequests with
  | nil => simp [hlist] at hmem
  | cons first rest =>
    have hfirst : first.addr = head.addr := by
      simpa [EsifArbEntry.getArbitratedRequestData, hlist, EsifArbReq.addr] using haddr
    obtain rfl : first = head := eq_of_addr_eq h.nodupAddr (by simp [hlist]) hmem hfirst
    obtain ⟨req, hlast, hcarries⟩ := h.applied first (by simp [hlist])
    refine ⟨req, hlast, ?_⟩
    obtain ⟨hlim, hpart, hprim, hdom, hinst⟩ := hcfg
    have hdata : self.queuedData first.reqPtr.data = s.entry.queuedData first.reqPtr.data := by
      simp [EsifArbEntry.queuedData, EsifArbEntry.createLimitedData, hlim]
    exact ⟨hcarries.participantId.trans hpart.symm, hcarries.primitiveId.trans hprim.symm,
      hcarries.domain.trans hdom.symm, hcarries.inst.trans hinst.symm,
      hdata ▸ hcarries.reqDataPtr⟩

theorem arbitrateRequest_perm (new : EsifArbReq)
    (hnodup : (self.arbRequests.map EsifArbReq.appHandle).Nodup) :
    (self.arbitrateRequest new).arbRequests.Perm
      (new :: othersThan new.appHandle self.arbRequests) := by
  rw [EsifArbEntry.arbitrateRequest, arbitrate_eq_insertLast new hnodup]
  exact insertLast_perm new _

theorem rearbitrateRequests_perm (self : EsifArbEntry)
    (hnodup : (self.arbRequests.map EsifArbReq.appHandle).Nodup) :
    self.rearbitrateRequests.arbRequests.Perm self.arbRequests := by
  rw [rearbitrateRequests_eq self hnodup]
  exact (isStableSort_foldl_insertLast (arbLe_trans _) (arbLe_total _) _).perm
    (arbLe_trans _) (arbLe_total _)

theorem othersThan_sublist (app : EsifHandle) (list : List EsifArbReq) :
    (othersThan app list).Sublist list := List.filter_sublist

theorem EntryInv.executePrimitive {s : EntryState} (h : EntryInv s) {addr : Nat}
    (app : EsifHandle) (request : EsifData) (hfree : s.entry.IsFree addr) (rc : EsifError) :
    let self' := s.entry.arbitrateRequest (EsifArbReq.create addr app request)
    EntryInv { entry := self'
               queued := s.queued ++
                (self'.queueIfChanged rc s.entry.getArbitratedRequestData true).2 } := by
  set new := EsifArbReq.create addr app request with hnew
  have hperm := arbitrateRequest_perm new h.nodupApp
  have hsub := othersThan_sublist new.appHandle s.entry.arbRequests
  have hfresh : ∀ req ∈ s.entry.arbRequests, req.addr ≠ new.addr := hfree
  refine ⟨h.limits, ?_, ?_, ?_⟩
  · rw [(hperm.map _).nodup_iff, List.map_cons, List.nodup_cons]
    exact ⟨not_mem_othersThan _ _, nodup_othersThan _ h.nodupApp⟩
  · rw [(hperm.map _).nodup_iff, List.map_cons, List.nodup_cons]
    refine ⟨?_, h.nodupAddr.sublist (hsub.map _)⟩
    intro hmem
    obtain ⟨req, hreq, haddr⟩ := List.mem_map.mp hmem
    exact hfresh req (hsub.subset hreq) haddr
  · refine applied_queueIfChanged rc true (h.applied_of_same_addr ⟨rfl, rfl, rfl, rfl, rfl⟩ ?_)
    intro head hhead haddr
    -- the head is the new request or an old one, and the new one has a pointer of its own
    have hmem := hperm.subset (List.mem_of_mem_head? hhead)
    rcases List.mem_cons.mp hmem with rfl | hmem
    · cases hlist : s.entry.arbRequests with
      | nil => simp [EsifArbEntry.getArbitratedRequestData, hlist] at haddr
      | cons first rest =>
        have hfirst : first.addr = new.addr := by
          simpa [EsifArbEntry.getArbitratedRequestData, hlist, EsifArbReq.addr] using haddr
        exact absurd hfirst (hfresh first (by simp [hlist]))
    · exact hsub.subset hmem

theorem EntryInv.removeApp {s : EntryState} (h : EntryInv s) (app : EsifHandle) (rc : EsifError) :
    let self' := { s.entry with arbRequests := othersThan app s.entry.arbRequests }
    EntryInv { entry := self'
               queued := s.queued ++
                (self'.queueIfChanged rc s.entry.getArbitratedRequestData false).2 } := by
  have hsub := othersThan_sublist app s.entry.arbRequests
  refine ⟨h.limits, nodup_othersThan _ h.nodupApp, h.nodupAddr.sublist (hsub.map _), ?_⟩
  refine applied_queueIfChanged rc false (h.applied_of_same_addr ⟨rfl, rfl, rfl, rfl, rfl⟩ ?_)
  exact fun head hhead _ => hsub.subset (List.mem_of_mem_head? hhead)

theorem EntryInv.setArbitrationFunction {s : EntryState} (h : EntryInv s) (arbType : ArbType)
    (rc : EsifError) :
    let self' := (s.entry.withArbType arbType).rearbitrateRequests
    EntryInv { entry := self'
               queued := s.queued ++
                (self'.queueIfChanged rc s.entry.getArbitratedRequestData false).2 } := by
  have hperm := rearbitrateRequests_perm (s.entry.withArbType arbType) h.nodupApp
  have heq := rearbitrateRequests_eq (s.entry.withArbType arbType) h.nodupApp
  refine ⟨?_, (hperm.map _).nodup_iff.mpr h.nodupApp, (hperm.map _).nodup_iff.mpr h.nodupAddr, ?_⟩
  · rw [heq]
    exact h.limits
  · refine applied_queueIfChanged rc false (h.applied_of_same_addr ?_ ?_)
    · rw [heq]
      exact ⟨rfl, rfl, rfl, rfl, rfl⟩
    · exact fun head hhead _ => hperm.subset (List.mem_of_mem_head? hhead)

theorem EntryInv.setLimits {s : EntryState} (h : EntryInv s) {upper lower : UInt32}
    (hle : lower ≤ upper) :
    let self' := { s.entry with upperLimit := upper, lowerLimit := lower }
    EntryInv { entry := self'
               queued := s.queued ++ (self'.queueLimitedPrimitiveRequest
                self'.getArbitratedRequestData false).2 } :=
  ⟨hle, h.nodupApp, h.nodupAddr, applied_queueLimitedPrimitiveRequest _ _ _⟩

/-- An operation that changes neither the entry nor the queue. -/
theorem EntryInv.of_unchanged (h : EntryInv s) {op : EntryOp}
    (hop : s.entry.apply op = (s.entry, [])) :
    EntryInv { entry := (s.entry.apply op).1, queued := s.queued ++ (s.entry.apply op).2 } := by
  rw [hop, List.append_nil]
  exact h

/-- **Every operation keeps the limits in order and the head applied.** -/
theorem entryInv_step (s : EntryState) (op : EntryOp) (s' : EntryState)
    (hstep : entryStep s op = some s') (h : EntryInv s) : EntryInv s' := by
  obtain ⟨hallocates, rfl⟩ := entryStep_eq_some hstep
  cases op with
  | executePrimitive addr app request =>
    by_cases hen : s.entry.arbitrationEnabled
    · cases request with
      | none =>
        exact h.of_unchanged (by simp [EsifArbEntry.apply, EsifArbEntry.executePrimitive, hen])
      | some request =>
        simpa [EsifArbEntry.apply, EsifArbEntry.executePrimitive, hen] using
          h.executePrimitive app request hallocates esifOk
    · exact h.of_unchanged (by simp [EsifArbEntry.apply, EsifArbEntry.executePrimitive, hen])
  | removeApp app => exact h.removeApp app esifOk
  | setArbitrationFunction arbType =>
    by_cases hfunc : (getArbitrationFunction arbType).isSome
    · simpa [EsifArbEntry.apply, EsifArbEntry.setArbitrationFunction, hfunc] using
        h.setArbitrationFunction arbType esifOk
    · exact h.of_unchanged
        (by simp [EsifArbEntry.apply, EsifArbEntry.setArbitrationFunction, hfunc])
  | setLimits upper lower =>
    by_cases hle : lower.getD s.entry.lowerLimit ≤ upper.getD s.entry.upperLimit
    · by_cases hchanged : s.entry.upperLimit ≠ upper.getD s.entry.upperLimit ∨
          s.entry.lowerLimit ≠ lower.getD s.entry.lowerLimit
      · simpa [EsifArbEntry.apply, EsifArbEntry.setLimits, hle, hchanged] using h.setLimits hle
      · exact h.of_unchanged (by simp [EsifArbEntry.apply, EsifArbEntry.setLimits, hle, hchanged])
    · exact h.of_unchanged (by simp [EsifArbEntry.apply, EsifArbEntry.setLimits, hle])
  | setArbitrationState isEnabled =>
    cases isEnabled with
    | true =>
      refine ⟨h.limits, h.nodupApp, h.nodupAddr, ?_⟩
      rw [show (s.entry.apply (.setArbitrationState true)).2 = [] from rfl, List.append_nil]
      intro head hhead
      obtain ⟨req, hlast, hcarries⟩ := h.applied head hhead
      exact ⟨req, hlast, ⟨hcarries.1, hcarries.2, hcarries.3, hcarries.4, hcarries.5⟩⟩
    | false =>
      exact ⟨h.limits, List.nodup_nil, List.nodup_nil, applied_of_nil rfl⟩
  | purgeRequests => exact ⟨h.limits, List.nodup_nil, List.nodup_nil, applied_of_nil rfl⟩

/-! ## What should be applied -/

/-- `v` clamped into `[lower, upper]`. -/
def clampUInt32 (lower upper v : UInt32) : UInt32 := max lower (min v upper)

/-- The data with its first `UInt32` clamped; data shorter than that as it is. -/
def limitedData (lower upper : UInt32) (data : EsifData) : EsifData :=
  if 4 ≤ data.dataLen then
    { data with
      bufPtr := data.bufPtr.map fun bytes =>
        writeUInt32 bytes (clampUInt32 lower upper (readUInt32 bytes)) }
  else data

/-- The last request queued is the entry's primitive with the limited data of the head. -/
def AppliesWinner (s : EntryState) : Prop :=
  ∀ head ∈ s.entry.arbRequests.head?, ∃ req, lastQueued s.queued = some req ∧
    Carries s.entry req
      (limitedData s.entry.lowerLimit s.entry.upperLimit head.reqPtr.data)

/-- Data of fewer than four bytes in a buffer of at least four, of which clamping the
buffer's `UInt32` changes a byte. -/
def ClampTruncates (lower upper : UInt32) (data : EsifData) : Prop :=
  data.dataLen < 4 ∧ 4 ≤ data.bufLen ∧ ∃ bytes, data.bufPtr = some bytes ∧
    (clampUInt32 lower upper (readUInt32 bytes)).toNat % 256 ^ data.dataLen.toNat ≠
      (readUInt32 bytes).toNat % 256 ^ data.dataLen.toNat

/-! ## When the code applies what it should -/

theorem limitedValue_eq_clamp (h : self.lowerLimit ≤ self.upperLimit) (v : UInt32) :
    self.limitedValue v = clampUInt32 self.lowerLimit self.upperLimit v := by
  rw [UInt32.le_iff_toNat_le] at h
  apply UInt32.toNat_inj.mp
  simp only [EsifArbEntry.limitedValue, clampUInt32, UInt32.toNat_min, UInt32.toNat_max]
  omega

theorem readUInt32_toNat (h : 4 ≤ bytes.length) :
    (readUInt32 bytes).toNat = leDec bytes % 256 ^ 4 := by
  have hlt := leDec_lt (bytes.take 4)
  rw [List.length_take_of_le h] at hlt
  rw [readUInt32, UInt32.toNat_ofNat', leDec_take h]
  rw [leDec_take h] at hlt
  exact Nat.mod_eq_of_lt (by simpa using hlt)

theorem writeUInt32_readUInt32 (h : 4 ≤ bytes.length) :
    writeUInt32 bytes (readUInt32 bytes) = bytes := by
  have htake : leEnc 4 (leDec (bytes.take 4)) = bytes.take 4 := by
    conv_rhs => rw [← leEnc_leDec (bytes.take 4), List.length_take_of_le h]
  rw [writeUInt32, readUInt32_toNat h, ← leDec_take h, htake, List.take_append_drop]

theorem length_writeUInt32 (h : 4 ≤ bytes.length) (v : UInt32) :
    (writeUInt32 bytes v).length = bytes.length := by
  simp only [writeUInt32, List.length_append, length_leEnc, List.length_drop]
  omega

/-- Behind its first four bytes a patched buffer is as it was. -/
theorem drop_writeUInt32 {k : Nat} (hk : 4 ≤ k) (v : UInt32) :
    (writeUInt32 bytes v).drop k = bytes.drop k := by
  have hhead : (leEnc 4 v.toNat).drop k = [] := List.drop_eq_nil_of_le (by simpa using hk)
  rw [writeUInt32, List.drop_append, hhead, length_leEnc, List.nil_append, List.drop_drop]
  congr 1
  omega

/-- Up to its first four bytes a patched buffer is the value written. -/
theorem take_writeUInt32 {k : Nat} (hk : k ≤ 4) (v : UInt32) :
    (writeUInt32 bytes v).take k = leEnc k v.toNat := by
  rw [writeUInt32, List.take_append_of_le_length (by simpa using hk), take_leEnc hk]

section Winner

variable {self : EsifArbEntry} {data : EsifData}
variable {bytes : List UInt8} {lower upper : UInt32}

/-- Where the code leaves the data alone it queues the data itself. -/
theorem queuedData_of_unlimited (hclone : data.IsClone) (h : self.createLimitedData data = none) :
    self.queuedData data = data := by
  rw [EsifArbEntry.queuedData, h, Option.getD_none, hclone.clone_eq]

/-- Where it does not, it queues the clone of the patched data. -/
theorem queuedData_of_limited (hclone : data.IsClone) (hbuf : data.bufPtr = some bytes)
    (hlen : 4 ≤ data.bufLen) (hne : readUInt32 bytes ≠ self.limitedValue (readUInt32 bytes)) :
    self.queuedData data =
      { data with
        bufPtr := some (writeUInt32 bytes (self.limitedValue (readUInt32 bytes))) }.clone := by
  have hval : uint32? data = some (readUInt32 bytes) := by simp [uint32?, hbuf, hlen]
  simp [EsifArbEntry.queuedData, EsifArbEntry.createLimitedData, hval, hne, hclone.clone_eq, hbuf]

/-- The capacity of a clone is the larger length. -/
theorem cloneLen_of_isClone (hclone : data.IsClone) (hbuf : data.bufPtr ≠ none) :
    data.cloneLen = data.bufLen := by
  apply UInt32.toNat_inj.mp
  have := hclone.dataLen_le hbuf
  simp only [EsifData.cloneLen, UInt32.toNat_max]
  omega

/-- Patching a clone whose data holds the whole value leaves a clone. -/
theorem isClone_patched (hclone : data.IsClone) (hbuf : data.bufPtr = some bytes)
    (hlen : 4 ≤ bytes.length) (hdata : 4 ≤ data.dataLen.toNat) (v : UInt32) :
    EsifData.IsClone { data with bufPtr := some (writeUInt32 bytes v) } where
  length_eq := by
    rintro _ ⟨⟩
    rw [length_writeUInt32 hlen]
    exact hclone.length_eq bytes hbuf
  dataLen_le := fun _ => hclone.dataLen_le (by simp [hbuf])
  bufLen_ne := fun _ => hclone.bufLen_ne (by simp [hbuf])
  drop_eq := by
    rintro _ ⟨⟩
    rw [drop_writeUInt32 hdata]
    exact hclone.drop_eq bytes hbuf

/-- Cloning a patched clone whose data is shorter than the value keeps only the bytes of
the value that belong to the data. -/
theorem clone_patched_of_short (hclone : data.IsClone) (hbuf : data.bufPtr = some bytes)
    (hdata : data.dataLen.toNat < 4) (v : UInt32) :
    EsifData.clone { data with bufPtr := some (writeUInt32 bytes v) } =
      { data with
        bufPtr := some (leEnc data.dataLen.toNat v.toNat ++ bytes.drop data.dataLen.toNat) } := by
  have hsome : data.bufPtr ≠ none := by simp [hbuf]
  have hmax : EsifData.cloneLen { data with bufPtr := some (writeUInt32 bytes v) } =
      data.bufLen := by
    show data.cloneLen = data.bufLen
    exact cloneLen_of_isClone hclone hsome
  have hdrop := hclone.drop_eq bytes hbuf
  simp only [EsifData.clone, hmax, hclone.bufLen_ne hsome, if_false, EsifData.cloneBytes,
    take_writeUInt32 (Nat.le_of_lt hdata), length_leEnc, hdrop]

/-- The low bytes of two values agree exactly when the patched data does. -/
theorem patched_eq_iff (hbuf : data.bufPtr = some bytes) (hlen : 4 ≤ bytes.length)
    (hdata : data.dataLen.toNat < 4) (v : UInt32) : ({ data with
        bufPtr := some (leEnc data.dataLen.toNat v.toNat ++ bytes.drop data.dataLen.toNat) } :
        EsifData) = data ↔
      v.toNat % 256 ^ data.dataLen.toNat = (readUInt32 bytes).toNat % 256 ^ data.dataLen.toNat := by
  set k := data.dataLen.toNat with hk
  have hread : (readUInt32 bytes).toNat % 256 ^ k = leDec (bytes.take k) := by
    rw [readUInt32_toNat hlen, Nat.mod_mod_of_dvd _ (Nat.pow_dvd_pow 256 (by omega : k ≤ 4)),
      leDec_take (by omega : k ≤ bytes.length)]
  rw [hread, ← leDec_leEnc]
  constructor
  · intro h
    have hbytes : leEnc k v.toNat ++ bytes.drop k = bytes := by
      have := congrArg EsifData.bufPtr h
      simpa [hbuf] using this
    rw [← hbytes, List.take_left' (length_leEnc k _)]
  · intro h
    have htake : leEnc k v.toNat = bytes.take k := by
      refine eq_of_leDec_eq ?_ h
      rw [length_leEnc, List.length_take_of_le (by omega)]
    rw [htake, List.take_append_drop, ← hbuf]

/-! The four cases of `queuedData_eq_limitedData_iff`: no value in the data, a value within
the limits, and a limited value in data that holds it or is shorter. -/

theorem queuedData_eq_limitedData_of_no_value (self : EsifArbEntry) (hclone : data.IsClone)
    (hval : uint32? data = none) :
    self.queuedData data = limitedData lower upper data ∧ ¬ClampTruncates lower upper data := by
  have hunlimited : self.createLimitedData data = none := by
    simp [EsifArbEntry.createLimitedData, hval]
  rw [queuedData_of_unlimited hclone hunlimited]
  cases hbuf : data.bufPtr with
  | none =>
    have hspec : limitedData lower upper data = data := by
      rw [limitedData, hbuf, Option.map_none, ← hbuf, ite_self]
    simp [hspec, ClampTruncates, hbuf]
  | some bytes =>
    have hcap : ¬4 ≤ data.bufLen := by
      intro hcap
      simp [uint32?, hbuf, hcap] at hval
    have hdata := hclone.dataLen_le (by simp [hbuf])
    have hspec : limitedData lower upper data = data := by
      rw [limitedData, if_neg]
      rw [UInt32.le_iff_toNat_le] at hcap ⊢
      omega
    simp [hspec, ClampTruncates, hcap]

theorem queuedData_eq_limitedData_of_within (hclone : data.IsClone)
    (hbuf : data.bufPtr = some bytes) (hcap : 4 ≤ data.bufLen) (hlen : 4 ≤ bytes.length)
    (hlim : self.limitedValue (readUInt32 bytes) = readUInt32 bytes)
    (hclamp : clampUInt32 lower upper (readUInt32 bytes) = readUInt32 bytes) :
    self.queuedData data = limitedData lower upper data ∧ ¬ClampTruncates lower upper data := by
  have hunlimited : self.createLimitedData data = none := by
    simp [EsifArbEntry.createLimitedData, uint32?, hbuf, hcap, hlim]
  have hspec : limitedData lower upper data = data := by
    unfold limitedData
    split
    · rw [hbuf, Option.map_some, hclamp, writeUInt32_readUInt32 hlen, ← hbuf]
    · rfl
  refine ⟨by rw [queuedData_of_unlimited hclone hunlimited, hspec], ?_⟩
  rintro ⟨-, -, b, hb, hne⟩
  obtain rfl : bytes = b := by simpa [hbuf] using hb
  exact hne (by rw [hclamp])

theorem queuedData_eq_limitedData_of_long (hclone : data.IsClone) (hbuf : data.bufPtr = some bytes)
    (hcap : 4 ≤ data.bufLen) (hlen : 4 ≤ bytes.length) (hlong : 4 ≤ data.dataLen)
    (hclamp : self.limitedValue (readUInt32 bytes) = clampUInt32 lower upper (readUInt32 bytes))
    (hne : readUInt32 bytes ≠ self.limitedValue (readUInt32 bytes)) :
    self.queuedData data = limitedData lower upper data ∧ ¬ClampTruncates lower upper data := by
  have hlong' : 4 ≤ data.dataLen.toNat := by
    simpa using UInt32.le_iff_toNat_le.mp hlong
  refine ⟨?_, fun h => absurd hlong (UInt32.not_le.mpr h.1)⟩
  rw [queuedData_of_limited hclone hbuf hcap hne,
    (isClone_patched hclone hbuf hlen hlong' _).clone_eq, limitedData, if_pos hlong, hbuf,
    Option.map_some, hclamp]

theorem queuedData_eq_limitedData_iff_of_short (hclone : data.IsClone)
    (hbuf : data.bufPtr = some bytes) (hcap : 4 ≤ data.bufLen) (hlen : 4 ≤ bytes.length)
    (hshort : ¬4 ≤ data.dataLen)
    (hclamp : self.limitedValue (readUInt32 bytes) = clampUInt32 lower upper (readUInt32 bytes))
    (hne : readUInt32 bytes ≠ self.limitedValue (readUInt32 bytes)) :
    self.queuedData data = limitedData lower upper data ↔ ¬ClampTruncates lower upper data := by
  have hshort' : data.dataLen.toNat < 4 := by
    rw [UInt32.le_iff_toNat_le] at hshort
    simpa using hshort
  have hspec : limitedData lower upper data = data := if_neg hshort
  rw [queuedData_of_limited hclone hbuf hcap hne, clone_patched_of_short hclone hbuf hshort',
    hspec, patched_eq_iff hbuf hlen hshort', hclamp]
  simp [ClampTruncates, UInt32.not_le.mp hshort, hcap, hbuf]

/-- **What the code queues is what should be applied, unless the clamp is truncated.** -/
theorem queuedData_eq_limitedData_iff (hlimits : self.lowerLimit ≤ self.upperLimit)
    (hclone : data.IsClone) :
    self.queuedData data = limitedData self.lowerLimit self.upperLimit data ↔
      ¬ClampTruncates self.lowerLimit self.upperLimit data := by
  cases hval : uint32? data with
  | none =>
    obtain ⟨heq, htrunc⟩ := queuedData_eq_limitedData_of_no_value self hclone hval
    exact iff_of_true heq htrunc
  | some v =>
    obtain ⟨bytes, hbuf, hread⟩ := Option.bind_eq_some_iff.mp hval
    have hcap : 4 ≤ data.bufLen := by
      by_contra hcap
      simp [hcap] at hread
    have hlen : 4 ≤ bytes.length := by
      rw [hclone.length_eq bytes hbuf]
      simpa using UInt32.le_iff_toNat_le.mp hcap
    have hclamp := limitedValue_eq_clamp hlimits (readUInt32 bytes)
    by_cases hne : readUInt32 bytes = self.limitedValue (readUInt32 bytes)
    · obtain ⟨heq, htrunc⟩ := queuedData_eq_limitedData_of_within hclone hbuf hcap hlen hne.symm
        (hclamp ▸ hne.symm)
      exact iff_of_true heq htrunc
    · by_cases hlong : 4 ≤ data.dataLen
      · obtain ⟨heq, htrunc⟩ :=
          queuedData_eq_limitedData_of_long hclone hbuf hcap hlen hlong hclamp hne
        exact iff_of_true heq htrunc
      · exact queuedData_eq_limitedData_iff_of_short hclone hbuf hcap hlen hlong hclamp hne

end Winner

/-! ## Main result -/

theorem EntryInv.appliesWinner_iff (h : EntryInv s) :
    AppliesWinner s ↔ ∀ head ∈ s.entry.arbRequests.head?,
      ¬ClampTruncates s.entry.lowerLimit s.entry.upperLimit head.reqPtr.data := by
  refine forall₂_congr fun head hhead => ?_
  rw [← queuedData_eq_limitedData_iff h.limits head.reqPtr.isClone]
  obtain ⟨req, hlast, hcarries⟩ := h.applied head hhead
  constructor
  · rintro ⟨req', hlast', hcarries'⟩
    obtain rfl : req = req' := Option.some.inj (hlast.symm.trans hlast')
    exact Option.some.inj (hcarries.reqDataPtr.symm.trans hcarries'.reqDataPtr)
  · intro heq
    exact ⟨req, hlast, heq ▸ hcarries⟩

/-- **In every reachable state of an entry the limits are in order, and the last request
queued carries the limited data of the head exactly when limiting does not truncate it.** -/
theorem lowerLimit_le_upperLimit_and_appliesWinner_iff (params : EsifArbEntryParams)
    (horigin : EntryParamsOrigin params) (participantId : EsifHandle) (ops : List EntryOp)
    (s : EntryState)
    (hrun : run entryStep { entry := EsifArbEntry.create params participantId, queued := [] } ops =
      some s) :
    s.entry.lowerLimit ≤ s.entry.upperLimit ∧
      (AppliesWinner s ↔ ∀ head ∈ s.entry.arbRequests.head?,
        ¬ClampTruncates s.entry.lowerLimit s.entry.upperLimit head.reqPtr.data) := by
  have hinit : EntryInv { entry := EsifArbEntry.create params participantId, queued := [] } :=
    ⟨horigin.lowerLimit_le_upperLimit, List.nodup_nil, List.nodup_nil, applied_of_nil rfl⟩
  have h := run_invariant entryInv_step hrun hinit
  exact ⟨h.limits, h.appliesWinner_iff⟩

/-- The entry that setting the limits of the thermal offset creates. -/
def tccOffsetParams : EsifArbEntryParams :=
  ⟨setTccOffset, esifPrimitiveDomainD0, 255, esifArbitrationInvalid, esifArbLimitMax,
    esifArbLimitMin⟩

/-- That entry, before anything is queued. -/
def tccOffsetState : EntryState where
  entry := EsifArbEntry.create tccOffsetParams 1
  queued := []

/-- A winner that a later limit cuts back. -/
theorem lowerLimit_le_upperLimit_and_appliesWinner_iff_tccOffset :
    ∃ s, run entryStep tccOffsetState
        [.executePrimitive 1 7 (some (uint32Data 20)), .setLimits (some 15) none] = some s ∧
      s.entry.lowerLimit ≤ s.entry.upperLimit ∧ AppliesWinner s := by
  refine ⟨_, rfl, ?_⟩
  obtain ⟨hlimits, happlies⟩ := lowerLimit_le_upperLimit_and_appliesWinner_iff tccOffsetParams
    (.created _ _ _ _) 1 [.executePrimitive 1 7 (some (uint32Data 20)), .setLimits (some 15) none]
    _ rfl
  exact ⟨hlimits, happlies.mpr (by unfold ClampTruncates; decide +kernel)⟩

/-- One byte of data in a buffer of four. -/
def oneByteData : EsifData where
  type := 3
  bufPtr := some [0x10, 0, 0, 0]
  bufLen := 4
  dataLen := 1

/-- With a lower limit of `0x1234` the byte `0x10` is neither limited nor left alone: the
request queued holds the byte `0x34`. -/
theorem not_appliesWinner_oneByteData :
    ∃ s, run entryStep tccOffsetState
        [.setLimits none (some 0x1234), .executePrimitive 1 7 (some oneByteData)] = some s ∧
      ¬AppliesWinner s := by
  refine ⟨_, rfl, fun h => ?_⟩
  obtain ⟨req, hlast, hcarries⟩ := h _ rfl
  have hqueued : req.reqDataPtr = some { oneByteData with bufPtr := some [0x34, 0, 0, 0] } := by
    rw [← Option.some.inj hlast]
    decide +kernel
  have hdata := hcarries.reqDataPtr
  rw [hqueued] at hdata
  exact absurd hdata (by decide +kernel)

end Arb

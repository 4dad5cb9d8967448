import Dptf.Ipc.Server

/-!
# What a handler reads of a received payload

No handler looks at the length of the payload.  Offsets, lengths and `argc` are
taken from the message as they are, so the reads stay inside exactly when the
message is consistent with its own length.

* `esifRequest_inside_iff` — **the reads of `IrpcTransaction_EsifRequest` stay
  inside the payload exactly when** it holds the start of a header and, for a
  session that is known, the function's record and parameters.
* `esifRequest_reads_outside` — a message that claims data it does not carry.
-/

open Lib

namespace Irpc

variable (m : List UInt8)

/-! ## The conditions -/

/-- The header at `q` lies inside, up to the fields that are read, and so does the data it
claims, where that is copied. -/
def DataInBounds (q : Nat) : Prop :=
  q + 12 ≤ m.length ∧
    (peekU32 m (q + 4) = 0 ∨ peekU32 m (q + 4) < peekU32 m (q + 8) ∨
      q + 16 ≤ m.length ∧
        (peekU32 m (q + 8) = 0 ∨
          q + 16 + (peekU32 m (q + 12)).toNat + (peekU32 m (q + 8)).toNat ≤ m.length))

/-- The parameter whose offset lies at `field` is null, or what it points to lies inside. -/
def PtrInBounds (field : Nat) : Prop :=
  peekU32 m field = nullValue ∨ DataInBounds m (field + 4 + (peekU32 m field).toNat)

/-- `n` headers from `q` on, each behind the data the one before claims. -/
def ElementsInBounds : Nat → Nat → Prop
  | 0, _ => True
  | n + 1, q => DataInBounds m q ∧ ElementsInBounds n (q + 16 + (peekU32 m (q + 8)).toNat)

/-- The array whose length and offset lie at `argc` and behind it is not decoded, or all its
elements lie inside. -/
def ArrayInBounds (argc : Nat) : Prop :=
  peekU32 m argc = 0 ∨ maxArray ≤ peekU32 m argc ∨ peekU32 m (argc + 4) = nullValue ∨
    ElementsInBounds m (peekU32 m argc).toNat (argc + 8 + (peekU32 m (argc + 4)).toNat)

/-- The record of the function lies inside, and what its parameters point to. -/
def RecordInBounds (funcId : UInt32) : Prop :=
  if funcId = Func.esifGetConfig then
    58 ≤ m.length ∧ PtrInBounds m 46 ∧ PtrInBounds m 50 ∧ PtrInBounds m 54
  else if funcId = Func.esifSetConfig then
    62 ≤ m.length ∧ PtrInBounds m 46 ∧ PtrInBounds m 50 ∧ PtrInBounds m 54
  else if funcId = Func.esifPrimitive then
    75 ≤ m.length ∧ PtrInBounds m 62 ∧ PtrInBounds m 66
  else if funcId = Func.esifWriteLog then 70 ≤ m.length ∧ PtrInBounds m 62
  else if funcId = Func.esifEventRegister then 66 ≤ m.length ∧ PtrInBounds m 62
  else if funcId = Func.esifEventUnregister then 66 ≤ m.length ∧ PtrInBounds m 62
  else if funcId = Func.esifSendEvent then
    70 ≤ m.length ∧ PtrInBounds m 62 ∧ PtrInBounds m 66
  else if funcId = Func.esifSendCommand then
    58 ≤ m.length ∧ ArrayInBounds m 46 ∧ PtrInBounds m 54
  else True

/-! ## The decoders -/

theorem isSome_deserializeEsifData {q : Nat} (h : q + 12 ≤ m.length) :
    (deserializeEsifData m q (q + 16)).isSome ↔ DataInBounds m q := by
  have hbufLen : readU32 m (q + 4) = some (peekU32 m (q + 4)) := by
    rw [readU32_eq, if_pos (by omega)]
  have hdataLen : readU32 m (q + 8) = some (peekU32 m (q + 8)) := by
    rw [readU32_eq, if_pos (by omega)]
  unfold deserializeEsifData DataInBounds
  rw [hbufLen]
  by_cases hz : peekU32 m (q + 4) = 0
  · simp [hz, h]
  · by_cases hle : peekU32 m (q + 8) ≤ peekU32 m (q + 4)
    · have hlt : ¬ peekU32 m (q + 4) < peekU32 m (q + 8) := UInt32.not_lt.mpr hle
      by_cases hoff : q + 16 ≤ m.length
      · have hoffset : readU32 m (q + 12) = some (peekU32 m (q + 12)) := by
          rw [readU32_eq, if_pos (by omega)]
        have hread : (readAt m (q + 16 + (peekU32 m (q + 12)).toNat)
            (peekU32 m (q + 8)).toNat).isSome ↔ peekU32 m (q + 8) = 0 ∨
              q + 16 + (peekU32 m (q + 12)).toNat + (peekU32 m (q + 8)).toNat ≤ m.length := by
          rw [isSome_readAt, ← UInt32.toNat_inj]
          rfl
        simp [hz, hdataLen, hle, hlt, hoff, hoffset, h, ← hread]
      · have hoffset : readU32 m (q + 12) = none := by
          rw [readU32_eq, if_neg (by omega)]
        simp [hz, hdataLen, hle, hlt, hoff, hoffset]
    · have hlt : peekU32 m (q + 4) < peekU32 m (q + 8) := UInt32.not_le.mp hle
      simp [hz, hdataLen, hle, hlt, h]

theorem isSome_uncastEsifData (q : Nat) :
    (uncastEsifData m q (q + EncodedEsifData.size)).isSome ↔ DataInBounds m q := by
  by_cases h : q + 12 ≤ m.length
  · have htype : readU32 m q = some (peekU32 m q) := by rw [readU32_eq, if_pos (by omega)]
    have hbufLen : readU32 m (q + 4) = some (peekU32 m (q + 4)) := by
      rw [readU32_eq, if_pos (by omega)]
    have hdataLen : readU32 m (q + 8) = some (peekU32 m (q + 8)) := by
      rw [readU32_eq, if_pos (by omega)]
    rw [← isSome_deserializeEsifData m h]
    simp [uncastEsifData, htype, hbufLen, hdataLen, EncodedEsifData.size]
  · have hdataLen : readU32 m (q + 8) = none := by rw [readU32_eq, if_neg (by omega)]
    have hout : ¬ DataInBounds m q := fun hin => h hin.1
    simp [uncastEsifData, hdataLen, hout]

theorem uncastEsifData_dataLen {q from_ : Nat} {d : EsifData}
    (h : uncastEsifData m q from_ = some d) : d.dataLen = peekU32 m (q + 8) := by
  simp only [uncastEsifData, readU32_eq, Option.bind_eq_bind, Option.bind_eq_some_iff] at h
  obtain ⟨type, -, bufLen, -, dataLen, hdataLen, bufPtr, -, hd⟩ := h
  cases hd
  split at hdataLen
  · exact (Option.some.inj hdataLen).symm
  · cases hdataLen

theorem isSome_deserializeEsifDataPtr (into : Option EsifData) (field : Nat) :
    (deserializeEsifDataPtr m into field (field + 4)).isSome ↔
      field + 4 ≤ m.length ∧ PtrInBounds m field := by
  unfold deserializeEsifDataPtr PtrInBounds
  rw [readU32_eq]
  by_cases h : field + 4 ≤ m.length
  · by_cases hnull : peekU32 m field = nullValue
    · simp [h, hnull]
    · have huncast := isSome_uncastEsifData m (field + 4 + (peekU32 m field).toNat)
      simp [h, hnull, ← huncast]
  · simp [h]

theorem isSome_deserializeParam (field : Nat) :
    (deserializeParam m field).isSome ↔ field + 4 ≤ m.length ∧ PtrInBounds m field := by
  rw [deserializeParam, Option.isSome_map, isSome_deserializeEsifDataPtr]

theorem isSome_deserializeElements (n q : Nat) :
    (deserializeElements m n q).isSome ↔ ElementsInBounds m n q := by
  induction n generalizing q with
  | zero => simp [deserializeElements, ElementsInBounds]
  | succ n ih =>
    rw [deserializeElements, Option.bind_eq_bind, ElementsInBounds, ← isSome_uncastEsifData]
    refine isSome_bind_iff fun d hd => ?_
    have hnext := ih (q + 16 + (peekU32 m (q + 8)).toNat)
    rw [← uncastEsifData_dataLen m hd] at hnext ⊢
    rw [← hnext]
    simp [EncodedEsifData.size]

theorem isSome_deserializeEsifDataArray {argc : Nat} (h : argc + 8 ≤ m.length) :
    (deserializeEsifDataArray m (peekU32 m argc) (argc + 4) (argc + 8)).isSome ↔
      ArrayInBounds m argc := by
  have hoffset : readU32 m (argc + 4) = some (peekU32 m (argc + 4)) := by
    rw [readU32_eq, if_pos (by omega)]
  unfold deserializeEsifDataArray ArrayInBounds
  by_cases hlen : peekU32 m argc ≠ 0 ∧ peekU32 m argc < maxArray
  · have hmax : ¬ maxArray ≤ peekU32 m argc := UInt32.not_le.mpr hlen.2
    by_cases hnull : peekU32 m (argc + 4) = nullValue
    · simp [hlen, hoffset, hnull]
    · have helems := isSome_deserializeElements m (peekU32 m argc).toNat
        (argc + 8 + (peekU32 m (argc + 4)).toNat)
      simp [hlen, hmax, hoffset, hnull, ← helems]
  · have hskip : peekU32 m argc = 0 ∨ maxArray ≤ peekU32 m argc := by
      by_cases hz : peekU32 m argc = 0
      · exact Or.inl hz
      · exact Or.inr (UInt32.not_lt.mp fun hlt => hlen ⟨hz, hlt⟩)
    rw [if_neg hlen]
    rcases hskip with hz | hmax
    · simp [hz]
    · simp [hmax]

/-! ## The handlers -/

section Decode

variable (esifHandle : EsifHandle)

theorem isSome_decodeEsifGetConfig : (decodeEsifGetConfig m esifHandle).isSome ↔
    58 ≤ m.length ∧ PtrInBounds m 46 ∧ PtrInBounds m 50 ∧ PtrInBounds m 54 := by
  have hreads : (decodeEsifGetConfig m esifHandle).isSome ↔ (deserializeParam m 46).isSome ∧
      (deserializeParam m 50).isSome ∧ (deserializeParam m 54).isSome := by
    unfold decodeEsifGetConfig
    exact isSome_bind_iff fun _ _ => isSome_bind_iff fun _ _ => by simp
  rw [hreads]
  simp only [isSome_deserializeParam]
  constructor
  · rintro ⟨⟨-, hname⟩, ⟨-, hpath⟩, hlen, hvalue⟩
    exact ⟨hlen, hname, hpath, hvalue⟩
  · rintro ⟨hlen, hname, hpath, hvalue⟩
    exact ⟨⟨by omega, hname⟩, ⟨by omega, hpath⟩, hlen, hvalue⟩

theorem isSome_decodeEsifSetConfig : (decodeEsifSetConfig m esifHandle).isSome ↔
    62 ≤ m.length ∧ PtrInBounds m 46 ∧ PtrInBounds m 50 ∧ PtrInBounds m 54 := by
  have hreads : (decodeEsifSetConfig m esifHandle).isSome ↔ (deserializeParam m 46).isSome ∧
      (deserializeParam m 50).isSome ∧ (deserializeParam m 54).isSome ∧ (readU32 m 58).isSome := by
    unfold decodeEsifSetConfig
    exact isSome_bind_iff fun _ _ => isSome_bind_iff fun _ _ => isSome_bind_iff fun _ _ => by simp
  rw [hreads]
  simp only [isSome_deserializeParam, isSome_readU32]
  constructor
  · rintro ⟨⟨-, hname⟩, ⟨-, hpath⟩, ⟨-, hvalue⟩, hlen⟩
    exact ⟨hlen, hname, hpath, hvalue⟩
  · rintro ⟨hlen, hname, hpath, hvalue⟩
    exact ⟨⟨by omega, hname⟩, ⟨by omega, hpath⟩, ⟨by omega, hvalue⟩, hlen⟩

theorem isSome_decodeEsifPrimitive : (decodeEsifPrimitive m esifHandle).isSome ↔
    75 ≤ m.length ∧ PtrInBounds m 62 ∧ PtrInBounds m 66 := by
  have hreads : (decodeEsifPrimitive m esifHandle).isSome ↔ (deserializeParam m 62).isSome ∧
      (deserializeParam m 66).isSome ∧ (readU64 m 46).isSome ∧ (readU64 m 54).isSome ∧
        (readU32 m 70).isSome ∧ (readU8 m 74).isSome := by
    unfold decodeEsifPrimitive
    exact isSome_bind_iff fun _ _ => isSome_bind_iff fun _ _ => isSome_bind_iff fun _ _ =>
      isSome_bind_iff fun _ _ => isSome_bind_iff fun _ _ => by simp
  rw [hreads]
  simp only [isSome_deserializeParam, isSome_readU64, isSome_readU32, isSome_readU8]
  constructor
  · rintro ⟨⟨-, hrequest⟩, ⟨-, hresponse⟩, -, -, -, hlen⟩
    exact ⟨hlen, hrequest, hresponse⟩
  · rintro ⟨hlen, hrequest, hresponse⟩
    exact ⟨⟨by omega, hrequest⟩, ⟨by omega, hresponse⟩, by omega, by omega, by omega, hlen⟩

theorem isSome_decodeEsifWriteLog : (decodeEsifWriteLog m esifHandle).isSome ↔
    70 ≤ m.length ∧ PtrInBounds m 62 := by
  have hreads : (decodeEsifWriteLog m esifHandle).isSome ↔ (deserializeParam m 62).isSome ∧
      (readU64 m 46).isSome ∧ (readU64 m 54).isSome ∧ (readU32 m 66).isSome := by
    unfold decodeEsifWriteLog
    exact isSome_bind_iff fun _ _ => isSome_bind_iff fun _ _ => isSome_bind_iff fun _ _ => by simp
  rw [hreads]
  simp only [isSome_deserializeParam, isSome_readU64, isSome_readU32]
  constructor
  · rintro ⟨⟨-, hmessage⟩, -, -, hlen⟩
    exact ⟨hlen, hmessage⟩
  · rintro ⟨hlen, hmessage⟩
    exact ⟨⟨by omega, hmessage⟩, by omega, by omega, hlen⟩

theorem isSome_decodeEsifEventAction (funcId : UInt32)
    (call : EsifHandle → EsifHandle → EsifHandle → EsifData → EsifCall) :
    (decodeEsifEventAction m esifHandle funcId call).isSome ↔ 66 ≤ m.length ∧ PtrInBounds m 62 := by
  have hreads : (decodeEsifEventAction m esifHandle funcId call).isSome ↔
      (deserializeParam m 62).isSome ∧ (readU64 m 46).isSome ∧ (readU64 m 54).isSome := by
    unfold decodeEsifEventAction
    exact isSome_bind_iff fun _ _ => isSome_bind_iff fun _ _ => by simp
  rw [hreads]
  simp only [isSome_deserializeParam, isSome_readU64]
  constructor
  · rintro ⟨⟨hlen, hguid⟩, -, -⟩
    exact ⟨hlen, hguid⟩
  · rintro ⟨hlen, hguid⟩
    exact ⟨⟨hlen, hguid⟩, by omega, by omega⟩

theorem isSome_decodeEsifSendEvent : (decodeEsifSendEvent m esifHandle).isSome ↔
    70 ≤ m.length ∧ PtrInBounds m 62 ∧ PtrInBounds m 66 := by
  have hreads : (decodeEsifSendEvent m esifHandle).isSome ↔ (deserializeParam m 62).isSome ∧
      (deserializeParam m 66).isSome ∧ (readU64 m 46).isSome ∧ (readU64 m 54).isSome := by
    unfold decodeEsifSendEvent
    exact isSome_bind_iff fun _ _ => isSome_bind_iff fun _ _ => isSome_bind_iff fun _ _ => by simp
  rw [hreads]
  simp only [isSome_deserializeParam, isSome_readU64]
  constructor
  · rintro ⟨⟨-, hdata⟩, ⟨hlen, hguid⟩, -, -⟩
    exact ⟨hlen, hdata, hguid⟩
  · rintro ⟨hlen, hdata, hguid⟩
    exact ⟨⟨by omega, hdata⟩, ⟨hlen, hguid⟩, by omega, by omega⟩

theorem isSome_decodeEsifSendCommand : (decodeEsifSendCommand m esifHandle).isSome ↔
    58 ≤ m.length ∧ ArrayInBounds m 46 ∧ PtrInBounds m 54 := by
  by_cases hlen : 58 ≤ m.length
  · have hargc : readU32 m 46 = some (peekU32 m 46) := by rw [readU32_eq, if_pos (by omega)]
    have hreads : (decodeEsifSendCommand m esifHandle).isSome ↔
        (deserializeEsifDataArray m (peekU32 m 46) 50 54).isSome ∧
          (deserializeEsifDataPtr m none 54 58).isSome := by
      unfold decodeEsifSendCommand
      simp only [hargc, Option.bind_eq_bind, Option.bind_some]
      refine isSome_bind_iff fun argv _ => ?_
      refine (isSome_bind_iff (P := True) fun response _ => ?_).trans (iff_of_eq (and_true _))
      cases argv <;> cases response <;> simp
    rw [hreads, isSome_deserializeEsifDataArray m (by omega), isSome_deserializeEsifDataPtr]
    simp [hlen]
  · constructor
    · intro h
      -- the offset of the response is read whatever the array was
      unfold decodeEsifSendCommand at h
      simp only [Option.bind_eq_bind, Option.isSome_bind, Option.any_eq_true] at h
      obtain ⟨argc, -, argv, -, response, hresponse, -⟩ := h
      have hsome := (isSome_deserializeEsifDataPtr m none 54).mp (by rw [hresponse]; rfl)
      exact absurd hsome.1 hlen
    · exact fun h => absurd h.1 hlen

end Decode

section Respond

variable {srv : Server} {trx : IrpcTransaction} {request : IBinary}

/-- Two chains over the same conditions are compared one condition after the other. -/
theorem isSome_ite_iff {c : Prop} [Decidable c] {x y : Option α} {q p r : Prop}
    (hpos : c → (x.isSome ↔ q ∨ p)) (hneg : ¬c → (y.isSome ↔ q ∨ r)) :
    (if c then x else y).isSome ↔ q ∨ if c then p else r := by
  by_cases hc : c
  · rw [if_pos hc, if_pos hc]
    exact hpos hc
  · rw [if_neg hc, if_neg hc]
    exact hneg hc

/-- A handler reads the function id and, for a known session, what its decoder reads. -/
theorem isSome_respond {funcId : UInt32} {decode : List UInt8 → EsifHandle → Option (Option Decoded)}
    (hreq : trx.request = some request) (hlen : 10 ≤ request.contents.length)
    (hid : peekU32 request.contents funcIdAt = funcId) {P : Prop}
    (hdec : (decode request.contents (srv.getEsifHandleByHandle trx.ipfHandle)).isSome ↔ P)
    (hrec : P → 46 ≤ request.contents.length) : (respond srv trx funcId decode).isSome ↔
      srv.getEsifHandleByHandle trx.ipfHandle = esifInvalidHandle ∨ P := by
  have hbuf : request.hasBuf = true := by
    have hle := request.dataLen_le
    rw [IBinary.length_contents, IBinary.getLen] at hlen
    have hne : request.buf ≠ [] := by
      intro hnil
      rw [hnil, List.length_nil] at hle
      omega
    simpa [IBinary.hasBuf] using hne
  have hread : readU32 request.contents funcIdAt = some funcId := by
    rw [readU32_eq, if_pos (by simpa [funcIdAt] using hlen), hid]
  unfold respond
  rw [hreq]
  by_cases hsession : srv.getEsifHandleByHandle trx.ipfHandle = esifInvalidHandle
  · simp [hsession]
  · simp only [hsession, hbuf, hread, Bool.true_eq_false, or_self, if_false, Option.bind_eq_bind,
      Option.bind_some, ne_eq, not_true_eq_false, false_or]
    rw [← hdec]
    refine (isSome_bind_iff (P := True) fun decoded hdecoded => ?_).trans (iff_of_eq (and_true _))
    have h46 : 46 ≤ request.contents.length := hrec (hdec.mp (by rw [hdecoded]; rfl))
    have htrxId : readU64 request.contents trxIdAt = some (peekU64 request.contents trxIdAt) := by
      rw [readU64_eq, if_pos (by simp only [trxIdAt]; omega)]
    have hhandle : readU64 request.contents esifHandleAt =
        some (peekU64 request.contents esifHandleAt) := by
      rw [readU64_eq, if_pos (by simp only [esifHandleAt]; omega)]
    cases decoded with
    | none => simp
    | some d =>
      simp only [htrxId, hhandle, Option.bind_some, iff_true]
      split <;> rfl

/-- **Which requests are read inside their payload.**  Of a payload too short for the function id
even that is read outside; otherwise a session without a native handle ends the request, and for
every other the record of the function and all its parameters must lie inside. -/
theorem esifRequest_inside_iff (srv : Server) (trx : IrpcTransaction) (request : IBinary) :
    (esifRequest srv { trx with request := some request, response := none }).isSome ↔
      10 ≤ request.contents.length ∧
        (srv.getEsifHandleByHandle trx.ipfHandle = esifInvalidHandle ∨
          RecordInBounds request.contents (peekU32 request.contents funcIdAt)) := by
  let received : IrpcTransaction := { trx with request := some request, response := none }
  let handle := srv.getEsifHandleByHandle trx.ipfHandle
  generalize hm : request.contents = m
  by_cases hlen : 10 ≤ m.length
  · have hread : readU32 m funcIdAt = some (peekU32 m funcIdAt) := by
      rw [readU32_eq, if_pos (show funcIdAt + 4 ≤ m.length from hlen)]
    have hdispatch : (esifRequest srv received).isSome ↔
        (dispatch srv { received with result := esifEInvalidHandle } (peekU32 m funcIdAt)).isSome
        := by
      simp only [esifRequest, received, hm, hread]
      simp
    have hreq : ({ received with result := esifEInvalidHandle } : IrpcTransaction).request =
        some request := rfl
    subst hm
    rw [hdispatch, dispatch, RecordInBounds]
    simp only [hlen, true_and]
    refine isSome_ite_iff (fun hid => isSome_respond hreq hlen hid
      (isSome_decodeEsifGetConfig _ handle) fun h => by omega) fun _ => ?_
    refine isSome_ite_iff (fun hid => isSome_respond hreq hlen hid
      (isSome_decodeEsifSetConfig _ handle) fun h => by omega) fun _ => ?_
    refine isSome_ite_iff (fun hid => isSome_respond hreq hlen hid
      (isSome_decodeEsifPrimitive _ handle) fun h => by omega) fun _ => ?_
    refine isSome_ite_iff (fun hid => isSome_respond hreq hlen hid
      (isSome_decodeEsifWriteLog _ handle) fun h => by omega) fun _ => ?_
    refine isSome_ite_iff (fun hid => isSome_respond hreq hlen hid
      (isSome_decodeEsifEventAction _ handle _ _) fun h => by omega) fun _ => ?_
    refine isSome_ite_iff (fun hid => isSome_respond hreq hlen hid
      (isSome_decodeEsifEventAction _ handle _ _) fun h => by omega) fun _ => ?_
    refine isSome_ite_iff (fun hid => isSome_respond hreq hlen hid
      (isSome_decodeEsifSendEvent _ handle) fun h => by omega) fun _ => ?_
    refine isSome_ite_iff (fun hid => isSome_respond hreq hlen hid
      (isSome_decodeEsifSendCommand _ handle) fun h => by omega) fun _ => ?_
    simp
  · have hread : readU32 m funcIdAt = none := by
      rw [readU32_eq, if_neg (show ¬ funcIdAt + 4 ≤ m.length from hlen)]
    refine iff_of_false ?_ fun h => hlen h.1
    simp [esifRequest, hm, hread]

end Respond

/-! ## A message that claims too much -/

/-- An `EsifGetConfig` request whose value claims sixteen bytes of data and ends there. -/
def overclaiming : List UInt8 :=
  pack (esifHdr .procRequest Func.esifGetConfig ⟨7, 1, ⟨0, 0⟩, none, none, 0⟩ 7 ++
    [.u32 nullValue, .u32 nullValue, .u32 0, .u32 8, .u32 16, .u32 16, .u32 0])

/-- **The handlers read outside of a payload** that claims data it does not carry, and outside of
one that is no message at all. -/
theorem esifRequest_reads_outside :
    (esifRequest ⟨fun h => h, fun _ => ⟨esifOk, .zero⟩⟩
      ⟨7, 0, ⟨0, 0⟩, some (IBinary.create.clone overclaiming), none, esifOk⟩).isNone = true ∧
    (esifRequest ⟨fun h => h, fun _ => ⟨esifOk, .zero⟩⟩
      ⟨7, 0, ⟨0, 0⟩, some (IBinary.create.clone (overclaiming.take 12)), none, esifOk⟩).isNone =
        true := by
  constructor <;> decide +kernel

end Irpc

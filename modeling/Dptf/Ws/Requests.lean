import Dptf.Ws.Reassembly

/-!
# Requests on the wire

The client's stubs put a header before the record that they encode, and `IpcSession_SendMsg`
puts both in one frame.  Of the chunks that it receives, the server makes the records.

* `requests_arrive` — **the requests arrive**, each one whole and in order.
-/

open Lib Irpc

namespace Ws

/-- `ESIFMSG_VERSION`. -/
def esifMsgVersion : UInt32 := 0x01000000

/-- The header that the `Irpc_Request_Esif…` functions insert before a record, and the record. -/
def esifMsg (record : List UInt8) : List UInt8 :=
  leEnc 2 esifMsgSignature.toNat ++ leEnc 2 sizeofEsifMsgHdr ++ leEnc 4 esifMsgVersion.toNat ++
    leEnc 4 esifMsgClassIrpc.toNat ++ leEnc 4 record.length ++ record

/-- A request that a client sends. -/
structure SentRequest where
  maskKey : UInt32
  record : List UInt8
  isRequest : readU32 record 0 = some MsgType.procRequest.code
  fits : (esifMsg record).length ≤ maxWebsocketBuffer.toNat

/-- The frame of a request. -/
def SentRequest.frame (r : SentRequest) : WireFrame :=
  .compact .binary true (some r.maskKey) (esifMsg r.record) (r.fits.trans (by decide))

/-- What `WebServer_IrpcProcess` queues for the RPC thread of what came out, where the bytes
`behind` lie behind the payload. -/
def Output.queued (alloc : Nat → Bool) (receiveRc : EsifError) (behind : List UInt8) :
    Output → Option (List UInt8)
  | .esifMsg payload =>
    let memory := payload ++ behind
    let handled := binaryFrame alloc receiveRc memory payload.length
    match handled.action, handled.clone with
    | some .request, some clone => some (peekAt memory clone.start clone.len)
    | _, _ => none
  | _ => none

section Header

variable {record : List UInt8}

theorem length_esifMsg : (esifMsg record).length = sizeofEsifMsgHdr + record.length := by
  simp [esifMsg, sizeofEsifMsgHdr]
  omega

theorem readEsifMsgHdr_esifMsg (h : record.length < 2 ^ 32) (behind : List UInt8) :
    readEsifMsgHdr (esifMsg record ++ behind) =
      ⟨esifMsgSignature, esifMsgClassIrpc, .ofNat record.length⟩ := by
  have hfixed : leEnc 2 esifMsgSignature.toNat ++ leEnc 2 sizeofEsifMsgHdr ++
      leEnc 4 esifMsgVersion.toNat ++ leEnc 4 esifMsgClassIrpc.toNat =
        [0xE5, 0xD8, 0x10, 0, 0, 0, 0, 1, 0x49, 0x52, 0x50, 0x43] := by decide
  have hlen : leDec (leEnc 4 record.length) = record.length := leDec_leEnc_of_lt h
  have htake : (leEnc 4 record.length ++ (record ++ behind)).take 4 = leEnc 4 record.length :=
    List.take_left' (length_leEnc 4 _)
  unfold esifMsg readEsifMsgHdr peekU32 peekAt
  rw [hfixed, List.append_assoc, List.append_assoc]
  simp [htake, hlen]
  decide

/-- **The record is what is cloned.** -/
theorem queued_esifMsg {alloc : Nat → Bool} (halloc : ∀ n, alloc n = true)
    (hrecord : readU32 record 0 = some MsgType.procRequest.code) (h : record.length < 2 ^ 32)
    (receiveRc : EsifError) (behind : List UInt8) :
    (Output.esifMsg (esifMsg record)).queued alloc receiveRc behind = some record := by
  obtain ⟨h4, hcode⟩ : 0 + 4 ≤ record.length ∧ peekU32 record 0 = MsgType.procRequest.code := by
    rw [readU32, readAt] at hrecord
    split at hrecord
    · rename_i h4
      exact ⟨h4.resolve_left (by decide), Option.some.inj hrecord⟩
    · cases hrecord
  have hbody : peekAt (esifMsg record ++ behind) sizeofEsifMsgHdr record.length = record := by
    rw [peekAt_append_left behind length_esifMsg.ge, esifMsg, peekAt,
      List.drop_left' (by simp [sizeofEsifMsgHdr]), List.take_length]
  have hclones : clones alloc record.length = true := by
    simp [clones, halloc]
    rintro rfl
    simp at h4
  have hnat : (UInt32.ofNat record.length).toNat = record.length := by
    rw [UInt32.toNat_ofNat', Nat.mod_eq_of_lt h]
  have hsize : sizeofEsifMsgHdr ≤ (esifMsg record).length := length_esifMsg ▸ Nat.le_add_right ..
  have hbinary : binaryFrame alloc receiveRc (esifMsg record ++ behind) (esifMsg record).length =
      ⟨receiveRc, some .request, some ⟨sizeofEsifMsgHdr, record.length, (esifMsg record).length⟩,
        [⟨0, 4, record.length⟩]⟩ := by
    unfold binaryFrame
    simp only [readEsifMsgHdr_esifMsg h, hnat, hsize, hclones, hbody, irpcProcess, hcode,
      and_self, if_true]
  unfold Output.queued
  simp only [hbinary, hbody]

theorem SentRequest.length_record_lt (r : SentRequest) : r.record.length < 2 ^ 32 := by
  have hfits := r.fits
  rw [length_esifMsg] at hfits
  exact (Nat.le_of_add_left_le hfits).trans_lt (by decide)

end Header

/-- The server takes the requests one after the other. -/
theorem talk_sent (sent : List SentRequest) (outputs : List Output) :
    run (Talk.receive .ipfSrv) ⟨none, outputs⟩ (sent.map SentRequest.frame) =
      some ⟨none, outputs ++ sent.map fun r => .esifMsg (esifMsg r.record)⟩ := by
  induction sent generalizing outputs with
  | nil => simp
  | cons r sent ih =>
    have hhdr : HasEsifMsgHdr (esifMsg r.record) := by
      have hread := readEsifMsgHdr_esifMsg r.length_record_lt []
      rw [List.append_nil] at hread
      exact ⟨length_esifMsg ▸ Nat.le_add_right .., by rw [hread]⟩
    have hf : Talk.receive .ipfSrv ⟨none, outputs⟩ r.frame =
        some ⟨none, outputs ++ [Output.esifMsg (esifMsg r.record)]⟩ :=
      receive_last (fun _ => rfl) rfl (not_isControl .ipfSrv (.inl rfl)) rfl
        (congrArg some (if_pos hhdr))
    rw [List.map_cons, run_cons, hf, Option.bind_some, ih, List.map_cons, List.append_assoc,
      List.singleton_append]

/-- **The requests arrive.**  A client frames them one by one, and whatever chunks the server
receives the frames in, it queues the records, each one whole and in order. -/
theorem requests_arrive {env : Env} (henv : env.Plenty) (hrest : env.restRc = esifOk)
    {fuel : Nat} (hfuel : maxWebsocketBuffer.toNat ≤ fuel) {alloc : Nat → Bool}
    (halloc : ∀ n, alloc n = true) {sent : List SentRequest} {chunks : List (List UInt8)}
    (hcut : CutOf .ipfSrv (sent.map SentRequest.frame) chunks) (behind : List UInt8) :
    (∀ r ∈ sent, sendMsgFrame r.maskKey (esifMsg r.record) = .ok r.frame.encode) ∧
      ∃ s, run (serve .ipfSrv env fuel) Session.start chunks = some s ∧
        s.outputs.map (Output.queued alloc env.restRc behind) =
          sent.map fun r => some r.record := by
  refine ⟨fun r _ => ?_, ?_⟩
  · refine sendMsgFrame_eq r.maskKey (List.ne_nil_of_length_pos ?_) _
    rw [length_esifMsg, sizeofEsifMsgHdr]
    omega
  · obtain ⟨s, hserve, -, houts⟩ := (serves henv hrest hfuel).run WireFrame.encode_ne_nil
      ⟨Session.waits_start .ipfSrv, rfl⟩ (talk_sent sent []) hcut.flatten_eq hcut.ne_nil
      (hcut.fits _)
    refine ⟨s, hserve, ?_⟩
    rw [houts, List.nil_append, List.map_map]
    exact List.map_congr_left fun r _ =>
      queued_esifMsg halloc r.isRequest r.length_record_lt env.restRc behind

/-- Two requests without parameters. -/
def shortRequests : List SentRequest :=
  [⟨0x01020304, leEnc 4 MsgType.procRequest.code.toNat, by decide, by decide⟩,
    ⟨0x0A0B0C0D, leEnc 4 MsgType.procRequest.code.toNat ++ [7], by decide, by decide⟩]

/-- The first chunk ends within the second frame. -/
def shortChunks : List (List UInt8) :=
  let bytes := (shortRequests.map SentRequest.frame).flatMap WireFrame.encode
  [bytes.take 30, bytes.drop 30]

theorem requests_arrive_short :
    (∀ r ∈ shortRequests, sendMsgFrame r.maskKey (esifMsg r.record) = .ok r.frame.encode) ∧
    ∃ s, run (serve .ipfSrv roomy maxWebsocketBuffer.toNat) Session.start shortChunks = some s ∧
      s.outputs.map (Output.queued (fun _ => true) esifOk []) =
        shortRequests.map fun r => some r.record :=
  requests_arrive roomy_plenty rfl (Nat.le_refl _) (fun _ => rfl)
    (cutOf_of_length_le (by decide) (by decide) (by decide)) []

end Ws

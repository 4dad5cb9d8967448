import Dptf.Ipc.Message
import Dptf.Ws.Receive

/-!
# Messages in binary frames

A binary frame of a client of the framework holds an `EsifMsg`: a header of
sixteen bytes and a body, whose length the header gives.  The server clones the
body and reads the header of the call in it.

* `binaryFrame_inside_iff` — **the clone comes out of the payload and the fields out
  of the clone exactly if** the payload says so.
-/

open Lib Irpc

namespace Ws

/-! ## The header -/

/-- `ESIFMSG_SIGNATURE`. -/
def esifMsgSignature : UInt16 := 0xD8E5

/-- `ESIFMSG_CLASS_IRPC`. -/
def esifMsgClassIrpc : UInt32 := 0x43505249

/-- `sizeof(EsifMsgHdr)`. -/
def sizeofEsifMsgHdr : Nat := 16

/-- The fields of `EsifMsgHdr` that the server looks at. -/
structure EsifMsgHdr where
  signature : UInt16
  msgclass : UInt32
  msglen : UInt32
deriving DecidableEq, Repr

def readEsifMsgHdr (payload : List UInt8) : EsifMsgHdr where
  signature := .ofNat (leDec (peekAt payload 0 2))
  msgclass := peekU32 payload 8
  msglen := peekU32 payload 12

/-- The payload begins with a header. -/
def HasEsifMsgHdr (payload : List UInt8) : Prop :=
  sizeofEsifMsgHdr ≤ payload.length ∧ (readEsifMsgHdr payload).signature = esifMsgSignature

instance (payload : List UInt8) : Decidable (HasEsifMsgHdr payload) :=
  inferInstanceAs (Decidable (_ ∧ _))

/-! ## The body -/

/-- `sizeof(IBinary)`. -/
def sizeofIBinary : Nat := 32

/-- `IBinary_Clone` into a new object finds a buffer: one of the exact size, or else one of the
next multiple that `IBinary_Insert` asks for.  Nothing is cloned of an empty body. -/
def clones (alloc : Nat → Bool) (bytes : Nat) : Bool :=
  alloc sizeofIBinary && bytes != 0 && (alloc bytes || alloc (IBinary.create.growLen bytes))

/-- What is done with a body. -/
inductive IrpcAction
  /-- It is queued for the RPC thread. -/
  | request
  /-- The transaction that waits for it is looked up. -/
  | response (trxId : UInt64)
  /-- Its type is not known. -/
  | invalid
deriving DecidableEq, Repr

/-- `WebServer_IrpcProcess`, with what it reads of a body of `len` bytes. -/
def irpcProcess (body : List UInt8) (len : Nat) : IrpcAction × List Access :=
  let msgtype : Access := ⟨0, 4, len⟩
  let trxId : Access := ⟨trxIdAt, 8, len⟩
  if peekU32 body 0 = MsgType.procRequest.code then (.request, [msgtype])
  else if peekU32 body 0 = MsgType.procResponse.code then
    (.response (peekU64 body trxIdAt), [msgtype, trxId])
  else (.invalid, [msgtype])

/-- What becomes of a binary frame. -/
structure Handled where
  rc : EsifError
  action : Option IrpcAction
  /-- The bytes of the payload that are cloned. -/
  clone : Option Access
  /-- The bytes of the clone that are read. -/
  reads : List Access
deriving DecidableEq, Repr

/-- The `FRAME_BINARY` case of `WebServer_WebsocketResponse`: `memory` is what lies from the
payload on, and `receiveRc` the result of `WebServer_ReceiveRequest`. -/
def binaryFrame (alloc : Nat → Bool) (receiveRc : EsifError) (memory : List UInt8)
    (payloadSize : Nat) : Handled :=
  let hdr := readEsifMsgHdr memory
  if sizeofEsifMsgHdr ≤ payloadSize ∧ hdr.signature = esifMsgSignature then
    if hdr.msgclass = esifMsgClassIrpc then
      let msglen := hdr.msglen.toNat
      if clones alloc msglen then
        let processed := irpcProcess (peekAt memory sizeofEsifMsgHdr msglen) msglen
        let rc :=
          match processed.1 with
          | .request => receiveRc
          | .response _ => esifOk
          | .invalid => esifEInvalidRequestType
        ⟨rc, some processed.1, some ⟨sizeofEsifMsgHdr, msglen, payloadSize⟩, processed.2⟩
      else ⟨esifOk, none, none, []⟩
    else ⟨esifEInvalidRequestType, none, none, []⟩
  else ⟨esifOk, none, none, []⟩

/-! ## Staying inside -/

/-- The clone comes out of the payload, and what is read out of the clone. -/
def Handled.Inside (h : Handled) : Prop :=
  (∀ a ∈ h.clone, a.Inside) ∧ ∀ a ∈ h.reads, a.Inside

/-- A body that is cloned is in the payload, and is long enough for the type of the message and,
in a response, for the identifier of the transaction. -/
def BodyFits (alloc : Nat → Bool) (payload : List UInt8) : Prop :=
  let hdr := readEsifMsgHdr payload
  HasEsifMsgHdr payload → hdr.msgclass = esifMsgClassIrpc → clones alloc hdr.msglen.toNat →
    sizeofEsifMsgHdr + hdr.msglen.toNat ≤ payload.length ∧ 4 ≤ hdr.msglen.toNat ∧
      (peekU32 payload sizeofEsifMsgHdr = MsgType.procResponse.code →
        trxIdAt + 8 ≤ hdr.msglen.toNat)

/-- What lies behind the payload does not matter to what is read of it. -/
theorem peekAt_append_left {payload : List UInt8} (behind : List UInt8) {pos n : Nat}
    (h : pos + n ≤ payload.length) : peekAt (payload ++ behind) pos n = peekAt payload pos n := by
  rw [peekAt, List.drop_append_of_le_length (by omega),
    List.take_append_of_le_length (by rw [List.length_drop]; omega)]
  rfl

theorem readEsifMsgHdr_append {payload : List UInt8} (behind : List UInt8)
    (h : sizeofEsifMsgHdr ≤ payload.length) :
    readEsifMsgHdr (payload ++ behind) = readEsifMsgHdr payload := by
  have hlen : 16 ≤ payload.length := h
  unfold readEsifMsgHdr peekU32
  rw [peekAt_append_left behind (by omega), peekAt_append_left behind (by omega),
    peekAt_append_left behind (by omega)]

/-- The type of the message, read where the body was. -/
theorem peekU32_body {payload behind : List UInt8} {len : Nat} (h4 : 4 ≤ len)
    (h : sizeofEsifMsgHdr + len ≤ payload.length) :
    peekU32 (peekAt (payload ++ behind) sizeofEsifMsgHdr len) 0 =
      peekU32 payload sizeofEsifMsgHdr := by
  rw [peekAt_append_left behind h, peekU32, peekU32]
  simp [peekAt, List.take_take, Nat.min_eq_left h4]

/-- What `WebServer_IrpcProcess` reads is there exactly if the body is long enough. -/
theorem irpcProcess_inside_iff (body : List UInt8) (len : Nat) :
    (∀ a ∈ (irpcProcess body len).2, a.Inside) ↔
      4 ≤ len ∧ (peekU32 body 0 = MsgType.procResponse.code → trxIdAt + 8 ≤ len) := by
  have hne : MsgType.procRequest.code ≠ MsgType.procResponse.code := by decide
  unfold irpcProcess
  simp only
  split
  · rename_i hreq
    simp [Access.Inside, hreq, hne]
  · split
    · rename_i hresp
      simp [Access.Inside, hresp]
    · rename_i hresp
      simp [Access.Inside, hresp]

/-- **The body comes from the frame exactly if** the payload says so. -/
theorem binaryFrame_inside_iff (alloc : Nat → Bool) (receiveRc : EsifError)
    (payload behind : List UInt8) :
    (binaryFrame alloc receiveRc (payload ++ behind) payload.length).Inside ↔
      BodyFits alloc payload := by
  have hnone (rc : EsifError) : (Handled.mk rc none none []).Inside := ⟨by simp, by simp⟩
  unfold binaryFrame BodyFits
  by_cases hsize : sizeofEsifMsgHdr ≤ payload.length
  · simp only [readEsifMsgHdr_append behind hsize]
    by_cases hhdr : HasEsifMsgHdr payload
    · rw [if_pos ⟨hhdr.1, hhdr.2⟩]
      by_cases hclass : (readEsifMsgHdr payload).msgclass = esifMsgClassIrpc
      · rw [if_pos hclass]
        by_cases hclone : clones alloc (readEsifMsgHdr payload).msglen.toNat
        · rw [if_pos hclone]
          simp only [hhdr, hclass, hclone, forall_const]
          unfold Handled.Inside
          rw [irpcProcess_inside_iff]
          constructor
          · rintro ⟨hin, h4, hresp⟩
            have hin : sizeofEsifMsgHdr + (readEsifMsgHdr payload).msglen.toNat ≤ payload.length :=
              hin _ rfl
            rw [peekU32_body h4 hin] at hresp
            exact ⟨hin, h4, hresp⟩
          · rintro ⟨hin, h4, hresp⟩
            rw [peekU32_body h4 hin]
            refine ⟨fun a ha => ?_, h4, hresp⟩
            obtain rfl := Option.some.inj ha
            exact hin
        · rw [if_neg hclone]
          exact iff_of_true (hnone _) fun _ _ h => absurd h hclone
      · rw [if_neg hclass]
        exact iff_of_true (hnone _) fun _ h => absurd h hclass
    · rw [if_neg fun h => hhdr ⟨h.1, h.2⟩]
      exact iff_of_true (hnone _) fun h => absurd h hhdr
  · rw [if_neg fun h => hsize h.1]
    exact iff_of_true (hnone _) fun h => absurd h.1 hsize

/-- A header that announces a byte of which there is none. -/
def overlongMsg : List UInt8 :=
  [0xE5, 0xD8, 0x10, 0x00, 0x00, 0x00, 0x00, 0x01, 0x49, 0x52, 0x50, 0x43, 0x01, 0x00, 0x00, 0x00]

/-- The byte behind the payload is cloned. -/
theorem overlongMsg_outside :
    ¬∀ (alloc : Nat → Bool) (receiveRc : EsifError) (payload behind : List UInt8),
      (binaryFrame alloc receiveRc (payload ++ behind) payload.length).Inside := by
  intro h
  have hin : 16 + 1 ≤ 16 := (h (fun _ => true) esifOk overlongMsg [0]).1 ⟨16, 1, 16⟩ rfl
  omega

end Ws

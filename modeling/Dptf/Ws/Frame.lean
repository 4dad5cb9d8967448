import Dptf.Common.Types
import Dptf.Lib.Bytes

/-!
# WebSocket frames

`Websocket_GetFrame` takes the first frame from the bytes a connection holds: a
header of two bytes, an extended length of two or eight more, a mask key of four,
and the payload.  Lengths are `size_t`, that is 64 bits that wrap around.
-/

open Lib

namespace Ws

variable {bufLen : UInt64} {buffer buffer' : List UInt8} {server : Server}

/-- The two web servers of the repository that receive frames. -/
inductive Server
  /-- The server of the user interface. -/
  | esifWs
  /-- The server of the framework's clients. -/
  | ipfSrv
deriving DecidableEq, Repr

/-! ## The header -/

/-- `WSFRAME_HEADER_TYPE1`, the last payload size that the header bits hold. -/
def wsFrameHeaderType1 : UInt8 := 125

/-- `WSFRAME_HEADER_TYPE2`: the payload size is in two more bytes. -/
def wsFrameHeaderType2 : UInt8 := 126

/-- `WSFRAME_HEADER_TYPE3`: the payload size is in eight more bytes. -/
def wsFrameHeaderType3 : UInt8 := 127

/-- `sizeof(WsFrameHeader)`, that of its longest layout. -/
def sizeofWsFrameHeader : UInt64 := 14

/-- `WsFrameHeader.hdr`. -/
structure WsHdr where
  frameType : UInt8
  fin : UInt8
  payloadSize : UInt8
  maskFlag : UInt8
deriving DecidableEq, Repr

/-- The byte at an offset.  What was not written since the buffer was cleared is 0. -/
def peek (buffer : List UInt8) (i : Nat) : UInt8 := buffer.getD i 0

/-- The `n` bytes from an offset on. -/
def peekN (buffer : List UInt8) (i n : Nat) : List UInt8 :=
  (List.range n).map fun k => peek buffer (i + k)

/-- The bit fields, in the order of a little-endian machine. -/
def readHdr (buffer : List UInt8) : WsHdr where
  frameType := peek buffer 0 &&& 0x0F
  fin := peek buffer 0 >>> 7
  payloadSize := peek buffer 1 &&& 0x7F
  maskFlag := peek buffer 1 >>> 7

/-- `esif_ccb_htons` or `esif_ccb_htonll` of the field at an offset. -/
def readBigEndian (buffer : List UInt8) (i n : Nat) : UInt64 :=
  .ofNat (leDec (peekN buffer i n).reverse)

/-- `header_size`, by the layout. -/
def headerSizeOf (hdr : WsHdr) : UInt64 :=
  if hdr.payloadSize ≤ wsFrameHeaderType1 then
    if hdr.maskFlag ≠ 0 then 6 else 2
  else if hdr.payloadSize = wsFrameHeaderType2 then
    if hdr.maskFlag ≠ 0 then 8 else 4
  else if hdr.payloadSize = wsFrameHeaderType3 then
    if hdr.maskFlag ≠ 0 then 14 else 10
  else 2

/-- The payload size a complete header gives. -/
def payloadSizeOf (buffer : List UInt8) : UInt64 :=
  let hdr := readHdr buffer
  if hdr.payloadSize ≤ wsFrameHeaderType1 then hdr.payloadSize.toUInt64
  else if hdr.payloadSize = wsFrameHeaderType2 then readBigEndian buffer 2 2
  else if hdr.payloadSize = wsFrameHeaderType3 then readBigEndian buffer 2 8
  else 0

/-- The four bytes of `mask_key`, the last of the header. -/
def maskKeyOf (buffer : List UInt8) : List UInt8 :=
  if (readHdr buffer).maskFlag ≠ 0 then
    peekN buffer ((headerSizeOf (readHdr buffer)).toNat - 4) 4
  else [0, 0, 0, 0]

/-! ## The frame -/

/-- `WsFrame`.  Its payload starts `headerSize` bytes into the buffer. -/
structure WsFrame where
  frameType : UInt8
  header : WsHdr
  headerSize : UInt64
  payloadSize : UInt64
  frameSize : UInt64
deriving DecidableEq, Repr

/-- The loop that unmasks `len` bytes from `start` on. -/
def unmask (buffer : List UInt8) (start len : Nat) (maskKey : List UInt8) : List UInt8 :=
  buffer.mapIdx fun i b =>
    if start ≤ i ∧ i < start + len then b ^^^ maskKey.getD ((i - start) % 4) 0 else b

/-- `header_size` and `payload_size` as they stand when the length is verified. -/
def sizes (buffer : List UInt8) (bufLen : UInt64) : UInt64 × UInt64 :=
  if bufLen < 2 then (2, 0)
  else
    let headerSize := headerSizeOf (readHdr buffer)
    (headerSize, if headerSize ≤ bufLen then payloadSizeOf buffer else 0)

/-- A frame the server refuses: only clients of the framework must mask. -/
def refuses (server : Server) (buffer : List UInt8) (bufLen : UInt64) : Bool :=
  server = .ipfSrv && 2 ≤ bufLen && (readHdr buffer).maskFlag = 0

/-- The frame of which the header is complete. -/
def frameOf (buffer : List UInt8) (headerSize payloadSize : UInt64) : WsFrame where
  frameType := (readHdr buffer).frameType
  header := readHdr buffer
  headerSize := headerSize
  payloadSize := payloadSize
  frameSize := headerSize + payloadSize

/-- `buf_len` where the length is verified: without two bytes there are none. -/
def checkedLen (bufLen : UInt64) : UInt64 := if bufLen < 2 then 0 else bufLen

/-- The buffer once a frame's payload is unmasked. -/
def unmasked (buffer : List UInt8) (frame : WsFrame) : List UInt8 :=
  if frame.header.maskFlag ≠ 0 then
    unmask buffer frame.headerSize.toNat frame.payloadSize.toNat (maskKeyOf buffer)
  else buffer

/-- `Websocket_GetFrame`: the frame, and the buffer with its payload unmasked. -/
def getFrame (server : Server) (buffer : List UInt8) (bufLen : UInt64) :
    Except EsifError (WsFrame × List UInt8) :=
  if refuses server buffer bufLen then .error esifEWsSocketError
  else
    let frame := frameOf buffer (sizes buffer bufLen).1 (sizes buffer bufLen).2
    if checkedLen bufLen < frame.frameSize then .error esifEWsIncomplete
    else if sizeofWsFrameHeader < frame.headerSize then .error esifEReqSizeTypeMismatch
    else .ok (frame, unmasked buffer frame)

/-! ## When the lengths fit -/

/-- Header and payload together are a 64-bit number. -/
def LengthFits (buffer : List UInt8) (bufLen : UInt64) : Prop :=
  (sizes buffer bufLen).1.toNat + (sizes buffer bufLen).2.toNat < 2 ^ 64

instance (buffer : List UInt8) (bufLen : UInt64) : Decidable (LengthFits buffer bufLen) :=
  inferInstanceAs (Decidable (_ < _))

theorem checkedLen_le (bufLen : UInt64) : checkedLen bufLen ≤ bufLen := by
  unfold checkedLen
  split
  · exact UInt64.zero_le
  · exact UInt64.le_refl bufLen

theorem headerSizeOf_le (hdr : WsHdr) : (headerSizeOf hdr).toNat ≤ 14 := by
  unfold headerSizeOf
  repeat' split
  all_goals decide

theorem headerSize_le (buffer : List UInt8) (bufLen : UInt64) :
    (sizes buffer bufLen).1.toNat ≤ 14 := by
  unfold sizes
  split
  · decide
  · exact headerSizeOf_le _

/-- A payload size is read only where the header is complete. -/
theorem headerSize_le_of_payloadSize_ne (h : (sizes buffer bufLen).2 ≠ 0) :
    2 ≤ bufLen ∧ (sizes buffer bufLen).1 ≤ bufLen := by
  unfold sizes at h ⊢
  split at h
  · exact absurd rfl h
  · rename_i hlen
    rw [if_neg hlen]
    refine ⟨UInt64.not_lt.mp hlen, ?_⟩
    by_contra hle
    exact h (if_neg hle)

/-- What `getFrame` says of the frame it returns. -/
theorem getFrame_eq_ok {frame : WsFrame} (h : getFrame server buffer bufLen = .ok (frame, buffer'))
    :
    refuses server buffer bufLen = false ∧
      (sizes buffer bufLen).1 + (sizes buffer bufLen).2 ≤ bufLen ∧
      frame = frameOf buffer (sizes buffer bufLen).1 (sizes buffer bufLen).2 := by
  unfold getFrame at h
  split at h
  · cases h
  · rename_i hmask
    simp only at h
    split at h
    · cases h
    · rename_i hlen
      split at h
      · cases h
      · simp only [Except.ok.injEq, Prod.mk.injEq] at h
        refine ⟨by simpa using hmask, ?_, h.1.symm⟩
        exact UInt64.le_trans (UInt64.not_lt.mp hlen) (checkedLen_le bufLen)

/-- **A length that fits keeps the frame inside** the bytes `getFrame` was told of. -/
theorem frame_inside {frame : WsFrame} (h : getFrame server buffer bufLen = .ok (frame, buffer'))
    (hfits : LengthFits buffer bufLen) :
    frame.frameSize.toNat = frame.headerSize.toNat + frame.payloadSize.toNat ∧
      frame.headerSize.toNat + frame.payloadSize.toNat ≤ bufLen.toNat := by
  obtain ⟨-, hle, rfl⟩ := getFrame_eq_ok h
  have hsum : ((sizes buffer bufLen).1 + (sizes buffer bufLen).2).toNat =
      (sizes buffer bufLen).1.toNat + (sizes buffer bufLen).2.toNat := by
    rw [UInt64.toNat_add]
    exact Nat.mod_eq_of_lt hfits
  refine ⟨hsum, ?_⟩
  show (sizes buffer bufLen).1.toNat + (sizes buffer bufLen).2.toNat ≤ bufLen.toNat
  rw [← hsum]
  exact UInt64.le_iff_toNat_le.mp hle

/-- **A length that does not fit is accepted**, however few bytes there are. -/
theorem getFrame_of_not_lengthFits (hmask : refuses server buffer bufLen = false)
    (hfits : ¬ LengthFits buffer bufLen) :
    ∃ frame buffer', getFrame server buffer bufLen = .ok (frame, buffer') ∧
      2 ^ 64 ≤ frame.headerSize.toNat + frame.payloadSize.toNat := by
  have hover : 2 ^ 64 ≤ (sizes buffer bufLen).1.toNat + (sizes buffer bufLen).2.toNat :=
    not_lt.mp hfits
  have hhdr := headerSize_le buffer bufLen
  have hpay := (sizes buffer bufLen).2.toNat_lt
  have hne : (sizes buffer bufLen).2 ≠ 0 := by
    intro h0
    rw [h0] at hover
    simp at hover
    omega
  obtain ⟨h2, hle⟩ := headerSize_le_of_payloadSize_ne hne
  -- The sum comes out below the header size.
  have hsum : (sizes buffer bufLen).1 + (sizes buffer bufLen).2 ≤ (sizes buffer bufLen).1 := by
    rw [UInt64.le_iff_toNat_le, UInt64.toNat_add]
    omega
  have hlen : ¬ checkedLen bufLen < (sizes buffer bufLen).1 + (sizes buffer bufLen).2 := by
    rw [checkedLen, if_neg (UInt64.not_lt.mpr h2)]
    exact UInt64.not_lt.mpr (UInt64.le_trans hsum hle)
  have hsize : ¬ sizeofWsFrameHeader < (sizes buffer bufLen).1 := by
    rw [UInt64.not_lt, UInt64.le_iff_toNat_le]
    exact hhdr
  let frame := frameOf buffer (sizes buffer bufLen).1 (sizes buffer bufLen).2
  refine ⟨frame, unmasked buffer frame, ?_, hover⟩
  unfold getFrame
  rw [hmask, if_neg (by decide)]
  exact (if_neg hlen).trans (if_neg hsize)

/-- A cleared buffer parses as an empty fragment of two bytes. -/
theorem getFrame_nil (h : 2 ≤ bufLen) : getFrame .esifWs [] bufLen = .ok (frameOf [] 2 0, []) := by
  have hlen : ¬ bufLen < 2 := UInt64.not_lt.mpr h
  have hsizes : sizes [] bufLen = (2, 0) := by
    simp only [sizes, if_neg hlen, show headerSizeOf (readHdr []) = 2 by decide,
      show payloadSizeOf [] = 0 by decide, ite_self]
  have hframe : ¬ bufLen < (frameOf [] 2 0).frameSize := hlen
  have hmask : refuses .esifWs [] bufLen = false := by simp [refuses]
  simp only [getFrame, hmask, Bool.false_eq_true, if_false, hsizes, checkedLen, if_neg hlen,
    if_neg hframe]
  decide

end Ws

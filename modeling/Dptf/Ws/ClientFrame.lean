import Dptf.Ws.Wire

/-!
# Frames between the client and the framework's server

The client of the framework builds its frames in `IpcSession_SendMsg` and takes
the server's apart in `esif_ws_get_frame_type`, over unions of its own; the server
has `WebSocket_BuildFrame` and `Websocket_GetFrame`.

* `framing_agrees` — **each end reads what the other writes**.
-/

open Lib

namespace Ws

variable {payload data buffer : List UInt8} {f : WireFrame}

/-! ## Frame types -/

/-- The frame types that go over the wire. -/
inductive Opcode
  | continuation
  | text
  | binary
  | closing
  | ping
  | pong
deriving DecidableEq, Repr

/-- The bits of a frame type. -/
def Opcode.code : Opcode → UInt8
  | continuation => frameContinuation
  | text => frameText
  | binary => frameBinary
  | closing => frameClosing
  | ping => framePing
  | pong => framePong

/-- `FrameType` of the client: the type of a frame, or why there is none. -/
inductive FrameType
  | frame (mode : Opcode)
  | errorFrame
  | incompleteFrame
deriving DecidableEq, Repr

/-! ## The client's frames -/

/-- `WsSocketFrameHeader`. -/
structure WsSocketFrameHeader where
  opcode : UInt8
  rsvd1 : UInt8
  fin : UInt8
  payLen : UInt8
  maskFlag : UInt8
deriving DecidableEq, Repr

/-- A bit field at its place in a byte. -/
def bitField (value mask shift : UInt8) : UInt8 := (value &&& mask) <<< shift

/-- The bit fields in memory, in the order of a little-endian machine. -/
def WsSocketFrameHeader.bytes (s : WsSocketFrameHeader) : List UInt8 :=
  [bitField s.opcode 0x0F 0 ||| bitField s.rsvd1 0x07 4 ||| bitField s.fin 0x01 7,
    bitField s.payLen 0x7F 0 ||| bitField s.maskFlag 0x01 7]

def readSocketFrameHeader (buffer : List UInt8) : WsSocketFrameHeader where
  opcode := peek buffer 0 &&& 0x0F
  rsvd1 := (peek buffer 0 >>> 4) &&& 0x07
  fin := peek buffer 0 >>> 7
  payLen := peek buffer 1 &&& 0x7F
  maskFlag := peek buffer 1 >>> 7

/-- `IpcSession_SendMsg`: the frame that is sent for a message, under a random mask key. -/
def sendMsgFrame (maskKey : UInt32) (message : List UInt8) : Except EsifError (List UInt8) :=
  let messageLen := message.length
  let built (payLen : UInt8) (extPayLen : List UInt8) :=
    WsSocketFrameHeader.bytes ⟨frameBinary, 0, 1, payLen, 1⟩ ++ extPayLen ++
      leEnc 4 maskKey.toNat ++ maskWith (leEnc 4 maskKey.toNat) message
  if message = [] then .error esifEParameterIsNull
  else if messageLen ≤ wsFrameHeaderType1Max.toNat then
    .ok (built (.ofNat messageLen) [])
  else if messageLen ≤ wsFrameHeaderType2Max.toNat then
    .ok (built wsFrameHeaderType2 (leEnc 2 messageLen).reverse)
  else if messageLen ≤ wsFrameHeaderType3Max.toNat then
    .ok (built wsFrameHeaderType3 (leEnc 8 messageLen).reverse)
  else .error esifEParameterIsOutOfBounds

/-- `WS_FRAME_MAXIMUM_SIZE`. -/
def wsFrameMaximumSize : Nat := 0x7FFFFFFF

/-- `esif_ws_get_header_size`, 0 if the header is not complete. -/
def esifWsGetHeaderSize (frame : List UInt8) : Nat :=
  if 2 ≤ frame.length then
    let s := readSocketFrameHeader frame
    let hdrLen :=
      2 + (if s.maskFlag ≠ 0 then 4 else 0) +
        if s.payLen = wsFrameHeaderType2 then 2
        else if s.payLen = wsFrameHeaderType3 then 8
        else 0
    if frame.length < hdrLen then 0 else hdrLen
  else 0

/-- `esif_ws_get_payload_size`, with the frame type as it leaves it. -/
def esifWsGetPayloadSize (frame : List UInt8) (frameType : FrameType) : Nat × FrameType :=
  if esifWsGetHeaderSize frame = 0 then (0, .incompleteFrame)
  else
    let s := readSocketFrameHeader frame
    if s.payLen = wsFrameHeaderType2 then ((readBigEndian frame 2 2).toNat, frameType)
    else if s.payLen = wsFrameHeaderType3 then
      let payLen := (readBigEndian frame 2 8).toNat
      if wsFrameMaximumSize < payLen then (0, .errorFrame) else (payLen, frameType)
    else (s.payLen.toNat, frameType)

/-- What `esif_ws_get_frame_type` returns and what it sets: `dataPtr` as an offset into the frame
and `dataLength`, if it sets them, and `bytesRemaining`. -/
structure FrameInfo where
  frameType : FrameType
  data : Option (Nat × Nat)
  bytesRemaining : Nat
deriving DecidableEq, Repr

/-- The frame types that are taken. -/
def Opcode.ofMode (mode : UInt8) : Option Opcode :=
  if mode = frameText then some .text
  else if mode = frameBinary then some .binary
  else if mode = frameClosing then some .closing
  else if mode = framePing then some .ping
  else if mode = framePong then some .pong
  else if mode = frameContinuation then some .continuation
  else none

/-- Where the payload is taken to begin.  This follows its size, not the header. -/
def dataPtrOf (payloadLength : Nat) : Nat :=
  if payloadLength ≤ wsFrameHeaderType1Max.toNat then 2
  else if payloadLength ≤ wsFrameHeaderType2Max.toNat then 4
  else 10

/-- `esif_ws_get_frame_type`. -/
def esifWsGetFrameType (frame : List UInt8) : FrameInfo :=
  let hdrLen := esifWsGetHeaderSize frame
  if hdrLen = 0 then ⟨.incompleteFrame, none, 0⟩
  else if (readSocketFrameHeader frame).rsvd1 ≠ 0 then ⟨.errorFrame, none, 0⟩
  else
    match Opcode.ofMode (readSocketFrameHeader frame).opcode with
    | some mode =>
      let payload := esifWsGetPayloadSize frame (.frame mode)
      if payload.1 = 0 then ⟨payload.2, none, 0⟩
      else if frame.length - hdrLen < payload.1 then ⟨.incompleteFrame, none, 0⟩
      else
        ⟨payload.2, some (dataPtrOf payload.1, payload.1), frame.length - hdrLen - payload.1⟩
    | none => ⟨.errorFrame, none, 0⟩

/-! ## The server's frames -/

/-- The header that `WebSocket_BuildFrame` fills in. -/
def builtHeader (dataLen : Nat) (frameType finType : UInt8) : List UInt8 :=
  let hdr (payloadSize : UInt8) : List UInt8 :=
    [bitField frameType 0x0F 0 ||| bitField finType 0x01 7, bitField payloadSize 0x7F 0]
  if dataLen ≤ wsFrameHeaderType1Max.toNat then hdr (.ofNat dataLen)
  else if dataLen ≤ wsFrameHeaderType2Max.toNat then
    hdr wsFrameHeaderType2 ++ (leEnc 2 dataLen).reverse
  else hdr wsFrameHeaderType3 ++ (leEnc 8 dataLen).reverse

/-- `WebSocket_BuildFrame`, into a buffer of its own. -/
def webSocketBuildFrame (outBufLen : UInt64) (data : List UInt8) (frameType finType : UInt8) :
    Except EsifError (List UInt8) :=
  let rc := buildFrame outBufLen (blockLen data)
  if rc = esifOk then .ok (builtHeader data.length frameType finType ++ data) else .error rc

/-! ## Both encoders write frames -/

/-- The layout that both ends choose. -/
def layoutOf (payloadLen : Nat) : Layout :=
  if payloadLen ≤ wsFrameHeaderType1Max.toNat then .type1
  else if payloadLen ≤ wsFrameHeaderType2Max.toNat then .type2
  else .type3

theorem le_maxPayload_layoutOf {payloadLen : Nat} (h : payloadLen ≤ wsFrameHeaderType3Max.toNat) :
    payloadLen ≤ (layoutOf payloadLen).maxPayload := by
  unfold layoutOf
  split
  · assumption
  · split
    · assumption
    · exact Nat.le_trans h (by decide)

theorem Opcode.code_lt (op : Opcode) : op.code.toNat < 16 := by
  cases op <;> decide

theorem Opcode.ofMode_code (op : Opcode) : Opcode.ofMode op.code = some op := by
  cases op <;> decide

/-- The frame in the shortest layout. -/
def WireFrame.compact (op : Opcode) (fin : Bool) (maskKey : Option UInt32) (payload : List UInt8)
    (h : payload.length ≤ wsFrameHeaderType3Max.toNat) : WireFrame where
  frameType := op.code
  fin := fin
  maskKey := maskKey
  layout := layoutOf payload.length
  payload := payload
  frameType_lt := op.code_lt
  payload_le := le_maxPayload_layoutOf h

/-- `FinType`. -/
def finType (fin : Bool) : UInt8 := if fin then finFinal else finFragment

theorem bitField_code (op : Opcode) (fin : Bool) :
    bitField op.code 0x0F 0 ||| bitField (finType fin) 0x01 7 =
      if fin then op.code ||| 0x80 else op.code := by
  cases op <;> cases fin <;> decide

theorem bitField_payLen : ∀ n ≤ 125, bitField (UInt8.ofNat n) 0x7F 0 = UInt8.ofNat n ∧
    bitField (UInt8.ofNat n) 0x7F 0 ||| bitField 1 0x01 7 = UInt8.ofNat n ||| 0x80 := by
  decide

theorem header_compact (op : Opcode) (fin : Bool) (key : Option UInt32)
    (h : payload.length ≤ wsFrameHeaderType3Max.toNat) :
    (WireFrame.compact op fin key payload h).header = (if fin then op.code ||| 0x80 else op.code) ::
        (if key.isSome then (layoutOf payload.length).bits payload.length ||| 0x80
          else (layoutOf payload.length).bits payload.length) ::
          ((leEnc (layoutOf payload.length).extended payload.length).reverse ++
            (WireFrame.compact op fin key payload h).keyBytes) := (rfl)

/-- `IpcSession_SendMsg` builds a masked binary frame. -/
theorem sendMsgFrame_eq (key : UInt32) {message : List UInt8} (hne : message ≠ [])
    (h : message.length ≤ wsFrameHeaderType3Max.toNat) :
    sendMsgFrame key message =
      .ok (WireFrame.compact .binary true (some key) message h).encode := by
  have hfirst : bitField frameBinary 0x0F 0 ||| bitField 0 0x07 4 ||| bitField 1 0x01 7 =
      Opcode.binary.code ||| 0x80 := by decide
  have hbody : (WireFrame.compact .binary true (some key) message h).body =
      maskWith (leEnc 4 key.toNat) message := rfl
  have hkey : (WireFrame.compact .binary true (some key) message h).keyBytes =
      leEnc 4 key.toNat := rfl
  unfold sendMsgFrame
  simp only [if_neg hne, WireFrame.encode, header_compact, hbody, hkey, WsSocketFrameHeader.bytes,
    hfirst]
  by_cases h1 : message.length ≤ wsFrameHeaderType1Max.toNat
  · have hlayout : layoutOf message.length = .type1 := if_pos h1
    simp [h1, hlayout, Layout.bits, Layout.extended, leEnc, (bitField_payLen _ h1).2]
  · by_cases h2 : message.length ≤ wsFrameHeaderType2Max.toNat
    · have hlayout : layoutOf message.length = .type2 := by simp [layoutOf, h1, h2]
      simp [h1, h2, hlayout, Layout.bits, Layout.extended]
      decide
    · have hlayout : layoutOf message.length = .type3 := by simp [layoutOf, h1, h2]
      simp [h1, h2, h, hlayout, Layout.bits, Layout.extended]
      decide

/-- `WebSocket_BuildFrame` builds an unmasked frame. -/
theorem builtHeader_eq (op : Opcode) (fin : Bool) (h : data.length ≤ wsFrameHeaderType3Max.toNat) :
    builtHeader data.length op.code (finType fin) =
      (WireFrame.compact op fin none data h).header := by
  have hkey : (WireFrame.compact op fin none data h).keyBytes = [] := rfl
  unfold builtHeader
  simp only [bitField_code, header_compact, hkey]
  by_cases h1 : data.length ≤ wsFrameHeaderType1Max.toNat
  · have hlayout : layoutOf data.length = .type1 := if_pos h1
    simp [h1, hlayout, Layout.bits, Layout.extended, leEnc, (bitField_payLen _ h1).1]
  · by_cases h2 : data.length ≤ wsFrameHeaderType2Max.toNat
    · have hlayout : layoutOf data.length = .type2 := by simp [layoutOf, h1, h2]
      simp [h1, h2, hlayout, Layout.bits, Layout.extended]
      decide
    · have hlayout : layoutOf data.length = .type3 := by simp [layoutOf, h1, h2]
      simp [h1, h2, hlayout, Layout.bits, Layout.extended]
      decide

theorem length_builtHeader (dataLen : Nat) (frameType finType : UInt8) :
    (builtHeader dataLen frameType finType).length = dataPtrOf dataLen := by
  unfold builtHeader dataPtrOf
  simp only
  split_ifs <;> simp

/-- There is room for a frame. -/
theorem buildFrame_eq_ok {dataLen : Nat} (h : dataLen ≤ wsFrameHeaderType3Max.toNat)
    {outBufLen : UInt64} (hroom : dataPtrOf dataLen + dataLen ≤ outBufLen.toNat) :
    buildFrame outBufLen (.ofNat dataLen) = esifOk := by
  have hmax : dataLen ≤ 0x7FFFFFFE := h
  have hlen : (UInt64.ofNat dataLen).toNat = dataLen := by
    rw [UInt64.toNat_ofNat']
    omega
  have hle (n : UInt64) : UInt64.ofNat dataLen ≤ n ↔ dataLen ≤ n.toNat := by
    rw [UInt64.le_iff_toNat_le, hlen]
  unfold buildFrame
  rw [if_neg (by rw [UInt64.not_lt, hle]; exact h)]
  simp only [hle]
  refine if_neg ?_
  rw [UInt64.not_lt, UInt64.le_iff_toNat_le, UInt64.toNat_add, hlen]
  unfold dataPtrOf at hroom
  split_ifs at hroom ⊢ <;> simp <;> omega

/-- `WebSocket_BuildFrame` builds an unmasked frame, if there is room. -/
theorem webSocketBuildFrame_eq (op : Opcode) (fin : Bool)
    (h : data.length ≤ wsFrameHeaderType3Max.toNat) {outBufLen : UInt64}
    (hroom : dataPtrOf data.length + data.length ≤ outBufLen.toNat) :
    webSocketBuildFrame outBufLen data op.code (finType fin) =
      .ok (WireFrame.compact op fin none data h).encode := by
  have hbuild : buildFrame outBufLen (blockLen data) = esifOk := buildFrame_eq_ok h hroom
  unfold webSocketBuildFrame
  simp only [hbuild, if_true, builtHeader_eq op fin h]
  rfl

/-! ## The client's decoder -/

theorem rsvd1_eq_zero : ∀ n < 16, (UInt8.ofNat n >>> 4) &&& 0x07 = 0 ∧
    ((UInt8.ofNat n ||| 0x80) >>> 4) &&& 0x07 = 0 := by
  decide

/-- The client reads the header bits of any frame. -/
theorem readSocketFrameHeader_eq (h0 : peek buffer 0 = f.firstByte)
    (h1 : peek buffer 1 = f.secondByte) :
    readSocketFrameHeader buffer =
      ⟨f.hdr.frameType, 0, f.hdr.fin, f.hdr.payloadSize, f.hdr.maskFlag⟩ := by
  have hrsvd := rsvd1_eq_zero _ f.frameType_lt
  rw [UInt8.ofNat_toNat] at hrsvd
  rw [← WireFrame.readHdr_eq h0 h1]
  unfold readSocketFrameHeader readHdr
  simp only [h0, WsSocketFrameHeader.mk.injEq, true_and, and_true]
  unfold WireFrame.firstByte
  split
  · exact hrsvd.2
  · exact hrsvd.1

theorem payLen_type1 (h : f.layout = .type1) :
    f.hdr.payloadSize ≠ wsFrameHeaderType2 ∧ f.hdr.payloadSize ≠ wsFrameHeaderType3 := by
  have hle := WireFrame.payloadSize_type1 h
  constructor
  · intro heq
    rw [heq] at hle
    exact absurd hle (by decide)
  · intro heq
    rw [heq] at hle
    exact absurd hle (by decide)

theorem payLen_type2 (h : f.layout = .type2) : f.hdr.payloadSize = wsFrameHeaderType2 := by
  simp [WireFrame.hdr, h, Layout.bits]

theorem payLen_type3 (h : f.layout = .type3) : f.hdr.payloadSize = wsFrameHeaderType3 := by
  simp [WireFrame.hdr, h, Layout.bits]

/-- The size of a header, if it is complete. -/
theorem esifWsGetHeaderSize_eq (h0 : peek buffer 0 = f.firstByte)
    (h1 : peek buffer 1 = f.secondByte) (h2 : 2 ≤ buffer.length) :
    esifWsGetHeaderSize buffer = if buffer.length < f.header.length then 0 else f.header.length := by
  have hlen : f.header.length = 2 + (if f.hdr.maskFlag ≠ 0 then 4 else 0) +
      if f.hdr.payloadSize = wsFrameHeaderType2 then 2
      else if f.hdr.payloadSize = wsFrameHeaderType3 then 8
      else 0 := by
    rw [WireFrame.length_header]
    simp only [WireFrame.maskFlag_ne_zero]
    cases h : f.layout with
    | type1 =>
      rw [if_neg (payLen_type1 h).1, if_neg (payLen_type1 h).2]
      rfl
    | type2 =>
      rw [if_pos (payLen_type2 h), Layout.extended]
      omega
    | type3 =>
      have hne : wsFrameHeaderType3 ≠ wsFrameHeaderType2 := by decide
      rw [payLen_type3 h, if_neg hne, if_pos rfl, Layout.extended]
      omega
  unfold esifWsGetHeaderSize
  simp only [if_pos h2, readSocketFrameHeader_eq h0 h1, ← hlen]

theorem readSocketFrameHeader_header (f : WireFrame) (rest : List UInt8) :
    readSocketFrameHeader (f.header ++ rest) =
      ⟨f.hdr.frameType, 0, f.hdr.fin, f.hdr.payloadSize, f.hdr.maskFlag⟩ :=
  readSocketFrameHeader_eq (f.peek_header rest).1 (f.peek_header rest).2

theorem esifWsGetHeaderSize_header (f : WireFrame) (rest : List UInt8) :
    esifWsGetHeaderSize (f.header ++ rest) = f.header.length := by
  have h2 := f.two_le_length_header
  rw [esifWsGetHeaderSize_eq (f.peek_header rest).1 (f.peek_header rest).2 (by simp; omega),
    if_neg (by simp)]

/-- The size of a payload that is not too long. -/
theorem esifWsGetPayloadSize_header (rest : List UInt8) (t : FrameType)
    (hmax : f.payload.length ≤ wsFrameMaximumSize) :
    esifWsGetPayloadSize (f.header ++ rest) t = (f.payload.length, t) := by
  have h2 := f.two_le_length_header
  have hle := f.payload_le
  have hread := f.readBigEndian_header rest
  have hmax' : f.payload.length ≤ 0x7FFFFFFF := hmax
  have hnat : (UInt64.ofNat f.payload.length).toNat = f.payload.length := by
    rw [UInt64.toNat_ofNat']
    omega
  unfold esifWsGetPayloadSize
  rw [esifWsGetHeaderSize_header, if_neg (by omega)]
  simp only [readSocketFrameHeader_header]
  cases h : f.layout with
  | type1 =>
    rw [h] at hle
    have hle : f.payload.length ≤ 125 := hle
    rw [if_neg (payLen_type1 h).1, if_neg (payLen_type1 h).2]
    have hbits : f.hdr.payloadSize.toNat = f.payload.length := by
      simp only [WireFrame.hdr, h, Layout.bits, UInt8.toNat_ofNat']
      omega
    rw [hbits]
  | type2 =>
    rw [h] at hle hread
    have hle : f.payload.length ≤ 0xFFFF := hle
    have hbytes : readBigEndian (f.header ++ rest) 2 2 = .ofNat f.payload.length :=
      hread (Nat.lt_of_le_of_lt hle (by decide))
    rw [if_pos (payLen_type2 h), hbytes, hnat]
  | type3 =>
    rw [h] at hle hread
    have hle : f.payload.length ≤ 2 ^ 63 - 1 := hle
    have hbytes : readBigEndian (f.header ++ rest) 2 8 = .ofNat f.payload.length :=
      hread (Nat.lt_of_le_of_lt hle (by decide))
    have hne : wsFrameHeaderType3 ≠ wsFrameHeaderType2 := by decide
    rw [payLen_type3 h, if_neg hne, if_pos rfl, hbytes, hnat, if_neg (Nat.not_lt.mpr hmax)]

/-- **A frame with a payload is found by the client**, whatever follows it. -/
theorem esifWsGetFrameType_encode {op : Opcode} (hop : f.frameType = op.code)
    (hpos : 0 < f.payload.length) (hmax : f.payload.length ≤ wsFrameMaximumSize) (more : List UInt8)
    :
    esifWsGetFrameType (f.encode ++ more) =
      ⟨.frame op, some (dataPtrOf f.payload.length, f.payload.length), more.length⟩ := by
  have h2 := f.two_le_length_header
  have hbuf : f.encode ++ more = f.header ++ (f.body ++ more) := by simp [WireFrame.encode]
  have hmode : Opcode.ofMode f.hdr.frameType = some op := by
    rw [← op.ofMode_code, ← hop]
    rfl
  have hall : (f.header ++ (f.body ++ more)).length =
      f.header.length + (f.payload.length + more.length) := by
    simp
  rw [hbuf]
  unfold esifWsGetFrameType
  simp only [esifWsGetHeaderSize_header, readSocketFrameHeader_header, hmode,
    esifWsGetPayloadSize_header _ _ hmax, hall]
  rw [if_neg (by omega), if_neg (by simp), if_neg (by omega), if_neg (by omega),
    Nat.add_sub_cancel_left, Nat.add_sub_cancel_left]

/-- The payload of a compact frame is where the client takes it to begin. -/
theorem dataPtrOf_compact (op : Opcode) (fin : Bool)
    (h : payload.length ≤ wsFrameHeaderType3Max.toNat) :
    dataPtrOf payload.length = (WireFrame.compact op fin none payload h).header.length := by
  rw [← builtHeader_eq op fin h, length_builtHeader]

/-! ## Each end reads the other's frames -/

/-- **The framing agrees.**  What `IpcSession_SendMsg` sends is read by `Websocket_GetFrame`, and
what `WebSocket_BuildFrame` builds by `esif_ws_get_frame_type`, alone or with more behind it. -/
theorem framing_agrees :
    (∀ (key : UInt32) (message : List UInt8), message ≠ [] →
      message.length ≤ wsFrameHeaderType3Max.toNat →
      ∃ bytes frame buffer, sendMsgFrame key message = .ok bytes ∧
        getFrame .ipfSrv bytes (blockLen bytes) = .ok (frame, buffer) ∧
        payloadOf buffer frame = message ∧ frame.frameType = frameBinary ∧
        frame.header.fin = finFinal ∧ frame.frameSize = blockLen bytes) ∧
    ∀ (op : Opcode) (fin : Bool) (data : List UInt8) (outBufLen : UInt64), data ≠ [] →
      data.length ≤ wsFrameHeaderType3Max.toNat →
      (builtHeader data.length op.code (finType fin)).length + data.length ≤ outBufLen.toNat →
      ∃ bytes, webSocketBuildFrame outBufLen data op.code (finType fin) = .ok bytes ∧
        ∀ more, ∃ dataPtr,
          esifWsGetFrameType (bytes ++ more) =
            ⟨.frame op, some (dataPtr, data.length), more.length⟩ ∧
          (((bytes ++ more).drop dataPtr).take data.length) = data := by
  constructor
  · intro key message hne h
    let f := WireFrame.compact .binary true (some key) message h
    have hlen : (blockLen f.encode).toNat = (f.encode ++ []).length := by
      rw [List.append_nil]
      exact f.toNat_length_encode
    have haccepted : f.AcceptedBy .ipfSrv := fun _ => rfl
    have hget := WireFrame.getFrame_encode haccepted hlen
    rw [List.append_nil] at hget
    refine ⟨f.encode, f.parsed, _, sendMsgFrame_eq key hne h, hget, ?_, rfl, rfl, rfl⟩
    exact f.payloadOf_parsed []
  · intro op fin data outBufLen hne h hroom
    let f := WireFrame.compact op fin none data h
    have hpos : 0 < f.payload.length := List.length_pos_iff.mpr hne
    have hmax : f.payload.length ≤ wsFrameMaximumSize := Nat.le_trans h (by decide)
    rw [length_builtHeader] at hroom
    refine ⟨f.encode, webSocketBuildFrame_eq op fin h hroom, fun more => ?_⟩
    refine ⟨dataPtrOf data.length, esifWsGetFrameType_encode rfl hpos hmax more, ?_⟩
    rw [dataPtrOf_compact op fin h, WireFrame.encode, List.append_assoc]
    simp [f, WireFrame.body, WireFrame.compact]

theorem framing_agrees_hi :
    (∃ bytes frame buffer, sendMsgFrame 0x04030201 [104, 105] = .ok bytes ∧
      getFrame .ipfSrv bytes (blockLen bytes) = .ok (frame, buffer) ∧
      payloadOf buffer frame = [104, 105]) ∧
    ∃ bytes, webSocketBuildFrame 65535 [104, 105] frameText finFinal = .ok bytes ∧
      ∃ dataPtr, esifWsGetFrameType (bytes ++ [0x89]) =
        ⟨.frame .text, some (dataPtr, 2), 1⟩ := by
  obtain ⟨bytes, frame, buffer, hsend, hget, hpayload, -⟩ :=
    framing_agrees.1 0x04030201 [104, 105] (by decide) (by decide)
  obtain ⟨built, hbuild, hread⟩ :=
    framing_agrees.2 .text true [104, 105] 65535 (by decide) (by decide) (by decide)
  obtain ⟨dataPtr, hinfo, -⟩ := hread [0x89]
  exact ⟨⟨bytes, frame, buffer, hsend, hget, hpayload⟩, built, hbuild, dataPtr, hinfo⟩

end Ws

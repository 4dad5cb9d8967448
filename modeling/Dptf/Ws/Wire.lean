import Dptf.Ws.Receive

/-!
# Frames on the wire

A frame as its sender means it: a type, the FIN flag, a payload, and a choice of
how the length is written and of a mask key.  `Websocket_GetFrame` gets it back
from its bytes, and nothing from a part of them.

* `getFrame_encode` — **a frame that is there** is found, whatever follows it.
* `getFrame_part` — **a part of a frame** is incomplete.
-/

open Lib

namespace Ws

/-! ## Bytes at an offset -/

theorem peek_append_left {as : List UInt8} (bs : List UInt8) {i : Nat} (h : i < as.length) :
    peek (as ++ bs) i = peek as i := by
  simp [peek, List.getD, List.getElem?_append_left h]

/-- Bytes that are there are a part of the buffer. -/
theorem peekN_eq {buffer : List UInt8} {i n : Nat} (h : i + n ≤ buffer.length) :
    peekN buffer i n = (buffer.drop i).take n := by
  refine List.ext_getElem (by simp [peekN]; omega) fun k hk hk' => ?_
  have hin : i + k < buffer.length := by
    simp at hk'
    omega
  simp [peekN, peek, hin]

/-- The bytes of the middle part. -/
theorem peekN_append (before bytes after : List UInt8) :
    peekN (before ++ bytes ++ after) before.length bytes.length = bytes := by
  rw [peekN_eq (by simp)]
  simp

/-! ## Masking -/

/-- The payload under a mask key. -/
def maskWith (key payload : List UInt8) : List UInt8 :=
  payload.mapIdx fun i b => b ^^^ key.getD (i % 4) 0

@[simp] theorem length_maskWith (key payload : List UInt8) :
    (maskWith key payload).length = payload.length := by
  simp [maskWith]

/-- Masking twice is not masking. -/
theorem maskWith_maskWith (key payload : List UInt8) :
    maskWith key (maskWith key payload) = payload := by
  refine List.ext_getElem (by simp) fun i hi hi' => ?_
  simp only [maskWith, List.getElem_mapIdx, UInt8.xor_assoc, UInt8.xor_self, UInt8.xor_zero]

/-- The loop that unmasks changes the payload only. -/
theorem unmask_append (before body after key : List UInt8) :
    unmask (before ++ body ++ after) before.length body.length key =
      before ++ maskWith key body ++ after := by
  refine List.ext_getElem (by simp [unmask]) fun i hi hi' => ?_
  simp only [unmask, List.getElem_mapIdx]
  by_cases hbefore : i < before.length
  · rw [if_neg (by omega)]
    simp [hbefore]
  · by_cases hbody : i < before.length + body.length
    · rw [if_pos (by omega)]
      have hin : i - before.length < body.length := by omega
      simp [List.getElem_append, hbefore, hin, maskWith]
    · rw [if_neg (by omega)]
      have hout : ¬i - before.length < body.length := by omega
      simp [List.getElem_append, hbefore, hout]

/-! ## The frame -/

/-- How the length of the payload is written. -/
inductive Layout
  /-- In the header bits. -/
  | type1
  /-- In two more bytes. -/
  | type2
  /-- In eight more bytes. -/
  | type3
deriving DecidableEq, Repr

namespace Layout

/-- The longest payload.  The highest bit of eight bytes is not used. -/
def maxPayload : Layout → Nat
  | type1 => 125
  | type2 => 0xFFFF
  | type3 => 2 ^ 63 - 1

/-- How many bytes the length takes behind the header bits. -/
def extended : Layout → Nat
  | type1 => 0
  | type2 => 2
  | type3 => 8

/-- The header bits of the length. -/
def bits (payloadLen : Nat) : Layout → UInt8
  | type1 => .ofNat payloadLen
  | type2 => wsFrameHeaderType2
  | type3 => wsFrameHeaderType3

theorem maxPayload_lt (layout : Layout) : layout.maxPayload < 2 ^ 63 := by
  cases layout <;> decide

end Layout

/-- A frame as it is sent. -/
structure WireFrame where
  frameType : UInt8
  fin : Bool
  maskKey : Option UInt32
  layout : Layout
  payload : List UInt8
  frameType_lt : frameType.toNat < 16
  payload_le : payload.length ≤ layout.maxPayload

namespace WireFrame

variable {f : WireFrame} {buffer rest : List UInt8} {bufLen : UInt64} {server : Server}

/-- The header bits. -/
def hdr (f : WireFrame) : WsHdr where
  frameType := f.frameType
  fin := if f.fin then finFinal else finFragment
  payloadSize := f.layout.bits f.payload.length
  maskFlag := if f.maskKey.isSome then 1 else 0

def firstByte (f : WireFrame) : UInt8 := if f.fin then f.frameType ||| 0x80 else f.frameType

def secondByte (f : WireFrame) : UInt8 :=
  if f.maskKey.isSome then f.hdr.payloadSize ||| 0x80 else f.hdr.payloadSize

/-- The length, highest byte first. -/
def lengthBytes (f : WireFrame) : List UInt8 := (leEnc f.layout.extended f.payload.length).reverse

def keyBytes (f : WireFrame) : List UInt8 :=
  match f.maskKey with
  | some key => leEnc 4 key.toNat
  | none => []

def header (f : WireFrame) : List UInt8 :=
  f.firstByte :: f.secondByte :: (f.lengthBytes ++ f.keyBytes)

/-- The payload as it is sent. -/
def body (f : WireFrame) : List UInt8 :=
  match f.maskKey with
  | some key => maskWith (leEnc 4 key.toNat) f.payload
  | none => f.payload

/-- The bytes of the frame. -/
def encode (f : WireFrame) : List UInt8 := f.header ++ f.body

theorem length_header (f : WireFrame) :
    f.header.length = 2 + f.layout.extended + if f.maskKey.isSome then 4 else 0 := by
  cases hkey : f.maskKey <;> simp [header, lengthBytes, keyBytes, hkey] <;> omega

theorem two_le_length_header (f : WireFrame) : 2 ≤ f.header.length := by
  rw [length_header]
  omega

theorem length_header_le (f : WireFrame) : f.header.length ≤ 14 := by
  have hext : f.layout.extended ≤ 8 := by cases f.layout <;> decide
  rw [length_header]
  split <;> omega

@[simp] theorem length_body (f : WireFrame) : f.body.length = f.payload.length := by
  unfold body
  split <;> simp

theorem length_encode (f : WireFrame) : f.encode.length = f.header.length + f.payload.length := by
  simp [encode]

theorem encode_ne_nil (f : WireFrame) : f.encode ≠ [] := by
  simp [encode, header]

/-- Every frame takes two bytes at least. -/
theorem length_le_flatMap_encode (frames : List WireFrame) :
    2 * frames.length ≤ (frames.flatMap WireFrame.encode).length := by
  induction frames with
  | nil => simp
  | cons f frames ih =>
    have h2 := f.two_le_length_header
    rw [List.flatMap_cons, List.length_append, f.length_encode, List.length_cons]
    omega

/-! ## Reading the header -/

theorem bits_of_lt : ∀ n < 128, (UInt8.ofNat n ||| 0x80) &&& 0x7F = UInt8.ofNat n ∧
    UInt8.ofNat n &&& 0x7F = UInt8.ofNat n ∧ (UInt8.ofNat n ||| 0x80) >>> 7 = 1 ∧
    UInt8.ofNat n >>> 7 = 0 := by
  decide

theorem nibble_of_lt : ∀ n < 16, (UInt8.ofNat n ||| 0x80) &&& 0x0F = UInt8.ofNat n ∧
    UInt8.ofNat n &&& 0x0F = UInt8.ofNat n := by
  decide

theorem payloadBits_lt (f : WireFrame) : f.hdr.payloadSize.toNat < 128 := by
  have hle := f.payload_le
  cases hl : f.layout with
  | type1 =>
    rw [hl] at hle
    have hle : f.payload.length ≤ 125 := hle
    simp only [hdr, hl, Layout.bits, UInt8.toNat_ofNat']
    omega
  | type2 => simp [hdr, hl, Layout.bits, wsFrameHeaderType2]
  | type3 => simp [hdr, hl, Layout.bits, wsFrameHeaderType3]

/-- The first two bytes give the header bits. -/
theorem readHdr_eq (h0 : peek buffer 0 = f.firstByte) (h1 : peek buffer 1 = f.secondByte) :
    readHdr buffer = f.hdr := by
  have htype := nibble_of_lt _ f.frameType_lt
  have hfin := bits_of_lt _ (Nat.lt_trans f.frameType_lt (by decide : 16 < 128))
  have hlen := bits_of_lt _ f.payloadBits_lt
  rw [UInt8.ofNat_toNat] at htype hfin hlen
  unfold readHdr
  rw [h0, h1]
  unfold firstByte secondByte
  cases hf : f.fin <;> cases hk : f.maskKey <;>
    simp [hdr, hf, hk, finFinal, finFragment] at htype hfin hlen ⊢ <;> simp [htype, hfin, hlen]

theorem peek_header (f : WireFrame) (rest : List UInt8) :
    peek (f.header ++ rest) 0 = f.firstByte ∧ peek (f.header ++ rest) 1 = f.secondByte :=
  ⟨rfl, rfl⟩

theorem readHdr_header (f : WireFrame) (rest : List UInt8) : readHdr (f.header ++ rest) = f.hdr :=
  readHdr_eq (f.peek_header rest).1 (f.peek_header rest).2

theorem maskFlag_ne_zero (f : WireFrame) : f.hdr.maskFlag ≠ 0 ↔ f.maskKey.isSome := by
  cases hk : f.maskKey <;> simp [hdr, hk]

/-- The bits of the length tell the layout. -/
theorem payloadSize_type1 (h : f.layout = .type1) : f.hdr.payloadSize ≤ wsFrameHeaderType1 := by
  have hle := f.payload_le
  rw [h] at hle
  have hle : f.payload.length ≤ 125 := hle
  rw [UInt8.le_iff_toNat_le]
  simp only [hdr, h, Layout.bits, UInt8.toNat_ofNat', wsFrameHeaderType1]
  exact Nat.le_trans (Nat.mod_le _ _) hle

theorem headerSizeOf_hdr (f : WireFrame) : headerSizeOf f.hdr = .ofNat f.header.length := by
  rw [length_header]
  unfold headerSizeOf
  simp only [maskFlag_ne_zero]
  cases h : f.layout with
  | type1 =>
    rw [if_pos (payloadSize_type1 h)]
    cases f.maskKey <;> rfl
  | type2 =>
    have hbits : f.hdr.payloadSize = wsFrameHeaderType2 := by simp [hdr, h, Layout.bits]
    rw [hbits, if_neg (by decide), if_pos rfl]
    cases f.maskKey <;> rfl
  | type3 =>
    have hbits : f.hdr.payloadSize = wsFrameHeaderType3 := by simp [hdr, h, Layout.bits]
    rw [hbits, if_neg (by decide), if_neg (by decide), if_pos rfl]
    cases f.maskKey <;> rfl

theorem length_lengthBytes (f : WireFrame) : f.lengthBytes.length = f.layout.extended := by
  simp [lengthBytes]

/-- The length that is written is read. -/
theorem readBigEndian_header (f : WireFrame) (rest : List UInt8)
    (hlt : f.payload.length < 256 ^ f.layout.extended) :
    readBigEndian (f.header ++ rest) 2 f.layout.extended = .ofNat f.payload.length := by
  have hbuf : f.header ++ rest =
      [f.firstByte, f.secondByte] ++ f.lengthBytes ++ (f.keyBytes ++ rest) := by
    simp [header]
  have hbytes := peekN_append [f.firstByte, f.secondByte] f.lengthBytes (f.keyBytes ++ rest)
  rw [← hbuf, length_lengthBytes] at hbytes
  unfold readBigEndian
  rw [show (2 : Nat) = [f.firstByte, f.secondByte].length from rfl, hbytes, lengthBytes,
    List.reverse_reverse, leDec_leEnc_of_lt hlt]

theorem payloadSizeOf_header (f : WireFrame) (rest : List UInt8) :
    payloadSizeOf (f.header ++ rest) = .ofNat f.payload.length := by
  have hle := f.payload_le
  have hread := f.readBigEndian_header rest
  unfold payloadSizeOf
  simp only [readHdr_header]
  cases h : f.layout with
  | type1 =>
    rw [h] at hle
    have hle : f.payload.length ≤ 125 := hle
    rw [if_pos (payloadSize_type1 h)]
    apply UInt64.toNat_inj.mp
    simp only [hdr, h, Layout.bits, UInt8.toNat_toUInt64, UInt8.toNat_ofNat', UInt64.toNat_ofNat']
    omega
  | type2 =>
    rw [h] at hle hread
    have hle : f.payload.length ≤ 0xFFFF := hle
    have hbits : f.hdr.payloadSize = wsFrameHeaderType2 := by simp [hdr, h, Layout.bits]
    rw [hbits, if_neg (by decide), if_pos rfl]
    exact hread (Nat.lt_of_le_of_lt hle (by decide))
  | type3 =>
    rw [h] at hle hread
    have hle : f.payload.length ≤ 2 ^ 63 - 1 := hle
    have hbits : f.hdr.payloadSize = wsFrameHeaderType3 := by simp [hdr, h, Layout.bits]
    rw [hbits, if_neg (by decide), if_neg (by decide), if_pos rfl]
    exact hread (Nat.lt_of_le_of_lt hle (by decide))

theorem toNat_headerSizeOf (f : WireFrame) : (headerSizeOf f.hdr).toNat = f.header.length := by
  have hle := f.length_header_le
  rw [headerSizeOf_hdr, UInt64.toNat_ofNat']
  omega

theorem maskKeyOf_header {key : UInt32} (h : f.maskKey = some key) (rest : List UInt8) :
    maskKeyOf (f.header ++ rest) = leEnc 4 key.toNat := by
  have hkey : f.keyBytes = leEnc 4 key.toNat := by simp [keyBytes, h]
  have hbuf : f.header ++ rest =
      (f.firstByte :: f.secondByte :: f.lengthBytes) ++ leEnc 4 key.toNat ++ rest := by
    simp [header, hkey]
  have hlen : f.header.length - 4 = (f.firstByte :: f.secondByte :: f.lengthBytes).length := by
    simp [header, hkey]
  unfold maskKeyOf
  rw [readHdr_header, if_pos (by simp [maskFlag_ne_zero, h]), toNat_headerSizeOf, hlen, hbuf]
  simpa using peekN_append (f.firstByte :: f.secondByte :: f.lengthBytes) (leEnc 4 key.toNat) rest

/-! ## The frame that is found -/

/-- The frame as `Websocket_GetFrame` returns it. -/
def parsed (f : WireFrame) : WsFrame where
  frameType := f.frameType
  header := f.hdr
  headerSize := .ofNat f.header.length
  payloadSize := .ofNat f.payload.length
  frameSize := .ofNat f.encode.length

/-- The server takes frames of its clients that are masked, or any. -/
def AcceptedBy (f : WireFrame) (server : Server) : Prop :=
  server = .ipfSrv → f.maskKey.isSome = true

theorem refuses_eq_false (h : f.AcceptedBy server) (hhdr : 2 ≤ bufLen → readHdr buffer = f.hdr) :
    refuses server buffer bufLen = false := by
  cases server with
  | esifWs => rfl
  | ipfSrv =>
    by_cases h2 : 2 ≤ bufLen
    · have hflag := (maskFlag_ne_zero f).mpr (h rfl)
      simp [refuses, hhdr h2, hflag]
    · simp [refuses, h2]

theorem unmasked_encode (f : WireFrame) (more : List UInt8) :
    unmasked (f.encode ++ more) f.parsed = f.header ++ f.payload ++ more := by
  have hhead := f.length_header_le
  have hmax := Nat.lt_of_le_of_lt f.payload_le f.layout.maxPayload_lt
  unfold unmasked
  have hflag : f.parsed.header.maskFlag ≠ 0 ↔ f.maskKey.isSome := f.maskFlag_ne_zero
  cases hk : f.maskKey with
  | none =>
    rw [if_neg (by rw [hflag, hk]; simp)]
    simp [encode, body, hk]
  | some key =>
    have hhs : f.parsed.headerSize.toNat = f.header.length := by
      simp only [parsed, UInt64.toNat_ofNat']
      omega
    have hps : f.parsed.payloadSize.toNat = f.body.length := by
      simp only [parsed, UInt64.toNat_ofNat', length_body]
      omega
    rw [if_pos (by rw [hflag, hk]; rfl), hhs, hps, encode, List.append_assoc f.header,
      maskKeyOf_header hk, ← List.append_assoc, unmask_append]
    simp [body, hk, maskWith_maskWith]

/-- Its payload is the one that was sent. -/
theorem payloadOf_parsed (f : WireFrame) (more : List UInt8) :
    payloadOf (f.header ++ f.payload ++ more) f.parsed = f.payload := by
  have hhead := f.length_header_le
  have hmax := Nat.lt_of_le_of_lt f.payload_le f.layout.maxPayload_lt
  have hhs : f.parsed.headerSize.toNat = f.header.length := by
    simp only [parsed, UInt64.toNat_ofNat']
    omega
  have hps : f.parsed.payloadSize.toNat = f.payload.length := by
    simp only [parsed, UInt64.toNat_ofNat']
    omega
  rw [payloadOf, hhs, hps, List.append_assoc, List.drop_left, List.take_left]

theorem sizes_header (f : WireFrame) (h : f.header.length ≤ bufLen.toNat) :
    sizes (f.header ++ rest) bufLen = (.ofNat f.header.length, .ofNat f.payload.length) := by
  have h2 := f.two_le_length_header
  have hlen : ¬bufLen < 2 := by
    rw [UInt64.lt_iff_toNat_lt]
    show ¬bufLen.toNat < 2
    omega
  have hle : UInt64.ofNat f.header.length ≤ bufLen := by
    have hhead := f.length_header_le
    rw [UInt64.le_iff_toNat_le, UInt64.toNat_ofNat']
    omega
  unfold sizes
  simp only [if_neg hlen, readHdr_header, headerSizeOf_hdr, if_pos hle, payloadSizeOf_header]

/-- The sum of the sizes is the frame's. -/
theorem header_add_payload (f : WireFrame) :
    UInt64.ofNat f.header.length + UInt64.ofNat f.payload.length = .ofNat f.encode.length := by
  rw [length_encode, UInt64.ofNat_add]

theorem toNat_length_encode (f : WireFrame) :
    (UInt64.ofNat f.encode.length).toNat = f.encode.length := by
  have hhead := f.length_header_le
  have hmax := Nat.lt_of_le_of_lt f.payload_le f.layout.maxPayload_lt
  rw [UInt64.toNat_ofNat', length_encode]
  omega

/-- **A frame that is there is found**, whatever follows it, and its payload is unmasked where it
stands. -/
theorem getFrame_encode (h : f.AcceptedBy server) {more : List UInt8}
    (hlen : bufLen.toNat = (f.encode ++ more).length) :
    getFrame server (f.encode ++ more) bufLen = .ok (f.parsed, f.header ++ f.payload ++ more) := by
  have h2 := f.two_le_length_header
  have henc := f.length_encode
  have hall : (f.encode ++ more).length = f.encode.length + more.length := List.length_append
  have hbuf : f.encode ++ more = f.header ++ (f.body ++ more) := by simp [encode]
  have hhdr : readHdr (f.encode ++ more) = f.hdr := by
    rw [hbuf]
    exact f.readHdr_header _
  have hsizes : sizes (f.encode ++ more) bufLen =
      (.ofNat f.header.length, .ofNat f.payload.length) := by
    rw [hbuf]
    exact f.sizes_header (by omega)
  have hframe : frameOf (f.encode ++ more) (.ofNat f.header.length) (.ofNat f.payload.length) =
      f.parsed := by
    simp [frameOf, parsed, hhdr, header_add_payload, hdr]
  have hcheck : ¬checkedLen bufLen < f.parsed.frameSize := by
    have hshort : ¬bufLen < 2 := by
      rw [UInt64.lt_iff_toNat_lt]
      show ¬bufLen.toNat < 2
      omega
    rw [checkedLen, if_neg hshort, UInt64.lt_iff_toNat_lt]
    show ¬bufLen.toNat < (UInt64.ofNat f.encode.length).toNat
    rw [toNat_length_encode]
    omega
  have hsize : ¬sizeofWsFrameHeader < f.parsed.headerSize := by
    have hhead := f.length_header_le
    rw [UInt64.lt_iff_toNat_lt]
    show ¬14 < (UInt64.ofNat f.header.length).toNat
    rw [UInt64.toNat_ofNat']
    omega
  unfold getFrame
  rw [refuses_eq_false h fun _ => hhdr, if_neg (by decide)]
  simp only [hsizes, hframe, if_neg hcheck, if_neg hsize, unmasked_encode]

/-- **A part of a frame is incomplete.** -/
theorem getFrame_part (h : f.AcceptedBy server) {part rest : List UInt8}
    (hpart : part ++ rest = f.encode) (hrest : rest ≠ []) (hlen : bufLen.toNat = part.length) :
    getFrame server part bufLen = .error esifEWsIncomplete := by
  have h2 := f.two_le_length_header
  have henc := f.length_encode
  have hpos : 0 < rest.length := List.length_pos_iff.mpr hrest
  have hall : part.length + rest.length = f.encode.length := by
    rw [← hpart, List.length_append]
  have hhdr : 2 ≤ bufLen → readHdr part = f.hdr := by
    intro hle
    have hle : 2 ≤ bufLen.toNat := UInt64.le_iff_toNat_le.mp hle
    refine readHdr_eq ?_ ?_
    · rw [← peek_append_left rest (by omega), hpart, encode]
      exact (f.peek_header _).1
    · rw [← peek_append_left rest (by omega), hpart, encode]
      exact (f.peek_header _).2
  unfold getFrame
  rw [refuses_eq_false h hhdr, if_neg (by decide)]
  have hcheck : checkedLen bufLen < (sizes part bufLen).1 + (sizes part bufLen).2 := by
    by_cases hshort : bufLen < 2
    · rw [checkedLen, if_pos hshort, sizes, if_pos hshort]
      decide
    · rw [checkedLen, if_neg hshort, UInt64.lt_iff_toNat_lt]
      by_cases hheader : f.header.length ≤ part.length
      · -- the header is there, and says how much is missing
        obtain ⟨tail, rfl⟩ : ∃ tail, part = f.header ++ tail := by
          have htake := congrArg (List.take f.header.length) hpart
          rw [List.take_append_of_le_length hheader, encode, List.take_left] at htake
          refine ⟨part.drop f.header.length, ?_⟩
          conv_lhs => rw [← List.take_append_drop f.header.length part, htake]
        rw [f.sizes_header (by omega), header_add_payload, toNat_length_encode]
        omega
      · have hlt : ¬headerSizeOf f.hdr ≤ bufLen := by
          rw [UInt64.le_iff_toNat_le, toNat_headerSizeOf]
          omega
        simp only [sizes, if_neg hshort, hhdr (UInt64.not_lt.mp hshort), if_neg hlt]
        rw [UInt64.add_zero, toNat_headerSizeOf]
        omega
  exact if_pos hcheck

end WireFrame

end Ws

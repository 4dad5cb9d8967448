import Dptf.Ws.ClientFrame

/-!
# Fragments of a response

`WebServer_WebsocketResponse` breaks a response of the REST API up into frames that fit into
the network buffer.  How much goes into a frame follows an estimate of its header, from the
bytes that are left; the header that `WebSocket_BuildFrame` writes follows the bytes that go in.

* `writeFragments_spec` — **the loop writes the fragments of its response**.
-/

open Lib

namespace Ws

/-! ## The loop -/

/-- `WebSocket_HeaderSize`, 0 for a size that is too large. -/
def webSocketHeaderSize (payloadSize : Nat) (maskFlag : Bool) : Nat :=
  let headerSize :=
    if payloadSize < wsFrameHeaderType1Max.toNat then 2
    else if payloadSize < wsFrameHeaderType2Max.toNat then 4
    else if payloadSize < wsFrameHeaderType3Max.toNat then 10
    else 0
  if maskFlag then headerSize + 4 else headerSize

/-- The size of the next fragment. -/
def fragmentSizeOf (netBufLen : UInt64) (bytesLeft : Nat) : Nat :=
  let headerSize := webSocketHeaderSize bytesLeft false
  let maxPayload := if netBufLen.toNat ≤ headerSize then 0 else netBufLen.toNat - headerSize
  min bytesLeft maxPayload

/-- The loop over the fragments, with the frames that are handed to `WebClient_Write` and what
each call returns.  It ends on an error. -/
def writeFragments (netBufLen : UInt64) (write : Nat → EsifError) (response : List UInt8)
    (writes bytesSent : Nat) : EsifError × List (List UInt8) :=
  if bytesSent < response.length then
    let fragmentSize := fragmentSizeOf netBufLen (response.length - bytesSent)
    let frameType := if 0 < bytesSent then frameContinuation else frameText
    let fin := if fragmentSize < response.length - bytesSent then finFragment else finFinal
    if fragmentSize < 1 then (esifENeedLargerBuffer, [])
    else
      match webSocketBuildFrame netBufLen ((response.drop bytesSent).take fragmentSize)
          frameType fin with
      | .error rc => (rc, [])
      | .ok netBuf =>
        if write writes = esifOk then
          let rest := writeFragments netBufLen write response (writes + 1) (bytesSent + fragmentSize)
          (rest.1, netBuf :: rest.2)
        else (write writes, [netBuf])
  else (esifOk, [])
termination_by response.length - bytesSent

/-! ## The estimate -/

/-- The header of a part of what is left is no longer than the estimate. -/
theorem dataPtrOf_le_webSocketHeaderSize {dataLen bytesLeft : Nat} (hle : dataLen ≤ bytesLeft)
    (hmax : bytesLeft < wsFrameHeaderType3Max.toNat) :
    dataPtrOf dataLen ≤ webSocketHeaderSize bytesLeft false := by
  have h12 : wsFrameHeaderType1Max.toNat ≤ wsFrameHeaderType2Max.toNat := by decide
  unfold dataPtrOf webSocketHeaderSize
  simp only [Bool.false_eq_true, if_false, if_pos hmax]
  split_ifs <;> omega

theorem webSocketHeaderSize_le (bytesLeft : Nat) : webSocketHeaderSize bytesLeft false ≤ 10 := by
  unfold webSocketHeaderSize
  simp only [Bool.false_eq_true, if_false]
  split_ifs <;> omega

/-- **A fragment has a byte at least, and its frame fits into the buffer.** -/
theorem fragmentSizeOf_spec {netBufLen : UInt64} (hbuf : 11 ≤ netBufLen.toNat) {bytesLeft : Nat}
    (hleft : 0 < bytesLeft) (hmax : bytesLeft < wsFrameHeaderType3Max.toNat) :
    let fragmentSize := fragmentSizeOf netBufLen bytesLeft
    0 < fragmentSize ∧ fragmentSize ≤ bytesLeft ∧
      dataPtrOf fragmentSize + fragmentSize ≤ netBufLen.toNat := by
  intro fragmentSize
  have hheader := webSocketHeaderSize_le bytesLeft
  have hsize : fragmentSize =
      min bytesLeft (netBufLen.toNat - webSocketHeaderSize bytesLeft false) := by
    simp only [fragmentSize, fragmentSizeOf]
    rw [if_neg (by omega)]
  have hle : fragmentSize ≤ bytesLeft := by
    rw [hsize]
    exact Nat.min_le_left _ _
  have hptr := dataPtrOf_le_webSocketHeaderSize hle hmax
  omega

/-! ## The fragments -/

/-- The frames of a response of which the first has this opcode: all others are continuations,
only the last one is final, each fits, and none is empty. -/
inductive Fragments (room : Nat) : Opcode → List UInt8 → List WireFrame → Prop
  | last {op : Opcode} {f : WireFrame} (htype : f.frameType = op.code) (hfin : f.fin = true)
      (hroom : f.encode.length ≤ room) : Fragments room op f.payload [f]
  | more {op : Opcode} {f : WireFrame} {response : List UInt8} {frames : List WireFrame}
      (htype : f.frameType = op.code) (hfin : f.fin = false) (hroom : f.encode.length ≤ room)
      (hrest : Fragments room .continuation response frames) :
      Fragments room op (f.payload ++ response) (f :: frames)

namespace Fragments

variable {room : Nat} {op : Opcode} {response : List UInt8} {frames : List WireFrame}

theorem payload (h : Fragments room op response frames) :
    frames.flatMap WireFrame.payload = response := by
  induction h with
  | last => simp
  | more _ _ _ _ ih => rw [List.flatMap_cons, ih]

theorem ne_nil (h : Fragments room op response frames) : frames ≠ [] := by
  cases h <;> simp

theorem frameType (h : Fragments room op response frames) :
    frames.map WireFrame.frameType =
      op.code :: List.replicate (frames.length - 1) frameContinuation := by
  induction h with
  | last htype => simp [htype]
  | more htype _ _ hrest ih =>
    obtain ⟨n, hn⟩ := Nat.exists_eq_succ_of_ne_zero (mt List.length_eq_zero_iff.mp hrest.ne_nil)
    rw [hn] at ih
    simp [ih, htype, hn, Opcode.code, List.replicate_succ]

theorem fin (h : Fragments room op response frames) :
    frames.map WireFrame.fin = List.replicate (frames.length - 1) false ++ [true] := by
  induction h with
  | last _ hfin => simp [hfin]
  | more _ hfin _ hrest ih =>
    obtain ⟨n, hn⟩ := Nat.exists_eq_succ_of_ne_zero (mt List.length_eq_zero_iff.mp hrest.ne_nil)
    rw [hn] at ih
    simp [ih, hfin, hn, List.replicate_succ]

theorem fits (h : Fragments room op response frames) : ∀ f ∈ frames, f.encode.length ≤ room := by
  induction h with
  | last _ _ hroom => simpa using hroom
  | more _ _ hroom _ ih => simpa using ⟨hroom, ih⟩

end Fragments

/-! ## What is written -/

/-- Frames are written one by one, up to the first error. -/
def writeAll (write : Nat → EsifError) : Nat → List (List UInt8) → EsifError × List (List UInt8)
  | _, [] => (esifOk, [])
  | writes, frame :: frames =>
    if write writes = esifOk then
      let rest := writeAll write (writes + 1) frames
      (rest.1, frame :: rest.2)
    else (write writes, [frame])

theorem writeAll_ok {write : Nat → EsifError} (h : ∀ n, write n = esifOk) (writes : Nat)
    (frames : List (List UInt8)) : writeAll write writes frames = (esifOk, frames) := by
  induction frames generalizing writes with
  | nil => rfl
  | cons frame frames ih => simp [writeAll, h, ih]

theorem writeAll_prefix (write : Nat → EsifError) (writes : Nat) (frames : List (List UInt8)) :
    (writeAll write writes frames).2 <+: frames := by
  induction frames generalizing writes with
  | nil => exact List.nil_prefix
  | cons frame frames ih =>
    rw [writeAll]
    split
    · exact List.prefix_cons_inj frame |>.mpr (ih _)
    · exact ⟨frames, rfl⟩

/-- The opcode of the frame behind some bytes. -/
def opcodeAt (bytesSent : Nat) : Opcode := if 0 < bytesSent then .continuation else .text

/-- A turn of the loop writes one frame, the last one if the fragment is all that is left. -/
theorem writeFragments_turn {netBufLen : UInt64} (hbuf : 11 ≤ netBufLen.toNat)
    {response : List UInt8} (hmax : response.length < wsFrameHeaderType3Max.toNat)
    {bytesSent fragmentSize : Nat} (hsent : bytesSent < response.length)
    (hsize : fragmentSizeOf netBufLen (response.length - bytesSent) = fragmentSize) :
    ∃ f : WireFrame, f.frameType = (opcodeAt bytesSent).code ∧
      f.fin = decide (response.length - bytesSent ≤ fragmentSize) ∧
      f.payload = (response.drop bytesSent).take fragmentSize ∧
      f.encode.length ≤ netBufLen.toNat ∧
      ∀ write writes, writeFragments netBufLen write response writes bytesSent =
        if write writes = esifOk then
          let rest := writeFragments netBufLen write response (writes + 1)
            (bytesSent + fragmentSize)
          (rest.1, f.encode :: rest.2)
        else (write writes, [f.encode]) := by
  obtain ⟨hpos, hle, hroom⟩ := hsize ▸
    fragmentSizeOf_spec hbuf (show 0 < response.length - bytesSent by omega) (by omega)
  generalize hleft : response.length - bytesSent = left at hsize hle
  set fragment := (response.drop bytesSent).take fragmentSize with hfragment
  have hlen : fragment.length = fragmentSize := by
    rw [hfragment, List.length_take, List.length_drop]
    omega
  have hfit : fragment.length ≤ wsFrameHeaderType3Max.toNat := by omega
  have htype : (if 0 < bytesSent then frameContinuation else frameText) =
      (opcodeAt bytesSent).code := by
    unfold opcodeAt
    split <;> rfl
  have hfin : (if fragmentSize < left then finFragment else finFinal) =
      finType (decide (left ≤ fragmentSize)) := by
    unfold finType
    split <;> split <;> simp_all; omega
  have hbuild := webSocketBuildFrame_eq (opcodeAt bytesSent) (decide (left ≤ fragmentSize)) hfit
    (by rw [hlen]; exact hroom)
  refine ⟨.compact (opcodeAt bytesSent) (decide (left ≤ fragmentSize)) none fragment hfit,
    rfl, rfl, rfl, ?_, fun write writes => ?_⟩
  · have hheader := length_builtHeader fragment.length (opcodeAt bytesSent).code
      (finType (decide (left ≤ fragmentSize)))
    rw [builtHeader_eq _ _ hfit] at hheader
    rw [WireFrame.length_encode, hheader]
    show _ + fragment.length ≤ _
    rw [hlen]
    exact hroom
  · rw [writeFragments, if_pos hsent]
    simp only [hleft, hsize]
    rw [if_neg (by omega), htype, hfin, hbuild]

/-- **The loop writes the fragments of what is left.**  The induction is on the bytes left. -/
theorem writeFragments_spec {netBufLen : UInt64} (hbuf : 11 ≤ netBufLen.toNat)
    {response : List UInt8} (hmax : response.length < wsFrameHeaderType3Max.toNat)
    (bytesSent : Nat) (hsent : bytesSent < response.length) :
    ∃ frames, Fragments netBufLen.toNat (opcodeAt bytesSent) (response.drop bytesSent) frames ∧
      ∀ write writes, writeFragments netBufLen write response writes bytesSent =
        writeAll write writes (frames.map WireFrame.encode) := by
  induction hleft : response.length - bytesSent using Nat.strong_induction_on
    generalizing bytesSent with
  | _ left ih =>
    have hspec := fragmentSizeOf_spec hbuf (show 0 < left by omega) (by omega)
    generalize hsize : fragmentSizeOf netBufLen left = fragmentSize at hspec
    obtain ⟨f, htype, hfin, hpayload, hencode, hstep⟩ :=
      writeFragments_turn hbuf hmax hsent (hleft ▸ hsize)
    rw [hleft] at hfin
    by_cases hlast : left ≤ fragmentSize
    · have hwhole : f.payload = response.drop bytesSent := by
        rw [hpayload, List.take_of_length_le (by rw [List.length_drop]; omega)]
      refine ⟨[f], ?_, fun write writes => ?_⟩
      · rw [← hwhole]
        exact .last htype (hfin.trans (decide_eq_true hlast)) hencode
      · have hend : writeFragments netBufLen write response (writes + 1)
            (bytesSent + fragmentSize) = (esifOk, []) := by
          rw [writeFragments, if_neg (by omega)]
        rw [hstep, hend]
        rfl
    · obtain ⟨frames, hframes, hwrite⟩ := ih (left - fragmentSize) (by omega)
        (bytesSent + fragmentSize) (by omega) (by omega)
      refine ⟨f :: frames, ?_, fun write writes => ?_⟩
      · have hcut : response.drop bytesSent =
            f.payload ++ response.drop (bytesSent + fragmentSize) := by
          rw [hpayload, ← List.drop_drop, List.take_append_drop]
        have hop : opcodeAt (bytesSent + fragmentSize) = .continuation := if_pos (by omega)
        rw [hcut]
        rw [hop] at hframes
        exact .more htype (hfin.trans (decide_eq_false hlast)) hencode hframes
      · rw [hstep, hwrite]
        rfl

/-- **A response is fragmented without loss**: what the loop writes are a text frame and
continuations, each with room in the buffer, of which only the last is final and the payloads are
the response.  All are written if no write fails, and no others. -/
theorem writeFragments_lossless {netBufLen : UInt64} (hbuf : 11 ≤ netBufLen.toNat)
    {response : List UInt8} (hne : response ≠ [])
    (hmax : response.length < wsFrameHeaderType3Max.toNat) :
    ∃ frames : List WireFrame,
      frames.map WireFrame.frameType =
        frameText :: List.replicate (frames.length - 1) frameContinuation ∧
      frames.map WireFrame.fin = List.replicate (frames.length - 1) false ++ [true] ∧
      (∀ f ∈ frames, f.encode.length ≤ netBufLen.toNat) ∧
      frames.flatMap WireFrame.payload = response ∧
      (∀ write, (∀ n, write n = esifOk) →
        writeFragments netBufLen write response 0 0 = (esifOk, frames.map WireFrame.encode)) ∧
      ∀ write, (writeFragments netBufLen write response 0 0).2 <+:
        frames.map WireFrame.encode := by
  obtain ⟨frames, hframes, hwrite⟩ :=
    writeFragments_spec hbuf hmax 0 (List.length_pos_of_ne_nil hne)
  refine ⟨frames, hframes.frameType, hframes.fin, hframes.fits, hframes.payload,
    fun write hok => ?_, fun write => ?_⟩
  · rw [hwrite, writeAll_ok hok]
  · rw [hwrite]
    exact writeAll_prefix write 0 _

theorem writeFragments_lossless_elevenBytes :
    ∃ frames : List WireFrame, frames.flatMap WireFrame.payload = List.replicate 20 0x61 ∧
      (∀ f ∈ frames, f.encode.length ≤ 11) ∧
      writeFragments 11 (fun _ => esifOk) (List.replicate 20 0x61) 0 0 =
        (esifOk, frames.map WireFrame.encode) := by
  obtain ⟨frames, _, _, hfits, hpayload, hok, _⟩ :=
    @writeFragments_lossless 11 (by decide) (List.replicate 20 0x61) (by decide) (by decide)
  exact ⟨frames, hpayload, hfits, hok _ fun _ => rfl⟩

end Ws

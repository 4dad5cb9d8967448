import Dptf.Ws.ClientLoop
import Mathlib.Logic.Relation

/-!
# The client's blocking sends

`IpcSession_SendMsg` and `IpcSession_PongResponse` send a frame with as many calls of `send`
as it takes.  Each keeps the bytes that are left in one variable and the place to go on from
in another, which holds what the last call took and not what all of them took.

* `sendsWhole_iff` — **when the frame arrives as it is**.
-/

open Lib Relation

namespace Ws

/-! ## The socket -/

/-- `INT_MAX`. -/
def intMax : Nat := 0x7FFFFFFF

/-- A `size_t` converted to `int`. -/
def asInt (n : Nat) : Int :=
  if n % 2 ^ 32 < 2 ^ 31 then (n % 2 ^ 32 : Nat) else (n % 2 ^ 32 : Nat) - 2 ^ 32

theorem asInt_eq {n : Nat} (h : n ≤ intMax) : asInt n = n := by
  simp only [intMax] at h
  simp only [asInt]
  split <;> omega

theorem asInt_le (n : Nat) : asInt n ≤ n := by
  simp only [asInt]
  split <;> omega

theorem asInt_neg {n : Nat} (h : intMax < n) (hn : n < 2 ^ 32) : asInt n < 0 := by
  simp only [intMax] at h
  simp only [asInt]
  split <;> omega

/-- What the calls of `send` answer, by their number and the `int` that is offered: the bytes
that are taken, at least one of those offered, or `none` for a failure. -/
structure Socket where
  send : Nat → Int → Option Nat
  pos : ∀ {made len n}, send made len = some n → 0 < n
  le_offered : ∀ {made len n}, send made len = some n → 0 ≤ len → n ≤ len
  le_intMax : ∀ {made len n}, send made len = some n → n ≤ intMax

/-- The bytes that the socket took from a loop, and whether the last call failed. -/
structure SendRun where
  accepted : List UInt8
  failed : Bool
deriving DecidableEq, Repr

/-! ## The loops -/

/-- The `while` of `IpcSession_SendMsg`. -/
def sendWhile (s : Socket) (frameBuf : List UInt8) (made bytesSent frameLen : Nat) : SendRun :=
  match _h : s.send made (asInt frameLen) with
  | none => ⟨[], true⟩
  | some sent =>
    let bytes := (frameBuf.drop bytesSent).take sent
    if (sent : Int) < asInt frameLen then
      let rest := sendWhile s frameBuf (made + 1) sent (frameLen - sent)
      ⟨bytes ++ rest.accepted, rest.failed⟩
    else ⟨bytes, false⟩
termination_by frameLen
decreasing_by
  have hpos := s.pos _h
  have hle := asInt_le frameLen
  omega

/-- The `do … while` of `IpcSession_PongResponse`, behind the subtraction. -/
def pongWhile (s : Socket) (pongBuffer : List UInt8) (made bytesSent bytesRemaining : Nat) :
    SendRun :=
  match _h : s.send made (asInt bytesRemaining) with
  | none => ⟨[], true⟩
  | some sent =>
    let bytes := (pongBuffer.drop bytesSent).take sent
    if sent < bytesRemaining then
      let rest := pongWhile s pongBuffer (made + 1) sent (bytesRemaining - sent)
      ⟨bytes ++ rest.accepted, rest.failed⟩
    else ⟨bytes, false⟩
termination_by bytesRemaining
decreasing_by
  have hpos := s.pos _h
  omega

/-- `IpcSession_SendMsg`, under a random mask key. -/
def ipcSessionSendMsg (malloc : Nat → Bool) (s : Socket) (maskKey : UInt32)
    (message : List UInt8) : EsifError × SendRun :=
  match sendMsgFrame maskKey message with
  | .error rc => (rc, ⟨[], false⟩)
  | .ok frameBuf =>
    if malloc frameBuf.length then (esifOk, sendWhile s frameBuf 0 0 frameBuf.length)
    else (esifENoMemory, ⟨[], false⟩)

/-- `IpcSession_PongResponse`.  A socket takes at least a byte, so `ESIF_E_WS_DISC` is not
returned. -/
def ipcSessionPongResponse (s : Socket) (message : List UInt8) : EsifError × SendRun :=
  if wsFrameHeaderType1Max.toNat < message.length then
    (esifEParameterIsOutOfBounds, ⟨[], false⟩)
  else
    let pongBuffer := IoWorker.pongResponse message
    let sends := pongWhile s pongBuffer 0 0 pongBuffer.length
    (if sends.failed then esifEWsSocketError else esifOk, sends)

section Loop

variable {s : Socket} {frame : List UInt8} {made bytesSent left : Nat}

theorem sendWhile_none (h : s.send made (asInt left) = none) :
    sendWhile s frame made bytesSent left = ⟨[], true⟩ := by
  rw [sendWhile]
  split
  · rfl
  · rename_i hs
    cases h.symm.trans hs

theorem sendWhile_some {sent : Nat} (h : s.send made (asInt left) = some sent) :
    sendWhile s frame made bytesSent left = if (sent : Int) < asInt left then
        let rest := sendWhile s frame (made + 1) sent (left - sent)
        ⟨(frame.drop bytesSent).take sent ++ rest.accepted, rest.failed⟩
      else ⟨(frame.drop bytesSent).take sent, false⟩ := by
  rw [sendWhile]
  split
  · rename_i hs
    cases h.symm.trans hs
  · rename_i sent' hs
    cases h.symm.trans hs
    rfl

/-- Where the length is an `int`, the two loops are one. -/
theorem pongWhile_eq (hleft : left ≤ intMax) :
    pongWhile s frame made bytesSent left = sendWhile s frame made bytesSent left := by
  induction left using Nat.strong_induction_on generalizing made bytesSent with
  | _ left ih =>
    rw [pongWhile]
    split
    · rename_i hs
      rw [sendWhile_none hs]
    · rename_i sent hs
      rw [sendWhile_some hs]
      have hpos := s.pos hs
      simp only [asInt_eq hleft, Int.ofNat_lt]
      split
      · rename_i hlt
        rw [ih (left - sent) (by omega) (by omega)]
      · rfl

end Loop

/-! ## The calls that are due -/

/-- A frame while it is sent: the calls made, the bytes that they took, and how many of these
the last one took. -/
structure Sending where
  made : Nat
  taken : Nat
  last : Nat
deriving DecidableEq, Repr

/-- Behind a call that took some bytes. -/
def Sending.after (x : Sending) (sent : Nat) : Sending := ⟨x.made + 1, x.taken + sent, sent⟩

/-- The next call on a frame of some length takes some bytes. -/
inductive Sent (s : Socket) (total : Nat) : Sending → Sending → Prop
  | took {x : Sending} {sent : Nat} (hx : x.taken < total)
      (h : s.send x.made (total - x.taken : Nat) = some sent) : Sent s total x (x.after sent)

/-- No call that is due fails. -/
def NoFailure (s : Socket) (total : Nat) (x : Sending) : Prop :=
  ∀ y, ReflTransGen (Sent s total) x y → y.taken < total →
    s.send y.made (total - y.taken : Nat) ≠ none

/-- Each call finds, where the result of the last one points to, the bytes that are due. -/
def InStep (s : Socket) (frame : List UInt8) (x : Sending) : Prop :=
  ∀ y sent, ReflTransGen (Sent s frame.length) x y → y.taken < frame.length →
    s.send y.made (frame.length - y.taken : Nat) = some sent →
    (frame.drop y.last).take sent = (frame.drop y.taken).take sent

section Due

variable {s : Socket} {frame : List UInt8} {total sent : Nat} {x : Sending}

/-- What is due from a state on is the next call, and what is due behind it. -/
theorem sent_iff_of_some (hx : x.taken < total)
    (h : s.send x.made (total - x.taken : Nat) = some sent) (y : Sending) :
    ReflTransGen (Sent s total) x y ↔ y = x ∨ ReflTransGen (Sent s total) (x.after sent) y := by
  rw [ReflTransGen.cases_head_iff]
  constructor
  · rintro (rfl | ⟨z, ⟨_, hz⟩, hzy⟩)
    · exact .inl rfl
    · cases h.symm.trans hz
      exact .inr hzy
  · rintro (rfl | hy)
    · exact .inl rfl
    · exact .inr ⟨_, .took hx h, hy⟩

theorem sent_iff_of_none (h : s.send x.made (total - x.taken : Nat) = none) (y : Sending) :
    ReflTransGen (Sent s total) x y ↔ y = x := by
  rw [ReflTransGen.cases_head_iff]
  constructor
  · rintro (rfl | ⟨z, ⟨_, hz⟩, _⟩)
    · rfl
    · cases h.symm.trans hz
  · rintro rfl
    exact .inl rfl

theorem sent_iff_of_all (hx : total ≤ x.taken) (y : Sending) :
    ReflTransGen (Sent s total) x y ↔ y = x := by
  rw [ReflTransGen.cases_head_iff]
  constructor
  · rintro (rfl | ⟨z, ⟨hlt, _⟩, _⟩)
    · rfl
    · omega
  · rintro rfl
    exact .inl rfl

theorem noFailure_iff_of_some (hx : x.taken < total)
    (h : s.send x.made (total - x.taken : Nat) = some sent) :
    NoFailure s total x ↔ NoFailure s total (x.after sent) := by
  simp only [NoFailure, sent_iff_of_some hx h, forall_eq_or_imp, and_iff_right_iff_imp]
  intro _ _ hnone
  cases h.symm.trans hnone

theorem inStep_iff_of_some (hx : x.taken < frame.length)
    (h : s.send x.made (frame.length - x.taken : Nat) = some sent) :
    InStep s frame x ↔ (frame.drop x.last).take sent = (frame.drop x.taken).take sent ∧
        InStep s frame (x.after sent) := by
  constructor
  · intro hin
    refine ⟨hin x sent .refl hx h, fun y sent' hy => hin y sent' ?_⟩
    exact (sent_iff_of_some hx h y).mpr (.inr hy)
  · rintro ⟨hfirst, hrest⟩ y sent' hy hlt hsent
    rcases (sent_iff_of_some hx h y).mp hy with rfl | hy
    · cases h.symm.trans hsent
      exact hfirst
    · exact hrest y sent' hy hlt hsent

theorem not_noFailure_of_none (hx : x.taken < total)
    (h : s.send x.made (total - x.taken : Nat) = none) : ¬ NoFailure s total x :=
  fun hno => hno x .refl hx h

theorem noFailure_of_all (hx : total ≤ x.taken) : NoFailure s total x := by
  intro y hy hlt
  rw [(sent_iff_of_all hx y).mp hy] at hlt
  omega

theorem inStep_of_none (h : s.send x.made (frame.length - x.taken : Nat) = none) :
    InStep s frame x := by
  intro y sent hy hlt hsent
  rw [(sent_iff_of_none h y).mp hy] at hsent
  cases h.symm.trans hsent

theorem inStep_of_all (hx : frame.length ≤ x.taken) : InStep s frame x := by
  intro y sent hy hlt
  rw [(sent_iff_of_all hx y).mp hy] at hlt
  omega

end Due

/-! ## What the loop gives to the socket -/

section Given

variable {s : Socket} {frame : List UInt8}

/-- A call takes as many bytes from where it points as it answers. -/
theorem length_take_drop {last taken sent : Nat} (hlast : last ≤ taken)
    (hsent : sent ≤ frame.length - taken) : ((frame.drop last).take sent).length = sent := by
  rw [List.length_take, List.length_drop]
  omega

/-- Two slices, then two rests: a prefix of a list is taken apart behind its first part. -/
theorem append_prefix_drop_iff {part rest : List UInt8} {taken sent : Nat}
    (hpart : part.length = sent) (hsent : sent ≤ frame.length - taken) :
    part ++ rest <+: frame.drop taken ↔
      part = (frame.drop taken).take sent ∧ rest <+: frame.drop (taken + sent) := by
  have hlen : ((frame.drop taken).take sent).length = part.length := by
    rw [hpart, length_take_drop (Nat.le_refl _) hsent]
  have hcut : frame.drop taken = (frame.drop taken).take sent ++ frame.drop (taken + sent) := by
    rw [← List.drop_drop, List.take_append_drop]
  constructor
  · rintro ⟨behind, h⟩
    rw [hcut, List.append_assoc] at h
    obtain ⟨hp, hr⟩ := List.append_inj h hlen.symm
    exact ⟨hp, behind, hr⟩
  · rintro ⟨hp, behind, hr⟩
    exact ⟨behind, by rw [hcut, List.append_assoc, hr, ← hp]⟩

/-- **What the loop does from any of its turns on.**  The induction is on the bytes left. -/
theorem sendWhile_spec (left : Nat) (x : Sending) (hx : x.last ≤ x.taken)
    (hleft : x.taken + left = frame.length) (hpos : 0 < left) (hmax : left ≤ intMax) :
    let sends := sendWhile s frame x.made x.last left
    (sends.accepted <+: frame.drop x.taken ↔ InStep s frame x) ∧
      (sends.failed = false ↔ NoFailure s frame.length x) ∧
      (sends.failed = false → sends.accepted.length = left) ∧
      (sends.failed = true → sends.accepted.length < left) := by
  induction left using Nat.strong_induction_on generalizing x with
  | _ left ih =>
    have hlt : x.taken < frame.length := by omega
    have hoffer : asInt left = ((frame.length - x.taken : Nat) : Int) := by
      rw [asInt_eq hmax]
      omega
    cases hs : s.send x.made ((frame.length - x.taken : Nat) : Int) with
    | none =>
      have hnot := not_noFailure_of_none hlt hs
      rw [sendWhile_none (by rw [hoffer, hs])]
      exact ⟨by simp [inStep_of_none hs], by simp [hnot], by simp, by simpa using hpos⟩
    | some sent =>
      have hsent0 := s.pos hs
      have hsent := s.le_offered hs (by omega)
      rw [sendWhile_some (by rw [hoffer, hs]), asInt_eq hmax]
      have hbytes : ((frame.drop x.last).take sent).length = sent := length_take_drop hx (by omega)
      by_cases hpart : (sent : Int) < left
      · obtain ⟨hin, hno, hall, hsome⟩ := ih (left - sent) (by omega) (x.after sent)
          (by simp only [Sending.after]; omega) (by simp only [Sending.after]; omega)
          (by omega) (by omega)
        simp only [Sending.after] at hin hno hall hsome
        simp only [if_pos hpart]
        refine ⟨?_, ?_, ?_, ?_⟩
        · rw [append_prefix_drop_iff hbytes (by omega), inStep_iff_of_some hlt hs, hin]
          rfl
        · rw [noFailure_iff_of_some hlt hs, hno]
          rfl
        · intro hfailed
          rw [List.length_append, hbytes, hall hfailed]
          omega
        · intro hfailed
          have := hsome hfailed
          rw [List.length_append, hbytes]
          omega
      · obtain rfl : sent = left := by omega
        have hdone : frame.length ≤ (x.after sent).taken := by
          simp only [Sending.after]
          omega
        simp only [if_neg hpart]
        refine ⟨?_, ?_, fun _ => hbytes, by simp⟩
        · rw [inStep_iff_of_some hlt hs, and_iff_left (inStep_of_all hdone),
            ← List.append_nil ((frame.drop x.last).take sent),
            append_prefix_drop_iff hbytes (by omega)]
          simp
        · rw [noFailure_iff_of_some hlt hs]
          simp [noFailure_of_all hdone]

/-- A frame that an `int` does not hold is not sent on behind the first call, which takes less. -/
theorem sendWhile_of_intMax_lt (hlong : intMax < frame.length) (hlen : frame.length < 2 ^ 32) :
    (sendWhile s frame 0 0 frame.length).accepted ≠ frame := by
  intro hall
  have hneg := asInt_neg hlong hlen
  have hlength := congrArg List.length hall
  cases hs : s.send 0 (asInt frame.length) with
  | none =>
    rw [sendWhile_none hs] at hlength
    simp only [List.length_nil] at hlength
    omega
  | some sent =>
    have hsent := s.le_intMax hs
    rw [sendWhile_some hs, if_neg (by omega)] at hlength
    simp only [List.drop_zero, List.length_take] at hlength
    omega

end Given

/-! ## When the frame arrives -/

/-- Before the first call. -/
def Sending.start : Sending := ⟨0, 0, 0⟩

/-- The socket took the start of the frame, all of it if no call failed, and `ESIF_OK` says that
it took all of it. -/
structure SendsWhole (frame : List UInt8) (rc : EsifError) (sends : SendRun) : Prop where
  isPrefix : sends.accepted <+: frame
  whole : sends.failed = false → sends.accepted = frame
  ok : rc = esifOk → sends.accepted = frame

section Arrives

variable {s : Socket} {frame : List UInt8}

/-- `sendWhile_spec`, from the first call on. -/
theorem sendWhile_start (hpos : 0 < frame.length) (hmax : frame.length ≤ intMax) :
    let sends := sendWhile s frame 0 0 frame.length
    (sends.accepted <+: frame ↔ InStep s frame .start) ∧
      (sends.failed = false ↔ NoFailure s frame.length .start) ∧
      (sends.failed = false → sends.accepted.length = frame.length) ∧
      (sends.failed = true → sends.accepted.length < frame.length) :=
  sendWhile_spec frame.length .start (Nat.le_refl _) (Nat.zero_add _) hpos hmax

/-- The loop gives the whole frame to the socket if no call fails and each finds its bytes. -/
theorem sendWhile_eq_iff (hpos : 0 < frame.length) (hmax : frame.length ≤ intMax) :
    (sendWhile s frame 0 0 frame.length).accepted = frame ↔
      NoFailure s frame.length .start ∧ InStep s frame .start := by
  obtain ⟨hin, hno, hall, hsome⟩ := sendWhile_start (s := s) hpos hmax
  constructor
  · intro heq
    have hfailed : (sendWhile s frame 0 0 frame.length).failed = false := by
      by_contra hfailed
      have := hsome (by simpa using hfailed)
      rw [heq] at this
      exact Nat.lt_irrefl _ this
    exact ⟨hno.mp hfailed, hin.mp ⟨[], by rw [List.append_nil, heq]⟩⟩
  · rintro ⟨hn, hi⟩
    exact (hin.mpr hi).eq_of_length (hall (hno.mpr hn))

/-- With `ESIF_OK` whatever the calls answer. -/
theorem sendsWhole_ok_iff (hpos : 0 < frame.length) (hlen : frame.length < 2 ^ 32) :
    SendsWhole frame esifOk (sendWhile s frame 0 0 frame.length) ↔
      frame.length ≤ intMax ∧ NoFailure s frame.length .start ∧ InStep s frame .start := by
  constructor
  · intro h
    have hmax : frame.length ≤ intMax := by
      by_contra hlong
      exact sendWhile_of_intMax_lt (by omega) hlen (h.ok rfl)
    exact ⟨hmax, (sendWhile_eq_iff hpos hmax).mp (h.ok rfl)⟩
  · rintro ⟨hmax, hdue⟩
    have heq := (sendWhile_eq_iff hpos hmax).mpr hdue
    exact ⟨⟨[], by rw [List.append_nil, heq]⟩, fun _ => heq, fun _ => heq⟩

/-- With `ESIF_OK` if no call failed. -/
theorem sendsWhole_rc_iff (hpos : 0 < frame.length) (hmax : frame.length ≤ intMax) :
    let sends := sendWhile s frame 0 0 frame.length
    SendsWhole frame (if sends.failed then esifEWsSocketError else esifOk) sends ↔
      InStep s frame .start := by
  intro sends
  obtain ⟨hin, hno, _, _⟩ := sendWhile_start (s := s) hpos hmax
  constructor
  · exact fun h => hin.mp h.isPrefix
  · intro hi
    have hwhole (hfailed : sends.failed = false) : sends.accepted = frame :=
      (sendWhile_eq_iff hpos hmax).mpr ⟨hno.mp hfailed, hi⟩
    refine ⟨hin.mpr hi, hwhole, fun hok => hwhole ?_⟩
    by_contra hfailed
    rw [if_pos (by simpa using hfailed)] at hok
    exact absurd hok (by decide)

end Arrives

/-- A frame of `IpcSession_SendMsg` is longer than its message by a header. -/
theorem sendMsgFrame_bounds {maskKey : UInt32} {message frame : List UInt8}
    (h : sendMsgFrame maskKey message = .ok frame) : 0 < frame.length ∧ frame.length < 2 ^ 32 := by
  have hne : message ≠ [] := by
    rintro rfl
    simp [sendMsgFrame] at h
  have hle : message.length ≤ wsFrameHeaderType3Max.toNat := by
    by_contra hlong
    have h1 : wsFrameHeaderType1Max.toNat ≤ wsFrameHeaderType3Max.toNat := by decide
    have h2 : wsFrameHeaderType2Max.toNat ≤ wsFrameHeaderType3Max.toNat := by decide
    unfold sendMsgFrame at h
    dsimp only at h
    rw [if_neg hne, if_neg (by omega), if_neg (by omega), if_neg hlong] at h
    cases h
  rw [sendMsgFrame_eq maskKey hne hle, Except.ok.injEq] at h
  have hhead := WireFrame.length_header_le (.compact .binary true (some maskKey) message hle)
  have htwo := WireFrame.two_le_length_header (.compact .binary true (some maskKey) message hle)
  have hmax : wsFrameHeaderType3Max.toNat = 0x7FFFFFFE := by decide
  rw [← h, WireFrame.length_encode]
  simp only [WireFrame.compact] at hhead htwo ⊢
  omega

theorem length_pongResponse (message : List UInt8) :
    (IoWorker.pongResponse message).length = message.length + 2 := by
  simp [IoWorker.pongResponse, WsSocketFrameHeader.bytes]

/-- **When a frame arrives as it is**: an `int` must hold the length of a message's frame and no
call for it may fail; for both, each call must find, where the last result points to, the bytes
that are due. -/
theorem sendsWhole_iff (s : Socket) :
    (∀ malloc maskKey message frame, sendMsgFrame maskKey message = .ok frame →
      malloc frame.length = true →
      (SendsWhole frame (ipcSessionSendMsg malloc s maskKey message).1
          (ipcSessionSendMsg malloc s maskKey message).2 ↔
        frame.length ≤ intMax ∧ NoFailure s frame.length .start ∧ InStep s frame .start)) ∧
    ∀ message, message.length ≤ wsFrameHeaderType1Max.toNat →
      (SendsWhole (IoWorker.pongResponse message) (ipcSessionPongResponse s message).1
          (ipcSessionPongResponse s message).2 ↔
        InStep s (IoWorker.pongResponse message) .start) := by
  constructor
  · intro malloc maskKey message frame hframe hmem
    obtain ⟨hpos, hlen⟩ := sendMsgFrame_bounds hframe
    simp only [ipcSessionSendMsg, hframe, hmem, if_true]
    exact sendsWhole_ok_iff hpos hlen
  · intro message hmessage
    have hlength := length_pongResponse message
    have h1 : wsFrameHeaderType1Max.toNat = 125 := by decide
    have hmax : (IoWorker.pongResponse message).length ≤ intMax := by
      simp only [intMax]
      omega
    simp only [ipcSessionPongResponse, if_neg (Nat.not_lt.mpr hmessage), pongWhile_eq hmax]
    exact sendsWhole_rc_iff (by omega) hmax

/-- A socket that takes all that it is offered. -/
def wholeSocket : Socket where
  send _ len := if 0 < len ∧ len ≤ intMax then some len.toNat else none
  pos h := by
    obtain ⟨hlen, ⟨⟩⟩ := Option.ite_none_right_eq_some.mp h
    omega
  le_offered h _ := by
    obtain ⟨hlen, ⟨⟩⟩ := Option.ite_none_right_eq_some.mp h
    omega
  le_intMax h := by
    obtain ⟨hlen, ⟨⟩⟩ := Option.ite_none_right_eq_some.mp h
    omega

/-- What arrives in one call arrives as it is. -/
theorem wholeSocket_inStep (frame : List UInt8) (hpos : 0 < frame.length)
    (hmax : frame.length ≤ intMax) :
    NoFailure wholeSocket frame.length .start ∧ InStep wholeSocket frame .start := by
  have hsend : wholeSocket.send Sending.start.made
      ((frame.length - Sending.start.taken : Nat) : Int) = some frame.length := by
    simp only [wholeSocket, Sending.start, Nat.sub_zero]
    rw [if_pos (by omega)]
    rfl
  have hall : frame.length ≤ (Sending.start.after frame.length).taken := Nat.le_add_left _ _
  exact ⟨(noFailure_iff_of_some hpos hsend).mpr (noFailure_of_all hall),
    (inStep_iff_of_some hpos hsend).mpr ⟨rfl, inStep_of_all hall⟩⟩

theorem sendsWhole_wholeSocket :
    SendsWhole [0x82, 0x81, 0, 0, 0, 0, 0x68]
        (ipcSessionSendMsg (fun _ => true) wholeSocket 0 [0x68]).1
        (ipcSessionSendMsg (fun _ => true) wholeSocket 0 [0x68]).2 ∧
      SendsWhole (IoWorker.pongResponse [0x68]) (ipcSessionPongResponse wholeSocket [0x68]).1
        (ipcSessionPongResponse wholeSocket [0x68]).2 := by
  have hpong := wholeSocket_inStep (IoWorker.pongResponse [0x68]) (by decide) (by decide)
  exact ⟨((sendsWhole_iff wholeSocket).1 _ _ _ _ rfl rfl).mpr
      ⟨by decide, wholeSocket_inStep _ (by decide) (by decide)⟩,
    ((sendsWhole_iff wholeSocket).2 _ (by decide)).mpr hpong.2⟩

/-- A socket that takes a byte at a time. -/
def byteSocket : Socket where
  send _ len := if 0 < len then some 1 else none
  pos h := by
    obtain ⟨_, ⟨⟩⟩ := Option.ite_none_right_eq_some.mp h
    decide
  le_offered h _ := by
    obtain ⟨hlen, ⟨⟩⟩ := Option.ite_none_right_eq_some.mp h
    omega
  le_intMax h := by
    obtain ⟨_, ⟨⟩⟩ := Option.ite_none_right_eq_some.mp h
    decide

theorem byteSocket_sendWhile (frame : List UInt8) (made last left : Nat) (h : left < 100) :
    sendWhile byteSocket frame made last (left + 1) = if 0 < left then
        let rest := sendWhile byteSocket frame (made + 1) 1 left
        ⟨(frame.drop last).take 1 ++ rest.accepted, rest.failed⟩
      else ⟨(frame.drop last).take 1, false⟩ := by
  have hmax : asInt (left + 1) = (left + 1 : Nat) := asInt_eq (by simp only [intMax]; omega)
  have hsend : byteSocket.send made (asInt (left + 1)) = some 1 := by
    rw [hmax]
    exact if_pos (by omega)
  rw [sendWhile_some hsend, hmax]
  simp only [Nat.add_sub_cancel]
  congr 1
  simp

/-- Behind the second call, the second byte goes out over and over. -/
theorem byteSocket_not_sendsWhole :
    ¬ SendsWhole [0x82, 0x81, 0, 0, 0, 0, 0x68]
        (ipcSessionSendMsg (fun _ => true) byteSocket 0 [0x68]).1
        (ipcSessionSendMsg (fun _ => true) byteSocket 0 [0x68]).2 ∧
      ¬ SendsWhole (IoWorker.pongResponse [0x68]) (ipcSessionPongResponse byteSocket [0x68]).1
        (ipcSessionPongResponse byteSocket [0x68]).2 := by
  have hframe : sendMsgFrame 0 [0x68] = .ok [0x82, 0x81, 0, 0, 0, 0, 0x68] := rfl
  constructor
  · intro h
    have hsent : (ipcSessionSendMsg (fun _ => true) byteSocket 0 [0x68]).2.accepted =
        [0x82, 0x81, 0x81, 0x81, 0x81, 0x81, 0x81] := by
      simp [ipcSessionSendMsg, hframe, byteSocket_sendWhile]
    have := h.isPrefix
    rw [hsent] at this
    revert this
    decide
  · intro h
    have hsent : (ipcSessionPongResponse byteSocket [0x68]).2.accepted = [0x8A, 0x01, 0x01] := by
      have hpong : IoWorker.pongResponse [0x68] = [0x8A, 0x01, 0x68] := by decide
      have h1 : wsFrameHeaderType1Max.toNat = 125 := by decide
      have hloop : pongWhile byteSocket [0x8A, 0x01, 0x68] 0 0 3 =
          sendWhile byteSocket [0x8A, 0x01, 0x68] 0 0 3 := pongWhile_eq (by decide)
      simp [ipcSessionPongResponse, hpong, h1, hloop, byteSocket_sendWhile]
    have := h.isPrefix
    rw [hsent] at this
    revert this
    decide

end Ws

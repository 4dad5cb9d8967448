import Dptf.Ws.ClientSend

/-!
# Buffered writes to a client

`WebClient_Write` sends what is pending from earlier calls, sends its buffer if nothing is
pending any more, and keeps what the socket did not take.  The server of the framework and
the one of the shell have it in the same words.

* `SendClient.Holds` — **the stream**: what was taken and what is pending are all that was written.
* `run_writeStep_stream` — over any calls that succeed.
-/

open Lib

namespace Ws

/-! ## The call -/

/-- `send_flags`. -/
inductive SendFlags
  | wsSendFlags
  | wsNonblockingFlags
deriving DecidableEq, Repr

/-- What `send` returns, with `esif_ccb_socket_error` behind a `SOCKET_ERROR`. -/
inductive SendRet
  | took (bytes : Nat)
  | socketError (wouldBlock : Bool)
deriving DecidableEq, Repr

/-- What a call of `WebClient_Write` meets: the answers of its first and its second `send`, for
flags and the `int` that is offered, and whether memory is to be had. -/
structure WriteSocket where
  send : Bool → SendFlags → Int → SendRet
  realloc : Nat → Bool
  le_offered : ∀ {pending flags len n}, send pending flags len = .took n → 0 ≤ len → n ≤ len
  le_intMax : ∀ {pending flags len n}, send pending flags len = .took n → n ≤ intMax

/-- No more is taken than the buffer has, also where its length is no `int`. -/
theorem WriteSocket.le_length (env : WriteSocket) {pending : Bool} {flags : SendFlags}
    {length n : Nat} (h : env.send pending flags (asInt length) = .took n) : n ≤ length := by
  by_cases hlen : 0 ≤ asInt length
  · have hle := env.le_offered h hlen
    have := asInt_le length
    omega
  · have hle := env.le_intMax h
    by_contra hlt
    exact hlen (by rw [asInt_eq (by omega)]; omega)

/-- The fields of `WebClient` that writing uses, and all that its socket took. -/
structure SendClient where
  /-- `socket` is not `INVALID_SOCKET`. -/
  hasSocket : Bool
  isWebsocket : Bool
  sendBuf : Option (List UInt8)
  accepted : List UInt8
deriving DecidableEq, Repr

/-- `WS_MAX_CLIENT_SENDBUF`. -/
def wsMaxClientSendbuf : Nat := 8 * 1024 * 1024

namespace SendClient

variable {c : SendClient} {written : List UInt8} {buffer : Option (List UInt8)}

/-- A client whose connection was accepted. -/
def opened (isWebsocket : Bool) : SendClient := ⟨true, isWebsocket, none, []⟩

/-- `WebClient_Close`. -/
def close (c : SendClient) : SendClient := ⟨false, false, none, c.accepted⟩

/-- `sendBuf`, up to `sendBufLen`. -/
def pending (c : SendClient) : List UInt8 := c.sendBuf.getD []

/-- What is in the send buffer is sent first. -/
def flush (env : WriteSocket) (c : SendClient) : SendRet × SendClient :=
  match c.sendBuf with
  | none => (.took 0, c)
  | some sendBuf =>
    if 0 < sendBuf.length then
      match env.send true .wsNonblockingFlags (asInt sendBuf.length) with
      | .socketError wouldBlock => (.socketError wouldBlock, c)
      | .took ret =>
        if ret = asInt sendBuf.length then
          (.took 0, { c with sendBuf := none, accepted := c.accepted ++ sendBuf.take ret })
        else if 0 < ret then
          (.took 0, { c with
            sendBuf := some (sendBuf.drop ret), accepted := c.accepted ++ sendBuf.take ret })
        else (.took 0, c)
    else (.took 0, c)

/-- The buffer is sent if the send buffer is clear. -/
def sendNow (env : WriteSocket) (buffer : Option (List UInt8)) (ret : SendRet)
    (c : SendClient) : SendRet × SendClient :=
  match c.sendBuf, buffer with
  | none, some bytes =>
    if 0 < bytes.length then
      let flags := if c.isWebsocket then .wsNonblockingFlags else .wsSendFlags
      match env.send false flags (asInt bytes.length) with
      | .socketError wouldBlock => (.socketError wouldBlock, c)
      | .took sent => (.took sent, { c with accepted := c.accepted ++ bytes.take sent })
    else (ret, c)
  | _, _ => (ret, c)

/-- What was not sent is put behind the send buffer.  The sizes are those of two blocks of
memory, so that their sum does not wrap. -/
def append (env : WriteSocket) (buffer : Option (List UInt8)) (sent : Nat)
    (c : SendClient) : EsifError × SendClient :=
  match buffer with
  | none => (esifOk, c)
  | some bytes =>
    if sent = bytes.length then (esifOk, c)
    else
      let newBufLen := c.pending.length + bytes.length - sent
      if newBufLen ≤ wsMaxClientSendbuf ∧ env.realloc newBufLen then
        (esifOk, { c with sendBuf := some (c.pending ++ bytes.drop sent) })
      else (esifENoMemory, c.close)

/-- `WebClient_Write`. -/
def write (env : WriteSocket) (c : SendClient) (buffer : Option (List UInt8)) :
    EsifError × SendClient :=
  if c.hasSocket then
    let flushed := c.flush env
    let sent := flushed.2.sendNow env buffer flushed.1
    match sent.1 with
    | .took ret => sent.2.append env buffer ret
    | .socketError true => sent.2.append env buffer 0
    | .socketError false => (esifEWsSocketError, sent.2.close)
  else (esifEParameterIsNull, c)

/-! ## One stream -/

/-- What the socket took and what is pending are these bytes.  The send buffer stays small enough
for an `int`. -/
structure Holds (c : SendClient) (written : List UInt8) : Prop where
  stream : c.accepted ++ c.pending = written
  small : c.pending.length ≤ wsMaxClientSendbuf

/-- **A flush moves bytes from the send buffer to the socket.**  Where a byte may be written
directly, none is pending. -/
theorem flush_holds (env : WriteSocket) (h : c.Holds written) : (c.flush env).2.Holds written ∧
      (∀ n, (c.flush env).1 = .took n → n = 0) := by
  have hc : c.pending.length ≤ intMax := Nat.le_trans h.small (by decide)
  unfold flush
  cases hbuf : c.sendBuf with
  | none => exact ⟨h, by rintro n ⟨⟩; rfl⟩
  | some sendBuf =>
    have hpending : c.pending = sendBuf := by simp [pending, hbuf]
    rw [hpending] at hc
    have hstream := h.stream
    have hsmall := h.small
    rw [hpending] at hstream hsmall
    dsimp only
    split
    · cases hsend : env.send true .wsNonblockingFlags (asInt sendBuf.length) with
      | socketError wouldBlock => exact ⟨h, by rintro n ⟨⟩⟩
      | took ret =>
        dsimp only
        split
        · rename_i hall
          obtain rfl : ret = sendBuf.length := by
            rw [asInt_eq hc] at hall
            omega
          refine ⟨⟨?_, Nat.zero_le _⟩, by rintro n ⟨⟩; rfl⟩
          simpa [pending] using hstream
        · split
          · refine ⟨⟨?_, ?_⟩, by rintro n ⟨⟩; rfl⟩
            · simpa [pending] using hstream
            · simp only [pending, Option.getD_some, List.length_drop]
              omega
          · exact ⟨h, by rintro n ⟨⟩; rfl⟩
    · exact ⟨h, by rintro n ⟨⟩; rfl⟩

/-- The bytes of a call. -/
def bytesOf (buffer : Option (List UInt8)) : List UInt8 := buffer.getD []

/-- **A send takes bytes of the buffer only when none is pending.** -/
theorem sendNow_holds (env : WriteSocket) {buffer : Option (List UInt8)} {ret : SendRet}
    {c : SendClient} {written : List UInt8} (h : c.Holds written)
    (hret : ∀ n, ret = .took n → n = 0) :
    (∀ n, (c.sendNow env buffer ret).1 = .took n → n ≤ (bytesOf buffer).length ∧
      (c.sendNow env buffer ret).2.Holds (written ++ (bytesOf buffer).take n) ∧
      (n ≠ 0 → (c.sendNow env buffer ret).2.pending = [])) ∧
    (∀ wouldBlock, (c.sendNow env buffer ret).1 = .socketError wouldBlock →
      (c.sendNow env buffer ret).2.Holds written) := by
  have hkeep : (∀ n, ret = .took n → n ≤ (bytesOf buffer).length ∧
      c.Holds (written ++ (bytesOf buffer).take n) ∧ (n ≠ 0 → c.pending = [])) ∧
      (∀ wouldBlock, ret = .socketError wouldBlock → c.Holds written) := by
    refine ⟨fun n hn => ?_, fun _ _ => h⟩
    obtain rfl := hret n hn
    exact ⟨Nat.zero_le _, by simpa using h, by simp⟩
  unfold sendNow
  cases hbuf : c.sendBuf with
  | some sendBuf => simpa using hkeep
  | none =>
    cases buffer with
    | none => simpa using hkeep
    | some bytes =>
      dsimp only
      split
      · cases hsend : env.send false (if c.isWebsocket then .wsNonblockingFlags else .wsSendFlags)
          (asInt bytes.length) with
        | socketError wouldBlock => exact ⟨by rintro n ⟨⟩, fun _ _ => h⟩
        | took sent =>
          have hpending : c.pending = [] := by simp [pending, hbuf]
          have hstream := h.stream
          rw [hpending, List.append_nil] at hstream
          refine ⟨?_, by rintro wouldBlock ⟨⟩⟩
          rintro n ⟨⟩
          refine ⟨env.le_length hsend, ⟨?_, ?_⟩, fun _ => ?_⟩
          · simp [pending, bytesOf, hstream]
          · simp [pending]
          · simp [pending]
      · exact hkeep

/-- **What was not sent is pending behind what was.** -/
theorem append_holds (env : WriteSocket) {sent : Nat}
    (h : c.Holds (written ++ (bytesOf buffer).take sent)) (hle : sent ≤ (bytesOf buffer).length)
    (hclear : sent ≠ 0 → c.pending = []) (hok : (c.append env buffer sent).1 = esifOk) :
    (c.append env buffer sent).2.Holds (written ++ bytesOf buffer) := by
  cases buffer with
  | none => simpa [append, bytesOf] using h
  | some bytes =>
    simp only [bytesOf, Option.getD_some] at h hle ⊢
    unfold append at hok ⊢
    dsimp only at hok ⊢
    split
    · rename_i hall
      subst hall
      simpa using h
    · rename_i hpart
      rw [if_neg hpart] at hok
      split at hok
      · rename_i hroom
        rw [if_pos hroom]
        have hstream := h.stream
        refine ⟨?_, ?_⟩
        · simp only [pending, Option.getD_some] at hstream ⊢
          rw [← List.append_assoc, hstream, List.append_assoc, List.take_append_drop]
        · have hlen := hroom.1
          simp only [pending, Option.getD_some, List.length_append, List.length_drop] at hlen ⊢
          omega
      · exact absurd hok (by simp [esifENoMemory, esifOk])

/-- **A call that succeeds writes its buffer behind the stream.** -/
theorem write_holds (env : WriteSocket) (h : c.Holds written)
    (hok : (c.write env buffer).1 = esifOk) :
    (c.write env buffer).2.Holds (written ++ bytesOf buffer) := by
  obtain ⟨hflush, hret⟩ := flush_holds env h
  obtain ⟨htook, herror⟩ := @sendNow_holds env buffer _ _ _ hflush hret
  unfold write at hok ⊢
  split at hok
  · rename_i hsocket
    rw [if_pos hsocket]
    dsimp only at hok ⊢
    cases hsent : ((c.flush env).2.sendNow env buffer (c.flush env).1).1 with
    | took n =>
      obtain ⟨hle, hholds, hclear⟩ := htook n hsent
      rw [hsent] at hok
      exact append_holds env hholds hle hclear hok
    | socketError wouldBlock =>
      rw [hsent] at hok
      cases wouldBlock with
      | false => exact absurd hok (by simp [esifEWsSocketError, esifOk])
      | true =>
        exact append_holds env (by simpa using herror true hsent) (Nat.zero_le _) (by simp) hok
  · exact absurd hok (by simp [esifEParameterIsNull, esifOk])

/-- **An error leaves a closed client.** -/
theorem write_error (env : WriteSocket) (c : SendClient) (buffer : Option (List UInt8))
    (herror : (c.write env buffer).1 ≠ esifOk) : (c.write env buffer).2.hasSocket = false := by
  have happend (c : SendClient) (sent : Nat) (h : (c.append env buffer sent).1 ≠ esifOk) :
      (c.append env buffer sent).2.hasSocket = false := by
    unfold append at h ⊢
    split at h
    · exact absurd rfl h
    · dsimp only at h ⊢
      split at h
      · exact absurd rfl h
      · rename_i hpart
        rw [if_neg hpart]
        split at h
        · exact absurd rfl h
        · rename_i hroom
          rw [if_neg hroom]
          rfl
  unfold write at herror ⊢
  split at herror
  · rename_i hsocket
    rw [if_pos hsocket]
    dsimp only at herror ⊢
    cases hsent : ((c.flush env).2.sendNow env buffer (c.flush env).1).1 with
    | took n =>
      rw [hsent] at herror
      exact happend _ n herror
    | socketError wouldBlock =>
      rw [hsent] at herror
      cases wouldBlock with
      | false => rfl
      | true => exact happend _ 0 herror
  · rename_i hsocket
    rw [if_neg hsocket]
    simpa using hsocket

end SendClient

/-! ## Runs -/

/-- A call of `WebClient_Write` with its buffer, which may be `NULL`. -/
structure WriteCall where
  env : WriteSocket
  buffer : Option (List UInt8)

/-- A call that returns `ESIF_OK`. -/
def writeStep (c : SendClient) (call : WriteCall) : Option SendClient :=
  if (c.write call.env call.buffer).1 = esifOk then some (c.write call.env call.buffer).2
  else none

theorem run_writeStep_holds {c c' : SendClient} {calls : List WriteCall} {written : List UInt8}
    (hrun : run writeStep c calls = some c') (h : c.Holds written) :
    c'.Holds (written ++ calls.flatMap fun call => SendClient.bytesOf call.buffer) := by
  induction calls generalizing c written with
  | nil =>
    obtain rfl : c = c' := by simpa using hrun
    simpa using h
  | cons call calls ih =>
    obtain ⟨c₁, hstep, hrest⟩ := run_cons_eq_some hrun
    obtain ⟨hok, ⟨⟩⟩ := Option.ite_none_right_eq_some.mp hstep
    rw [List.flatMap_cons, ← List.append_assoc]
    exact ih hrest (SendClient.write_holds call.env h hok)

/-- **Buffered writes are one stream**: while the calls on a client succeed, the bytes that its
socket took and those that are pending are all buffers one behind the other.  After a call that
fails the client is closed. -/
theorem run_writeStep_stream (isWebsocket : Bool) :
    (∀ calls c, run writeStep (.opened isWebsocket) calls = some c →
      c.accepted ++ c.pending = calls.flatMap fun call => SendClient.bytesOf call.buffer) ∧
    ∀ (c : SendClient) env buffer, (c.write env buffer).1 ≠ esifOk →
      (c.write env buffer).2.hasSocket = false := by
  refine ⟨fun calls c hrun => ?_, fun c env buffer herror => c.write_error env buffer herror⟩
  have hopened : (SendClient.opened isWebsocket).Holds [] := ⟨rfl, Nat.zero_le _⟩
  simpa using (run_writeStep_holds hrun hopened).stream

/-- What the socket below takes. -/
theorem le_of_took {wouldBlock : Bool} {len : Int} {n : Nat}
    (h : (if wouldBlock then SendRet.socketError true
      else if 0 < len then .took 1 else .took 0) = .took n) :
    (0 ≤ len → (n : Int) ≤ len) ∧ n ≤ intMax := by
  split at h
  · cases h
  · split at h
    · cases h
      exact ⟨fun _ => by omega, by decide⟩
    · cases h
      exact ⟨fun hlen => hlen, by decide⟩

/-- A socket that takes a byte, or nothing if it would block. -/
def slowSocket (wouldBlock : Bool) : WriteSocket where
  send _ _ len := if wouldBlock then .socketError true else if 0 < len then .took 1 else .took 0
  realloc _ := true
  le_offered h := (le_of_took h).1
  le_intMax h := (le_of_took h).2

theorem run_writeStep_slowSocket :
    (∃ c, run writeStep (.opened true) [⟨slowSocket false, some [1, 2, 3]⟩,
        ⟨slowSocket true, some [4]⟩, ⟨slowSocket false, none⟩] = some c ∧
      c.accepted = [1, 2] ∧ c.accepted ++ c.pending = [1, 2, 3, 4]) ∧
    ((SendClient.opened true).close.write (slowSocket false) none).2.hasSocket = false :=
  ⟨⟨⟨true, true, some [3, 4], [1, 2]⟩, by decide, rfl,
    (run_writeStep_stream true).1 [⟨slowSocket false, some [1, 2, 3]⟩,
      ⟨slowSocket true, some [4]⟩, ⟨slowSocket false, none⟩] _ (by decide)⟩,
    (run_writeStep_stream true).2 _ _ _ (by decide)⟩

end Ws

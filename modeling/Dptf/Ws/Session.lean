import Dptf.Lib.Stream
import Dptf.Ws.ClientFrame
import Dptf.Ws.EsifMsg

/-!
# What a connection does for its client

The machine of a connection, with what comes out of it: the texts that are
executed, the messages that are processed and the frames that are sent.  Replies are
built in the network buffer, and so is a request that nothing was held for.

`WebServer_WebsocketRequest` means to send a closing frame before it ends a connection.  It
hands to `WebClient_Write` as many bytes as the frame's payload has, and that is empty.  Where
memory is missing for an unfinished frame, or for the text of a message, it hands over none
at all.

* `Session.not_answersWithClose` — **no such turn sends a closing frame**.
-/

open Lib

namespace Ws

/-! ## What comes out -/

/-- What the server does for a client. -/
inductive Output
  /-- `WebServer_WebSocketExecRestCmd` gets a text. -/
  | execRestCmd (text : List UInt8)
  /-- The payload of a binary frame is taken as an `EsifMsg`. -/
  | esifMsg (message : List UInt8)
  /-- `WebClient_Write` gets a frame. -/
  | write (frame : List UInt8)
deriving DecidableEq, Repr

/-- The frame that answers a ping.  Where the request is in the network buffer, the header is
written over it before the payload is copied down. -/
def pongFrame (inNetBuf : Bool) (buffer : List UInt8) (frame : WsFrame) : List UInt8 :=
  let payloadSize := frame.payloadSize.toNat
  let header := builtHeader payloadSize framePong finFinal
  if inNetBuf then
    (copyWithin (overwrite buffer 0 header) header.length frame.headerSize.toNat payloadSize).take
      (header.length + payloadSize)
  else header ++ payloadOf buffer frame

/-- A frame without data. -/
def emptyFrame (frameType : UInt8) : List UInt8 := builtHeader 0 frameType finFinal

/-- `WebClient_Write` is called if a frame with so much data can be built. -/
def sendOutputs (server : Server) (dataLen : UInt64) (frame : List UInt8) : List Output :=
  if buildFrame server.netBufLen dataLen = esifOk then [.write frame] else []

/-- What comes out of `WebServer_WebsocketResponse`.  The frames in which the server of the user
interface sends the result of a command are left out. -/
def responseOutputs (server : Server) (env : Env) (inNetBuf : Bool) (client : WebClient)
    (buffer : List UInt8) (frame : WsFrame) : List Output :=
  if frame.frameType = frameContinuation then []
  else if frame.frameType = frameText then
    match server with
    | .esifWs =>
      let total := blockLen client.fragBuf + frame.payloadSize
      if total < maxWebsocketBuffer && env.alloc (total + 1) then
        [.execRestCmd (client.fragBuf ++ payloadOf buffer frame)]
      else []
    | .ipfSrv => []
  else if frame.frameType = frameBinary then
    match server with
    | .esifWs => []
    | .ipfSrv =>
      let payload := payloadOf buffer frame
      if HasEsifMsgHdr payload then [.esifMsg payload] else []
  else if frame.frameType = frameClosing then sendOutputs server 0 (emptyFrame frameClosing)
  else if frame.frameType = framePing then
    sendOutputs server frame.payloadSize (pongFrame inNetBuf buffer frame)
  else if frame.frameType = framePong then sendOutputs server 0 (emptyFrame frameText)
  else []

/-- What comes out of a turn with a frame. -/
def frameOutputs (server : Server) (env : Env) (inNetBuf : Bool) (client : WebClient)
    (buffer : List UInt8) (bufLen : UInt64) (frame : WsFrame) (allocated : Bool) : List Output :=
  let bytesRemaining := remainingOf bufLen frame
  let buffered :=
    if frame.header.fin = finFragment then bufferFragment env client buffer frame
    else (esifOk, client)
  let frame :=
    if frame.frameType = frameContinuation ∧ frame.header.fin = finFinal then
      { frame with frameType := buffered.2.msgType }
    else frame
  if buffered.1 ≠ esifOk ∨ bytesRemaining ≠ 0 ∧ !allocated ∧ !env.alloc bytesRemaining then
    -- of the closing frame as many bytes are sent as its payload has
    [.write []]
  else if frame.header.fin = finFinal then
    responseOutputs server env inNetBuf buffered.2 buffer frame
  else []

/-- What comes out of a turn. -/
def turnOutputs (server : Server) (env : Env) (inNetBuf : Bool) (client : WebClient)
    (input : Input) (allocated : Bool) : List Output :=
  match getFrame server input.buffer input.bufLen with
  | .error rc => if rc = esifEWsIncomplete then [] else [.write []]
  | .ok (frame, buffer) =>
    frameOutputs server env inNetBuf client buffer input.bufLen frame allocated

/-- What comes out of a request up to its first frame. -/
def requestOutputs (server : Server) (env : Env) (client : WebClient) (r : Recv) : List Output :=
  if r = .disconnected then []
  else if client.holdsFrame then
    if enlarges env client r ∧ (combinedInput client r).bufLen ≠ 0 then
      turnOutputs server env false { client with recvBuf := [] } (combinedInput client r) false
    else []
  else if (receivedInput r).bufLen ≠ 0 then
    turnOutputs server env true client (receivedInput r) false
  else []

/-! ## The machine -/

/-- A connection, whether what it parses is in the network buffer, and what came out. -/
structure Session where
  conn : Conn
  inNetBuf : Bool
  outputs : List Output
deriving DecidableEq, Repr

/-- A step, with what comes out. -/
def sessionStep (server : Server) (s : Session) : Event → Option Session
  | .recv r env =>
    (step server s.conn (.recv r env)).map fun conn =>
      { conn
        inNetBuf := !s.conn.client.holdsFrame
        outputs := s.outputs ++ requestOutputs server env s.conn.client r }
  | .reparse env =>
    s.conn.bufferRemaining.map fun buffer =>
      let input := remainingInput buffer
      { s with
        conn := (nextFrame server env s.conn.client input true).1
        outputs := s.outputs ++ turnOutputs server env s.inNetBuf s.conn.client input true }

/-- The loop takes the frames behind the first one, `fuel` at most. -/
def drain (server : Server) (env : Env) : Nat → Session → Option Session
  | 0, s => if s.conn.bufferRemaining = none then some s else none
  | fuel + 1, s =>
    if s.conn.bufferRemaining = none then some s
    else (sessionStep server s (.reparse env)).bind (drain server env fuel)

/-- `WebServer_ProcessRequest` for the bytes that `recv` gives. -/
def serve (server : Server) (env : Env) (fuel : Nat) (s : Session) (bytes : List UInt8) :
    Option Session :=
  (sessionStep server s (.recv (.data bytes) env)).bind (drain server env fuel)

/-- A connection that has done nothing yet. -/
def Session.start : Session := ⟨upgraded, true, []⟩

/-! ## The answer to a broken request -/

/-- The bytes that `WebClient_Write` gets. -/
def written (outputs : List Output) : List UInt8 :=
  outputs.flatMap fun
    | .write frame => frame
    | _ => []

/-- The bytes are one closing frame. -/
def AnswersWithClose (outputs : List Output) : Prop :=
  written outputs = emptyFrame frameClosing

/-! ## What a turn detects -/

/-- There is no memory for a fragment, for the frames behind this one, or for the text of a
message, or such a buffer would be too large. -/
def FrameDetects (server : Server) (env : Env) (client : WebClient) (buffer : List UInt8)
    (bufLen : UInt64) (frame : WsFrame) (allocated : Bool) : Prop :=
  let bytesRemaining := remainingOf bufLen frame
  let buffered :=
    if frame.header.fin = finFragment then bufferFragment env client buffer frame
    else (esifOk, client)
  let frameType :=
    if frame.frameType = frameContinuation ∧ frame.header.fin = finFinal then buffered.2.msgType
    else frame.frameType
  let total := blockLen buffered.2.fragBuf + frame.payloadSize
  buffered.1 ≠ esifOk ∨ (bytesRemaining ≠ 0 ∧ !allocated ∧ !env.alloc bytesRemaining) ∨
    (server = .esifWs ∧ frame.header.fin = finFinal ∧ frameType = frameText ∧
      ¬(total < maxWebsocketBuffer && env.alloc (total + 1)))

/-- The frame is invalid, what there is of it cannot be kept, or something of it cannot. -/
def TurnDetects (server : Server) (env : Env) (client : WebClient) (input : Input)
    (allocated : Bool) : Prop :=
  match getFrame server input.buffer input.bufLen with
  | .error rc => rc ≠ esifEWsIncomplete ∨ (bufferIncomplete env client input).1 = esifENoMemory
  | .ok (frame, buffer) => FrameDetects server env client buffer input.bufLen frame allocated

/-- A text that cannot be put together is not executed, and not answered. -/
theorem responseOutputs_of_noMemory {env : Env} {client : WebClient} {frame : WsFrame}
    (htype : frame.frameType = frameText)
    (hmem : ¬(blockLen client.fragBuf + frame.payloadSize < maxWebsocketBuffer &&
      env.alloc (blockLen client.fragBuf + frame.payloadSize + 1)))
    (inNetBuf : Bool) (buffer : List UInt8) :
    responseOutputs .esifWs env inNetBuf client buffer frame = [] := by
  unfold responseOutputs
  rw [htype, if_neg (by decide), if_pos rfl]
  exact if_neg hmem

/-- A turn that detects something hands over nothing. -/
theorem written_frameOutputs {server : Server} {env : Env} {client : WebClient}
    {buffer : List UInt8} {bufLen : UInt64} {frame : WsFrame} {allocated : Bool}
    (h : FrameDetects server env client buffer bufLen frame allocated) (inNetBuf : Bool) :
    written (frameOutputs server env inNetBuf client buffer bufLen frame allocated) = [] := by
  unfold FrameDetects at h
  unfold frameOutputs
  dsimp only at h ⊢
  generalize (if frame.header.fin = finFragment then bufferFragment env client buffer frame
    else (esifOk, client)) = buffered at h ⊢
  by_cases hbad : buffered.1 ≠ esifOk ∨
      remainingOf bufLen frame ≠ 0 ∧ !allocated ∧ !env.alloc (remainingOf bufLen frame)
  · rw [if_pos hbad]
    rfl
  · rcases h with h | h | ⟨rfl, hfin, htype, hmem⟩
    · exact absurd (.inl h) hbad
    · exact absurd (.inr h) hbad
    · rw [if_neg hbad]
      by_cases hlast : frame.frameType = frameContinuation ∧ frame.header.fin = finFinal
      · rw [if_pos hlast] at htype ⊢
        have hnone := @responseOutputs_of_noMemory env buffered.2
          { frame with frameType := buffered.2.msgType } htype hmem
        rw [if_pos hfin, hnone]
        rfl
      · rw [if_neg hlast] at htype ⊢
        rw [if_pos hfin, responseOutputs_of_noMemory htype hmem]
        rfl

/-- **A turn that detects something hands over nothing**, whatever it detects. -/
theorem written_turnOutputs {server : Server} {env : Env} {client : WebClient} {input : Input}
    {allocated : Bool} (h : TurnDetects server env client input allocated) (inNetBuf : Bool) :
    written (turnOutputs server env inNetBuf client input allocated) = [] := by
  unfold TurnDetects at h
  unfold turnOutputs
  cases hget : getFrame server input.buffer input.bufLen with
  | error rc =>
    dsimp only
    split <;> rfl
  | ok got =>
    rw [hget] at h
    exact written_frameOutputs h inNetBuf

/-! ## In a session -/

/-- The next turn of the connection detects something. -/
def Session.Detects (server : Server) (s : Session) : Event → Prop
  | .recv r env =>
    r ≠ .disconnected ∧
      if s.conn.client.holdsFrame then
        enlarges env s.conn.client r ∧ (combinedInput s.conn.client r).bufLen ≠ 0 ∧
          TurnDetects server env { s.conn.client with recvBuf := [] }
            (combinedInput s.conn.client r) false
      else
        (receivedInput r).bufLen ≠ 0 ∧
          TurnDetects server env s.conn.client (receivedInput r) false
  | .reparse env =>
    ∃ buffer, s.conn.bufferRemaining = some buffer ∧
      TurnDetects server env s.conn.client (remainingInput buffer) true

/-- Of a closing frame there is a header. -/
theorem not_close_of_written_nil {outputs : List Output} (h : written outputs = []) :
    ¬ AnswersWithClose outputs := by
  unfold AnswersWithClose
  rw [h]
  decide

/-- **No error of a request is answered with a closing frame**: the turn that detects it hands
over no byte, in any state of the connection and whatever was received. -/
theorem Session.not_answersWithClose {server : Server} {s s' : Session} {e : Event}
    (hdetects : s.Detects server e) (hstep : sessionStep server s e = some s') :
    ∃ outputs, s'.outputs = s.outputs ++ outputs ∧ ¬ AnswersWithClose outputs := by
  cases e with
  | recv r env =>
    obtain ⟨hr, hturn⟩ := hdetects
    obtain ⟨conn, _, rfl⟩ := Option.map_eq_some_iff.mp hstep
    refine ⟨_, rfl, not_close_of_written_nil ?_⟩
    unfold requestOutputs
    rw [if_neg hr]
    split at hturn
    · rename_i hholds
      rw [if_pos hholds, if_pos ⟨hturn.1, hturn.2.1⟩]
      exact written_turnOutputs hturn.2.2 false
    · rename_i hholds
      rw [if_neg hholds, if_pos hturn.1]
      exact written_turnOutputs hturn.2 true
  | reparse env =>
    obtain ⟨buffer, hbuffer, hturn⟩ := hdetects
    obtain ⟨buffer', hbuffer', rfl⟩ := Option.map_eq_some_iff.mp hstep
    cases hbuffer.symm.trans hbuffer'
    exact ⟨_, rfl, not_close_of_written_nil (written_turnOutputs hturn s.inNetBuf)⟩

/-- No memory is to be had. -/
def noMemoryEnv : Env := ⟨fun _ => false, esifOk, esifOk⟩

/-- A fragment of a text, of one byte. -/
def textFragment : Event := .recv (.data [0x01, 0x01, 0x61]) noMemoryEnv

theorem detects_textFragment : Session.start.Detects .esifWs textFragment := by
  refine ⟨by decide, ?_⟩
  rw [if_neg (by decide)]
  exact ⟨by decide, .inl (by decide)⟩

/-- The connection ends behind a write of no bytes. -/
theorem textFragment_not_answersWithClose :
    Session.start.Detects .esifWs textFragment ∧
      ∃ s, sessionStep .esifWs .start textFragment = some s ∧ s.conn.client.type = .closed ∧
        s.outputs = [.write []] ∧ ¬ AnswersWithClose s.outputs :=
  ⟨detects_textFragment, ⟨⟨.closed, none⟩, true, [.write []]⟩, by decide +kernel, rfl, rfl,
    by unfold AnswersWithClose; decide⟩

theorem not_answersWithClose_textFragment :
    ∃ outputs, [Output.write []] = [] ++ outputs ∧ ¬ AnswersWithClose outputs := by
  have hstep : sessionStep .esifWs .start textFragment =
      some ⟨⟨.closed, none⟩, true, [.write []]⟩ := by decide +kernel
  exact Session.not_answersWithClose detects_textFragment hstep

end Ws

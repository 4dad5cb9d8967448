import Dptf.Lib.Machine
import Dptf.Ws.Frame

/-!
# Receiving frames

`WebServer_ProcessRequest` takes what `recv` gives, puts it behind what the
connection holds of an unfinished frame, and lets `WebServer_WebsocketRequest`
parse frame after frame from it.

* `frames_inside_iff` — **the frames of a connection stay inside the bytes held
  exactly if** the lengths of all of them fit into 64 bits and no receive would
  block.
-/

open Lib

namespace Ws

variable {client : WebClient} {server : Server} {env : Env} {r : Recv}

/-! ## Constants -/

/-- `MAX_WEBSOCKET_BUFFER`, which is `WS_MAX_CLIENT_RECVBUF` too. -/
def maxWebsocketBuffer : UInt64 := 8 * 1024 * 1024

/-- `WS_NETWORK_BUFFER_LEN`. -/
def Server.netBufLen : Server → UInt64
  | .esifWs => 65535
  | .ipfSrv => 1024 * 1024

/-- `SOCKET_ERROR`, converted to `size_t`. -/
def socketError : UInt64 := 0xFFFFFFFFFFFFFFFF

/-- The largest block `malloc` gives, `PTRDIFF_MAX`. -/
def ptrdiffMax : UInt64 := 0x7FFFFFFFFFFFFFFF

/-! ## Frame types -/

def frameNull : UInt8 := 0xFF
def frameContinuation : UInt8 := 0x00
def frameText : UInt8 := 0x01
def frameBinary : UInt8 := 0x02
def frameClosing : UInt8 := 0x08
def framePing : UInt8 := 0x09
def framePong : UInt8 := 0x0A

def finFragment : UInt8 := 0
def finFinal : UInt8 := 1

/-! ## The connection -/

inductive ClientType
  | closed
  | http
  | websocket
deriving DecidableEq, Repr

/-- The fields of `WebClient` that receiving frames uses.  A buffer that is `NULL` is
empty. -/
structure WebClient where
  type : ClientType
  recvBuf : List UInt8
  msgType : UInt8
  fragBuf : List UInt8
deriving DecidableEq, Repr

/-- A connection, and the bytes behind its last frame when the loop is to parse more. -/
structure Conn where
  client : WebClient
  bufferRemaining : Option (List UInt8)
deriving DecidableEq, Repr

/-- What `recv` returns. -/
inductive Recv
  | data (bytes : List UInt8)
  /-- `SOCKET_ERROR` with `EWOULDBLOCK`. -/
  | wouldBlock
  /-- 0, or any other error. -/
  | disconnected
deriving DecidableEq, Repr

/-- What a step meets outside of the modelled code. -/
structure Env where
  /-- Whether memory of this size is to be had. -/
  malloc : UInt64 → Bool
  /-- What executing the command of a text frame returns. -/
  restRc : EsifError
  /-- What sending to the client returns. -/
  sendRc : EsifError

/-- An allocation that succeeds. -/
def Env.alloc (env : Env) (size : UInt64) : Bool := size ≤ ptrdiffMax && env.malloc size

/-- The size of a block of memory. -/
def blockLen (bytes : List UInt8) : UInt64 := .ofNat bytes.length

/-- `len` bytes from `start` on are read or written, where `held` were received. -/
structure Access where
  start : Nat
  len : Nat
  held : Nat
deriving DecidableEq, Repr

/-- What a step did to the received bytes. -/
structure Trace where
  /-- The frame `Websocket_GetFrame` returned with `ESIF_OK`, and the bytes held for it. -/
  frame : Option (WsFrame × Nat)
  accesses : List Access
deriving DecidableEq, Repr

/-- What is parsed next: the buffer, the length the code takes it to have, and the number
of bytes that were received of it. -/
structure Input where
  buffer : List UInt8
  bufLen : UInt64
  held : Nat
deriving DecidableEq, Repr

/-! ## Answering a frame -/

/-- `WebClient_Init`, as `WebClient_Close` leaves a client. -/
def WebClient.closed : WebClient := ⟨.closed, [], frameNull, []⟩

/-- The fragments are dropped. -/
def WebClient.dropFragments (client : WebClient) : WebClient :=
  { client with fragBuf := [], msgType := frameNull }

/-- `WebClient_Write`, which closes the connection on an error. -/
def write (env : Env) (client : WebClient) : EsifError × WebClient :=
  if client.type = .closed then (esifEParameterIsNull, client)
  else if env.sendRc = esifOk then (esifOk, client)
  else (env.sendRc, .closed)

/-- A text frame at the server of the user interface: its payload is put behind the
fragments and executed. -/
def executeText (env : Env) (client : WebClient) (frame : WsFrame) : EsifError × WebClient :=
  let total := blockLen client.fragBuf + frame.payloadSize
  if total < maxWebsocketBuffer && env.alloc (total + 1) then
    let client := if client.fragBuf = [] then client else client.dropFragments
    if env.restRc = esifOk then write env client else (env.restRc, client)
  else (esifENoMemory, client)

/-- `WSFRAME_HEADER_TYPE1_MAX`, `WSFRAME_HEADER_TYPE2_MAX` and `WSFRAME_HEADER_TYPE3_MAX`. -/
def wsFrameHeaderType1Max : UInt64 := 125
def wsFrameHeaderType2Max : UInt64 := 0xFFFF
def wsFrameHeaderType3Max : UInt64 := 0x7FFFFFFE

/-- What `WebSocket_BuildFrame` returns for so much data. -/
def buildFrame (outBufLen dataLen : UInt64) : EsifError :=
  if wsFrameHeaderType3Max < dataLen then esifEParameterIsOutOfBounds
  else
    let headerSize : UInt64 :=
      if dataLen ≤ wsFrameHeaderType1Max then 2
      else if dataLen ≤ wsFrameHeaderType2Max then 4
      else 10
    if outBufLen < headerSize + dataLen then esifENeedLargerBuffer else esifOk

/-- A frame with so much data is built in the network buffer and sent. -/
def sendFrame (server : Server) (env : Env) (client : WebClient) (dataLen : UInt64) :
    EsifError × WebClient :=
  let rc := buildFrame server.netBufLen dataLen
  if rc = esifOk then write env client else (rc, client)

/-- `WebServer_WebsocketResponse`. -/
def websocketResponse (server : Server) (env : Env) (client : WebClient) (frame : WsFrame) :
    EsifError × WebClient :=
  if frame.frameType = frameContinuation then (esifOk, client)
  else if frame.frameType = frameText then
    match server with
    | .esifWs => executeText env client frame
    | .ipfSrv => (esifOk, client.dropFragments)
  else if frame.frameType = frameBinary then
    match server with
    | .esifWs => (esifOk, client.dropFragments)
    | .ipfSrv => (env.restRc, client.dropFragments)
  else if frame.frameType = frameClosing then
    let (rc, client) := sendFrame server env client 0
    (if rc = esifOk then esifEWsDisc else rc, client)
  else if frame.frameType = framePing then sendFrame server env client frame.payloadSize
  else if frame.frameType = framePong then sendFrame server env client 0
  else (esifEParameterIsNull, client)

/-! ## One turn of the loop -/

/-- The payload of a frame. -/
def payloadOf (buffer : List UInt8) (frame : WsFrame) : List UInt8 :=
  (buffer.drop frame.headerSize.toNat).take frame.payloadSize.toNat

/-- Appends a fragment to the fragment buffer. -/
def bufferFragment (env : Env) (client : WebClient) (buffer : List UInt8) (frame : WsFrame) :
    EsifError × WebClient :=
  let newSize := blockLen client.fragBuf + frame.payloadSize
  let msgType :=
    if frame.frameType ≠ frameContinuation then frame.frameType else client.msgType
  if newSize ≤ maxWebsocketBuffer && env.alloc newSize then
    (esifOk, { client with
      msgType, fragBuf := (client.fragBuf ++ payloadOf buffer frame).take newSize.toNat })
  else (esifENoMemory, { client with msgType })

/-- Appends an unfinished frame to the receive buffer. -/
def bufferIncomplete (env : Env) (client : WebClient) (input : Input) : EsifError × WebClient :=
  let newSize := blockLen client.recvBuf + input.bufLen
  if newSize ≤ maxWebsocketBuffer && env.alloc newSize then
    (esifEWsIncomplete, { client with recvBuf := client.recvBuf ++ input.buffer })
  else (esifENoMemory, client)

/-- The end of a request: on an error `WebServer_Main` closes the connection. -/
def settle : EsifError × WebClient → Conn
  | (rc, client) =>
    if rc = esifOk ∨ rc = esifEWsIncomplete then ⟨client, none⟩ else ⟨.closed, none⟩

/-- What behind the frame is saved for reparsing. -/
def remainingOf (bufLen : UInt64) (frame : WsFrame) : UInt64 :=
  if frame.frameSize < bufLen then bufLen - frame.frameSize else 0

/-- The ranges of the buffer that a turn with a frame can touch: unmasking it, copying the
fragment or the message, saving what remains. -/
def accessesOf (input : Input) (frame : WsFrame) : List Access :=
  let payload : Access := ⟨frame.headerSize.toNat, frame.payloadSize.toNat, input.held⟩
  let remaining : Access :=
    ⟨frame.frameSize.toNat, (remainingOf input.bufLen frame).toNat, input.held⟩
  [payload, remaining]

/-- The turn once there is a frame.  `allocated` says whether there already is a buffer for
what remains. -/
def handleFrame (server : Server) (env : Env) (client : WebClient) (buffer : List UInt8)
    (bufLen : UInt64) (frame : WsFrame) (allocated : Bool) : Conn :=
  let bytesRemaining := remainingOf bufLen frame
  let (rc, client) :=
    if frame.header.fin = finFragment then bufferFragment env client buffer frame
    else (esifOk, client)
  let frame :=
    if frame.frameType = frameContinuation ∧ frame.header.fin = finFinal then
      { frame with frameType := client.msgType }
    else frame
  if rc ≠ esifOk ∨ bytesRemaining ≠ 0 ∧ !allocated ∧ !env.alloc bytesRemaining then
    -- A closing frame is sent, and the error ends the connection.
    ⟨.closed, none⟩
  else
    let (rc, client) :=
      if frame.header.fin = finFinal then websocketResponse server env client frame
      else (rc, client)
    if bytesRemaining ≠ 0 then
      ⟨client, some ((buffer.drop frame.frameSize.toNat).take bytesRemaining.toNat)⟩
    else settle (rc, client)

/-- One turn of the loop of `WebServer_WebsocketRequest`. -/
def nextFrame (server : Server) (env : Env) (client : WebClient) (input : Input)
    (allocated : Bool) : Conn × Trace :=
  match getFrame server input.buffer input.bufLen with
  | .error rc =>
    (settle (if rc = esifEWsIncomplete then bufferIncomplete env client input
      else (esifEWsDisc, client)), ⟨none, []⟩)
  | .ok (frame, buffer) =>
    (handleFrame server env client buffer input.bufLen frame allocated,
      ⟨some (frame, input.held), accessesOf input frame⟩)

/-! ## Receiving -/

/-- `messageLength`, as a `size_t`. -/
def Recv.messageLength : Recv → UInt64
  | .data bytes => blockLen bytes
  | .wouldBlock => socketError
  | .disconnected => 0

/-- What `recv` wrote into the network buffer. -/
def Recv.bytes : Recv → List UInt8
  | .data bytes => bytes
  | _ => []

/-- There is an unfinished frame. -/
def WebClient.holdsFrame (client : WebClient) : Bool := blockLen client.recvBuf ≠ 0

/-- The length of the receive buffer with what came. -/
def totalLen (client : WebClient) (r : Recv) : UInt64 :=
  blockLen client.recvBuf + r.messageLength

/-- The receive buffer is enlarged. -/
def enlarges (env : Env) (client : WebClient) (r : Recv) : Bool :=
  totalLen client r ≤ maxWebsocketBuffer && env.alloc (totalLen client r)

/-- The network buffer, as it is parsed when nothing was held. -/
def receivedInput (r : Recv) : Input := ⟨r.bytes, r.messageLength, r.bytes.length⟩

/-- What was held with what was received behind it. -/
def combinedInput (client : WebClient) (r : Recv) : Input where
  buffer := (client.recvBuf ++ r.bytes).take (totalLen client r).toNat
  bufLen := totalLen client r
  held := (totalLen client r).toNat

/-- `WebServer_WebsocketRequest` up to the end of its first turn. -/
def websocketRequest (server : Server) (env : Env) (client : WebClient) (input : Input) :
    Conn × Trace :=
  if input.bufLen = 0 then (settle (esifEParameterIsNull, client), ⟨none, []⟩)
  else nextFrame server env client input false

/-- `WebServer_ProcessRequest` for a connection that speaks frames, up to the end of the
first turn. -/
def processRequest (server : Server) (env : Env) (client : WebClient) (r : Recv) :
    Conn × Trace :=
  if r = .disconnected then (⟨.closed, none⟩, ⟨none, []⟩)
  else if client.holdsFrame then
    if enlarges env client r then
      let (conn, trace) :=
        websocketRequest server env { client with recvBuf := [] } (combinedInput client r)
      (conn, { trace with
        accesses := ⟨0, r.messageLength.toNat, r.bytes.length⟩ :: trace.accesses })
    else (⟨.closed, none⟩, ⟨none, []⟩)
  else websocketRequest server env client (receivedInput r)

/-! ## The connection as a machine -/

/-- A step of a connection. -/
inductive Event
  /-- `recv` has returned, and the request is processed to its first frame. -/
  | recv (r : Recv) (env : Env)
  /-- The loop parses the next frame. -/
  | reparse (env : Env)

/-- What remains of a request, as it is parsed next. -/
def remainingInput (buffer : List UInt8) : Input :=
  ⟨buffer, blockLen buffer, (blockLen buffer).toNat⟩

/-- A step with its trace. -/
def stepTrace (server : Server) (c : Conn) : Event → Option (Conn × Trace)
  | .recv r env =>
    if c.client.type = .websocket ∧ c.bufferRemaining = none ∧
        r.bytes.length ≤ server.netBufLen.toNat then
      some (processRequest server env c.client r)
    else none
  | .reparse env =>
    c.bufferRemaining.map fun buffer =>
      nextFrame server env c.client (remainingInput buffer) true

/-- The machine. -/
def step (server : Server) (c : Conn) (e : Event) : Option Conn :=
  (stepTrace server c e).map Prod.fst

/-! ## Staying inside -/

/-- The access is to received bytes. -/
def Access.Inside (a : Access) : Prop := a.start + a.len ≤ a.held

/-- The frame and all that was done with it lies in the bytes held. -/
def Trace.Inside (t : Trace) : Prop :=
  (∀ f ∈ t.frame, f.1.headerSize.toNat + f.1.payloadSize.toNat ≤ f.2) ∧
    ∀ a ∈ t.accesses, a.Inside

/-- The step stays inside the received bytes. -/
def StaysInside (server : Server) (c : Conn) (e : Event) : Prop :=
  ∀ res ∈ stepTrace server c e, res.2.Inside

/-- The next frame is refused, or its lengths fit. -/
def FrameFits (server : Server) (input : Input) : Prop :=
  refuses server input.buffer input.bufLen ∨ LengthFits input.buffer input.bufLen

/-- The bytes of a request are there, and the lengths of its first frame fit.  A receive
that would block gives no bytes: it does no harm where a buffer of held bytes cannot be
enlarged or, with none held, where the server refuses the empty header. -/
def RequestFits (server : Server) (env : Env) (client : WebClient) : Recv → Prop
  | .data bytes =>
    if client.holdsFrame then
      enlarges env client (.data bytes) → FrameFits server (combinedInput client (.data bytes))
    else FrameFits server (receivedInput (.data bytes))
  | .wouldBlock =>
    if client.holdsFrame then ¬ enlarges env client .wouldBlock else server = .ipfSrv
  | .disconnected => True

/-- The condition on a step that can be taken. -/
def LengthsFit (server : Server) (c : Conn) (e : Event) : Prop :=
  (stepTrace server c e).isSome → match e with
    | .recv r env => RequestFits server env c.client r
    | .reparse _ => ∀ buffer ∈ c.bufferRemaining, FrameFits server (remainingInput buffer)

theorem inside_nil : Trace.Inside ⟨none, []⟩ := ⟨by simp, by simp⟩

/-- What remains behind a frame that fits is inside too. -/
theorem remaining_inside (bufLen : UInt64) (frame : WsFrame) :
    frame.frameSize.toNat + (remainingOf bufLen frame).toNat ≤
      max frame.frameSize.toNat bufLen.toNat := by
  unfold remainingOf
  split
  · rename_i hlt
    rw [UInt64.toNat_sub_of_le _ _ (UInt64.le_of_lt hlt)]
    have hlt' := UInt64.lt_iff_toNat_lt.mp hlt
    omega
  · simp

theorem nextFrame_trace_of_ok {input : Input} {allocated : Bool} {frame : WsFrame}
    {buffer : List UInt8} (h : getFrame server input.buffer input.bufLen = .ok (frame, buffer)) :
    (nextFrame server env client input allocated).2 =
      ⟨some (frame, input.held), accessesOf input frame⟩ := by
  unfold nextFrame
  rw [h]

theorem nextFrame_trace_of_error {input : Input} {allocated : Bool} {rc : EsifError}
    (h : getFrame server input.buffer input.bufLen = .error rc) :
    (nextFrame server env client input allocated).2 = ⟨none, []⟩ := by
  unfold nextFrame
  rw [h]

/-- **One turn of the loop** stays inside exactly if its frame fits. -/
theorem nextFrame_inside_iff (server : Server) (env : Env) (client : WebClient) (input : Input)
    (hheld : input.held = input.bufLen.toNat) (allocated : Bool) :
    (nextFrame server env client input allocated).2.Inside ↔ FrameFits server input := by
  constructor
  · intro hin
    by_contra hnot
    obtain ⟨hmask, hfits⟩ := not_or.mp hnot
    obtain ⟨frame, buffer, hget, hover⟩ :=
      getFrame_of_not_lengthFits (by simpa using hmask) hfits
    rw [nextFrame_trace_of_ok hget] at hin
    have hle : frame.headerSize.toNat + frame.payloadSize.toNat ≤ input.held := hin.1 _ rfl
    have hlt := input.bufLen.toNat_lt
    omega
  · intro hfits
    cases hget : getFrame server input.buffer input.bufLen with
    | error rc =>
      rw [nextFrame_trace_of_error hget]
      exact inside_nil
    | ok res =>
      obtain ⟨frame, buffer⟩ := res
      have hfits' : LengthFits input.buffer input.bufLen := by
        rcases hfits with hmask | hfits
        · rw [(getFrame_eq_ok hget).1] at hmask
          cases hmask
        · exact hfits
      obtain ⟨hsize, hle⟩ := frame_inside hget hfits'
      have hrest := remaining_inside input.bufLen frame
      rw [nextFrame_trace_of_ok hget]
      refine ⟨?_, ?_⟩
      · intro f hf
        obtain rfl : (frame, input.held) = f := by simpa using hf
        show frame.headerSize.toNat + frame.payloadSize.toNat ≤ input.held
        omega
      · intro a ha
        simp only [accessesOf, List.mem_cons, List.not_mem_nil, or_false] at ha
        rcases ha with rfl | rfl
        · show frame.headerSize.toNat + frame.payloadSize.toNat ≤ input.held
          omega
        · show frame.frameSize.toNat + (remainingOf input.bufLen frame).toNat ≤ input.held
          omega

theorem websocketRequest_inside_iff (server : Server) (env : Env) (client : WebClient)
    (input : Input) (hheld : input.held = input.bufLen.toNat) :
    (websocketRequest server env client input).2.Inside ↔ FrameFits server input := by
  unfold websocketRequest
  split
  · rename_i h0
    refine iff_of_true inside_nil (.inr ?_)
    simp [LengthFits, sizes, h0]
  · exact nextFrame_inside_iff server env client input hheld false

theorem blockLen_toNat_le (bytes : List UInt8) : (blockLen bytes).toNat ≤ bytes.length := by
  simp only [blockLen, UInt64.toNat_ofNat']
  exact Nat.mod_le _ _

theorem processRequest_of_not_holdsFrame (server : Server) (env : Env) (hr : r ≠ .disconnected)
    (hheld : ¬ client.holdsFrame) :
    processRequest server env client r = websocketRequest server env client (receivedInput r) := by
  unfold processRequest
  rw [if_neg hr, if_neg hheld]

/-- A request that is given up before anything is parsed. -/
theorem processRequest_of_not_enlarges (server : Server) (hr : r ≠ .disconnected)
    (hheld : client.holdsFrame) (hen : ¬ enlarges env client r) :
    (processRequest server env client r).2 = ⟨none, []⟩ := by
  unfold processRequest
  rw [if_neg hr, if_pos hheld, if_neg hen]

/-- The bytes that were received can be put behind those held. -/
theorem processRequest_inside_iff_of_holdsFrame (hr : r ≠ .disconnected) (hheld : client.holdsFrame)
    (hen : enlarges env client r) : (processRequest server env client r).2.Inside ↔
      r.messageLength.toNat ≤ r.bytes.length ∧ FrameFits server (combinedInput client r) := by
  have hreq := websocketRequest_inside_iff server env { client with recvBuf := [] }
    (combinedInput client r) rfl
  unfold processRequest
  rw [if_neg hr, if_pos hheld, if_pos hen, ← hreq]
  constructor
  · intro h
    refine ⟨?_, h.1, fun a ha => h.2 a (List.mem_cons_of_mem _ ha)⟩
    simpa [Access.Inside] using h.2 _ List.mem_cons_self
  · rintro ⟨hle, hframe, hacc⟩
    refine ⟨hframe, fun a ha => ?_⟩
    rcases List.mem_cons.mp ha with rfl | ha
    · simpa [Access.Inside] using hle
    · exact hacc a ha

/-- With nothing held, a receive that would block is parsed as an empty frame. -/
theorem processRequest_wouldBlock_inside_iff (hheld : ¬ client.holdsFrame) :
    (processRequest server env client .wouldBlock).2.Inside ↔ server = .ipfSrv := by
  have hne : (receivedInput .wouldBlock).bufLen ≠ 0 := by decide
  rw [processRequest_of_not_holdsFrame server env (by simp) hheld, websocketRequest, if_neg hne]
  cases server with
  | esifWs =>
    have hget : getFrame .esifWs (receivedInput .wouldBlock).buffer
        (receivedInput .wouldBlock).bufLen = .ok (frameOf [] 2 0, []) := getFrame_nil (by decide)
    rw [nextFrame_trace_of_ok hget]
    refine iff_of_false (fun hin => ?_) (by decide)
    have hle := hin.1 _ rfl
    exact absurd hle (by decide)
  | ipfSrv =>
    have hget : getFrame .ipfSrv (receivedInput .wouldBlock).buffer
        (receivedInput .wouldBlock).bufLen = .error esifEWsSocketError :=
      if_pos (by decide)
    rw [nextFrame_trace_of_error hget]
    exact iff_of_true inside_nil rfl

/-- **A request** stays inside exactly if its bytes are there and its first frame fits. -/
theorem processRequest_inside_iff (env : Env) (client : WebClient)
    (hlen : r.bytes.length ≤ server.netBufLen.toNat) :
    (processRequest server env client r).2.Inside ↔ RequestFits server env client r := by
  cases r with
  | disconnected => exact iff_of_true inside_nil trivial
  | wouldBlock =>
    by_cases hheld : client.holdsFrame
    · simp only [RequestFits, hheld, if_true]
      by_cases hen : enlarges env client .wouldBlock
      · rw [processRequest_inside_iff_of_holdsFrame (by simp) hheld hen]
        refine iff_of_false (fun h => ?_) (not_not.mpr hen)
        exact absurd h.1 (by decide)
      · refine iff_of_true ?_ hen
        rw [processRequest_of_not_enlarges server (by simp) hheld hen]
        exact inside_nil
    · simp only [RequestFits, hheld]
      exact processRequest_wouldBlock_inside_iff hheld
  | data bytes =>
    by_cases hheld : client.holdsFrame
    · simp only [RequestFits, hheld, if_true]
      by_cases hen : enlarges env client (.data bytes)
      · rw [processRequest_inside_iff_of_holdsFrame (by simp) hheld hen]
        constructor
        · intro h _
          exact h.2
        · intro h
          exact ⟨blockLen_toNat_le bytes, h hen⟩
      · refine iff_of_true ?_ (fun h => absurd h hen)
        rw [processRequest_of_not_enlarges server (by simp) hheld hen]
        exact inside_nil
    · rw [processRequest_of_not_holdsFrame server env (by simp) hheld, RequestFits, if_neg hheld]
      refine websocketRequest_inside_iff server env client (receivedInput (.data bytes)) ?_
      -- The network buffer is shorter than a `size_t` can tell.
      have hbuf : bytes.length < 2 ^ 64 := lt_of_le_of_lt hlen server.netBufLen.toNat_lt
      show bytes.length = (blockLen bytes).toNat
      rw [blockLen, UInt64.toNat_ofNat', Nat.mod_eq_of_lt hbuf]

theorem stepStaysInside_iff (server : Server) (c : Conn) (e : Event) :
    StaysInside server c e ↔ LengthsFit server c e := by
  unfold StaysInside LengthsFit
  cases e with
  | recv r env =>
    simp only [stepTrace]
    split
    · rename_i hcan
      simpa using processRequest_inside_iff env c.client hcan.2.2
    · simp
  | reparse env =>
    cases hrest : c.bufferRemaining with
    | none => simp [stepTrace, hrest]
    | some buffer =>
      simpa [stepTrace, hrest] using
        nextFrame_inside_iff server env c.client (remainingInput buffer) rfl true

/-- **The frames of a connection stay inside the bytes received for them exactly if** every
step is given its bytes and finds a frame whose lengths fit. -/
theorem frames_inside_iff (server : Server) (c : Conn) (events : List Event) :
    EveryStep (step server) (StaysInside server) c events ↔
      EveryStep (step server) (LengthsFit server) c events :=
  @everyStep_congr _ _ _ _ _ (fun _ => True) (fun _ _ _ _ _ => trivial)
    (fun c e _ => stepStaysInside_iff server c e) c trivial events

/-! ## A length that wraps around -/

/-- A connection that has received nothing yet. -/
def upgraded : Conn := ⟨⟨.websocket, [], frameNull, []⟩, none⟩

/-- The header of a binary frame that announces 2⁶⁴ - 10 bytes. -/
def wrappingFrame : List UInt8 := [0x82, 0x7F, 0xFF, 0xFF, 0xFF, 0xFF, 0xFF, 0xFF, 0xFF, 0xF6]

/-- The ten bytes of its header are accepted as a frame of 2⁶⁴ bytes. -/
theorem wrapping_frame_outside :
    ¬ ∀ (server : Server) (c : Conn) (events : List Event),
      EveryStep (step server) (StaysInside server) c events := by
  intro h
  have hstep := (h .esifWs upgraded [.recv (.data wrappingFrame) ⟨fun _ => true, esifOk, esifOk⟩]).1
  have hreq : RequestFits .esifWs ⟨fun _ => true, esifOk, esifOk⟩ upgraded.client
      (.data wrappingFrame) := (stepStaysInside_iff _ _ _).mp hstep (by decide)
  rw [RequestFits, if_neg (by decide)] at hreq
  rcases hreq with hmask | hfits
  · exact absurd hmask (by decide)
  · exact absurd hfits (by decide)

end Ws

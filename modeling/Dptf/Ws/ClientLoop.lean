import Dptf.Lib.Layout
import Dptf.Ws.ClientFrame

/-!
# The receive loop of the client

`IpcSession_IoWorkerThread` receives behind what it holds of an unfinished frame, takes
frame after frame where `esif_ws_get_frame_type` says that the payload ends, and moves the
part of the next one to the start of its buffer.
-/

open Lib

namespace Ws

/-! ## The thread -/

/-- What the loop does with a frame. -/
inductive LoopOutput
  /-- `IpcSession_ReceiveMsg` gets a message. -/
  | receiveMsg (message : List UInt8)
  /-- A frame is sent. -/
  | send (frame : List UInt8)
  /-- A fragment is put behind the others. -/
  | fragment (payload : List UInt8)
  | ignored
deriving DecidableEq, Repr

/-- The variables of the thread that receiving uses.  Of `recvBuf`, the bytes behind the list
are zero.  `outputs` and `taken` are no variables, but a record of what the loop did. -/
structure IoWorker where
  recvBuf : List UInt8
  recvBufLen : Nat
  maxRecvBuf : Nat
  /-- A pointer into `recvBuf`, or `NULL`. -/
  data : Option Nat
  dataSize : Nat
  fragmentBuf : Option (List UInt8)
  fragmentType : FrameType
  multiFragment : Bool
  connected : Bool
  outputs : List LoopOutput
  /-- The bytes of the frames that were taken. -/
  taken : List UInt8
deriving DecidableEq, Repr

/-- `RECV_BUF_SIZE` and `RECV_BUF_GROWBY`. -/
def recvBufSize : Nat := 65536
def recvBufGrowBy : Nat := 4096

/-- The thread behind the handshake. -/
def IoWorker.start : IoWorker :=
  ⟨[], 0, recvBufSize, none, 0, none, .incompleteFrame, false, true, [], []⟩

/-- What the loop meets outside of the modelled code. -/
structure IoEnv where
  /-- Whether memory of this size is to be had. -/
  malloc : Nat → Bool
  /-- What `IpcSession_ReceiveMsg` returns. -/
  receiveMsg : List UInt8 → EsifError
  /-- What sending returns. -/
  sendRc : EsifError

/-- Whether `realloc` gives memory.  A block of size 0 is freed. -/
def IoEnv.realloc (env : IoEnv) (old : Option (List UInt8)) (size : Nat) : Bool :=
  if size = 0 then old.isNone && env.malloc 0 else env.malloc size

/-- A `size_t` converted to `int`, and back in a sum. -/
def intOfSize (n : Nat) : Nat :=
  if n % 2 ^ 32 < 2 ^ 31 then n % 2 ^ 32 else 2 ^ 64 - 2 ^ 32 + n % 2 ^ 32

/-! ## A turn -/

/-- How a turn of the inner loop ends. -/
inductive After
  /-- With the next frame. -/
  | next (nextBuf : Nat)
  /-- The inner loop is left. -/
  | leave
  /-- It is left with `bytesReceived` 0. -/
  | close
deriving DecidableEq, Repr

namespace IoWorker

/-- The bytes at `data`. -/
def messageBuf (w : IoWorker) : List UInt8 :=
  match w.data with
  | some data => peekN w.recvBuf data w.dataSize
  | none => []

/-- The label `next_frame`. -/
def nextFrameLabel (w : IoWorker) (bytesReceived bytesRemaining : Nat) : IoWorker × After :=
  let w := { w with recvBufLen := 0 }
  let nextBuf := w.data.getD 0 + w.dataSize
  if 0 < bytesRemaining ∧ bytesReceived ≤ nextBuf then (w, .leave)
  else
    let w :=
      if w.multiFragment then
        { w with fragmentBuf := none, fragmentType := .incompleteFrame, multiFragment := false }
      else w
    (w, if 0 < bytesRemaining then .next nextBuf else .leave)

/-- `IpcSession_PongResponse`: the frame that is sent. -/
def pongResponse (message : List UInt8) : List UInt8 :=
  WsSocketFrameHeader.bytes ⟨framePong, 0, 1, .ofNat message.length, 0⟩ ++ message

/-- The switch over the frame types. -/
def processFrame (env : IoEnv) (frameType : FrameType) (message : List UInt8) :
    EsifError × LoopOutput :=
  match frameType with
  | .frame .binary => (env.receiveMsg message, .receiveMsg message)
  | .frame .closing => (esifEWsDisc, .ignored)
  | .frame .ping =>
    if wsFrameHeaderType1Max.toNat < message.length then (esifEParameterIsOutOfBounds, .ignored)
    else (env.sendRc, .send (pongResponse message))
  | _ => (esifOk, .ignored)

/-- A message is processed, and the connection closed on an error. -/
def process (env : IoEnv) (w : IoWorker) (frameType : FrameType) (message : List UInt8)
    (bytesReceived bytesRemaining : Nat) : IoWorker × After :=
  let result := processFrame env frameType message
  let w := { w with outputs := w.outputs ++ [result.2] }
  if result.1 = esifOk then w.nextFrameLabel bytesReceived bytesRemaining else (w, .close)

/-- A fragment is put behind the others, and the last one completes a message. -/
def takeFragment (env : IoEnv) (w : IoWorker) (mode : Opcode) (fin : UInt8)
    (bytesReceived bytesRemaining : Nat) : IoWorker × After :=
  let fragments := w.fragmentBuf.getD []
  if env.realloc w.fragmentBuf (fragments.length + w.dataSize) then
    let message := fragments ++ w.messageBuf
    if fin ≠ 0 then
      process env { w with fragmentBuf := some message, multiFragment := true } w.fragmentType
        message bytesReceived bytesRemaining
    else
      let fragmentType := if mode ≠ .continuation then .frame mode else w.fragmentType
      nextFrameLabel
        { w with
          fragmentBuf := some message
          fragmentType
          outputs := w.outputs ++ [.fragment w.messageBuf] }
        bytesReceived bytesRemaining
  else (w, .leave)

/-- A turn of the inner loop. -/
def frameTurn (env : IoEnv) (w : IoWorker) (nextBuf bytesReceived : Nat) : IoWorker × After :=
  let recvBufLen := bytesReceived - nextBuf
  let frame := peekN w.recvBuf nextBuf recvBufLen
  let header := readSocketFrameHeader frame
  let info := esifWsGetFrameType frame
  let w :=
    match info.data with
    | some (data, dataSize) => { w with recvBufLen, data := some (nextBuf + data), dataSize }
    | none => { w with recvBufLen }
  match info.frameType with
  | .errorFrame => (w, .close)
  | .incompleteFrame => ({ w with recvBuf := copyWithin w.recvBuf 0 nextBuf recvBufLen }, .leave)
  | .frame mode =>
    let frameSize := esifWsGetHeaderSize frame + (info.data.map Prod.snd).getD 0
    let w := { w with taken := w.taken ++ frame.take frameSize }
    if header.maskFlag ≠ 0 then
      nextFrameLabel { w with outputs := w.outputs ++ [.ignored] } bytesReceived info.bytesRemaining
    else
      let w := { w with multiFragment := false }
      if header.fin = 0 ∨ mode = .continuation then
        w.takeFragment env mode header.fin bytesReceived info.bytesRemaining
      else w.process env (.frame mode) w.messageBuf bytesReceived info.bytesRemaining

/-! ## The loops -/

/-- The inner loop, `fuel` turns at most. -/
def frameLoop (env : IoEnv) (bytesReceived : Nat) : Nat → IoWorker → Nat → Option IoWorker
  | 0, _, _ => none
  | fuel + 1, w, nextBuf =>
    match frameTurn env w nextBuf bytesReceived with
    | (w, .next nextBuf) => frameLoop env bytesReceived fuel w nextBuf
    | (w, .leave) => some w
    | (w, .close) => some { w with connected := false }

/-- The size of the buffer when `recv` is called. -/
def grown (w : IoWorker) : Nat :=
  if w.maxRecvBuf ≤ w.recvBufLen then w.maxRecvBuf + recvBufGrowBy else w.maxRecvBuf

/-- How many bytes `recv` may give. -/
def recvRoom (w : IoWorker) : Nat := w.grown - w.recvBufLen

/-- `recv` gives a chunk, and the inner loop takes the frames. -/
def ioReceive (env : IoEnv) (w : IoWorker) (chunk : List UInt8) : Option IoWorker :=
  if w.connected ∧ chunk ≠ [] ∧ chunk.length ≤ w.recvRoom then
    if w.maxRecvBuf ≤ w.recvBufLen ∧ env.malloc w.grown = false then
      some { w with connected := false }
    else
      let bytesReceived := (chunk.length + intOfSize w.recvBufLen) % 2 ^ 64
      frameLoop env bytesReceived (bytesReceived + 1)
        { w with recvBuf := w.recvBuf.take w.recvBufLen ++ chunk, maxRecvBuf := w.grown } 0
  else none

end IoWorker

end Ws

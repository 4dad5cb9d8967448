import Dptf.Lib.Stream
import Dptf.Ws.ClientLoop

/-!
# Frames from the server

What the client is to make of the frames of its server, a frame after the other, as long as
none of them is empty where the loop would take the data of an earlier frame for its own.

* `frameTurn_encode` — **a turn of the loop** is one step of it, if an empty frame is the
  last one received.
-/

open Lib

namespace Ws

/-! ## The frames of a server -/

/-- A frame as a server sends it: without a mask, in the shortest layout, and not longer than
the client takes. -/
def WireFrame.FromServer (f : WireFrame) : Prop :=
  f.maskKey = none ∧ f.layout = layoutOf f.payload.length ∧
    f.payload.length ≤ wsFrameMaximumSize

instance (f : WireFrame) : Decidable f.FromServer := inferInstanceAs (Decidable (_ ∧ _ ∧ _))

/-- The payload of the frame is not used. -/
def WireFrame.Unused (f : WireFrame) : Prop := f.frameType = frameText ∨ f.frameType = framePong

instance (f : WireFrame) : Decidable f.Unused := inferInstanceAs (Decidable (_ ∨ _))

/-- The fragments of a message that is not complete, whether no payload came yet, and what the
loop did. -/
structure Dialog where
  text : Option (List UInt8)
  fresh : Bool
  outputs : List LoopOutput
  taken : List UInt8
deriving DecidableEq, Repr

namespace Dialog

def start : Dialog := ⟨none, true, [], []⟩

/-- The frame is no empty frame for which earlier data would be taken. -/
def Usable (d : Dialog) (f : WireFrame) : Prop :=
  f.payload = [] → f.Unused ∨ f.frameType ≠ frameContinuation ∧ d.fresh = true

instance (d : Dialog) (f : WireFrame) : Decidable (d.Usable f) :=
  inferInstanceAs (Decidable (_ → _))

/-- Behind a frame. -/
def add (d : Dialog) (f : WireFrame) (text : Option (List UInt8)) (output : LoopOutput) : Dialog :=
  ⟨text, d.fresh && f.payload.isEmpty, d.outputs ++ [output], d.taken ++ f.encode⟩

/-- A frame is received. -/
def receive (env : IoEnv) (d : Dialog) (f : WireFrame) : Option Dialog :=
  if f.FromServer ∧ d.Usable f then
    match Opcode.ofMode f.frameType, f.fin, d.text with
    | some .text, true, text => some (d.add f text .ignored)
    | some .pong, true, text => some (d.add f text .ignored)
    | some .ping, true, text =>
      if f.payload.length ≤ wsFrameHeaderType1Max.toNat then
        some (d.add f text (.send (IoWorker.pongResponse f.payload)))
      else none
    | some .binary, true, none =>
      if env.receiveMsg f.payload = esifOk then some (d.add f none (.receiveMsg f.payload))
      else none
    | some .binary, false, none => some (d.add f (some f.payload) (.fragment f.payload))
    | some .continuation, false, some text =>
      some (d.add f (some (text ++ f.payload)) (.fragment f.payload))
    | some .continuation, true, some text =>
      if env.receiveMsg (text ++ f.payload) = esifOk then
        some (d.add f none (.receiveMsg (text ++ f.payload)))
      else none
    | _, _, _ => none
  else none

end Dialog

/-! ## What the decoder gets -/

section Decoder

variable {f : WireFrame} {op : Opcode}

theorem Opcode.code_of_ofMode {mode : UInt8} (h : Opcode.ofMode mode = some op) :
    mode = op.code := by
  unfold Opcode.ofMode at h
  split_ifs at h with h1 h2 h3 h4 h5 h6 <;> obtain rfl := Option.some.inj h <;> assumption

/-- The payload is where the client takes it to begin. -/
theorem header_fromServer (h : f.FromServer) : f.header.length = dataPtrOf f.payload.length := by
  rw [f.length_header, h.1, h.2.1]
  unfold dataPtrOf layoutOf
  simp only [Option.isSome_none, Bool.false_eq_true, if_false]
  split_ifs <;> rfl

theorem encode_fromServer (h : f.FromServer) : f.encode = f.header ++ f.payload := by
  rw [WireFrame.encode, WireFrame.body, h.1]

/-- An empty frame is found, but nothing behind it. -/
theorem esifWsGetFrameType_empty (hop : f.frameType = op.code) (hempty : f.payload = [])
    (more : List UInt8) : esifWsGetFrameType (f.encode ++ more) = ⟨.frame op, none, 0⟩ := by
  have h2 := f.two_le_length_header
  have hbuf : f.encode ++ more = f.header ++ (f.body ++ more) := by simp [WireFrame.encode]
  have hmode : Opcode.ofMode f.hdr.frameType = some op := by
    rw [← op.ofMode_code, ← hop]
    rfl
  have hmax : f.payload.length ≤ wsFrameMaximumSize := by
    rw [hempty]
    exact Nat.zero_le _
  rw [hbuf]
  unfold esifWsGetFrameType
  simp only [esifWsGetHeaderSize_header, readSocketFrameHeader_header, hmode,
    esifWsGetPayloadSize_header _ _ hmax]
  rw [if_neg (by omega), if_neg (by simp), if_pos (by rw [hempty]; rfl)]

/-- Where the header is not complete, the frame is not. -/
theorem esifWsGetFrameType_of_short {part behind : List UInt8} (hpart : f.header = part ++ behind)
    (hbehind : behind ≠ []) : esifWsGetFrameType part = ⟨.incompleteFrame, none, 0⟩ := by
  have hpos : 0 < behind.length := List.length_pos_iff.mpr hbehind
  have hlen := congrArg List.length hpart
  rw [List.length_append] at hlen
  have hsize : esifWsGetHeaderSize part = 0 := by
    by_cases hshort : part.length < 2
    · exact if_neg (by omega)
    · have hpeek (i : Nat) (hi : i < part.length) : peek part i = peek (f.header ++ []) i := by
        rw [List.append_nil, hpart, peek_append_left behind hi]
      have h0 := (hpeek 0 (by omega)).trans (f.peek_header []).1
      have h1 := (hpeek 1 (by omega)).trans (f.peek_header []).2
      rw [esifWsGetHeaderSize_eq h0 h1 (by omega), if_pos (by omega)]
  unfold esifWsGetFrameType
  simp only [hsize, if_true]

/-- **A part of a frame is incomplete** for the client too. -/
theorem esifWsGetFrameType_part (hop : f.frameType = op.code)
    (hmax : f.payload.length ≤ wsFrameMaximumSize) {part behind : List UInt8}
    (hpart : f.encode = part ++ behind) (hbehind : behind ≠ []) :
    esifWsGetFrameType part = ⟨.incompleteFrame, none, 0⟩ := by
  have h2 := f.two_le_length_header
  have hpos : 0 < behind.length := List.length_pos_iff.mpr hbehind
  have hmode : Opcode.ofMode f.hdr.frameType = some op := by
    rw [← op.ofMode_code, ← hop]
    rfl
  -- the header is there, and some of the payload
  have hbody {got : List UInt8} (hgot : got.length < f.payload.length) :
      esifWsGetFrameType (f.header ++ got) = ⟨.incompleteFrame, none, 0⟩ := by
    unfold esifWsGetFrameType
    simp only [esifWsGetHeaderSize_header, readSocketFrameHeader_header, hmode,
      esifWsGetPayloadSize_header _ _ hmax, List.length_append]
    rw [if_neg (by omega), if_neg (by simp), if_neg (by omega), if_pos (by omega)]
  rcases List.append_eq_append_iff.mp hpart with ⟨got, rfl, hrest⟩ | ⟨rest, hheader, rfl⟩
  · refine hbody ?_
    rw [← f.length_body, hrest, List.length_append]
    omega
  · by_cases hrest : rest = []
    · subst hrest
      have hlen : 0 < f.payload.length := by
        rw [← f.length_body]
        simpa using hpos
      rw [List.append_nil] at hheader
      rw [← hheader, ← List.append_nil f.header]
      exact hbody hlen
    · exact esifWsGetFrameType_of_short hheader hrest

end Decoder

/-! ## A turn of the loop -/

/-- There is memory, and what is sent goes out. -/
structure IoEnv.Plenty (env : IoEnv) : Prop where
  malloc : ∀ size, env.malloc size = true
  sendRc : env.sendRc = esifOk

namespace IoWorker

/-- The rest of what was received begins at `nextBuf`. -/
structure RestAt (w : IoWorker) (nextBuf bytesReceived : Nat) (rest : List UInt8) : Prop where
  length : w.recvBuf.length = bytesReceived
  le : nextBuf ≤ bytesReceived
  drop : w.recvBuf.drop nextBuf = rest

/-- The loop is where the dialog is. -/
structure Follows (w : IoWorker) (d : Dialog) : Prop where
  connected : w.connected = true
  fragmentBuf : w.fragmentBuf = d.text
  fragmentType : d.text.isSome = true → w.fragmentType = .frame .binary
  fresh : d.fresh = true → w.dataSize = 0
  outputs : w.outputs = d.outputs
  taken : w.taken = d.taken

/-- The thread with the payload of a frame at `nextBuf`, if it has one. -/
def load (w : IoWorker) (nextBuf recvBufLen : Nat) (f : WireFrame) : IoWorker :=
  if f.payload = [] then
    { w with recvBufLen, multiFragment := false, taken := w.taken ++ f.encode }
  else
    { w with
      recvBufLen, data := some (nextBuf + f.header.length), dataSize := f.payload.length
      multiFragment := false, taken := w.taken ++ f.encode }

/-- What is known of the thread `w'` when the payload is set. -/
structure Loaded (w w' : IoWorker) (d : Dialog) (f : WireFrame) (nextBuf bytesReceived : Nat)
    (more : List UInt8) : Prop where
  connected : w'.connected = true
  recvBuf : w'.recvBuf = w.recvBuf
  maxRecvBuf : w'.maxRecvBuf = w.maxRecvBuf
  fragmentBuf : w'.fragmentBuf = d.text
  fragmentType : d.text.isSome = true → w'.fragmentType = .frame .binary
  multiFragment : w'.multiFragment = false
  outputs : w'.outputs = d.outputs
  taken : w'.taken = d.taken ++ f.encode
  fresh : (d.fresh && f.payload.isEmpty) = true → w'.dataSize = 0
  payload : (f.payload = [] → d.fresh = true) →
    w'.messageBuf = f.payload ∧ w'.dataSize = f.payload.length
  next : more ≠ [] → w'.data.getD 0 + w'.dataSize = nextBuf + f.encode.length ∧
    nextBuf + f.encode.length < bytesReceived

/-- The thread behind the label, where the loop goes on. -/
def labelled (w : IoWorker) : IoWorker :=
  if w.multiFragment then
    { w with
      recvBufLen := 0, fragmentBuf := none, fragmentType := .incompleteFrame
      multiFragment := false }
  else { w with recvBufLen := 0 }

section Turn

variable {env : IoEnv} {w w' : IoWorker} {f : WireFrame} {op : Opcode} {more : List UInt8}
  {d d' : Dialog} {nextBuf bytesReceived : Nat}

theorem RestAt.peekN_eq {rest : List UInt8} (h : w.RestAt nextBuf bytesReceived rest) :
    peekN w.recvBuf nextBuf (bytesReceived - nextBuf) = rest := by
  have hle := h.le
  rw [Ws.peekN_eq (by rw [h.length]; omega), h.drop, List.take_of_length_le]
  rw [← h.drop, List.length_drop, h.length]

/-- A turn with a frame, but for what it does with it. -/
theorem frameTurn_eq (env : IoEnv) (hserver : f.FromServer) (hop : f.frameType = op.code)
    (hat : w.RestAt nextBuf bytesReceived (f.encode ++ more)) (hmore : f.payload = [] → more = []) :
    frameTurn env w nextBuf bytesReceived = if f.fin = false ∨ op = .continuation then
        takeFragment env (w.load nextBuf (bytesReceived - nextBuf) f) op (finType f.fin)
          bytesReceived more.length
      else
        process env (w.load nextBuf (bytesReceived - nextBuf) f) (.frame op)
          (w.load nextBuf (bytesReceived - nextBuf) f).messageBuf bytesReceived more.length := by
  have hbuf : f.encode ++ more = f.header ++ (f.body ++ more) := by simp [WireFrame.encode]
  have hheader : readSocketFrameHeader (f.encode ++ more) =
      ⟨f.hdr.frameType, 0, finType f.fin, f.hdr.payloadSize, 0⟩ := by
    rw [hbuf, readSocketFrameHeader_header]
    simp [WireFrame.hdr, finType, hserver.1]
  have hfin : finType f.fin = 0 ↔ f.fin = false := by
    cases f.fin <;> decide
  have hzero : ¬(0 : UInt8) ≠ 0 := by decide
  have hsize : esifWsGetHeaderSize (f.encode ++ more) = f.header.length := by
    rw [hbuf, esifWsGetHeaderSize_header]
  have htake : (f.encode ++ more).take (f.header.length + f.payload.length) = f.encode := by
    rw [← f.length_encode, List.take_left]
  unfold frameTurn
  simp only [hat.peekN_eq, hheader, if_neg hzero, hfin, hsize]
  by_cases hempty : f.payload = []
  · obtain rfl := hmore hempty
    rw [hempty] at htake
    simp only [esifWsGetFrameType_empty hop hempty [], load, if_pos hempty, List.length_nil,
      Option.map_none, Option.getD_none] at htake ⊢
    rw [htake]
  · have hpos : 0 < f.payload.length := List.length_pos_iff.mpr hempty
    simp only [esifWsGetFrameType_encode hop hpos hserver.2.2 more, load, if_neg hempty,
      Option.map_some, Option.getD_some, htake]
    rw [header_fromServer hserver]

/-- An empty payload is set where none came before. -/
theorem messageBuf_of_dataSize (h : w.dataSize = 0) : w.messageBuf = [] := by
  unfold messageBuf
  cases w.data with
  | none => rfl
  | some data => simp [h, peekN]

theorem loaded_load (hserver : f.FromServer)
    (hat : w.RestAt nextBuf bytesReceived (f.encode ++ more)) (hmore : f.payload = [] → more = [])
    (hfollows : w.Follows d) (recvBufLen : Nat) :
    Loaded w (w.load nextBuf recvBufLen f) d f nextBuf bytesReceived more := by
  have hlen := congrArg List.length hat.drop
  have hle := hat.le
  rw [List.length_drop, hat.length, List.length_append] at hlen
  by_cases hempty : f.payload = []
  · rw [load, if_pos hempty]
    refine ⟨hfollows.connected, rfl, rfl, hfollows.fragmentBuf, hfollows.fragmentType, rfl,
      hfollows.outputs, by rw [hfollows.taken], ?_, ?_, fun h => absurd (hmore hempty) h⟩
    · intro h
      rw [Bool.and_eq_true] at h
      exact hfollows.fresh h.1
    · intro huse
      have hsize := hfollows.fresh (huse hempty)
      rw [hempty]
      exact ⟨messageBuf_of_dataSize hsize, hsize⟩
  · rw [load, if_neg hempty]
    refine ⟨hfollows.connected, rfl, rfl, hfollows.fragmentBuf, hfollows.fragmentType, rfl,
      hfollows.outputs, by rw [hfollows.taken], by simp [hempty], fun _ => ⟨?_, rfl⟩,
      fun h => ⟨?_, ?_⟩⟩
    · have hrest := hat.drop
      rw [encode_fromServer hserver, List.append_assoc] at hrest
      rw [f.length_encode] at hlen
      show peekN w.recvBuf (nextBuf + f.header.length) f.payload.length = f.payload
      rw [Ws.peekN_eq (by rw [hat.length]; omega), ← List.drop_drop, hrest, List.drop_left,
        List.take_left]
    · rw [f.length_encode]
      exact Nat.add_assoc ..
    · have hpos : 0 < more.length := List.length_pos_iff.mpr h
      omega

/-- Behind the label, the loop goes on with the next frame, or ends with this one. -/
theorem nextFrameLabel_eq (h : more ≠ [] → w.data.getD 0 + w.dataSize = nextBuf + f.encode.length ∧
      nextBuf + f.encode.length < bytesReceived) :
    w.nextFrameLabel bytesReceived more.length =
      (w.labelled, if more = [] then .leave else .next (nextBuf + f.encode.length)) := by
  have hpos : 0 < more.length ↔ more ≠ [] := List.length_pos_iff
  have hin : ¬(0 < more.length ∧ bytesReceived ≤ w.data.getD 0 + w.dataSize) := by
    rintro ⟨hmore, hle⟩
    have hnext := h (hpos.mp hmore)
    omega
  unfold nextFrameLabel labelled
  dsimp only
  rw [if_neg hin]
  by_cases hmore : more = []
  · have hnone : ¬0 < more.length := fun h => hpos.mp h hmore
    rw [if_pos hmore, if_neg hnone]
  · have hsome := hpos.mpr hmore
    rw [if_neg hmore, if_pos hsome, (h hmore).1]

theorem labelled_recvBuf (w : IoWorker) : w.labelled.recvBuf = w.recvBuf := by
  unfold labelled
  split <;> rfl

theorem labelled_recvBufLen (w : IoWorker) : w.labelled.recvBufLen = 0 := by
  unfold labelled
  split <;> rfl

theorem labelled_maxRecvBuf (w : IoWorker) : w.labelled.maxRecvBuf = w.maxRecvBuf := by
  unfold labelled
  split <;> rfl

/-- The loop follows the dialog behind the label. -/
theorem follows_labelled {text : Option (List UInt8)} {output : LoopOutput}
    (hconnected : w.connected = true)
    (hfragments : (if w.multiFragment then none else w.fragmentBuf) = text)
    (htype : text.isSome = true → w.fragmentType = .frame .binary)
    (hfresh : (d.fresh && f.payload.isEmpty) = true → w.dataSize = 0)
    (houtputs : w.outputs = d.outputs ++ [output]) (htaken : w.taken = d.taken ++ f.encode) :
    w.labelled.Follows (d.add f text output) := by
  subst hfragments
  unfold labelled
  cases hmulti : w.multiFragment with
  | false =>
    exact ⟨hconnected, by simp [Dialog.add], by simpa [Dialog.add, hmulti] using htype, hfresh,
      houtputs, htaken⟩
  | true =>
    exact ⟨hconnected, by simp [Dialog.add], by simp [Dialog.add], hfresh, houtputs, htaken⟩

/-- How a turn with a frame ends: the dialog has taken it, and the loop is behind it. -/
def TurnsTo (env : IoEnv) (w : IoWorker) (d' : Dialog) (f : WireFrame)
    (nextBuf bytesReceived : Nat) (more : List UInt8) : Prop :=
  ∃ w', frameTurn env w nextBuf bytesReceived =
      (w', if more = [] then .leave else .next (nextBuf + f.encode.length)) ∧
    w'.Follows d' ∧ w'.recvBuf = w.recvBuf ∧ w'.recvBufLen = 0 ∧ w'.maxRecvBuf = w.maxRecvBuf

/-- A turn with a frame that is processed for itself. -/
theorem turnsTo_process (hserver : f.FromServer) (hop : f.frameType = op.code)
    (hfin : f.fin = true) (hcont : op ≠ .continuation) {output : LoopOutput}
    (hat : w.RestAt nextBuf bytesReceived (f.encode ++ more)) (hmore : f.payload = [] → more = [])
    (hfollows : w.Follows d)
    (hprocess : ∀ message, ((f.payload = [] → d.fresh = true) → message = f.payload) →
      processFrame env (.frame op) message = (esifOk, output)) :
    TurnsTo env w (d.add f d.text output) f nextBuf bytesReceived more := by
  have hwhole : ¬(f.fin = false ∨ op = .continuation) := by simp [hfin, hcont]
  have hl := loaded_load hserver hat hmore hfollows (bytesReceived - nextBuf)
  have hturn := frameTurn_eq env hserver hop hat hmore
  rw [if_neg hwhole] at hturn
  generalize w.load nextBuf (bytesReceived - nextBuf) f = w₁ at hl hturn
  rw [process, hprocess _ fun h => (hl.payload h).1] at hturn
  refine ⟨_, hturn.trans (nextFrameLabel_eq hl.next),
    follows_labelled hl.connected ?_ hl.fragmentType hl.fresh ?_ hl.taken, ?_, ?_, ?_⟩
  · rw [if_neg (by simp [hl.multiFragment])]
    exact hl.fragmentBuf
  · rw [← hl.outputs]
  · rw [labelled_recvBuf, hl.recvBuf]
  · exact labelled_recvBufLen _
  · rw [labelled_maxRecvBuf, hl.maxRecvBuf]

/-- There is memory for a fragment. -/
theorem realloc_fragment (henv : env.Plenty) (hl : Loaded w w' d f nextBuf bytesReceived more)
    (huse : f.payload = [] → d.fresh = true ∧ d.text = none) :
    env.realloc w'.fragmentBuf ((w'.fragmentBuf.getD []).length + w'.dataSize) = true := by
  rw [(hl.payload fun h => (huse h).1).2, IoEnv.realloc]
  split
  · rename_i hzero
    have hempty : f.payload = [] := List.length_eq_zero_iff.mp (by omega)
    rw [hl.fragmentBuf, (huse hempty).2, henv.malloc]
    rfl
  · exact henv.malloc _

/-- A turn with a fragment that is not the last one. -/
theorem turnsTo_fragment (henv : env.Plenty) (hserver : f.FromServer)
    (hop : f.frameType = op.code) (hfin : f.fin = false)
    (hat : w.RestAt nextBuf bytesReceived (f.encode ++ more)) (hmore : f.payload = [] → more = [])
    (hfollows : w.Follows d) (huse : f.payload = [] → d.fresh = true ∧ d.text = none)
    (htype : op = .binary ∨ op = .continuation ∧ d.text.isSome = true) :
    TurnsTo env w (d.add f (some (d.text.getD [] ++ f.payload)) (.fragment f.payload)) f nextBuf
      bytesReceived more := by
  have hl := loaded_load hserver hat hmore hfollows (bytesReceived - nextBuf)
  have hturn := frameTurn_eq env hserver hop hat hmore
  rw [if_pos (.inl hfin)] at hturn
  generalize w.load nextBuf (bytesReceived - nextBuf) f = w₁ at hl hturn
  have hmessage := (hl.payload fun h => (huse h).1).1
  have hmulti : ¬w₁.multiFragment = true := by simp [hl.multiFragment]
  have hnotfinal : ¬finType f.fin ≠ 0 := by
    rw [hfin]
    decide
  rw [takeFragment, realloc_fragment henv hl huse, if_pos rfl, if_neg hnotfinal] at hturn
  refine ⟨_, hturn.trans (nextFrameLabel_eq hl.next), follows_labelled hl.connected ?_ ?_ hl.fresh ?_
    hl.taken, ?_, ?_, ?_⟩
  · rw [if_neg hmulti, hmessage, hl.fragmentBuf]
  · intro _
    rcases htype with rfl | ⟨rfl, htext⟩
    · rfl
    · exact hl.fragmentType htext
  · rw [hmessage, ← hl.outputs]
  · rw [labelled_recvBuf, hl.recvBuf]
  · exact labelled_recvBufLen _
  · rw [labelled_maxRecvBuf, hl.maxRecvBuf]

/-- A turn with the last fragment of a message. -/
theorem turnsTo_last (henv : env.Plenty) (hserver : f.FromServer)
    (hop : f.frameType = Opcode.continuation.code) (hfin : f.fin = true)
    (hat : w.RestAt nextBuf bytesReceived (f.encode ++ more)) (hfollows : w.Follows d)
    (hpayload : f.payload ≠ []) {text : List UInt8} (htext : d.text = some text)
    (hreceive : env.receiveMsg (text ++ f.payload) = esifOk) :
    TurnsTo env w (d.add f none (.receiveMsg (text ++ f.payload))) f nextBuf bytesReceived more := by
  have hnever {p : Prop} (h : f.payload = []) : p := absurd h hpayload
  have hl := loaded_load hserver hat hnever hfollows (bytesReceived - nextBuf)
  have hturn := frameTurn_eq env hserver hop hat hnever
  rw [if_pos (.inr rfl)] at hturn
  generalize w.load nextBuf (bytesReceived - nextBuf) f = w₁ at hl hturn
  have hmessage : w₁.fragmentBuf.getD [] ++ w₁.messageBuf = text ++ f.payload := by
    rw [(hl.payload hnever).1, hl.fragmentBuf, htext, Option.getD_some]
  have htype : w₁.fragmentType = .frame .binary := hl.fragmentType (by rw [htext]; rfl)
  have hfinal : finType f.fin ≠ 0 := by
    rw [hfin]
    decide
  rw [takeFragment, realloc_fragment henv hl hnever, if_pos rfl, if_pos hfinal, hmessage, htype,
    process] at hturn
  simp only [processFrame, hreceive, if_true] at hturn
  refine ⟨_, hturn.trans (nextFrameLabel_eq hl.next), follows_labelled hl.connected rfl (by simp)
    hl.fresh ?_ hl.taken, ?_, ?_, ?_⟩
  · rw [← hl.outputs]
  · rw [labelled_recvBuf, hl.recvBuf]
  · exact labelled_recvBufLen _
  · rw [labelled_maxRecvBuf, hl.maxRecvBuf]

/-- An empty frame whose payload is used is the first one with a payload to come, and begins a
message or is none. -/
theorem fresh_of_usable (husable : d.Usable f) (hop : f.frameType = op.code)
    (huses : op = .ping ∨ op = .binary ∨ op = .continuation) (hempty : f.payload = []) :
    d.fresh = true ∧ op ≠ .continuation := by
  rcases husable hempty with hunused | ⟨hcont, hfresh⟩
  · rw [WireFrame.Unused, hop] at hunused
    rcases huses with rfl | rfl | rfl <;> exact absurd hunused (by decide)
  · exact ⟨hfresh, fun h => hcont (by rw [hop, h]; rfl)⟩

/-- **A turn of the loop** with a frame is a step of the dialog, if nothing is behind a frame
without a payload. -/
theorem frameTurn_encode (henv : env.Plenty) (hreceive : d.receive env f = some d')
    (hat : w.RestAt nextBuf bytesReceived (f.encode ++ more)) (hmore : f.payload = [] → more = [])
    (hfollows : w.Follows d) : TurnsTo env w d' f nextBuf bytesReceived more := by
  unfold Dialog.receive at hreceive
  split at hreceive
  · rename_i hcond
    obtain ⟨hserver, husable⟩ := hcond
    split at hreceive
    · rename_i hop hfin
      cases hreceive
      exact turnsTo_process hserver (Opcode.code_of_ofMode hop) hfin (by decide) hat hmore hfollows
        fun message _ => rfl
    · rename_i hop hfin
      cases hreceive
      exact turnsTo_process hserver (Opcode.code_of_ofMode hop) hfin (by decide) hat hmore hfollows
        fun message _ => rfl
    · rename_i hop hfin
      have hcode := Opcode.code_of_ofMode hop
      obtain ⟨hshort, rfl⟩ := Option.ite_some_none_eq_some.1 hreceive
      refine turnsTo_process hserver hcode hfin (by decide) hat hmore hfollows ?_
      intro message hmessage
      rw [hmessage fun h => (fresh_of_usable husable hcode (.inl rfl) h).1]
      simp only [processFrame, if_neg (Nat.not_lt.mpr hshort), henv.sendRc]
    · rename_i hop hfin htext
      have hcode := Opcode.code_of_ofMode hop
      obtain ⟨hok, rfl⟩ := Option.ite_some_none_eq_some.1 hreceive
      rw [← htext]
      refine turnsTo_process hserver hcode hfin (by decide) hat hmore hfollows ?_
      intro message hmessage
      rw [hmessage fun h => (fresh_of_usable husable hcode (.inr (.inl rfl)) h).1]
      simp only [processFrame, hok]
    · rename_i hop hfin htext
      have hcode := Opcode.code_of_ofMode hop
      cases hreceive
      have hturns := turnsTo_fragment henv hserver hcode hfin hat hmore hfollows
        (fun h => ⟨(fresh_of_usable husable hcode (.inr (.inl rfl)) h).1, htext⟩) (.inl rfl)
      rw [htext] at hturns
      exact hturns
    · rename_i text hop hfin htext
      have hcode := Opcode.code_of_ofMode hop
      cases hreceive
      have hturns := turnsTo_fragment henv hserver hcode hfin hat hmore hfollows
        (fun h => absurd rfl (fresh_of_usable husable hcode (.inr (.inr rfl)) h).2)
        (.inr ⟨rfl, by rw [htext]; rfl⟩)
      rw [htext] at hturns
      exact hturns
    · rename_i text hop hfin htext
      have hcode := Opcode.code_of_ofMode hop
      obtain ⟨hok, rfl⟩ := Option.ite_some_none_eq_some.1 hreceive
      have hpayload : f.payload ≠ [] := fun h =>
        (fresh_of_usable husable hcode (.inr (.inr rfl)) h).2 rfl
      exact turnsTo_last henv hserver hcode hfin hat hfollows hpayload htext hok
    · cases hreceive
  · cases hreceive

/-- A turn with a part of a frame keeps it. -/
theorem frameTurn_part (env : IoEnv) {part behind : List UInt8} (hserver : f.FromServer)
    (hop : f.frameType = op.code) (hpart : f.encode = part ++ behind) (hbehind : behind ≠ [])
    (hat : w.RestAt nextBuf bytesReceived part) :
    frameTurn env w nextBuf bytesReceived = ({ w with
          recvBufLen := part.length
          recvBuf := copyWithin w.recvBuf 0 nextBuf part.length }, .leave) := by
  have hlen : bytesReceived - nextBuf = part.length := by
    rw [← hat.drop, List.length_drop, hat.length]
  have hframe : peekN w.recvBuf nextBuf part.length = part := by
    rw [← hlen]
    exact hat.peekN_eq
  unfold frameTurn
  simp only [hlen, hframe, esifWsGetFrameType_part hop hserver.2.2 hpart hbehind]

end Turn

end IoWorker

end Ws

import Dptf.Ws.Dialog

/-!
# What the client receives

The receive loop between two receives holds the part of a frame, and follows the dialog with
the server.  A frame without a payload ends the inner loop: what was received behind it is
dropped, and where its payload is used, an earlier one is.

* `client_serves` — **a receive** takes the complete frames as the dialog does.
* `receives_all` — **every frame is received**, if empty frames come last and are not used.
-/

open Lib

namespace Ws

namespace IoWorker

/-- The loop waits for more of a frame. -/
structure Holds (w : IoWorker) (held : List UInt8) (d : Dialog) : Prop where
  follows : w.Follows d
  recvBufLen : w.recvBufLen = held.length
  recvBuf : w.recvBuf.take held.length = held
  maxRecvBuf : w.maxRecvBuf < 2 ^ 31 + recvBufGrowBy

theorem holds_start : start.Holds [] Dialog.start :=
  ⟨⟨rfl, rfl, by simp [Dialog.start], fun _ => rfl, rfl, rfl⟩, rfl, rfl, by decide⟩

/-- Only the last of the frames is empty, and nothing is behind it. -/
def EmptyLast (frames : List WireFrame) (part : List UInt8) : Prop :=
  ∀ ⦃before f behind⦄, frames = before ++ f :: behind → f.payload = [] → behind = [] ∧ part = []

/-- There is room for what comes, and an empty frame is the last one in it. -/
def ChunkFits (w : IoWorker) (held piece : List UInt8) (done : List WireFrame)
    (part : List UInt8) : Prop :=
  held.length < 2 ^ 31 ∧ piece.length ≤ w.recvRoom ∧ EmptyLast done part

section Loop

variable {env : IoEnv} {w : IoWorker} {d d' : Dialog} {part : List UInt8}
  {nextBuf bytesReceived : Nat}

theorem receive_fromServer {f : WireFrame} (h : d.receive env f = some d') :
    f.FromServer ∧ ∃ op : Opcode, f.frameType = op.code := by
  unfold Dialog.receive at h
  split at h
  · rename_i hcond
    cases hop : Opcode.ofMode f.frameType with
    | none =>
      rw [hop] at h
      cases h
    | some op => exact ⟨hcond.1, op, Opcode.code_of_ofMode hop⟩
  · cases h

/-- **The inner loop** takes the frames that are complete and keeps the part of the next one. -/
theorem frameLoop_frames (henv : env.Plenty) {done : List WireFrame}
    (hrun : run (Dialog.receive env) d done = some d')
    (hat : w.RestAt nextBuf bytesReceived (done.flatMap WireFrame.encode ++ part))
    (hne : done.flatMap WireFrame.encode ++ part ≠ []) (hempty : EmptyLast done part)
    (hpart : part = [] ∨ ∃ f : WireFrame, (f.FromServer ∧ ∃ op : Opcode, f.frameType = op.code) ∧
      ∃ behind, f.encode = part ++ behind ∧ behind ≠ [])
    (hfollows : w.Follows d) (hmax : w.maxRecvBuf < 2 ^ 31 + recvBufGrowBy) {fuel : Nat}
    (hfuel : done.length < fuel) :
    ∃ w', frameLoop env bytesReceived fuel w nextBuf = some w' ∧ w'.Holds part d' := by
  induction done generalizing w d nextBuf fuel with
  | nil =>
    obtain rfl : d = d' := by simpa using hrun
    obtain ⟨fuel, rfl⟩ : ∃ n, fuel = n + 1 := ⟨fuel - 1, by simp at hfuel; omega⟩
    rw [List.flatMap_nil, List.nil_append] at hat hne
    rcases hpart with hnil | ⟨f, ⟨hserver, op, hop⟩, behind, hencode, hbehind⟩
    · exact absurd hnil hne
    · have hturn := frameTurn_part env hserver hop hencode hbehind hat
      have hin : nextBuf + part.length ≤ w.recvBuf.length := by
        have hle := hat.le
        rw [← hat.drop, List.length_drop, hat.length]
        omega
      refine ⟨{ w with
        recvBufLen := part.length
        recvBuf := copyWithin w.recvBuf 0 nextBuf part.length }, by rw [frameLoop, hturn],
        ⟨?_, rfl, ?_, hmax⟩⟩
      · exact ⟨hfollows.connected, hfollows.fragmentBuf, hfollows.fragmentType, hfollows.fresh,
          hfollows.outputs, hfollows.taken⟩
      · have htake := take_copyWithin (Nat.zero_le nextBuf) hin
        rw [Nat.zero_add, List.take_zero, List.nil_append, peekAt, hat.drop, List.take_length]
          at htake
        exact htake
  | cons f done ih =>
    obtain ⟨d₁, hf, hdone⟩ := run_cons_eq_some hrun
    obtain ⟨fuel, rfl⟩ : ∃ n, fuel = n + 1 := ⟨fuel - 1, by simp at hfuel; omega⟩
    rw [List.flatMap_cons, List.append_assoc] at hat
    have hmore : f.payload = [] → done.flatMap WireFrame.encode ++ part = [] := by
      intro h
      obtain ⟨rfl, rfl⟩ := hempty (List.nil_append (f :: done)).symm h
      rfl
    obtain ⟨w', hturn, hfollows', hbuf, hlen, hmax'⟩ :=
      frameTurn_encode henv hf hat hmore hfollows
    rw [frameLoop, hturn]
    by_cases hrest : done.flatMap WireFrame.encode ++ part = []
    · obtain ⟨hdone', rfl⟩ := List.append_eq_nil_iff.mp hrest
      have hnil : done = [] := by
        cases done with
        | nil => rfl
        | cons g done => simp [g.encode_ne_nil] at hdone'
      subst hnil
      obtain rfl : d₁ = d' := by simpa using hdone
      rw [if_pos hrest]
      exact ⟨w', rfl, hfollows', hlen, rfl, by rw [hmax']; exact hmax⟩
    · rw [if_neg hrest]
      have hlens := congrArg List.length hat.drop
      have hle := hat.le
      rw [List.length_drop, hat.length, List.length_append] at hlens
      refine ih hdone ⟨by rw [hbuf]; exact hat.length, by omega, ?_⟩ hrest ?_ hfollows'
        (by rw [hmax']; exact hmax) (by simpa using hfuel)
      · rw [hbuf, ← List.drop_drop, hat.drop, List.drop_left]
      · intro before g behind h
        exact hempty (by rw [h, List.cons_append])

/-- A size that is no negative `int` stays the same. -/
theorem intOfSize_eq {n : Nat} (h : n < 2 ^ 31) : intOfSize n = n := by
  unfold intOfSize
  rw [Nat.mod_eq_of_lt (by omega), if_pos h]

/-- **A receive** takes the frames that are complete as the dialog does. -/
theorem client_serves (henv : env.Plenty) :
    Serves WireFrame.encode (ioReceive env) (Dialog.receive env) Holds ChunkFits := by
  intro w held piece d d' d'' words done todo part hholds hpiece hfits hcut hdone htodo
  obtain ⟨hheld, hroom, hempty⟩ := hfits
  have hgrown : w.grown < 2 ^ 31 + recvBufGrowBy := by
    have hlen := hholds.recvBufLen
    have hmax := hholds.maxRecvBuf
    unfold grown
    split <;> omega
  have hlen : piece.length < 2 ^ 32 := by
    have hle : piece.length ≤ w.grown := hroom.trans (Nat.sub_le _ _)
    have hgrow : recvBufGrowBy = 4096 := rfl
    omega
  have hcan : w.connected = true ∧ piece ≠ [] ∧ piece.length ≤ w.recvRoom :=
    ⟨hholds.follows.connected, hpiece, hroom⟩
  have hmem : ¬(w.maxRecvBuf ≤ w.recvBufLen ∧ env.malloc w.grown = false) := by
    simp [henv.malloc]
  have hreceived : (piece.length + intOfSize w.recvBufLen) % 2 ^ 64 = (held ++ piece).length := by
    rw [hholds.recvBufLen, intOfSize_eq hheld, List.length_append]
    omega
  have hbuf : w.recvBuf.take w.recvBufLen = held := by
    rw [hholds.recvBufLen]
    exact hholds.recvBuf
  rw [ioReceive, if_pos hcan, if_neg hmem]
  dsimp only
  rw [hreceived, hbuf]
  have hpart : part = [] ∨ ∃ f : WireFrame, (f.FromServer ∧ ∃ op : Opcode, f.frameType = op.code) ∧
        ∃ behind, f.encode = part ++ behind ∧ behind ≠ [] := by
    rcases hcut.part_lt with ⟨hnil, -⟩ | ⟨f, frames, behind, rfl, hencode, hbehind⟩
    · exact .inl hnil
    · obtain ⟨d₁, hf, -⟩ := run_cons_eq_some htodo
      exact .inr ⟨f, receive_fromServer hf, behind, hencode, hbehind⟩
  have hcount := WireFrame.length_le_flatMap_encode done
  have hlens : (held ++ piece).length = (done.flatMap WireFrame.encode).length + part.length := by
    rw [hcut.letters_eq, List.length_append]
  have hat : RestAt { w with recvBuf := held ++ piece, maxRecvBuf := w.grown } 0
      (held ++ piece).length (done.flatMap WireFrame.encode ++ part) :=
    ⟨rfl, Nat.zero_le _, by rw [List.drop_zero, hcut.letters_eq]⟩
  have hfollows : Follows { w with recvBuf := held ++ piece, maxRecvBuf := w.grown } d :=
    ⟨hholds.follows.connected, hholds.follows.fragmentBuf, hholds.follows.fragmentType,
      hholds.follows.fresh, hholds.follows.outputs, hholds.follows.taken⟩
  have hne : done.flatMap WireFrame.encode ++ part ≠ [] := by
    rw [← hcut.letters_eq]
    exact List.append_ne_nil_of_right_ne_nil held hpiece
  have hfuel : done.length < (held ++ piece).length + 1 := by omega
  exact frameLoop_frames henv hdone hat hne hempty hpart hfollows hgrown hfuel

end Loop

end IoWorker

/-! ## The frames of a server -/

/-- The frames carry these binary messages, the first of which begins with the fragments
`text`. -/
inductive Sends : Option (List UInt8) → List WireFrame → List (List UInt8) → Prop
  | nil : Sends none [] []
  | other {text f frames messages} (op : Opcode) (hop : f.frameType = op.code)
      (htype : op = .ping ∨ op = .pong ∨ op = .text) (hfin : f.fin = true)
      (h : Sends text frames messages) : Sends text (f :: frames) messages
  | whole {f frames messages} (hop : f.frameType = Opcode.binary.code) (hfin : f.fin = true)
      (h : Sends none frames messages) : Sends none (f :: frames) (f.payload :: messages)
  | first {f frames messages} (hop : f.frameType = Opcode.binary.code) (hfin : f.fin = false)
      (h : Sends (some f.payload) frames messages) : Sends none (f :: frames) messages
  | more {text f frames messages} (hop : f.frameType = Opcode.continuation.code)
      (hfin : f.fin = false) (h : Sends (some (text ++ f.payload)) frames messages) :
      Sends (some text) (f :: frames) messages
  | last {text f frames messages} (hop : f.frameType = Opcode.continuation.code)
      (hfin : f.fin = true) (h : Sends none frames messages) :
      Sends (some text) (f :: frames) ((text ++ f.payload) :: messages)

/-- The message of a call of `IpcSession_ReceiveMsg`. -/
def LoopOutput.message : LoopOutput → Option (List UInt8)
  | .receiveMsg message => some message
  | _ => none

/-- The frame that is sent. -/
def LoopOutput.sent : LoopOutput → Option (List UInt8)
  | .send frame => some frame
  | _ => none

/-- The replies to the pings. -/
def pongsOf (frames : List WireFrame) : List (List UInt8) :=
  (frames.filter fun f => f.frameType = framePing).map fun f => IoWorker.pongResponse f.payload

/-- The dialog takes all of the frames, and gets these messages out of them. -/
def Dialog.Yields (env : IoEnv) (d : Dialog) (frames : List WireFrame)
    (messages : List (List UInt8)) : Prop :=
  ∃ d' outs, run (Dialog.receive env) d frames = some d' ∧ d'.outputs = d.outputs ++ outs ∧
    outs.filterMap LoopOutput.message = messages ∧
    outs.filterMap LoopOutput.sent = pongsOf frames ∧
    d'.taken = d.taken ++ frames.flatMap WireFrame.encode

/-- No earlier payload is taken for that of an empty frame: it is not used, or there was none
before. -/
def Dialog.Harmless (d : Dialog) (frames : List WireFrame) : Prop :=
  ∀ ⦃before f behind⦄, frames = before ++ f :: behind → f.payload = [] →
    f.Unused ∨ f.frameType ≠ frameContinuation ∧ d.fresh = true ∧ ∀ g ∈ before, g.payload = []

section Yields

variable {env : IoEnv} {d : Dialog} {f : WireFrame} {frames : List WireFrame}
  {messages messages' : List (List UInt8)} {text : Option (List UInt8)}

/-- The frames behind one. -/
theorem Dialog.yields_cons {output : LoopOutput} (hf : d.receive env f = some (d.add f text output))
    (h : (d.add f text output).Yields env frames messages')
    (hmessages : output.message.toList ++ messages' = messages)
    (hsent : output.sent.toList = pongsOf [f]) : d.Yields env (f :: frames) messages := by
  obtain ⟨d', outs, hrun, houts, hreceived, hreplies, htaken⟩ := h
  refine ⟨d', output :: outs, by rw [run_cons, hf]; exact hrun, ?_, ?_, ?_, ?_⟩
  · rw [houts, Dialog.add, List.append_assoc, List.singleton_append]
  · rw [← hmessages, ← hreceived]
    cases h : output.message <;> simp [h]
  · have hcons : pongsOf (f :: frames) = pongsOf [f] ++ pongsOf frames := by
      rw [pongsOf, pongsOf, pongsOf, ← List.map_append, ← List.filter_append, List.singleton_append]
    rw [hcons, ← hsent, ← hreplies]
    cases h : output.sent <;> simp [h]
  · rw [htaken, Dialog.add, List.flatMap_cons, List.append_assoc]

theorem pongsOf_of_ne {op : Opcode} (hop : f.frameType = op.code) (h : op ≠ .ping) :
    pongsOf [f] = [] := by
  have hne : f.frameType ≠ framePing := by
    rw [hop]
    cases op <;> first | decide | exact absurd rfl h
  simp [pongsOf, hne]

theorem Dialog.Harmless.usable (h : d.Harmless (f :: frames)) : d.Usable f := by
  intro hempty
  rcases h (List.nil_append (f :: frames)).symm hempty with hunused | ⟨hcont, hfresh, -⟩
  · exact .inl hunused
  · exact .inr ⟨hcont, hfresh⟩

theorem Dialog.Harmless.add (h : d.Harmless (f :: frames)) (output : LoopOutput) :
    (d.add f text output).Harmless frames := by
  intro before g behind hframes hempty
  have hall : f :: frames = (f :: before) ++ g :: behind := by rw [hframes, List.cons_append]
  rcases h hall hempty with hunused | ⟨hcont, hfresh, hbefore⟩
  · exact .inl hunused
  · refine .inr ⟨hcont, ?_, fun g' hg' => hbefore g' (List.mem_cons_of_mem f hg')⟩
    have hf : f.payload = [] := hbefore f List.mem_cons_self
    simp [Dialog.add, hfresh, hf]

/-- The reply to a ping is the only one. -/
theorem receive_other (env : IoEnv) {op : Opcode} (hserver : f.FromServer) (husable : d.Usable f)
    (hop : f.frameType = op.code) (htype : op = .ping ∨ op = .pong ∨ op = .text)
    (hfin : f.fin = true)
    (hping : f.frameType = framePing → f.payload.length ≤ wsFrameHeaderType1Max.toNat) :
    ∃ output, d.receive env f = some (d.add f d.text output) ∧ output.message = none ∧
      output.sent.toList = pongsOf [f] := by
  have hmode : Opcode.ofMode f.frameType = some op := by rw [hop, op.ofMode_code]
  rw [Dialog.receive, if_pos ⟨hserver, husable⟩, hmode, hfin]
  rcases htype with rfl | rfl | rfl
  · have htype : f.frameType = framePing := hop
    refine ⟨_, if_pos (hping htype), rfl, ?_⟩
    simp [LoopOutput.sent, pongsOf, htype]
  · exact ⟨_, rfl, rfl, (pongsOf_of_ne hop (by decide)).symm⟩
  · exact ⟨_, rfl, rfl, (pongsOf_of_ne hop (by decide)).symm⟩

/-- **What the dialog makes of the frames of a server.** -/
theorem Sends.dialog (h : Sends text frames messages) (hd : d.text = text)
    (hserver : ∀ f ∈ frames, f.FromServer) (hpings : ∀ f ∈ frames, f.frameType = framePing →
      f.payload.length ≤ wsFrameHeaderType1Max.toNat)
    (hmessages : ∀ message ∈ messages, env.receiveMsg message = esifOk)
    (hharmless : d.Harmless frames) : d.Yields env frames messages := by
  induction h generalizing d with
  | nil => exact ⟨d, [], rfl, by simp, rfl, rfl, by simp⟩
  | @other text f frames messages op hop htype hfin _ ih =>
    rw [List.forall_mem_cons] at hserver hpings
    obtain ⟨output, hf, hmessage, hsent⟩ := receive_other env hserver.1 hharmless.usable
      hop htype hfin hpings.1
    refine Dialog.yields_cons hf (ih hd hserver.2 hpings.2 hmessages (hharmless.add output)) ?_ hsent
    rw [hmessage]
    rfl
  | @whole f frames messages hop hfin _ ih =>
    rw [List.forall_mem_cons] at hserver hpings hmessages
    have hf : d.receive env f = some (d.add f none (.receiveMsg f.payload)) := by
      rw [Dialog.receive, if_pos ⟨hserver.1, hharmless.usable⟩, hop, Opcode.ofMode_code, hfin, hd]
      exact if_pos hmessages.1
    exact Dialog.yields_cons hf (ih rfl hserver.2 hpings.2 hmessages.2 (hharmless.add _)) rfl
      (pongsOf_of_ne hop (by decide)).symm
  | @first f frames messages hop hfin _ ih =>
    rw [List.forall_mem_cons] at hserver hpings
    have hf : d.receive env f = some (d.add f (some f.payload) (.fragment f.payload)) := by
      rw [Dialog.receive, if_pos ⟨hserver.1, hharmless.usable⟩, hop, Opcode.ofMode_code, hfin, hd]
    exact Dialog.yields_cons hf (ih rfl hserver.2 hpings.2 hmessages (hharmless.add _)) rfl
      (pongsOf_of_ne hop (by decide)).symm
  | @more text f frames messages hop hfin _ ih =>
    rw [List.forall_mem_cons] at hserver hpings
    have hf : d.receive env f = some (d.add f (some (text ++ f.payload)) (.fragment f.payload)) := by
      rw [Dialog.receive, if_pos ⟨hserver.1, hharmless.usable⟩, hop, Opcode.ofMode_code, hfin, hd]
    exact Dialog.yields_cons hf (ih rfl hserver.2 hpings.2 hmessages (hharmless.add _)) rfl
      (pongsOf_of_ne hop (by decide)).symm
  | @last text f frames messages hop hfin _ ih =>
    rw [List.forall_mem_cons] at hserver hpings hmessages
    have hf : d.receive env f = some (d.add f none (.receiveMsg (text ++ f.payload))) := by
      rw [Dialog.receive, if_pos ⟨hserver.1, hharmless.usable⟩, hop, Opcode.ofMode_code, hfin, hd]
      exact if_pos hmessages.1
    exact Dialog.yields_cons hf (ih rfl hserver.2 hpings.2 hmessages.2 (hharmless.add _)) rfl
      (pongsOf_of_ne hop (by decide)).symm

end Yields

/-! ## Every frame is received -/

/-- The chunks are the stream of the frames, and each is as long as `recv` may give. -/
structure Chunks (env : IoEnv) (frames : List WireFrame) (chunks : List (List UInt8)) : Prop where
  flatten_eq : chunks.flatten = frames.flatMap WireFrame.encode
  ne_nil : ∀ chunk ∈ chunks, chunk ≠ []
  room : EveryStep (IoWorker.ioReceive env) (fun w chunk => chunk.length ≤ w.recvRoom)
    IoWorker.start chunks

/-- The messages are received, the pings answered, and every byte is taken. -/
def ReceivesAll (env : IoEnv) (frames : List WireFrame) (messages chunks : List (List UInt8)) :
    Prop :=
  ∃ w, run (IoWorker.ioReceive env) IoWorker.start chunks = some w ∧
    w.outputs.filterMap LoopOutput.message = messages ∧
    w.outputs.filterMap LoopOutput.sent = pongsOf frames ∧
    w.taken = frames.flatMap WireFrame.encode

/-- A chunk ends with the last of the frames. -/
def EndsChunk (chunks : List (List UInt8)) (frames : List WireFrame) : Prop :=
  ∃ got rest, chunks = got ++ rest ∧ got.flatten = frames.flatMap WireFrame.encode

/-- The condition on a stream: an empty frame ends a chunk, and its payload is not used unless
there was none before; and what is held of a frame has a size that fits an `int`. -/
structure Receivable (frames : List WireFrame) (chunks : List (List UInt8)) : Prop where
  ends : ∀ ⦃before f behind⦄, frames = before ++ f :: behind → f.payload = [] →
    EndsChunk chunks (before ++ [f])
  unused : ∀ ⦃before f behind⦄, frames = before ++ f :: behind → f.payload = [] →
    f.Unused ∨ f.frameType ≠ frameContinuation ∧ ∀ g ∈ before, g.payload = []
  held : ∀ ⦃before behind⦄, chunks = before ++ behind →
    (leftover WireFrame.encode frames before.flatten).length < 2 ^ 31

/-- Under the condition, there is room for the chunks, and an empty frame is the last in its. -/
theorem Chunks.fits {env : IoEnv} {frames : List WireFrame} {chunks : List (List UInt8)}
    (h : Chunks env frames chunks) (hok : Receivable frames chunks) :
    Fits WireFrame.encode (IoWorker.ioReceive env) IoWorker.ChunkFits IoWorker.start frames
      chunks := by
  intro before piece behind w done done' todo part part' hchunks hrun hcut hcut'
  refine ⟨?_, ?_, ?_⟩
  · rw [← hcut.leftover_eq]
    exact hok.held hchunks
  · have hroom := h.room
    rw [hchunks] at hroom
    exact (hroom.right hrun).1
  · rintro first f last rfl hempty
    have hframes : frames = (done ++ first) ++ f :: (last ++ todo) := by
      rw [hcut.words_eq]
      simp
    obtain ⟨got, rest, hgot, hend⟩ := hok.ends hframes hempty
    exact hcut.ends WireFrame.encode_ne_nil hcut' (hchunks.symm.trans hgot) hend

/-- **Every frame is received**: the client gets the binary messages, each one whole and in
order, and answers each ping with its payload, whatever chunks the frames come in. -/
theorem receives_all {env : IoEnv} (henv : env.Plenty) {frames : List WireFrame}
    {messages chunks : List (List UInt8)} (hsends : Sends none frames messages)
    (hserver : ∀ f ∈ frames, f.FromServer)
    (hpings : ∀ f ∈ frames, f.frameType = framePing →
      f.payload.length ≤ wsFrameHeaderType1Max.toNat)
    (hmessages : ∀ message ∈ messages, env.receiveMsg message = esifOk)
    (hchunks : Chunks env frames chunks) (hok : Receivable frames chunks) :
    ReceivesAll env frames messages chunks := by
  have hharmless : Dialog.start.Harmless frames := by
    intro before f behind hframes hempty
    exact (hok.unused hframes hempty).imp_right fun h => ⟨h.1, rfl, h.2⟩
  obtain ⟨d, outs, hdialog, houts, hreceived, hsent, htaken⟩ :=
    hsends.dialog rfl hserver hpings hmessages hharmless
  obtain ⟨w, hrun, hholds⟩ := (IoWorker.client_serves henv).run WireFrame.encode_ne_nil
    IoWorker.holds_start hdialog hchunks.flatten_eq hchunks.ne_nil (hchunks.fits hok)
  have houtputs : w.outputs = outs := hholds.follows.outputs.trans houts
  rw [← houtputs] at hreceived hsent
  exact ⟨w, hrun, hreceived, hsent, hholds.follows.taken.trans htaken⟩

/-- All goes well. -/
def wellIo : IoEnv := ⟨fun _ => true, fun _ => esifOk, esifOk⟩

theorem wellIo_plenty : wellIo.Plenty := ⟨fun _ => rfl, rfl⟩

/-- A message in two fragments, with a ping in between and an empty pong behind it. -/
def serverFrames : List WireFrame :=
  [.compact .binary false none [1, 2] (by decide), .compact .ping true none [7] (by decide),
    .compact .continuation true none [3] (by decide), .compact .pong true none [] (by decide)]

def serverChunks : List (List UInt8) :=
  let bytes := serverFrames.flatMap WireFrame.encode
  [bytes.take 3, (bytes.drop 3).take 5, bytes.drop 8]

/-- An empty pong at the end of the stream does no harm. -/
theorem receivable_serverFrames : Receivable serverFrames serverChunks := by
  have hlast {before behind : List WireFrame} {f : WireFrame}
      (h : serverFrames = before ++ f :: behind) (hempty : f.payload = []) :
      f.frameType = framePong ∧ before ++ [f] = serverFrames := by
    rcases before with - | ⟨a, - | ⟨b, - | ⟨c, - | ⟨e, before⟩⟩⟩⟩
    all_goals
      simp only [serverFrames, List.nil_append, List.cons_append, List.cons.injEq] at h
    · obtain ⟨rfl, -⟩ := h
      cases hempty
    · obtain ⟨rfl, rfl, -⟩ := h
      cases hempty
    · obtain ⟨rfl, rfl, rfl, -⟩ := h
      cases hempty
    · obtain ⟨rfl, rfl, rfl, rfl, rfl⟩ := h
      exact ⟨rfl, rfl⟩
    · simp at h
  refine ⟨fun before f behind h hempty => ?_, fun before f behind h hempty => ?_,
    fun before behind h => ?_⟩
  · exact ⟨serverChunks, [], by simp, by rw [(hlast h hempty).2]; decide⟩
  · exact .inl (.inr (hlast h hempty).1)
  · refine Nat.lt_of_le_of_lt (length_leftover_le WireFrame.encode serverFrames before.flatten) ?_
    have hall : (before ++ behind).flatten.length = 12 := by
      rw [← h]
      decide
    rw [List.flatten_append, List.length_append] at hall
    omega

theorem receives_serverFrames : ReceivesAll wellIo serverFrames [[1, 2, 3]] serverChunks :=
  receives_all wellIo_plenty
    (.first rfl rfl (.other .ping rfl (.inl rfl) rfl (.last rfl rfl
      (.other .pong rfl (.inr (.inl rfl)) rfl .nil)))) (by decide) (by decide) (by decide)
    ⟨by decide, by decide, by decide⟩ receivable_serverFrames

/-- An empty pong with a message behind it, in one chunk. -/
def pongFirst : List WireFrame :=
  [.compact .pong true none [] (by decide), .compact .binary true none [1] (by decide)]

/-- The message is dropped. -/
theorem pongFirst_dropped :
    ¬∀ (frames : List WireFrame) (messages chunks : List (List UInt8)),
      Sends none frames messages → (∀ f ∈ frames, f.FromServer) →
      (∀ f ∈ frames, f.frameType = framePing →
        f.payload.length ≤ wsFrameHeaderType1Max.toNat) →
      (∀ message ∈ messages, wellIo.receiveMsg message = esifOk) →
      Chunks wellIo frames chunks → ReceivesAll wellIo frames messages chunks := by
  intro h
  obtain ⟨w, hrun, hmessages, -⟩ := h pongFirst [[1]] [pongFirst.flatMap WireFrame.encode]
    (.other .pong rfl (.inr (.inl rfl)) rfl (.whole rfl rfl .nil)) (by decide) (by decide)
    (by decide) ⟨by decide, by decide, by decide⟩
  have hdropped : (run (IoWorker.ioReceive wellIo) IoWorker.start
      [pongFirst.flatMap WireFrame.encode]).map IoWorker.outputs = some [.ignored] := by decide
  rw [hrun] at hdropped
  have houtputs : w.outputs = [.ignored] := by simpa using hdropped
  rw [houtputs] at hmessages
  cases hmessages

end Ws

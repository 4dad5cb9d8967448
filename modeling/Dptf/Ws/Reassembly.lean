import Dptf.Ws.Served

/-!
# Reassembling messages

A client sends messages, each in one frame or in fragments, with pings and pongs in
between, and the bytes come in chunks that are cut anywhere.

* `served` — **the server of the user interface** executes the messages, whatever the
  chunks are.
-/

open Lib

namespace Ws

/-! ## The frames of messages -/

/-- The frames carry these messages, the first of which begins with the fragments `text`. -/
inductive Carries (server : Server) :
    Option (List UInt8) → List WireFrame → List (List UInt8) → Prop
  | nil : Carries server none [] []
  | control {text f frames messages} (hcontrol : f.IsControl) (hfin : f.fin = true)
      (h : Carries server text frames messages) : Carries server text (f :: frames) messages
  | whole {f frames messages} (htype : f.frameType = messageType server) (hfin : f.fin = true)
      (h : Carries server none frames messages) :
      Carries server none (f :: frames) (f.payload :: messages)
  | first {f frames messages} (htype : f.frameType = messageType server) (hfin : f.fin = false)
      (h : Carries server (some f.payload) frames messages) :
      Carries server none (f :: frames) messages
  | more {text f frames messages} (htype : f.frameType = frameContinuation)
      (hfin : f.fin = false) (hpayload : f.payload ≠ [])
      (h : Carries server (some (text ++ f.payload)) frames messages) :
      Carries server (some text) (f :: frames) messages
  | last {text f frames messages} (htype : f.frameType = frameContinuation)
      (hfin : f.fin = true) (hpayload : f.payload ≠ []) (h : Carries server none frames messages) :
      Carries server (some text) (f :: frames) ((text ++ f.payload) :: messages)

/-- A message is executed or processed. -/
def Output.isRequest : Output → Bool
  | .write _ => false
  | _ => true

/-- The messages among what came out. -/
def requests (outputs : List Output) : List Output := outputs.filter Output.isRequest

/-- The frames that were sent to the client. -/
def replies (outputs : List Output) : List Output := outputs.filter fun o => !o.isRequest

theorem requests_append (outs outs' : List Output) :
    requests (outs ++ outs') = requests outs ++ requests outs' := List.filter_append ..

theorem replies_append (outs outs' : List Output) :
    replies (outs ++ outs') = replies outs ++ replies outs' := List.filter_append ..

/-- What is sent for a control frame. -/
def replyTo (f : WireFrame) : Output :=
  .write (if f.frameType = framePing then pongOf f.payload else emptyFrame frameText)

/-- The requests that the frames of messages lead to.  The IPF server takes the last fragment
of each. -/
def requestsOf (server : Server) (frames : List WireFrame) (messages : List (List UInt8)) :
    List Output :=
  match server with
  | .esifWs => messages.map .execRestCmd
  | .ipfSrv => (((frames.filter fun f => f.Completes).map WireFrame.payload).filter
      fun payload => HasEsifMsgHdr payload).map .esifMsg

/-- The request that the last fragment of a message leads to. -/
def requestOf (server : Server) (text payload : List UInt8) : List Output :=
  match server with
  | .esifWs => [.execRestCmd (text ++ payload)]
  | .ipfSrv => if HasEsifMsgHdr payload then [.esifMsg payload] else []

/-- The longest message. -/
def maxMessage : Server → Nat
  | .esifWs => maxWebsocketBuffer.toNat - 1
  | .ipfSrv => maxWebsocketBuffer.toNat

theorem maxMessage_le {server : Server} : maxMessage server ≤ maxWebsocketBuffer.toNat := by
  cases server <;> decide

/-- The reply to a ping fits the network buffer. -/
def WireFrame.ReplyFits (server : Server) (f : WireFrame) : Prop :=
  f.frameType = framePing → (pongOf f.payload).length ≤ server.netBufLen.toNat

instance (server : Server) (f : WireFrame) : Decidable (f.ReplyFits server) :=
  inferInstanceAs (Decidable (_ → _))

section Talk

variable {server : Server} {text : Option (List UInt8)} {frames : List WireFrame}
  {messages : List (List UInt8)} {f : WireFrame}

/-- A frame of a message is no control frame. -/
theorem not_isControl (server : Server)
    (h : f.frameType = messageType server ∨ f.frameType = frameContinuation) : ¬f.IsControl := by
  unfold WireFrame.IsControl
  cases server <;> rcases h with h | h <;> rw [h] <;> decide

/-- The fragments that were sent are a part of the first message. -/
theorem Carries.prefix_mem {text : List UInt8} (h : Carries server (some text) frames messages) :
    ∃ message ∈ messages, text.length ≤ message.length := by
  generalize hsome : some text = held at h
  induction h generalizing text with
  | nil => cases hsome
  | control _ _ _ ih => exact ih hsome
  | whole => cases hsome
  | first => cases hsome
  | more _ _ _ _ ih =>
    cases hsome
    obtain ⟨message, hmem, hle⟩ := ih rfl
    rw [List.length_append] at hle
    exact ⟨message, hmem, by omega⟩
  | last =>
    cases hsome
    exact ⟨_, List.mem_cons_self, by simp⟩

/-- Nothing comes out of a control frame but the reply. -/
theorem receive_control (haccepted : f.AcceptedBy server) (hcontrol : f.IsControl)
    (hfin : f.fin = true) (hfits : f.ReplyFits server) (t : Talk) :
    t.receive server f = some ⟨t.text, t.outputs ++ [replyTo f]⟩ := by
  have hanswered : answered server f = some [replyTo f] := by
    unfold answered replyTo
    rcases hcontrol with hping | hpong
    · rw [if_pos hping, if_pos (hfits hping), if_pos hping]
    · have hne : ¬f.frameType = framePing := by rw [hpong]; decide
      rw [if_neg hne, if_pos hpong, if_neg hne]
  rw [Talk.receive, if_pos haccepted, if_pos ⟨hcontrol, hfin⟩, hanswered, Option.map_some]

/-- A fragment that is not the last one is kept. -/
theorem receive_fragment {t : Talk} (haccepted : f.AcceptedBy server)
    (htype : f.frameType = t.expected server) (hfin : f.fin = false)
    (hfits : (t.text.getD []).length + f.payload.length ≤ maxWebsocketBuffer.toNat) :
    t.receive server f = some ⟨some (t.text.getD [] ++ f.payload), t.outputs⟩ := by
  have hcontrol : ¬(f.IsControl ∧ f.fin = true) := by simp [hfin]
  have hfinal : ¬f.fin = true := by simp [hfin]
  rw [Talk.receive, if_pos haccepted, if_neg hcontrol, if_pos htype]
  dsimp only
  rw [if_neg hfinal, if_pos hfits]

/-- The last fragment completes the message. -/
theorem receive_last {t : Talk} (haccepted : f.AcceptedBy server)
    (htype : f.frameType = t.expected server) (hcontrol : ¬f.IsControl) (hfin : f.fin = true)
    {outs : List Output} (houts : finished server (t.text.getD []) f.payload = some outs) :
    t.receive server f = some ⟨none, t.outputs ++ outs⟩ := by
  rw [Talk.receive, if_pos haccepted, if_neg fun h => hcontrol h.1, if_pos htype]
  dsimp only
  rw [if_pos hfin, houts, Option.map_some]

/-- The request that a message leads to. -/
theorem finished_eq (server : Server) (text : List UInt8) {payload : List UInt8}
    (hmax : (text ++ payload).length ≤ maxMessage server) :
    ∃ outs, finished server text payload = some outs ∧ replies outs = [] ∧
      requests outs = requestOf server text payload := by
  cases server with
  | esifWs =>
    have hlt : text.length + payload.length < maxWebsocketBuffer.toNat := by
      have hmax : (text ++ payload).length ≤ 8 * 1024 * 1024 - 1 := hmax
      rw [List.length_append] at hmax
      show _ < 8 * 1024 * 1024
      omega
    exact ⟨_, if_pos hlt, rfl, rfl⟩
  | ipfSrv =>
    refine ⟨requestOf .ipfSrv text payload, rfl, ?_, ?_⟩ <;>
      by_cases h : HasEsifMsgHdr payload <;> simp only [requestOf, h, if_true] <;> rfl

theorem requestsOf_cons_not_completes (h : ¬f.Completes) :
    requestsOf server (f :: frames) messages = requestsOf server frames messages := by
  cases server with
  | esifWs => rfl
  | ipfSrv => simp [requestsOf, h]

theorem requestsOf_cons_completes (h : f.Completes) (text : List UInt8) :
    requestsOf server (f :: frames) ((text ++ f.payload) :: messages) =
      requestOf server text f.payload ++ requestsOf server frames messages := by
  cases server with
  | esifWs => rfl
  | ipfSrv => by_cases hm : HasEsifMsgHdr f.payload <;> simp [requestsOf, requestOf, h, hm]

/-- The rest of the frames, behind one. -/
theorem run_cons_talk {t : Talk} {text' : Option (List UInt8)} {outs outs' : List Output}
    (hf : t.receive server f = some ⟨text', t.outputs ++ outs⟩)
    (hrun : run (Talk.receive server) ⟨text', t.outputs ++ outs⟩ frames =
      some ⟨none, (t.outputs ++ outs) ++ outs'⟩) :
    run (Talk.receive server) t (f :: frames) = some ⟨none, t.outputs ++ (outs ++ outs')⟩ := by
  rw [run_cons, hf, Option.bind_some, hrun, List.append_assoc]

/-- **What comes out of the frames of messages.** -/
theorem Carries.talk (h : Carries server text frames messages)
    (haccepted : ∀ f ∈ frames, f.AcceptedBy server)
    (hmessages : ∀ message ∈ messages, message.length ≤ maxMessage server)
    (hpings : ∀ f ∈ frames, f.ReplyFits server) (outputs : List Output) :
    ∃ outs, run (Talk.receive server) ⟨text, outputs⟩ frames = some ⟨none, outputs ++ outs⟩ ∧
      requests outs = requestsOf server frames messages ∧
      replies outs = (frames.filter fun f => f.IsControl).map replyTo := by
  induction h generalizing outputs with
  | nil => exact ⟨[], by simp, by cases server <;> rfl, rfl⟩
  | @control text f frames messages hcontrol hfin _ ih =>
    rw [List.forall_mem_cons] at haccepted hpings
    have hf := receive_control haccepted.1 hcontrol hfin hpings.1 ⟨text, outputs⟩
    obtain ⟨outs, hrun, hrequests, hreplies⟩ :=
      ih haccepted.2 hmessages hpings.2 (outputs ++ [replyTo f])
    have hwrite : (replyTo f).isRequest = false := rfl
    refine ⟨replyTo f :: outs, run_cons_talk hf hrun, ?_, ?_⟩
    · rw [requestsOf_cons_not_completes fun h => h.1 hcontrol, ← hrequests]
      simp [requests, hwrite]
    · rw [List.filter_cons_of_pos (by simpa using hcontrol), List.map_cons, ← hreplies]
      simp [replies, hwrite]
  | @whole f frames messages htype hfin _ ih =>
    rw [List.forall_mem_cons] at haccepted hpings hmessages
    have hcontrol := not_isControl server (.inl htype)
    obtain ⟨outs₀, hfinished, hreplies₀, hrequests₀⟩ :=
      finished_eq server [] hmessages.1
    have hf := receive_last (t := ⟨none, outputs⟩) haccepted.1 htype hcontrol hfin hfinished
    obtain ⟨outs, hrun, hrequests, hreplies⟩ :=
      ih haccepted.2 hmessages.2 hpings.2 (outputs ++ outs₀)
    refine ⟨outs₀ ++ outs, run_cons_talk hf hrun, ?_, ?_⟩
    · rw [requests_append, hrequests₀, hrequests]
      exact (requestsOf_cons_completes ⟨hcontrol, hfin⟩ []).symm
    · rw [replies_append, hreplies₀, List.nil_append, hreplies,
        List.filter_cons_of_neg (by simpa using hcontrol)]
  | @first f frames messages htype hfin h ih =>
    rw [List.forall_mem_cons] at haccepted hpings
    have hcontrol := not_isControl server (.inl htype)
    obtain ⟨message, hmem, hle⟩ := h.prefix_mem
    have hf := receive_fragment (t := ⟨none, outputs⟩) haccepted.1 htype hfin
      (by simpa using hle.trans ((hmessages message hmem).trans maxMessage_le))
    obtain ⟨outs, hrun, hrequests, hreplies⟩ := ih haccepted.2 hmessages hpings.2 outputs
    refine ⟨outs, ?_, ?_, ?_⟩
    · rw [run_cons, hf, Option.bind_some]
      exact hrun
    · rw [hrequests, requestsOf_cons_not_completes fun h => absurd h.2 (by simp [hfin])]
    · rw [hreplies, List.filter_cons_of_neg (by simpa using hcontrol)]
  | @more text f frames messages htype hfin _ h ih =>
    rw [List.forall_mem_cons] at haccepted hpings
    have hcontrol := not_isControl server (.inr htype)
    obtain ⟨message, hmem, hle⟩ := h.prefix_mem
    rw [List.length_append] at hle
    have hf := receive_fragment (t := ⟨some text, outputs⟩) haccepted.1 htype hfin
      (hle.trans ((hmessages message hmem).trans maxMessage_le))
    obtain ⟨outs, hrun, hrequests, hreplies⟩ := ih haccepted.2 hmessages hpings.2 outputs
    refine ⟨outs, ?_, ?_, ?_⟩
    · rw [run_cons, hf, Option.bind_some]
      exact hrun
    · rw [hrequests, requestsOf_cons_not_completes fun h => absurd h.2 (by simp [hfin])]
    · rw [hreplies, List.filter_cons_of_neg (by simpa using hcontrol)]
  | @last text f frames messages htype hfin _ _ ih =>
    rw [List.forall_mem_cons] at haccepted hpings hmessages
    have hcontrol := not_isControl server (.inr htype)
    obtain ⟨outs₀, hfinished, hreplies₀, hrequests₀⟩ := finished_eq server text hmessages.1
    have hf := receive_last (t := ⟨some text, outputs⟩) haccepted.1 htype hcontrol hfin hfinished
    obtain ⟨outs, hrun, hrequests, hreplies⟩ :=
      ih haccepted.2 hmessages.2 hpings.2 (outputs ++ outs₀)
    refine ⟨outs₀ ++ outs, run_cons_talk hf hrun, ?_, ?_⟩
    · rw [requests_append, hrequests₀, hrequests]
      exact (requestsOf_cons_completes ⟨hcontrol, hfin⟩ text).symm
    · rw [replies_append, hreplies₀, List.nil_append, hreplies,
        List.filter_cons_of_neg (by simpa using hcontrol)]

end Talk

/-! ## The chunks -/

/-- The chunks are a stream of frames, and there is room for each of them. -/
structure CutOf (server : Server) (frames : List WireFrame) (chunks : List (List UInt8)) :
    Prop where
  flatten_eq : chunks.flatten = frames.flatMap WireFrame.encode
  ne_nil : ∀ chunk ∈ chunks, chunk ≠ []
  room : ∀ before chunk behind, chunks = before ++ chunk :: behind →
    Room server (leftover WireFrame.encode frames before.flatten) chunk

/-- There is room for the chunks when they come. -/
theorem CutOf.fits {server : Server} {frames : List WireFrame} {chunks : List (List UInt8)}
    (h : CutOf server frames chunks) {serve : Session → List UInt8 → Option Session} (s : Session) :
    Fits WireFrame.encode serve (fun _ held piece _ _ => Room server held piece) s frames
      chunks := by
  intro before piece behind s' done done' todo part part' hchunks _ hcut _
  rw [← hcut.leftover_eq]
  exact h.room before piece behind hchunks

/-- Chunks of a short stream. -/
theorem cutOf_of_length_le {server : Server} {frames : List WireFrame}
    {chunks : List (List UInt8)} (hflatten : chunks.flatten = frames.flatMap WireFrame.encode)
    (hne : ∀ chunk ∈ chunks, chunk ≠ []) (hle : chunks.flatten.length ≤ server.netBufLen.toNat) :
    CutOf server frames chunks := by
  refine ⟨hflatten, hne, ?_⟩
  intro before chunk behind h
  have hmax : server.netBufLen.toNat ≤ maxWebsocketBuffer.toNat := by cases server <;> decide
  have hleft := length_leftover_le WireFrame.encode frames before.flatten
  rw [h, List.flatten_append, List.flatten_cons, List.length_append, List.length_append] at hle
  exact ⟨by omega, by omega⟩

/-- Chunks that are frames each. -/
theorem cutOf_map_encode {server : Server} {frames : List WireFrame}
    (hfit : ∀ f ∈ frames, f.encode.length ≤ server.netBufLen.toNat) :
    CutOf server frames (frames.map WireFrame.encode) := by
  refine ⟨List.flatMap_def.symm, ?_, ?_⟩
  · intro chunk hchunk
    obtain ⟨f, -, rfl⟩ := List.mem_map.mp hchunk
    exact f.encode_ne_nil
  · intro before chunk behind h
    obtain ⟨done, todo, rfl, rfl, htodo⟩ := List.map_eq_append_iff.mp h
    obtain ⟨f, todo, rfl, rfl, -⟩ := List.map_eq_cons_iff.mp htodo
    have hnet := hfit f (by simp)
    have hle : server.netBufLen.toNat ≤ maxWebsocketBuffer.toNat := by cases server <;> decide
    rw [← List.flatMap_def, (cut_between WireFrame.encode_ne_nil done (f :: todo)).leftover_eq]
    exact ⟨by simpa using hnet.trans hle, hnet⟩

/-- A frame in two chunks. -/
theorem cutOf_two {server : Server} {f : WireFrame} {n : Nat} (hpos : 0 < n)
    (hn : n < f.encode.length) (hfirst : n ≤ server.netBufLen.toNat)
    (hsecond : f.encode.length - n ≤ server.netBufLen.toNat)
    (hmax : f.encode.length ≤ maxWebsocketBuffer.toNat) :
    CutOf server [f] [f.encode.take n, f.encode.drop n] := by
  have htake : (f.encode.take n).length = n := List.length_take_of_le (by omega)
  have hdrop : (f.encode.drop n).length = f.encode.length - n := List.length_drop
  refine ⟨by simp, ?_, ?_⟩
  · intro chunk hchunk
    apply List.ne_nil_of_length_pos
    rcases List.mem_pair.mp hchunk with rfl | rfl
    · omega
    · omega
  · intro before chunk behind h
    rcases before with - | ⟨b, before⟩
    · obtain ⟨rfl, -⟩ := List.cons_eq_cons.mp h
      have hle : server.netBufLen.toNat ≤ maxWebsocketBuffer.toNat := by cases server <;> decide
      refine ⟨?_, by omega⟩
      have hnone : leftover WireFrame.encode [f] [] = [] :=
        (cut_nil WireFrame.encode_ne_nil [f]).leftover_eq
      rw [List.flatten_nil, hnone, htake, List.length_nil]
      omega
    · obtain ⟨rfl, hrest⟩ := List.cons_eq_cons.mp h
      rcases before with - | ⟨b, before⟩
      · obtain ⟨rfl, -⟩ := List.cons_eq_cons.mp hrest
        have hpart : leftover WireFrame.encode [f] [f.encode.take n].flatten = f.encode.take n := by
          simp [leftover, Nat.not_le.mpr hn]
        rw [hpart]
        exact ⟨by omega, by omega⟩
      · simp at hrest

/-! ## Texts for the server of the user interface -/

/-- The texts are executed, and the control frames answered. -/
def Reassembles (env : Env) (fuel : Nat) (frames : List WireFrame)
    (messages chunks : List (List UInt8)) : Prop :=
  ∃ s, run (serve .esifWs env fuel) Session.start chunks = some s ∧
    requests s.outputs = messages.map .execRestCmd ∧
    replies s.outputs = (frames.filter fun f => f.IsControl).map replyTo

/-- **Messages are reassembled.**  The server of the user interface executes the texts that
the frames carry, each one whole and in order, and answers the control frames, whatever
chunks the frames come in. -/
theorem reassembled {env : Env} (henv : env.Plenty) (hrest : env.restRc = esifOk) {fuel : Nat}
    (hfuel : maxWebsocketBuffer.toNat ≤ fuel) {frames : List WireFrame}
    {messages chunks : List (List UInt8)} (hcarries : Carries .esifWs none frames messages)
    (hmessages : ∀ message ∈ messages, message.length + 1 ≤ maxWebsocketBuffer.toNat)
    (hpings : ∀ f ∈ frames, f.ReplyFits .esifWs) (hcut : CutOf .esifWs frames chunks) :
    Reassembles env fuel frames messages chunks := by
  obtain ⟨outs, hrun, hrequests, hreplies⟩ := hcarries.talk (fun _ _ => nofun)
    (fun m hm => Nat.le_sub_one_of_lt (hmessages m hm)) hpings []
  obtain ⟨s, hserve, -, houts⟩ := (serves henv hrest hfuel).run WireFrame.encode_ne_nil
    ⟨Session.waits_start .esifWs, rfl⟩ hrun hcut.flatten_eq hcut.ne_nil (hcut.fits _)
  rw [List.nil_append] at houts
  exact ⟨s, hserve, by rw [houts, hrequests]; rfl, by rw [houts, hreplies]⟩

/-- There is memory, and all goes well. -/
def roomy : Env := ⟨fun _ => true, esifOk, esifOk⟩

theorem roomy_plenty : roomy.Plenty := ⟨fun _ => rfl, rfl⟩

/-- A frame with a short payload. -/
def shortFrame (frameType : UInt8) (fin : Bool) (maskKey : Option UInt32) (payload : List UInt8)
    (htype : frameType.toNat < 16) (hlen : payload.length ≤ 125) : WireFrame :=
  ⟨frameType, fin, maskKey, .type1, payload, htype, hlen⟩

theorem frameContinuation_lt : frameContinuation.toNat < 16 := by decide

/-- A ping of one byte. -/
def shortPing (maskKey : Option UInt32) : WireFrame :=
  shortFrame framePing true maskKey [0x70] (by decide) (by decide)

/-- "1:hi" in two fragments with a ping in between. -/
def greeting : List WireFrame :=
  [shortFrame frameText false (some 0x01020304) [0x31, 0x3A] (by decide) (by decide),
    shortPing none,
    shortFrame frameContinuation true (some 0x0A0B0C0D) [0x68, 0x69] frameContinuation_lt
      (by decide)]

/-- Chunks that end within the frames. -/
def greetingChunks : List (List UInt8) :=
  let bytes := greeting.flatMap WireFrame.encode
  [bytes.take 1, (bytes.drop 1).take 9, (bytes.drop 10).take 3, bytes.drop 13]

theorem reassembled_greeting :
    Reassembles roomy maxWebsocketBuffer.toNat greeting [[0x31, 0x3A, 0x68, 0x69]] greetingChunks :=
  reassembled roomy_plenty rfl (Nat.le_refl _)
    (.first rfl rfl (.control (.inl rfl) rfl (.last rfl rfl (by decide) .nil))) (by decide)
    (by decide)
    (cutOf_of_length_le (by decide) (by decide) (by decide))

/-! ### What does not fit -/

/-- A masked frame with so many zero bytes. -/
def zeroFrame (frameType : UInt8) (fin : Bool) (n : Nat) (htype : frameType.toNat < 16)
    (hn : n ≤ 0xFFFF) : WireFrame where
  frameType := frameType
  fin := fin
  maskKey := some 0x01020304
  layout := .type2
  payload := List.replicate n 0
  frameType_lt := htype
  payload_le := by rwa [List.length_replicate]

theorem length_zeroFrame {frameType : UInt8} {fin : Bool} {n : Nat}
    {htype : frameType.toNat < 16} {hn : n ≤ 0xFFFF} :
    (zeroFrame frameType fin n htype hn).encode.length = n + 8 := by
  rw [WireFrame.length_encode, WireFrame.length_header, zeroFrame, List.length_replicate]
  simp only [Layout.extended, Option.isSome_some, if_true]
  omega

theorem length_payload_zeroFrame {frameType : UInt8} {fin : Bool} {n : Nat}
    {htype : frameType.toNat < 16} {hn : n ≤ 0xFFFF} :
    (zeroFrame frameType fin n htype hn).payload.length = n := List.length_replicate

/-- A ping of which the reply takes 65536 bytes. -/
def longPing : WireFrame := zeroFrame framePing true 65532 (by decide) (by decide)

theorem length_longPing : longPing.encode.length = 65540 := length_zeroFrame

/-- The chunks that the ping comes in. -/
def longPingChunks : List (List UInt8) :=
  [longPing.encode.take 65535, longPing.encode.drop 65535]

theorem cutOf_longPing : CutOf .esifWs [longPing] longPingChunks := by
  have hlen := length_longPing
  have hnet : Server.netBufLen .esifWs = 65535 := rfl
  have hmax : maxWebsocketBuffer = 8388608 := rfl
  refine cutOf_two (by decide) ?_ ?_ ?_ ?_ <;> simp [hlen, hnet, hmax]

/-- The ping is not answered. -/
theorem longPing_unanswered {fuel : Nat} (hfuel : maxWebsocketBuffer.toNat ≤ fuel) :
    ∃ s, run (serve .esifWs roomy fuel) Session.start longPingChunks = some s ∧ s.outputs = [] := by
  have hlen := length_longPing
  have hcut := cutOf_longPing
  have hparts := List.take_append_drop 65535 longPing.encode
  have htake : (longPing.encode.take 65535).length = 65535 := List.length_take_of_le (by omega)
  have haccepted : longPing.AcceptedBy .esifWs := nofun
  have hne (chunk : List UInt8) (h : chunk ∈ longPingChunks) : chunk ≠ [] := hcut.ne_nil chunk h
  -- the first chunk is a part of the frame
  have hpart : IsPart .esifWs (longPing.encode.take 65535) :=
    .inr ⟨longPing, haccepted, _, hparts.symm, hne _ (by simp [longPingChunks])⟩
  have hroom := hcut.room [] _ _ rfl
  rw [List.flatten_nil, (cut_nil WireFrame.encode_ne_nil [longPing]).leftover_eq] at hroom
  have hstart : [] ++ longPing.encode.take 65535 =
      [].flatMap WireFrame.encode ++ longPing.encode.take 65535 := by simp
  obtain ⟨s₁, hserve₁, houts₁, hwaits₁⟩ := serve_cut (t := Talk.start) roomy_plenty
    (Session.waits_start .esifWs) rfl (hne _ (by simp [longPingChunks])) hroom.2 hroom.1 hstart
    hpart rfl hfuel
  -- the second chunk completes it, and the reply does not fit
  have hroom₂ := hcut.room [longPing.encode.take 65535] _ _ rfl
  have hleft : leftover WireFrame.encode [longPing] [longPing.encode.take 65535].flatten =
      longPing.encode.take 65535 := by
    simp [leftover, hlen]
  rw [hleft] at hroom₂
  have hbuild : buildFrame (Server.netBufLen .esifWs) longPing.parsed.payloadSize =
      esifENeedLargerBuffer := by
    have hpayload : longPing.parsed.payloadSize = 65532 := by
      rw [WireFrame.parsed, longPing, length_payload_zeroFrame]
      rfl
    rw [hpayload]
    decide
  obtain ⟨s₂, hserve₂, -, houts₂⟩ := serve_fails roomy_plenty (f := longPing) (hwaits₁ (.inl rfl))
    (hne _ (by simp [longPingChunks])) hroom₂ hparts haccepted rfl (by
      intro client _
      refine ⟨esifENeedLargerBuffer, client, ?_, by decide, by decide, ?_⟩
      · have htype : typeOf client longPing = framePing := rfl
        simp only [htype, websocketResponse, sendFrame, hbuild]
        rfl
      · intro inNetBuf buffer
        have htype : typeOf client longPing = framePing := rfl
        simp only [htype, responseOutputs, sendOutputs, hbuild]
        rfl) fuel
  refine ⟨s₂, ?_, ?_⟩
  · rw [longPingChunks, run_cons, hserve₁, Option.bind_some, run_cons, hserve₂]
    rfl
  · rw [houts₂, houts₁]
    rfl

/-- Fragments that are not the last one are put behind each other. -/
theorem run_more {server : Server} {frames : List WireFrame} {text : List UInt8}
    (outputs : List Output)
    (h : ∀ f ∈ frames, f.AcceptedBy server ∧ f.frameType = frameContinuation ∧ f.fin = false)
    (hmax : text.length + (frames.flatMap WireFrame.payload).length ≤ maxWebsocketBuffer.toNat) :
    run (Talk.receive server) ⟨some text, outputs⟩ frames =
      some ⟨some (text ++ frames.flatMap WireFrame.payload), outputs⟩ := by
  induction frames generalizing text with
  | nil => simp
  | cons f frames ih =>
    rw [List.forall_mem_cons] at h
    obtain ⟨⟨haccepted, htype, hfin⟩, hframes⟩ := h
    rw [List.flatMap_cons, List.length_append] at hmax
    have hf := receive_fragment (t := ⟨some text, outputs⟩) haccepted htype hfin
      (by show text.length + _ ≤ _; omega)
    have hle : (text ++ f.payload).length + (frames.flatMap WireFrame.payload).length ≤
        maxWebsocketBuffer.toNat := by
      rw [List.length_append]
      omega
    have hrest := ih hframes hle
    rw [run_cons, hf, Option.bind_some, List.flatMap_cons, ← List.append_assoc]
    exact hrest

theorem carries_more {server : Server} {frames rest : List WireFrame} {text : List UInt8}
    {messages : List (List UInt8)}
    (h : ∀ f ∈ frames, f.frameType = frameContinuation ∧ f.fin = false ∧ f.payload ≠ [])
    (hrest : Carries server (some (text ++ frames.flatMap WireFrame.payload)) rest messages) :
    Carries server (some text) (frames ++ rest) messages := by
  induction frames generalizing text with
  | nil => simpa using hrest
  | cons f frames ih =>
    rw [List.forall_mem_cons] at h
    rw [List.flatMap_cons, ← List.append_assoc] at hrest
    exact .more h.1.1 h.1.2.1 h.1.2.2 (ih h.2 hrest)

/-- The fragments of a text of 8 MiB but for the last one, 32 KiB each. -/
def longTextFirst : WireFrame := zeroFrame frameText false 32768 (by decide) (by decide)
def longTextMore : List WireFrame :=
  List.replicate 254 (zeroFrame frameContinuation false 32768 (by decide) (by decide))
def longTextLast : WireFrame := zeroFrame frameContinuation true 32768 (by decide) (by decide)

/-- The fragments of the text. -/
def longTextFrames : List WireFrame := longTextFirst :: longTextMore ++ [longTextLast]

/-- What is buffered of the text, and the text. -/
def longTextHeld : List UInt8 :=
  longTextFirst.payload ++ longTextMore.flatMap WireFrame.payload
def longText : List UInt8 := longTextHeld ++ longTextLast.payload

theorem length_longTextHeld : longTextHeld.length = 255 * 32768 := by
  rw [longTextHeld, longTextMore, longTextFirst, List.length_append, length_payload_zeroFrame,
    List.length_flatMap, List.map_replicate, length_payload_zeroFrame, List.sum_replicate_nat]

theorem length_longText : longText.length = maxWebsocketBuffer.toNat := by
  rw [longText, longTextLast, List.length_append, length_longTextHeld, length_payload_zeroFrame]
  rfl

theorem longTextMore_spec {f : WireFrame} (h : f ∈ longTextMore) :
    f.frameType = frameContinuation ∧ f.fin = false ∧ f.payload ≠ [] := by
  obtain ⟨-, rfl⟩ := List.mem_replicate.mp h
  refine ⟨rfl, rfl, List.ne_nil_of_length_pos ?_⟩
  rw [length_payload_zeroFrame]
  decide

theorem carries_longText : Carries .esifWs none longTextFrames [longText] := by
  refine .first rfl rfl (carries_more (fun f hf => longTextMore_spec hf) ?_)
  refine .last rfl rfl (List.ne_nil_of_length_pos ?_) .nil
  rw [longTextLast, length_payload_zeroFrame]
  decide

/-- Each of the fragments fits a chunk. -/
theorem longTextFrames_fit {f : WireFrame} (h : f ∈ longTextFrames) :
    f.encode.length ≤ (Server.netBufLen .esifWs).toNat := by
  have hlen : f.encode.length = 32768 + 8 := by
    rw [longTextFrames, List.mem_append, List.mem_cons, List.mem_singleton] at h
    rcases h with (rfl | hf) | rfl
    · exact length_zeroFrame
    · obtain ⟨-, rfl⟩ := List.mem_replicate.mp hf
      exact length_zeroFrame
    · exact length_zeroFrame
  rw [hlen]
  decide

/-- The text is not executed. -/
theorem longText_ignored {fuel : Nat} (hfuel : maxWebsocketBuffer.toNat ≤ fuel) :
    ∃ s, run (serve .esifWs roomy fuel) Session.start (longTextFrames.map WireFrame.encode) =
      some s ∧ s.outputs = [] := by
  have hheld := length_longTextHeld
  have hlast : longTextLast.payload.length = 32768 := length_payload_zeroFrame
  have hmax : maxWebsocketBuffer.toNat = 256 * 32768 := rfl
  -- all fragments but the last one are buffered
  have haccepted (f : WireFrame) : f.AcceptedBy .esifWs := nofun
  have hfirst := receive_fragment (t := Talk.start) (haccepted longTextFirst) rfl rfl
    (by rw [longTextFirst, length_payload_zeroFrame]; decide)
  have hspec : ∀ f ∈ longTextMore,
      f.AcceptedBy .esifWs ∧ f.frameType = frameContinuation ∧ f.fin = false :=
    fun f hf => ⟨haccepted f, (longTextMore_spec hf).1, (longTextMore_spec hf).2.1⟩
  have hheld' : longTextFirst.payload.length + (longTextMore.flatMap WireFrame.payload).length ≤
      maxWebsocketBuffer.toNat := by
    rw [← List.length_append, ← longTextHeld]
    omega
  have hmore := run_more [] hspec hheld'
  have hrun : run (Talk.receive .esifWs) Talk.start (longTextFirst :: longTextMore) =
      some ⟨some longTextHeld, []⟩ := by
    have htext : Talk.start.text.getD [] ++ longTextFirst.payload = longTextFirst.payload :=
      List.nil_append _
    rw [run_cons, hfirst, Option.bind_some, htext, longTextHeld]
    exact hmore
  have hfit : ∀ f ∈ longTextFirst :: longTextMore,
      f.encode.length ≤ (Server.netBufLen .esifWs).toNat :=
    fun f hf => longTextFrames_fit (List.mem_append_left _ hf)
  have hcut := cutOf_map_encode hfit
  obtain ⟨s₁, hserve₁, hwaits₁, houts₁⟩ := (serves roomy_plenty rfl hfuel).run
    WireFrame.encode_ne_nil ⟨Session.waits_start .esifWs, rfl⟩ hrun hcut.flatten_eq hcut.ne_nil
    (hcut.fits _)
  -- with the last one there is no room for the terminator
  have hnet := longTextFrames_fit (f := longTextLast) (by simp [longTextFrames])
  have hle : (Server.netBufLen .esifWs).toNat ≤ maxWebsocketBuffer.toNat := by decide
  have hroom : Room .esifWs [] longTextLast.encode := by
    refine ⟨?_, hnet⟩
    rw [List.length_nil, Nat.zero_add]
    exact hnet.trans hle
  obtain ⟨s₂, hserve₂, -, houts₂⟩ := serve_fails roomy_plenty (f := longTextLast) hwaits₁
    longTextLast.encode_ne_nil hroom (List.nil_append _) nofun rfl (by
      intro client hclient
      have htype : typeOf client longTextLast = frameText := hclient.msgType rfl
      have htotal : ¬blockLen client.fragBuf + longTextLast.parsed.payloadSize <
          maxWebsocketBuffer := by
        rw [hclient.fragBuf, Option.getD_some, UInt64.lt_iff_toNat_lt,
          toNat_blockLen_add (by omega)]
        omega
      refine ⟨esifENoMemory, client, ?_, by decide, by decide, ?_⟩
      · simp [htype, websocketResponse, executeText, htotal, frameText, frameContinuation]
      · intro inNetBuf buffer
        simp [htype, responseOutputs, htotal, frameText, frameContinuation]) fuel
  refine ⟨s₂, ?_, by rw [houts₂, houts₁]⟩
  rw [longTextFrames, List.map_append, run_append, hserve₁]
  simp [hserve₂]

/-- A text without an identifier in front of a command. -/
def namelessText : WireFrame := shortFrame frameText true none [0x68, 0x69] (by decide) (by decide)

/-- There is memory, and the texts are refused. -/
def refusing : Env := { roomy with restRc := esifEParameterIsNull }

/-- **What does not fit is not reassembled**: a ping with a reply longer than the network
buffer, and a text that leaves no room for its terminator.  Nor is what comes in a later chunk
than a text that is refused. -/
theorem not_reassembled :
    (¬∀ frames messages chunks, Carries .esifWs none frames messages →
      (∀ message ∈ messages, message.length + 1 ≤ maxWebsocketBuffer.toNat) →
      CutOf .esifWs frames chunks →
      Reassembles roomy maxWebsocketBuffer.toNat frames messages chunks) ∧
    (¬∀ frames messages chunks, Carries .esifWs none frames messages →
      (∀ message ∈ messages, message.length ≤ maxWebsocketBuffer.toNat) →
      (∀ f ∈ frames, f.ReplyFits .esifWs) → CutOf .esifWs frames chunks →
      Reassembles roomy maxWebsocketBuffer.toNat frames messages chunks) ∧
    ¬∀ frames messages chunks, Carries .esifWs none frames messages →
      (∀ message ∈ messages, message.length + 1 ≤ maxWebsocketBuffer.toNat) →
      (∀ f ∈ frames, f.ReplyFits .esifWs) → CutOf .esifWs frames chunks →
      Reassembles refusing maxWebsocketBuffer.toNat frames messages chunks := by
  refine ⟨?_, ?_, ?_⟩
  · intro h
    have hcarries : Carries .esifWs none [longPing] [] := .control (.inl rfl) rfl .nil
    obtain ⟨s, hrun, -, hreplies⟩ := h _ _ _ hcarries (by simp) cutOf_longPing
    obtain ⟨s', hrun', houts⟩ := longPing_unanswered (Nat.le_refl _)
    obtain rfl : s = s' := Option.some.inj (hrun.symm.trans hrun')
    have hcontrol : longPing.IsControl := .inl rfl
    simp [houts, replies, hcontrol] at hreplies
  · intro h
    have hpings : ∀ f ∈ longTextFrames, f.ReplyFits .esifWs := by
      intro f hf hping
      rw [longTextFrames, List.mem_append, List.mem_cons, List.mem_singleton] at hf
      rcases hf with (rfl | hf) | rfl
      · cases hping
      · rw [(longTextMore_spec hf).1] at hping
        cases hping
      · cases hping
    have hcut : CutOf .esifWs longTextFrames (longTextFrames.map WireFrame.encode) :=
      cutOf_map_encode fun f hf => longTextFrames_fit hf
    obtain ⟨s, hrun, hrequests, -⟩ := h _ _ _ carries_longText
      (by simp [length_longText]) hpings hcut
    obtain ⟨s', hrun', houts⟩ := longText_ignored (Nat.le_refl _)
    obtain rfl : s = s' := Option.some.inj (hrun.symm.trans hrun')
    simp [houts, requests] at hrequests
  · intro h
    have hcarries : Carries .esifWs none [namelessText, namelessText] [[0x68, 0x69], [0x68, 0x69]] :=
      .whole rfl rfl (.whole rfl rfl .nil)
    have hcut : CutOf .esifWs [namelessText, namelessText]
        [namelessText.encode, namelessText.encode] := cutOf_map_encode (by decide)
    obtain ⟨s, hrun, -⟩ := h _ _ _ hcarries (by decide) (by decide) hcut
    -- the first one ends the connection
    have hends : run (serve .esifWs refusing maxWebsocketBuffer.toNat) Session.start
        [namelessText.encode, namelessText.encode] = none := by decide +kernel
    rw [hends] at hrun
    cases hrun

end Ws

import Dptf.Ws.Session

/-!
# Messages a frame at a time

What a server makes of the frames of its client, with no thought of how they come:
fragments are collected, the last one completes the message, pings are answered in
between.  The connection does the same with the bytes, wherever they are cut.

* `nextFrame_encode` — **a turn of the loop** is one step of it.
-/

open Lib

namespace Ws

/-! ## The frames of a message -/

/-- The type of the messages that a server processes. -/
def messageType : Server → UInt8
  | .esifWs => frameText
  | .ipfSrv => frameBinary

/-- The fragments of a message that is not complete, and what came out so far. -/
structure Talk where
  text : Option (List UInt8)
  outputs : List Output
deriving DecidableEq, Repr

/-- What comes out of the last fragment of a message, where the ones before are `text`. -/
def finished (server : Server) (text payload : List UInt8) : Option (List Output) :=
  match server with
  | .esifWs =>
    if text.length + payload.length < maxWebsocketBuffer.toNat then
      some [.execRestCmd (text ++ payload)]
    else none
  | .ipfSrv => some (if HasEsifMsgHdr payload then [.esifMsg payload] else [])

/-- The frame that answers a ping. -/
def pongOf (payload : List UInt8) : List UInt8 :=
  builtHeader payload.length framePong finFinal ++ payload

/-- What comes out of a control frame. -/
def answered (server : Server) (f : WireFrame) : Option (List Output) :=
  if f.frameType = framePing then
    if (pongOf f.payload).length ≤ server.netBufLen.toNat then some [.write (pongOf f.payload)]
    else none
  else if f.frameType = framePong then some [.write (emptyFrame frameText)]
  else none

def WireFrame.IsControl (f : WireFrame) : Prop := f.frameType = framePing ∨ f.frameType = framePong

instance (f : WireFrame) : Decidable f.IsControl := inferInstanceAs (Decidable (_ ∨ _))

/-- The frame is the last one of a message. -/
def WireFrame.Completes (f : WireFrame) : Prop := ¬f.IsControl ∧ f.fin = true

instance (f : WireFrame) : Decidable f.Completes := inferInstanceAs (Decidable (_ ∧ _))

instance (f : WireFrame) (server : Server) : Decidable (f.AcceptedBy server) :=
  inferInstanceAs (Decidable (_ → _))

namespace Talk

/-- Nothing was received. -/
def start : Talk := ⟨none, []⟩

/-- The type of the next fragment. -/
def expected (server : Server) (t : Talk) : UInt8 :=
  if t.text = none then messageType server else frameContinuation

/-- A frame is received. -/
def receive (server : Server) (t : Talk) (f : WireFrame) : Option Talk :=
  if f.AcceptedBy server then
    if f.IsControl ∧ f.fin = true then
      (answered server f).map fun outs => { t with outputs := t.outputs ++ outs }
    else if f.frameType = t.expected server then
      let text := t.text.getD []
      if f.fin = true then
        (finished server text f.payload).map fun outs => ⟨none, t.outputs ++ outs⟩
      else if text.length + f.payload.length ≤ maxWebsocketBuffer.toNat then
        some ⟨some (text ++ f.payload), t.outputs⟩
      else none
    else none
  else none

end Talk

/-! ## The client of a connection -/

/-- The client holds a part of a frame, and the fragments of a message. -/
structure ClientHolds (server : Server) (client : WebClient) (held : List UInt8)
    (text : Option (List UInt8)) : Prop where
  type : client.type = .websocket
  recvBuf : client.recvBuf = held
  fragBuf : client.fragBuf = text.getD []
  msgType : text.isSome = true → client.msgType = messageType server

/-- There is memory, and what is sent goes out. -/
structure Env.Plenty (env : Env) : Prop where
  malloc : ∀ size, env.malloc size = true
  sendRc : env.sendRc = esifOk

theorem Env.Plenty.alloc {env : Env} (h : env.Plenty) {n : Nat} (hn : n < 2 ^ 63) :
    env.alloc (.ofNat n) = true := by
  have hle : UInt64.ofNat n ≤ ptrdiffMax := by
    rw [UInt64.le_iff_toNat_le, UInt64.toNat_ofNat']
    show n % 2 ^ 64 ≤ 2 ^ 63 - 1
    omega
  simp [Env.alloc, h.malloc, hle]

/-- The connection behind a turn: what remains is parsed next, or the request ends. -/
def turned (rc : EsifError) (client : WebClient) (more : List UInt8) : Conn :=
  if more = [] then settle (rc, client) else ⟨client, some more⟩

section Turn

variable {server : Server} {env : Env} {client : WebClient} {f : WireFrame}
  {more : List UInt8} {bufLen : UInt64}

theorem remainingOf_parsed (hlen : bufLen.toNat = (f.encode ++ more).length) :
    remainingOf bufLen f.parsed = .ofNat more.length := by
  have henc : f.parsed.frameSize.toNat = f.encode.length := f.toNat_length_encode
  have hall : bufLen.toNat = f.encode.length + more.length := by
    rw [hlen, List.length_append]
  have hlt := bufLen.toNat_lt
  apply UInt64.toNat_inj.mp
  rw [UInt64.toNat_ofNat']
  unfold remainingOf
  split
  · rename_i h
    rw [UInt64.toNat_sub_of_le _ _ (UInt64.le_of_lt h), henc]
    omega
  · rename_i h
    rw [UInt64.lt_iff_toNat_lt, henc] at h
    show 0 = _
    omega

theorem remaining_eq (hlen : bufLen.toNat = (f.encode ++ more).length) :
    ((f.header ++ f.payload ++ more).drop f.parsed.frameSize.toNat).take
      (remainingOf bufLen f.parsed).toNat = more := by
  have henc : f.parsed.frameSize.toNat = (f.header ++ f.payload).length := by
    rw [List.length_append, ← f.length_encode]
    exact f.toNat_length_encode
  have hmore : more.length < 2 ^ 64 := by
    have hlt := bufLen.toNat_lt
    rw [hlen, List.length_append] at hlt
    omega
  rw [remainingOf_parsed hlen, henc, List.drop_left, UInt64.toNat_ofNat',
    Nat.mod_eq_of_lt hmore, List.take_length]

theorem remainingOf_ne_zero (hlen : bufLen.toNat = (f.encode ++ more).length) :
    remainingOf bufLen f.parsed ≠ 0 ↔ more ≠ [] := by
  have hmore : more.length < 2 ^ 64 := by
    have hlt := bufLen.toNat_lt
    rw [hlen, List.length_append] at hlt
    omega
  rw [remainingOf_parsed hlen, ne_eq, ne_eq, not_iff_not, ← UInt64.toNat_inj,
    UInt64.toNat_ofNat', Nat.mod_eq_of_lt hmore]
  exact List.length_eq_zero_iff

/-- There is memory for what remains. -/
theorem alloc_remaining (henv : env.Plenty) (hlen : bufLen.toNat = (f.encode ++ more).length)
    (hmax : (f.encode ++ more).length < 2 ^ 63) :
    env.alloc (remainingOf bufLen f.parsed) = true := by
  rw [remainingOf_parsed hlen]
  rw [List.length_append] at hmax
  exact henv.alloc (by omega)

theorem parsed_fin : f.parsed.header.fin = if f.fin then finFinal else finFragment := rfl

/-- A turn with a fragment that is buffered. -/
theorem handleFrame_fragment (henv : env.Plenty)
    (hlen : bufLen.toNat = (f.encode ++ more).length) (hmax : (f.encode ++ more).length < 2 ^ 63)
    (hfin : f.fin = false) {client' : WebClient}
    (hbuf : bufferFragment env client (f.header ++ f.payload ++ more) f.parsed =
      (esifOk, client')) (inNetBuf allocated : Bool) :
    handleFrame server env client (f.header ++ f.payload ++ more) bufLen f.parsed allocated =
        turned esifOk client' more ∧
      frameOutputs server env inNetBuf client (f.header ++ f.payload ++ more) bufLen f.parsed
        allocated = [] := by
  have hfin' : f.parsed.header.fin = finFragment := by rw [parsed_fin, hfin]; rfl
  have hne : finFragment ≠ finFinal := by decide
  have halloc := alloc_remaining henv hlen hmax
  constructor
  · unfold handleFrame
    simp only [hfin', if_true, hbuf, halloc, hne, and_false, if_false, remaining_eq hlen,
      remainingOf_ne_zero hlen]
    by_cases hmore : more = [] <;> simp [hmore, turned]
  · unfold frameOutputs
    simp only [hfin', if_true, hbuf, halloc, hne, and_false, if_false]
    simp

/-- The type of the message that a frame belongs to. -/
def typeOf (client : WebClient) (f : WireFrame) : UInt8 :=
  if f.frameType = frameContinuation then client.msgType else f.frameType

/-- A turn with the last or only frame of a message. -/
theorem handleFrame_final (henv : env.Plenty)
    (hlen : bufLen.toNat = (f.encode ++ more).length) (hmax : (f.encode ++ more).length < 2 ^ 63)
    (hfin : f.fin = true) {client' : WebClient} {rc : EsifError}
    (hresp : websocketResponse server env client
      { f.parsed with frameType := typeOf client f } = (rc, client'))
    (inNetBuf allocated : Bool) :
    handleFrame server env client (f.header ++ f.payload ++ more) bufLen f.parsed allocated =
        turned rc client' more ∧
      frameOutputs server env inNetBuf client (f.header ++ f.payload ++ more) bufLen f.parsed
          allocated =
        responseOutputs server env inNetBuf client (f.header ++ f.payload ++ more)
          { f.parsed with frameType := typeOf client f } := by
  have hfin' : f.parsed.header.fin = finFinal := by rw [parsed_fin, hfin]; rfl
  have hne : finFinal ≠ finFragment := by decide
  have halloc := alloc_remaining henv hlen hmax
  have hframe : (if f.parsed.frameType = frameContinuation then
      { f.parsed with frameType := client.msgType } else f.parsed) =
      { f.parsed with frameType := typeOf client f } := by
    unfold typeOf
    by_cases hc : f.frameType = frameContinuation
    · rw [if_pos hc, if_pos (show f.parsed.frameType = frameContinuation from hc)]
    · rw [if_neg hc, if_neg (show ¬f.parsed.frameType = frameContinuation from hc)]
      rfl
  constructor
  · unfold handleFrame
    simp only [hfin', if_neg hne, and_true, hframe, hresp, if_true, halloc, ne_eq,
      not_true_eq_false, Bool.not_true, Bool.false_eq_true, and_false, or_false, if_false,
      remaining_eq hlen]
    by_cases hmore : more = []
    · have hzero : remainingOf bufLen f.parsed = 0 := by
        by_contra h
        exact (remainingOf_ne_zero hlen).mp h hmore
      simp [hzero, hmore, turned]
    · have hpos := (remainingOf_ne_zero hlen).mpr hmore
      simp [hpos, hmore, turned]
  · unfold frameOutputs
    simp only [hfin', if_neg hne, and_true, hframe, if_true, halloc, ne_eq, not_true_eq_false,
      Bool.not_true, Bool.false_eq_true, and_false, or_false, if_false]

/-- The header of the reply is no longer than that of the ping. -/
theorem dataPtrOf_le_length_header (f : WireFrame) :
    dataPtrOf f.payload.length ≤ f.header.length := by
  have hle := f.payload_le
  rw [f.length_header]
  unfold dataPtrOf
  cases hl : f.layout with
  | type1 =>
    rw [hl] at hle
    have hle : f.payload.length ≤ wsFrameHeaderType1Max.toNat := hle
    rw [if_pos hle]
    omega
  | type2 =>
    rw [hl] at hle
    have hle : f.payload.length ≤ wsFrameHeaderType2Max.toNat := hle
    rw [if_pos hle]
    simp only [Layout.extended]
    split <;> omega
  | type3 =>
    simp only [Layout.extended]
    split_ifs <;> omega

/-- **The reply to a ping** has its payload, though it is built over it. -/
theorem pongFrame_eq (inNetBuf : Bool) (f : WireFrame) (more : List UInt8)
    (frame : WsFrame) (hsize : frame.headerSize = f.parsed.headerSize)
    (hpayload : frame.payloadSize = f.parsed.payloadSize) :
    pongFrame inNetBuf (f.header ++ f.payload ++ more) frame = pongOf f.payload := by
  have hhead := f.length_header_le
  have hmax := Nat.lt_of_le_of_lt f.payload_le f.layout.maxPayload_lt
  have hhs : frame.headerSize.toNat = f.header.length := by
    rw [hsize]
    simp only [WireFrame.parsed, UInt64.toNat_ofNat']
    omega
  have hps : frame.payloadSize.toNat = f.payload.length := by
    rw [hpayload]
    simp only [WireFrame.parsed, UInt64.toNat_ofNat']
    omega
  unfold pongFrame pongOf
  simp only [hhs, hps]
  cases inNetBuf with
  | false =>
    rw [if_neg (by decide), payloadOf, hhs, hps, List.append_assoc f.header, List.drop_left,
      List.take_left]
  | true =>
    have hdst := dataPtrOf_le_length_header f
    rw [← length_builtHeader f.payload.length framePong finFinal] at hdst
    generalize builtHeader f.payload.length framePong finFinal = reply at hdst ⊢
    have hover : overwrite (f.header ++ f.payload ++ more) 0 reply =
        reply ++ f.header.drop reply.length ++ (f.payload ++ more) := by
      rw [overwrite, List.take_zero, List.nil_append, Nat.zero_add, List.append_assoc f.header,
        List.drop_append_of_le_length hdst, List.append_assoc]
    have hlen : (reply ++ f.header.drop reply.length).length = f.header.length := by
      rw [List.length_append, List.length_drop]
      omega
    have hroom : f.header.length + f.payload.length ≤
        (overwrite (f.header ++ f.payload ++ more) 0 reply).length := by
      rw [hover, List.length_append, hlen, List.length_append]
      omega
    rw [if_pos rfl, take_copyWithin hdst hroom, hover, List.append_assoc, List.take_left, peekAt,
      ← List.append_assoc, ← hlen, List.drop_left, List.take_left]

/-- A control frame is answered, and changes nothing else. -/
theorem websocketResponse_control (henv : env.Plenty) (htype : client.type = .websocket)
    {outs : List Output} (houts : answered server f = some outs) (inNetBuf : Bool) :
    websocketResponse server env client { f.parsed with frameType := typeOf client f } =
        (esifOk, client) ∧
      responseOutputs server env inNetBuf client (f.header ++ f.payload ++ more)
        { f.parsed with frameType := typeOf client f } = outs := by
  have hmax := Nat.lt_of_le_of_lt f.payload_le f.layout.maxPayload_lt
  have hwrite : write env client = (esifOk, client) := by simp [write, htype, henv.sendRc]
  have hclosed : client.type ≠ .closed := by simp [htype]
  unfold answered at houts
  split at houts
  · rename_i hping
    obtain ⟨hroom, rfl⟩ := Option.ite_some_none_eq_some.1 houts
    have htypeOf : typeOf client f = framePing := by
      unfold typeOf
      rw [hping]
      rfl
    rw [pongOf, List.length_append, length_builtHeader] at hroom
    have hsmall : f.payload.length ≤ wsFrameHeaderType3Max.toNat := by
      have hnet : server.netBufLen.toNat ≤ wsFrameHeaderType3Max.toNat := by
        cases server <;> decide
      omega
    have hbuild : buildFrame server.netBufLen f.parsed.payloadSize = esifOk :=
      buildFrame_eq_ok hsmall hroom
    constructor
    · simp only [websocketResponse, htypeOf, sendFrame, hbuild, if_true, hwrite]
      rfl
    · have hpong := pongFrame_eq inNetBuf f more { f.parsed with frameType := framePing } rfl rfl
      simp only [responseOutputs, htypeOf, sendOutputs, hbuild, if_true, hpong]
      rfl
  · split at houts
    · rename_i hpong
      cases houts
      have htypeOf : typeOf client f = framePong := by
        unfold typeOf
        rw [hpong]
        rfl
      have hbuild : buildFrame server.netBufLen 0 = esifOk := by cases server <;> decide
      constructor
      · simp only [websocketResponse, htypeOf, sendFrame, hbuild, if_true, hwrite]
        rfl
      · simp only [responseOutputs, htypeOf, sendOutputs, hbuild, if_true]
        rfl
    · cases houts

/-- The sum of two lengths, as the servers compute it. -/
theorem toNat_blockLen_add {text : List UInt8} (h : text.length + f.payload.length < 2 ^ 64) :
    (blockLen text + f.parsed.payloadSize).toNat = text.length + f.payload.length := by
  rw [UInt64.toNat_add]
  simp only [blockLen, WireFrame.parsed, UInt64.toNat_ofNat']
  omega

/-- A text that fits is executed. -/
theorem executeText_eq (henv : env.Plenty) {held : List UInt8} {text : Option (List UInt8)}
    (hclient : ClientHolds .esifWs client held text)
    (hfits : (text.getD []).length + f.payload.length < maxWebsocketBuffer.toNat)
    (frame : WsFrame) (hsize : frame.payloadSize = f.parsed.payloadSize) :
    (blockLen client.fragBuf + frame.payloadSize < maxWebsocketBuffer &&
        env.alloc (blockLen client.fragBuf + frame.payloadSize + 1)) = true ∧
      ∃ rc client', executeText env client frame = (rc, client') ∧
        (rc = esifOk ∨ rc = env.restRc) ∧ ClientHolds .esifWs client' held none := by
  have hlt : (text.getD []).length + f.payload.length < 8 * 1024 * 1024 := hfits
  have htotal : (blockLen client.fragBuf + frame.payloadSize).toNat =
      (text.getD []).length + f.payload.length := by
    rw [hclient.fragBuf, hsize]
    exact toNat_blockLen_add (by omega)
  have hsmall : blockLen client.fragBuf + frame.payloadSize < maxWebsocketBuffer := by
    rw [UInt64.lt_iff_toNat_lt, htotal]
    exact hfits
  have hsum : blockLen client.fragBuf + frame.payloadSize + 1 =
      .ofNat ((text.getD []).length + f.payload.length + 1) := by
    apply UInt64.toNat_inj.mp
    rw [UInt64.toNat_add, htotal, UInt64.toNat_ofNat']
    simp
  have hroom : (blockLen client.fragBuf + frame.payloadSize < maxWebsocketBuffer &&
      env.alloc (blockLen client.fragBuf + frame.payloadSize + 1)) = true := by
    rw [hsum, henv.alloc (by omega)]
    simp [hsmall]
  refine ⟨hroom, ?_⟩
  let client' := if client.fragBuf = [] then client else client.dropFragments
  have hclient' : ClientHolds .esifWs client' held none := by
    by_cases hempty : client.fragBuf = []
    · have heq : client' = client := if_pos hempty
      rw [heq]
      exact ⟨hclient.type, hclient.recvBuf, hempty, by simp⟩
    · have heq : client' = client.dropFragments := if_neg hempty
      rw [heq]
      exact ⟨hclient.type, hclient.recvBuf, rfl, by simp⟩
  have hwrite : write env client' = (esifOk, client') := by
    simp [write, hclient'.type, henv.sendRc]
  unfold executeText
  simp only [hroom, if_true]
  by_cases hrc : env.restRc = esifOk
  · exact ⟨esifOk, client', by rw [if_pos hrc]; exact hwrite, .inl rfl, hclient'⟩
  · exact ⟨env.restRc, client', if_neg hrc, .inr rfl, hclient'⟩

/-- The last fragment completes the message. -/
theorem websocketResponse_message (henv : env.Plenty) {held : List UInt8}
    {text : Option (List UInt8)} (hclient : ClientHolds server client held text)
    (htype : typeOf client f = messageType server) {outs : List Output}
    (houts : finished server (text.getD []) f.payload = some outs) (inNetBuf : Bool) :
    ∃ rc client', websocketResponse server env client
        { f.parsed with frameType := typeOf client f } = (rc, client') ∧
      (rc = esifOk ∨ rc = env.restRc) ∧ ClientHolds server client' held none ∧
      responseOutputs server env inNetBuf client (f.header ++ f.payload ++ more)
        { f.parsed with frameType := typeOf client f } = outs := by
  have hpayload (t : UInt8) : payloadOf (f.header ++ f.payload ++ more)
      { f.parsed with frameType := t } = f.payload := f.payloadOf_parsed more
  rw [htype]
  cases server with
  | esifWs =>
    have hcont : ¬frameText = frameContinuation := by decide
    simp only [finished] at houts
    obtain ⟨hfits, rfl⟩ := Option.ite_some_none_eq_some.1 houts
    obtain ⟨hroom, rc, client', hexec, hrc, hclient'⟩ :=
      executeText_eq henv hclient hfits { f.parsed with frameType := frameText } rfl
    refine ⟨rc, client', ?_, hrc, hclient', ?_⟩
    · simp only [websocketResponse, messageType, if_neg hcont, if_true]
      exact hexec
    · simp only [responseOutputs, messageType, if_neg hcont, if_true, hpayload, hclient.fragBuf]
        at hroom ⊢
      rw [if_pos hroom]
  | ipfSrv =>
    have hcont : ¬frameBinary = frameContinuation := by decide
    have htext : ¬frameBinary = frameText := by decide
    cases houts
    refine ⟨env.restRc, client.dropFragments, ?_, .inr rfl,
      ⟨hclient.type, hclient.recvBuf, rfl, by simp⟩, ?_⟩
    · simp only [websocketResponse, messageType, if_neg hcont, if_neg htext, if_true]
    · simp only [responseOutputs, messageType, if_neg hcont, if_neg htext, if_true, hpayload]

/-- A fragment is put behind the others. -/
theorem bufferFragment_eq (henv : env.Plenty)
    (hfits : client.fragBuf.length + f.payload.length ≤ maxWebsocketBuffer.toNat) :
    bufferFragment env client (f.header ++ f.payload ++ more) f.parsed = (esifOk, { client with
        msgType := if f.frameType ≠ frameContinuation then f.frameType else client.msgType
        fragBuf := client.fragBuf ++ f.payload }) := by
  have hle : client.fragBuf.length + f.payload.length ≤ 8 * 1024 * 1024 := hfits
  have htotal : (blockLen client.fragBuf + f.parsed.payloadSize).toNat =
      client.fragBuf.length + f.payload.length := toNat_blockLen_add (by omega)
  have hsmall : blockLen client.fragBuf + f.parsed.payloadSize ≤ maxWebsocketBuffer := by
    rw [UInt64.le_iff_toNat_le, htotal]
    exact hfits
  have hsum : blockLen client.fragBuf + f.parsed.payloadSize =
      .ofNat (client.fragBuf.length + f.payload.length) := by
    apply UInt64.toNat_inj.mp
    rw [htotal, UInt64.toNat_ofNat']
    omega
  have hroom : (blockLen client.fragBuf + f.parsed.payloadSize ≤ maxWebsocketBuffer &&
      env.alloc (blockLen client.fragBuf + f.parsed.payloadSize)) = true := by
    have halloc : env.alloc (.ofNat (client.fragBuf.length + f.payload.length)) = true :=
      henv.alloc (by omega)
    rw [← hsum] at halloc
    simp [hsmall, halloc]
  have htake : (client.fragBuf ++ f.payload).take (client.fragBuf.length + f.payload.length) =
      client.fragBuf ++ f.payload := List.take_of_length_le (by simp)
  unfold bufferFragment
  simp only [hroom, if_true, htotal, f.payloadOf_parsed more, htake]
  rfl

/-- **A turn of the loop** is a step of the talk. -/
theorem nextFrame_encode (henv : env.Plenty) {t t' : Talk}
    (hclient : ClientHolds server client [] t.text) (ht : t.receive server f = some t')
    (hmax : (f.encode ++ more).length < 2 ^ 63) (held : Nat) (inNetBuf allocated : Bool) :
    let input : Input := ⟨f.encode ++ more, blockLen (f.encode ++ more), held⟩
    ∃ rc client', (rc = esifOk ∨ f.Completes ∧ rc = env.restRc) ∧
      ClientHolds server client' [] t'.text ∧
      (nextFrame server env client input allocated).1 = turned rc client' more ∧
      t'.outputs = t.outputs ++ turnOutputs server env inNetBuf client input allocated := by
  intro input
  have hlen : input.bufLen.toNat = (f.encode ++ more).length := by
    show (blockLen (f.encode ++ more)).toNat = _
    rw [blockLen, UInt64.toNat_ofNat']
    omega
  unfold Talk.receive at ht
  split at ht
  · rename_i haccepted
    have hget : getFrame server input.buffer input.bufLen =
        .ok (f.parsed, f.header ++ f.payload ++ more) := WireFrame.getFrame_encode haccepted hlen
    unfold nextFrame turnOutputs
    simp only [hget]
    split at ht
    · rename_i hcontrol
      obtain ⟨outs, houts, rfl⟩ := Option.map_eq_some_iff.mp ht
      obtain ⟨hresp, hout⟩ :=
        websocketResponse_control henv hclient.type houts inNetBuf
      obtain ⟨hconn, hframe⟩ := handleFrame_final henv hlen hmax hcontrol.2 hresp inNetBuf allocated
      exact ⟨esifOk, client, .inl rfl, hclient, hconn, by rw [hframe, hout]⟩
    · rename_i hcontrol
      split at ht
      · rename_i hexpected
        -- the text that was collected belongs to a message of the server's type
        have htype : typeOf client f = messageType server := by
          unfold typeOf
          unfold Talk.expected at hexpected
          split at hexpected
          · have hne : messageType server ≠ frameContinuation := by cases server <;> decide
            rw [hexpected, if_neg hne]
          · rename_i htext
            rw [if_pos hexpected]
            exact hclient.msgType (Option.isSome_iff_ne_none.mpr htext)
        split at ht
        · rename_i hfin
          obtain ⟨outs, houts, rfl⟩ := Option.map_eq_some_iff.mp ht
          obtain ⟨rc, client', hresp, hrcs, hclient', hout⟩ :=
            websocketResponse_message henv hclient htype houts inNetBuf
          have hdone : f.Completes := ⟨fun h => hcontrol ⟨h, hfin⟩, hfin⟩
          obtain ⟨hconn, hframe⟩ := handleFrame_final henv hlen hmax hfin hresp inNetBuf allocated
          exact ⟨rc, client', hrcs.imp_right fun h => ⟨hdone, h⟩, hclient', hconn,
            by rw [hframe, hout]⟩
        · rename_i hfin
          dsimp only at ht
          obtain ⟨hfits, rfl⟩ := Option.ite_some_none_eq_some.1 ht
          rw [← hclient.fragBuf] at hfits
          obtain ⟨hconn, hframe⟩ := handleFrame_fragment henv hlen hmax (by simpa using hfin)
            (bufferFragment_eq henv hfits) inNetBuf allocated
          refine ⟨esifOk, _, .inl rfl, ?_, hconn, by rw [hframe]; simp⟩
          refine ⟨hclient.type, hclient.recvBuf, by simp [hclient.fragBuf], ?_⟩
          intro _
          rw [← htype]
          unfold typeOf
          by_cases hc : f.frameType = frameContinuation <;> simp [hc]
      · cases ht
  · cases ht

end Turn

end Ws

import Dptf.Ws.Talk

/-!
# Messages out of chunks

A receive takes the frames that are complete in the bytes held and the bytes that came,
and holds the part of the next one.

* `serve_cut` — **a receive** does with the complete frames what `Talk.receive` does.
-/

open Lib

namespace Ws

/-- The connection waits for more of a frame, and of a message. -/
structure Session.Waits (server : Server) (s : Session) (held : List UInt8)
    (text : Option (List UInt8)) : Prop where
  parsed : s.conn.bufferRemaining = none
  holds : ClientHolds server s.conn.client held text

/-- The bytes are a part of a frame, or nothing. -/
def IsPart (server : Server) (part : List UInt8) : Prop :=
  part = [] ∨ ∃ f : WireFrame, f.AcceptedBy server ∧
    ∃ behind, f.encode = part ++ behind ∧ behind ≠ []

/-- There is room for what is held and what comes. -/
def Room (server : Server) (held piece : List UInt8) : Prop :=
  held.length + piece.length ≤ maxWebsocketBuffer.toNat ∧ piece.length ≤ server.netBufLen.toNat

theorem Session.waits_start (server : Server) : Session.start.Waits server [] none :=
  ⟨rfl, ⟨rfl, rfl, rfl, by simp⟩⟩

section Served

variable {server : Server} {env : Env} {client : WebClient} {s : Session} {t t' : Talk}
  {text : Option (List UInt8)} {part : List UInt8}
variable {held bytes : List UInt8} {done : List WireFrame}

/-- A turn with a part of a frame keeps it. -/
theorem nextFrame_part (henv : env.Plenty) (hclient : ClientHolds server client [] text)
    (hpart : IsPart server part) (hne : part ≠ [])
    (hmax : part.length ≤ maxWebsocketBuffer.toNat) (held : Nat) (inNetBuf allocated : Bool) :
    let input : Input := ⟨part, blockLen part, held⟩
    (nextFrame server env client input allocated).1 = ⟨{ client with recvBuf := part }, none⟩ ∧
      turnOutputs server env inNetBuf client input allocated = [] := by
  intro input
  have hmax : part.length ≤ 8 * 1024 * 1024 := hmax
  have hlen : input.bufLen.toNat = part.length := by
    show (blockLen part).toNat = _
    rw [blockLen, UInt64.toNat_ofNat']
    omega
  have hget : getFrame server input.buffer input.bufLen = .error esifEWsIncomplete := by
    rcases hpart with hpart | ⟨f, hf, behind, henc, hbehind⟩
    · exact absurd hpart hne
    · exact WireFrame.getFrame_part hf henc.symm hbehind hlen
  have hsize : blockLen client.recvBuf + input.bufLen = .ofNat part.length := by
    rw [hclient.recvBuf]
    exact UInt64.zero_add _
  have hroom : (blockLen client.recvBuf + input.bufLen ≤ maxWebsocketBuffer &&
      env.alloc (blockLen client.recvBuf + input.bufLen)) = true := by
    have hle : UInt64.ofNat part.length ≤ maxWebsocketBuffer := by
      rw [UInt64.le_iff_toNat_le, UInt64.toNat_ofNat']
      show _ ≤ 8 * 1024 * 1024
      omega
    rw [hsize, henv.alloc (by omega)]
    simp [hle]
  constructor
  · simp only [nextFrame, hget, if_true, bufferIncomplete, hroom, settle, or_true]
    simp [hclient.recvBuf, input]
  · simp only [turnOutputs, hget, if_true]

/-- The loop ends where nothing remains. -/
theorem drain_none (h : s.conn.bufferRemaining = none) (fuel : Nat) :
    drain server env fuel s = some s := by
  cases fuel <;> rw [drain, if_pos h]

/-- A turn fails in processing a message only. -/
theorem rc_eq_ok {f : WireFrame} {rc : EsifError}
    (hrc : rc = esifOk ∨ f.Completes ∧ rc = env.restRc)
    (hok : env.restRc = esifOk ∨ ∀ g ∈ f :: done, ¬g.Completes) : rc = esifOk := by
  rcases hrc with hrc | ⟨hcompletes, hrc⟩
  · exact hrc
  · rcases hok with hok | hok
    · exact hrc.trans hok
    · exact absurd hcompletes (hok f List.mem_cons_self)

/-- What is behind a turn is parsed until nothing or a part of a frame remains.  The
connection goes on unless the message that the last frame completes ends it. -/
theorem drain_frames (henv : env.Plenty) {rc : EsifError}
    (hclient : ClientHolds server client [] t.text)
    (hconn : s.conn = turned rc client (done.flatMap WireFrame.encode ++ part))
    (houts : s.outputs = t.outputs) (hrun : run (Talk.receive server) t done = some t')
    (hpart : IsPart server part)
    (hmax : (done.flatMap WireFrame.encode ++ part).length ≤ maxWebsocketBuffer.toNat) {fuel : Nat}
    (hfuel : done.length < fuel) :
    ∃ s', drain server env fuel s = some s' ∧ s'.outputs = t'.outputs ∧
      (rc = esifOk → (env.restRc = esifOk ∨ ∀ f ∈ done, ¬f.Completes) →
        s'.Waits server part t'.text) := by
  induction done generalizing s t rc client fuel with
  | nil =>
    obtain rfl : t = t' := by simpa using hrun
    obtain ⟨fuel, rfl⟩ : ∃ n, fuel = n + 1 := ⟨fuel - 1, by simp at hfuel; omega⟩
    by_cases hne : part = []
    · subst hne
      have hnone : s.conn.bufferRemaining = none := by
        rw [hconn]
        simp only [List.flatMap_nil, List.append_nil, turned, if_true, settle]
        split <;> rfl
      refine ⟨s, drain_none hnone _, houts, ?_⟩
      intro hrc _
      refine ⟨hnone, ?_⟩
      simpa [hconn, turned, settle, hrc] using hclient
    · have hconn : s.conn = ⟨client, some part⟩ := by simpa [turned, hne] using hconn
      obtain ⟨hnext, hout⟩ := nextFrame_part henv hclient hpart hne (by simpa using hmax)
        (blockLen part).toNat s.inNetBuf true
      have hstep : sessionStep server s (.reparse env) =
          some ⟨⟨{ client with recvBuf := part }, none⟩, s.inNetBuf, s.outputs⟩ := by
        simp only [sessionStep, hconn, Option.map_some, remainingInput, hnext, hout,
          List.append_nil]
      refine ⟨⟨⟨{ client with recvBuf := part }, none⟩, s.inNetBuf, s.outputs⟩, ?_, houts, ?_⟩
      · rw [drain, hconn, if_neg (by simp), hstep, Option.bind_some]
        exact drain_none rfl fuel
      · intro _ _
        exact ⟨rfl, ⟨hclient.type, rfl, hclient.fragBuf, hclient.msgType⟩⟩
  | cons f done ih =>
    obtain ⟨t₁, hf, hdone⟩ := run_cons_eq_some hrun
    obtain ⟨fuel, rfl⟩ : ∃ n, fuel = n + 1 := ⟨fuel - 1, by simp at hfuel; omega⟩
    rw [List.flatMap_cons, List.append_assoc] at hconn hmax
    have hne : f.encode ++ (done.flatMap WireFrame.encode ++ part) ≠ [] := by
      simp [f.encode_ne_nil]
    rw [turned, if_neg hne] at hconn
    have hlt : (f.encode ++ (done.flatMap WireFrame.encode ++ part)).length < 2 ^ 63 :=
      Nat.lt_of_le_of_lt hmax (by decide)
    obtain ⟨rc', client', hrc', hclient', hnext, hout⟩ :=
      nextFrame_encode henv hclient hf hlt
        (blockLen (f.encode ++ (done.flatMap WireFrame.encode ++ part))).toNat s.inNetBuf true
    have hstep : sessionStep server s (.reparse env) =
        some ⟨turned rc' client' (done.flatMap WireFrame.encode ++ part), s.inNetBuf,
          t₁.outputs⟩ := by
      simp only [sessionStep, hconn, Option.map_some, remainingInput, hnext, houts, hout]
    have hmax' : (done.flatMap WireFrame.encode ++ part).length ≤ maxWebsocketBuffer.toNat := by
      rw [List.length_append] at hmax
      omega
    obtain ⟨s', hdrain, houts', hwaits⟩ := ih (s := ⟨_, s.inNetBuf, t₁.outputs⟩) hclient' rfl rfl
      hdone hmax' (by simpa using hfuel)
    refine ⟨s', ?_, houts', ?_⟩
    · rw [drain, hconn, if_neg (by simp), hstep]
      exact hdrain
    · intro _ hok
      exact hwaits (rc_eq_ok hrc' hok) (hok.imp_right fun h g hg => h g (List.mem_cons_of_mem f hg))

/-- A request is parsed behind what is held. -/
theorem processRequest_data (henv : env.Plenty) (hclient : ClientHolds server client held text)
    (hbytes : bytes ≠ []) (hroom : held.length + bytes.length ≤ maxWebsocketBuffer.toNat) :
    ∃ n inNetBuf, let input : Input := ⟨held ++ bytes, blockLen (held ++ bytes), n⟩
      (processRequest server env client (.data bytes)).1 =
          (nextFrame server env { client with recvBuf := [] } input false).1 ∧
        requestOutputs server env client (.data bytes) =
          turnOutputs server env inNetBuf { client with recvBuf := [] } input false := by
  have hpos : 0 < bytes.length := List.length_pos_iff.mpr hbytes
  have hroom : held.length + bytes.length ≤ 8 * 1024 * 1024 := hroom
  have hdata : Recv.data bytes ≠ .disconnected := nofun
  have htotal : blockLen held + blockLen bytes = blockLen (held ++ bytes) := by
    rw [blockLen, blockLen, blockLen, List.length_append, UInt64.ofNat_add]
  have hlen : (blockLen (held ++ bytes)).toNat = (held ++ bytes).length := by
    rw [blockLen, UInt64.toNat_ofNat', List.length_append]
    omega
  have hsome : blockLen (held ++ bytes) ≠ 0 := by
    rw [ne_eq, ← UInt64.toNat_inj, hlen, List.length_append]
    show ¬_ = 0
    omega
  by_cases hheld : held = []
  · subst hheld
    have hholds : client.holdsFrame = false := by
      rw [WebClient.holdsFrame, hclient.recvBuf]
      rfl
    have hinput : receivedInput (.data bytes) = ⟨bytes, blockLen bytes, bytes.length⟩ := rfl
    have hclient' : { client with recvBuf := [] } = client := by rw [← hclient.recvBuf]
    rw [List.nil_append] at hsome ⊢
    refine ⟨bytes.length, true, ?_, ?_⟩
    · rw [processRequest, if_neg hdata, hholds, if_neg Bool.false_ne_true, websocketRequest,
        hinput, if_neg hsome, hclient']
    · rw [requestOutputs, if_neg hdata, hholds, if_neg Bool.false_ne_true, hinput, if_pos hsome,
        hclient']
  · have hholds : client.holdsFrame = true := by
      have hpos' : 0 < held.length := List.length_pos_iff.mpr hheld
      rw [WebClient.holdsFrame, decide_eq_true_iff, hclient.recvBuf, ne_eq, ← UInt64.toNat_inj,
        blockLen, UInt64.toNat_ofNat']
      show ¬_ = 0
      omega
    have hlengths : totalLen client (.data bytes) = blockLen (held ++ bytes) := by
      rw [totalLen, hclient.recvBuf]
      exact htotal
    have henlarges : enlarges env client (.data bytes) = true := by
      have hle : blockLen (held ++ bytes) ≤ maxWebsocketBuffer := by
        rw [UInt64.le_iff_toNat_le, hlen, List.length_append]
        exact hroom
      rw [enlarges, hlengths, blockLen, henv.alloc (by rw [List.length_append]; omega), ← blockLen]
      simp [hle]
    have hinput : combinedInput client (.data bytes) =
        ⟨held ++ bytes, blockLen (held ++ bytes), (held ++ bytes).length⟩ := by
      simp only [combinedInput, hlengths, hlen, hclient.recvBuf, Recv.bytes, List.take_length]
    refine ⟨(held ++ bytes).length, false, ?_, ?_⟩
    · rw [processRequest, if_neg hdata, hholds, if_pos rfl, henlarges, if_pos rfl,
        websocketRequest, hinput, if_neg hsome]
    · rw [requestOutputs, if_neg hdata, hholds, if_pos rfl, hinput, if_pos ⟨henlarges, hsome⟩]

/-- A receive that is served is its request with the loop behind it. -/
theorem serve_eq (env : Env) (hs : s.Waits server held text)
    (hnet : bytes.length ≤ server.netBufLen.toNat) (fuel : Nat) :
    serve server env fuel s bytes = drain server env fuel
      ⟨(processRequest server env s.conn.client (.data bytes)).1, !s.conn.client.holdsFrame,
        s.outputs ++ requestOutputs server env s.conn.client (.data bytes)⟩ := by
  have hcan : s.conn.client.type = .websocket ∧ s.conn.bufferRemaining = none ∧
      (Recv.data bytes).bytes.length ≤ server.netBufLen.toNat := ⟨hs.holds.type, hs.parsed, hnet⟩
  simp only [serve, sessionStep, step, stepTrace, if_pos hcan, Option.map_some, Option.bind_some]

/-- **A receive** does with the frames that are complete what the talk does. -/
theorem serve_cut (henv : env.Plenty) (hs : s.Waits server held t.text)
    (houts : s.outputs = t.outputs) (hbytes : bytes ≠ [])
    (hnet : bytes.length ≤ server.netBufLen.toNat)
    (hroom : held.length + bytes.length ≤ maxWebsocketBuffer.toNat)
    (hcut : held ++ bytes = done.flatMap WireFrame.encode ++ part) (hpart : IsPart server part)
    (hrun : run (Talk.receive server) t done = some t') {fuel : Nat}
    (hfuel : maxWebsocketBuffer.toNat ≤ fuel) :
    ∃ s', serve server env fuel s bytes = some s' ∧ s'.outputs = t'.outputs ∧
      ((env.restRc = esifOk ∨ ∀ f ∈ done, ¬f.Completes) → s'.Waits server part t'.text) := by
  obtain ⟨n, inNetBuf, hconn, hout⟩ := processRequest_data henv hs.holds hbytes hroom
  rw [hcut] at hconn hout
  have hmax : (done.flatMap WireFrame.encode ++ part).length ≤ maxWebsocketBuffer.toNat := by
    rw [← hcut, List.length_append]
    exact hroom
  have hclient : ClientHolds server { s.conn.client with recvBuf := [] } [] t.text :=
    ⟨hs.holds.type, rfl, hs.holds.fragBuf, hs.holds.msgType⟩
  let first : Session := ⟨(processRequest server env s.conn.client (.data bytes)).1,
    !s.conn.client.holdsFrame, s.outputs ++ requestOutputs server env s.conn.client (.data bytes)⟩
  have hserve : serve server env fuel s bytes = drain server env fuel first :=
    serve_eq env hs hnet fuel
  rw [hserve]
  cases done with
  | nil =>
    obtain rfl : t = t' := by simpa using hrun
    rw [List.flatMap_nil, List.nil_append] at hconn hout hmax hcut
    have hne : part ≠ [] := by
      rw [← hcut]
      exact List.append_ne_nil_of_right_ne_nil held hbytes
    obtain ⟨hnext, hturn⟩ := nextFrame_part henv hclient hpart hne hmax n inNetBuf false
    have hfirst : first.conn = ⟨{ s.conn.client with recvBuf := part }, none⟩ := hconn.trans hnext
    refine ⟨first, drain_none (by rw [hfirst]) fuel, ?_, ?_⟩
    · show s.outputs ++ _ = _
      rw [hout, hturn, List.append_nil, houts]
    · intro _
      refine ⟨by rw [hfirst], ?_⟩
      rw [hfirst]
      exact ⟨hs.holds.type, rfl, hs.holds.fragBuf, hs.holds.msgType⟩
  | cons f done =>
    obtain ⟨t₁, hf, hdone⟩ := run_cons_eq_some hrun
    have hcount := WireFrame.length_le_flatMap_encode (f :: done)
    rw [List.length_append] at hmax
    rw [List.length_cons] at hcount
    rw [List.flatMap_cons, List.append_assoc] at hconn hout
    rw [List.flatMap_cons, List.length_append] at hmax hcount
    have hpos : 2 ≤ f.encode.length := by
      have h2 := f.two_le_length_header
      rw [f.length_encode]
      omega
    have hlt : (f.encode ++ (done.flatMap WireFrame.encode ++ part)).length < 2 ^ 63 := by
      have hmax : _ ≤ 8 * 1024 * 1024 := hmax
      rw [List.length_append, List.length_append]
      omega
    obtain ⟨rc, client', hrc, hclient', hnext, hturn⟩ :=
      nextFrame_encode henv hclient hf hlt n inNetBuf false
    have hrest : (done.flatMap WireFrame.encode ++ part).length ≤ maxWebsocketBuffer.toNat := by
      rw [List.length_append]
      omega
    have hfirst : first.outputs = t₁.outputs := by
      rw [hturn, ← houts, ← hout]
    have hfuel' : done.length < fuel := by omega
    obtain ⟨s', hdrain, houts', hwaits⟩ := drain_frames henv hclient' (hconn.trans hnext) hfirst
      hdone hpart hrest hfuel'
    refine ⟨s', hdrain, houts', ?_⟩
    intro hok
    exact hwaits (rc_eq_ok hrc hok) (hok.imp_right fun h g hg => h g (List.mem_cons_of_mem f hg))

/-- **A frame that fails** ends the connection, if nothing is behind it. -/
theorem serve_fails (henv : env.Plenty) {f : WireFrame} (hs : s.Waits server held text)
    (hbytes : bytes ≠ []) (hroom : Room server held bytes) (hcut : held ++ bytes = f.encode)
    (haccepted : f.AcceptedBy server) (hfin : f.fin = true)
    (hresp : ∀ client, ClientHolds server client [] text → ∃ rc client',
      websocketResponse server env client { f.parsed with frameType := typeOf client f } =
          (rc, client') ∧ rc ≠ esifOk ∧ rc ≠ esifEWsIncomplete ∧
        ∀ inNetBuf buffer, responseOutputs server env inNetBuf client buffer
          { f.parsed with frameType := typeOf client f } = []) (fuel : Nat) :
    ∃ s', serve server env fuel s bytes = some s' ∧ s'.conn = ⟨.closed, none⟩ ∧
      s'.outputs = s.outputs := by
  obtain ⟨n, inNetBuf, hconn, hout⟩ := processRequest_data henv hs.holds hbytes hroom.1
  have hclient : ClientHolds server { s.conn.client with recvBuf := [] } [] text :=
    ⟨hs.holds.type, rfl, hs.holds.fragBuf, hs.holds.msgType⟩
  obtain ⟨rc, client', hfail, hok, hincomplete, hnothing⟩ := hresp _ hclient
  have hmax : f.encode.length ≤ 8 * 1024 * 1024 := by
    rw [← hcut, List.length_append]
    exact hroom.1
  have hall : f.encode ++ [] = f.encode := List.append_nil _
  have hlen : (blockLen f.encode).toNat = (f.encode ++ []).length := by
    rw [hall, blockLen, UInt64.toNat_ofNat']
    omega
  have hget := WireFrame.getFrame_encode haccepted hlen
  rw [hall] at hget
  obtain ⟨hturn, hframe⟩ := handleFrame_final henv hlen
    (by rw [hall]; omega) hfin hfail inNetBuf false
  have hclosed : turned rc client' [] = ⟨.closed, none⟩ := by
    simp [turned, settle, hok, hincomplete]
  rw [hcut] at hconn hout
  simp only [nextFrame, turnOutputs, hget, hturn, hclosed, hframe, hnothing] at hconn hout
  rw [serve_eq env hs hroom.2, hconn, hout, List.append_nil]
  exact ⟨_, drain_none rfl fuel, rfl, rfl⟩

end Served

/-! ## A stream of frames -/

namespace Talk

theorem receive_accepted {server : Server} {t t' : Talk} {f : WireFrame}
    (h : t.receive server f = some t') : f.AcceptedBy server := by
  by_contra hf
  rw [receive, if_neg hf] at h
  cases h

/-- A talk that is over with its first message. -/
def receiveOne (server : Server) (t : Talk × Bool) (f : WireFrame) : Option (Talk × Bool) :=
  if t.2 then none
  else (t.1.receive server f).map fun t' => (t', decide f.Completes)

theorem run_receiveOne {server : Server} {frames : List WireFrame} {t t' : Talk} {ended : Bool}
    (h : run (receiveOne server) (t, false) frames = some (t', ended)) :
    run (receive server) t frames = some t' ∧ (ended = false → ∀ f ∈ frames, ¬f.Completes) := by
  induction frames generalizing t with
  | nil =>
    cases h
    exact ⟨rfl, by simp⟩
  | cons f frames ih =>
    obtain ⟨u, hu, hframes⟩ := run_cons_eq_some h
    obtain ⟨t₁, ht₁, rfl⟩ := Option.map_eq_some_iff.mp hu
    by_cases hf : f.Completes
    · -- nothing comes behind the message
      rw [decide_eq_true hf] at hframes
      cases frames with
      | nil =>
        cases hframes
        exact ⟨by simp [ht₁], by simp⟩
      | cons g frames => cases hframes
    · rw [decide_eq_false hf] at hframes
      obtain ⟨hrun, hended⟩ := ih hframes
      refine ⟨by simp [ht₁, hrun], ?_⟩
      intro hfalse g hg
      rcases List.mem_cons.mp hg with rfl | hg
      · exact hf
      · exact hended hfalse g hg

end Talk

/-- Where letters end among frames that can all be received, they end in a part of one. -/
theorem isPart_of_cut {server : Server} {τ : Type*} {spec : τ → WireFrame → Option τ} {t t' : τ}
    (hspec : ∀ t f t', spec t f = some t' → f.AcceptedBy server)
    {words done todo : List WireFrame} {letters part : List UInt8}
    (hcut : Cut WireFrame.encode words letters done todo part)
    (hrun : run spec t todo = some t') : IsPart server part := by
  rcases hcut.part_lt with ⟨hpart, -⟩ | ⟨f, frames, behind, rfl, henc, hbehind⟩
  · exact .inl hpart
  · obtain ⟨t₁, hf, -⟩ := run_cons_eq_some hrun
    exact .inr ⟨f, hspec _ _ _ hf, behind, henc, hbehind⟩

section Serves

variable {server : Server} {env : Env} {fuel : Nat}

/-- **A stream of frames** is served as the talk takes them. -/
theorem serves (henv : env.Plenty) (hrest : env.restRc = esifOk)
    (hfuel : maxWebsocketBuffer.toNat ≤ fuel) :
    Serves WireFrame.encode (serve server env fuel) (Talk.receive server)
      (fun s held t => s.Waits server held t.text ∧ s.outputs = t.outputs)
      (fun _ held piece _ _ => Room server held piece) := by
  intro s held piece t t' t'' words done todo part ⟨hs, houts⟩ hpiece hroom hcut hdone htodo
  have hpart : IsPart server part := isPart_of_cut (fun _ _ _ => Talk.receive_accepted) hcut htodo
  obtain ⟨s', hserve, houts', hwaits⟩ :=
    serve_cut henv hs houts hpiece hroom.2 hroom.1 hcut.letters_eq hpart hdone hfuel
  exact ⟨s', hserve, hwaits (.inl hrest), houts'⟩

/-- **A stream with one message** is served so too, even if its processing ends the
connection. -/
theorem serves_one (henv : env.Plenty) (hfuel : maxWebsocketBuffer.toNat ≤ fuel) :
    Serves WireFrame.encode (serve server env fuel) (Talk.receiveOne server)
      (fun s held t => (t.2 = false → s.Waits server held t.1.text) ∧ s.outputs = t.1.outputs)
      (fun _ held piece _ _ => Room server held piece) := by
  intro s held piece ⟨t, ended⟩ ⟨t', ended'⟩ t'' words done todo part ⟨hs, houts⟩ hpiece hroom
    hcut hdone htodo
  cases ended with
  | true =>
    -- the stream is at its end, but something came
    have hnone : done = [] ∧ todo = [] := by
      cases done with
      | nil =>
        cases hdone
        cases todo with
        | nil => exact ⟨rfl, rfl⟩
        | cons f todo => cases htodo
      | cons f done => cases hdone
    obtain ⟨rfl, rfl⟩ := hnone
    rcases hcut.part_lt with ⟨rfl, -⟩ | ⟨f, frames, behind, htodo, -⟩
    · exact absurd hcut.letters_eq (by simp [hpiece])
    · cases htodo
  | false =>
    have haccepted (u : Talk × Bool) (f : WireFrame) (u' : Talk × Bool)
        (h : Talk.receiveOne server u f = some u') : f.AcceptedBy server := by
      unfold Talk.receiveOne at h
      split at h
      · cases h
      · obtain ⟨t₁, ht₁, -⟩ := Option.map_eq_some_iff.mp h
        exact Talk.receive_accepted ht₁
    obtain ⟨hrun, hended⟩ := Talk.run_receiveOne hdone
    obtain ⟨s', hserve, houts', hwaits⟩ := serve_cut henv (hs rfl) houts hpiece hroom.2 hroom.1
      hcut.letters_eq (isPart_of_cut haccepted hcut htodo) hrun hfuel
    exact ⟨s', hserve, fun h => hwaits (.inr (hended h)), houts'⟩

end Serves

end Ws

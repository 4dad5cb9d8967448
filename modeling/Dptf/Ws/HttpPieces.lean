import Dptf.Ws.Http
import Dptf.Ws.Receive

/-!
# HTTP requests in pieces

`WebClient_HttpParseHeaders` says of a request without an empty line that it is incomplete.
`WebServer_HttpRequest` makes a success of that where it means to keep the bytes for the next
receive, and nothing keeps them: each piece is a request of its own.

* `servedInPieces_iff` — **when a request is served as it is in one piece**.
-/

open Lib

namespace Ws

/-! ## The reply -/

/-- `WebServer_HttpWebsocketUpgrade`: the key that the client is answered with, if its headers
are those of a handshake. -/
def httpWebsocketUpgrade (headers : List (List Char)) : Option (List Char) :=
  let header (label : String) := httpGetHeader headers label.toList
  match header "Upgrade", header "Connection", header "Host", header "Origin",
      header "Sec-WebSocket-Key", header "Sec-WebSocket-Version" with
  | some upgrade, some connection, some host, some origin, some key, some version =>
    if stricmp upgrade "websocket".toList ≠ .eq ∨ ¬"Upgrade".toList <:+: connection then none
    else if header "Sec-WebSocket-Protocol" = none ∧ version ≠ "13".toList then none
    else if stricmp origin "null".toList = .eq ∨ stricmp origin "file://".toList = .eq ∨
        "http://".toList <+: origin ∧ stricmp host (origin.drop "http://".length) = .eq then
      some (key.take wsMaxHeaders)
    else none
  | _, _, _, _, _, _ => none

/-- What a request is answered with. -/
inductive HttpReply
  | switchingProtocols (key : List Char)
  | redirect
  | badRequest
  | notFound
  | file (uri pathname : List Char)
  /-- The connection is closed without an answer. -/
  | rejected
deriving DecidableEq, Repr

/-- The server's files, and whether a reply can be written to the client. -/
structure HttpSite where
  docRoot : DocRoot
  fileExists : List Char → Bool
  canOpen : List Char → Bool
  writes : HttpReply → Bool

/-- `WebServer_HttpResponse`. -/
def httpResponse (site : HttpSite) (uri : List Char) : HttpReply :=
  match httpPath site.docRoot site.fileExists uri with
  | some pathname => if site.canOpen pathname then .file uri pathname else .notFound
  | none =>
    if ['.', '.'] <:+: uri then .badRequest
    else if uri.take (maxPath - 1) = ['/'] then .redirect
    else .notFound

/-- The reply to a parsed request. -/
def httpReply (site : HttpSite) (uri : List Char) (headers : List (List Char)) : HttpReply :=
  if asksUpgrade headers then
    match httpWebsocketUpgrade headers with
    | some key => .switchingProtocols key
    | none => .rejected
  else httpResponse site uri

/-- The connection behind a reply.  With an error it is closed. -/
def HttpReply.typeAfter (site : HttpSite) (reply : HttpReply) : ClientType :=
  match reply with
  | .switchingProtocols _ => if site.writes reply then .websocket else .closed
  | .file _ _ => if site.writes reply then .http else .closed
  | _ => .closed

/-! ## The connection -/

/-- What the server has done for a connection. -/
inductive HttpHandled
  | request (uri : List Char) (reply : HttpReply)
  /-- `WebServer_WebsocketRequest` gets bytes. -/
  | frames (bytes : List Char)
deriving DecidableEq, Repr

/-- A connection.  As long as it speaks HTTP, its `recvBuf` is `NULL`. -/
structure HttpSession where
  type : ClientType
  handled : List HttpHandled
deriving DecidableEq, Repr

/-- A connection that was accepted. -/
def HttpSession.accepted : HttpSession := ⟨.http, []⟩

/-- `WebServer_HttpRequest`, and what `WebServer_Main` does on its error. -/
def httpRequest (site : HttpSite) (s : HttpSession) (buffer : List Char) : HttpSession :=
  match httpParseHeaders buffer with
  | .ok (uri, headers) =>
    let reply := httpReply site uri headers
    ⟨reply.typeAfter site, s.handled ++ [.request uri reply]⟩
  -- an incomplete request is a success, and its bytes are in no buffer
  | .error rc => if rc = esifEWsIncomplete then s else { s with type := .closed }

/-- `WebServer_ProcessRequest` for a piece.  What frames do is left to `Ws.Session`. -/
def httpReceive (site : HttpSite) (s : HttpSession) (buffer : List Char) : HttpSession :=
  match s.type with
  | .http => httpRequest site s buffer
  | .websocket => { s with handled := s.handled ++ [.frames buffer] }
  | .closed => s

/-- The pieces that a connection receives. -/
def httpRun (site : HttpSite) (s : HttpSession) (pieces : List (List Char)) : HttpSession :=
  pieces.foldl (httpReceive site) s

/-- A piece has an empty line. -/
def IsComplete (piece : List Char) : Prop := crlfcrlf <:+: piece

instance (piece : List Char) : Decidable (IsComplete piece) :=
  inferInstanceAs (Decidable (_ <:+: _))

section Receive

variable {site : HttpSite} {s : HttpSession} {piece : List Char} {pieces : List (List Char)}

theorem httpParseHeaders_incomplete (hne : piece ≠ []) (h : ¬IsComplete piece) :
    httpParseHeaders piece = .error esifEWsIncomplete := by
  unfold IsComplete at h
  unfold httpParseHeaders
  rw [if_neg hne, if_pos h]

theorem isComplete_of_ok {parsed : List Char × List (List Char)}
    (h : httpParseHeaders piece = .ok parsed) : IsComplete piece := by
  unfold IsComplete
  by_contra hpart
  unfold httpParseHeaders at h
  split at h <;> cases h

/-- A piece with an empty line is not taken for an incomplete one. -/
theorem error_ne_incomplete {rc : EsifError} (h : IsComplete piece)
    (herror : httpParseHeaders piece = .error rc) : rc ≠ esifEWsIncomplete := by
  unfold IsComplete at h
  unfold httpParseHeaders at herror
  split at herror
  · cases herror
    decide
  · dsimp only at herror
    split at herror
    · cases herror
      decide
    · split at herror
      · cases herror
      · cases herror
        decide

theorem httpReceive_incomplete (htype : s.type = .http) (hne : piece ≠ [])
    (h : ¬IsComplete piece) : httpReceive site s piece = s := by
  simp [httpReceive, htype, httpRequest, httpParseHeaders_incomplete hne h]

theorem httpReceive_ok {uri : List Char} {headers : List (List Char)} (htype : s.type = .http)
    (h : httpParseHeaders piece = .ok (uri, headers)) :
    httpReceive site s piece = ⟨(httpReply site uri headers).typeAfter site,
        s.handled ++ [.request uri (httpReply site uri headers)]⟩ := by
  simp [httpReceive, htype, httpRequest, h]

theorem httpReceive_error {rc : EsifError} (htype : s.type = .http) (hcomplete : IsComplete piece)
    (h : httpParseHeaders piece = .error rc) :
    httpReceive site s piece = { s with type := .closed } := by
  simp [httpReceive, htype, httpRequest, h, error_ne_incomplete hcomplete h]

/-- Nothing is received on a closed connection. -/
theorem httpRun_closed (htype : s.type = .closed) : httpRun site s pieces = s := by
  induction pieces with
  | nil => rfl
  | cons piece pieces ih =>
    rw [httpRun, List.foldl_cons, show httpReceive site s piece = s by simp [httpReceive, htype]]
    exact ih

/-- A connection adds to what was done for it. -/
theorem handled_prefix_httpRun : s.handled <+: (httpRun site s pieces).handled := by
  induction pieces generalizing s with
  | nil => exact List.prefix_rfl
  | cons piece pieces ih =>
    refine List.IsPrefix.trans ?_ ih
    unfold httpReceive httpRequest
    split
    · split
      · exact List.prefix_append _ _
      · split <;> exact List.prefix_rfl
    · exact List.prefix_append _ _
    · exact List.prefix_rfl

end Receive

/-! ## What the pieces are answered with -/

/-- Nothing is done for what is received behind a reply: the connection is closed, or it speaks
frames and nothing comes, or it speaks HTTP and the first piece with an empty line is no
request. -/
def StaysSilent : ClientType → List (List Char) → Prop
  | .closed, _ => True
  | .websocket, after => after = []
  | .http, after => ∀ piece, after.find? (fun p => IsComplete p) = some piece →
      ∀ parsed, httpParseHeaders piece ≠ .ok parsed

/-- The first piece with an empty line is a request for the same URI that gets the same reply,
and behind it nothing more is done. -/
def ServedByPiece (site : HttpSite) (uri : List Char) (reply : HttpReply)
    (pieces : List (List Char)) : Prop :=
  ∃ before piece after headers, pieces = before ++ piece :: after ∧
    (∀ p ∈ before, ¬IsComplete p) ∧ httpParseHeaders piece = .ok (uri, headers) ∧
      httpReply site uri headers = reply ∧ StaysSilent (reply.typeAfter site) after

section Pieces

variable {site : HttpSite} {piece uri : List Char} {reply : HttpReply}
  {pieces : List (List Char)}

/-- A piece without an empty line makes no difference. -/
theorem servedByPiece_cons_of_incomplete (h : ¬IsComplete piece) :
    ServedByPiece site uri reply (piece :: pieces) ↔ ServedByPiece site uri reply pieces := by
  constructor
  · rintro ⟨before, p, after, headers, heq, hbefore, hparse, hreply⟩
    cases before with
    | nil =>
      cases heq
      exact absurd (isComplete_of_ok hparse) h
    | cons b before =>
      cases heq
      exact ⟨before, p, after, headers, rfl, fun q hq => hbefore q (List.mem_cons_of_mem _ hq),
        hparse, hreply⟩
  · rintro ⟨before, p, after, headers, rfl, hbefore, hparse, hreply⟩
    exact ⟨piece :: before, p, after, headers, rfl, List.forall_mem_cons.mpr ⟨h, hbefore⟩,
      hparse, hreply⟩

/-- The first piece with an empty line decides. -/
theorem servedByPiece_cons_of_complete (h : IsComplete piece) :
    ServedByPiece site uri reply (piece :: pieces) ↔
      ∃ headers, httpParseHeaders piece = .ok (uri, headers) ∧
        httpReply site uri headers = reply ∧ StaysSilent (reply.typeAfter site) pieces := by
  constructor
  · rintro ⟨before, p, after, headers, heq, hbefore, hparse, hreply⟩
    cases before with
    | nil =>
      cases heq
      exact ⟨headers, hparse, hreply⟩
    | cons b before =>
      cases heq
      exact absurd h (hbefore _ List.mem_cons_self)
  · rintro ⟨headers, hparse, hreply⟩
    exact ⟨[], piece, pieces, headers, rfl, by simp, hparse, hreply⟩

/-- **What follows a reply adds nothing exactly if it stays silent.** -/
theorem handled_eq_iff_staysSilent {type : ClientType} {x : HttpHandled}
    (hne : ∀ p ∈ pieces, p ≠ []) :
    (httpRun site ⟨type, [x]⟩ pieces).handled = [x] ↔ StaysSilent type pieces := by
  cases type with
  | closed => simp [httpRun_closed, StaysSilent]
  | websocket =>
    cases pieces with
    | nil => simp [httpRun, StaysSilent]
    | cons piece pieces =>
      refine iff_of_false (fun heq => ?_) (by simp [StaysSilent])
      have hprefix : (httpReceive site ⟨.websocket, [x]⟩ piece).handled <+:
          (httpRun site (httpReceive site ⟨.websocket, [x]⟩ piece) pieces).handled :=
        handled_prefix_httpRun
      have hlength := List.IsPrefix.length_le hprefix
      rw [show httpRun site (httpReceive site ⟨.websocket, [x]⟩ piece) pieces =
        httpRun site ⟨.websocket, [x]⟩ (piece :: pieces) from rfl, heq] at hlength
      simp [httpReceive] at hlength
  | http =>
    induction pieces with
    | nil => simp [httpRun, StaysSilent]
    | cons piece pieces ih =>
      obtain ⟨hpiece, hrest⟩ := List.forall_mem_cons.mp hne
      have hcons : httpRun site ⟨.http, [x]⟩ (piece :: pieces) =
          httpRun site (httpReceive site ⟨.http, [x]⟩ piece) pieces := rfl
      by_cases hcomplete : IsComplete piece
      · have hfind : (piece :: pieces).find? (fun p => IsComplete p) = some piece :=
          List.find?_cons_of_pos (by simpa using hcomplete)
        simp only [StaysSilent, hfind, Option.some.injEq, forall_eq']
        cases hparse : httpParseHeaders piece with
        | error rc =>
          rw [hcons, httpReceive_error rfl hcomplete hparse, httpRun_closed rfl]
          simp
        | ok parsed =>
          obtain ⟨uri, headers⟩ := parsed
          refine iff_of_false (fun heq => ?_) (by simp)
          rw [hcons, httpReceive_ok rfl hparse] at heq
          have hprefix := @handled_prefix_httpRun site
            ⟨(httpReply site uri headers).typeAfter site,
              [x] ++ [.request uri (httpReply site uri headers)]⟩ pieces
          have hlength := List.IsPrefix.length_le hprefix
          rw [heq] at hlength
          simp at hlength
      · have hfind : (piece :: pieces).find? (fun p => IsComplete p) =
            pieces.find? (fun p => IsComplete p) :=
          List.find?_cons_of_neg (by simpa using hcomplete)
        rw [hcons, httpReceive_incomplete rfl hpiece hcomplete, ih hrest]
        simp only [StaysSilent, hfind]

/-- **Only the first piece with an empty line counts.** -/
theorem httpRun_handled_iff (hne : ∀ p ∈ pieces, p ≠ []) :
    (httpRun site .accepted pieces).handled = [.request uri reply] ↔
      ServedByPiece site uri reply pieces := by
  induction pieces with
  | nil =>
    refine iff_of_false (by simp [httpRun, HttpSession.accepted]) ?_
    rintro ⟨before, p, after, headers, heq, _⟩
    simp at heq
  | cons piece pieces ih =>
    obtain ⟨hpiece, hrest⟩ := List.forall_mem_cons.mp hne
    have hcons : httpRun site .accepted (piece :: pieces) =
        httpRun site (httpReceive site .accepted piece) pieces := rfl
    by_cases hcomplete : IsComplete piece
    · rw [servedByPiece_cons_of_complete hcomplete, hcons]
      cases hparse : httpParseHeaders piece with
      | error rc =>
        rw [httpReceive_error rfl hcomplete hparse, httpRun_closed rfl]
        simp [HttpSession.accepted]
      | ok parsed =>
        obtain ⟨uri', headers⟩ := parsed
        rw [httpReceive_ok rfl hparse]
        simp only [HttpSession.accepted, List.nil_append, Except.ok.injEq, Prod.mk.injEq]
        constructor
        · intro heq
          have hprefix := @handled_prefix_httpRun site
            ⟨(httpReply site uri' headers).typeAfter site,
              [.request uri' (httpReply site uri' headers)]⟩ pieces
          rw [heq] at hprefix
          obtain ⟨rfl, rfl⟩ : uri' = uri ∧ httpReply site uri' headers = reply := by
            simpa using hprefix
          exact ⟨headers, ⟨rfl, rfl⟩, rfl, (handled_eq_iff_staysSilent hrest).mp heq⟩
        · rintro ⟨headers', ⟨rfl, rfl⟩, rfl, hsilent⟩
          exact (handled_eq_iff_staysSilent hrest).mpr hsilent
    · rw [servedByPiece_cons_of_incomplete hcomplete, hcons,
        httpReceive_incomplete rfl hpiece hcomplete, ih hrest]

/-- The same is done for the pieces of a text as for the text in one piece. -/
def ServedInPieces (site : HttpSite) (pieces : List (List Char)) : Prop :=
  (httpRun site .accepted pieces).handled = (httpRun site .accepted [pieces.flatten]).handled

/-- **When a request is served as it is in one piece**: one piece must be enough for it. -/
theorem servedInPieces_iff {headers : List (List Char)} (hne : ∀ p ∈ pieces, p ≠ [])
    (hserved : httpParseHeaders pieces.flatten = .ok (uri, headers)) :
    ServedInPieces site pieces ↔
      ServedByPiece site uri (httpReply site uri headers) pieces := by
  have hwhole : (httpRun site .accepted [pieces.flatten]).handled =
      [.request uri (httpReply site uri headers)] := by
    rw [httpRun, List.foldl_cons, httpReceive_ok rfl hserved]
    rfl
  rw [ServedInPieces, hwhole, httpRun_handled_iff hne]

end Pieces

/-- A server with a single page. -/
def onePageSite : HttpSite :=
  ⟨dptfDocRoot, fun path => path = "/usr/share/dptf/ui/index.html".toList, fun _ => true,
    fun _ => true⟩

theorem servedInPieces_leadingLine :
    ServedInPieces onePageSite
      ["\r\n".toList, "GET /index.html HTTP/1.1\r\n\r\n".toList] := by
  have hparse : httpParseHeaders
      ["\r\n".toList, "GET /index.html HTTP/1.1\r\n\r\n".toList].flatten =
        .ok ("/index.html".toList, []) := by decide
  refine (servedInPieces_iff (by decide) hparse).mpr ?_
  exact ⟨["\r\n".toList], "GET /index.html HTTP/1.1\r\n\r\n".toList, [], [], rfl, by decide,
    by decide, rfl, fun _ hfind => by cases hfind⟩

/-- The request line is lost with the first piece. -/
theorem not_servedInPieces_requestLine :
    ¬ServedInPieces onePageSite ["GET /index.html HTTP/1.1\r\n".toList, "\r\n".toList] ∧
      (httpRun onePageSite .accepted ["GET /index.html HTTP/1.1\r\n\r\n".toList]).handled =
        [.request "/index.html".toList
          (.file "/index.html".toList "/usr/share/dptf/ui/index.html".toList)] := by
  unfold ServedInPieces
  decide

end Ws

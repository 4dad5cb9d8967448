import Dptf.Common.Types
import Dptf.Ws.Rest

/-!
# The files the web server opens

A browser asks for a file with an HTTP request, a client of the REST interface with
the internal command `fetch`.  Either way the server puts a path name together from
its document root and text of the client, and opens it.

* `opened_below_iff` — **an opened file lies below the document root exactly if** what
  the client appended to its name leads there.
-/

open Lib

namespace Ws

/-! ## The request line -/

/-- `WS_MAX_HEADERS`. -/
def wsMaxHeaders : Nat := 4 * 1024

/-- `CRLF CRLF`. -/
def crlfcrlf : List Char := ['\r', '\n', '\r', '\n']

/-- All tokens of `strtok`. -/
def strtokAll (isSep : Char → Bool) (s : List Char) : List (List Char) :=
  (s.splitOnP isSep).filter (· ≠ [])

/-- The blanks before the next token of `strtok`, and the token. -/
def strtok (s : List Char) : List Char × List Char :=
  (s.takeWhile (· = ' '), (s.dropWhile (· = ' ')).takeWhile (· ≠ ' '))

/-- A header line without its trailing blanks, where they are looked for. -/
def trimTrailing (tok : List Char) : List Char :=
  let blanks := ((tok.take wsMaxHeaders).reverse.takeWhile (· = ' ')).length
  if blanks = 0 then tok else tok.take ((tok.take wsMaxHeaders).length - blanks)

/-- The line once `memmove` has put the URI at its start, `WS_MAX_HEADERS + 1` characters
at most: behind these stands what stood there. -/
def movedUri (start : Nat) (line : List Char) : List Char :=
  let n := min (cString (line.drop start)).length wsMaxHeaders + 1
  cString ((line.drop start).take n ++ line.drop n)

/-- The request line: only `GET <uri> HTTP/1.1` is supported.  `strtok` ends the method
and the URI in the line itself. -/
def parseRequestLine (line : List Char) : Option (List Char) :=
  let (blanks, method) := strtok line
  let methodEnd := blanks.length + method.length
  let (gap, uri) := strtok (line.drop methodEnd)
  let start := methodEnd + gap.length
  let uriEnd := start + uri.length
  let (_, proto) := strtok (line.drop uriEnd)
  if method = "GET".toList ∧ uri ≠ [] ∧ proto = "HTTP/1.1".toList then
    some (movedUri start ((line.set methodEnd '\x00').set uriEnd '\x00'))
  else none

/-- `WebClient_HttpParseHeaders`: the URI and the headers of a complete request. -/
def httpParseHeaders (buffer : List Char) : Except EsifError (List Char × List (List Char)) :=
  if buffer = [] then .error esifEParameterIsNull
  else if ¬ crlfcrlf <:+: buffer then .error esifEWsIncomplete
  else
    let lines := (strtokAll (fun c => c = '\r' || c = '\n') (cString buffer)).map trimTrailing
    match lines with
    | [] => .error esifEInvalidRequestType
    | line :: headers =>
      match parseRequestLine line with
      | some uri => .ok (uri, headers)
      | none => .error esifEInvalidRequestType

/-- `WebClient_HttpGetHeader`. -/
def httpGetHeader (headers : List (List Char)) (label : List Char) : Option (List Char) :=
  (headers.find? fun header =>
    startsWithNoCase label header && (header.drop label.length).take 2 = [':', ' ']).map
      (·.drop (label.length + 2))

/-- The client asks for a WebSocket, and no file is served. -/
def asksUpgrade (headers : List (List Char)) : Bool :=
  (httpGetHeader headers "Upgrade".toList).any fun upgrade =>
    stricmp upgrade "websocket".toList = .eq

/-! ## Path names -/

/-- The path name that `WebServer_HttpResponse` opens for a URI, if it comes so far. -/
def httpPath (root : DocRoot) (fileExists : List Char → Bool) (uri : List Char) :
    Option (List Char) :=
  if ['.', '.'] <:+: uri then none
  else
    let resource := uri.take (maxPath - 1)
    if resource = ['/'] then none
    else
      let resourcePath := (root.path ++ resource).take (maxPath - 1)
      if fileExists resourcePath then some resourcePath else none

/-- A request for a file. -/
inductive FileRequest
  /-- What an HTTP client sent. -/
  | http (buffer : List Char)
  /-- A command for `WebServer_ExecRestCmdInternal`. -/
  | fetch (restCmd : List Char)

/-- The path name opened for a request. -/
def openedPath (srv : RestServer) (fileExists : List Char → Bool) :
    FileRequest → Option (List Char)
  | .http buffer =>
    match httpParseHeaders buffer with
    | .ok (uri, headers) =>
      if asksUpgrade headers then none else httpPath srv.docRoot fileExists uri
    | .error _ => none
  | .fetch restCmd => (internalPath srv restCmd).filter fileExists

/-! ## What the client appends -/

/-- The text behind the name of the document root, as far as it fits. -/
def appended (srv : RestServer) (request : FileRequest) : List Char :=
  let text := match request with
    | .http buffer => ((httpParseHeaders buffer).toOption.map Prod.fst).getD []
    | .fetch restCmd => '/' :: (nextWord (nextWord restCmd).2).2
  text.take (maxPath - 1 - srv.docRoot.path.length)

/-- The appended text starts with a separator, and the path behind it leads below the root:
in its normal form it first retraces the names it goes up. -/
def LeadsBelow (root : DocRoot) (text : List Char) : Prop :=
  ∃ rest, text = '/' :: rest ∧
    Below (root.names.drop (root.names.length - (Lib.settle (steps rest)).1))
      (Lib.settle (steps rest)).2

theorem take_path_append (root : DocRoot) (text : List Char) :
    (root.path ++ text).take (maxPath - 1) =
      root.path ++ text.take (maxPath - 1 - root.path.length) := by
  have hlen : root.path.length ≤ maxPath - 1 := Nat.le_sub_one_of_lt root.length_lt
  rw [List.take_append, List.take_of_length_le hlen]

theorem httpPath_eq_some {root : DocRoot} {fileExists : List Char → Bool}
    {uri pathname : List Char} (h : httpPath root fileExists uri = some pathname) :
    ¬ ['.', '.'] <:+: uri ∧
      (root.path ++ uri.take (maxPath - 1)).take (maxPath - 1) = pathname := by
  unfold httpPath at h
  split at h
  · cases h
  · rename_i hdots
    simp only at h
    split at h
    · cases h
    · split at h
      · exact ⟨hdots, Option.some.inj h⟩
      · cases h

/-- The opened path name is the document root's with the appended text, and no `..` is in
the text unless a separator starts it. -/
theorem openedPath_eq {srv : RestServer} {fileExists : List Char → Bool} {request : FileRequest}
    {pathname : List Char} (h : openedPath srv fileExists request = some pathname) :
    pathname = srv.docRoot.path ++ appended srv request ∧
      (['.', '.'] <:+: appended srv request → (appended srv request).head? = some '/') := by
  cases request with
  | http buffer =>
    unfold openedPath at h
    simp only at h
    split at h
    · rename_i uri headers huri
      split at h
      · cases h
      obtain ⟨hdots, rfl⟩ := httpPath_eq_some h
      have happ : appended srv (.http buffer) =
          uri.take (maxPath - 1 - srv.docRoot.path.length) := by
        simp [appended, huri, Except.toOption]
      rw [happ, take_path_append, List.take_take, Nat.min_eq_left (Nat.sub_le _ _)]
      refine ⟨rfl, fun hinf => absurd (hinf.trans ?_) hdots⟩
      exact (List.take_prefix _ _).isInfix
    · cases h
  | fetch restCmd =>
    obtain ⟨hpath, -⟩ := Option.filter_eq_some_iff.mp h
    unfold internalPath at hpath
    simp only at hpath
    split at hpath
    · cases hpath
    · split at hpath
      · cases hpath
        refine ⟨take_path_append _ _, fun hinf => ?_⟩
        cases hn : maxPath - 1 - srv.docRoot.path.length with
        | zero =>
          rw [appended, hn, List.take_zero] at hinf
          exact absurd hinf (by decide)
        | succ n => simp [appended, hn]
      · cases hpath

/-- **An opened file lies strictly below the document root exactly if** what the client
appended to its name leads there. -/
theorem opened_below_iff {srv : RestServer} {fileExists : List Char → Bool}
    {request : FileRequest} {pathname : List Char}
    (h : openedPath srv fileExists request = some pathname) :
    Below srv.docRoot.names (normalize pathname) ↔
      LeadsBelow srv.docRoot (appended srv request) := by
  obtain ⟨rfl, hdots⟩ := openedPath_eq h
  unfold LeadsBelow
  cases htext : appended srv request with
  | nil => simp [srv.docRoot.normalize_path, Below]
  | cons c rest =>
    by_cases hc : c = '/'
    · subst hc
      rw [srv.docRoot.normalize_append_sep, below_walk_iff]
      simp
    · refine iff_of_false ?_ (by simp [hc])
      refine srv.docRoot.not_below_of_no_sep (c := c) (by simp) hc fun hinf => ?_
      rw [htext] at hdots
      simpa [hc] using hdots hinf

/-- A request for a page. -/
theorem opened_below_iff_index :
    Below dptfDocRoot.names (normalize "/usr/share/dptf/ui/index.html".toList) :=
  (opened_below_iff (show openedPath ⟨[0], true, true, none, dptfDocRoot, fun _ => none⟩
    (fun _ => true) (.http "GET /index.html HTTP/1.1\r\n\r\n".toList) =
      some "/usr/share/dptf/ui/index.html".toList by decide)).mpr
    ⟨"index.html".toList, by decide, by decide⟩

/-- **Files outside are served**: the first character alone does not tell. -/
theorem opens_outside_docRoot :
    ¬ ∀ (srv : RestServer) (fileExists : List Char → Bool) (request : FileRequest)
      (pathname : List Char), openedPath srv fileExists request = some pathname →
        Below srv.docRoot.names (normalize pathname) := by
  intro h
  have hbelow := h ⟨[0], true, true, none, dptfDocRoot, fun _ => none⟩ (fun _ => true)
    (.fetch "webserver fetch css/../../secret".toList)
    "/usr/share/dptf/ui/css/../../secret".toList (by decide)
  exact absurd hbelow (by decide)

end Ws

import Dptf.Lib.BinarySearch
import Dptf.Common.CString
import Dptf.Ws.DocRoot
import Mathlib.Algebra.Group.Int.Defs
import Mathlib.Algebra.Group.Nat.Defs

/-!
# REST requests

A text frame is a request `<message id>:<command>`.  The server passes the command
to the shell once it has compared the first word of it with a whitelist and a
blacklist, or answers it from its own files.
-/

open Lib

namespace Ws

/-! ## Constants -/

/-- `ESIF_NAME_LEN`. -/
def esifNameLen : Nat := 64

/-- `WS_FLAG_NOWHITELIST`. -/
def wsFlagNoWhitelist : UInt32 := 0x01

/-- `WS_APPNAME_LOCALSERVER`. -/
def wsAppNameLocalServer : List Char := "webserver".toList

/-- `g_RestApiWhitelist`. -/
def restApiWhitelist : List (List Char) :=
  ["about", "actionstart", "apps", "arbitrator", "capture", "config", "devices", "dptf", "echo",
    "format", "getp", "getp_part", "idsp", "log", "participant", "participantlog",
    "participants", "rstp", "rstp_part", "setp", "setp_part", "status", "tableobject", "trace",
    "ui"].map String.toList

/-- `blacklist`. -/
def restApiBlacklist : List (List Char) := ["exit", "quit", "shell", "web"].map String.toList

/-- `skip_cmds`. -/
def skipCmdList : List (List Char) :=
  ["format text && ", "format xml && "].map String.toList

/-! ## The server -/

/-- What the answer to a request depends on besides its text. -/
structure RestServer where
  /-- The flags of the listeners. -/
  listeners : List UInt32
  /-- `EsifWsShellEnabled`. -/
  shellEnabled : Bool
  isActive : Bool
  /-- `EsifWsAppName`. -/
  appName : Option (List Char)
  /-- `EsifWsDocRoot`. -/
  docRoot : DocRoot
  /-- What can be read of the file with this path name. -/
  readFile : List Char → Option (List Char)

/-- Some listener does not disable the whitelist. -/
def RestServer.enforcesWhitelist (srv : RestServer) : Bool :=
  srv.listeners.any fun flags => flags &&& wsFlagNoWhitelist = 0

/-! ## Internal commands -/

/-- The next word of a command, cut to `ESIF_NAME_LEN`, and the text behind it. -/
def nextWord (s : List Char) : List Char × List Char :=
  let word := (s.takeWhile (!isSpace ·)).take (esifNameLen - 1)
  (word, (s.drop word.length).dropWhile isSpace)

/-- The path name of a file to fetch. -/
def fetchPath (docRoot restCmd : List Char) : List Char :=
  (docRoot ++ '/' :: restCmd).take (maxPath - 1)

/-- The path name that `WebServer_ExecRestCmdInternal` opens for a command, if it comes so
far. -/
def internalPath (srv : RestServer) (restCmd : List Char) : Option (List Char) :=
  let (thisApp, restCmd) := nextWord restCmd
  let foreign := srv.appName.any fun appName =>
    stricmp thisApp appName ≠ .eq && stricmp thisApp wsAppNameLocalServer ≠ .eq
  if foreign then none
  else
    let (subCmd, restCmd) := nextWord restCmd
    if stricmp subCmd "fetch".toList = .eq ∧ restCmd ≠ [] ∧ restCmd.head? ≠ some '.' then
      some (fetchPath srv.docRoot.path restCmd)
    else none

/-- `WebServer_ExecRestCmdInternal`: the file behind the message id. -/
def execRestCmdInternal (srv : RestServer) (restCmd msgPrefix : List Char) :
    Option (List Char) :=
  (internalPath srv restCmd).bind fun pathname => (srv.readFile pathname).map (msgPrefix ++ ·)

/-! ## Requests -/

/-- What a request comes to. -/
inductive RestOutcome
  /-- `ESIF_E_PARAMETER_IS_NULL`: there is no command. -/
  | noCommand
  /-- Answered by the server. -/
  | reply (text : List Char)
  /-- Passed to the shell, which answers it. -/
  | shell (shellCmd msgPrefix : List Char)
deriving DecidableEq, Repr

/-- `atoi`, as an unsigned 32-bit number. -/
def atoi (s : List Char) : UInt32 :=
  let value (digits : List Char) : Int :=
    ((digits.takeWhile Char.isDigit).foldl (fun n c => 10 * n + (c.toNat - 48)) 0 : Nat)
  let long : Int :=
    match s.dropWhile isSpace with
    | '-' :: digits => max (-(value digits)) (-2 ^ 63)
    | '+' :: digits => min (value digits) (2 ^ 63 - 1)
    | digits => min (value digits) (2 ^ 63 - 1)
  .ofNat (long % 2 ^ 32).toNat

/-- The text behind the first `:`, which must not be the first character. -/
def commandText (request : List Char) : Option (List Char) :=
  let msgId := request.takeWhile fun c => c ≠ ':' && c ≠ '\x00'
  match request.drop msgId.length with
  | ':' :: text => if msgId = [] then none else some text
  | _ => none

/-- The command of `skip_cmds` at the start.  `restCmdLen` counts the terminator. -/
def skipCmdAt (restCmd : List Char) (restCmdLen : Nat) : Option (List Char) :=
  skipCmdList.find? fun cmd => cmd.length < restCmdLen && startsWithNoCase cmd restCmd

/-- Skips the commands of `skip_cmds`, over and over. -/
def skipCmds : Nat → List Char → Nat → List Char
  | 0, restCmd, _ => restCmd
  | fuel + 1, restCmd, restCmdLen =>
    match skipCmdAt restCmd restCmdLen with
    | some cmd => skipCmds fuel (restCmd.drop cmd.length) (restCmdLen - cmd.length)
    | none => restCmd

/-- `rest_cmd`, the command that is looked at. -/
def restCmdOf (text : List Char) : List Char :=
  skipCmds (cString text).length (cString text) (text.length + 1)

/-- `cmd_name`. -/
def cmdNameOf (restCmd : List Char) : List Char :=
  (restCmd.takeWhile (!isSpace ·)).take (esifNameLen - 1)

/-- The binary search of the whitelist finds nothing. -/
def notWhitelisted (cmdName : List Char) : Bool :=
  cmdName ≠ [] &&
    match binarySearch (stricmp cmdName) restApiWhitelist with
    | .found _ => false
    | .missing _ => true

/-- The blacklist has the name. -/
def blacklisted (cmdName : List Char) : Bool :=
  cmdName ≠ [] && restApiBlacklist.any fun name => stricmp cmdName name = .eq

/-- Strips what is not ASCII from a response. -/
def stripped (response : List Char) : List Char :=
  (cString response).filter fun c =>
    c = '\r' || c = '\n' || c = '\t' || ' '.toNat ≤ c.toNat && c.toNat ≤ '~'.toNat

/-- `WebServer_WebSocketExecRestCmd`. -/
def execRestCmd (srv : RestServer) (request : List Char) : RestOutcome :=
  match commandText request with
  | none => .noCommand
  | some text =>
    let msgId := atoi (cString request)
    let msgPrefix := (toString msgId.toNat).toList ++ [':']
    if msgId = 0 ∧ !srv.shellEnabled then .reply (msgPrefix ++ "Shell Disabled".toList)
    else
      let restCmd := restCmdOf text
      let cmdName := cmdNameOf restCmd
      let blocked := srv.enforcesWhitelist && notWhitelisted cmdName
      let response :=
        if blocked || !srv.enforcesWhitelist then execRestCmdInternal srv restCmd msgPrefix
        else none
      match response with
      | some response => .reply (stripped response)
      | none =>
        if blocked || blacklisted cmdName then .reply (msgPrefix ++ "Unsupported Command".toList)
        else if srv.isActive then .shell (cString text) msgPrefix
        else .reply msgPrefix

/-! ## What passing to the shell says -/

/-- **A command that is passed to the shell** is the text of the request, and the name the
server read is empty or whitelisted and not blacklisted. -/
theorem execRestCmd_eq_shell {srv : RestServer} {request shellCmd msgPrefix : List Char}
    (h : execRestCmd srv request = .shell shellCmd msgPrefix) :
    ∃ text, commandText request = some text ∧ shellCmd = cString text ∧
      (srv.enforcesWhitelist → notWhitelisted (cmdNameOf (restCmdOf text)) = false) ∧
      blacklisted (cmdNameOf (restCmdOf text)) = false := by
  unfold execRestCmd at h
  split at h
  · cases h
  · rename_i text htext
    simp only at h
    split at h
    · cases h
    · split at h
      · cases h
      · split at h
        · cases h
        · rename_i hok
          split at h
          · obtain ⟨rfl, -⟩ := RestOutcome.shell.inj h
            simp only [Bool.or_eq_true, Bool.and_eq_true, not_or, not_and, Bool.not_eq_true] at hok
            exact ⟨text, htext, rfl, hok.1, hok.2⟩
          · cases h

end Ws

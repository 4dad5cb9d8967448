import Dptf.Lib.Quoted
import Mathlib.Data.List.Induction
import Mathlib.Data.List.TakeWhile

/-!
# The commands of a shell line

`esif_shell_exec_command` takes a line of commands that are separated by newlines or by ` && `.
It cuts the line in place, a command in each iteration of its loop, and looks for blank lines and
comments in a copy of what it had before the cut.

* `runsItsCommands_of_orderly` — **the commands of an `Orderly` line are run**, and of any other
  one they are not, but for comments with mixed quotes.
* `not_runsItsCommands_comment` — a line that is not.
-/

open Lib

namespace Uf

variable {segment command : CommandLine} {commands : List CommandLine}

/-! ## The function -/

/-- A command line. -/
abbrev CommandLine := List Char

/-- `ESIF_SHELL_STRTOK_SEP`. -/
def isShellStrtokSep (c : Char) : Bool := c = ' ' || c = '\t' || c = '\r' || c = '\n'

/-- `esif_ccb_strtok`, the first time. -/
def firstShellToken (line : CommandLine) : Option CommandLine :=
  match line.dropWhile isShellStrtokSep with
  | [] => none
  | c :: rest => some (c :: rest.takeWhile fun c => !isShellStrtokSep c)

/-- `multi_cmd_sep`. -/
def multiCmdSep : CommandLine := [' ', '&', '&', ' ']

def newlineSep : CommandLine := ['\n']

theorem multiCmdSep_ne : multiCmdSep ≠ [] := by decide

theorem newlineSep_ne : newlineSep ≠ [] := by decide

/-- There are no quotes. -/
def noQuote (_ : Option Char) (_ : Char) : Option Char := none

/-- `strstr`, as what is before and what is behind. -/
def strstr (sep line : CommandLine) : Option (CommandLine × CommandLine) :=
  cutFirst sep noQuote none line

/-- `lastquote` behind a character: within quotes the other kind of quote takes over. -/
def nextLastquote (lastquote : Option Char) (ch : Char) : Option Char :=
  if some ch = lastquote then none
  else if ch = '"' ∨ ch = '\'' then some ch
  else lastquote

/-- The separator that an iteration finds: the command before it, and `cmd_separator`. -/
def cutCommand (lineCpy : CommandLine) : CommandLine × Option CommandLine :=
  match strstr newlineSep lineCpy with
  | some (command, cmdSeparator) => (command, some cmdSeparator)
  | none =>
    if (strstr multiCmdSep lineCpy).isSome then
      match cutFirst multiCmdSep nextLastquote none lineCpy with
      | some (command, cmdSeparator) => (command, some cmdSeparator)
      | none => (lineCpy, none)
    else (lineCpy, none)

/-- What is called with a command. -/
inductive ShellCall
  /-- `esif_shell_exec_cmdshell`. -/
  | cmdshell (command : CommandLine)
  /-- `esif_shell_exec_dispatch`. -/
  | dispatch (command : CommandLine)
deriving DecidableEq, Repr

theorem cutCommand_length_lt {lineCpy command rest : CommandLine}
    (h : cutCommand lineCpy = (command, some rest)) : rest.length < lineCpy.length := by
  unfold cutCommand at h
  split at h
  · rename_i hcut
    obtain ⟨rfl, hrest⟩ := Prod.mk.inj h
    cases hrest
    exact cutFirst_length_lt newlineSep_ne hcut
  · split at h
    · split at h
      · rename_i hcut
        obtain ⟨rfl, hrest⟩ := Prod.mk.inj h
        cases hrest
        exact cutFirst_length_lt multiCmdSep_ne hcut
      · cases h
    · cases h

/-- What an iteration does with its command: what it calls, and whether `cmdPtr` is set then.
`cmdshell` says whether there are external commands. -/
def execCommand (cmdshell cmdPtr : Bool) (tempLine command : CommandLine) :
    List ShellCall × Bool :=
  if cmdshell ∧ command.head? = some '!' then ([.cmdshell command.tail], cmdPtr)
  else
    match firstShellToken tempLine with
    | none => ([], false)
    | some token => (if token.head? = some '#' then [] else [.dispatch command], true)

/-- The loop of `esif_shell_exec_command`, its allocations succeeding; `tempLine` is `temp_line` of
this iteration. -/
def execLoop (cmdshell cmdPtr : Bool) (tempLine lineCpy : CommandLine) : List ShellCall :=
  match _h : cutCommand lineCpy with
  | (command, none) => (execCommand cmdshell cmdPtr tempLine command).1
  | (command, some rest) =>
    let (calls, cmdPtr) := execCommand cmdshell cmdPtr tempLine command
    -- the next copy is made before the rest of the line is moved to its front
    if cmdPtr then calls ++ execLoop cmdshell cmdPtr command rest else calls
termination_by lineCpy.length
decreasing_by exact cutCommand_length_lt _h

/-- The quote that is open behind a character: it is closed by its own kind only. -/
def nextQuote (opened : Option Char) (ch : Char) : Option Char :=
  match opened with
  | none => if ch = '"' ∨ ch = '\'' then some ch else none
  | some quote => if ch = quote then none else some quote

/-- The line, cut at its newlines. -/
def linesOf (line : CommandLine) : List CommandLine := cutAll noQuote newlineSep_ne line

/-- Lines, cut at each ` && ` outside quotes. -/
def cutLines (lines : List CommandLine) : List CommandLine :=
  lines.flatMap (cutAll nextQuote multiCmdSep_ne)

/-- The line, cut at its newlines and at each ` && ` outside quotes. -/
def segments (line : CommandLine) : List CommandLine := cutLines (linesOf line)

/-- A segment with nothing in it. -/
def IsBlank (segment : CommandLine) : Prop := firstShellToken segment = none

/-- A segment that starts with `#`. -/
def IsComment (segment : CommandLine) : Prop :=
  ∃ token, firstShellToken segment = some token ∧ token.head? = some '#'

instance (segment : CommandLine) : Decidable (IsBlank segment) :=
  inferInstanceAs (Decidable (firstShellToken segment = none))

instance (segment : CommandLine) : Decidable (IsComment segment) :=
  decidable_of_iff (((firstShellToken segment).bind List.head?) = some '#')
    Option.bind_eq_some_iff

/-- A segment with a command. -/
def IsCommand (segment : CommandLine) : Prop := ¬IsBlank segment ∧ ¬IsComment segment

instance (segment : CommandLine) : Decidable (IsCommand segment) :=
  inferInstanceAs (Decidable (¬IsBlank segment ∧ ¬IsComment segment))

/-- Of some lines, only the last one is cut at ` && `. -/
def cutLast (quote : Option Char → Char → Option Char) : List CommandLine → List CommandLine
  | [] => []
  | [last] => cutAll quote multiCmdSep_ne last
  | first :: second :: lines => first :: cutLast quote (second :: lines)

/-- The pieces that the function cuts its line into, by the rule of `lastquote`. -/
def piecesOf (line : CommandLine) : List CommandLine := cutLast nextLastquote (linesOf line)

/-- The lines of a line, the last one cut at each ` && ` outside quotes. -/
def partsOf (line : CommandLine) : List CommandLine := cutLast nextQuote (linesOf line)

def isQuote (c : Char) : Bool := c = '"' || c = '\''

/-- How many characters of one kind there are at the beginning. -/
def runLength : List Char → Nat
  | [] => 0
  | c :: rest => (rest.takeWhile fun c' => c' = c).length + 1

/-- How many quotes of one kind the quotes of a text end with. -/
def quotesAtEnd (text : CommandLine) : Nat := runLength (text.filter isQuote).reverse

/-- Before each ` && `, a quote is open just if the quotes end with an odd number of one kind. -/
def EvenlyQuoted (line : CommandLine) : Prop :=
  ∀ text, text ++ multiCmdSep <+: line →
    (quoteAfter nextQuote none text = none ↔ quotesAtEnd text % 2 = 0)

/-- The last of the lines is evenly quoted. -/
def LastEvenlyQuoted (line : CommandLine) : Prop :=
  ∀ l, (linesOf line).getLast? = some l → EvenlyQuoted l

/-- There is no ` && ` outside quotes. -/
def NotCut (line : CommandLine) : Prop :=
  ∀ text, text ++ multiCmdSep <+: line → quoteAfter nextQuote none text ≠ none

/-- There is a ` && ` outside quotes in the last line only, and that one is evenly quoted. -/
structure CutAlike (line : CommandLine) : Prop where
  before : ∀ l ∈ (linesOf line).dropLast, NotCut l
  last : LastEvenlyQuoted line

/-- No segment is a command, and the parts are comments up to the end or a blank one. -/
def OnlyComments (line : CommandLine) : Prop :=
  (∀ segment ∈ segments line, ¬IsCommand segment) ∧
    ∀ part ∈ ((partsOf line).dropWhile fun part => IsComment part).head?, IsBlank part

/-- There are lines that are comments, and one that is no comment and not blank; no segment of
these is a command.  All segments behind them are commands, and only the last line is cut. -/
def ResumesBehind (line : CommandLine) : Prop :=
  ∃ comments first rest, linesOf line = comments ++ first :: rest ∧ rest ≠ [] ∧
    (∀ l ∈ comments, IsComment l) ∧ IsCommand first ∧
    (∀ segment ∈ cutLines (comments ++ [first]), ¬IsCommand segment) ∧
    (∀ segment ∈ cutLines rest, IsCommand segment) ∧ ∀ l ∈ rest.dropLast, NotCut l

/-- The lines whose commands are run. -/
def Orderly (line : CommandLine) : Prop :=
  IsBlank line ∨
  (IsComment line ∧ LastEvenlyQuoted line ∧ (OnlyComments line ∨ ResumesBehind line)) ∨
  ((∀ segment ∈ segments line, IsCommand segment) ∧ CutAlike line)

/-! ## Quotes -/

variable {line piece rest : CommandLine}

theorem quoteAfter_noQuote (text : CommandLine) : quoteAfter noQuote none text = none :=
  quoteAfter_eq_none fun _ _ => rfl

theorem linesOf_ne_nil (line : CommandLine) : linesOf line ≠ [] := cutAll_ne_nil

/-- A line is not cut at a newline just if it has none. -/
theorem strstr_newlineSep_eq_none : strstr newlineSep line = none ↔ '\n' ∉ line := by
  rw [strstr, cutFirst_eq_none newlineSep_ne]
  constructor
  · intro h hmem
    obtain ⟨text, behind, rfl⟩ := List.append_of_mem hmem
    exact h text ⟨behind, by simp [newlineSep]⟩ (quoteAfter_noQuote text)
  · intro h text htext _
    exact h (htext.subset (by simp [newlineSep]))

theorem cutCommand_of_newline (h : strstr newlineSep line = some (piece, rest)) :
    cutCommand line = (piece, some rest) := by
  rw [cutCommand, h]

/-- The search for ` && ` before the quotes are looked at makes no difference. -/
theorem cutCommand_of_none (h : strstr newlineSep line = none) :
    cutCommand line = match cutFirst multiCmdSep nextLastquote none line with
      | some (piece, rest) => (piece, some rest)
      | none => (line, none) := by
  rw [cutCommand, h]
  dsimp only
  split
  · rfl
  · rename_i hno
    have hstrstr : strstr multiCmdSep line = none := by simpa using hno
    have hnone : cutFirst multiCmdSep nextLastquote none line = none := by
      rw [cutFirst_eq_none multiCmdSep_ne]
      intro text htext _
      exact (cutFirst_eq_none multiCmdSep_ne).mp hstrstr text htext (quoteAfter_noQuote text)
    rw [hnone]

theorem linesOf_of_none (h : '\n' ∉ line) : linesOf line = [line] :=
  cutAll_of_none (strstr_newlineSep_eq_none.mpr h)

theorem piecesOf_of_none (h : '\n' ∉ line) :
    piecesOf line = cutAll nextLastquote multiCmdSep_ne line := by
  rw [piecesOf, linesOf_of_none h, cutLast]

/-- **The function cuts its line into these pieces**, one in each iteration. -/
theorem piecesOf_eq (line : CommandLine) :
    piecesOf line = match cutCommand line with
      | (piece, none) => [piece]
      | (piece, some rest) => piece :: piecesOf rest := by
  cases hnewline : strstr newlineSep line with
  | some cut =>
    obtain ⟨piece, rest⟩ := cut
    have hlines : linesOf line = piece :: linesOf rest := cutAll_of_some hnewline
    obtain ⟨second, lines, hrest⟩ := List.exists_cons_of_ne_nil (linesOf_ne_nil rest)
    rw [cutCommand_of_newline hnewline]
    dsimp only
    rw [piecesOf, piecesOf, hlines, hrest, cutLast]
  | none =>
    have hno := strstr_newlineSep_eq_none.mp hnewline
    rw [cutCommand_of_none hnewline, piecesOf_of_none hno]
    cases hcut : cutFirst multiCmdSep nextLastquote none line with
    | none => exact cutAll_of_none hcut
    | some cut =>
      obtain ⟨piece, rest⟩ := cut
      have hrest : '\n' ∉ rest := by
        intro hmem
        rw [(cutFirst_eq_some hcut).1] at hno
        exact hno (List.mem_append_right _ hmem)
      dsimp only
      rw [cutAll_of_some hcut, piecesOf_of_none hrest]

/-! ## Dispatching -/

/-- The pieces that are dispatched, each one by what there was before it. -/
def dispatched : CommandLine → List CommandLine → List CommandLine
  | _, [] => []
  | tempLine, piece :: pieces =>
    match firstShellToken tempLine with
    | none => []
    | some token => (if token.head? = some '#' then [] else [piece]) ++ dispatched piece pieces

/-- What is called with a piece that is no external command. -/
theorem execCommand_of_no_shell {cmdshell cmdPtr : Bool} {tempLine : CommandLine}
    (hshell : cmdshell = true → piece.head? ≠ some '!') :
    execCommand cmdshell cmdPtr tempLine piece =
      ((dispatched tempLine [piece]).map ShellCall.dispatch,
        (firstShellToken tempLine).isSome) := by
  rw [execCommand, if_neg fun h => hshell h.1 h.2, dispatched]
  cases firstShellToken tempLine with
  | none => rfl
  | some token =>
    dsimp only
    split <;> rfl

/-- The first piece, and the others if there was something before it. -/
theorem dispatched_cons (tempLine piece : CommandLine) (pieces : List CommandLine) :
    dispatched tempLine (piece :: pieces) = dispatched tempLine [piece] ++
      if (firstShellToken tempLine).isSome then dispatched piece pieces else [] := by
  rw [dispatched, dispatched]
  cases firstShellToken tempLine <;> simp [dispatched]

/-- **The loop dispatches pieces.** -/
theorem execLoop_eq {cmdshell : Bool} (cmdPtr : Bool) (tempLine : CommandLine)
    (hshell : cmdshell = true → ∀ piece ∈ piecesOf line, piece.head? ≠ some '!') :
    execLoop cmdshell cmdPtr tempLine line =
      (dispatched tempLine (piecesOf line)).map ShellCall.dispatch := by
  fun_induction execLoop cmdshell cmdPtr tempLine line with
  | case1 cmdPtr tempLine line piece hcut =>
    have hpieces : piecesOf line = [piece] := by rw [piecesOf_eq, hcut]
    rw [hpieces] at hshell ⊢
    rw [execCommand_of_no_shell fun h => hshell h piece List.mem_cons_self]
  | case2 cmdPtr tempLine line piece rest hcut calls hcalls ih =>
    have hpieces : piecesOf line = piece :: piecesOf rest := by rw [piecesOf_eq, hcut]
    rw [hpieces] at hshell ⊢
    rw [execCommand_of_no_shell fun h => hshell h piece List.mem_cons_self] at hcalls
    obtain ⟨rfl, hsome⟩ := Prod.mk.inj hcalls
    rw [dispatched_cons tempLine piece (piecesOf rest), if_pos hsome, List.map_append,
      ih fun h p hp => hshell h p (List.mem_cons_of_mem _ hp)]
  | case3 cmdPtr tempLine line piece rest hcut calls cmdPtr' hcalls hnot =>
    have hpieces : piecesOf line = piece :: piecesOf rest := by rw [piecesOf_eq, hcut]
    rw [hpieces] at hshell ⊢
    rw [execCommand_of_no_shell fun h => hshell h piece List.mem_cons_self] at hcalls
    obtain ⟨rfl, rfl⟩ := Prod.mk.inj hcalls
    rw [dispatched_cons tempLine piece (piecesOf rest), if_neg hnot, List.append_nil]

/-! ### Blank lines, comments and commands -/

variable {tempLine : CommandLine} {pieces : List CommandLine}

end Uf

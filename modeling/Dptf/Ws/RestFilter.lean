import Dptf.Ws.Rest
import Dptf.Ws.Shell

/-!
# What the REST filter lets through

The filter reads one word of a request, the shell dispatches a command for each
piece of it.  The two agree on the word the filter reads where a blank that the
shell knows ends it; of the other commands the filter knows nothing.

* `rest_filter_iff` — **what the shell dispatches for a request is allowed exactly
  if** the commands that the filter does not read are.
-/

open Lib

namespace Ws

variable {word name line tempLine format mode rest : List Char}

/-- A name that clients may dispatch. -/
def RestAllowed (name : List Char) : Prop :=
  (∃ allowed ∈ restApiWhitelist, stricmp name allowed = .eq) ∧
    ∀ denied ∈ restApiBlacklist, stricmp name denied ≠ .eq

instance (name : List Char) : Decidable (RestAllowed name) :=
  inferInstanceAs (Decidable (_ ∧ _))

/-! ## The commands the filter does not read -/

/-- `skip_cmds` as the shell sees them: the line it comes to and the one before. -/
def skipTurns : Nat → List Char → List Char → Nat → List Char × List Char
  | 0, tempLine, line, _ => (tempLine, line)
  | fuel + 1, tempLine, line, lineLen =>
    match skipCmdAt line lineLen with
    | some cmd =>
      skipTurns fuel (line.take (cmd.length - multiCmdSep.length)) (line.drop cmd.length)
        (lineLen - cmd.length)
    | none => (tempLine, line)

/-- The turn of the shell in which it comes to the word the filter reads.  In a text with a
newline that is the first: the skipped commands are not cut off before the newlines are. -/
def leadTurn (text : List Char) : List Char × List Char :=
  if '\n' ∈ cString text then (cString text, cString text)
  else skipTurns (cString text).length (cString text) (cString text) (text.length + 1)

/-- A word stands at the start of the command, and a blank that the shell knows ends it. -/
def ReadsWord (restCmd : List Char) : Prop :=
  (∃ c ∈ restCmd.head?, isSpace c = false) ∧
    ∀ c ∈ (restCmd.dropWhile (!isSpace ·)).head?, isShellSep c = true

/-- The commands of a request that the filter does not read are allowed. -/
def OthersAllowed (request : List Char) : Prop :=
  ∀ text ∈ commandText request,
    (ReadsWord (restCmdOf text) ∨
      ∀ name ∈ turnNames (leadTurn text).1 (leadTurn text).2, RestAllowed name) ∧
    ∀ name ∈ furtherNames (leadTurn text).1 (leadTurn text).2, RestAllowed name

/-! ## Names -/

/-- A character of a whitelisted name. -/
def isNameChar (c : Char) : Bool := c.toLower.isLower || c = '_'

/-- A word of such characters. -/
structure IsName (word : List Char) : Prop where
  ne_nil : word ≠ []
  chars : ∀ c ∈ word, isNameChar c = true

theorem ne_of_isNameChar {c d : Char} (h : isNameChar c = true) (hd : isNameChar d = false) :
    c ≠ d := by
  rintro rfl
  rw [h] at hd
  cases hd

theorem not_isShellSep_of_isNameChar {c : Char} (h : isNameChar c = true) :
    isShellSep c = false := by
  simp only [isShellSep, Bool.or_eq_false_iff, decide_eq_false_iff_not]
  exact ⟨⟨⟨ne_of_isNameChar h rfl, ne_of_isNameChar h rfl⟩, ne_of_isNameChar h rfl⟩,
    ne_of_isNameChar h rfl⟩

theorem not_isQuote_of_isNameChar {c : Char} (h : isNameChar c = true) : isQuote c = false := by
  simp only [isQuote, Bool.or_eq_false_iff, decide_eq_false_iff_not]
  exact ⟨ne_of_isNameChar h rfl, ne_of_isNameChar h rfl⟩

/-- A name in other letters is a name. -/
theorem IsName.of_toLower_eq (h : IsName name) (heq : toLower word = toLower name) :
    IsName word where
  ne_nil := by
    rintro rfl
    have hlen := length_eq_of_toLower_eq heq
    exact h.ne_nil (List.length_eq_zero_iff.mp hlen.symm)
  chars := by
    intro c hc
    have hmem : c.toLower ∈ toLower name := by
      rw [← heq]
      exact List.mem_map_of_mem hc
    obtain ⟨d, hd, heqd⟩ := List.mem_map.mp hmem
    have hname := h.chars d hd
    simp only [isNameChar, Bool.or_eq_true, decide_eq_true_eq] at hname ⊢
    rcases hname with hlow | rfl
    · exact .inl (heqd ▸ hlow)
    · exact .inr (eq_of_toLower_eq heqd.symm (by decide))

theorem isName_of_mem_whitelist (h : name ∈ restApiWhitelist) : IsName name := by
  have hall : (restApiWhitelist.all fun name => !name.isEmpty && name.all isNameChar) = true := by
    decide
  have hname := List.all_eq_true.mp hall name h
  rw [Bool.and_eq_true] at hname
  exact ⟨by simpa using hname.1, List.all_eq_true.mp hname.2⟩

/-- The line starts with a name, and a blank or its end follows. -/
def StartsWith (word line : List Char) : Prop :=
  ∃ rest, line = word ++ rest ∧ ∀ c ∈ rest.head?, isShellSep c = true

/-- **The command cut from a line** still starts with the name at its start. -/
theorem StartsWith.splitCommand (hw : IsName word) (h : StartsWith word line) :
    StartsWith word (splitCommand line).1 := by
  obtain ⟨rest, rfl, hrest⟩ := h
  unfold Ws.splitCommand
  split
  · refine ⟨rest.takeWhile (· ≠ '\n'), ?_, ?_⟩
    · refine List.takeWhile_append_of_pos ?_
      intro c hc
      simpa using ne_of_isNameChar (hw.chars c hc) (d := '\n') rfl
    · intro c hc
      cases rest with
      | nil => simp at hc
      | cons d ds =>
        by_cases hd : d = '\n'
        · simp [hd] at hc
        · obtain rfl : d = c := by simpa [hd] using hc
          exact hrest d (by simp)
  · rw [scanSep_word (fun c hc => ne_of_isNameChar (hw.chars c hc) rfl)
      (fun c hc => not_isQuote_of_isNameChar (hw.chars c hc))]
    cases hscan : scanSep none rest with
    | none => exact ⟨rest, rfl, hrest⟩
    | some res =>
      obtain ⟨before, behind⟩ := res
      refine ⟨before, rfl, fun c hc => ?_⟩
      exact hrest c (head_of_scanSep hscan hc)

/-- A turn of the shell at a name dispatches it. -/
theorem mem_turnNames (hw : IsName word) (h : StartsWith word line)
    (hmem : name ∈ turnNames tempLine line) : name = word := by
  obtain ⟨rest, hrest, hsep⟩ := h.splitCommand hw
  have htoken : firstToken (Ws.splitCommand line).1 = some word := by
    rw [hrest]
    exact firstToken_of_word hw.ne_nil
      (fun c hc => not_isShellSep_of_isNameChar (hw.chars c hc))
      (fun c hc => not_isQuote_of_isNameChar (hw.chars c hc)) hsep
  unfold turnNames at hmem
  split at hmem
  · simp at hmem
  · split at hmem
    · simp at hmem
    · rw [dispatchName, htoken] at hmem
      have hsome := Option.mem_toList.mp hmem
      exact (Option.some.inj (Option.eq_some_of_filter_eq_some hsome)).symm

/-- What the whitelist has is allowed: the blacklist has none of it. -/
theorem restAllowed_of_stricmp {name allowed : List Char} (hmem : allowed ∈ restApiWhitelist)
    (h : stricmp name allowed = .eq) : RestAllowed name := by
  refine ⟨⟨allowed, hmem, h⟩, fun denied hdenied heq => ?_⟩
  have hdisjoint : ∀ a ∈ restApiWhitelist, ∀ b ∈ restApiBlacklist, toLower a ≠ toLower b := by
    decide
  rw [stricmp_eq_iff] at h heq
  exact hdisjoint allowed hmem denied hdenied (h.symm.trans heq)

/-! ## The skipped commands -/

/-- A command of `skip_cmds` at the start of a line, taken apart. -/
structure Skipped (line format mode rest : List Char) : Prop where
  line_eq : line = format ++ ' ' :: (mode ++ (multiCmdSep ++ rest))
  format_eq : toLower format = toLower "format".toList
  mode_isName : IsName mode

theorem format_mem_whitelist : "format".toList ∈ restApiWhitelist := by decide

theorem Skipped.restAllowed (h : Skipped line format mode rest) : RestAllowed format :=
  restAllowed_of_stricmp format_mem_whitelist (stricmp_eq_iff.mpr h.format_eq)

theorem Skipped.isName (h : Skipped line format mode rest) : IsName format :=
  (isName_of_mem_whitelist format_mem_whitelist).of_toLower_eq h.format_eq

theorem Skipped.startsWith (h : Skipped line format mode rest) : StartsWith format line :=
  ⟨_, h.line_eq, by simp [isShellSep]⟩

theorem exists_skipped {cmd line : List Char} {lineLen : Nat}
    (h : skipCmdAt line lineLen = some cmd) :
    ∃ format mode rest, Skipped line format mode rest ∧ line.drop cmd.length = rest ∧
      line.take (cmd.length - multiCmdSep.length) = format ++ ' ' :: mode := by
  have hmem := List.mem_of_find?_eq_some h
  obtain ⟨mode, hcmd, hmode⟩ : ∃ mode, cmd = "format".toList ++ ' ' :: (mode ++ multiCmdSep) ∧
      IsName mode := by
    simp only [skipCmdList, List.map_cons, List.map_nil, List.mem_cons, List.not_mem_nil,
      or_false] at hmem
    rcases hmem with rfl | rfl
    · exact ⟨"text".toList, rfl, by decide, List.all_eq_true.mp (by decide)⟩
    · exact ⟨"xml".toList, rfl, by decide, List.all_eq_true.mp (by decide)⟩
  have heq : (line.take cmd.length).map Char.toLower =
      toLower ("format".toList ++ ' ' :: (mode ++ multiCmdSep)) := by
    have hstart := List.find?_some h
    simp only [Bool.and_eq_true, startsWithNoCase, decide_eq_true_eq] at hstart
    rw [← hcmd]
    exact hstart.2
  simp only [toLower, List.map_append, List.map_cons] at heq
  obtain ⟨format', tail, htake, hformat, htail⟩ := List.map_eq_append_iff.mp heq
  obtain ⟨blank, tail', rfl, hblank, htail'⟩ := List.map_eq_cons_iff.mp htail
  obtain ⟨mode', sep, rfl, hmode', hsep⟩ := List.map_eq_append_iff.mp htail'
  obtain rfl : blank = ' ' := eq_of_toLower_eq hblank (by decide)
  have hlower : (multiCmdSep.all fun d => d.toLower == d && !d.isLower) = true := by decide
  have hsame : ∀ d ∈ multiCmdSep, d.toLower = d ∧ d.isLower = false := by
    simpa using List.all_eq_true.mp hlower
  obtain rfl : sep = multiCmdSep := eq_of_map_toLower_eq hsame hsep
  have hlen : cmd.length = (format' ++ ' ' :: (mode' ++ multiCmdSep)).length := by
    rw [hcmd]
    have hf := congrArg List.length hformat
    have hm := congrArg List.length hmode'
    simp only [List.length_map] at hf hm
    simp only [List.length_append, List.length_cons, hf, hm]
  refine ⟨format', mode', line.drop cmd.length, ⟨?_, hformat, hmode.of_toLower_eq hmode'⟩, rfl, ?_⟩
  · calc
      line = line.take cmd.length ++ line.drop cmd.length := (List.take_append_drop _ _).symm
      _ = _ := by rw [htake]; simp
  · have hle : cmd.length - multiCmdSep.length ≤ cmd.length := Nat.sub_le _ _
    have hsub : cmd.length - multiCmdSep.length = (format' ++ ' ' :: mode').length := by
      rw [hlen]
      simp
      omega
    calc
      line.take (cmd.length - multiCmdSep.length) =
          (line.take cmd.length).take (cmd.length - multiCmdSep.length) := by
        rw [List.take_take, Nat.min_eq_left hle]
      _ = format' ++ ' ' :: mode' := by
        rw [htake, hsub, show format' ++ ' ' :: (mode' ++ multiCmdSep) =
          (format' ++ ' ' :: mode') ++ multiCmdSep by simp, List.take_left]

/-- The line before is not blank and no comment. -/
def TurnRuns (tempLine : List Char) : Prop :=
  ∃ token, firstToken tempLine = some token ∧ token.head? ≠ some '#'

/-- A line that starts with a name. -/
theorem StartsWith.turnRuns (hw : IsName word) (h : StartsWith word line) : TurnRuns line := by
  obtain ⟨rest, rfl, hrest⟩ := h
  refine ⟨word, firstToken_of_word hw.ne_nil
    (fun c hc => not_isShellSep_of_isNameChar (hw.chars c hc))
    (fun c hc => not_isQuote_of_isNameChar (hw.chars c hc)) hrest, ?_⟩
  intro hhead
  exact ne_of_isNameChar (hw.chars '#' (List.mem_of_mem_head? hhead)) rfl rfl

/-- The scan cuts a skipped command off. -/
theorem Skipped.splitCommand (h : Skipped line format mode rest) (hnl : '\n' ∉ line) :
    Ws.splitCommand line = (format ++ ' ' :: mode, some rest) := by
  have hword : ∀ {word : List Char}, IsName word → ∀ more,
      scanSep none (word ++ more) = (scanSep none more).map (Prod.map (word ++ ·) id) :=
    fun hw more => scanSep_word (fun c hc => ne_of_isNameChar (hw.chars c hc) rfl)
      (fun c hc => not_isQuote_of_isNameChar (hw.chars c hc))
  have hsep : scanSep none (multiCmdSep ++ rest) = some ([], rest) := by
    simp [scanSep, multiCmdSep, isQuote]
  have hblank : ¬ multiCmdSep <+: ' ' :: (mode ++ (multiCmdSep ++ rest)) := by
    intro hpre
    have htail := (List.cons_prefix_cons.mp hpre).2
    obtain ⟨c, cs, hmode⟩ := List.exists_cons_of_ne_nil h.mode_isName.ne_nil
    rw [hmode, List.cons_append, List.cons_prefix_cons] at htail
    have hchar := h.mode_isName.chars c (by simp [hmode])
    exact ne_of_isNameChar hchar rfl htail.1.symm
  have hscan : scanSep none line = some (format ++ ' ' :: mode, rest) := by
    rw [h.line_eq, hword h.isName, scanSep, if_neg (by simp), if_neg (by simp [isQuote]),
      if_neg (by simp [hblank]), hword h.mode_isName, hsep]
    simp [Prod.map]
  rw [Ws.splitCommand, if_neg hnl, hscan]

/-- A turn at a skipped command. -/
theorem Skipped.execLoop (h : Skipped line format mode rest) (hnl : '\n' ∉ line)
    (htemp : TurnRuns tempLine) :
    Ws.execLoop (line.length + 1) tempLine line =
      format :: Ws.execLoop (rest.length + 1) (format ++ ' ' :: mode) rest := by
  obtain ⟨token, htoken, hcomment⟩ := htemp
  have hsplit := h.splitCommand hnl
  have hname : dispatchName (format ++ ' ' :: mode) = some format := by
    have hfirst : firstToken (format ++ ' ' :: mode) = some format :=
      firstToken_of_word h.isName.ne_nil
        (fun c hc => not_isShellSep_of_isNameChar (h.isName.chars c hc))
        (fun c hc => not_isQuote_of_isNameChar (h.isName.chars c hc)) (by simp [isShellSep])
    have hhead : ∀ c, isNameChar c = false → format.head? ≠ some c := fun c hc hh =>
      ne_of_isNameChar (h.isName.chars c (List.mem_of_mem_head? hh)) hc rfl
    simp [dispatchName, hfirst, hhead ';' rfl, hhead '#' rfl]
  rw [execLoop_eq (Nat.lt_succ_self _)]
  simp only [turnNames, htoken, if_neg hcomment, hsplit, hname, furtherNames, behindOf,
    reduceCtorEq, if_false, Option.toList_some, List.singleton_append]

theorem skipTurns_snd (fuel : Nat) (tempLine line : List Char) (lineLen : Nat) :
    (skipTurns fuel tempLine line lineLen).2 = skipCmds fuel line lineLen := by
  induction fuel generalizing tempLine line lineLen with
  | zero => rfl
  | succ fuel ih =>
    unfold skipTurns skipCmds
    cases skipCmdAt line lineLen with
    | none => rfl
    | some cmd => exact ih _ _ _

/-- **The turns up to the word the filter reads** dispatch allowed commands only. -/
theorem execLoop_skipTurns (fuel : Nat) (lineLen : Nat) (hnl : '\n' ∉ line)
    (htemp : TurnRuns tempLine ∨ tempLine = line) :
    ∃ formats, (∀ name ∈ formats, RestAllowed name) ∧
      Ws.execLoop (line.length + 1) tempLine line = formats ++
        (turnNames (skipTurns fuel tempLine line lineLen).1 (skipTurns fuel tempLine line lineLen).2 ++
          furtherNames (skipTurns fuel tempLine line lineLen).1
            (skipTurns fuel tempLine line lineLen).2) := by
  induction fuel generalizing tempLine line lineLen with
  | zero => exact ⟨[], by simp, execLoop_eq (Nat.lt_succ_self _)⟩
  | succ fuel ih =>
    unfold skipTurns
    cases hskipped : skipCmdAt line lineLen with
    | none => exact ⟨[], by simp, execLoop_eq (Nat.lt_succ_self _)⟩
    | some cmd =>
      obtain ⟨format, mode, rest, hskip, hrest, hbefore⟩ := exists_skipped hskipped
      have hruns : TurnRuns tempLine := by
        rcases htemp with htemp | rfl
        · exact htemp
        · exact hskip.startsWith.turnRuns hskip.isName
      have hnl' : '\n' ∉ rest := fun hmem => hnl (by rw [hskip.line_eq]; simp [hmem])
      have hruns' : TurnRuns (format ++ ' ' :: mode) :=
        StartsWith.turnRuns hskip.isName ⟨_, rfl, by simp [isShellSep]⟩
      simp only [hrest, hbefore]
      obtain ⟨formats, hall, heq⟩ := ih (lineLen - cmd.length) hnl' (.inl hruns')
      refine ⟨format :: formats, ?_, ?_⟩
      · intro name hname
        rcases List.mem_cons.mp hname with rfl | hname
        · exact hskip.restAllowed
        · exact hall name hname
      · rw [hskip.execLoop hnl hruns, heq]
        rfl

/-! ## The word the filter reads -/

/-- **A word that passes the filter** is a whitelisted name, and the command starts with it. -/
theorem startsWith_cmdNameOf {restCmd : List Char} (hreads : ReadsWord restCmd)
    (hpass : notWhitelisted (cmdNameOf restCmd) = false) :
    IsName (cmdNameOf restCmd) ∧ RestAllowed (cmdNameOf restCmd) ∧
      StartsWith (cmdNameOf restCmd) restCmd := by
  obtain ⟨⟨c, hc, hspace⟩, hsep⟩ := hreads
  have hne : cmdNameOf restCmd ≠ [] := by
    obtain ⟨cs, rfl⟩ : ∃ cs, restCmd = c :: cs := List.head?_eq_some_iff.mp hc
    simp [cmdNameOf, hspace, esifNameLen]
  simp only [notWhitelisted, Bool.and_eq_false_iff, decide_eq_false_iff_not, not_not] at hpass
  rcases hpass with hnil | hsearch
  · exact absurd hnil hne
  split at hsearch
  · rename_i i hfound
    obtain ⟨allowed, hget, heq⟩ := binarySearch_found hfound
    have hmem : allowed ∈ restApiWhitelist := List.mem_of_getElem? hget
    have hname := (isName_of_mem_whitelist hmem).of_toLower_eq (stricmp_eq_iff.mp heq)
    refine ⟨hname, restAllowed_of_stricmp hmem heq, ?_⟩
    -- A whitelisted name is shorter than the buffer the word is cut to.
    have hlen : (cmdNameOf restCmd).length < esifNameLen - 1 := by
      have hshort : ∀ a ∈ restApiWhitelist, a.length < esifNameLen - 1 := by decide
      rw [length_eq_of_toLower_eq (stricmp_eq_iff.mp heq)]
      exact hshort allowed hmem
    have hword : cmdNameOf restCmd = restCmd.takeWhile (!isSpace ·) := by
      refine List.take_of_length_le ?_
      rw [cmdNameOf, List.length_take] at hlen
      omega
    rw [hword]
    exact ⟨_, List.takeWhile_append_dropWhile.symm, hsep⟩
  · cases hsearch

/-- The command that is looked at is the text itself, or the text starts with `format`. -/
theorem skipCmds_eq_or (fuel : Nat) (line : List Char) (lineLen : Nat) :
    skipCmds fuel line lineLen = line ∨ ∃ format mode rest, Skipped line format mode rest := by
  cases fuel with
  | zero => exact .inl rfl
  | succ fuel =>
    unfold skipCmds
    cases hskipped : skipCmdAt line lineLen with
    | none => exact .inl rfl
    | some cmd =>
      obtain ⟨format, mode, rest, hskip, -⟩ := exists_skipped hskipped
      exact .inr ⟨format, mode, rest, hskip⟩

/-- What the filter reads is what the shell dispatches in that turn. -/
theorem leadTurn_allowed {text : List Char} (hreads : ReadsWord (restCmdOf text))
    (hpass : notWhitelisted (cmdNameOf (restCmdOf text)) = false) :
    ∀ name ∈ turnNames (leadTurn text).1 (leadTurn text).2, RestAllowed name := by
  obtain ⟨hname, hallowed, hstarts⟩ := startsWith_cmdNameOf hreads hpass
  intro name hmem
  unfold leadTurn at hmem
  split at hmem
  · rcases skipCmds_eq_or (cString text).length (cString text) (text.length + 1) with heq | hskip
    · have hstarts' : StartsWith (cmdNameOf (restCmdOf text)) (cString text) := by
        rwa [restCmdOf, heq] at hstarts ⊢
      exact mem_turnNames hname hstarts' hmem ▸ hallowed
    · obtain ⟨format, mode, rest, hskip⟩ := hskip
      exact mem_turnNames hskip.isName hskip.startsWith hmem ▸ hskip.restAllowed
  · rw [skipTurns_snd] at hmem
    exact mem_turnNames hname hstarts hmem ▸ hallowed

/-- The commands of a text: those up to the word the filter reads, that word's, the others. -/
theorem execCommand_eq (text : List Char) :
    ∃ formats, (∀ name ∈ formats, RestAllowed name) ∧ execCommand (cString text) = formats ++
        (turnNames (leadTurn text).1 (leadTurn text).2 ++
          furtherNames (leadTurn text).1 (leadTurn text).2) := by
  unfold leadTurn execCommand
  split
  · exact ⟨[], by simp, execLoop_eq (Nat.lt_succ_self _)⟩
  · rename_i hnl
    exact execLoop_skipTurns _ _ hnl (.inr rfl)

/-- **What the shell dispatches for a request is allowed exactly if** the commands that the
filter does not read are. -/
theorem rest_filter_iff {srv : RestServer} (hlist : srv.enforcesWhitelist = true)
    {request shellCmd msgPrefix : List Char}
    (h : execRestCmd srv request = .shell shellCmd msgPrefix) :
    (∀ name ∈ execCommand shellCmd, RestAllowed name) ↔ OthersAllowed request := by
  obtain ⟨text, htext, rfl, hpass, -⟩ := execRestCmd_eq_shell h
  obtain ⟨formats, hformats, heq⟩ := execCommand_eq text
  unfold OthersAllowed
  rw [heq, htext]
  simp only [Option.mem_def, Option.some.injEq, forall_eq', List.mem_append]
  constructor
  · intro hall
    exact ⟨.inr fun name hname => hall name (.inr (.inl hname)),
      fun name hname => hall name (.inr (.inr hname))⟩
  · rintro ⟨hlead, hfurther⟩ name (hname | hname | hname)
    · exact hformats name hname
    · rcases hlead with hreads | hlead
      · exact leadTurn_allowed hreads (hpass hlist) name hname
      · exact hlead name hname
    · exact hfurther name hname

/-- A server that enforces the whitelist. -/
def sampleServer : RestServer where
  listeners := [0]
  shellEnabled := true
  isActive := true
  appName := some "ipf_ws".toList
  docRoot := dptfDocRoot
  readFile := fun _ => none

theorem rest_filter_iff_status :
    OthersAllowed "1:format xml && status".toList ∧
      ∀ name ∈ execCommand "format xml && status".toList, RestAllowed name := by
  have hothers : OthersAllowed "1:format xml && status".toList := by
    have htext : commandText "1:format xml && status".toList =
        some "format xml && status".toList := by decide
    rw [OthersAllowed, htext]
    intro text hmem
    obtain rfl := Option.some.inj hmem
    exact ⟨.inr (by decide +kernel), by decide +kernel⟩
  exact ⟨hothers, (rest_filter_iff (show sampleServer.enforcesWhitelist = true by decide)
    (show execRestCmd sampleServer "1:format xml && status".toList =
      .shell "format xml && status".toList "1:".toList by decide)).mpr hothers⟩

/-- **The filter can be bypassed**: it reads `about`, and the shell dispatches `exit` too. -/
theorem rest_filter_bypassed :
    ¬ ∀ (srv : RestServer) (request shellCmd msgPrefix : List Char),
      srv.enforcesWhitelist = true → execRestCmd srv request = .shell shellCmd msgPrefix →
        ∀ name ∈ execCommand shellCmd, RestAllowed name := by
  intro h
  have hexit := h sampleServer "1:about && exit".toList "about && exit".toList "1:".toList
    (by decide) (by decide) "exit".toList (by decide)
  exact absurd hexit (by decide)

end Ws

import Dptf.Common.CString

/-!
# The commands the shell takes from a text

`esif_shell_exec_command` cuts a text into commands and hands each to
`esif_shell_dispatch_cmd`, whose first token is the name of the command.
-/

namespace Ws

variable {line before behind tempLine word rest : List Char}

/-! ## Tokens -/

/-- A character of `ESIF_SHELL_STRTOK_SEP`. -/
def isShellSep (c : Char) : Bool := c = ' ' || c = '\t' || c = '\r' || c = '\n'

/-- A quote of either kind. -/
def isQuote (c : Char) : Bool := c = '"' || c = '\''

/-- The first token of `esif_shell_strtok`, which may be quoted. -/
def firstToken (line : List Char) : Option (List Char) :=
  match line.dropWhile isShellSep with
  | [] => none
  | c :: cs =>
    if isQuote c then some (cs.takeWhile (· ≠ c))
    else some ((c :: cs).takeWhile (!isShellSep ·))

/-- The command `esif_shell_dispatch_cmd` dispatches; none for a comment. -/
def dispatchName (line : List Char) : Option (List Char) :=
  (firstToken line).filter fun token => token.head? ≠ some ';' && token.head? ≠ some '#'

/-! ## Cutting a text into commands -/

/-- `multi_cmd_sep`. -/
def multiCmdSep : List Char := [' ', '&', '&', ' ']

/-- The scan for ` && `: what is before and behind it. -/
def scanSep : Option Char → List Char → Option (List Char × List Char)
  | _, [] => none
  | lastquote, c :: cs =>
    if lastquote = some c then (scanSep none cs).map (Prod.map (c :: ·) id)
    else if isQuote c then (scanSep (some c) cs).map (Prod.map (c :: ·) id)
    else if lastquote = none ∧ multiCmdSep <+: c :: cs then some ([], (c :: cs).drop 4)
    else (scanSep lastquote cs).map (Prod.map (c :: ·) id)

/-- The next command of a text, and what is behind the separator if there is one. -/
def splitCommand (line : List Char) : List Char × Option (List Char) :=
  if '\n' ∈ line then
    (line.takeWhile (· ≠ '\n'), some ((line.dropWhile (· ≠ '\n')).drop 1))
  else
    match scanSep none line with
    | some (before, behind) => (before, some behind)
    | none => (line, none)

/-- The command dispatched in a turn of the loop.  A comment in the line before skips it. -/
def turnNames (tempLine line : List Char) : List (List Char) :=
  match firstToken tempLine with
  | none => []
  | some token =>
    if token.head? = some '#' then [] else (dispatchName (splitCommand line).1).toList

/-- What is left for another turn.  A blank `temp_line` ends the loop. -/
def behindOf (tempLine line : List Char) : Option (List Char) :=
  if firstToken tempLine = none then none else (splitCommand line).2

/-- The loop of `esif_shell_exec_command`. -/
def execLoop : Nat → List Char → List Char → List (List Char)
  | 0, _, _ => []
  | fuel + 1, tempLine, line =>
    turnNames tempLine line ++
      match behindOf tempLine line with
      | some behind => execLoop fuel (splitCommand line).1 behind
      | none => []

/-- The names of the commands dispatched behind the first turn. -/
def furtherNames (tempLine line : List Char) : List (List Char) :=
  match behindOf tempLine line with
  | some behind => execLoop (behind.length + 1) (splitCommand line).1 behind
  | none => []

/-- `esif_shell_exec_command` for a REST request: the names of the commands it dispatches. -/
def execCommand (line : List Char) : List (List Char) :=
  execLoop (line.length + 1) line line

/-! ## The loop does not run out of fuel -/

theorem length_lt_of_scanSep {lastquote : Option Char}
    (h : scanSep lastquote line = some (before, behind)) : behind.length < line.length := by
  induction line generalizing lastquote before with
  | nil => simp [scanSep] at h
  | cons c cs ih =>
    have hcons : ∀ q, (scanSep q cs).map (Prod.map (c :: ·) id) = some (before, behind) →
        behind.length < (c :: cs).length := by
      intro q hq
      obtain ⟨⟨b, b'⟩, hb, heq⟩ := Option.map_eq_some_iff.mp hq
      obtain rfl : b' = behind := congrArg Prod.snd heq
      exact (ih hb).trans (Nat.lt_succ_self _)
    unfold scanSep at h
    split at h
    · exact hcons _ h
    · split at h
      · exact hcons _ h
      · split at h
        · obtain rfl : (c :: cs).drop 4 = behind := by simpa using congrArg (Option.map Prod.snd) h
          rw [List.length_drop, List.length_cons]
          omega
        · exact hcons _ h

theorem length_lt_of_splitCommand (h : (splitCommand line).2 = some behind) :
    behind.length < line.length := by
  unfold splitCommand at h
  split at h
  · rename_i hmem
    obtain rfl : (line.dropWhile (· ≠ '\n')).drop 1 = behind := by simpa using h
    have hlt := (List.dropWhile_suffix (l := line) (· ≠ '\n')).length_le
    have hpos : 0 < line.length := List.length_pos_of_mem hmem
    simp only [List.length_drop]
    omega
  · split at h
    · rename_i hscan
      cases h
      exact length_lt_of_scanSep hscan
    · cases h

theorem length_lt_of_behindOf (h : behindOf tempLine line = some behind) :
    behind.length < line.length := by
  unfold behindOf at h
  split at h
  · cases h
  · exact length_lt_of_splitCommand h

theorem execLoop_of_lt {fuel fuel' : Nat} (h : line.length < fuel) (h' : line.length < fuel') :
    execLoop fuel tempLine line = execLoop fuel' tempLine line := by
  induction fuel generalizing fuel' tempLine line with
  | zero => omega
  | succ fuel ih =>
    cases fuel' with
    | zero => omega
    | succ fuel' =>
      unfold execLoop
      cases hbehind : behindOf tempLine line with
      | none => rfl
      | some behind =>
        have hlt := length_lt_of_behindOf hbehind
        exact congrArg _ (ih (by omega) (by omega))

/-- **A turn of the loop**, whatever fuel is left. -/
theorem execLoop_eq {fuel : Nat} (h : line.length < fuel) :
    execLoop fuel tempLine line = turnNames tempLine line ++ furtherNames tempLine line := by
  cases fuel with
  | zero => omega
  | succ fuel =>
    unfold execLoop furtherNames
    cases hbehind : behindOf tempLine line with
    | none => rfl
    | some behind =>
      have hlt := length_lt_of_behindOf hbehind
      exact congrArg _ (execLoop_of_lt (by omega) (Nat.lt_succ_self _))

/-! ## Words -/

/-- A word at the start of a line is its first token. -/
theorem firstToken_of_word (hne : word ≠ []) (hsep : ∀ c ∈ word, isShellSep c = false)
    (hquote : ∀ c ∈ word, isQuote c = false) (hrest : ∀ c ∈ rest.head?, isShellSep c = true) :
    firstToken (word ++ rest) = some word := by
  cases word with
  | nil => exact absurd rfl hne
  | cons c cs =>
    have hc : isShellSep c = false := hsep c (by simp)
    have hdrop : (c :: cs ++ rest).dropWhile isShellSep = c :: (cs ++ rest) := by
      simp [hc]
    have hword : (c :: cs ++ rest).takeWhile (!isShellSep ·) = c :: cs := by
      rw [List.takeWhile_append_of_pos (by simpa using hsep)]
      cases rest with
      | nil => simp
      | cons d ds =>
        have hd : isShellSep d = true := hrest d (by simp)
        simp [hd]
    simp only [firstToken, hdrop, hquote c (by simp), Bool.false_eq_true, if_false]
    exact congrArg some hword

/-- What is cut off in front starts as the line does. -/
theorem head_of_scanSep {lastquote : Option Char} {c : Char}
    (h : scanSep lastquote line = some (before, behind)) (hc : c ∈ before.head?) :
    c ∈ line.head? := by
  have hcons : ∀ q d ds, (scanSep q ds).map (Prod.map (d :: ·) id) = some (before, behind) →
      c ∈ (d :: ds).head? := by
    intro q d ds hq
    obtain ⟨⟨b, b'⟩, -, heq⟩ := Option.map_eq_some_iff.mp hq
    obtain rfl : d :: b = before := congrArg Prod.fst heq
    exact hc
  cases line with
  | nil => simp [scanSep] at h
  | cons d ds =>
    unfold scanSep at h
    split at h
    · exact hcons _ d ds h
    · split at h
      · exact hcons _ d ds h
      · split at h
        · obtain rfl : [] = before := by simpa using congrArg (Option.map Prod.fst) h
          simp at hc
        · exact hcons _ d ds h

/-- The scan goes over a word without blanks and quotes. -/
theorem scanSep_word (hsep : ∀ c ∈ word, c ≠ ' ') (hquote : ∀ c ∈ word, isQuote c = false) :
    scanSep none (word ++ rest) = (scanSep none rest).map (Prod.map (word ++ ·) id) := by
  induction word with
  | nil => cases h : scanSep none rest <;> simp [h, Prod.map]
  | cons c cs ih =>
    have hne : ¬ multiCmdSep <+: c :: (cs ++ rest) := by
      intro hpre
      exact hsep c (by simp) (List.cons_prefix_cons.mp hpre).1.symm
    rw [List.cons_append, scanSep, if_neg (by simp), if_neg (by simp [hquote c (by simp)]),
      if_neg (by simp [hne]), ih (fun d hd => hsep d (by simp [hd]))
        (fun d hd => hquote d (by simp [hd])), Option.map_map]
    rfl

end Ws

import Dptf.EsifLib.IStringRun
import Dptf.Lib.Occurrences

/-!
# Search and replacement in place

`IString_ReplaceIString` counts the occurrences, makes the string as long as it will be, moves
its text to the end where it grows, and copies it from there to the front piece by piece.  The
pieces are copied with `memcpy`, also where they overlap the place they go to.

* `replaceIString_iff` — **the text is replaced just if no piece overlaps its place**.
-/

open Lib

namespace IString

variable {what m text rest : List UInt8} {ignoreCase : Bool} {self : IString}

/-! ## The functions -/

/-- The C string in a buffer from a place on. -/
def cText (m : List UInt8) (pos : Nat) : Option (List UInt8) :=
  if 0 ∈ m.drop pos then some ((m.drop pos).takeWhile (· ≠ 0)) else none

/-- What `strstr` and `strfind` look for: a text that starts with a string. -/
def startsWith (what : List UInt8) (ignoreCase : Bool) (text : List UInt8) : Bool :=
  if ignoreCase then
    let len := min what.length 0x7FFFFFFF
    (text.take len).map tolower = (what.take len).map tolower
  else what.isPrefixOf text

/-- `strfind`: how far behind the place it is found. -/
def strfind (m : List UInt8) (pos : Nat) (what : List UInt8) (ignoreCase : Bool) :
    Option (Option Nat) :=
  (cText m pos).map (firstOccurrence (startsWith what ignoreCase))

/-- The loop that counts.  It goes on behind each occurrence. -/
def countLoop (m what : List UInt8) (ignoreCase : Bool) (whatLen : Nat) :
    Nat → Nat → Option UInt32
  | 0, _ => none
  | fuel + 1, find =>
    match strfind m find what ignoreCase with
    | none => none
    | some none => some 0
    | some (some k) => (countLoop m what ignoreCase whatLen fuel (find + k + whatLen)).map (· + 1)

/-- Bytes are copied to the front where they are not there already. -/
def copyDown (m : List UInt8) (dst src n : Nat) : Option (List UInt8) :=
  if dst < src then memcpyWithin m dst src n else some m

/-- The loop that copies: the buffer, and where `from` and `to` are behind it. -/
def copyLoop (what : List UInt8) (ignoreCase : Bool) (whatLen : Nat) (new : IString) :
    Nat → List UInt8 → Nat → Nat → Option (List UInt8 × Nat × Nat)
  | 0, _, _, _ => none
  | fuel + 1, m, src, dst =>
    match strfind m src what ignoreCase with
    | none => none
    | some none => some (m, src, dst)
    | some (some k) => do
      let m ← copyDown m dst src k
      if 0 < new.dataLen then
        let buf ← new.bufPtr
        let bytes ← readAt buf 0 (new.dataLen - 1).toNat
        let m ← poke m (dst + k) bytes
        copyLoop what ignoreCase whatLen new fuel m (src + k + whatLen) (dst + k + bytes.length)
      else copyLoop what ignoreCase whatLen new fuel m (src + k + whatLen) (dst + k)

/-- The pieces are copied, and what is behind the last one. -/
def copyAll (what : List UInt8) (ignoreCase : Bool) (whatLen : Nat) (new : IString) (fuel : Nat)
    (m : List UInt8) (src dst newsize : Nat) : Option (List UInt8) := do
  let (m, src, dst) ← copyLoop what ignoreCase whatLen new fuel m src dst
  copyDown m dst src (newsize - dst)

/-- The size of the string with each occurrence replaced. -/
def newSize (self what new : IString) (count : UInt32) : UInt32 :=
  self.dataLen + count * (max new.dataLen 1 - what.dataLen)

/-- The text that grows is moved to the end. -/
def moveUp (m : List UInt8) (oldsize newsize : Nat) : Option (List UInt8) :=
  if oldsize < newsize then memmove m (newsize - oldsize) 0 oldsize else some m

/-- What is left of the text that shrinks is cleared. -/
def clearRest (m : List UInt8) (oldsize newsize : Nat) : Option (List UInt8) :=
  if newsize < oldsize then poke m newsize (List.replicate (oldsize - newsize) 0) else some m

/-- The text in a buffer that is large enough is replaced. -/
def replaceIn (m : List UInt8) (oldsize newsize : Nat) (what : List UInt8) (ignoreCase : Bool)
    (whatLen : Nat) (new : IString) : Option (List UInt8) := do
  let m ← moveUp m oldsize newsize
  let m ← copyAll what ignoreCase whatLen new oldsize m (newsize - oldsize) 0 newsize
  clearRest m oldsize newsize

/-- `IString_ReplaceIString`, and whether it gives a buffer. -/
def replaceIString (self what new : IString) (ignoreCase : Bool) : Option (Bool × IString) :=
  if self.dataLen ≤ 1 ∨ what.dataLen ≤ 1 then some (self.bufPtr.isSome, self)
  else do
    let m ← self.bufPtr
    let whatText ← what.bufPtr.bind (cText · 0)
    let whatLen := (what.dataLen - 1).toNat
    let count ← countLoop m whatText ignoreCase whatLen self.dataLen.toNat 0
    let newsize := newSize self what new count
    match self.autogrow newsize with
    | (false, grown) => return (false, grown)
    | (true, grown) =>
      let m ← grown.bufPtr
      let m ← replaceIn m self.dataLen.toNat newsize.toNat whatText ignoreCase whatLen new
      return (true, ⟨some m, grown.bufLen, newsize⟩)

/-! ## What they are for -/

/-- An occurrence of a string at the front of a text, its case ignored or not. -/
def occursAt (what : List UInt8) (ignoreCase : Bool) (text : List UInt8) : Bool :=
  if ignoreCase then (text.take what.length).map tolower = what.map tolower
  else what.isPrefixOf text

/-- A text with each occurrence replaced, from the left. -/
def replaced (what new : List UInt8) (ignoreCase : Bool) (text : List UInt8) : List UInt8 :=
  replaceAll (occursAt what ignoreCase) what.length new text

/-- What is before, between and behind the occurrences. -/
def between (what : List UInt8) (ignoreCase : Bool) (text : List UInt8) : List (List UInt8) :=
  pieces (occursAt what ignoreCase) what.length text

/-- Where the first 0x7FFFFFFF characters of a string are found in a text, all of it is. -/
def WholeFound (what : List UInt8) (ignoreCase : Bool) (text : List UInt8) : Prop :=
  ∀ rest, rest <:+ text → startsWith what ignoreCase rest = occursAt what ignoreCase rest

theorem wholeFound_of_length_le (h : what.length ≤ 0x7FFFFFFF) (ignoreCase : Bool)
    (text : List UInt8) : WholeFound what ignoreCase text := by
  intro rest _
  simp only [startsWith, occursAt, Nat.min_eq_left h, List.take_length]

/-- An occurrence is as long as what is searched for. -/
theorem length_le_of_occursAt (what : List UInt8) (ignoreCase : Bool) (text : List UInt8)
    (h : occursAt what ignoreCase text = true) : what.length ≤ text.length := by
  cases ignoreCase with
  | false => exact (List.isPrefixOf_iff_prefix.mp h).length_le
  | true =>
    simp only [occursAt, if_true, decide_eq_true_eq] at h
    have hlens := congrArg List.length h
    simp only [List.length_map, List.length_take] at hlens
    omega

/-! ## Searching -/

/-- Bytes are copied to the front just if they are there or do not reach over their place. -/
theorem copyDown_eq {m bs : List UInt8} {dst src : Nat} (h : HasAt m src bs) (hle : dst ≤ src) :
    copyDown m dst src bs.length =
      if src - dst = 0 ∨ bs.length ≤ src - dst then some (overwrite m dst bs) else none := by
  by_cases hlt : dst < src
  · rw [copyDown, if_pos hlt, h.memcpyWithin_eq hlt]
    exact if_congr (by omega) rfl rfl
  · obtain rfl : dst = src := Nat.le_antisymm hle (Nat.le_of_not_lt hlt)
    rw [copyDown, if_neg hlt, if_pos (Or.inl (Nat.sub_self _)), h.overwrite_eq]

theorem cText_eq {pos : Nat} (h : m.drop pos = text ++ 0 :: rest) (hnul : 0 ∉ text) :
    cText m pos = some text := by
  have hmem : (0 : UInt8) ∈ text ++ 0 :: rest := List.mem_append_right _ List.mem_cons_self
  have htext : ∀ b ∈ text, decide (b ≠ 0) = true :=
    fun b hb => decide_eq_true fun hzero => hnul (hzero ▸ hb)
  rw [cText, h, if_pos hmem, List.takeWhile_append_of_pos htext,
    List.takeWhile_cons_of_neg (by simp), List.append_nil]

/-- `strfind` in a buffer that holds a text. -/
theorem strfind_eq {pos : Nat} (h : HasAt m pos (text ++ [0])) (hnul : 0 ∉ text)
    (hwhole : WholeFound what ignoreCase text) :
    strfind m pos what ignoreCase = some (firstOccurrence (occursAt what ignoreCase) text) := by
  obtain ⟨rest, hdrop⟩ := h.drop_eq
  rw [List.append_assoc, List.singleton_append] at hdrop
  rw [strfind, cText_eq hdrop hnul, Option.map_some, firstOccurrence_congr hwhole]

/-- A buffer holds the text behind an occurrence. -/
theorem hasAt_behind {pos k : Nat} (h : HasAt m pos (text ++ [0]))
    (hfirst : firstOccurrence (occursAt what ignoreCase) text = some k) :
    k + what.length ≤ text.length ∧
      HasAt m (pos + k + what.length) (text.drop (k + what.length) ++ [0]) := by
  obtain ⟨hlt, hoccurs⟩ := firstOccurrence_eq_some hfirst
  have hle := length_le_of_occursAt what ignoreCase _ hoccurs
  rw [List.length_drop] at hle
  refine ⟨by omega, ?_⟩
  rw [← List.take_append_drop (k + what.length) text, List.append_assoc] at h
  have hright := h.right
  rwa [List.length_take, Nat.min_eq_left (by omega), ← Nat.add_assoc] at hright

section Loops

variable {what : List UInt8} {ignoreCase : Bool}

/-- The occurrences are counted. -/
theorem countLoop_eq (hwhat : what ≠ []) (text : List UInt8) :
    ∀ {m : List UInt8} {pos fuel : Nat}, HasAt m pos (text ++ [0]) → 0 ∉ text →
      WholeFound what ignoreCase text → (between what ignoreCase text).length ≤ fuel →
      countLoop m what ignoreCase what.length fuel pos =
        some (UInt32.ofNat ((between what ignoreCase text).length - 1)) := by
  have hpos : 0 < what.length := List.length_pos_iff.mpr hwhat
  induction text using occurrences_induction (occursAt what ignoreCase) hpos with
  | none text hfirst =>
    intro m pos fuel hm hnul hwhole hfuel
    rw [between, (replaceAll_of_none [] hfirst).2] at hfuel ⊢
    obtain ⟨fuel, rfl⟩ := Nat.exists_eq_add_of_le' hfuel
    rw [List.length_singleton, countLoop, strfind_eq hm hnul hwhole, hfirst]
    rfl
  | some text k hfirst ih =>
    intro m pos fuel hm hnul hwhole hfuel
    have hbehind := (hasAt_behind hm hfirst).2
    rw [between, (replaceAll_of_some hpos [] hfirst).2, List.length_cons] at hfuel ⊢
    obtain ⟨fuel, rfl⟩ := Nat.exists_eq_add_of_le' (Nat.le_of_add_left_le hfuel)
    have hrest := ih hbehind (fun hmem => hnul (List.mem_of_mem_drop hmem))
      (fun rest hsuffix => hwhole rest (hsuffix.trans (List.drop_suffix _ _)))
      (Nat.le_of_add_le_add_right hfuel)
    have hne := pieces_ne_nil (occursAt what ignoreCase) hpos (text.drop (k + what.length))
    have hone : 1 ≤ (pieces (occursAt what ignoreCase) what.length
        (text.drop (k + what.length))).length := List.length_pos_iff.mpr hne
    rw [countLoop, strfind_eq hm hnul hwhole, hfirst]
    simp only [hrest, between, Option.map_some, Nat.add_sub_cancel]
    rw [← UInt32.ofNat_one, ← UInt32.ofNat_add, Nat.sub_add_cancel hone]

/-- What one step of the loop does where its piece can be copied. -/
theorem copyLoop_step (new : Source) {m m' : List UInt8} {src dst k fuel : Nat}
    (hfind : strfind m src what ignoreCase = some (some k)) (hcopy : copyDown m dst src k = some m')
    (hroom : dst + k + new.text.bytes.length ≤ m'.length) :
    copyLoop what ignoreCase what.length new.str (fuel + 1) m src dst =
      copyLoop what ignoreCase what.length new.str fuel
        (overwrite m' (dst + k) new.text.bytes) (src + k + what.length)
        (dst + k + new.text.bytes.length) := by
  rw [copyLoop, hfind]
  simp only [hcopy, Option.bind_eq_bind, Option.bind_some]
  rcases new.held with ⟨-, hdata, htext⟩ | ⟨⟨rest, hbuf⟩, hdata⟩
  · rw [hdata, if_neg (UInt32.lt_irrefl 0), htext, overwrite_nil]
    rfl
  · have hpos : 0 < new.str.dataLen := UInt32.lt_iff_toNat_lt.mpr (by simp [hdata])
    have hone : (1 : UInt32) ≤ new.str.dataLen := UInt32.le_iff_toNat_le.mpr (by simp [hdata])
    have hcount : (new.str.dataLen - 1).toNat = new.text.bytes.length := by
      rw [UInt32.toNat_sub_of_le _ _ hone, hdata, UInt32.toNat_one, Nat.add_sub_cancel]
    have hread : readAt (new.text.bytes ++ 0 :: rest) 0 new.text.bytes.length =
        some new.text.bytes := (hasAt_append [] new.text.bytes (0 :: rest)).readAt
    rw [if_pos hpos, hbuf, hcount]
    simp only [Option.bind_some, hread, poke_eq hroom]

/-- **The pieces from a place on are moved, and then what is behind the last one**, just if none
of them overlaps its place. -/
theorem copyAll_eq (hwhat : what ≠ []) (new : Source) (text : List UInt8) :
    ∀ {m : List UInt8} {src dst newsize fuel : Nat}, HasAt m src (text ++ [0]) → 0 ∉ text →
      WholeFound what ignoreCase text → (between what ignoreCase text).length ≤ fuel →
      dst ≤ src →
      (new.text.bytes.length ≤ what.length ∨ what.length ≤ new.text.bytes.length ∧
        src + text.length = dst + (replaced what new.text.bytes ignoreCase text).length) →
      newsize = dst + (replaced what new.text.bytes ignoreCase text).length + 1 →
      copyAll what ignoreCase what.length new.str fuel m src dst newsize =
      if Apart what.length new.text.bytes.length (src - dst) (between what ignoreCase text)
      then some (overwrite m dst (replaced what new.text.bytes ignoreCase text ++ [0]))
      else none := by
  have hpos : 0 < what.length := List.length_pos_iff.mpr hwhat
  have hlen := length_le_of_occursAt what ignoreCase
  induction text using occurrences_induction (occursAt what ignoreCase) hpos with
  | none text hfirst =>
    intro m src dst newsize fuel hm hnul hwhole hfuel hle hbalance hsize
    obtain ⟨hsame, hpieces⟩ := replaceAll_of_none (n := what.length) new.text.bytes hfirst
    rw [replaced, hsame] at hsize ⊢
    rw [between, hpieces] at hfuel ⊢
    rw [List.length_singleton] at hfuel
    obtain ⟨fuel, rfl⟩ := Nat.exists_eq_add_of_le' hfuel
    have hrest : newsize - dst = (text ++ [0]).length := by
      rw [List.length_append, List.length_singleton]
      omega
    rw [copyAll, copyLoop, strfind_eq hm hnul hwhole, hfirst]
    have hcopy := copyDown_eq hm hle
    simp only [List.length_append, List.length_singleton] at hcopy hrest
    simp only [Option.bind_eq_bind, Option.bind_some, hrest, hcopy]
    exact if_congr Iff.rfl rfl rfl
  | some text k hfirst ih =>
    intro m src dst newsize fuel hm hnul hwhole hfuel hle hbalance hsize
    obtain ⟨hin, hbehind⟩ := hasAt_behind hm hfirst
    obtain ⟨hreplaced, hpieces⟩ := replaceAll_of_some hpos new.text.bytes hfirst
    rw [between, hpieces, List.length_cons] at hfuel
    obtain ⟨fuel, rfl⟩ := Nat.exists_eq_add_of_le' (Nat.le_of_add_left_le hfuel)
    have hne := pieces_ne_nil (occursAt what ignoreCase) hpos (text.drop (k + what.length))
    rw [replaced, hreplaced] at hbalance hsize ⊢
    have hk : (text.take k).length = k := by
      rw [List.length_take]
      omega
    have hapart := apart_cons what.length new.text.bytes.length (src - dst) (text.take k) hne
    rw [hk] at hapart
    rw [between, hpieces]
    have hfind := strfind_eq hm hnul hwhole
    rw [hfirst] at hfind
    have hpiece : HasAt m src (text.take k) := by
      rw [← List.take_append_drop k text, List.append_assoc] at hm
      exact hm.left
    have hcopy := copyDown_eq hpiece hle
    rw [hk] at hcopy
    by_cases hfits : src - dst = 0 ∨ k ≤ src - dst
    · rw [if_pos hfits] at hcopy
      -- the gap that is left, and that the rest is still behind it
      have hsrc : dst + k + new.text.bytes.length ≤ src + k + what.length := by
        rcases hbalance with hshort | ⟨hlong, hbalance⟩
        · omega
        · have hmore := length_le_replaceAll hpos hlen hlong (text.drop (k + what.length))
          simp only [List.length_append, hk] at hbalance
          rw [List.length_drop] at hmore
          omega
      have hend := hbehind.length_le
      have hroom : dst + k + new.text.bytes.length ≤ (overwrite m dst (text.take k)).length := by
        rw [length_overwrite (by rw [hk]; omega)]
        omega
      have hwrite : overwrite (overwrite m dst (text.take k)) (dst + k) new.text.bytes =
          overwrite m dst (text.take k ++ new.text.bytes) := by
        have hfront : dst + (text.take k).length ≤ m.length := by omega
        have h := overwrite_overwrite hfront new.text.bytes
        rwa [hk] at h
      have hkept : HasAt (overwrite m dst (text.take k ++ new.text.bytes))
          (src + k + what.length) (text.drop (k + what.length) ++ [0]) := by
        refine hbehind.overwrite_before ?_
        rw [List.length_append, hk]
        omega
      have hgap : src - dst + what.length - new.text.bytes.length =
          src + k + what.length - (dst + k + new.text.bytes.length) := by omega
      rw [copyAll, copyLoop_step new hfind hcopy hroom, hwrite, ← copyAll, ih hkept
        (fun hmem => hnul (List.mem_of_mem_drop hmem))
        (fun rest hsuffix => hwhole rest (hsuffix.trans (List.drop_suffix _ _)))
        (Nat.le_of_add_le_add_right hfuel) hsrc ?_ ?_]
      · refine if_congr ?_ (congrArg some ?_) rfl
        · rw [hapart, and_iff_right hfits, hgap, between]
        · have hfront : dst + (text.take k ++ new.text.bytes).length ≤ m.length := by
            rw [List.length_append]
            omega
          have h := overwrite_overwrite hfront
            (replaced what new.text.bytes ignoreCase (text.drop (k + what.length)) ++ [0])
          rw [List.length_append, hk, ← Nat.add_assoc] at h
          rw [h, replaced, List.append_assoc (text.take k ++ new.text.bytes)]
      · refine hbalance.imp_right fun ⟨hlong, hbalance⟩ => ⟨hlong, ?_⟩
        simp only [List.length_append, hk] at hbalance
        rw [replaced, List.length_drop]
        omega
      · simp only [List.length_append, hk] at hsize
        rw [replaced]
        omega
    · rw [if_neg hfits] at hcopy
      rw [copyAll, copyLoop, hfind, if_neg fun h => hfits (hapart.mp h).1]
      simp only [hcopy, Option.bind_eq_bind, Option.bind_none]

/-- How far the text is moved to the end first. -/
def movedBy (what new : List UInt8) (ignoreCase : Bool) (text : List UInt8) : Nat :=
  ((between what ignoreCase text).length - 1) * (new.length - what.length)

theorem movedBy_eq (hwhat : what ≠ []) (new text : List UInt8) :
    movedBy what new ignoreCase text =
      (replaced what new ignoreCase text).length - text.length := by
  have hpos : 0 < what.length := List.length_pos_iff.mpr hwhat
  have hlen := length_le_of_occursAt what ignoreCase
  have hcount := length_replaceAll new hpos hlen text
  rw [movedBy, between, replaced, Nat.mul_sub]
  omega

/-- The text is moved to the end of what it grows to. -/
theorem moveUp_eq (text rest : List UInt8) {newsize : Nat}
    (hroom : newsize ≤ text.length + 1 + rest.length) :
    ∃ m, moveUp (text ++ 0 :: rest) (text.length + 1) newsize = some m ∧
      HasAt m (newsize - (text.length + 1)) (text ++ [0]) ∧
      m.length = text.length + 1 + rest.length := by
  have hfront : HasAt (text ++ 0 :: rest) 0 (text ++ [0]) := ⟨[], rest, by simp, rfl⟩
  have hlength : (text ++ 0 :: rest).length = text.length + 1 + rest.length := by
    simp only [List.length_append, List.length_cons]
    omega
  by_cases hgrow : text.length + 1 < newsize
  · have hpeek := hfront.peekAt
    rw [List.length_append, List.length_singleton] at hpeek
    refine ⟨_, by rw [moveUp, if_pos hgrow, memmove_eq (by omega) (by omega), hpeek],
      hasAt_overwrite (by omega), ?_⟩
    rw [length_overwrite, hlength]
    rw [hlength, List.length_append, List.length_singleton]
    omega
  · refine ⟨_, if_neg hgrow, ?_, hlength⟩
    rwa [Nat.sub_eq_zero_of_le (Nat.le_of_not_lt hgrow)]

/-- Behind the new text the old one is cleared. -/
theorem clearRest_eq {m : List UInt8} (text : List UInt8) {oldsize : Nat} (hold : oldsize ≤ m.length)
    (hnew : text.length + 1 ≤ m.length) :
    ∃ rest, text.length + 1 + rest.length = m.length ∧
      clearRest (overwrite m 0 (text ++ [0])) oldsize (text.length + 1) =
        some (text ++ 0 :: rest) := by
  have hlen : (text ++ [0]).length = text.length + 1 := by
    rw [List.length_append, List.length_singleton]
  by_cases hshrink : text.length + 1 < oldsize
  · have hfront : 0 + (text ++ [0]).length ≤ m.length := by omega
    have hwrite := overwrite_overwrite hfront (List.replicate (oldsize - (text.length + 1)) 0)
    rw [Nat.zero_add, hlen] at hwrite
    have hlength : (overwrite m 0 (text ++ [0])).length = m.length := length_overwrite (by omega)
    have hend : text.length + (oldsize - (text.length + 1) + 1) = oldsize := by omega
    refine ⟨List.replicate (oldsize - (text.length + 1)) 0 ++ m.drop oldsize, ?_, ?_⟩
    · simp only [List.length_append, List.length_replicate, List.length_drop]
      omega
    · rw [clearRest, if_pos hshrink, poke_eq, hwrite]
      · simp [overwrite, hend]
      · rw [hlength, List.length_replicate]
        omega
  · refine ⟨m.drop (text.length + 1), ?_, ?_⟩
    · rw [List.length_drop]
      omega
    · rw [clearRest, if_neg hshrink]
      simp [overwrite]

/-- In a buffer that is large enough the text is replaced just if its pieces can be moved. -/
theorem replaceIn_eq (hwhat : what ≠ []) (new : Source) {text rest : List UInt8} (hnul : 0 ∉ text)
    (hwhole : WholeFound what ignoreCase text)
    (hroom : (replaced what new.text.bytes ignoreCase text).length ≤ text.length + rest.length) :
    ∃ rest', (replaced what new.text.bytes ignoreCase text).length + rest'.length =
        text.length + rest.length ∧
      replaceIn (text ++ 0 :: rest) (text.length + 1)
          ((replaced what new.text.bytes ignoreCase text).length + 1) what ignoreCase what.length
          new.str =
        if Apart what.length new.text.bytes.length
            (movedBy what new.text.bytes ignoreCase text) (between what ignoreCase text)
        then some (replaced what new.text.bytes ignoreCase text ++ 0 :: rest') else none := by
  have hpos : 0 < what.length := List.length_pos_iff.mpr hwhat
  have hlen := length_le_of_occursAt what ignoreCase
  have hfuel := length_pieces_le hpos hlen text
  have hlong (h : what.length ≤ new.text.bytes.length) :
      text.length ≤ (replaced what new.text.bytes ignoreCase text).length :=
    length_le_replaceAll hpos hlen h text
  rw [movedBy_eq hwhat]
  generalize hnew : replaced what new.text.bytes ignoreCase text = text' at *
  obtain ⟨m, hmove, hm, hsize⟩ := moveUp_eq text rest
    (show text'.length + 1 ≤ text.length + 1 + rest.length by omega)
  obtain ⟨rest', hrest, hclear⟩ := clearRest_eq text'
    (show text.length + 1 ≤ m.length by omega) (by omega)
  refine ⟨rest', by omega, ?_⟩
  have hnewsize : text'.length + 1 =
      0 + (replaced what new.text.bytes ignoreCase text).length + 1 := by rw [hnew, Nat.zero_add]
  have hcopy := copyAll_eq hwhat new text hm hnul hwhole hfuel (Nat.zero_le _) ?_ hnewsize
  · rw [Nat.sub_zero, Nat.add_sub_add_right, hnew] at hcopy
    rw [replaceIn, hmove, Option.bind_eq_bind, Option.bind_some, Nat.add_sub_add_right, hcopy]
    split
    · exact hclear
    · rfl
  · rcases Nat.le_total new.text.bytes.length what.length with h | h
    · exact Or.inl h
    · have hle := hlong h
      rw [hnew]
      exact Or.inr ⟨h, by omega⟩

end Loops

/-! ## The whole function -/

theorem Source.dataLen_of_ne_nil (what : Source) (h : what.text.bytes ≠ []) :
    what.str.dataLen.toNat = what.text.bytes.length + 1 := by
  rcases what.held with ⟨-, -, htext⟩ | ⟨-, hdata⟩
  · exact absurd htext h
  · exact hdata

/-- What is searched for has a buffer. -/
theorem Source.cText_of_ne_nil (what : Source) (h : what.text.bytes ≠ []) :
    what.str.bufPtr.bind (cText · 0) = some what.text.bytes := by
  rcases what.held with ⟨-, -, htext⟩ | ⟨⟨rest, hbuf⟩, -⟩
  · exact absurd htext h
  · rw [hbuf, Option.bind_some, cText_eq List.drop_zero what.text.nul_free]

theorem Source.max_dataLen (new : Source) :
    max new.str.dataLen 1 = UInt32.ofNat (new.text.bytes.length + 1) := by
  rcases new.held with ⟨-, hdata, htext⟩ | ⟨-, hdata⟩
  · rw [hdata, htext]
    rfl
  · have hone : (1 : UInt32) ≤ new.str.dataLen := UInt32.le_iff_toNat_le.mpr (by simp [hdata])
    rw [← hdata, UInt32.ofNat_toNat]
    exact (ite_eq_right_iff.mpr fun hle => UInt32.le_antisymm hone hle :
      (if new.str.dataLen ≤ 1 then 1 else new.str.dataLen) = new.str.dataLen)

/-- The new size is the one of the text with each occurrence replaced. -/
theorem newSize_eq (hdata : self.dataLen.toNat = text.length + 1) (what new : Source)
    (ignoreCase : Bool) (hwhat : what.text.bytes ≠ [])
    (hsize : (replaced what.text.bytes new.text.bytes ignoreCase text).length + 1 < 2 ^ 32) :
    (newSize self what.str new.str
        (UInt32.ofNat ((between what.text.bytes ignoreCase text).length - 1))).toNat =
      (replaced what.text.bytes new.text.bytes ignoreCase text).length + 1 := by
  have hcount := length_replaceAll new.text.bytes (List.length_pos_iff.mpr hwhat)
    (length_le_of_occursAt what.text.bytes ignoreCase) text
  rw [← between, ← replaced] at hcount
  have hring := congrArg UInt32.ofNat hcount
  simp only [UInt32.ofNat_add, UInt32.ofNat_mul] at hring
  have hself := UInt32.ofNat_toNat (x := self.dataLen)
  have hsearched := UInt32.ofNat_toNat (x := what.str.dataLen)
  rw [hdata] at hself
  rw [what.dataLen_of_ne_nil hwhat] at hsearched
  have hnew : newSize self what.str new.str
      (UInt32.ofNat ((between what.text.bytes ignoreCase text).length - 1)) =
        UInt32.ofNat ((replaced what.text.bytes new.text.bytes ignoreCase text).length + 1) := by
    rw [newSize, ← hself, ← hsearched, new.max_dataLen]
    simp only [UInt32.ofNat_add]
    -- the equation of the lengths, modulo 2 ^ 32
    grind
  rw [hnew, UInt32.toNat_ofNat', Nat.mod_eq_of_lt hsize]

/-- What `IString_ReplaceIString` does once it has counted. -/
theorem replaceIString_eq (hbuf : self.bufPtr = some (text ++ 0 :: rest))
    (hdata : self.dataLen.toNat = text.length + 1) (hne : text ≠ []) (hnul : 0 ∉ text)
    (what new : Source) (hwhat : what.text.bytes ≠ [])
    (hwhole : WholeFound what.text.bytes ignoreCase text) :
    self.replaceIString what.str new.str ignoreCase =
      match self.autogrow (newSize self what.str new.str
          (UInt32.ofNat ((between what.text.bytes ignoreCase text).length - 1))) with
      | (false, grown) => some (false, grown)
      | (true, grown) => do
        let newsize := newSize self what.str new.str
          (UInt32.ofNat ((between what.text.bytes ignoreCase text).length - 1))
        let m ← grown.bufPtr
        let m ← replaceIn m (text.length + 1) newsize.toNat what.text.bytes ignoreCase
          what.text.bytes.length new.str
        return (true, ⟨some m, grown.bufLen, newsize⟩) := by
  have hpos : 0 < what.text.bytes.length := List.length_pos_iff.mpr hwhat
  have hwhatData := what.dataLen_of_ne_nil hwhat
  have hmany : ¬self.dataLen ≤ 1 := by
    have hlong := List.length_pos_iff.mpr hne
    rw [UInt32.le_iff_toNat_le, hdata, UInt32.toNat_one]
    omega
  have hwhatMany : ¬what.str.dataLen ≤ 1 := by
    rw [UInt32.le_iff_toNat_le, hwhatData, UInt32.toNat_one]
    omega
  have hwhatLen : (what.str.dataLen - 1).toNat = what.text.bytes.length := by
    rw [UInt32.toNat_sub_of_le _ _ (UInt32.le_of_lt (UInt32.not_le.mp hwhatMany)), hwhatData,
      UInt32.toNat_one, Nat.add_sub_cancel]
  have hm : HasAt (text ++ 0 :: rest) 0 (text ++ [0]) := ⟨[], rest, by simp, rfl⟩
  have hcount := countLoop_eq hwhat text hm hnul hwhole
    (length_pieces_le hpos (length_le_of_occursAt what.text.bytes ignoreCase) text)
  rw [IString.replaceIString, if_neg (not_or.mpr ⟨hmany, hwhatMany⟩), hbuf,
    what.cText_of_ne_nil hwhat]
  simp only [Option.bind_eq_bind, Option.bind_some, hwhatLen, hdata, hcount]
  rfl

/-- `IString_ReplaceIString` of a string that is not empty. -/
theorem Holds.replaceIString (h : Holds self text) (hne : text ≠ []) (hnul : 0 ∉ text)
    (what new : Source) (hwhat : what.text.bytes ≠ [])
    (hwhole : WholeFound what.text.bytes ignoreCase text)
    (hsize : (replaced what.text.bytes new.text.bytes ignoreCase text).length + 1 < 2 ^ 32) :
    ∃ self', Holds self' (replaced what.text.bytes new.text.bytes ignoreCase text) ∧
      self'.bufPtr.isSome = true ∧ self.bufPtr.isSome = true ∧
      self.replaceIString what.str new.str ignoreCase =
        if Apart what.text.bytes.length new.text.bytes.length
            (movedBy what.text.bytes new.text.bytes ignoreCase text)
            (between what.text.bytes ignoreCase text)
        then some (true, self') else none := by
  have hdata := h.dataLen_of_ne_nil hne
  have hnew := newSize_eq hdata what new ignoreCase hwhat hsize
  obtain ⟨rest, hbuf⟩ : ∃ rest, self.bufPtr = some (text ++ 0 :: rest) := by
    cases h with
    | neverFilled => exact absurd rfl hne
    | filled => exact ⟨_, rfl⟩
  obtain ⟨rest, bufLen, dataLen, hgrow, hlen, -, hroom⟩ :=
    h.autogrow (UInt32.lt_iff_toNat_lt.mpr (by rw [hnew]; exact Nat.succ_pos _))
  have hroom := UInt32.le_iff_toNat_le.mp hroom
  rw [hnew] at hroom
  obtain ⟨rest', hrest, hreplace⟩ := replaceIn_eq hwhat new hnul hwhole
    (show _ ≤ text.length + rest.length by omega)
  refine ⟨⟨some (replaced what.text.bytes new.text.bytes ignoreCase text ++ 0 :: rest'), bufLen, _⟩,
    .filled (by omega) hnew, rfl, by rw [hbuf]; rfl, ?_⟩
  rw [replaceIString_eq hbuf hdata hne hnul what new hwhat hwhole, hgrow]
  simp only [Option.bind_eq_bind, Option.bind_some, hnew, hreplace]
  split <;> rfl

/-- In a string without text nothing is replaced, and nothing is moved. -/
theorem apart_of_nil (what new : List UInt8) (ignoreCase : Bool) :
    replaced what new ignoreCase [] = [] ∧
      Apart what.length new.length (movedBy what new ignoreCase []) (between what ignoreCase []) :=
  ⟨rfl, Or.inl (Nat.zero_mul _)⟩

/-- **When the text is replaced.**  The string holds the text with each occurrence replaced, just
if no piece reaches over its place when it is moved. -/
theorem replaceIString_iff {self : IString} {text : CName} (h : Holds self text.bytes)
    (what new : Source) (ignoreCase : Bool) (hwhat : what.text.bytes ≠ [])
    (hwhole : WholeFound what.text.bytes ignoreCase text.bytes)
    (hsize : (replaced what.text.bytes new.text.bytes ignoreCase text.bytes).length + 1 < 2 ^ 32) :
    (∃ self', self.replaceIString what.str new.str ignoreCase = some (self.bufPtr.isSome, self') ∧
        Holds self' (replaced what.text.bytes new.text.bytes ignoreCase text.bytes) ∧
        self'.bufPtr.isSome = self.bufPtr.isSome) ↔
      Apart what.text.bytes.length new.text.bytes.length
        (movedBy what.text.bytes new.text.bytes ignoreCase text.bytes)
        (between what.text.bytes ignoreCase text.bytes) := by
  by_cases hne : text.bytes = []
  · obtain ⟨hsame, hapart⟩ := apart_of_nil what.text.bytes new.text.bytes ignoreCase
    rw [hne] at h ⊢
    refine iff_of_true ⟨self, ?_, hsame ▸ h, rfl⟩ hapart
    have hle : self.dataLen ≤ 1 := by
      cases h with
      | neverFilled => decide
      | filled hbuf hdata => exact UInt32.le_iff_toNat_le.mpr (Nat.le_of_eq hdata)
    rw [replaceIString, if_pos (Or.inl hle)]
  · obtain ⟨self', hholds, hsome, hself, hreplace⟩ :=
      h.replaceIString hne text.nul_free what new hwhat hwhole hsize
    rw [hreplace, hself]
    constructor
    · rintro ⟨_, hresult, -⟩
      by_contra hnot
      rw [if_neg hnot] at hresult
      cases hresult
    · intro hapart
      exact ⟨self', if_pos hapart, hholds, hsome⟩

/-- In "aXb" the "X" is replaced by "YY". -/
theorem replaceIString_grows :
    ∃ self', replaceIString ⟨some [97, 88, 98, 0], 4, 4⟩
        (istringStatic (some ⟨[88], by decide⟩)) (istringStatic (some ⟨[89, 89], by decide⟩)) false =
          some (true, self') ∧
      Holds self' [97, 89, 89, 98] ∧ self'.bufPtr.isSome = true :=
  (@replaceIString_iff ⟨some [97, 88, 98, 0], 4, 4⟩ ⟨[97, 88, 98], by decide⟩
    (@Holds.filled [97, 88, 98] [] 4 4 rfl rfl) (Source.ofString (some ⟨[88], by decide⟩) (by decide))
    (Source.ofString (some ⟨[89, 89], by decide⟩) (by decide)) false (by decide)
    (wholeFound_of_length_le (by decide) _ _) (by decide)).mpr (by decide)

/-- In "abcdX" it is not: "abcd" is moved by one byte, and so copied to bytes that overlap it. -/
theorem overlap_not_replaced :
    ¬∀ (self : IString) (text : CName) (what new : Source) (ignoreCase : Bool),
      Holds self text.bytes → what.text.bytes ≠ [] →
      WholeFound what.text.bytes ignoreCase text.bytes →
      (replaced what.text.bytes new.text.bytes ignoreCase text.bytes).length + 1 < 2 ^ 32 →
      ∃ self', self.replaceIString what.str new.str ignoreCase = some (self.bufPtr.isSome, self') ∧
        Holds self' (replaced what.text.bytes new.text.bytes ignoreCase text.bytes) ∧
        self'.bufPtr.isSome = self.bufPtr.isSome := by
  intro hall
  have hnone : replaceIString ⟨some [97, 98, 99, 100, 88, 0], 6, 6⟩
      (istringStatic (some ⟨[88], by decide⟩)) (istringStatic (some ⟨[89, 89], by decide⟩)) false =
        none := by decide +kernel
  obtain ⟨self', hreplace, -⟩ := hall ⟨some [97, 98, 99, 100, 88, 0], 6, 6⟩
    ⟨[97, 98, 99, 100, 88], by decide⟩ (Source.ofString (some ⟨[88], by decide⟩) (by decide))
    (Source.ofString (some ⟨[89, 89], by decide⟩) (by decide)) false
    (@Holds.filled [97, 98, 99, 100, 88] [] 6 6 rfl rfl) (by decide) (wholeFound_of_length_le (by decide) _ _)
    (by decide)
  cases hnone.symm.trans hreplace

end IString

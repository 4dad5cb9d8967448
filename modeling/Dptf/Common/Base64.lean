import Dptf.Common.Types
import Dptf.Lib.Layout
import Mathlib.Data.List.DropRight
import Mathlib.Tactic.IntervalCases

/-!
# Base64

`esif_base64_encode` writes four characters for each three bytes.  `esif_base64_decode` reads
groups of four from the front: a group is data, the last one may have `=` as its third or
fourth character, and behind each group white space is skipped.
-/

open Lib

namespace Base64

variable {text bytes rest target : List UInt8} {padding whitespace targetLen : Nat}
  {s : DecodeState}

/-! ## Encoding -/

def charByte (c : Char) : UInt8 := UInt8.ofNat c.toNat

/-- `MAX_BASE64_ENCODED_LEN`. -/
def maxBase64EncodedLen : Nat := (((32 * 1024 * 1024) / 3 + 2) * 4 / 64 + 1) * 66

/-- `BASE64_ENCODED_LENGTH`, with the terminator. -/
def base64EncodedLength (bytes : Nat) : Nat := (bytes + 2) / 3 * 4 + 1

def base64Asciimap : List UInt8 :=
  ['A', 'B', 'C', 'D', 'E', 'F', 'G', 'H',
    'I', 'J', 'K', 'L', 'M', 'N', 'O', 'P',
    'Q', 'R', 'S', 'T', 'U', 'V', 'W', 'X',
    'Y', 'Z', 'a', 'b', 'c', 'd', 'e', 'f',
    'g', 'h', 'i', 'j', 'k', 'l', 'm', 'n',
    'o', 'p', 'q', 'r', 's', 't', 'u', 'v',
    'w', 'x', 'y', 'z', '0', '1', '2', '3',
    '4', '5', '6', '7', '8', '9', '+', '/'].map charByte

/-- `base64_asciimap[block]`. -/
def asciiOf (block : UInt8) : UInt8 := base64Asciimap.getD block.toNat 0

/-- The characters written for the bytes. -/
def encodeBlocks : List UInt8 → List UInt8
  | a :: b :: c :: rest =>
    asciiOf (a >>> 2) :: asciiOf ((a <<< 4 ||| b >>> 4) &&& 0x3F) ::
      asciiOf ((b <<< 2 ||| c >>> 6) &&& 0x3F) :: asciiOf (c &&& 0x3F) :: encodeBlocks rest
  | [a, b] =>
    [asciiOf (a >>> 2), asciiOf ((a <<< 4 ||| b >>> 4) &&& 0x3F), asciiOf (b <<< 2 &&& 0x3F),
      charByte '=']
  | [a] => [asciiOf (a >>> 2), asciiOf (a <<< 4 &&& 0x3F), charByte '=', charByte '=']
  | [] => []

/-- `esif_base64_encode`: the result code and the target buffer, `none` where the call touches
bytes outside its buffers. -/
def esifBase64Encode (target : Option (List UInt8)) (targetLen : Nat)
    (source : Option (List UInt8)) (sourceLen : Nat) :
    Option (EsifError × Option (List UInt8)) :=
  if base64EncodedLength sourceLen > maxBase64EncodedLen then
    some (esifEParameterIsOutOfBounds, target)
  else if targetLen < base64EncodedLength sourceLen then
    some (esifENeedLargerBuffer, target)
  else
    match source, target with
    | some sourceBuf, some targetStr =>
      (readAt sourceBuf 0 sourceLen).bind fun data =>
        (poke targetStr 0 (encodeBlocks data ++ [0])).map fun str => (esifOk, some str)
    | _, _ => some (esifEParameterIsNull, target)

/-! ## Decoding -/

/-- `BASE64_DECODED_BUFFER_LEN`. -/
def base64DecodedBufferLen (encodedLen : Nat) : Nat := (encodedLen + 3) / 4 * 3

def isUpper (ch : UInt8) : Bool := charByte 'A' ≤ ch && ch ≤ charByte 'Z'

def isLower (ch : UInt8) : Bool := charByte 'a' ≤ ch && ch ≤ charByte 'z'

def isDigit (ch : UInt8) : Bool := charByte '0' ≤ ch && ch ≤ charByte '9'

/-- `BASE64_DECODED_ISVALID`. -/
def base64DecodedIsvalid (ch : UInt8) : Bool :=
  (isUpper ch || isLower ch) || isDigit ch || ch = charByte '+' || ch = charByte '/'

/-- `BASE64_DECODED_BYTE`. -/
def base64DecodedByte (ch : UInt8) : UInt8 :=
  if ch = charByte '=' then 0x00
  else if ch = charByte '/' then 0x3F
  else if ch = charByte '+' then 0x3E
  else if isDigit ch then ch - charByte '0' + 0x34
  else if isLower ch then ch - charByte 'a' + 0x1A
  else ch - charByte 'A'

/-- Whether `esif_ccb_strchr` finds the character in `whitespace_chars`.  It also finds the
terminator of the list. -/
def isWhitespace (ch : UInt8) : Bool :=
  ['\r', '\n', '\t', ' ', '\x00'].any fun c => ch = charByte c

/-- The three bytes of a group. -/
def decodeGroup (c0 c1 c2 c3 : UInt8) : List UInt8 :=
  [(base64DecodedByte c0 &&& 0x3F) <<< 2 ||| (base64DecodedByte c1 &&& 0x30) >>> 4,
    (base64DecodedByte c1 &&& 0x0F) <<< 4 ||| (base64DecodedByte c2 &&& 0x3C) >>> 2,
    (base64DecodedByte c2 &&& 0x03) <<< 6 ||| (base64DecodedByte c3 &&& 0x3F)]

/-- The variables of `esif_base64_decode`. -/
structure DecodeState where
  j : Nat
  k : Nat
  padding : Nat
  whitespace : Nat
  outbuf : List UInt8

def padOf (ch : UInt8) : Nat := if ch = charByte '=' then 1 else 0

/-- The loop over the groups of a text without white space at its end. -/
def decodeLoop (text : List UInt8) (targetLen : Nat) (s : DecodeState) : Option DecodeState :=
  if s.j + 3 < text.length ∧ s.k + 2 < targetLen then
    let c0 := text.getD s.j 0
    let c1 := text.getD (s.j + 1) 0
    let c2 := text.getD (s.j + 2) 0
    let c3 := text.getD (s.j + 3) 0
    if ¬base64DecodedIsvalid c0 ∨ ¬base64DecodedIsvalid c1 ∨
        (¬base64DecodedIsvalid c2 ∧ (s.j + 2 < text.length - 2 ∨ c2 ≠ charByte '=')) ∨
        (¬base64DecodedIsvalid c3 ∧ (s.j + 3 < text.length - 2 ∨ c3 ≠ charByte '=')) then
      some s
    else
      let run := ((text.drop (s.j + 4)).takeWhile isWhitespace).length
      (poke s.outbuf s.k (decodeGroup c0 c1 c2 c3)).bind fun outbuf =>
        decodeLoop text targetLen
          { j := s.j + run + 4
            k := s.k + 3
            padding :=
              if s.j + 4 = text.length then s.padding + padOf c2 + padOf c3 else s.padding
            whitespace := s.whitespace + run
            outbuf := outbuf }
  else some s
termination_by text.length - s.j

/-- The branch of `esif_base64_decode` in which nothing is missing. -/
def decodeInto (target : List UInt8) (targetLen : Nat) (encoded : List UInt8) :
    Option (EsifError × Nat × List UInt8) :=
  let text := encoded.rdropWhile isWhitespace
  (decodeLoop text targetLen ⟨0, 0, 0, encoded.length - text.length, target⟩).map fun s =>
    if s.j = text.length ∧ s.k = targetLen - base64DecodedBufferLen s.whitespace then
      (esifOk, s.k - s.padding, s.outbuf)
    else (esifECommandDataInvalid, targetLen, s.outbuf)

/-- `esif_base64_decode`: the result code, `*target_len` and the target buffer, `none` where the
call touches bytes outside its buffers. -/
def esifBase64Decode (target : Option (List UInt8)) (targetLen : Option Nat)
    (encodedBuf : Option (List UInt8)) (encodedLen : Nat) :
    Option (EsifError × Option Nat × Option (List UInt8)) :=
  if encodedLen > maxBase64EncodedLen then
    some (esifEParameterIsOutOfBounds, targetLen, target)
  else if targetLen.any (· < base64DecodedBufferLen encodedLen) then
    some (esifENeedLargerBuffer, some (base64DecodedBufferLen encodedLen), target)
  else
    match target, targetLen, encodedBuf with
    | some outbuf, some len, some buf =>
      (readAt buf 0 encodedLen).bind fun encoded =>
        (decodeInto outbuf len encoded).map fun (rc, len, outbuf) => (rc, some len, some outbuf)
    | _, _, _ => some (esifEParameterIsNull, targetLen, target)

/-! ## Texts that are decoded to their end -/

/-- The loop decodes the text to its end: it writes the bytes, and counts this much padding and
white space. -/
inductive Groups : List UInt8 → List UInt8 → Nat → Nat → Prop
  | nil : Groups [] [] 0 0
  | last {c0 c1 c2 c3 : UInt8} (h0 : base64DecodedIsvalid c0) (h1 : base64DecodedIsvalid c1)
      (h2 : base64DecodedIsvalid c2 ∨ c2 = charByte '=')
      (h3 : base64DecodedIsvalid c3 ∨ c3 = charByte '=') :
      Groups [c0, c1, c2, c3] (decodeGroup c0 c1 c2 c3) (padOf c2 + padOf c3) 0
  | group {c0 c1 c2 c3 : UInt8} {run rest bytes : List UInt8} {padding whitespace : Nat}
      (h0 : base64DecodedIsvalid c0) (h1 : base64DecodedIsvalid c1)
      (h2 : base64DecodedIsvalid c2) (h3 : base64DecodedIsvalid c3)
      (hrun : ∀ ch ∈ run, isWhitespace ch = true) (hrest : rest ≠ [])
      (htail : Groups rest bytes padding whitespace) :
      Groups (c0 :: c1 :: c2 :: c3 :: (run ++ rest)) (decodeGroup c0 c1 c2 c3 ++ bytes) padding
        (run.length + whitespace)

/-- A text that is decoded once the white space at its end is left out. -/
def Decodable (text : List UInt8) : Prop :=
  ∃ bytes padding whitespace, Groups (text.rdropWhile isWhitespace) bytes padding whitespace

theorem length_decodeGroup (c0 c1 c2 c3 : UInt8) : (decodeGroup c0 c1 c2 c3).length = 3 := rfl

theorem isWhitespace_of_isvalid :
    ∀ ch : UInt8, base64DecodedIsvalid ch = true → isWhitespace ch = false :=
  forall_byte (by decide +kernel)

theorem Groups.takeWhile_eq (h : Groups text bytes padding whitespace) :
    text.takeWhile isWhitespace = [] := by
  cases h with
  | nil => rfl
  | last h0 => simp [isWhitespace_of_isvalid _ h0]
  | group h0 => simp [isWhitespace_of_isvalid _ h0]

/-- Three bytes for each four characters that are not white space. -/
theorem Groups.length_eq (h : Groups text bytes padding whitespace) :
    ∃ n, text.length = 4 * n + whitespace ∧ bytes.length = 3 * n := by
  induction h with
  | nil => exact ⟨0, rfl, rfl⟩
  | last => exact ⟨1, rfl, rfl⟩
  | group _ _ _ _ _ _ _ ih =>
    obtain ⟨n, htext, hbytes⟩ := ih
    refine ⟨n + 1, ?_, ?_⟩
    · simp only [List.length_cons, List.length_append, htext]
      omega
    · simp only [List.length_append, length_decodeGroup, hbytes]
      omega

theorem Groups.padding_le (h : Groups text bytes padding whitespace) : padding ≤ bytes.length := by
  induction h with
  | nil => exact Nat.le_refl 0
  | last =>
    simp only [length_decodeGroup, padOf]
    split <;> split <;> omega
  | group _ _ _ _ _ _ _ ih =>
    simp only [List.length_append]
    omega

/-! ## The loop -/

/-- Whether the loop stops at a group, which is the last one or not. -/
def Rejected (c0 c1 c2 c3 : UInt8) (more : Nat) : Prop :=
  ¬base64DecodedIsvalid c0 ∨ ¬base64DecodedIsvalid c1 ∨
    (¬base64DecodedIsvalid c2 ∧ (0 < more ∨ c2 ≠ charByte '=')) ∨
    (¬base64DecodedIsvalid c3 ∧ (1 < more ∨ c3 ≠ charByte '='))

instance (c0 c1 c2 c3 : UInt8) (more : Nat) : Decidable (Rejected c0 c1 c2 c3 more) :=
  inferInstanceAs (Decidable (_ ∨ _ ∨ _ ∨ _))

/-- One turn of the loop, at a group. -/
theorem decodeLoop_group {pre rest : List UInt8} {c0 c1 c2 c3 : UInt8} (hj : s.j = pre.length)
    (hk : s.k + 2 < targetLen) :
    decodeLoop (pre ++ c0 :: c1 :: c2 :: c3 :: rest) targetLen s =
      if Rejected c0 c1 c2 c3 rest.length then some s
      else
        (poke s.outbuf s.k (decodeGroup c0 c1 c2 c3)).bind fun outbuf =>
          decodeLoop (pre ++ c0 :: c1 :: c2 :: c3 :: rest) targetLen
            { j := s.j + (rest.takeWhile isWhitespace).length + 4
              k := s.k + 3
              padding := if rest = [] then s.padding + padOf c2 + padOf c3 else s.padding
              whitespace := s.whitespace + (rest.takeWhile isWhitespace).length
              outbuf := outbuf } := by
  have hlen : (pre ++ c0 :: c1 :: c2 :: c3 :: rest).length = pre.length + (rest.length + 4) := by
    simp
  have hget : ∀ i, (pre ++ c0 :: c1 :: c2 :: c3 :: rest).getD (s.j + i) 0 =
      (c0 :: c1 :: c2 :: c3 :: rest).getD i 0 := by
    intro i
    simp only [hj, List.getD_eq_getElem?_getD]
    rw [List.getElem?_append_right (Nat.le_add_right _ _), Nat.add_sub_cancel_left]
  have hdrop : (pre ++ c0 :: c1 :: c2 :: c3 :: rest).drop (s.j + 4) = rest := by
    rw [hj, List.drop_append, List.drop_eq_nil_of_le (Nat.le_add_right _ _),
      Nat.add_sub_cancel_left]
    rfl
  have h0 := hget 0
  have hmore : ∀ i, s.j + i < pre.length + (rest.length + 4) - 2 ↔ i < rest.length + 2 := by
    intro i
    omega
  have hlast : s.j + 4 = pre.length + (rest.length + 4) ↔ rest = [] := by
    rw [← List.length_eq_zero_iff]
    omega
  rw [Nat.add_zero] at h0
  rw [decodeLoop]
  simp only [hlen, h0, hget, hdrop, hmore, hlast, List.getD_cons_zero, List.getD_cons_succ]
  rw [if_pos ⟨by omega, hk⟩]
  refine if_congr ?_ rfl rfl
  have htwo : 2 < rest.length + 2 ↔ 0 < rest.length := by omega
  have hthree : 3 < rest.length + 2 ↔ 1 < rest.length := by omega
  simp only [Rejected, htwo, hthree]

/-- The loop stops where no group is left. -/
theorem decodeLoop_stop (h : text.length ≤ s.j + 3) : decodeLoop text targetLen s = some s := by
  rw [decodeLoop, if_neg (by omega)]

/-- The loop decodes such a text to its end. -/
theorem decodeLoop_groups (h : Groups rest bytes padding whitespace) (pre : List UInt8)
    (hj : s.j = pre.length) (hout : s.outbuf.length = targetLen)
    (hfits : s.k + bytes.length ≤ targetLen) :
    decodeLoop (pre ++ rest) targetLen s =
      some ⟨(pre ++ rest).length, s.k + bytes.length, s.padding + padding,
        s.whitespace + whitespace, overwrite s.outbuf s.k bytes⟩ := by
  induction h generalizing pre s with
  | nil =>
    rw [decodeLoop_stop (by simp [hj])]
    obtain ⟨j, k, p, w, out⟩ := s
    simp only at hj
    simp [overwrite_nil, hj]
  | @last c0 c1 c2 c3 h0 h1 h2 h3 =>
    have haccepted : ¬Rejected c0 c1 c2 c3 ([] : List UInt8).length := by
      rintro (hbad | hbad | ⟨hbad, hpad⟩ | ⟨hbad, hpad⟩)
      · exact hbad h0
      · exact hbad h1
      · exact hpad.elim (Nat.lt_irrefl 0) fun hne => hne (h2.resolve_left hbad)
      · exact hpad.elim (by simp) fun hne => hne (h3.resolve_left hbad)
    rw [length_decodeGroup] at hfits
    rw [decodeLoop_group hj (by omega), if_neg haccepted,
      poke_eq (by rw [length_decodeGroup, hout]; omega), Option.bind_some,
      decodeLoop_stop (by simp [hj])]
    simp [hj, length_decodeGroup, Nat.add_assoc]
  | @group c0 c1 c2 c3 run rest bytes p w h0 h1 h2 h3 hrun hrest htail ih =>
    have haccepted : ¬Rejected c0 c1 c2 c3 (run ++ rest).length := by
      rintro (hbad | hbad | ⟨hbad, -⟩ | ⟨hbad, -⟩)
      exacts [hbad h0, hbad h1, hbad h2, hbad h3]
    have hskip : (run ++ rest).takeWhile isWhitespace = run := by
      rw [List.takeWhile_append_of_pos hrun, htail.takeWhile_eq, List.append_nil]
    have hmore : run ++ rest ≠ [] := by simp [hrest]
    rw [List.length_append, length_decodeGroup] at hfits
    have hpoke : s.k + (decodeGroup c0 c1 c2 c3).length ≤ s.outbuf.length := by
      rw [length_decodeGroup, hout]
      omega
    rw [decodeLoop_group hj (by omega), if_neg haccepted, poke_eq hpoke, Option.bind_some, hskip,
      if_neg hmore]
    have hsplit : pre ++ c0 :: c1 :: c2 :: c3 :: (run ++ rest) =
        (pre ++ c0 :: c1 :: c2 :: c3 :: run) ++ rest := by simp
    rw [hsplit, ih _ (by simp [hj]; omega) (by rw [length_overwrite hpoke]; exact hout)
      (by simp only; omega)]
    rw [← length_decodeGroup c0 c1 c2 c3, overwrite_overwrite hpoke]
    simp [Nat.add_assoc]

theorem Groups.four_le (h : Groups text bytes padding whitespace) (hne : text ≠ []) :
    4 ≤ text.length := by
  cases h with
  | nil => exact absurd rfl hne
  | last => simp
  | group => simp

theorem exists_group (h : 4 ≤ text.length) :
    ∃ c0 c1 c2 c3 more, text = c0 :: c1 :: c2 :: c3 :: more := by
  match text, h with
  | c0 :: c1 :: c2 :: c3 :: more, _ => exact ⟨c0, c1, c2, c3, more, rfl⟩

/-- Where a text is not one of these the loop stops before its end. -/
theorem groups_of_decodeLoop (hend : ∀ ch ∈ rest.getLast?, isWhitespace ch = false)
    (pre : List UInt8) (hj : s.j = pre.length) (hout : s.outbuf.length = targetLen)
    (hfits : s.k + 3 * (rest.length / 4) ≤ targetLen) :
    (∃ bytes padding whitespace, Groups rest bytes padding whitespace) ∨
      ∃ s', decodeLoop (pre ++ rest) targetLen s = some s' ∧ s'.j ≠ (pre ++ rest).length ∧
        s'.outbuf.length = targetLen := by
  induction hlen : rest.length using Nat.strong_induction_on generalizing rest pre s with
  | _ n ih =>
  subst hlen
  by_cases hshort : rest.length < 4
  · by_cases hnil : rest = []
    · exact Or.inl ⟨[], 0, 0, hnil ▸ Groups.nil⟩
    · refine Or.inr ⟨s, decodeLoop_stop (by simp [hj]; omega), ?_, hout⟩
      simp [hj, hnil]
  obtain ⟨c0, c1, c2, c3, more, rfl⟩ := exists_group (Nat.le_of_not_lt hshort)
  simp only [List.length_cons] at hfits ih
  by_cases hrej : Rejected c0 c1 c2 c3 more.length
  · refine Or.inr ⟨s, ?_, by simp [hj], hout⟩
    rw [decodeLoop_group hj (by omega), if_pos hrej]
  have haccepted := hrej
  simp only [Rejected, not_or, not_and, not_not, Nat.not_lt] at haccepted
  obtain ⟨h0, h1, h2, h3⟩ := haccepted
  by_cases hlast : more = []
  · subst hlast
    refine Or.inl ⟨_, _, _, Groups.last h0 h1 ?_ ?_⟩
    · exact or_iff_not_imp_left.mpr fun hbad => (h2 hbad).2
    · exact or_iff_not_imp_left.mpr fun hbad => (h3 hbad).2
  -- behind the group comes white space, and behind that the rest, which is not empty
  have hpos : 0 < more.length := List.length_pos_iff.mpr hlast
  have htail : more.dropWhile isWhitespace ≠ [] := by
    intro hnil
    rw [List.dropWhile_eq_nil_iff] at hnil
    have hfalse := hend (more.getLast hlast) (by
      simp [List.getLast?_cons, List.getLast?_eq_some_getLast hlast])
    rw [hnil _ (List.getLast_mem hlast)] at hfalse
    cases hfalse
  have hsplit := List.takeWhile_append_dropWhile (p := isWhitespace) (l := more)
  have hlens := congrArg List.length hsplit
  rw [List.length_append] at hlens
  have hpoke : s.k + (decodeGroup c0 c1 c2 c3).length ≤ s.outbuf.length := by
    rw [length_decodeGroup, hout]
    omega
  have hmore : pre ++ c0 :: c1 :: c2 :: c3 :: more =
      (pre ++ c0 :: c1 :: c2 :: c3 :: more.takeWhile isWhitespace) ++
        more.dropWhile isWhitespace := by
    simp
  have hend' : ∀ ch ∈ (more.dropWhile isWhitespace).getLast?, isWhitespace ch = false := by
    intro ch hch
    refine hend ch ?_
    have hlastEq : (c0 :: c1 :: c2 :: c3 :: more).getLast? =
        (more.dropWhile isWhitespace).getLast? := by
      have hnonempty : (more.dropWhile isWhitespace).getLast? ≠ none := by simpa using htail
      conv_lhs => rw [← hsplit]
      rw [← List.cons_append, ← List.cons_append, ← List.cons_append, ← List.cons_append,
        List.getLast?_append]
      cases h : (more.dropWhile isWhitespace).getLast? with
      | none => exact absurd h hnonempty
      | some last => rfl
    rw [hlastEq]
    exact hch
  rw [decodeLoop_group hj (by omega), if_neg hrej, poke_eq hpoke, Option.bind_some, if_neg hlast,
    hmore]
  let next : DecodeState :=
    ⟨s.j + (more.takeWhile isWhitespace).length + 4, s.k + 3, s.padding,
      s.whitespace + (more.takeWhile isWhitespace).length,
      overwrite s.outbuf s.k (decodeGroup c0 c1 c2 c3)⟩
  have hj' : next.j = (pre ++ c0 :: c1 :: c2 :: c3 :: more.takeWhile isWhitespace).length := by
    simp only [next, hj, List.length_append, List.length_cons]
    omega
  have hfits' : next.k + 3 * ((more.dropWhile isWhitespace).length / 4) ≤ targetLen := by
    simp only [next]
    omega
  rcases ih (more.dropWhile isWhitespace).length (by omega) hend' _ hj'
    ((length_overwrite hpoke).trans hout) hfits' rfl with ⟨bytes, p, w, htail'⟩ | hstop
  · have hfour := htail'.four_le htail
    rw [← hsplit]
    refine Or.inl ⟨_, _, _, Groups.group h0 h1 ?_ ?_ ?_ htail htail'⟩
    · by_contra hbad
      have := (h2 hbad).1
      omega
    · by_contra hbad
      have := (h3 hbad).1
      omega
    · exact fun ch hch => List.mem_takeWhile_imp hch
  · exact Or.inr hstop

/-! ## A call -/

theorem rdropWhile_append_eq {text run : List UInt8} (hrun : ∀ ch ∈ run, isWhitespace ch = true)
    (hend : ∀ ch ∈ text.getLast?, isWhitespace ch = false) :
    (text ++ run).rdropWhile isWhitespace = text := by
  rw [List.rdropWhile, List.reverse_append, List.dropWhile_append_of_pos (by simpa using hrun)]
  have hfirst : text.reverse.dropWhile isWhitespace = text.reverse := by
    cases htext : text.reverse with
    | nil => rfl
    | cons ch rest =>
      have hch := hend ch (by rw [List.getLast?_eq_head?_reverse, htext]; rfl)
      rw [List.dropWhile_cons_of_neg (by simp [hch])]
  rw [hfirst, List.reverse_reverse]

theorem getLast?_rdropWhile (text : List UInt8) :
    ∀ ch ∈ (text.rdropWhile isWhitespace).getLast?, isWhitespace ch = false := by
  intro ch hch
  have hne : text.rdropWhile isWhitespace ≠ [] := by
    intro hnil
    rw [hnil] at hch
    cases hch
  have hlast := List.rdropWhile_last_not isWhitespace text hne
  rw [List.getLast?_eq_some_getLast hne] at hch
  cases hch
  simpa using hlast

theorem length_rdropWhile_le (text : List UInt8) :
    (text.rdropWhile isWhitespace).length ≤ text.length :=
  (List.rdropWhile_prefix isWhitespace text).length_le

theorem Groups.length_le (h : Groups (text.rdropWhile isWhitespace) bytes padding whitespace) :
    bytes.length ≤ base64DecodedBufferLen text.length := by
  obtain ⟨n, htext, hbytes⟩ := h.length_eq
  have hshort := length_rdropWhile_le text
  unfold base64DecodedBufferLen
  omega

/-- **A call with room enough, for a text that can be decoded.**  It succeeds just when the buffer
has the required size. -/
theorem decodeInto_of_groups
    (hgroups : Groups (text.rdropWhile isWhitespace) bytes padding whitespace)
    (hroom : base64DecodedBufferLen text.length ≤ target.length) :
    decodeInto target target.length text =
      some (if target.length = base64DecodedBufferLen text.length then
        (esifOk, bytes.length - padding, overwrite target 0 bytes)
      else (esifECommandDataInvalid, target.length, overwrite target 0 bytes)) := by
  have hshort := length_rdropWhile_le text
  obtain ⟨n, htext, hbytes⟩ := hgroups.length_eq
  have hfits : 0 + bytes.length ≤ target.length :=
    (Nat.zero_add _).trans_le (hgroups.length_le.trans hroom)
  have hloop := decodeLoop_groups hgroups []
    (s := ⟨0, 0, 0, text.length - (text.rdropWhile isWhitespace).length, target⟩) rfl rfl hfits
  rw [List.nil_append] at hloop
  rw [decodeInto, hloop]
  simp only [Option.map_some, Nat.zero_add, true_and]
  congr 1
  refine if_congr ?_ rfl rfl
  unfold base64DecodedBufferLen at hroom ⊢
  omega

/-- A call with room enough, for any other text. -/
theorem decodeInto_of_not_decodable (h : ¬Decodable text)
    (hroom : base64DecodedBufferLen text.length ≤ target.length) :
    ∃ out, out.length = target.length ∧ decodeInto target target.length text =
        some (esifECommandDataInvalid, target.length, out) := by
  have hshort := length_rdropWhile_le text
  unfold base64DecodedBufferLen at hroom
  obtain ⟨s', hloop, hj, hout⟩ := (groups_of_decodeLoop (getLast?_rdropWhile text) []
    (s := ⟨0, 0, 0, text.length - (text.rdropWhile isWhitespace).length, target⟩) rfl rfl
    (show 0 + _ ≤ target.length by omega)).resolve_left h
  refine ⟨s'.outbuf, hout, ?_⟩
  rw [List.nil_append] at hloop hj
  rw [decodeInto, hloop, Option.map_some, if_neg fun hend => hj hend.1]

theorem esifBase64Decode_eq (htext : text.length ≤ maxBase64EncodedLen)
    (hroom : base64DecodedBufferLen text.length ≤ target.length) :
    esifBase64Decode (some target) (some target.length) (some text) text.length =
      (decodeInto target target.length text).map fun (rc, len, outbuf) =>
        (rc, some len, some outbuf) := by
  have hread : readAt text 0 text.length = some text := by simp [readAt]
  rw [esifBase64Decode, if_neg (Nat.not_lt.mpr htext), if_neg (by simpa using hroom)]
  simp only [hread, Option.bind_some]

/-- A call without a buffer asks for the required size. -/
theorem esifBase64Decode_size (htext : text.length ≤ maxBase64EncodedLen) (hne : text ≠ []) :
    esifBase64Decode none (some 0) (some text) text.length =
      some (esifENeedLargerBuffer, some (base64DecodedBufferLen text.length), none) := by
  have hpos := List.length_pos_iff.mpr hne
  have hneed : 0 < base64DecodedBufferLen text.length := by
    rw [base64DecodedBufferLen]
    omega
  rw [esifBase64Decode.eq_def, if_neg (Nat.not_lt.mpr htext), if_pos (by simpa using hneed)]

end Base64

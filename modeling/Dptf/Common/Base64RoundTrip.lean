import Dptf.Common.Base64

/-!
# Base64 there and back

* `decode_encode_spaced` — what was encoded is decoded to the same bytes, whatever white space
  is put behind the groups.
* `sameResult_iff` — when the size of the buffer makes no difference.
* `encode_decode` — what was decoded is encoded to the same text, up to the bits the last group
  does not use.
-/

open Lib

namespace Base64

variable {text bytes rest : List UInt8} {block ch c0 c1 : UInt8} {padding whitespace : Nat}

/-! ## One group -/

theorem asciiOf_lt : ∀ n < 64, base64DecodedIsvalid (asciiOf (UInt8.ofNat n)) = true ∧
    base64DecodedByte (asciiOf (UInt8.ofNat n)) = UInt8.ofNat n := by
  decide +kernel

theorem isvalid_asciiOf (h : block < 64) : base64DecodedIsvalid (asciiOf block) = true := by
  simpa using (asciiOf_lt block.toNat (UInt8.lt_iff_toNat_lt.mp h)).1

theorem decodedByte_asciiOf (h : block < 64) : base64DecodedByte (asciiOf block) = block := by
  simpa using (asciiOf_lt block.toNat (UInt8.lt_iff_toNat_lt.mp h)).2

theorem shiftRight_two_lt : ∀ a : UInt8, a >>> 2 < 64 := forall_byte (by decide +kernel)

theorem and_sixtyThree_lt : ∀ a : UInt8, a &&& 0x3F < 64 := forall_byte (by decide +kernel)

theorem asciiOf_decodedByte : ∀ ch : UInt8, base64DecodedIsvalid ch = true →
    asciiOf (base64DecodedByte ch &&& 0x3F) = ch :=
  forall_byte (by decide +kernel)

/-- The blocks that a group of three bytes is cut into give the bytes again. -/
theorem decodeGroup_blocks (a b c : UInt8) :
    decodeGroup (asciiOf (a >>> 2)) (asciiOf ((a <<< 4 ||| b >>> 4) &&& 0x3F))
      (asciiOf ((b <<< 2 ||| c >>> 6) &&& 0x3F)) (asciiOf (c &&& 0x3F)) = [a, b, c] := by
  simp only [decodeGroup, decodedByte_asciiOf (shiftRight_two_lt a),
    decodedByte_asciiOf (and_sixtyThree_lt _), List.cons.injEq, and_true]
  refine ⟨?_, ?_, ?_⟩
  all_goals
    rw [← UInt8.toBitVec_inj]
    ext i hi
    simp only [UInt8.toBitVec_or, UInt8.toBitVec_shiftLeft, UInt8.toBitVec_and,
      UInt8.toBitVec_shiftRight]
    interval_cases i <;> simp

/-- A padded group is a group of zero bytes that is cut short. -/
theorem decodeGroup_pad (c0 c1 c2 : UInt8) :
    decodeGroup c0 c1 c2 (charByte '=') = decodeGroup c0 c1 c2 (asciiOf 0) := (rfl)

theorem decodeGroup_two (a b : UInt8) :
    decodeGroup (asciiOf (a >>> 2)) (asciiOf ((a <<< 4 ||| b >>> 4) &&& 0x3F))
      (asciiOf (b <<< 2 &&& 0x3F)) (charByte '=') = [a, b, 0] := by
  simpa [decodeGroup_pad] using decodeGroup_blocks a b 0

theorem decodeGroup_one (a : UInt8) :
    decodeGroup (asciiOf (a >>> 2)) (asciiOf (a <<< 4 &&& 0x3F)) (charByte '=') (charByte '=') =
      [a, 0, 0] := by
  have hpad : ∀ c0 c1 c3, decodeGroup c0 c1 (charByte '=') c3 = decodeGroup c0 c1 (asciiOf 0) c3 :=
    fun _ _ _ => rfl
  simpa [decodeGroup_pad, hpad] using decodeGroup_blocks a 0 0

/-! ## What was encoded is decoded -/

/-- CR, LF, TAB and space. -/
def spaces : List UInt8 := ['\r', '\n', '\t', ' '].map charByte

/-- White space is put behind groups of four characters. -/
inductive Spaced : List UInt8 → List UInt8 → Prop
  | nil : Spaced [] []
  | group {c0 c1 c2 c3 : UInt8} {rest text run : List UInt8} (hrun : ∀ ch ∈ run, ch ∈ spaces)
      (htail : Spaced rest text) :
      Spaced (c0 :: c1 :: c2 :: c3 :: rest) (c0 :: c1 :: c2 :: c3 :: (run ++ text))

theorem isWhitespace_of_mem_spaces (h : ch ∈ spaces) : isWhitespace ch = true := by
  simp only [spaces, List.map_cons, List.map_nil, List.mem_cons, List.not_mem_nil, or_false] at h
  rcases h with rfl | rfl | rfl | rfl <;> rfl

theorem padOf_of_isvalid : ∀ ch : UInt8, base64DecodedIsvalid ch = true → padOf ch = 0 :=
  forall_byte (by decide +kernel)

/-- An encoding with white space behind its groups is a text the loop decodes.  The bytes have
zeros behind them that the padding stands for. -/
theorem groups_of_spaced {b text : List UInt8} (hb : b ≠ []) (h : Spaced (encodeBlocks b) text) :
    ∃ trimmed run padding whitespace, text = trimmed ++ run ∧ (∀ ch ∈ run, isWhitespace ch = true) ∧
      Groups trimmed (b ++ List.replicate padding 0) padding whitespace := by
  induction b using encodeBlocks.induct generalizing text with
  | case1 a b c rest ih =>
    rw [encodeBlocks] at h
    cases h with
    | @group _ _ _ _ _ text run hrun htail =>
    have h0 := isvalid_asciiOf (shiftRight_two_lt a)
    have h1 := isvalid_asciiOf (and_sixtyThree_lt (a <<< 4 ||| b >>> 4))
    have h2 := isvalid_asciiOf (and_sixtyThree_lt (b <<< 2 ||| c >>> 6))
    have h3 := isvalid_asciiOf (and_sixtyThree_lt c)
    have hspace : ∀ ch ∈ run, isWhitespace ch = true := fun ch hch =>
      isWhitespace_of_mem_spaces (hrun ch hch)
    by_cases hrest : rest = []
    · subst hrest
      have hlast := Groups.last h0 h1 (Or.inl h2) (Or.inl h3)
      rw [decodeGroup_blocks, padOf_of_isvalid _ h2, padOf_of_isvalid _ h3] at hlast
      cases htail
      refine ⟨_, run, 0, 0, ?_, hspace, hlast⟩
      simp
    · obtain ⟨trimmed, run', padding, whitespace, rfl, hrun', htrimmed⟩ := ih hrest htail
      have hne : trimmed ≠ [] := by
        rintro rfl
        obtain ⟨n, htext, hbytes⟩ := htrimmed.length_eq
        have hpos := List.length_pos_iff.mpr hrest
        simp only [List.length_nil, List.length_append, List.length_replicate] at htext hbytes
        omega
      have hgroup := Groups.group h0 h1 h2 h3 hspace hne htrimmed
      rw [decodeGroup_blocks] at hgroup
      refine ⟨_, run', padding, _, ?_, hrun', hgroup⟩
      simp
  | case2 a b =>
    rw [encodeBlocks] at h
    cases h with
    | @group _ _ _ _ _ text run hrun htail =>
    cases htail
    have hlast := Groups.last (isvalid_asciiOf (shiftRight_two_lt a))
      (isvalid_asciiOf (and_sixtyThree_lt (a <<< 4 ||| b >>> 4)))
      (Or.inl (isvalid_asciiOf (and_sixtyThree_lt (b <<< 2)))) (Or.inr rfl)
    rw [decodeGroup_two, padOf_of_isvalid _ (isvalid_asciiOf (and_sixtyThree_lt (b <<< 2)))]
      at hlast
    refine ⟨_, run, 1, 0, ?_, fun ch hch => isWhitespace_of_mem_spaces (hrun ch hch), hlast⟩
    simp
  | case3 a =>
    rw [encodeBlocks] at h
    cases h with
    | @group _ _ _ _ _ text run hrun htail =>
    cases htail
    have hlast := Groups.last (isvalid_asciiOf (shiftRight_two_lt a))
      (isvalid_asciiOf (and_sixtyThree_lt (a <<< 4))) (Or.inr rfl) (Or.inr rfl)
    rw [decodeGroup_one] at hlast
    refine ⟨_, run, 2, 0, ?_, fun ch hch => isWhitespace_of_mem_spaces (hrun ch hch), hlast⟩
    simp
  | case4 => exact absurd rfl hb

theorem isWhitespace_of_isvalid_or (h : base64DecodedIsvalid ch = true ∨ ch = charByte '=') :
    isWhitespace ch = false := by
  rcases h with h | rfl
  · exact isWhitespace_of_isvalid ch h
  · rfl

theorem Groups.getLast? (h : Groups text bytes padding whitespace) :
    ∀ ch ∈ text.getLast?, isWhitespace ch = false := by
  induction h with
  | nil =>
    intro ch hch
    cases hch
  | last _ _ _ h3 =>
    intro ch hch
    cases hch
    exact isWhitespace_of_isvalid_or h3
  | @group c0 c1 c2 c3 run rest _ _ _ _ _ _ _ _ hrest _ ih =>
    intro ch hch
    refine ih ch ?_
    have hsplit : c0 :: c1 :: c2 :: c3 :: (run ++ rest) = (c0 :: c1 :: c2 :: c3 :: run) ++ rest :=
      rfl
    rwa [hsplit, List.getLast?_append_of_ne_nil _ hrest] at hch

theorem length_encodeBlocks (b : List UInt8) :
    (encodeBlocks b).length + 1 = base64EncodedLength b.length := by
  induction b using encodeBlocks.induct with
  | case1 a b c rest ih =>
    simp only [encodeBlocks, List.length_cons, base64EncodedLength] at ih ⊢
    omega
  | case2 => simp [encodeBlocks, base64EncodedLength]
  | case3 => simp [encodeBlocks, base64EncodedLength]
  | case4 => rfl

theorem esifBase64Encode_eq {target source : List UInt8}
    (hsource : base64EncodedLength source.length ≤ maxBase64EncodedLen)
    (hroom : base64EncodedLength source.length ≤ target.length) :
    esifBase64Encode (some target) target.length (some source) source.length =
      some (esifOk, some (overwrite target 0 (encodeBlocks source ++ [0]))) := by
  have hread : readAt source 0 source.length = some source := by simp [readAt]
  rw [esifBase64Encode, if_neg (Nat.not_lt.mpr hsource), if_neg (Nat.not_lt.mpr hroom)]
  simp only [hread, Option.bind_some]
  rw [poke_eq (by simpa [length_encodeBlocks] using hroom)]
  rfl

/-- **Base64 there and back.**  What `esif_base64_encode` writes, with white space behind its
groups, is decoded to the same bytes in a buffer of the size that `esif_base64_decode` asks
for. -/
theorem decode_encode_spaced {b : List UInt8} (hb : b ≠ [])
    (hlen : base64EncodedLength b.length ≤ maxBase64EncodedLen) :
    (∀ str : List UInt8, base64EncodedLength b.length ≤ str.length →
      esifBase64Encode (some str) str.length (some b) b.length =
        some (esifOk, some (overwrite str 0 (encodeBlocks b ++ [0])))) ∧
    ∀ text : List UInt8, Spaced (encodeBlocks b) text → text.length ≤ maxBase64EncodedLen →
      ∃ size, esifBase64Decode none (some 0) (some text) text.length =
          some (esifENeedLargerBuffer, some size, none) ∧
        ∀ target : List UInt8, target.length = size →
          ∃ out, esifBase64Decode (some target) (some size) (some text) text.length =
              some (esifOk, some b.length, some out) ∧
            out.length = size ∧ out.take b.length = b := by
  refine ⟨fun str hstr => esifBase64Encode_eq hlen hstr, fun text htext hshort => ?_⟩
  obtain ⟨trimmed, run, padding, whitespace, rfl, hrun, hgroups⟩ := groups_of_spaced hb htext
  have hpos := List.length_pos_iff.mpr hb
  have hne : trimmed ++ run ≠ [] := by
    intro hnil
    obtain ⟨n, htrimmed, hbytes⟩ := hgroups.length_eq
    rw [(List.append_eq_nil_iff.mp hnil).1, List.length_nil] at htrimmed
    rw [List.length_append, List.length_replicate] at hbytes
    omega
  have htrim := rdropWhile_append_eq hrun hgroups.getLast?
  refine ⟨_, esifBase64Decode_size hshort hne, fun target htarget => ?_⟩
  rw [← htarget, esifBase64Decode_eq hshort (Nat.le_of_eq htarget.symm),
    decodeInto_of_groups (htrim ▸ hgroups) (Nat.le_of_eq htarget.symm), if_pos htarget]
  have hfits := (htrim.symm ▸ hgroups).length_le
  refine ⟨overwrite target 0 (b ++ List.replicate padding 0), ?_, ?_, ?_⟩
  · simp
  · exact length_overwrite (by omega)
  · simp [overwrite]

/-- "Zm9v", a line end, "YmE=" and a space: five bytes. -/
theorem decode_encode_spaced_fooba :
    ∃ size, esifBase64Decode none (some 0)
        (some ("Zm9v\r\nYmE= ".toList.map charByte)) 11 =
          some (esifENeedLargerBuffer, some size, none) ∧
      ∀ target : List UInt8, target.length = size →
        ∃ out, esifBase64Decode (some target) (some size)
            (some ("Zm9v\r\nYmE= ".toList.map charByte)) 11 = some (esifOk, some 5, some out) ∧
          out.length = size ∧ out.take 5 = [102, 111, 111, 98, 97] := by
  have hspaced : Spaced (encodeBlocks [102, 111, 111, 98, 97])
      ("Zm9v\r\nYmE= ".toList.map charByte) :=
    @Spaced.group _ _ _ _ _ _ [13, 10] (by decide +kernel)
      (@Spaced.group _ _ _ _ _ _ [32] (by decide +kernel) Spaced.nil)
  exact (decode_encode_spaced (b := [102, 111, 111, 98, 97]) (by decide) (by decide)).2 _ hspaced
    (by decide)

/-! ## The size of the buffer -/

/-- Two calls give the same result code, and where they succeed the same length and bytes. -/
def SameResult :
    Option (EsifError × Option Nat × Option (List UInt8)) →
      Option (EsifError × Option Nat × Option (List UInt8)) → Prop
  | some (rc, some len, some out), some (rc', some len', some out') =>
    rc = rc' ∧ (rc = esifOk → len = len' ∧ out.take len = out'.take len')
  | _, _ => False

/-- **When the size of the buffer makes no difference.**  The last test wants a buffer of just the
required size. -/
theorem sameResult_iff {text target target' : List UInt8}
    (hroom : base64DecodedBufferLen text.length ≤ target.length)
    (hroom' : base64DecodedBufferLen text.length ≤ target'.length) :
    SameResult (esifBase64Decode (some target) (some target.length) (some text) text.length)
        (esifBase64Decode (some target') (some target'.length) (some text) text.length) ↔
      maxBase64EncodedLen < text.length ∨ ¬Decodable text ∨ target.length = target'.length ∨
        (target.length ≠ base64DecodedBufferLen text.length ∧
          target'.length ≠ base64DecodedBufferLen text.length) := by
  by_cases hlong : maxBase64EncodedLen < text.length
  · simp [esifBase64Decode, hlong, SameResult, esifOk, esifEParameterIsOutOfBounds]
  rw [esifBase64Decode_eq (Nat.le_of_not_lt hlong) hroom,
    esifBase64Decode_eq (Nat.le_of_not_lt hlong) hroom']
  by_cases hdecodable : Decodable text
  · obtain ⟨bytes, padding, whitespace, hgroups⟩ := id hdecodable
    have hdata : esifECommandDataInvalid ≠ esifOk := by decide
    have hcut : ∀ m : List UInt8, (overwrite m 0 bytes).take (bytes.length - padding) =
        bytes.take (bytes.length - padding) := by
      intro m
      simp [overwrite, List.take_append_of_le_length]
    rw [decodeInto_of_groups hgroups hroom, decodeInto_of_groups hgroups hroom']
    by_cases hfit : target.length = base64DecodedBufferLen text.length <;>
      by_cases hfit' : target'.length = base64DecodedBufferLen text.length <;>
      simp [hfit, hfit', hlong, hdecodable, SameResult, hdata, hdata.symm, hcut]
    all_goals omega
  · obtain ⟨out, -, hout⟩ := decodeInto_of_not_decodable hdecodable hroom
    obtain ⟨out', -, hout'⟩ := decodeInto_of_not_decodable hdecodable hroom'
    simp [hout, hout', hdecodable, SameResult, esifOk, esifECommandDataInvalid]

/-- "QQ==". -/
def oneByteText : List UInt8 := [81, 81, 61, 61]

/-- In buffers of four bytes and of five it is refused, and so in both. -/
theorem sameResult_iff_oneByte :
    SameResult (esifBase64Decode (some [1, 2, 3, 4]) (some 4) (some oneByteText) 4)
      (esifBase64Decode (some [4, 5, 6, 7, 8]) (some 5) (some oneByteText) 4) :=
  (@sameResult_iff oneByteText [1, 2, 3, 4] [4, 5, 6, 7, 8] (by decide) (by decide)).mpr
    (.inr (.inr (.inr (by decide))))

/-- One byte of room to spare, and the text is refused. -/
theorem spareRoom_refused :
    ¬∀ text target target' : List UInt8,
      base64DecodedBufferLen text.length ≤ target.length →
      base64DecodedBufferLen text.length ≤ target'.length →
      SameResult (esifBase64Decode (some target) (some target.length) (some text) text.length)
        (esifBase64Decode (some target') (some target'.length) (some text) text.length) := by
  intro hall
  have hsame : SameResult (esifBase64Decode (some [0, 0, 0]) (some 3) (some oneByteText) 4)
      (esifBase64Decode (some [0, 0, 0, 0]) (some 4) (some oneByteText) 4) :=
    hall oneByteText [0, 0, 0] [0, 0, 0, 0] (by decide) (by decide)
  have hexact : esifBase64Decode (some [0, 0, 0]) (some 3) (some oneByteText) 4 =
      some (esifOk, some 1, some [65, 0, 0]) := by decide +kernel
  have hspare : esifBase64Decode (some [0, 0, 0, 0]) (some 4) (some oneByteText) 4 =
      some (esifECommandDataInvalid, some 4, some [65, 0, 0, 0]) := by decide +kernel
  rw [hexact, hspare] at hsame
  exact absurd hsame.1 (by decide)

/-! ## What was decoded is encoded again -/

/-- The last data character before padding, without the bits that no byte takes up. -/
def clearDiscarded : List UInt8 → List UInt8
  | [c0, c1, c2, c3] =>
    if c2 = charByte '=' then [c0, asciiOf (base64DecodedByte c1 &&& 0x30), c2, c3]
    else if c3 = charByte '=' then [c0, c1, asciiOf (base64DecodedByte c2 &&& 0x3C), c3]
    else [c0, c1, c2, c3]
  | c0 :: c1 :: c2 :: c3 :: rest => c0 :: c1 :: c2 :: c3 :: clearDiscarded rest
  | text => text

/-- Those bits. -/
def discardedBits : List UInt8 → UInt8
  | [_, c1, c2, c3] =>
    if c2 = charByte '=' then base64DecodedByte c1 &&& 0x0F
    else if c3 = charByte '=' then base64DecodedByte c2 &&& 0x03
    else 0
  | _ :: _ :: _ :: _ :: rest => discardedBits rest
  | _ => 0

/-- No `=` stands before a data character. -/
def PaddedAtEnd (text : List UInt8) : Prop :=
  text.IsChain fun ch next => ch = charByte '=' → base64DecodedIsvalid next = false

instance (text : List UInt8) : Decidable (PaddedAtEnd text) :=
  inferInstanceAs (Decidable (text.IsChain _))

/-- The blocks that the bytes of a group are cut into are those it was put together from. -/
theorem blocks_decodeGroup (d0 d1 d2 d3 : UInt8) :
    ((d0 &&& 0x3F) <<< 2 ||| (d1 &&& 0x30) >>> 4) >>> 2 = d0 &&& 0x3F ∧
    (((d0 &&& 0x3F) <<< 2 ||| (d1 &&& 0x30) >>> 4) <<< 4 |||
      ((d1 &&& 0x0F) <<< 4 ||| (d2 &&& 0x3C) >>> 2) >>> 4) &&& 0x3F = d1 &&& 0x3F ∧
    (((d1 &&& 0x0F) <<< 4 ||| (d2 &&& 0x3C) >>> 2) <<< 2 |||
      ((d2 &&& 0x03) <<< 6 ||| (d3 &&& 0x3F)) >>> 6) &&& 0x3F = d2 &&& 0x3F ∧
    ((d2 &&& 0x03) <<< 6 ||| (d3 &&& 0x3F)) &&& 0x3F = d3 &&& 0x3F ∧
    ((d0 &&& 0x3F) <<< 2 ||| (d1 &&& 0x30) >>> 4) <<< 4 &&& 0x3F = d1 &&& 0x30 ∧
    ((d1 &&& 0x0F) <<< 4 ||| (d2 &&& 0x3C) >>> 2) <<< 2 &&& 0x3F = d2 &&& 0x3C := by
  refine ⟨?_, ?_, ?_, ?_, ?_, ?_⟩
  all_goals
    rw [← UInt8.toBitVec_inj]
    ext i hi
    simp only [UInt8.toBitVec_or, UInt8.toBitVec_shiftLeft, UInt8.toBitVec_and,
      UInt8.toBitVec_shiftRight]
    interval_cases i <;> simp

theorem encodeBlocks_decodeGroup {c0 c1 c2 c3 : UInt8} (h0 : base64DecodedIsvalid c0)
    (h1 : base64DecodedIsvalid c1) (h2 : base64DecodedIsvalid c2) (h3 : base64DecodedIsvalid c3)
    (rest : List UInt8) :
    encodeBlocks (decodeGroup c0 c1 c2 c3 ++ rest) = c0 :: c1 :: c2 :: c3 :: encodeBlocks rest := by
  obtain ⟨hb0, hb1, hb2, hb3, -, -⟩ := blocks_decodeGroup (base64DecodedByte c0)
    (base64DecodedByte c1) (base64DecodedByte c2) (base64DecodedByte c3)
  simp only [decodeGroup, List.cons_append, List.nil_append, encodeBlocks, hb0, hb1, hb2, hb3,
    asciiOf_decodedByte _ h0, asciiOf_decodedByte _ h1, asciiOf_decodedByte _ h2,
    asciiOf_decodedByte _ h3]

theorem encodeBlocks_take_two (h0 : base64DecodedIsvalid c0) (h1 : base64DecodedIsvalid c1)
    (c2 c3 : UInt8) :
    encodeBlocks ((decodeGroup c0 c1 c2 c3).take 2) =
      [c0, c1, asciiOf (base64DecodedByte c2 &&& 0x3C), charByte '='] := by
  obtain ⟨hb0, hb1, -, -, -, hb2⟩ := blocks_decodeGroup (base64DecodedByte c0)
    (base64DecodedByte c1) (base64DecodedByte c2) (base64DecodedByte c3)
  simp only [decodeGroup, List.take_succ_cons, List.take_zero, encodeBlocks, hb0, hb1, hb2,
    asciiOf_decodedByte _ h0, asciiOf_decodedByte _ h1]

theorem encodeBlocks_take_one (h0 : base64DecodedIsvalid c0) (c1 c2 c3 : UInt8) :
    encodeBlocks ((decodeGroup c0 c1 c2 c3).take 1) =
      [c0, asciiOf (base64DecodedByte c1 &&& 0x30), charByte '=', charByte '='] := by
  obtain ⟨hb0, -, -, -, hb1, -⟩ := blocks_decodeGroup (base64DecodedByte c0)
    (base64DecodedByte c1) (base64DecodedByte c2) (base64DecodedByte c3)
  simp only [decodeGroup, List.take_succ_cons, List.take_zero, encodeBlocks, hb0, hb1,
    asciiOf_decodedByte _ h0]

theorem clearDiscarded_cons (c0 c1 c2 c3 : UInt8) (h : rest ≠ []) :
    clearDiscarded (c0 :: c1 :: c2 :: c3 :: rest) =
      c0 :: c1 :: c2 :: c3 :: clearDiscarded rest := by
  cases rest with
  | nil => exact absurd rfl h
  | cons ch rest => rfl

theorem discardedBits_cons (c0 c1 c2 c3 : UInt8) (h : rest ≠ []) :
    discardedBits (c0 :: c1 :: c2 :: c3 :: rest) = discardedBits rest := by
  cases rest with
  | nil => exact absurd rfl h
  | cons ch rest => rfl

/-- What the loop makes of a text without white space is encoded to that text again, up to the
bits that are not taken up. -/
theorem Groups.encodeBlocks_eq (h : Groups text bytes padding whitespace) (hnone : whitespace = 0)
    (hpadded : PaddedAtEnd text) :
    encodeBlocks (bytes.take (bytes.length - padding)) = clearDiscarded text := by
  induction h with
  | nil => rfl
  | @last c0 c1 c2 c3 h0 h1 h2 h3 =>
    have hdata : ∀ ch : UInt8, base64DecodedIsvalid ch = true → ch ≠ charByte '=' := by
      rintro ch hch rfl
      cases hch
    rcases h2 with h2 | rfl
    · rcases h3 with h3 | rfl
      · have hencode := encodeBlocks_decodeGroup h0 h1 h2 h3 []
        rw [List.append_nil] at hencode
        rw [padOf_of_isvalid _ h2, padOf_of_isvalid _ h3, Nat.sub_zero, List.take_length,
          hencode, clearDiscarded, if_neg (hdata _ h2), if_neg (hdata _ h3), encodeBlocks]
      · simpa [padOf, hdata _ h2, clearDiscarded, length_decodeGroup] using
          encodeBlocks_take_two h0 h1 c2 (charByte '=')
    · rcases h3 with h3 | rfl
      · have hbad : base64DecodedIsvalid c3 = false := by
          simpa [PaddedAtEnd] using hpadded.of_cons.of_cons
        rw [h3] at hbad
        cases hbad
      · simpa [padOf, clearDiscarded, length_decodeGroup] using
          encodeBlocks_take_one h0 c1 (charByte '=') (charByte '=')
  | @group c0 c1 c2 c3 run rest bytes padding w h0 h1 h2 h3 hrun hrest htail ih =>
    obtain ⟨hrun0, hw⟩ := Nat.add_eq_zero_iff.mp hnone
    obtain rfl := List.eq_nil_of_length_eq_zero hrun0
    have hpad := htail.padding_le
    rw [List.nil_append] at hpadded ⊢
    have hcut : (decodeGroup c0 c1 c2 c3 ++ bytes).take
        ((decodeGroup c0 c1 c2 c3 ++ bytes).length - padding) =
          decodeGroup c0 c1 c2 c3 ++ bytes.take (bytes.length - padding) := by
      rw [List.length_append, Nat.add_sub_assoc hpad, List.take_length_add_append]
    rw [hcut, encodeBlocks_decodeGroup h0 h1 h2 h3, clearDiscarded_cons _ _ _ _ hrest,
      ih hw hpadded.of_cons.of_cons.of_cons.of_cons]

theorem asciiOf_clear : ∀ ch : UInt8, base64DecodedIsvalid ch = true →
    (asciiOf (base64DecodedByte ch &&& 0x30) = ch ↔ base64DecodedByte ch &&& 0x0F = 0) ∧
      (asciiOf (base64DecodedByte ch &&& 0x3C) = ch ↔ base64DecodedByte ch &&& 0x03 = 0) :=
  forall_byte (by decide +kernel)

theorem Groups.clearDiscarded_eq_iff (h : Groups text bytes padding whitespace)
    (hnone : whitespace = 0) : clearDiscarded text = text ↔ discardedBits text = 0 := by
  induction h with
  | nil => exact iff_of_true rfl rfl
  | @last c0 c1 c2 c3 h0 h1 h2 h3 =>
    simp only [clearDiscarded, discardedBits]
    split
    · simp [(asciiOf_clear c1 h1).1]
    · next hpad =>
      split
      · simp [(asciiOf_clear c2 (h2.resolve_right hpad)).2]
      · simp
  | @group c0 c1 c2 c3 run rest bytes padding w h0 h1 h2 h3 hrun hrest htail ih =>
    obtain ⟨hrun0, hw⟩ := Nat.add_eq_zero_iff.mp hnone
    obtain rfl := List.eq_nil_of_length_eq_zero hrun0
    rw [List.nil_append, clearDiscarded_cons _ _ _ _ hrest, discardedBits_cons _ _ _ _ hrest]
    simp [ih hw]

theorem Groups.bytes_ne_nil (h : Groups text bytes padding whitespace) (hne : text ≠ []) :
    bytes ≠ [] := by
  cases h with
  | nil => exact absurd rfl hne
  | last => exact List.cons_ne_nil _ _
  | group => exact List.cons_ne_nil _ _

/-- The text without its white space. -/
def dataOf (text : List UInt8) : List UInt8 := text.filter fun ch => !isWhitespace ch

theorem Groups.dataOf (h : Groups text bytes padding whitespace) :
    Groups (dataOf text) bytes padding 0 := by
  induction h with
  | nil => exact Groups.nil
  | last h0 h1 h2 h3 =>
    have hkept := Groups.last h0 h1 h2 h3
    simpa [Base64.dataOf, isWhitespace_of_isvalid _ h0, isWhitespace_of_isvalid _ h1,
      isWhitespace_of_isvalid_or h2, isWhitespace_of_isvalid_or h3] using hkept
  | @group c0 c1 c2 c3 run rest bytes padding w h0 h1 h2 h3 hrun hrest htail ih =>
    have hskip : run.filter (fun ch => !isWhitespace ch) = [] := by
      simpa [List.filter_eq_nil_iff] using hrun
    have hne : Base64.dataOf rest ≠ [] := by
      intro hnil
      rw [hnil] at ih
      obtain ⟨n, htext, hbytes⟩ := ih.length_eq
      rw [List.length_nil] at htext
      exact htail.bytes_ne_nil hrest (List.eq_nil_of_length_eq_zero (by omega))
    have hgroup := @Groups.group c0 c1 c2 c3 [] _ _ _ _ h0 h1 h2 h3 (by simp) hne ih
    simpa [Base64.dataOf, isWhitespace_of_isvalid _ h0, isWhitespace_of_isvalid _ h1,
      isWhitespace_of_isvalid _ h2, isWhitespace_of_isvalid _ h3, hskip] using hgroup

theorem dataOf_rdropWhile (text : List UInt8) :
    dataOf (text.rdropWhile isWhitespace) = dataOf text := by
  induction text using List.reverseRecOn with
  | nil => rfl
  | append_singleton text ch ih =>
    by_cases hch : isWhitespace ch = true
    · rw [List.rdropWhile_concat_pos _ _ _ hch, ih]
      simp [dataOf, hch]
    · rw [List.rdropWhile_concat_neg _ _ _ hch]

/-- **What is accepted is an encoding.**  A text that is decoded, without its white space and with
`=` only at its end, is what the bytes are encoded to, with zeros for the bits that the last
group does not use. -/
theorem encode_decode {text target out str : List UInt8} {len : Nat}
    (htarget : target.length = base64DecodedBufferLen text.length)
    (hok : esifBase64Decode (some target) (some target.length) (some text) text.length =
      some (esifOk, some len, some out))
    (hpadded : PaddedAtEnd (dataOf text)) (hstr : base64EncodedLength len ≤ str.length) :
    esifBase64Encode (some str) str.length (some (out.take len)) len =
        some (esifOk, some (overwrite str 0 (clearDiscarded (dataOf text) ++ [0]))) ∧
      (clearDiscarded (dataOf text) = dataOf text ↔ discardedBits (dataOf text) = 0) := by
  have hroom := Nat.le_of_eq htarget.symm
  have hshort : text.length ≤ maxBase64EncodedLen := by
    by_contra hlong
    simp [esifBase64Decode, Nat.lt_of_not_le hlong, esifOk, esifEParameterIsOutOfBounds] at hok
  rw [esifBase64Decode_eq hshort hroom] at hok
  by_cases hdecodable : Decodable text
  · obtain ⟨bytes, padding, whitespace, hgroups⟩ := hdecodable
    rw [decodeInto_of_groups hgroups hroom, if_pos htarget] at hok
    simp only [Option.map_some, Option.some.injEq, Prod.mk.injEq, true_and] at hok
    obtain ⟨rfl, rfl⟩ := hok
    have hdata := hgroups.dataOf
    rw [dataOf_rdropWhile] at hdata
    refine ⟨?_, hdata.clearDiscarded_eq_iff rfl⟩
    have hcut : (overwrite target 0 bytes).take (bytes.length - padding) =
        bytes.take (bytes.length - padding) := by
      simp [overwrite, List.take_append_of_le_length]
    have hlen : (bytes.take (bytes.length - padding)).length = bytes.length - padding := by
      simp
    rw [hcut, ← hdata.encodeBlocks_eq rfl hpadded]
    rw [← hlen] at hstr
    have hsource : base64EncodedLength (bytes.take (bytes.length - padding)).length ≤
        maxBase64EncodedLen := by
      obtain ⟨n, htext, hbytes⟩ := hgroups.length_eq
      have hle := length_rdropWhile_le text
      rw [hlen, base64EncodedLength]
      unfold maxBase64EncodedLen at hshort ⊢
      omega
    have hencode := esifBase64Encode_eq hsource hstr
    rwa [hlen] at hencode
  · obtain ⟨out', -, hout⟩ := decodeInto_of_not_decodable hdecodable hroom
    rw [hout] at hok
    simp [esifOk, esifECommandDataInvalid] at hok

/-- "Zh==": the 'h' carries a bit that no byte takes up. -/
def looseText : List UInt8 := [90, 104, 61, 61]

theorem decode_looseText : esifBase64Decode (some [7, 7, 7]) (some 3) (some looseText) 4 =
    some (esifOk, some 1, some [102, 16, 0]) := by
  decide +kernel

theorem encode_decode_looseText :
    esifBase64Encode (some (List.replicate 5 1)) 5 (some [102]) 1 =
        some (esifOk, some (overwrite (List.replicate 5 1) 0
          (clearDiscarded (dataOf looseText) ++ [0]))) ∧
      (clearDiscarded (dataOf looseText) = dataOf looseText ↔
        discardedBits (dataOf looseText) = 0) :=
  @encode_decode looseText [7, 7, 7] [102, 16, 0] (List.replicate 5 1) 1 (by decide)
    decode_looseText (by decide) (by decide)

/-- That text is accepted, and is not what its byte is encoded to. -/
theorem looseText_accepted :
    ¬∀ text target out str : List UInt8, ∀ len : Nat, (∀ ch ∈ text, ch ∉ spaces) →
      target.length = base64DecodedBufferLen text.length →
      esifBase64Decode (some target) (some target.length) (some text) text.length =
        some (esifOk, some len, some out) →
      str.length = base64EncodedLength len →
      esifBase64Encode (some str) str.length (some (out.take len)) len =
        some (esifOk, some (text ++ [0])) := by
  intro hall
  have hencode := hall looseText [7, 7, 7] [102, 16, 0] (List.replicate 5 1) 1 (by decide +kernel)
    (by decide) decode_looseText (by decide)
  exact absurd hencode (by decide +kernel)

end Base64

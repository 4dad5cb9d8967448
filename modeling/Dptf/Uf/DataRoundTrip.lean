import Dptf.Uf.DataText
import Dptf.Uf.TableColumns

/-!
# What text keeps of a value

The three ways text and `EsifData` meet: a value written and read again, a
hexadecimal literal, and a number whose type is guessed from its length.

* `roundTrips_iff` — a value comes back unless it is a negative byte or word,
  which is printed with a sign and then refused as out of range, or binary data
  whose text is longer than a string may be.
* `storesHex_iff` — a hexadecimal literal is stored as it is read just when it
  has an even number of digits and is no longer than that.
* `keepsNumber_iff` — a guessed number is kept just when it fits the word its
  number of digits stands for.
-/

open Lib

namespace Uf

open TableObject (AllOf allOf_of_all isBlank_of_isHexDigit isHexDigit_of_isDigit)

variable {text : List UInt8}

/-- The bytes an `EsifData` says it holds. -/
def heldBytes (d : EsifData) : List UInt8 := (d.bufPtr.getD []).take d.dataLen.toNat

theorem heldBytes_ownedData (type : EsifDataType) {bytes : List UInt8}
    (h : bytes.length < 2 ^ 32) : heldBytes (ownedData type bytes) = bytes := by
  simp only [heldBytes, ownedData, Option.getD_some, UInt32.toNat_ofNat']
  exact List.take_of_length_le (by omega)

/-! ## Numbers in text -/

set_option maxRecDepth 2000 in
theorem toUpper_of_isDigit : ∀ b : UInt8, isDigit b = true → toUpper b = b :=
  forall_byte (by decide)

/-- Digits do not start with `0x`. -/
theorem isHex_of_isDigit (h : AllOf isDigit text) : isHex text = false := by
  match text, h with
  | [], _ => rfl
  | [a], _ => simp [isHex]
  | a :: b :: rest, h =>
    have hb := h b (by simp)
    have hne : toUpper b ≠ 88 := by
      rw [toUpper_of_isDigit b hb]
      rintro rfl
      revert hb
      decide
    simp [isHex, hne]

theorem scanInt_digits {bits : Nat} (hne : text ≠ []) (h : AllOf isDigit text) :
    scanInt bits text = .number (decimalValue text % 2 ^ bits) := by
  have hhex := isHex_of_isDigit h
  have hall : text.takeWhile isDigit = text := List.takeWhile_eq_self_iff.mpr h
  cases text with
  | nil => exact absurd rfl hne
  | cons b rest =>
    have hb := h b (by simp)
    have hblank := isBlank_of_isHexDigit b (isHexDigit_of_isDigit b hb)
    have h45 : b ≠ 45 := by rintro rfl; revert hb; decide
    have h43 : b ≠ 43 := by rintro rfl; revert hb; decide
    rw [scanInt, List.dropWhile_cons_of_neg (by simp [hblank])]
    dsimp only
    rw [if_neg h45, if_neg h43, hhex, scanDigits]
    simp [hall]

theorem scanInt_negative {bits : Nat} (hne : text ≠ []) (h : AllOf isDigit text) :
    scanInt bits (45 :: text) = .number ((2 ^ bits - decimalValue text % 2 ^ bits) % 2 ^ bits) := by
  have hhex : isHex (45 :: text) = false := by
    cases text <;> simp [isHex, toUpper]
  have hall : text.takeWhile isDigit = text := List.takeWhile_eq_self_iff.mpr h
  rw [scanInt, List.dropWhile_cons_of_neg (by decide)]
  dsimp only
  rw [if_pos rfl, hhex, scanDigits]
  simp [hall, hne]

theorem scanInt_decimal (bits n : Nat) : scanInt bits (decimal n) = .number (n % 2 ^ bits) := by
  rw [scanInt_digits (decimal_ne_nil n) (fun _ => isDigit_decimal), decimalValue_decimal]

/-- A signed number is read with its sign into the word it is read into. -/
theorem scanInt_printSigned {bits b v : Nat} (hb : b ≤ bits) (hv : v < 2 ^ b) :
    scanInt bits (printSigned b v) =
      .number (if v < 2 ^ (b - 1) then v else 2 ^ bits - (2 ^ b - v)) := by
  have hle : 2 ^ b ≤ 2 ^ bits := Nat.pow_le_pow_right (by decide) hb
  unfold printSigned
  split
  case isTrue =>
    rw [scanInt_decimal, Nat.mod_eq_of_lt (by omega)]
  case isFalse hneg =>
    have hpos : 0 < 2 ^ (b - 1) := Nat.two_pow_pos _
    rw [scanInt_negative (decimal_ne_nil _) (fun _ => isDigit_decimal), decimalValue_decimal]
    congr 1
    by_cases hb0 : b = 0
    · subst hb0
      simp at hv
      omega
    · have hsmall : 2 ^ b - v < 2 ^ bits := by omega
      rw [Nat.mod_eq_of_lt hsmall, Nat.mod_eq_of_lt (by omega)]

/-- A short number is copied as it is. -/
theorem intString_eq {alloc : Nat} (h : text.length ≤ 21) (ha : text.length ≤ alloc - 1) :
    intString alloc text = text := by
  rw [intString, List.take_of_length_le h, List.take_of_length_le ha]

theorem length_printSigned_le {b v k : Nat} (hk : k ≠ 0) (hv : v < 2 ^ b)
    (hlt : 2 ^ (b - 1) < 10 ^ k) : (printSigned b v).length ≤ k + 1 := by
  unfold printSigned
  split
  · have := length_decimal_le hk (show v < 10 ^ k by omega)
    omega
  · have htwo : 2 ^ b ≤ 2 * 2 ^ (b - 1) := by
      cases b with
      | zero => simp
      | succ b => rw [Nat.pow_succ, Nat.add_sub_cancel]; omega
    have := length_decimal_le hk (show 2 ^ b - v < 10 ^ k by omega)
    simp only [List.length_cons]
    omega

/-- The text of a number before it is copied. -/
def plainText (long64 : Bool) (type : EsifDataType) (v : Nat) : List UInt8 :=
  match type with
  | .int8 => printSigned 8 v
  | .int16 => printSigned 16 v
  | .int32 => printSigned (if long64 then 64 else 32) v
  | .int64 => printSigned 64 v
  | _ => decimal v

theorem printSigned_ne_nil (b v : Nat) : printSigned b v ≠ [] := by
  unfold printSigned
  split
  · exact decimal_ne_nil v
  · simp

theorem plainText_ne_nil (long64 : Bool) (type : EsifDataType) (v : Nat) :
    plainText long64 type v ≠ [] := by
  unfold plainText
  split <;> first | exact printSigned_ne_nil _ _ | exact decimal_ne_nil _

/-- The result has room for every number of its type. -/
theorem numberText_eq (long64 : Bool) {type : EsifDataType} {w v : Nat}
    (hw : type.width = some w) (hv : v < 256 ^ w) :
    numberText long64 type v = plainText long64 type v := by
  have hsigned (alloc b k : Nat) (hk : k ≠ 0) (hb : v < 2 ^ b) (hlt : 2 ^ (b - 1) < 10 ^ k)
      (h21 : k + 1 ≤ 21) (ha : k + 1 ≤ alloc - 1) :
      intString alloc (printSigned b v) = printSigned b v := by
    have hlen := length_printSigned_le hk hb hlt
    exact intString_eq (by omega) (by omega)
  have hplain (alloc k : Nat) (hk : k ≠ 0) (hlt : v < 10 ^ k) (h21 : k ≤ 21) (ha : k ≤ alloc - 1) :
      intString alloc (decimal v) = decimal v := by
    have hlen := length_decimal_le hk hlt
    exact intString_eq (by omega) (by omega)
  cases type <;> cases hw
  case int8 => exact hsigned 5 8 3 (by decide) hv (by decide) (by decide) (by decide)
  case int16 => exact hsigned 7 16 5 (by decide) (by omega) (by decide) (by decide) (by decide)
  case int64 => exact hsigned 22 64 19 (by decide) (by omega) (by decide) (by decide) (by decide)
  case int32 =>
    cases long64
    · exact hsigned 12 32 10 (by decide) (by omega) (by decide) (by decide) (by decide)
    · show intString 12 (printSigned 64 v) = printSigned 64 v
      rw [printSigned, if_pos (by omega)]
      exact hplain 12 10 (by decide) (by omega) (by decide) (by decide)
  case uint8 => exact hplain 5 3 (by decide) (by omega) (by decide) (by decide)
  case uint16 => exact hplain 7 5 (by decide) (by omega) (by decide) (by decide)
  case uint64 | frequency => exact hplain 22 20 (by decide) (by omega) (by decide) (by decide)
  all_goals exact hplain 12 10 (by decide) (by omega) (by decide) (by decide)

section RoundTrip

variable (temperature : List UInt8 → Option UInt32)
variable {bytes text rest digits : List UInt8} {type : EsifDataType} {maxLength bufLen : UInt32}

/-- A number of few bits is read back as 32 of them, and so a negative one is past the limit. -/
theorem filter_printSigned {bits v : Nat} (limit : Nat) (hbits : bits < 32) (hpos : 0 < bits)
    (hlimit : limit = 2 ^ bits - 1) (hv : v < 2 ^ bits) :
    (scanInt 32 (printSigned bits v)).word?.filter (· ≤ limit) =
      if 2 ^ (bits - 1) ≤ v then none else some v := by
  have hhalf : 2 ^ bits = 2 * 2 ^ (bits - 1) := by
    rw [← Nat.pow_succ', Nat.succ_eq_add_one, Nat.sub_add_cancel hpos]
  have hless : 2 ^ bits ≤ 2 ^ 31 := Nat.pow_le_pow_right (by decide) (by omega)
  rw [scanInt_printSigned hbits.le hv]
  by_cases hneg : 2 ^ (bits - 1) ≤ v
  · rw [if_neg (by omega), if_pos hneg]
    simp [Scan.word?, Option.filter]
    omega
  · have hsmall : v ≤ limit := by omega
    rw [if_pos (by omega), if_neg hneg]
    simp [Scan.word?, Option.filter, hsmall]

/-- **A number is read as it was written**, but a negative byte or word is out of range. -/
theorem numberOf_plainText (long64 : Bool) {w v : Nat} (hw : type.width = some w)
    (htemp : type ≠ .temperature) (hv : v < 256 ^ w) :
    numberOf temperature type (plainText long64 type v) =
      if (type = .int8 ∨ type = .int16) ∧ 2 ^ (8 * w - 1) ≤ v then none else some v := by
  have hscan {bits : Nat} (hb : v < 2 ^ bits) : (scanInt bits (decimal v)).word? = some v := by
    rw [scanInt_decimal, Nat.mod_eq_of_lt hb]
    rfl
  have hlimited {limit : Nat} (hb : v < 2 ^ 32) (hle : v ≤ limit) :
      (scanInt 32 (decimal v)).word?.filter (· ≤ limit) = some v := by
    rw [hscan hb]
    simp [Option.filter, hle]
  have hsigned {bits : Nat} (hb : v < 2 ^ bits) :
      (scanInt bits (printSigned bits v)).word? = some v := by
    rw [scanInt_printSigned (le_refl bits) hb]
    split
    · rfl
    · rw [Nat.sub_sub_self (by omega)]
      rfl
  cases type <;> cases hw
  case int8 =>
    refine (filter_printSigned 0xff (by decide) (by decide) (by decide) hv).trans ?_
    exact if_congr (by simp) rfl rfl
  case int16 =>
    refine (filter_printSigned 0xffff (by decide) (by decide) (by decide) (by omega)).trans ?_
    exact if_congr (by simp) rfl rfl
  case temperature => exact absurd rfl htemp
  case int32 =>
    refine Eq.trans ?_ (if_neg (by simp)).symm
    cases long64
    · exact @hsigned 32 (by omega)
    · show (scanInt 32 (printSigned 64 v)).word? = some v
      rw [printSigned, if_pos (by omega)]
      exact hscan (by omega)
  case int64 =>
    show (scanInt 64 (printSigned 64 v)).word? = _
    rw [if_neg (by simp)]
    exact hsigned (by omega)
  case uint64 | frequency =>
    show (scanInt 64 (decimal v)).word? = _
    rw [if_neg (by simp)]
    exact hscan (by omega)
  case uint8 =>
    show ((scanInt 32 (decimal v)).word?.filter (· ≤ 0xff)) = _
    rw [if_neg (by simp)]
    exact hlimited (by omega) (by omega)
  case uint16 =>
    show ((scanInt 32 (decimal v)).word?.filter (· ≤ 0xffff)) = _
    rw [if_neg (by simp)]
    exact hlimited (by omega) (by omega)
  all_goals
    show (scanInt 32 (decimal v)).word? = _
    rw [if_neg (by simp)]
    exact hscan (by omega)

/-! ## Values -/

/-- A value of a number type in its width, or binary data that the text has room for. -/
def Writable (type : EsifDataType) (bytes : List UInt8) (maxLength : UInt32) : Prop :=
  type ≠ .temperature ∧ type.width = some bytes.length ∨
    type = .binary ∧ bytes ≠ [] ∧ bytes.length ≤ maxBinary maxLength

/-- A value that is written and read again is read, and is the one written.  The bytes in
`rest` are capacity behind the data. -/
def RoundTrips (long64 : Bool) (type : EsifDataType) (bytes rest : List UInt8)
    (bufLen maxLength : UInt32) : Prop :=
  ∃ text d, toStringMax long64 ⟨type.code, some (bytes ++ rest), bufLen,
      UInt32.ofNat bytes.length⟩ maxLength = some text ∧
    fromString temperature (some text) type = (esifOk, d) ∧ heldBytes d = bytes

theorem length_lt_of_writable (h : Writable type bytes maxLength) :
    bytes.length ≠ 0 ∧ bytes.length < 2 ^ 32 := by
  have hmax : maxBinary maxLength < 2 ^ 32 := by
    unfold maxBinary maxString maxLine
    split <;> omega
  rcases h with ⟨-, hw⟩ | ⟨-, hne, hle⟩
  · have hwidth : ∀ t : EsifDataType, ∀ w, t.width = some w → w ≠ 0 ∧ w ≤ 8 := by
      intro t w ht
      cases t <;> cases ht <;> decide
    obtain ⟨hz, hle⟩ := hwidth type _ hw
    exact ⟨hz, by omega⟩
  · exact ⟨fun h => hne (List.eq_nil_of_length_eq_zero h), by omega⟩

theorem fromString_number {w : Nat} (hw : type.width = some w) (hne : text ≠ []) :
    fromString temperature (some text) type = match numberOf temperature type text with
      | some v => (esifOk, ownedData type (leEnc w v))
      | none => (esifECommandDataInvalid, ownedData type (List.replicate w 0)) := by
  have hauto : type ≠ .auto := by
    rintro rfl
    cases hw
  cases text with
  | nil => exact absurd rfl hne
  | cons b text =>
    cases hnumber : numberOf temperature type (b :: text) with
    | none => simp only [fromString, hauto, if_false, hw, hnumber]
    | some v => simp only [fromString, hauto, if_false, hw, hnumber]

theorem roundTrips_number_iff (long64 : Bool) (htemp : type ≠ .temperature)
    (hw : type.width = some bytes.length) :
    RoundTrips temperature long64 type bytes rest bufLen maxLength ↔
      ((type = .int8 ∨ type = .int16) → leDec bytes < 2 ^ (8 * bytes.length - 1)) := by
  have hv := leDec_lt bytes
  obtain ⟨hz, hlt⟩ := length_lt_of_writable (Or.inl ⟨htemp, hw⟩ : Writable type bytes maxLength)
  have hlen : (UInt32.ofNat bytes.length).toNat = bytes.length := by
    rw [UInt32.toNat_ofNat']
    omega
  have hnz : UInt32.ofNat bytes.length ≠ 0 := by
    intro h
    have := congrArg UInt32.toNat h
    rw [hlen] at this
    exact hz this
  have htext : toStringMax long64 ⟨type.code, some (bytes ++ rest), bufLen,
      UInt32.ofNat bytes.length⟩ maxLength = some (plainText long64 type (leDec bytes)) := by
    simp [toStringMax, hnz, hw, numberText_eq long64 hw hv]
  simp only [RoundTrips, htext, Option.some.injEq, exists_and_left, exists_eq_left']
  rw [fromString_number temperature hw (plainText_ne_nil _ _ _),
    numberOf_plainText temperature long64 hw htemp hv]
  by_cases hneg : (type = .int8 ∨ type = .int16) ∧ 2 ^ (8 * bytes.length - 1) ≤ leDec bytes
  · rw [if_pos hneg]
    refine iff_of_false ?_ fun h => absurd (h hneg.1) (by omega)
    rintro ⟨d, hd, -⟩
    exact absurd (congrArg Prod.fst hd) (show esifECommandDataInvalid ≠ esifOk by decide)
  · rw [if_neg hneg]
    refine iff_of_true ⟨_, rfl, ?_⟩ fun h => by
      by_contra hge
      exact hneg ⟨h, by omega⟩
    rw [leEnc_leDec, heldBytes_ownedData type hlt]

/-! ## Binary data -/

/-- The loop over the pairs reads hexadecimal digits two to a byte. -/
theorem hexPairs_eq (h : AllOf isHexDigit digits) (k : Nat) :
    hexPairs k digits = (hexBytes digits).take k := by
  induction k generalizing digits with
  | zero => simp [hexPairs]
  | succ k ih =>
    match digits, h with
    | [], _ => simp [hexPairs, hexBytes]
    | [_], _ => simp [hexPairs, hexBytes]
    | a :: b :: rest, h =>
      have ha := h a (by simp)
      have hb := h b (by simp)
      rw [hexPairs, if_pos (by simp [ha, hb]), ih fun c hc => h c (by simp [hc]), hexBytes,
        List.take_succ_cons]

theorem length_hexPairs_le (k : Nat) (text : List UInt8) : (hexPairs k text).length ≤ k := by
  induction k generalizing text with
  | zero => simp [hexPairs]
  | succ k ih =>
    match text with
    | [] => simp [hexPairs]
    | [_] => simp [hexPairs]
    | a :: b :: rest =>
      rw [hexPairs]
      split
      · exact Nat.succ_le_succ (ih rest)
      · simp

/-- The bytes a literal has room for. -/
def literalRoom (digits : List UInt8) : Nat := min (digits.length + 2) maxAutoLen / 2 - 1

theorem literalRoom_lt (digits : List UInt8) : literalRoom digits < 2 ^ 32 := by
  unfold literalRoom maxAutoLen
  omega

theorem isHex_literal (digits : List UInt8) : isHex (48 :: 120 :: digits) = true := by
  simp [isHex, toUpper]

/-- No literal stores more than it has room for. -/
theorem dataLen_binaryOf_le (digits : List UInt8) :
    (binaryOf (48 :: 120 :: digits)).dataLen.toNat ≤ literalRoom digits := by
  have hroom := literalRoom_lt digits
  have hlen (bytes : List UInt8) (h : bytes.length ≤ literalRoom digits) :
      (UInt32.ofNat bytes.length).toNat ≤ literalRoom digits := by
    rw [UInt32.toNat_ofNat']
    omega
  rw [binaryOf, if_pos (isHex_literal digits)]
  rw [show min (48 :: 120 :: digits).length maxAutoLen / 2 - 1 = literalRoom digits from rfl]
  by_cases hz : literalRoom digits = 0
  · rw [if_pos hz]
    exact Nat.zero_le _
  · rw [if_neg hz]
    refine hlen _ ?_
    split
    · have := length_hexPairs_le (literalRoom digits - 1) ((48 :: 120 :: digits).drop 3)
      simp only [List.length_cons]
      omega
    · exact length_hexPairs_le _ _

/-- A literal whose length is even, as far as it is looked at, is read from its first digit on. -/
theorem heldBytes_binaryOf (hhex : AllOf isHexDigit digits)
    (heven : min (digits.length + 2) maxAutoLen % 2 = 0) :
    heldBytes (binaryOf (48 :: 120 :: digits)) = (hexBytes digits).take (literalRoom digits) ∧
      (binaryOf (48 :: 120 :: digits)).dataLen =
        UInt32.ofNat ((hexBytes digits).take (literalRoom digits)).length := by
  have hroom := literalRoom_lt digits
  rw [binaryOf, if_pos (isHex_literal digits)]
  rw [show min (48 :: 120 :: digits).length maxAutoLen / 2 - 1 = literalRoom digits from rfl,
    show min (48 :: 120 :: digits).length maxAutoLen = min (digits.length + 2) maxAutoLen from rfl]
  by_cases hz : literalRoom digits = 0
  · rw [if_pos hz, hz]
    simp [heldBytes]
  · rw [if_neg hz, if_neg (by omega), show (48 :: 120 :: digits).drop 2 = digits from rfl,
      hexPairs_eq hhex]
    refine ⟨?_, rfl⟩
    have hle : ((hexBytes digits).take (literalRoom digits)).length ≤ literalRoom digits := by simp
    have hsame : (UInt32.ofNat ((hexBytes digits).take (literalRoom digits)).length).toNat =
        ((hexBytes digits).take (literalRoom digits)).length := by
      rw [UInt32.toNat_ofNat']
      omega
    simp only [heldBytes, Option.getD_some, hsame]
    exact List.take_left

theorem fromString_binary (hne : text ≠ []) :
    fromString temperature (some text) .binary = (esifOk, binaryOf text) := by
  cases text with
  | nil => exact absurd rfl hne
  | cons b text =>
    have htype : (binaryOf (b :: text)).type = EsifDataType.binary.code := by
      unfold binaryOf
      dsimp only
      split
      · split <;> rfl
      · rfl
    show (esifOk, { binaryOf (b :: text) with type := EsifDataType.binary.code }) = _
    rw [← htype]

theorem roundTrips_binary_iff (long64 : Bool) (hne : bytes ≠ [])
    (hmax : bytes.length ≤ maxBinary maxLength) :
    RoundTrips temperature long64 .binary bytes rest bufLen maxLength ↔ bytes.length ≤ 32767 := by
  obtain ⟨hz, hlt⟩ := length_lt_of_writable
    (Or.inr ⟨rfl, hne, hmax⟩ : Writable .binary bytes maxLength)
  have hlen : (UInt32.ofNat bytes.length).toNat = bytes.length := by
    rw [UInt32.toNat_ofNat']
    omega
  have hnz : UInt32.ofNat bytes.length ≠ 0 := by
    intro h
    have := congrArg UInt32.toNat h
    rw [hlen] at this
    exact hz this
  have htext : toStringMax long64 ⟨EsifDataType.binary.code, some (bytes ++ rest), bufLen,
      UInt32.ofNat bytes.length⟩ maxLength = some (48 :: 120 :: hexText bytes) := by
    have hall : bytes.take (maxBinary maxLength) = bytes := List.take_of_length_le hmax
    have hwidth : EsifDataType.binary.width = none := rfl
    have htextual : EsifDataType.binary.isText = false := rfl
    simp only [toStringMax, hnz, if_false, EsifDataType.ofCode_code, hwidth, htextual, hlen,
      List.take_left, hall, reduceCtorEq, Bool.false_eq_true]
    rw [if_neg (by omega)]
    simp
  have htextLen := length_hexText bytes
  obtain ⟨hheld, -⟩ := heldBytes_binaryOf (fun _ => isHexDigit_hexText)
    (show min ((hexText bytes).length + 2) maxAutoLen % 2 = 0 by
      rw [htextLen]
      unfold maxAutoLen
      omega)
  simp only [RoundTrips, htext, Option.some.injEq, exists_and_left, exists_eq_left']
  rw [fromString_binary temperature (by simp)]
  simp only [Prod.mk.injEq, true_and, exists_eq_left']
  rw [hheld, hexBytes_hexText, List.take_eq_self_iff, literalRoom, htextLen, maxAutoLen]
  omega

/-- **A value comes back from its text** unless it is a negative `INT8` or `INT16`, whose sign
takes it out of the range it is read in, or binary data whose text is cut. -/
theorem roundTrips_iff (long64 : Bool) {type : EsifDataType} {bytes rest : List UInt8}
    {bufLen maxLength : UInt32} (h : Writable type bytes maxLength) :
    RoundTrips temperature long64 type bytes rest bufLen maxLength ↔
      ((type = .int8 ∨ type = .int16) → leDec bytes < 2 ^ (8 * bytes.length - 1)) ∧
        (type = .binary → bytes.length ≤ 32767) := by
  rcases h with ⟨htemp, hw⟩ | ⟨rfl, hne, hmax⟩
  · have hbin : type ≠ .binary := by
      rintro rfl
      cases hw
    rw [roundTrips_number_iff temperature long64 htemp hw]
    exact (and_iff_left fun h => absurd h hbin).symm
  · rw [roundTrips_binary_iff temperature long64 hne hmax]
    simp

/-! ## Literals and guesses -/

/-- A hexadecimal literal is stored in half as many bytes, one more where a digit is left over,
and the first byte is the leading one. -/
def StoresHex (digits : List UInt8) : Prop :=
  ∃ d, fromString temperature (some (48 :: 120 :: digits)) .binary = (esifOk, d) ∧
    d.dataLen.toNat = (digits.length + 1) / 2 ∧
    leDec (heldBytes d).reverse = hexValue digits

/-- **A literal is read right when its digits come in pairs** and the text is not cut. -/
theorem storesHex_iff {digits : List UInt8} (hhex : AllOf isHexDigit digits) (hne : digits ≠ []) :
    StoresHex temperature digits ↔ digits.length % 2 = 0 ∧ digits.length ≤ 65534 := by
  have hz : digits.length ≠ 0 := fun h => hne (List.eq_nil_of_length_eq_zero h)
  simp only [StoresHex, fromString_binary temperature (List.cons_ne_nil _ _), Prod.mk.injEq,
    true_and, exists_eq_left']
  by_cases hgo : digits.length % 2 = 0 ∧ digits.length ≤ 65534
  · obtain ⟨hheld, hlen⟩ := heldBytes_binaryOf hhex (by unfold maxAutoLen; omega)
    have hpairs : digits.length = 2 * (digits.length / 2) := by omega
    have hall : (hexBytes digits).take (literalRoom digits) = hexBytes digits := by
      refine List.take_of_length_le ?_
      rw [length_hexBytes hpairs, literalRoom, maxAutoLen]
      omega
    rw [hheld, hlen, hall, length_hexBytes hpairs, hexValue_eq_leDec hpairs hhex,
      UInt32.toNat_ofNat']
    exact iff_of_true ⟨by omega, rfl⟩ hgo
  · have hle := dataLen_binaryOf_le digits
    refine iff_of_false ?_ hgo
    rintro ⟨hlen, -⟩
    rw [hlen, literalRoom, maxAutoLen] at hle
    omega

/-- The number that automatic typing stores for digits is the number they stand for. -/
def KeepsNumber (text : List UInt8) : Prop :=
  ∀ d, fromString temperature (some text) .auto = (esifOk, d) →
    d.type = EsifDataType.uint32.code ∨ d.type = EsifDataType.uint64.code →
    leDec (heldBytes d) = decimalValue text

/-- **A guessed number is kept when it fits** the word guessed from the number of its digits. -/
theorem keepsNumber_iff {text : List UInt8} (hdigits : AllOf isDigit text) (hne : text ≠ [])
    (hlen : text.length ≤ 20) :
    KeepsNumber temperature text ↔
      decimalValue text < if text.length ≤ 10 then 2 ^ 32 else 2 ^ 64 := by
  have hscan (bits : Nat) : (scanInt bits text).word? = some (decimalValue text % 2 ^ bits) := by
    rw [scanInt_digits hne hdigits]
    rfl
  have htype : autoType text = if text.length ≤ 10 then .uint32 else .uint64 := by
    have hhex := isHex_of_isDigit hdigits
    cases text with
    | nil => exact absurd rfl hne
    | cons b rest =>
      have hb := hdigits b (by simp)
      have hrest : rest.all isDigit = true :=
        List.all_eq_true.mpr fun c hc => hdigits c (by simp [hc])
      unfold autoType
      simp only [hhex, hb, hrest, if_true, Bool.false_eq_true, if_false, or_true]
      split <;> rfl
  have hread : fromString temperature (some text) .auto =
      fromString temperature (some text) (autoType text) := by
    cases text with
    | nil => exact absurd rfl hne
    | cons b rest =>
      have hauto : autoType (b :: rest) ≠ .auto := by
        rw [htype]
        split <;> simp
      simp [fromString, hauto]
  have hkeeps {type : EsifDataType} {w : Nat} (hw : type.width = some w) (hw8 : w ≤ 8)
      (hcode : type.code = EsifDataType.uint32.code ∨ type.code = EsifDataType.uint64.code)
      (hauto : autoType text = type)
      (hnum : numberOf temperature type text = some (decimalValue text % 256 ^ w)) :
      KeepsNumber temperature text ↔ decimalValue text < 256 ^ w := by
    have hheld : heldBytes (ownedData type (leEnc w (decimalValue text % 256 ^ w))) =
        leEnc w (decimalValue text % 256 ^ w) :=
      heldBytes_ownedData type (by rw [length_leEnc]; omega)
    have hval : leDec (leEnc w (decimalValue text % 256 ^ w)) = decimalValue text % 256 ^ w := by
      rw [leDec_leEnc, Nat.mod_mod]
    unfold KeepsNumber
    rw [hread, hauto, fromString_number temperature hw hne, hnum]
    simp only [Prod.mk.injEq, true_and, forall_eq']
    rw [hheld, hval]
    refine ⟨fun h => ?_, fun h _ => Nat.mod_eq_of_lt h⟩
    rw [← h hcode]
    exact Nat.mod_lt _ (Nat.pow_pos (by decide))
  by_cases h10 : text.length ≤ 10
  · rw [if_pos h10] at htype ⊢
    exact @hkeeps .uint32 4 rfl (by decide) (Or.inl rfl) htype (hscan 32)
  · rw [if_neg h10] at htype ⊢
    exact @hkeeps .uint64 8 rfl (by decide) (Or.inr rfl) htype (hscan 64)

end RoundTrip

/-! ## Where they part -/

/-- Minus five as a byte. -/
theorem not_roundTrips_minusFive :
    ¬ RoundTrips (fun _ => none) true .int8 [0xfb] [] 1 0 := by
  rintro ⟨text, d, htext, hread, -⟩
  have hshown : toStringMax true ⟨EsifDataType.int8.code, some ([0xfb] ++ []), 1,
      UInt32.ofNat [(0xfb : UInt8)].length⟩ 0 = some [45, 53] := by decide +kernel
  rw [hshown] at htext
  cases htext
  have hrefused : (fromString (fun _ => none) (some [45, 53]) .int8).1 =
      esifECommandDataInvalid := by decide +kernel
  rw [hread] at hrefused
  exact absurd hrefused (show esifOk ≠ esifECommandDataInvalid by decide)

/-- Five as a byte. -/
theorem roundTrips_five : RoundTrips (fun _ => none) true .int8 [5] [] 1 0 :=
  (roundTrips_iff (fun _ => none) true (Or.inl ⟨by decide, rfl⟩)).mpr
    ⟨fun _ => by decide, fun h => by cases h⟩

/-- `0xABC`. -/
theorem not_storesHex_abc : ¬ StoresHex (fun _ => none) [65, 66, 67] := by
  rintro ⟨d, hd, hlen, -⟩
  have hread : fromString (fun _ => none) (some [48, 120, 65, 66, 67]) .binary =
      (esifOk, ⟨7, some [0], 1, 1⟩) := by decide +kernel
  rw [hread] at hd
  obtain rfl := (Prod.mk.inj hd).2
  revert hlen
  decide

/-- `0xAB`. -/
theorem storesHex_ab : StoresHex (fun _ => none) [65, 66] :=
  (storesHex_iff (fun _ => none) (allOf_of_all rfl) (by decide)).mpr (by decide)

/-- `4294967296` is stored as zero. -/
theorem not_keepsNumber_twoPow32 :
    ¬ KeepsNumber (fun _ => none) [52, 50, 57, 52, 57, 54, 55, 50, 57, 54] := by
  intro h
  have hread : fromString (fun _ => none) (some [52, 50, 57, 52, 57, 54, 55, 50, 57, 54]) .auto =
      (esifOk, ⟨3, some [0, 0, 0, 0], 4, 4⟩) := by decide +kernel
  have hkept := h _ hread (Or.inl rfl)
  revert hkept
  decide

/-- `42`. -/
theorem keepsNumber_fortyTwo : KeepsNumber (fun _ => none) [52, 50] :=
  (keepsNumber_iff (fun _ => none) (allOf_of_all rfl) (by decide) (by decide)).mpr (by decide)

end Uf

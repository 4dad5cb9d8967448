import Mathlib.Data.List.Induction
import Mathlib.Data.Nat.Digits.Lemmas
import Dptf.Lib.Bytes

/-!
# Numerals in text

Text is a list of ASCII bytes.
-/

namespace Lib

section Numeral

variable {n : Nat} {text : List UInt8}

/-! ## Base ten -/

/-- `isdigit`. -/
def isDigit (b : UInt8) : Bool := 48 ≤ b && b ≤ 57

/-- The number that digits stand for. -/
def decimalValue (text : List UInt8) : Nat :=
  text.foldl (fun v b => 10 * v + (b.toNat - 48)) 0

/-- A number in base ten, without leading zeros. -/
def decimal (n : Nat) : List UInt8 :=
  if n = 0 then [48] else (Nat.digits 10 n).reverse.map fun d => UInt8.ofNat (48 + d)

theorem decimalValue_append_singleton (text : List UInt8) (b : UInt8) :
    decimalValue (text ++ [b]) = 10 * decimalValue text + (b.toNat - 48) := by
  simp [decimalValue, List.foldl_append]

theorem decimalValue_digits {ds : List Nat} (h : ∀ d ∈ ds, d < 10) :
    decimalValue (ds.reverse.map fun d => UInt8.ofNat (48 + d)) = Nat.ofDigits 10 ds := by
  induction ds with
  | nil => rfl
  | cons d ds ih =>
    have hd := h d (by simp)
    have hbyte : (UInt8.ofNat (48 + d)).toNat = 48 + d := by
      rw [UInt8.toNat_ofNat']
      omega
    rw [List.reverse_cons, List.map_append, List.map_singleton, decimalValue_append_singleton,
      ih fun e he => h e (by simp [he]), hbyte, Nat.ofDigits_cons]
    omega

/-- **Reading what was written.** -/
theorem decimalValue_decimal (n : Nat) : decimalValue (decimal n) = n := by
  unfold decimal
  split
  · next h => rw [h]; rfl
  · rw [decimalValue_digits fun d hd => Nat.digits_lt_base (by decide) hd, Nat.ofDigits_digits]

theorem decimal_injective {m n : Nat} (h : decimal m = decimal n) : m = n := by
  rw [← decimalValue_decimal m, h, decimalValue_decimal]

theorem decimal_ne_nil (n : Nat) : decimal n ≠ [] := by
  unfold decimal
  split
  · simp
  · next h => simpa using Nat.digits_ne_nil_iff_ne_zero.mpr h

/-- A number is written in digits. -/
theorem isDigit_decimal {b : UInt8} (h : b ∈ decimal n) : isDigit b = true := by
  unfold decimal at h
  split at h
  · obtain rfl := List.mem_singleton.mp h
    decide
  · obtain ⟨d, hd, rfl⟩ := List.mem_map.mp h
    have hlt := Nat.digits_lt_base (by decide) (List.mem_reverse.mp hd)
    exact (by decide : ∀ d < 10, isDigit (UInt8.ofNat (48 + d)) = true) d hlt

/-- A number below `10 ^ k` has at most `k` digits. -/
theorem length_decimal_le {n k : Nat} (hk : k ≠ 0) (h : n < 10 ^ k) : (decimal n).length ≤ k := by
  unfold decimal
  split
  · simp
    omega
  · rw [List.length_map, List.length_reverse]
    exact (Nat.digits_length_le_iff (by decide) n).mpr h

/-! ## Base sixteen -/

/-- `isxdigit`. -/
def isHexDigit (b : UInt8) : Bool :=
  48 ≤ b && b ≤ 57 || 65 ≤ b && b ≤ 70 || 97 ≤ b && b ≤ 102

/-- The number a hexadecimal digit stands for. -/
def hexVal (b : UInt8) : Nat :=
  if b ≤ 57 then b.toNat - 48 else if b ≤ 70 then b.toNat - 55 else b.toNat - 87

/-- The digit of a number below 16, in capitals. -/
def hexDigit (n : Nat) : UInt8 := UInt8.ofNat (if n < 10 then 48 + n else 55 + n)

/-- `toupper`. -/
def toUpper (b : UInt8) : UInt8 := if 97 ≤ b && b ≤ 122 then b - 32 else b

/-- The number that hexadecimal digits stand for. -/
def hexValue (text : List UInt8) : Nat := text.foldl (fun v b => 16 * v + hexVal b) 0

/-- The bytes that hexadecimal digits stand for, two to a byte. -/
def hexBytes : List UInt8 → List UInt8
  | a :: b :: text => UInt8.ofNat (16 * hexVal a + hexVal b) :: hexBytes text
  | _ => []

/-- Bytes in hexadecimal, two digits each. -/
def hexText (bytes : List UInt8) : List UInt8 :=
  bytes.flatMap fun b => [hexDigit (b.toNat / 16), hexDigit (b.toNat % 16)]

set_option maxRecDepth 2000 in
theorem hexVal_lt : ∀ b : UInt8, isHexDigit b = true → hexVal b < 16 :=
  forall_byte (by decide)

set_option maxRecDepth 2000 in
theorem exists_pair (h : text.length = 2 * (n + 1)) :
    ∃ a b rest, text = a :: b :: rest ∧ rest.length = 2 * n := by
  match text, h with
  | a :: b :: rest, h =>
    simp only [List.length_cons] at h
    exact ⟨a, b, rest, rfl, by omega⟩

theorem length_hexBytes (h : text.length = 2 * n) : (hexBytes text).length = n := by
  induction n generalizing text with
  | zero =>
    obtain rfl := List.length_eq_zero_iff.mp h
    rfl
  | succ n ih =>
    obtain ⟨a, b, rest, rfl, hrest⟩ := exists_pair h
    rw [hexBytes, List.length_cons, ih hrest]

theorem toNat_hexPair {a b : UInt8} (ha : isHexDigit a = true) (hb : isHexDigit b = true) :
    (UInt8.ofNat (16 * hexVal a + hexVal b)).toNat = 16 * hexVal a + hexVal b := by
  have := hexVal_lt a ha
  have := hexVal_lt b hb
  rw [UInt8.toNat_ofNat']
  omega

theorem hexVal_hexDigit : ∀ {n : Nat}, n < 16 → hexVal (hexDigit n) = n := by
  decide

theorem isHexDigit_hexDigit : ∀ {n : Nat}, n < 16 → isHexDigit (hexDigit n) = true := by
  decide

theorem isHexDigit_hexText {bytes : List UInt8} {b : UInt8} (h : b ∈ hexText bytes) :
    isHexDigit b = true := by
  obtain ⟨c, -, hb⟩ := List.mem_flatMap.mp h
  have hc := c.toNat_lt
  simp only [List.mem_cons, List.not_mem_nil, or_false] at hb
  rcases hb with rfl | rfl
  · exact isHexDigit_hexDigit (by omega)
  · exact isHexDigit_hexDigit (by omega)

theorem length_hexText (bytes : List UInt8) : (hexText bytes).length = 2 * bytes.length := by
  simp [hexText, List.length_flatMap, Nat.mul_comm]

/-- **Bytes written and read again** are the bytes. -/
theorem hexBytes_hexText (bytes : List UInt8) : hexBytes (hexText bytes) = bytes := by
  induction bytes with
  | nil => rfl
  | cons b bytes ih =>
    have hb := b.toNat_lt
    rw [hexText, List.flatMap_cons, ← hexText]
    show UInt8.ofNat (16 * hexVal (hexDigit (b.toNat / 16)) + hexVal (hexDigit (b.toNat % 16))) ::
      hexBytes (hexText bytes) = _
    rw [ih, hexVal_hexDigit (by omega), hexVal_hexDigit (by omega), Nat.div_add_mod,
      UInt8.ofNat_toNat]

/-- The digits as one number have the bytes in it from the last one on. -/
theorem hexValue_eq_leDec (h : text.length = 2 * n) (hhex : ∀ b ∈ text, isHexDigit b = true) :
    hexValue text = leDec (hexBytes text).reverse := by
  have hfold : ∀ v, text.foldl (fun v b => 16 * v + hexVal b) v =
      leDec (hexBytes text).reverse + 256 ^ n * v := by
    induction n generalizing text with
    | zero =>
      obtain rfl := List.length_eq_zero_iff.mp h
      intro v
      simp [hexBytes]
    | succ n ih =>
      obtain ⟨a, b, rest, rfl, hrest⟩ := exists_pair h
      intro v
      rw [List.foldl_cons, List.foldl_cons, ih hrest fun c hc => hhex c (by simp [hc]), hexBytes,
        List.reverse_cons, leDec_append, List.length_reverse, length_hexBytes hrest, leDec, leDec,
        toNat_hexPair (hhex a (by simp)) (hhex b (by simp)), Nat.pow_succ]
      ring
  rw [hexValue, hfold 0, Nat.mul_zero, Nat.add_zero]

end Numeral

end Lib

import Dptf.Common.EsifData
import Dptf.Uf.TableObject

/-!
# `EsifData` as text and back

`EsifData_ToStringMax` and `EsifData_FromString` of `esif_lib_esifdata.c`: two switches over the
type, written apart from each other.  The C library reads and writes integers as they are, and
what does not fit the word it is read into is cut to it.  A temperature is read in floating
point, and how is left open.
-/

open Lib

namespace Uf

/-! ## Types -/

/-- `EsifDataType`. -/
inductive EsifDataType
  | angle | auto | binary | blob | decibel | dsp | enum | frequency | guid | handle | inst
  | int16 | int32 | int64 | int8 | ipv4 | ipv6 | json | percent | pointer | power | qualifier
  | register | string | struct | table | temperature | time | uint16 | uint32 | uint64 | uint8
  | unicode | void | xml
  deriving DecidableEq, Repr

namespace EsifDataType

/-- The number of a type. -/
def code : EsifDataType → UInt32
  | angle => 41 | auto => 36 | binary => 7 | blob => 34 | decibel => 39 | dsp => 33 | enum => 19
  | frequency => 40 | guid => 5 | handle => 20 | inst => 30 | int16 => 12 | int32 => 13
  | int64 => 14 | int8 => 11 | ipv4 => 16 | ipv6 => 17 | json => 42 | percent => 29
  | pointer => 18 | power => 26 | qualifier => 28 | register => 15 | string => 8
  | struct => 32 | table => 35 | temperature => 6 | time => 31 | uint16 => 2 | uint32 => 3
  | uint64 => 4 | uint8 => 1 | unicode => 9 | void => 24 | xml => 38

/-- Every type. -/
def all : List EsifDataType :=
  [angle, auto, binary, blob, decibel, dsp, enum, frequency, guid, handle, inst, int16, int32,
    int64, int8, ipv4, ipv6, json, percent, pointer, power, qualifier, register, string, struct,
    table, temperature, time, uint16, uint32, uint64, uint8, unicode, void, xml]

/-- The type of a number.  What is no type takes the default of each switch, as binary data does. -/
def ofCode (c : UInt32) : EsifDataType := (all.find? fun t => t.code = c).getD binary

@[simp] theorem ofCode_code (t : EsifDataType) : ofCode t.code = t := by
  cases t <;> rfl

/-- The bytes a number is stored in. -/
def width : EsifDataType → Option Nat
  | int8 | uint8 => some 1
  | int16 | uint16 => some 2
  | int32 | uint32 | temperature | power | time | percent => some 4
  | int64 | uint64 | frequency => some 8
  | _ => none

/-- The types that hold text. -/
def isText : EsifDataType → Bool
  | string | json | xml => true
  | _ => false

end EsifDataType

/-! ## Writing -/

/-- `MAX_LINE`. -/
def maxLine : Nat := 512

/-- `max_string`. -/
def maxString (maxLength : UInt32) : Nat :=
  if maxLength = 0 then maxLine else max 4 (min 0x7ffffffe maxLength.toNat)

/-- `max_binary`. -/
def maxBinary (maxLength : UInt32) : Nat := maxString maxLength / 2 - 2

/-- A number printed into `intstr`, then copied into the result of `alloc` bytes. -/
def intString (alloc : Nat) (text : List UInt8) : List UInt8 := (text.take 21).take (alloc - 1)

/-- A signed number of `bits` bits. -/
def printSigned (bits v : Nat) : List UInt8 :=
  if v < 2 ^ (bits - 1) then decimal v else 45 :: decimal (2 ^ bits - v)

/-- The text of a number.  `INT32` is printed as a `long`, without its sign where that is wider. -/
def numberText (long64 : Bool) (type : EsifDataType) (v : Nat) : List UInt8 :=
  match type with
  | .int8 => intString 5 (printSigned 8 v)
  | .int16 => intString 7 (printSigned 16 v)
  | .int32 => intString 12 (printSigned (if long64 then 64 else 32) v)
  | .int64 => intString 22 (printSigned 64 v)
  | .uint8 => intString 5 (decimal v)
  | .uint16 => intString 7 (decimal v)
  | .uint64 | .frequency => intString 22 (decimal v)
  | _ => intString 12 (decimal v)

/-- `EsifData_ToStringMax` with its allocation succeeding; none is the null pointer. -/
def toStringMax (long64 : Bool) (self : EsifData) (maxLength : UInt32) : Option (List UInt8) :=
  match self.bufPtr with
  | none => none
  | some bytes =>
    if self.dataLen = 0 then none
    else
      let type := EsifDataType.ofCode self.type
      let data := bytes.take self.dataLen.toNat
      match type.width with
      | some w => some (numberText long64 type (leDec (bytes.take w)))
      | none =>
        if type.isText then
          some ((if self.dataLen.toNat ≤ maxString maxLength + 1 then data
            else data.take (maxString maxLength - 2) ++ [46, 46]).takeWhile (· ≠ 0))
        else if type = .void then none
        else some ([48, 120] ++ hexText (data.take (maxBinary maxLength)) ++
          if maxBinary maxLength < self.dataLen.toNat then [46, 46] else [])

/-! ## Reading -/

/-- `MAXAUTOLEN`. -/
def maxAutoLen : Nat := 65536

/-- `ISHEX`: the text starts with `0x`, in either case. -/
def isHex (text : List UInt8) : Bool := (text.take 2).map toUpper = [48, 88]

/-- What `sscanf` answers with one conversion of an integer: `EOF`, zero, or one. -/
inductive Scan
  | eof
  | mismatch
  | number (v : Nat)
  deriving DecidableEq, Repr

/-- The scratch word where the answer is not zero.  `EOF` is minus one, and leaves the word. -/
def Scan.word? : Scan → Option Nat
  | eof => some 0
  | mismatch => none
  | number v => some v

/-- A number read behind its sign into a word of `bits` bits. -/
def scanDigits (bits : Nat) (negative : Bool) (hex : Bool) (text : List UInt8) : Scan :=
  let body := if hex && isHex text then text.drop 2 else text
  let digits := body.takeWhile (if hex then isHexDigit else isDigit)
  let v := if hex then hexValue digits else decimalValue digits
  if digits = [] then .mismatch
  else .number (if negative then (2 ^ bits - v % 2 ^ bits) % 2 ^ bits else v % 2 ^ bits)

/-- `esif_ccb_sscanf(str, IFHEX(str, "%x", "%d"), &word)`, and with `%u` and the long forms. -/
def scanInt (bits : Nat) (text : List UInt8) : Scan :=
  match text.dropWhile isBlank with
  | [] => .eof
  | b :: rest =>
    if b = 45 then scanDigits bits true (isHex text) rest
    else if b = 43 then scanDigits bits false (isHex text) rest
    else scanDigits bits false (isHex text) (b :: rest)

/-- The type automatic typing takes a text for. -/
def autoType (text : List UInt8) : EsifDataType :=
  match text with
  | [] => .string
  | sign :: rest =>
    if isHex text then
      if (text.drop 2).all isHexDigit then if text.length ≤ 10 then .uint32 else .binary
      else .string
    else if sign = 43 ∨ sign = 45 ∨ isDigit sign = true then
      if rest.all isDigit then
        if isDigit sign then
          if text.length ≤ 10 then .uint32 else if text.length ≤ 20 then .uint64 else .string
        else if text.length ≤ 11 then .uint32
        else if text.length ≤ 21 then .uint64 else .string
      else .string
    else .string

/-- The digits of a binary literal, two to a byte, as far as there is room and they go. -/
def hexPairs : Nat → List UInt8 → List UInt8
  | k + 1, a :: b :: rest =>
    if isHexDigit a && isHexDigit b then
      UInt8.ofNat (16 * hexVal a + hexVal b) :: hexPairs k rest
    else []
  | _, _ => []

section FromString

-- `%lf`, the limits of a temperature and its conversion.
variable (temperature : List UInt8 → Option UInt32)

/-- The number a text stands for, in the range of the type. -/
def numberOf (type : EsifDataType) (text : List UInt8) : Option Nat :=
  match type with
  | .int8 | .uint8 => (scanInt 32 text).word?.filter (· ≤ 0xff)
  | .int16 | .uint16 => (scanInt 32 text).word?.filter (· ≤ 0xffff)
  | .temperature => (temperature text).map UInt32.toNat
  | .int64 | .uint64 | .frequency => (scanInt 64 text).word?
  | _ => (scanInt 32 text).word?

/-- An `EsifData` of bytes it owns, all of them data. -/
def ownedData (type : EsifDataType) (bytes : List UInt8) : EsifData :=
  ⟨type.code, some bytes, UInt32.ofNat bytes.length, UInt32.ofNat bytes.length⟩

/-- The binary data of a text. -/
def binaryOf (text : List UInt8) : EsifData :=
  let ptrLen := min text.length maxAutoLen
  if isHex text then
    let alloc := ptrLen / 2 - 1
    if alloc = 0 then ⟨EsifDataType.binary.code, some (text ++ [0]), 0, 0⟩
    else
      -- The first byte of an odd literal is the zero of its prefix, and the pairs start behind
      -- the digit after it.
      let bytes := if ptrLen % 2 = 1 then 0 :: hexPairs (alloc - 1) (text.drop 3)
        else hexPairs alloc (text.drop 2)
      ⟨EsifDataType.binary.code, some (bytes ++ List.replicate (alloc - bytes.length) 0),
        UInt32.ofNat bytes.length, UInt32.ofNat bytes.length⟩
  else ownedData .binary (text.take ptrLen ++ [0])

/-- `EsifData_FromString` with its allocations succeeding. -/
def fromString (str : Option (List UInt8)) (type : EsifDataType) : EsifError × EsifData :=
  match str with
  | none | some [] => (esifOk, ⟨type.code, some [0], 1, 0⟩)
  | some text =>
    let type := if type = .auto then autoType text else type
    match type.width with
    | some w =>
      match numberOf temperature type text with
      | some v => (esifOk, ownedData type (leEnc w v))
      | none => (esifECommandDataInvalid, ownedData type (List.replicate w 0))
    | none =>
      if type.isText then
        (esifOk, ownedData type ((text ++ [0]).take (min text.length maxAutoLen + 1)))
      else if type = .void then (esifOk, ownedData type [0])
      else (esifOk, { binaryOf text with type := type.code })

end FromString

end Uf

import Dptf.Common.Types
import Dptf.Lib.Layout
import Dptf.Lib.Numeral

/-!
# Tables as binary data

`esif_uf_tableobject.c`.  A table is stored as a sequence of typed variants of 12 bytes,
some with bytes behind them, and is walked from there to be shown as rows and columns.

Memory that is not there, and a loop that does not end, are a `TableFailure.fault`.
-/

open Lib

namespace Uf

/-! ## Conversions -/

/-- `isspace` of a byte. -/
def isBlank (b : UInt8) : Bool := b = 32 || 9 ≤ b && b ≤ 13

/-- `esif_guid_mangle`. -/
def guidMangle (guid : List UInt8) : List UInt8 :=
  (guid.take 4).reverse ++ ((guid.drop 4).take 2).reverse ++ ((guid.drop 6).take 2).reverse ++
    guid.drop 8

/-- `esif_guid_tostring`. -/
def guidToString (guid : List UInt8) : List UInt8 :=
  hexText (guid.take 4) ++ 45 :: hexText ((guid.drop 4).take 2) ++
    45 :: hexText ((guid.drop 6).take 2) ++ 45 :: hexText ((guid.drop 8).take 2) ++
    45 :: hexText ((guid.drop 10).take 6)

/-- `%lld` of an unsigned number. -/
def printLld (v : UInt64) : List UInt8 :=
  if v.toNat < 2 ^ 63 then decimal v.toNat else 45 :: decimal (2 ^ 64 - v.toNat)

/-- `%d` of an unsigned number. -/
def printD (v : UInt32) : List UInt8 :=
  if v.toNat < 2 ^ 31 then decimal v.toNat else 45 :: decimal (2 ^ 32 - v.toNat)

/-! ## Tables -/

/-- `EsifDataType`. -/
abbrev TableDataType := UInt32

def tableUInt32 : TableDataType := 3
def tableUInt64 : TableDataType := 4
def tableBinary : TableDataType := 7
def tableString : TableDataType := 8

/-- `ESIF_GUID_LEN`. -/
def esifGuidLen : Nat := 16

/-- The size of `union esif_data_variant`. -/
def variantSize : Nat := 12

/-- `TableField`. -/
structure TableField where
  name : List UInt8
  dataType : TableDataType
deriving DecidableEq, Repr

/-- `TableObject`; the options are its flags. -/
structure TableObject where
  containsRevision : Bool
  allowSelfDefine : Bool
  containsMode : Bool
  fields : List TableField
  dynamicColumnCount : Nat
  dataText : List UInt8
  binaryData : Option (List UInt8)
  binaryDataSize : UInt32
  version : UInt64
  controlMode : UInt64
deriving DecidableEq, Repr

/-- What `TableObject_LoadData` reads a table from. -/
structure TableSource where
  /-- The response and its buffer could be allocated. -/
  ready : Bool
  /-- The table has a namespace and a key of the data vault. -/
  dataVault : Bool
  response : Except EsifError (List UInt8)
  /-- So could the copy. -/
  allocated : Bool

/-- How a conversion ends otherwise. -/
inductive TableFailure
  | rc (error : EsifError)
  /-- Memory that is not there is used, or a loop does not end. -/
  | fault
deriving DecidableEq, Repr

namespace TableObject

/-! ## From binary data to pieces -/

/-- The type in a variant. -/
def variantType (mem : List UInt8) (obj : Nat) : TableDataType := peekU32 mem obj

/-- The number in a variant. -/
def variantValue (mem : List UInt8) (obj : Nat) : UInt64 := peekU64 mem (obj + 4)

/-- The length in a variant. -/
def variantLength (mem : List UInt8) (obj : Nat) : UInt32 := peekU32 mem (obj + 4)

/-- The revision and the mode that `TableObject_LoadData` takes from the table.  The mode is the
second variant also where there is no revision. -/
def loadVersion (self : TableObject) (mem : List UInt8) : Except TableFailure TableObject := do
  let self ←
    if self.containsRevision then
      if mem.length < variantSize then .error .fault
      else .ok { self with version := variantValue mem 0 }
    else .ok self
  if self.containsMode then
    if mem.length < 2 * variantSize then .error .fault
    else .ok { self with controlMode := variantValue mem variantSize }
  else .ok self

/-- `TableObject_LoadData` of a binary table for `GET`. -/
def loadData (self : TableObject) (source : TableSource) : Except TableFailure TableObject :=
  if !source.ready then .error (.rc esifENoMemory)
  else do
    let self ←
      if source.dataVault || self.binaryData.isNone then
        match source.response with
        | .error rc => .error (.rc rc)
        | .ok mem =>
          if source.allocated then
            .ok { self with binaryData := some mem, binaryDataSize := UInt32.ofNat mem.length }
          else .ok { self with binaryData := none }
      else .ok self
    match self.binaryData with
    | some mem => self.loadVersion mem
    | none => return self

/-- `TableDataPiece`. -/
structure DataPiece where
  newRow : Bool
  dataPiece : List UInt8
  fieldTag : List UInt8
  dataType : TableDataType
  isRevision : Bool
  isMode : Bool
deriving DecidableEq, Repr

/-- Where the walk is. -/
structure Walk where
  /-- The offset of `obj`. -/
  obj : Nat
  /-- `remain_bytes`. -/
  remainBytes : UInt32
  pieces : List DataPiece
deriving DecidableEq, Repr

/-- What fits in `dataPiece`. -/
def pieceText (text : List UInt8) : List UInt8 := text.take 199

/-- The types that are handled. -/
def isTableType (targetType : TableDataType) : Bool :=
  [tableString, tableUInt32, tableUInt64, tableBinary].contains targetType

/-- The text of a variant that should be of a type, and the bytes behind it.  Where the type is
not handled nothing is read. -/
def variantText (mem : List UInt8) (obj : Nat) (targetType : TableDataType) :
    Except TableFailure (List UInt8 × UInt32) :=
  let behind := mem.drop (obj + variantSize)
  if isTableType targetType ∧ mem.length < obj + variantSize then .error .fault
  else if targetType = tableString then
    if variantType mem obj ≠ tableString then .error (.rc esifEParameterIsOutOfBounds)
    else if 0 ∈ behind then .ok (pieceText (behind.takeWhile (· ≠ 0)), variantLength mem obj)
    else .error .fault
  else if targetType = tableUInt32 then
    if variantType mem obj ≠ tableUInt32 then .error (.rc esifEParameterIsOutOfBounds)
    else .ok (printD (variantValue mem obj).toUInt32, 0)
  else if targetType = tableUInt64 then
    if variantType mem obj ≠ tableUInt32 ∧ variantType mem obj ≠ tableUInt64 then
      .error (.rc esifEParameterIsOutOfBounds)
    else .ok (printLld (variantValue mem obj), 0)
  else if targetType = tableBinary then
    if variantType mem obj ≠ tableBinary then .error (.rc esifEParameterIsOutOfBounds)
    else if behind.length < esifGuidLen then .error .fault
    else .ok (guidToString (guidMangle (behind.take esifGuidLen)), variantLength mem obj)
  else .error (.rc esifEParameterIsOutOfBounds)

/-- The name of a type without its prefix, as far as the types are handled. -/
def typeName (targetType : TableDataType) : List UInt8 :=
  if targetType = tableString then [83, 84, 82, 73, 78, 71]
  else if targetType = tableUInt32 then [85, 73, 78, 84, 51, 50]
  else if targetType = tableUInt64 then [85, 73, 78, 84, 54, 52]
  else [66, 73, 78, 65, 82, 89]

/-- The body of the loop over the fields. -/
def loadField (self : TableObject) (mem : List UInt8) (i : Nat) (w : Walk) :
    Except TableFailure Walk :=
  let field := self.fields[i]?
  let targetType :=
    if self.allowSelfDefine then
      if mem.length < w.obj + variantSize then none else some (variantType mem w.obj)
    else field.map TableField.dataType
  let fieldTag :=
    if self.dynamicColumnCount ≠ 0 then
      targetType.map fun type => typeName type ++ [95, 70, 105, 101, 108, 100]
    else field.map TableField.name
  match targetType, fieldTag with
  | some targetType, some fieldTag => do
    let (text, length) ← variantText mem w.obj targetType
    return {
      obj := w.obj + variantSize + length.toNat
      remainBytes := w.remainBytes - UInt32.ofNat variantSize - length
      pieces := w.pieces ++ [⟨false, text, fieldTag.take 49, targetType, false, false⟩] }
  | _, _ => .error .fault

/-- The loop over the rows and the one over the fields in it, of which this is a step. -/
def loadFields (self : TableObject) (mem : List UInt8) :
    Nat → Nat → Walk → Except TableFailure Walk
  | 0, _, _ => .error .fault
  | fuel + 1, i, w =>
    if UInt32.ofNat variantSize ≤ w.remainBytes then
      if i < self.fields.length ∨ self.dynamicColumnCount = 1 then do
        let w ← self.loadField mem i w
        self.loadFields mem fuel (i + 1) w
      else self.loadFields mem fuel 0 w
    else .ok w

/-- A number that stands before the rows, as a piece. -/
def headerPiece (mem : List UInt8) (obj : Nat) (tag : List UInt8) (isMode : Bool) : DataPiece :=
  ⟨false, printLld (variantValue mem obj), tag, tableUInt64, !isMode, isMode⟩

/-- `"revision"`. -/
def revisionTag : List UInt8 := [114, 101, 118, 105, 115, 105, 111, 110]

/-- `"mode"`. -/
def modeTag : List UInt8 := [109, 111, 100, 101]

/-- The revision, and the mode behind it. -/
def loadHeader (self : TableObject) (mem : List UInt8) : Except TableFailure Walk :=
  if self.containsRevision then
    if self.containsMode then
      if mem.length < 2 * variantSize then .error .fault
      else
        .ok ⟨2 * variantSize, self.binaryDataSize - UInt32.ofNat (2 * variantSize),
          [headerPiece mem 0 revisionTag false, headerPiece mem variantSize modeTag true]⟩
    else if mem.length < variantSize then .error .fault
    else
      .ok ⟨variantSize, self.binaryDataSize - UInt32.ofNat variantSize,
        [headerPiece mem 0 revisionTag false]⟩
  else .ok ⟨0, self.binaryDataSize, []⟩

/-- The headers and the loops of `TableObject_LoadXML`. -/
def walk (self : TableObject) (mem : List UInt8) : Except TableFailure Walk := do
  let w ← self.loadHeader mem
  self.loadFields mem (2 * mem.length + 2) 0 w

/-- The piece before in a table of dynamic columns is where a row begins. -/
def markLast : List DataPiece → List DataPiece
  | [] => []
  | piece :: done => { piece with newRow := true } :: done

/-- The loop that marks where rows begin.  The pieces done are kept the last one first. -/
def markRows (self : TableObject) :
    List DataPiece → Nat → Bool → List DataPiece → List DataPiece
  | done, _, _, [] => done.reverse
  | done, i, marked, piece :: pieces =>
    let next := if !piece.isRevision && !(self.containsMode && piece.isMode) then i + 1 else i
    if self.dynamicColumnCount ≠ 0 then
      if piece.dataType = tableString ∧ marked then
        self.markRows (piece :: markLast done) next false pieces
      else
        let marks := !marked && decide (0 < i) &&
          (match done with
          | [] => false
          | prev :: _ => decide (prev.dataType = tableUInt64))
        self.markRows (piece :: done) next (marked || marks) pieces
    else
      let newRow := piece.newRow || (decide (i % self.fields.length = 0) && decide (0 < i))
      self.markRows ({ piece with newRow := newRow } :: done) next marked pieces

/-- `TableObject_LoadXML` on binary data, up to the pieces that are shown. -/
def loadBinary (self : TableObject) : Except TableFailure Walk :=
  match self.binaryData with
  | none => .error (.rc esifEParameterIsNull)
  | some mem => do
    let w ← self.walk mem
    -- the remainder by the number of fields
    if self.dynamicColumnCount = 0 ∧ self.fields = [] ∧ w.pieces ≠ [] then .error .fault
    return { w with pieces := self.markRows [] 0 false w.pieces }

end TableObject

end Uf

import Dptf.Uf.TableObject

/-!
# The walk through a binary table

`TableObject_LoadData` and `TableObject_LoadXML` take the lengths in a table as they are: the
headers are read without a look at the size, a length that is too large turns `remain_bytes` into a
large number, and what is left behind the last variant is passed over.

* `staysInside_iff` — the tables of which both hold.
-/

open Lib

namespace Uf

namespace TableObject

variable {i : Nat} {w : Walk}

/-! ## The tables that can be walked through -/

/-- The condition of the loop over the fields. -/
def HasField (self : TableObject) (i : Nat) : Prop :=
  i < self.fields.length ∨ self.dynamicColumnCount = 1

instance (self : TableObject) (i : Nat) : Decidable (self.HasField i) :=
  inferInstanceAs (Decidable (_ ∨ _))

/-- The type of the next field: that of the variant that comes next, or that of the column. -/
def nextType (self : TableObject) (i : Nat) (rest : List UInt8) : Option TableDataType :=
  if self.allowSelfDefine then some (variantType rest 0)
  else (self.fields[i]?).map TableField.dataType

/-- The variant that comes next is of the type; a number of 32 bits is one of 64 bits too. -/
def HasType (rest : List UInt8) (type : TableDataType) : Prop :=
  isTableType type = true ∧
    (variantType rest 0 = type ∨ type = tableUInt64 ∧ variantType rest 0 = tableUInt32)

instance (rest : List UInt8) (type : TableDataType) : Decidable (HasType rest type) :=
  inferInstanceAs (Decidable (_ ∧ _))

/-- The bytes behind the variant, as it says. -/
def lengthBehind (rest : List UInt8) (type : TableDataType) : UInt32 :=
  if type = tableString ∨ type = tableBinary then variantLength rest 0 else 0

/-- A string behind the variant has an end, and a GUID all its bytes. -/
def Readable (rest : List UInt8) (type : TableDataType) : Prop :=
  (type = tableString → 0 ∈ rest.drop variantSize) ∧
    (type = tableBinary → esifGuidLen ≤ (rest.drop variantSize).length)

instance (rest : List UInt8) (type : TableDataType) : Decidable (Readable rest type) :=
  inferInstanceAs (Decidable (_ ∧ _))

/-- The next variant is refused, since its type is not the one there should be. -/
def Refused (self : TableObject) (i : Nat) (rest : List UInt8) : Prop :=
  variantSize ≤ rest.length ∧ self.HasField i ∧
    ∃ type, self.nextType i rest = some type ∧ ¬HasType rest type

/-- The bytes from a field on are variants of the types of their columns, row by row, each of which
lies inside them with what is behind it, up to where they end. -/
inductive Variants (self : TableObject) (Ends : Nat → List UInt8 → Prop) :
    Nat → List UInt8 → Prop
  | ends {i : Nat} {rest : List UInt8} (hend : Ends i rest) : Variants self Ends i rest
  | row {i : Nat} {rest : List UInt8} (hlong : variantSize ≤ rest.length)
      (hend : ¬self.HasField i) (hfirst : self.HasField 0) (htail : Variants self Ends 0 rest) :
      Variants self Ends i rest
  | field {i : Nat} {rest : List UInt8} {type : TableDataType}
      (hlong : variantSize + (lengthBehind rest type).toNat ≤ rest.length)
      (hi : self.HasField i) (htype : self.nextType i rest = some type)
      (hof : HasType rest type) (hread : Readable rest type)
      (htail : Variants self Ends (i + 1)
        (rest.drop (variantSize + (lengthBehind rest type).toNat))) :
      Variants self Ends i rest

/-- Too few bytes are left for a variant, or the next one is refused: what ends the walk. -/
def Stops (self : TableObject) (i : Nat) (rest : List UInt8) : Prop :=
  rest.length < variantSize ∨ self.Refused i rest

/-- What stands before the rows. -/
def headerSize (self : TableObject) : Nat :=
  if self.containsRevision then if self.containsMode then 2 * variantSize else variantSize else 0

/-- What `TableObject_LoadData` reads. -/
def versionSize (self : TableObject) : Nat :=
  if self.containsMode then 2 * variantSize else if self.containsRevision then variantSize else 0

/-! ## The states of the walk -/

/-- `remain_bytes`, an `int`. -/
def Walk.remaining (w : Walk) : Int := w.remainBytes.toBitVec.toInt

/-- The states at the head of the inner loop. -/
inductive Reached (self : TableObject) (mem : List UInt8) : Nat → Walk → Prop
  | start {w : Walk} (hheader : self.loadHeader mem = .ok w) : Reached self mem 0 w
  | row {i : Nat} {w : Walk} (h : Reached self mem i w)
      (hlong : UInt32.ofNat variantSize ≤ w.remainBytes) (hend : ¬self.HasField i) :
      Reached self mem 0 w
  | field {i : Nat} {w w' : Walk} (h : Reached self mem i w)
      (hlong : UInt32.ofNat variantSize ≤ w.remainBytes) (hi : self.HasField i)
      (hload : self.loadField mem i w = .ok w') : Reached self mem (i + 1) w'

/-- The version is read inside the table.  So is all that the walk reads, which ends; throughout
`remain_bytes` is not below zero, and counts the bytes of the table that are left. -/
def StaysInside (self : TableObject) (mem : List UInt8) : Prop :=
  self.loadVersion mem ≠ .error .fault ∧
  0 ≤ self.binaryDataSize.toBitVec.toInt ∧
  (∀ i w, Reached self mem i w → 0 ≤ w.remaining ∧ w.obj + w.remaining = mem.length) ∧
  self.walk mem ≠ .error .fault

/-- The table is its headers and whole variants, up to the last byte; where a row may end the table
is left open. -/
def WellFormed (self : TableObject) (mayEnd : Nat → Prop) (mem : List UInt8) : Prop :=
  self.headerSize ≤ mem.length ∧
    Variants self (fun i rest => rest = [] ∧ mayEnd i) 0 (mem.drop self.headerSize)

/-- A walk without an error has gone through a table that is well formed. -/
def RefusesMalformed (self : TableObject) (mayEnd : Nat → Prop) (mem : List UInt8) : Prop :=
  ∀ w, self.walk mem = .ok w → self.WellFormed mayEnd mem

/-! ## One field -/

variable {self : TableObject} {mem : List UInt8}

theorem variantType_drop (mem : List UInt8) (obj : Nat) :
    variantType (mem.drop obj) 0 = variantType mem obj := by
  simp [variantType, peekU32, peekAt]

theorem variantLength_drop (mem : List UInt8) (obj : Nat) :
    variantLength (mem.drop obj) 0 = variantLength mem obj := by
  simp [variantLength, peekU32, peekAt]

/-- A variant that is there gives its text and the length behind it. -/
theorem variantText_eq {obj : Nat} (hobj : obj + variantSize ≤ mem.length) (type : TableDataType) :
    ∃ text, variantText mem obj type = if HasType (mem.drop obj) type then
        if Readable (mem.drop obj) type then .ok (text, lengthBehind (mem.drop obj) type)
        else .error .fault
      else .error (.rc esifEParameterIsOutOfBounds) := by
  have hin : ¬(isTableType type = true ∧ mem.length < obj + variantSize) :=
    fun hout => Nat.not_lt.mpr hobj hout.2
  have hbehind : (mem.drop obj).drop variantSize = mem.drop (obj + variantSize) := by
    rw [List.drop_drop]
  unfold variantText HasType Readable lengthBehind
  simp only [if_neg hin, variantType_drop, variantLength_drop, hbehind]
  have h12 : tableUInt32 ≠ tableString := by decide
  have h13 : tableUInt64 ≠ tableString := by decide
  have h14 : tableBinary ≠ tableString := by decide
  have h23 : tableUInt32 ≠ tableUInt64 := by decide
  have h24 : tableBinary ≠ tableUInt32 := by decide
  have h34 : tableBinary ≠ tableUInt64 := by decide
  by_cases hstring : type = tableString
  · subst hstring
    refine ⟨pieceText ((mem.drop (obj + variantSize)).takeWhile (· ≠ 0)), ?_⟩
    simp [isTableType, ite_not, h12.symm, h13.symm, h14.symm]
  by_cases h32 : type = tableUInt32
  · subst h32
    refine ⟨printD (variantValue mem obj).toUInt32, ?_⟩
    simp [isTableType, ite_not, h12, h23, h24.symm]
  by_cases h64 : type = tableUInt64
  · subst h64
    refine ⟨printLld (variantValue mem obj), ?_⟩
    simp [isTableType, ite_not, h13, h23.symm, h34.symm, ← not_or, or_comm]
  by_cases hbinary : type = tableBinary
  · subst hbinary
    refine ⟨guidToString (guidMangle ((mem.drop (obj + variantSize)).take esifGuidLen)), ?_⟩
    by_cases hlen : mem.length - (obj + variantSize) < esifGuidLen
    · simp [isTableType, ite_not, h14, h24, h34, hlen, Nat.not_le.mpr hlen]
    · simp [isTableType, ite_not, h14, h24, h34, hlen, Nat.le_of_not_lt hlen]
  · exact ⟨[], by simp [isTableType, hstring, h32, h64, hbinary]⟩

/-- What the body of the loop does at a variant that is there. -/
theorem loadField_cases (hi : self.HasField i) (hobj : w.obj + variantSize ≤ mem.length) :
    ∃ pieces, self.loadField mem i w = match self.nextType i (mem.drop w.obj) with
      | none => .error .fault
      | some type =>
        if HasType (mem.drop w.obj) type then
          if Readable (mem.drop w.obj) type then
            .ok ⟨w.obj + variantSize + (lengthBehind (mem.drop w.obj) type).toNat,
              w.remainBytes - UInt32.ofNat variantSize - lengthBehind (mem.drop w.obj) type,
              pieces⟩
          else .error .fault
        else .error (.rc esifEParameterIsOutOfBounds) := by
  have hnext : (if self.allowSelfDefine then
      if mem.length < w.obj + variantSize then none else some (variantType mem w.obj)
      else (self.fields[i]?).map TableField.dataType) = self.nextType i (mem.drop w.obj) := by
    rw [nextType, variantType_drop, if_neg (Nat.not_lt.mpr hobj)]
  unfold loadField
  simp only [hnext]
  cases htype : self.nextType i (mem.drop w.obj) with
  | none => exact ⟨[], rfl⟩
  | some type =>
    obtain ⟨text, htext⟩ := variantText_eq hobj type
    obtain ⟨tag, htag⟩ : ∃ tag, (if self.dynamicColumnCount ≠ 0 then
        (some type).map fun type => typeName type ++ [95, 70, 105, 101, 108, 100]
        else (self.fields[i]?).map TableField.name) = some tag := by
      by_cases hcolumns : self.dynamicColumnCount = 0
      · have hlt : i < self.fields.length := hi.resolve_right (by omega)
        exact ⟨self.fields[i].name, by simp [hcolumns, hlt]⟩
      · exact ⟨_, by rw [if_pos hcolumns, Option.map_some]⟩
    simp only [htag, htext]
    refine ⟨w.pieces ++ [⟨false, text, tag.take 49, type, false, false⟩], ?_⟩
    split
    · split <;> rfl
    · rfl

/-! ## Where the walk is -/

/-- As many bytes are left of the table as are counted. -/
def Walk.Placed (w : Walk) (mem : List UInt8) : Prop :=
  w.obj + w.remainBytes.toNat = mem.length

theorem toInt_nonneg_iff (n : UInt32) : 0 ≤ n.toBitVec.toInt ↔ n.toNat < 2 ^ 31 := by
  rw [BitVec.toInt_eq_toNat_cond, UInt32.toNat_toBitVec]
  have hlt := n.toNat_lt
  split <;> omega

theorem toInt_eq_toNat {n : UInt32} (h : n.toNat < 2 ^ 31) : n.toBitVec.toInt = n.toNat := by
  rw [BitVec.toInt_eq_toNat_cond, UInt32.toNat_toBitVec, if_pos (by omega)]

theorem Walk.placed_iff (w : Walk) (mem : List UInt8) :
    0 ≤ w.remaining ∧ w.obj + w.remaining = mem.length ↔
      w.remainBytes.toNat < 2 ^ 31 ∧ w.Placed mem := by
  unfold Walk.remaining Walk.Placed
  rw [toInt_nonneg_iff]
  refine and_congr_right fun hlt => ?_
  rw [toInt_eq_toNat hlt]
  omega

theorem Walk.Placed.length_drop (h : w.Placed mem) :
    (mem.drop w.obj).length = w.remainBytes.toNat := by
  unfold Walk.Placed at h
  rw [List.length_drop]
  omega

theorem long_iff (n : UInt32) : UInt32.ofNat variantSize ≤ n ↔ variantSize ≤ n.toNat :=
  UInt32.le_iff_toNat_le

/-- Behind a field that lies inside the table the count is right again. -/
theorem Walk.Placed.next (h : w.Placed mem) {length : UInt32} (pieces : List DataPiece)
    (hin : variantSize + length.toNat ≤ w.remainBytes.toNat) :
    Walk.Placed ⟨w.obj + variantSize + length.toNat,
      w.remainBytes - UInt32.ofNat variantSize - length, pieces⟩ mem := by
  have hsize : (UInt32.ofNat variantSize).toNat = variantSize := rfl
  have hfirst : (w.remainBytes - UInt32.ofNat variantSize).toNat =
      w.remainBytes.toNat - variantSize := by
    rw [UInt32.toNat_sub_of_le _ _ (UInt32.le_iff_toNat_le.mpr (by omega)), hsize]
  have hsecond : (w.remainBytes - UInt32.ofNat variantSize - length).toNat =
      w.remainBytes.toNat - variantSize - length.toNat := by
    rw [UInt32.toNat_sub_of_le _ _ (UInt32.le_iff_toNat_le.mpr (by omega)), hfirst]
  unfold Walk.Placed at h ⊢
  simp only [hsecond]
  omega

theorem loadHeader_eq_header (hsize : self.binaryDataSize.toNat = mem.length) :
    if self.headerSize ≤ mem.length then
      ∃ w, self.loadHeader mem = .ok w ∧ w.Placed mem ∧ w.obj = self.headerSize
    else self.loadHeader mem = .error .fault := by
  have hskip : ∀ n, n ≤ mem.length → n < 2 ^ 32 →
      n + (self.binaryDataSize - UInt32.ofNat n).toNat = mem.length := by
    intro n hn hlt
    have hofNat : (UInt32.ofNat n).toNat = n := by
      rw [UInt32.toNat_ofNat']
      exact Nat.mod_eq_of_lt hlt
    rw [UInt32.toNat_sub_of_le _ _ (UInt32.le_iff_toNat_le.mpr (by omega)), hofNat, hsize]
    omega
  unfold headerSize loadHeader Walk.Placed
  by_cases hrevision : self.containsRevision = true
  · by_cases hmode : self.containsMode = true
    · by_cases hin : mem.length < 2 * variantSize
      · simp [hrevision, hmode, hin, Nat.not_le.mpr hin]
      · simp only [if_pos hrevision, if_pos hmode, if_neg hin, if_pos (Nat.le_of_not_lt hin)]
        exact ⟨_, rfl, hskip (2 * variantSize) (Nat.le_of_not_lt hin) (by decide), rfl⟩
    · by_cases hin : mem.length < variantSize
      · simp [hrevision, hmode, hin, Nat.not_le.mpr hin]
      · simp only [if_pos hrevision, if_neg hmode, if_neg hin, if_pos (Nat.le_of_not_lt hin)]
        exact ⟨_, rfl, hskip variantSize (Nat.le_of_not_lt hin) (by decide), rfl⟩
  · simp only [if_neg hrevision, if_pos (Nat.zero_le _)]
    exact ⟨_, rfl, by simp only; omega, rfl⟩

theorem loadVersion_eq_fault_iff :
    self.loadVersion mem = .error .fault ↔ mem.length < self.versionSize := by
  have hmore : mem.length < variantSize → mem.length < 2 * variantSize := by omega
  unfold loadVersion versionSize
  by_cases hrevision : self.containsRevision = true
  · by_cases hshort : mem.length < variantSize
    · by_cases hmode : self.containsMode = true
      · simp [hrevision, hmode, hshort, hmore hshort, bind, Except.bind]
      · simp [hrevision, hmode, hshort, bind, Except.bind]
    · by_cases hmode : self.containsMode = true
      · by_cases hboth : mem.length < 2 * variantSize
        · simp [hrevision, hmode, hshort, hboth, bind, Except.bind]
        · simp [hrevision, hmode, hshort, hboth, bind, Except.bind]
      · simp [hrevision, hmode, hshort, bind, Except.bind]
  · by_cases hmode : self.containsMode = true
    · by_cases hboth : mem.length < 2 * variantSize
      · simp [hrevision, hmode, hboth, bind, Except.bind]
      · simp [hrevision, hmode, hboth, bind, Except.bind]
    · simp [hrevision, hmode, bind, Except.bind]

theorem headerSize_le_versionSize (self : TableObject) : self.headerSize ≤ self.versionSize := by
  unfold headerSize versionSize
  split <;> split <;> simp

/-! ## A table that can be walked through -/

variable {Ends Ends' : Nat → List UInt8 → Prop} {rest : List UInt8}

theorem Variants.mono (himp : ∀ i rest, Ends i rest → Ends' i rest)
    (h : Variants self Ends i rest) : Variants self Ends' i rest := by
  induction h with
  | ends hend => exact .ends (himp _ _ hend)
  | row hlong hend hfirst _ ih => exact .row hlong hend hfirst ih
  | field hlong hi htype hof hread _ ih => exact .field hlong hi htype hof hread ih

/-- There is one way through the variants, and so one end. -/
theorem Variants.or (h : Variants self (fun i rest => Ends i rest ∨ Ends' i rest) i rest) :
    Variants self Ends i rest ∨ Variants self Ends' i rest := by
  induction h with
  | ends hend => exact hend.imp .ends .ends
  | row hlong hend hfirst _ ih => exact ih.imp (.row hlong hend hfirst) (.row hlong hend hfirst)
  | field hlong hi htype hof hread _ ih =>
    exact ih.imp (.field hlong hi htype hof hread) (.field hlong hi htype hof hread)

theorem Variants.next (h : Variants self self.Stops i rest) (hlong : variantSize ≤ rest.length)
    (hi : self.HasField i) :
    ∃ type, self.nextType i rest = some type ∧
      (HasType rest type → variantSize + (lengthBehind rest type).toNat ≤ rest.length ∧
        Readable rest type ∧
        Variants self self.Stops (i + 1)
          (rest.drop (variantSize + (lengthBehind rest type).toNat))) := by
  cases h with
  | ends hend =>
    rcases hend with hshort | ⟨-, -, type, htype, hrefused⟩
    · omega
    · exact ⟨type, htype, fun hof => absurd hof hrefused⟩
  | row _ hend => exact absurd hi hend
  | @field _ _ type hin _ htype _ hread htail => exact ⟨type, htype, fun _ => ⟨hin, hread, htail⟩⟩

theorem Variants.wrap (h : Variants self self.Stops i rest) (hlong : variantSize ≤ rest.length)
    (hend : ¬self.HasField i) : self.HasField 0 ∧ Variants self self.Stops 0 rest := by
  cases h with
  | ends hstop =>
    rcases hstop with hshort | ⟨-, hi, -⟩
    · omega
    · exact absurd hi hend
  | row _ _ hfirst htail => exact ⟨hfirst, htail⟩
  | field _ hi => exact absurd hi hend

/-- A variant that lies inside the table with what is behind it is read, and the rest is left. -/
theorem loadField_of_readable {type : TableDataType} (hplaced : w.Placed mem)
    (hlong : variantSize + (lengthBehind (mem.drop w.obj) type).toNat ≤ (mem.drop w.obj).length)
    (hi : self.HasField i) (htype : self.nextType i (mem.drop w.obj) = some type)
    (hof : HasType (mem.drop w.obj) type) (hread : Readable (mem.drop w.obj) type) :
    ∃ w', self.loadField mem i w = .ok w' ∧ w'.Placed mem ∧
      w'.remainBytes.toNat + variantSize ≤ w.remainBytes.toNat ∧
      mem.drop w'.obj =
        (mem.drop w.obj).drop (variantSize + (lengthBehind (mem.drop w.obj) type).toNat) := by
  have hlen := hplaced.length_drop
  have hobj : w.obj + variantSize ≤ mem.length := by
    unfold Walk.Placed at hplaced
    omega
  obtain ⟨pieces, hload⟩ := loadField_cases hi hobj
  rw [hload, htype]
  have hplaced' := hplaced.next pieces (hlen ▸ hlong)
  simp only [if_pos hof, if_pos hread]
  refine ⟨_, rfl, hplaced', ?_, ?_⟩
  · unfold Walk.Placed at hplaced hplaced'
    simp only at hplaced' ⊢
    omega
  · rw [List.drop_drop, ← Nat.add_assoc]

theorem loadField_of_refused (hplaced : w.Placed mem)
    (hlong : variantSize ≤ (mem.drop w.obj).length) (hi : self.HasField i) {type : TableDataType}
    (htype : self.nextType i (mem.drop w.obj) = some type)
    (hrefused : ¬HasType (mem.drop w.obj) type) :
    self.loadField mem i w = .error (.rc esifEParameterIsOutOfBounds) := by
  have hlen := hplaced.length_drop
  have hobj : w.obj + variantSize ≤ mem.length := by
    unfold Walk.Placed at hplaced
    omega
  obtain ⟨pieces, hload⟩ := loadField_cases hi hobj
  rw [hload, htype]
  simp [hrefused]

/-- One turn of the loops. -/
theorem loadFields_step (self : TableObject) (mem : List UInt8) (fuel i : Nat) (w : Walk) :
    self.loadFields mem (fuel + 1) i w = if UInt32.ofNat variantSize ≤ w.remainBytes then
        if self.HasField i then
          self.loadField mem i w >>= fun w => self.loadFields mem fuel (i + 1) w
        else self.loadFields mem fuel 0 w
      else .ok w := rfl

/-- The walk comes to where the variants end, with the turns it is given. -/
theorem Variants.loadFields (h : Variants self Ends i rest) :
    ∀ {w : Walk} {fuel : Nat}, rest = mem.drop w.obj → w.Placed mem →
      (∀ i rest, Ends i rest → self.Stops i rest) →
      2 * w.remainBytes.toNat + (if self.HasField i then 1 else 2) ≤ fuel →
      ∃ i' w' fuel', self.loadFields mem fuel i w = self.loadFields mem (fuel' + 1) i' w' ∧
        w'.Placed mem ∧ Ends i' (mem.drop w'.obj) := by
  induction h with
  | @ends i rest hend =>
    rintro w fuel rfl hplaced - hfuel
    obtain ⟨fuel', rfl⟩ : ∃ fuel', fuel = fuel' + 1 := ⟨fuel - 1, by split at hfuel <;> omega⟩
    exact ⟨i, w, fuel', rfl, hplaced, hend⟩
  | @row i rest hlong hend hfirst _ ih =>
    rintro w fuel rfl hplaced hstop hfuel
    rw [if_neg hend] at hfuel
    obtain ⟨fuel', rfl⟩ : ∃ fuel', fuel = fuel' + 1 := ⟨fuel - 1, by omega⟩
    have hlen := hplaced.length_drop
    rw [loadFields_step, if_pos ((long_iff _).mpr (hlen ▸ hlong)), if_neg hend]
    refine ih rfl hplaced hstop ?_
    rw [if_pos hfirst]
    omega
  | @field i rest type hlong hi htype hof hread _ ih =>
    rintro w fuel rfl hplaced hstop hfuel
    rw [if_pos hi] at hfuel
    obtain ⟨fuel', rfl⟩ : ∃ fuel', fuel = fuel' + 1 := ⟨fuel - 1, by omega⟩
    have hlen := hplaced.length_drop
    have hpos : 0 < variantSize := by decide
    obtain ⟨w', hload, hplaced', hless, hrest⟩ :=
      loadField_of_readable hplaced hlong hi htype hof hread
    rw [loadFields_step, if_pos ((long_iff _).mpr (by omega)), if_pos hi, hload]
    refine ih hrest.symm hplaced' hstop ?_
    split <;> omega

/-- Where too few bytes are left, the walk ends, -/
theorem loadFields_of_short (hplaced : w.Placed mem)
    (hshort : (mem.drop w.obj).length < variantSize) (fuel : Nat) :
    self.loadFields mem (fuel + 1) i w = .ok w := by
  rw [hplaced.length_drop] at hshort
  rw [loadFields_step, if_neg fun hlong => Nat.not_le_of_lt hshort ((long_iff _).mp hlong)]

/-- and where the next variant is refused, with an error. -/
theorem loadFields_of_refused (hplaced : w.Placed mem) (hrefused : self.Refused i (mem.drop w.obj))
    (fuel : Nat) :
    self.loadFields mem (fuel + 1) i w = .error (.rc esifEParameterIsOutOfBounds) := by
  obtain ⟨hlong, hi, type, htype, hnot⟩ := hrefused
  have hlen := hplaced.length_drop
  rw [loadFields_step, if_pos ((long_iff _).mpr (hlen ▸ hlong)), if_pos hi,
    loadField_of_refused hplaced hlong hi htype hnot]
  rfl

/-- The walk from the headers on comes to where the variants end. -/
theorem Variants.walk (hsize : self.binaryDataSize.toNat = mem.length)
    (hheader : self.headerSize ≤ mem.length)
    (h : Variants self Ends 0 (mem.drop self.headerSize))
    (hstop : ∀ i rest, Ends i rest → self.Stops i rest) :
    ∃ i w fuel, self.walk mem = self.loadFields mem (fuel + 1) i w ∧ w.Placed mem ∧
      Ends i (mem.drop w.obj) := by
  have hread := loadHeader_eq_header hsize
  rw [if_pos hheader] at hread
  obtain ⟨w, hw, hplaced, hobj⟩ := hread
  have hwalk : self.walk mem = self.loadFields mem (2 * mem.length + 2) 0 w := by
    rw [TableObject.walk, hw]
    rfl
  rw [hwalk]
  refine Variants.loadFields (w := w) h (by rw [hobj]) hplaced hstop ?_
  unfold Walk.Placed at hplaced
  split <;> omega

/-- In such a table the walk is always where it should be. -/
theorem Variants.reached (hsize : self.binaryDataSize.toNat = mem.length)
    (hheader : self.headerSize ≤ mem.length)
    (h : Variants self self.Stops 0 (mem.drop self.headerSize)) (hw : Reached self mem i w) :
    w.Placed mem ∧ Variants self self.Stops i (mem.drop w.obj) := by
  induction hw with
  | @start w hstart =>
    have hread := loadHeader_eq_header hsize
    rw [if_pos hheader] at hread
    obtain ⟨w', hw', hplaced, hobj⟩ := hread
    rw [hstart] at hw'
    cases hw'
    exact ⟨hplaced, hobj.symm ▸ h⟩
  | row _ hlong hend ih =>
    have hlen := ih.1.length_drop
    exact ⟨ih.1, (ih.2.wrap (by rw [hlen]; exact (long_iff _).mp hlong) hend).2⟩
  | @field i w w' _ hlong hi hload ih =>
    obtain ⟨hplaced, hvariants⟩ := ih
    have hlen := hplaced.length_drop
    have hlong' : variantSize ≤ (mem.drop w.obj).length := hlen ▸ (long_iff _).mp hlong
    obtain ⟨type, htype, hnext⟩ := hvariants.next hlong' hi
    by_cases hof : HasType (mem.drop w.obj) type
    · obtain ⟨hin, hread, htail⟩ := hnext hof
      obtain ⟨w'', hload', hplaced', -, hrest⟩ :=
        loadField_of_readable hplaced hin hi htype hof hread
      rw [hload] at hload'
      obtain rfl := Except.ok.inj hload'
      exact ⟨hplaced', hrest.symm ▸ htail⟩
    · rw [loadField_of_refused hplaced hlong' hi htype hof] at hload
      cases hload

/-! ## A walk that stays inside -/

/-- What comes behind a state that was reached does not fail either. -/
theorem Reached.loadFields (h : self.walk mem ≠ .error .fault) (hw : Reached self mem i w) :
    ∃ fuel, self.loadFields mem fuel i w ≠ .error .fault := by
  induction hw with
  | @start w hstart =>
    rw [walk, hstart] at h
    exact ⟨_, h⟩
  | @row i w _ hlong hend ih =>
    obtain ⟨fuel, hfuel⟩ := ih
    cases fuel with
    | zero => exact absurd rfl hfuel
    | succ fuel =>
      rw [loadFields_step, if_pos hlong, if_neg hend] at hfuel
      exact ⟨fuel, hfuel⟩
  | @field i w w' _ hlong hi hload ih =>
    obtain ⟨fuel, hfuel⟩ := ih
    cases fuel with
    | zero => exact absurd rfl hfuel
    | succ fuel =>
      rw [loadFields_step, if_pos hlong, if_pos hi, hload] at hfuel
      exact ⟨fuel, hfuel⟩

/-- Without a column the loop over the rows does not end. -/
theorem loadFields_of_no_field (hlong : UInt32.ofNat variantSize ≤ w.remainBytes)
    (hnone : ¬self.HasField 0) (fuel : Nat) : self.loadFields mem fuel 0 w = .error .fault := by
  induction fuel with
  | zero => rfl
  | succ fuel ih =>
    rw [loadFields_step, if_pos hlong, if_neg hnone]
    exact ih

/-- A field that does not fail is refused, or can be read. -/
theorem exists_of_loadField (hi : self.HasField i) (hobj : w.obj + variantSize ≤ mem.length)
    (h : self.loadField mem i w ≠ .error .fault) :
    ∃ type, self.nextType i (mem.drop w.obj) = some type ∧
      (HasType (mem.drop w.obj) type → Readable (mem.drop w.obj) type ∧
        ∃ w', self.loadField mem i w = .ok w' ∧
          w'.obj = w.obj + variantSize + (lengthBehind (mem.drop w.obj) type).toNat) := by
  obtain ⟨pieces, hload⟩ := loadField_cases hi hobj
  cases htype : self.nextType i (mem.drop w.obj) with
  | none =>
    rw [hload, htype] at h
    exact absurd rfl h
  | some type =>
    rw [hload, htype] at h
    refine ⟨type, rfl, fun hof => ?_⟩
    by_cases hread : Readable (mem.drop w.obj) type
    · refine ⟨hread, ⟨_, w.remainBytes - UInt32.ofNat variantSize -
        lengthBehind (mem.drop w.obj) type, pieces⟩, ?_, rfl⟩
      rw [hload, htype]
      simp only [if_pos hof, if_pos hread]
    · simp [hof, hread] at h

/-- A walk that stays inside the table has a table before it that can be walked through. -/
theorem Reached.variants (hwalk : self.walk mem ≠ .error .fault)
    (hinside : ∀ i w, Reached self mem i w → w.Placed mem) (hw : Reached self mem i w) :
    Variants self self.Stops i (mem.drop w.obj) := by
  -- by the bytes that are left
  induction hn : w.remainBytes.toNat using Nat.strong_induction_on generalizing i w with
  | _ n ih =>
  subst hn
  have hplaced := hinside i w hw
  have hlen := hplaced.length_drop
  by_cases hlong : UInt32.ofNat variantSize ≤ w.remainBytes
  swap
  · exact .ends (.inl (by rw [hlen]; exact Nat.lt_of_not_le fun h => hlong ((long_iff _).mpr h)))
  have hlong' := (long_iff _).mp hlong
  have hpos : 0 < variantSize := by decide
  unfold Walk.Placed at hplaced
  have hfield : ∀ i, Reached self mem i w → self.HasField i →
      Variants self self.Stops i (mem.drop w.obj) := by
    intro i hw hi
    obtain ⟨fuel, hfuel⟩ := hw.loadFields hwalk
    cases fuel with
    | zero => exact absurd rfl hfuel
    | succ fuel =>
    rw [loadFields_step, if_pos hlong, if_pos hi] at hfuel
    have hload : self.loadField mem i w ≠ .error .fault := by
      intro hfault
      rw [hfault] at hfuel
      exact hfuel rfl
    obtain ⟨type, htype, hnext⟩ := exists_of_loadField hi (by omega) hload
    by_cases hof : HasType (mem.drop w.obj) type
    · obtain ⟨hread, w', hw', hobj⟩ := hnext hof
      have hreached := hw.field hlong hi hw'
      have hplaced' := hinside _ _ hreached
      unfold Walk.Placed at hplaced'
      have htail := ih _ (by omega) hreached rfl
      refine .field (by omega) hi htype hof hread ?_
      rw [List.drop_drop, ← Nat.add_assoc, ← hobj]
      exact htail
    · exact .ends (.inr ⟨by omega, hi, type, htype, hof⟩)
  by_cases hi : self.HasField i
  · exact hfield i hw hi
  · have hfirst : self.HasField 0 := by
      by_contra hnone
      obtain ⟨fuel, hfuel⟩ := (hw.row hlong hi).loadFields hwalk
      exact hfuel (loadFields_of_no_field hlong hnone fuel)
    exact .row (by omega) hi hfirst (hfield 0 (hw.row hlong hi) hfirst)

/-- The walk stays inside the tables that it can get through. -/
theorem inside_iff_variants (hsize : self.binaryDataSize.toNat = mem.length)
    (hlt : mem.length < 2 ^ 31) :
    ((∀ i w, Reached self mem i w → 0 ≤ w.remaining ∧ w.obj + w.remaining = mem.length) ∧
        self.walk mem ≠ .error .fault) ↔
      self.headerSize ≤ mem.length ∧
        Variants self self.Stops 0 (mem.drop self.headerSize) := by
  have hheader := loadHeader_eq_header hsize
  simp only [Walk.placed_iff]
  constructor
  · rintro ⟨hinside, hwalk⟩
    have hfits : self.headerSize ≤ mem.length := by
      by_contra hnot
      rw [if_neg hnot] at hheader
      exact hwalk (by rw [walk, hheader]; rfl)
    rw [if_pos hfits] at hheader
    obtain ⟨w, hw, -, hobj⟩ := hheader
    have htable := Reached.variants hwalk (fun i w hw => (hinside i w hw).2) (.start hw)
    exact ⟨hfits, hobj ▸ htable⟩
  · rintro ⟨hfits, htable⟩
    refine ⟨fun i w hw => ?_, ?_⟩
    · have hplaced := (htable.reached hsize hfits hw).1
      refine ⟨?_, hplaced⟩
      unfold Walk.Placed at hplaced
      omega
    · obtain ⟨i, w, fuel, hwalk, hplaced, hshort | hrefused⟩ :=
        htable.walk hsize hfits fun _ _ hstop => hstop
      · simp [hwalk, loadFields_of_short hplaced hshort]
      · simp [hwalk, loadFields_of_refused hplaced hrefused]

/-- **When a binary table is read inside its bounds, or refused.** -/
theorem staysInside_iff (self : TableObject) (mayEnd : Nat → Prop) (mem : List UInt8)
    (hsize : self.binaryDataSize.toNat = mem.length) :
    self.StaysInside mem ∧ self.RefusesMalformed mayEnd mem ↔
      mem.length < 2 ^ 31 ∧ self.versionSize ≤ mem.length ∧
        Variants self (fun i rest => rest = [] ∧ mayEnd i ∨ self.Refused i rest) 0
          (mem.drop self.headerSize) := by
  have hversion : self.loadVersion mem ≠ .error .fault ↔ self.versionSize ≤ mem.length := by
    rw [Ne, loadVersion_eq_fault_iff, Nat.not_lt]
  unfold StaysInside
  rw [hversion, toInt_nonneg_iff, hsize]
  constructor
  · rintro ⟨⟨hread, hlt, hinside⟩, hrefuses⟩
    obtain ⟨hfits, htable⟩ := (inside_iff_variants hsize hlt).mp hinside
    refine ⟨hlt, hread, ?_⟩
    rcases htable.or with hshort | hrefused
    · obtain ⟨i, w, fuel, hwalk, hplaced, hend⟩ := hshort.walk hsize hfits fun _ _ => .inl
      rw [loadFields_of_short hplaced hend] at hwalk
      exact (hrefuses w hwalk).2.mono fun _ _ => .inl
    · exact hrefused.mono fun _ _ => .inr
  · rintro ⟨hlt, hread, htable⟩
    have hfits := Nat.le_trans self.headerSize_le_versionSize hread
    have hstops : Variants self self.Stops 0 (mem.drop self.headerSize) := htable.mono
      fun _ rest hend => hend.imp (fun hnil => by rw [hnil.1]; decide) id
    refine ⟨⟨hread, hlt, (inside_iff_variants hsize hlt).mpr ⟨hfits, hstops⟩⟩, fun w hok => ?_⟩
    rcases htable.or with hwhole | hrefused
    · exact ⟨hfits, hwhole⟩
    · obtain ⟨i, w', fuel, hwalk, hplaced, hend⟩ := hrefused.walk hsize hfits fun _ _ => .inr
      rw [loadFields_of_refused hplaced hend, hok] at hwalk
      cases hwalk

/-- A table of one string column. -/
def stringColumn (containsRevision : Bool) (mem : List UInt8) : TableObject :=
  ⟨containsRevision, false, false, [⟨[110], tableString⟩], 0, [], some mem, UInt32.ofNat mem.length,
    1, 0⟩

/-- The revision, and the strings "a" and "" in variants of two bytes and of one. -/
def wellPlaced : List UInt8 :=
  [4, 0, 0, 0, 1, 0, 0, 0, 0, 0, 0, 0, 8, 0, 0, 0, 2, 0, 0, 0, 0, 0, 0, 0, 97, 0,
    8, 0, 0, 0, 1, 0, 0, 0, 0, 0, 0, 0, 0]

theorem staysInside_wellPlaced :
    (stringColumn true wellPlaced).StaysInside wellPlaced ∧
      (stringColumn true wellPlaced).RefusesMalformed (fun i => i = 1) wellPlaced := by
  have hof : HasType (wellPlaced.drop 12) tableString := by decide +kernel
  have hread : Readable (wellPlaced.drop 12) tableString := by decide +kernel
  have hof' : HasType (wellPlaced.drop 26) tableString := by decide +kernel
  have hread' : Readable (wellPlaced.drop 26) tableString := by decide +kernel
  exact (staysInside_iff (stringColumn true wellPlaced) (fun i => i = 1) wellPlaced
      (by decide +kernel)).mpr
    ⟨by decide, by decide, .field (by decide +kernel) (by decide) rfl hof hread
      (.row (by decide +kernel) (by decide) (by decide)
        (.field (by decide +kernel) (by decide) rfl hof' hread' (.ends (.inl ⟨rfl, rfl⟩))))⟩

/-- The empty string in a variant that counts 200 bytes: the next one is looked for there. -/
def overlong : List UInt8 := [8, 0, 0, 0, 200, 0, 0, 0, 0, 0, 0, 0, 0]

/-- Bytes that are no variant. -/
def stray : List UInt8 := [1, 2, 3, 4, 5]

theorem overlong_not_staysInside :
    (¬∀ (self : TableObject) (mem : List UInt8), self.binaryData = some mem →
      self.binaryDataSize.toNat = mem.length → self.StaysInside mem) ∧
    ¬∀ (self : TableObject) (mem : List UInt8), self.binaryData = some mem →
      self.binaryDataSize.toNat = mem.length → self.RefusesMalformed (fun _ => True) mem := by
  constructor
  · intro hall
    obtain ⟨-, -, -, hwalk⟩ := hall (stringColumn false overlong) overlong rfl (by decide +kernel)
    have hfault : (stringColumn false overlong).walk overlong = .error .fault := by decide +kernel
    exact hwalk hfault
  · intro hall
    have hwalk : (stringColumn false stray).walk stray = .ok ⟨0, 5, []⟩ := by decide +kernel
    obtain ⟨-, hvariants⟩ := hall (stringColumn false stray) stray rfl (by decide +kernel) _ hwalk
    cases hvariants with
    | ends hend => exact absurd hend.1 (by decide)
    | row hlong => exact absurd hlong (by decide)
    | field hlong => exact absurd (Nat.le_trans (Nat.le_add_right _ _) hlong) (by decide)

end TableObject

end Uf

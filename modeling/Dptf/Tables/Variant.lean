import Dptf.Common.Types
import Dptf.Lib.Parse
import Mathlib.Data.List.Induction

/-!
# The buffers firmware tables come in

A table is a `DptfBuffer` of `esif_data_variant`s, 12 bytes each: a type and a number, or a
type and the length of a string that lies behind it.
-/

open Lib

namespace Tables

/-! ## Numbers -/

/-- An unsigned number as an `IntN`. -/
def asIntN (v : UInt32) : Int := if v.toNat < 2 ^ 31 then v.toNat else v.toNat - 2 ^ 32

theorem asIntN_eq {v : UInt32} (h : v.toNat < 2 ^ 31) : asIntN v = v.toNat := if_pos h

theorem asIntN_nonneg_iff (v : UInt32) : 0 ≤ asIntN v ↔ v.toNat < 2 ^ 31 := by
  have hlt : v.toNat < 2 ^ 32 := v.toNat_lt
  unfold asIntN
  split <;> omega

/-- What an `IntN` holds after an assignment. -/
def wrapIntN (v : Int) : Int := (v + 2 ^ 31) % 2 ^ 32 - 2 ^ 31

/-- `TimeSpan`: microseconds, or invalid. -/
abbrev TimeSpan := Option Int

/-- `TimeSpan::createFromTenthSeconds`. -/
def createFromTenthSeconds (tenthSeconds : Int) : TimeSpan := some (tenthSeconds * 100000)

/-- `TimeSpan::asTenthSecondsInt`; the quotient is exact in a `double` up to 2⁵³ microseconds. -/
def asTenthSecondsInt : TimeSpan → Parse Int
  | none => throw "TimeSpan is not valid."
  | some microseconds => pure (microseconds.tdiv 100000)

/-! ## `DptfBuffer` -/

/-- `DptfBuffer`: `m_buffer`. -/
structure DptfBuffer where
  bytes : List UInt8

namespace DptfBuffer

variable {b : DptfBuffer} {offset length : UInt32}

/-- `DptfBuffer::size`. -/
def size (b : DptfBuffer) : UInt32 := UInt32.ofNat b.bytes.length

/-- `DptfBuffer::get`: the bytes there, as many of them as `size` says. -/
def get (b : DptfBuffer) : List UInt8 := b.bytes.take b.size.toNat

/-- `DptfBuffer()`. -/
def empty : DptfBuffer := ⟨[]⟩

/-- `DptfBuffer::allocate`. -/
def allocate (sizeInBytes : Nat) : DptfBuffer := ⟨List.replicate sizeInBytes 0⟩

/-- `std::vector::resize` with zeros. -/
def resize (bytes : List UInt8) (n : Nat) : List UInt8 :=
  bytes.take n ++ List.replicate (n - bytes.length) 0

/-- `DptfBuffer::put`.  The address behind the data is a 32-bit number as well. -/
def put (b : DptfBuffer) (offset : UInt32) (data : List UInt8) (length : UInt32) : DptfBuffer :=
  let stop := offset + length
  let grown := if b.size < stop then resize b.bytes stop.toNat else b.bytes
  if offset < stop then ⟨overwrite grown offset.toNat (data.take (stop - offset).toNat)⟩
  else ⟨grown⟩

theorem toNat_size (b : DptfBuffer) : b.size.toNat = b.bytes.length % 2 ^ 32 := UInt32.toNat_ofNat'

theorem toNat_size_le (b : DptfBuffer) : b.size.toNat ≤ b.bytes.length := by
  rw [toNat_size]
  exact Nat.mod_le _ _

theorem toNat_size_of_lt (h : b.bytes.length < 2 ^ 32) : b.size.toNat = b.bytes.length := by
  rw [toNat_size, Nat.mod_eq_of_lt h]

@[simp] theorem length_get (b : DptfBuffer) : b.get.length = b.size.toNat := by
  rw [get, List.length_take, Nat.min_eq_left b.toNat_size_le]

theorem get_eq (h : b.bytes.length < 2 ^ 32) : b.get = b.bytes := by
  rw [get, toNat_size_of_lt h, List.take_length]

/-- **What a put does** where the addresses do not wrap: it goes on behind `done`, over what
was there. -/
theorem put_eq {before rest data : List UInt8} (hb : b.bytes = before ++ rest)
    (hoff : offset.toNat = before.length) (hlen : length.toNat = data.length)
    (hsize : b.bytes.length < 2 ^ 32) (hfit : before.length + data.length < 2 ^ 32) :
    (b.put offset data length).bytes = before ++ data ++ rest.drop data.length := by
  have hstop : (offset + length).toNat = before.length + data.length := by
    rw [UInt32.toNat_add, hoff, hlen, Nat.mod_eq_of_lt hfit]
  have hgrown : (if b.size < offset + length then resize b.bytes (offset + length).toNat
      else b.bytes) = before ++ (rest ++ List.replicate (data.length - rest.length) 0) := by
    by_cases hlt : b.size < offset + length
    · have hnat : b.bytes.length < before.length + data.length := by
        have := UInt32.lt_iff_toNat_lt.mp hlt
        rwa [toNat_size_of_lt hsize, hstop] at this
      rw [if_pos hlt, resize, hstop, List.take_of_length_le (by omega), hb, List.append_assoc]
      congr 3
      rw [List.length_append]
      omega
    · have hnat : before.length + data.length ≤ b.bytes.length := by
        have := UInt32.le_iff_toNat_le.mp (UInt32.not_lt.mp hlt)
        rwa [toNat_size_of_lt hsize, hstop] at this
      have hzero : data.length - rest.length = 0 := by
        rw [hb, List.length_append] at hnat
        omega
      rw [if_neg hlt, hb, hzero, List.replicate_zero, List.append_nil]
  show (if offset < offset + length then _ else _ : DptfBuffer).bytes = _
  rw [hgrown]
  by_cases hlt : offset < offset + length
  · have hlast : (offset + length - offset).toNat = data.length := by
      rw [UInt32.add_comm, UInt32.add_sub_cancel, hlen]
    rw [if_pos hlt, hlast, List.take_length, overwrite, hoff, List.take_left]
    congr 1
    rw [List.drop_append, List.drop_append]
    simp
  · have hnil : data = [] := by
      have := UInt32.le_iff_toNat_le.mp (UInt32.not_lt.mp hlt)
      exact List.eq_nil_of_length_eq_zero (by omega)
    rw [if_neg hlt, hnil]
    simp

/-- A put whose last address wraps, into a buffer that reaches beyond it. -/
theorem put_wrapped (data : List UInt8) (hsize : ¬b.size < offset + length)
    (hstop : ¬offset < offset + length) : b.put offset data length = b := by
  unfold put
  simp only
  rw [if_neg hstop, if_neg hsize]

/-- A buffer that is put into a new one of its size. -/
theorem bytes_copy (h : b.bytes.length < 2 ^ 32) :
    ((allocate b.size.toNat).put 0 b.bytes b.size).bytes = b.bytes := by
  have hsize := toNat_size_of_lt h
  have hzeros : (allocate b.size.toNat).bytes = [] ++ List.replicate b.bytes.length 0 := by
    rw [hsize]
    rfl
  have hlt : (allocate b.size.toNat).bytes.length < 2 ^ 32 := by
    rw [hzeros]
    simpa using h
  rw [put_eq hzeros rfl hsize hlt (by simpa using h), List.drop_replicate]
  simp

/-- A revision and what comes behind it, put into a new buffer. -/
theorem bytes_behind_revision {revision data : List UInt8} (hrevision : revision.length = 12)
    (hlen : length.toNat = data.length) (hfit : 12 + data.length < 2 ^ 32) :
    (((allocate (12 + length).toNat).put 0 revision 12).put 12 data length).bytes =
      revision ++ data := by
  have htwelve : (12 : UInt32).toNat = 12 := rfl
  have hall : (12 + length).toNat = 12 + data.length := by
    rw [UInt32.toNat_add, hlen, htwelve, Nat.mod_eq_of_lt hfit]
  have hzeros : (allocate (12 + length).toNat).bytes =
      [] ++ List.replicate (12 + data.length) 0 := by
    rw [hall]
    rfl
  have hallocated : (allocate (12 + length).toNat).bytes.length < 2 ^ 32 := by
    rw [hzeros, List.nil_append, List.length_replicate]
    exact hfit
  have hput : ((allocate (12 + length).toNat).put 0 revision 12).bytes =
      revision ++ List.replicate data.length 0 := by
    have hrest : 12 + data.length - revision.length = data.length := by omega
    have hzero : (0 : UInt32).toNat = ([] : List UInt8).length := rfl
    rw [put_eq hzeros hzero (htwelve.trans hrevision.symm) hallocated
      (by rw [hrevision]; decide), List.drop_replicate, hrest, List.nil_append]
  have hgrown : ((allocate (12 + length).toNat).put 0 revision 12).bytes.length < 2 ^ 32 := by
    rw [hput, List.length_append, List.length_replicate, hrevision]
    exact hfit
  rw [put_eq hput (htwelve.trans hrevision.symm) hlen hgrown (by rw [hrevision]; exact hfit),
    List.drop_replicate]
  simp

end DptfBuffer

/-! ## Variants -/

/-- `ESIF_DATA_STRING`. -/
def dataString : UInt32 := 8

/-- `ESIF_DATA_UINT32`. -/
def dataUInt32 : UInt32 := 3

/-- `ESIF_DATA_UINT64`. -/
def dataUInt64 : UInt32 := 4

/-- `sizeof(esif_data_variant)`. -/
def variantSize : Nat := 12

/-- A variant for a string; nothing sets its reserved word. -/
def stringVariant (length reserved : UInt32) : List Field :=
  [.u32 dataString, .u32 length, .u32 reserved]

/-- A variant for a number. -/
def numberVariant (value : UInt64) : List Field := [.u32 dataUInt64, .u64 value]

@[simp] theorem length_stringVariant (length reserved : UInt32) :
    (pack (stringVariant length reserved)).length = variantSize := length_pack _

@[simp] theorem length_numberVariant (value : UInt64) :
    (pack (numberVariant value)).length = variantSize := length_pack _

theorem toUInt32_ofInt (k : UInt32) : (UInt64.ofInt (k.toNat : Int)).toUInt32 = k := by
  have hlt : k.toNat < 2 ^ 32 := k.toNat_lt
  have hmod : ((k.toNat : Int) % 2 ^ 64).toNat = k.toNat := by omega
  apply UInt32.toNat_inj.mp
  rw [UInt64.ofInt, hmod, UInt64.toNat_toUInt32, UInt64.toNat_ofNat',
    Nat.mod_eq_of_lt (by omega : k.toNat < 2 ^ 64), Nat.mod_eq_of_lt hlt]

/-! ## Scopes -/

/-- The characters of a `std::string`. -/
abbrev Scope := List UInt8

/-- `'.'`. -/
def dot : UInt8 := 46

/-- `'_'`. -/
def underscore : UInt8 := 95

/-- `'\\'`. -/
def backslash : UInt8 := 92

/-- `Constants::InvalidString`, `"X"`. -/
def invalidString : Scope := [88]

/-- `Constants::NotAvailableString`, `"N/A"`. -/
def notAvailableString : Scope := [78, 47, 65]

/-- `StringParser::removeCharacter`: the first one only. -/
def removeCharacter (input : Scope) (character : UInt8) : Scope := input.erase character

/-- The underscores a name of `charsSinceLastDot` letters is filled up with. -/
def underscoresToAdd (charsSinceLastDot : Nat) : Scope :=
  List.replicate (4 - charsSinceLastDot) underscore

/-- A character in `BinaryParse::normalizeAcpiScope`: what was written, and the characters
since the last dot. -/
def normalizeNext (s : Scope × Nat) (c : UInt8) : Scope × Nat :=
  if c = backslash then (s.1 ++ [c], 0)
  else if c = dot then (s.1 ++ underscoresToAdd s.2 ++ [c], 0)
  else (s.1 ++ [c], s.2 + 1)

/-- The substring behind the last dot. -/
def behindLastDot (s : Scope) : Scope := (s.reverse.takeWhile (· ≠ dot)).reverse

/-- `BinaryParse::normalizeAcpiScope`. -/
def normalizeAcpiScope (acpiScope : Scope) : Scope :=
  let parsedScope := removeCharacter acpiScope 0
  if parsedScope = invalidString ∨ parsedScope = notAvailableString then parsedScope
  else
    let written := parsedScope.foldl normalizeNext ([], 0)
    if parsedScope ≠ [] then behindLastDot (written.1 ++ underscoresToAdd written.2)
    else written.1

example : normalizeAcpiScope [92, 95, 83, 66, 46, 65, 66] = [65, 66, 95, 95] := by decide

theorem behindLastDot_append {s : Scope} {c : UInt8} :
    behindLastDot (s ++ [c]) = if c = dot then [] else behindLastDot s ++ [c] := by
  unfold behindLastDot
  by_cases hc : c = dot <;> simp [hc]

theorem length_behindLastDot_append (s t : Scope) :
    (behindLastDot (s ++ t)).length ≤ (behindLastDot s).length + t.length := by
  induction t using List.reverseRecOn with
  | nil => simp
  | append_singleton t c ih =>
    rw [← List.append_assoc, behindLastDot_append]
    split
    · simp
    · simp only [List.length_append, List.length_singleton]
      omega

/-- What stands behind the last dot was read since then. -/
theorem length_behindLastDot_normalize (s : Scope) (written : Scope × Nat) :
    (behindLastDot (s.foldl normalizeNext written).1).length ≤
      (behindLastDot written.1).length + s.length := by
  induction s generalizing written with
  | nil => simp
  | cons c s ih =>
    have hstep : (behindLastDot (normalizeNext written c).1).length ≤
        (behindLastDot written.1).length + 1 := by
      unfold normalizeNext
      by_cases hb : c = backslash
      · rw [if_pos hb]
        exact length_behindLastDot_append _ [c]
      · rw [if_neg hb]
        by_cases hd : c = dot
        · rw [if_pos hd, behindLastDot_append, if_pos hd]
          simp
        · rw [if_neg hd]
          exact length_behindLastDot_append _ [c]
    rw [List.foldl_cons, List.length_cons]
    have := ih (normalizeNext written c)
    omega

/-- **A normalized scope is at most four letters longer.** -/
theorem length_normalizeAcpiScope (s : Scope) : (normalizeAcpiScope s).length ≤ s.length + 4 := by
  have herase : (removeCharacter s 0).length ≤ s.length := List.length_erase_le
  have hfold := length_behindLastDot_normalize (removeCharacter s 0) ([], 0)
  have hadd : ∀ n, (underscoresToAdd n).length ≤ 4 := fun n => by
    rw [underscoresToAdd, List.length_replicate]
    omega
  unfold normalizeAcpiScope
  simp only
  split
  · omega
  · split
    · have hlast := length_behindLastDot_append
        ((removeCharacter s 0).foldl normalizeNext ([], 0)).1
        (underscoresToAdd ((removeCharacter s 0).foldl normalizeNext ([], 0)).2)
      have hle := hadd ((removeCharacter s 0).foldl normalizeNext ([], 0)).2
      have hzero : (behindLastDot []).length = 0 := rfl
      simp only [hzero] at hfold
      omega
    · case _ hnil =>
      simp [not_not.mp hnil]

end Tables

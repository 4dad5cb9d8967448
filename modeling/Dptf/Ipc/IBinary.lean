import Dptf.Lib.Layout

/-!
# `IBinary`: the growing buffer messages are built in

The buffer as the source keeps it — allocated bytes, how many of them are data,
and the boundary it grows by — with allocations succeeding.  The bytes behind
the data are whatever the last operation left there; nothing reads them.
-/

open Lib

/-- `IBinary`: `buf_ptr` with its `buf_len` bytes, null when there are none. -/
structure IBinary where
  /-- The allocated bytes. -/
  buf : List UInt8
  /-- `data_len`. -/
  dataLen : Nat
  /-- `growby_len`. -/
  growbyLen : Nat
  dataLen_le : dataLen ≤ buf.length
  growbyLen_ne : growbyLen ≠ 0

namespace IBinary

/-- `IBINARY_DEFAULT_GROWBY`. -/
def defaultGrowby : Nat := 256

/-- `IBinary_Create`. -/
def create : IBinary := ⟨[], 0, defaultGrowby, by simp, by decide⟩

/-- The data in the buffer. -/
def contents (b : IBinary) : List UInt8 := b.buf.take b.dataLen

/-- `IBinary_GetLen`. -/
def getLen (b : IBinary) : Nat := b.dataLen

@[simp] theorem length_contents (b : IBinary) : b.contents.length = b.getLen := by
  simp [contents, getLen, b.dataLen_le]

@[simp] theorem contents_create : create.contents = [] := rfl

@[simp] theorem getLen_create : create.getLen = 0 := rfl

/-! ## Growing -/

/-- `IBinary_Realloc`: an exact size, data beyond it dropped, new bytes wiped. -/
def realloc (b : IBinary) (bufLen : Nat) : IBinary where
  buf := b.buf.take bufLen ++ List.replicate (bufLen - b.buf.length) 0
  dataLen := min b.dataLen bufLen
  growbyLen := b.growbyLen
  dataLen_le := by
    have := b.dataLen_le
    simp only [List.length_append, List.length_take, List.length_replicate]
    omega
  growbyLen_ne := b.growbyLen_ne

/-- The next multiple of the growth boundary, as `IBinary_Insert` computes it. -/
def growLen (b : IBinary) (needed : Nat) : Nat :=
  (needed / b.growbyLen + 1 - (if needed % b.growbyLen = 0 then 1 else 0)) * b.growbyLen

theorem le_growLen (b : IBinary) (needed : Nat) : needed ≤ b.growLen needed := by
  have hsplit := Nat.div_add_mod needed b.growbyLen
  have hmod := Nat.mod_lt needed (Nat.pos_of_ne_zero b.growbyLen_ne)
  unfold growLen
  split
  case isTrue hz =>
    rw [Nat.add_sub_cancel, Nat.mul_comm]
    omega
  case isFalse =>
    rw [Nat.sub_zero, Nat.add_mul, Nat.one_mul, Nat.mul_comm]
    omega

/-- The buffer with room for `needed` bytes. -/
def reserve (b : IBinary) (needed : Nat) : IBinary :=
  if b.buf.length < needed then b.realloc (b.growLen needed) else b

theorem le_length_reserve (b : IBinary) (needed : Nat) :
    needed ≤ (b.reserve needed).buf.length := by
  have hle := b.le_growLen needed
  unfold reserve
  split
  · simp only [realloc, List.length_append, List.length_take, List.length_replicate]
    omega
  · omega

@[simp] theorem dataLen_reserve (b : IBinary) (needed : Nat) :
    (b.reserve needed).dataLen = b.dataLen := by
  have hle := b.le_growLen needed
  have hdata := b.dataLen_le
  unfold reserve
  split
  · simp only [realloc]
    omega
  · rfl

@[simp] theorem contents_reserve (b : IBinary) (needed : Nat) :
    (b.reserve needed).contents = b.contents := by
  have hle := b.le_growLen needed
  have hdata := b.dataLen_le
  unfold contents
  rw [dataLen_reserve]
  unfold reserve
  split
  · have hfull : b.buf.take (b.growLen needed) = b.buf := List.take_of_length_le (by omega)
    simp only [realloc, hfull]
    exact List.take_append_of_le_length hdata
  · rfl

/-! ## Inserting -/

theorem length_le_overwrite (m : List UInt8) (pos : Nat) (bs : List UInt8) :
    m.length ≤ (overwrite m pos bs).length := by
  simp only [overwrite, List.length_append, List.length_take, List.length_drop]
  omega

/-- The moves of `IBinary_Insert` in a buffer with room enough: the tail goes up by the
length of the new bytes, then they are copied into the gap. -/
def openGap (b : IBinary) (bytes : List UInt8) (offset : Nat) : List UInt8 :=
  let tail := peekAt b.buf offset (b.dataLen - offset)
  let moved := if offset < b.dataLen then overwrite b.buf (offset + bytes.length) tail else b.buf
  overwrite moved offset bytes

/-- With room enough, the gap holds the new bytes and the tail stands behind them. -/
theorem take_openGap (b : IBinary) (bytes : List UInt8) {offset : Nat} (hoff : offset ≤ b.dataLen)
    (hroom : b.dataLen + bytes.length ≤ b.buf.length) :
    (b.openGap bytes offset).take (b.dataLen + bytes.length) =
      b.contents.take offset ++ bytes ++ b.contents.drop offset := by
  have htail : (peekAt b.buf offset (b.dataLen - offset)).length = b.dataLen - offset := by
    simp only [peekAt, List.length_take, List.length_drop]
    omega
  have hdrop : b.contents.drop offset = peekAt b.buf offset (b.dataLen - offset) := by
    rw [contents, peekAt, List.drop_take]
  have htake : b.contents.take offset = b.buf.take offset := by
    rw [contents, List.take_take, Nat.min_eq_left hoff]
  have hsize : b.dataLen + bytes.length = offset + (bytes.length + (b.dataLen - offset)) := by
    omega
  have hcut : bytes.length + (b.dataLen - offset) - bytes.length = b.dataLen - offset := by omega
  rw [htake, hdrop, hsize, openGap]
  by_cases hlt : offset < b.dataLen
  · have hpos : offset + bytes.length ≤ b.buf.length := by omega
    have hgrown := length_le_overwrite b.buf (offset + bytes.length)
      (peekAt b.buf offset (b.dataLen - offset))
    have htailAt : HasAt (overwrite b.buf (offset + bytes.length) (peekAt b.buf offset
        (b.dataLen - offset))) _ _ := hasAt_overwrite hpos
    have hmoved := htailAt.peekAt
    rw [htail] at hmoved
    rw [if_pos hlt, take_overwrite (by omega) (by omega), hcut, hmoved,
      take_overwrite_before hpos (by omega)]
  · have hzero : b.dataLen - offset = 0 := by omega
    rw [if_neg hlt, take_overwrite (by omega) (by omega), hcut, hzero]
    simp [peekAt]

theorem length_openGap (b : IBinary) (bytes : List UInt8) (offset : Nat) :
    b.buf.length ≤ (b.openGap bytes offset).length := by
  unfold openGap
  refine le_trans ?_ (length_le_overwrite _ _ _)
  split
  · exact length_le_overwrite _ _ _
  · rfl

/-- `IBinary_Insert`.  No bytes, or an offset behind the data, and nothing happens. -/
def insert (b : IBinary) (bytes : List UInt8) (offset : Nat) : IBinary :=
  if bytes ≠ [] ∧ offset ≤ b.dataLen then
    let room := b.reserve (b.dataLen + bytes.length)
    { buf := room.openGap bytes offset
      dataLen := b.dataLen + bytes.length
      growbyLen := room.growbyLen
      dataLen_le := (b.le_length_reserve _).trans (room.length_openGap bytes offset)
      growbyLen_ne := room.growbyLen_ne }
  else b

/-- `IBinary_Append`. -/
def append (b : IBinary) (bytes : List UInt8) : IBinary := b.insert bytes b.dataLen

/-- **An insertion splices the bytes into the data.** -/
theorem contents_insert (b : IBinary) (bytes : List UInt8) {offset : Nat}
    (h : offset ≤ b.getLen) : (b.insert bytes offset).contents =
      b.contents.take offset ++ bytes ++ b.contents.drop offset := by
  unfold insert
  by_cases hne : bytes = []
  · rw [if_neg (by simp [hne]), hne, List.append_nil, List.take_append_drop]
  · rw [if_pos ⟨hne, h⟩]
    have hdata := b.dataLen_reserve (b.dataLen + bytes.length)
    have hoff : offset ≤ (b.reserve (b.dataLen + bytes.length)).dataLen := by
      rw [hdata]
      exact h
    have hroom := b.le_length_reserve (b.dataLen + bytes.length)
    have hgap := take_openGap _ bytes hoff (by rw [hdata]; exact hroom)
    rw [hdata, contents_reserve] at hgap
    exact hgap

@[simp] theorem contents_append (b : IBinary) (bytes : List UInt8) :
    (b.append bytes).contents = b.contents ++ bytes := by
  have hlen : b.contents.length ≤ b.dataLen := by simp [getLen]
  rw [append, contents_insert b bytes (le_refl b.dataLen), List.take_of_length_le hlen,
    List.drop_of_length_le hlen, List.append_nil]

/-! ## Writing through a pointer into the buffer -/

/-- `esif_ccb_memcpy` to the byte at `pos` of the buffer. -/
def patch (b : IBinary) (pos : Nat) (bytes : List UInt8) : IBinary where
  buf := overwrite b.buf pos bytes
  dataLen := b.dataLen
  growbyLen := b.growbyLen
  dataLen_le := b.dataLen_le.trans (length_le_overwrite _ _ _)
  growbyLen_ne := b.growbyLen_ne

@[simp] theorem getLen_patch (b : IBinary) (pos : Nat) (bytes : List UInt8) :
    (b.patch pos bytes).getLen = b.getLen := rfl

/-- A write inside the data writes the data. -/
theorem contents_patch (b : IBinary) {pos : Nat} {bytes : List UInt8}
    (h : pos + bytes.length ≤ b.getLen) :
    (b.patch pos bytes).contents = overwrite b.contents pos bytes := by
  have hdata := b.dataLen_le
  have hle : pos + bytes.length ≤ b.dataLen := h
  obtain ⟨k, hk⟩ : ∃ k, b.dataLen = pos + k := ⟨b.dataLen - pos, by omega⟩
  have hdrop : b.contents.drop (pos + bytes.length) =
      peekAt b.buf (pos + bytes.length) (k - bytes.length) := by
    rw [contents, peekAt, List.drop_take]
    congr 1
    omega
  have htake : b.contents.take pos = b.buf.take pos := by
    rw [contents, List.take_take, Nat.min_eq_left (by omega)]
  rw [overwrite, htake, hdrop, contents]
  show (overwrite b.buf pos bytes).take b.dataLen = _
  rw [hk, take_overwrite (by omega) (by omega)]

/-! ## Exact copies -/

/-- `IBinary_Truncate`, with the dropped bytes wiped. -/
def truncate (b : IBinary) (dataLen : Nat) : IBinary :=
  if h : dataLen < b.dataLen then
    { buf := b.buf.take dataLen ++ List.replicate (b.buf.length - dataLen) 0
      dataLen := dataLen
      growbyLen := b.growbyLen
      dataLen_le := by
        have := b.dataLen_le
        simp only [List.length_append, List.length_take, List.length_replicate]
        omega
      growbyLen_ne := b.growbyLen_ne }
  else b

/-- `IBinary_Clone`. -/
def clone (b : IBinary) (bytes : List UInt8) : IBinary :=
  ((b.truncate 0).realloc bytes.length).insert bytes 0

/-- Whether `IBinary_GetBuf` is not null. -/
def hasBuf (b : IBinary) : Bool := !b.buf.isEmpty

@[simp] theorem contents_clone (b : IBinary) (bytes : List UInt8) :
    (b.clone bytes).contents = bytes := by
  have hzero : ((b.truncate 0).realloc bytes.length).contents = [] := by
    have hlen : ((b.truncate 0).realloc bytes.length).dataLen = 0 := by
      simp only [realloc, truncate]
      split <;> simp_all
    rw [contents, hlen, List.take_zero]
  rw [clone, contents_insert _ _ (Nat.zero_le _), hzero]
  simp

end IBinary

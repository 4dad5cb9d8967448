import Dptf.Ipc.IBinary
import Dptf.Lib.Machine

/-!
# `IBinary` over whole runs, and `IBinary_CopyOver`

Three levels of one buffer.  `RawBinary` is the C structure: any values in its
fields, `size_t` arithmetic, and a copy outside the allocated bytes is no step
at all.  `IBinary` carries the representation invariant in its fields.  A list
of bytes is what the buffer is for.

* `RawBinary.run_refines_list` — whatever the order of the calls, the buffer
  holds the list the same calls make of a list.
* `RawBinary.overwrites_iff` — an overwrite gives what it should just inside the data, or
  when it starts in the exact middle: the length is moved by `bytes - offset`
  instead of by what stands out.
-/

open Lib

/-! ## What the calls do to a buffer in order -/

namespace IBinary

/-- `IBinary_SetGrowBy`: a boundary of zero is not taken. -/
def setGrowBy (b : IBinary) (growbyLen : Nat) : IBinary :=
  if h : growbyLen ≠ 0 then { b with growbyLen := growbyLen, growbyLen_ne := h } else b

/-- `IBinary_Delete`: the tail moves down, and the bytes it leaves are wiped. -/
def delete (b : IBinary) (offset bytes : Nat) : IBinary :=
  if h : bytes ≠ 0 ∧ offset + bytes ≤ b.dataLen then
    { buf := overwrite (overwrite b.buf offset
          (peekAt b.buf (offset + bytes) (b.dataLen - offset - bytes)))
        (b.dataLen - bytes) (List.replicate bytes 0)
      dataLen := b.dataLen - bytes
      growbyLen := b.growbyLen
      dataLen_le := by
        have hdata := b.dataLen_le
        have h₁ := length_le_overwrite b.buf offset
          (peekAt b.buf (offset + bytes) (b.dataLen - offset - bytes))
        have h₂ := length_le_overwrite (overwrite b.buf offset
          (peekAt b.buf (offset + bytes) (b.dataLen - offset - bytes)))
          (b.dataLen - bytes) (List.replicate bytes 0)
        omega
      growbyLen_ne := b.growbyLen_ne }
  else b

/-- `IBinary_Shrink`: the data is cut, then the buffer, if more than one growth step is free. -/
def shrink (b : IBinary) (dataLen : Nat) : IBinary :=
  let cut := b.truncate dataLen
  if dataLen = 0 ∨ cut.growbyLen < cut.buf.length - cut.dataLen then
    cut.realloc (if dataLen ≠ 0 then
      (cut.dataLen + cut.growbyLen - 1) / cut.growbyLen * cut.growbyLen else 0)
  else cut

@[simp] theorem dataLen_truncate (b : IBinary) (n : Nat) :
    (b.truncate n).dataLen = min n b.dataLen := by
  unfold truncate
  split
  · simp only
    omega
  · omega

@[simp] theorem contents_truncate (b : IBinary) (n : Nat) :
    (b.truncate n).contents = b.contents.take n := by
  have hdata := b.dataLen_le
  rw [contents, dataLen_truncate, contents, List.take_take]
  unfold truncate
  split
  case isTrue h =>
    have hlen : (b.buf.take n).length = n := by
      rw [List.length_take]
      omega
    rw [Nat.min_eq_left (by omega), List.take_append_of_le_length (by omega), List.take_take,
      Nat.min_self]
  case isFalse => rfl

@[simp] theorem length_truncate (b : IBinary) (n : Nat) :
    (b.truncate n).buf.length = b.buf.length := by
  have hdata := b.dataLen_le
  unfold truncate
  split
  · simp only [List.length_append, List.length_take, List.length_replicate]
    omega
  · rfl

@[simp] theorem growbyLen_truncate (b : IBinary) (n : Nat) :
    (b.truncate n).growbyLen = b.growbyLen := by
  unfold truncate
  split <;> rfl

@[simp] theorem length_realloc (b : IBinary) (n : Nat) : (b.realloc n).buf.length = n := by
  simp only [realloc, List.length_append, List.length_take, List.length_replicate]
  omega

/-- A reallocation that leaves room for the data leaves the data. -/
theorem contents_realloc (b : IBinary) {n : Nat} (h : b.dataLen ≤ n) :
    (b.realloc n).contents = b.contents := by
  have hdata := b.dataLen_le
  show (b.buf.take n ++ List.replicate (n - b.buf.length) 0).take (min b.dataLen n) = _
  rw [Nat.min_eq_left h, List.take_append_of_le_length (by rw [List.length_take]; omega),
    List.take_take, Nat.min_eq_left h, contents]

@[simp] theorem contents_setGrowBy (b : IBinary) (n : Nat) :
    (b.setGrowBy n).contents = b.contents := by
  unfold setGrowBy
  split <;> rfl

/-- **A deletion cuts the range out of the data.** -/
theorem contents_delete (b : IBinary) {offset bytes : Nat} (h : offset + bytes ≤ b.getLen) :
    (b.delete offset bytes).contents =
      b.contents.take offset ++ b.contents.drop (offset + bytes) := by
  have hdata := b.dataLen_le
  have hle : offset + bytes ≤ b.dataLen := h
  unfold delete
  by_cases hz : bytes = 0
  · rw [dif_neg (by simp [hz]), hz, Nat.add_zero, List.take_append_drop]
  · rw [dif_pos ⟨hz, hle⟩]
    have htail : (peekAt b.buf (offset + bytes) (b.dataLen - offset - bytes)).length =
        b.dataLen - offset - bytes := by
      simp only [peekAt, List.length_take, List.length_drop]
      omega
    have hmoved : (overwrite b.buf offset (peekAt b.buf (offset + bytes)
        (b.dataLen - offset - bytes))).length = b.buf.length :=
      length_overwrite (by omega)
    have hsum : b.dataLen - bytes = offset + (b.dataLen - offset - bytes) := by omega
    have hdrop : b.contents.drop (offset + bytes) =
        peekAt b.buf (offset + bytes) (b.dataLen - offset - bytes) := by
      rw [contents, List.drop_take, peekAt]
      congr 1
      omega
    have htake : b.contents.take offset = b.buf.take offset := by
      rw [contents, List.take_take, Nat.min_eq_left (by omega)]
    show List.take (b.dataLen - bytes) (overwrite _ _ _) = _
    rw [take_overwrite_before (by omega) (le_refl _), hsum,
      take_overwrite (by omega) (by omega), htail, Nat.sub_self, htake, hdrop]
    simp [peekAt]

/-- The rounded length `IBinary_Shrink` allocates has room for the data. -/
theorem le_roundUp (n : Nat) {g : Nat} (hg : g ≠ 0) : n ≤ (n + g - 1) / g * g := by
  have hsplit := Nat.div_add_mod (n + g - 1) g
  have hmod := Nat.mod_lt (n + g - 1) (Nat.pos_of_ne_zero hg)
  rw [Nat.mul_comm]
  omega

@[simp] theorem contents_shrink (b : IBinary) (n : Nat) :
    (b.shrink n).contents = b.contents.take n := by
  rw [← contents_truncate]
  unfold shrink
  simp only
  split
  · refine contents_realloc _ ?_
    by_cases hn : n = 0
    · simp [hn]
    · rw [if_pos hn]
      exact le_roundUp _ (b.truncate n).growbyLen_ne
  · rfl

end IBinary

/-! ## The C structure -/

/-- A value as a `size_t` holds it. -/
def sizeT (n : Nat) : Nat := n % 2 ^ 64

/-- Subtraction of `size_t` values. -/
def sizeSub (a b : Nat) : Nat := sizeT (a + (2 ^ 64 - b))

theorem sizeT_eq {n : Nat} (h : n < 2 ^ 64) : sizeT n = n := Nat.mod_eq_of_lt h

theorem sizeSub_eq {a b : Nat} (ha : a < 2 ^ 64) (h : b ≤ a) : sizeSub a b = a - b := by
  unfold sizeSub sizeT
  omega

/-- The arguments `buffer` and `bytes` of a call: a null pointer comes with any length. -/
inductive Source
  | null (bytes : Nat)
  | bytes (data : List UInt8)
  deriving DecidableEq

namespace Source

/-- `bytes`. -/
def length : Source → Nat
  | null n => n
  | bytes data => data.length

/-- The bytes there are to copy. -/
def data : Source → List UInt8
  | null _ => []
  | bytes data => data

end Source

/-- The fields of `struct IBinary_s`, any values in them. -/
structure RawBinary where
  /-- `buf_ptr` with its `buf_len` bytes, null when there are none. -/
  buf : List UInt8
  /-- `data_len`. -/
  dataLen : Nat
  /-- `growby_len`. -/
  growbyLen : Nat
  deriving DecidableEq, Repr

/-- The structure as it lies in memory. -/
def IBinary.raw (b : IBinary) : RawBinary := ⟨b.buf, b.dataLen, b.growbyLen⟩

namespace RawBinary

/-- The data in the buffer. -/
def contents (b : RawBinary) : List UInt8 := b.buf.take b.dataLen

/-- `IBinary_Realloc`. -/
def realloc (b : RawBinary) (bufLen : Nat) : RawBinary :=
  if bufLen = b.buf.length then b
  else if bufLen = 0 then { b with buf := [], dataLen := 0 }
  else
    { b with
      buf := b.buf.take bufLen ++ List.replicate (bufLen - b.buf.length) 0
      dataLen := if bufLen < b.dataLen then bufLen else b.dataLen }

/-- The next multiple of the growth boundary. -/
def growLen (b : RawBinary) (needed : Nat) : Nat :=
  (needed / b.growbyLen + 1 - (if needed % b.growbyLen = 0 then 1 else 0)) * b.growbyLen

/-- The buffer grown where it is too short, and whether there is one to write into then. -/
def reserve (b : RawBinary) (needed : Nat) : RawBinary × Bool :=
  if b.buf.length < needed then
    if b.growbyLen ≠ 0 then
      let growbyLen := sizeSub (sizeT (b.growLen needed)) b.buf.length
      let grown := b.realloc (sizeT (b.buf.length + growbyLen))
      (grown, !grown.buf.isEmpty)
    else (b, false)
  else (b, !b.buf.isEmpty)

/-- `IBinary_Insert`. -/
def insert (b : RawBinary) (src : Source) (offset : Nat) : Option RawBinary :=
  match src with
  | .null _ => some b
  | .bytes data =>
    if data ≠ [] ∧ offset ≤ b.dataLen then
      let (room, ptr) := b.reserve (sizeT (b.dataLen + data.length))
      if ptr then do
        let moved ← (if offset < room.dataLen then
            memmove room.buf (offset + data.length) offset (room.dataLen - offset)
          else some room.buf)
        let buf ← poke moved offset data
        some { room with buf := buf, dataLen := sizeT (room.dataLen + data.length) }
      else some room
    else some b

/-- `IBinary_CopyOver`. -/
def copyOver (b : RawBinary) (src : Source) (offset : Nat) : Option RawBinary :=
  match src with
  | .null _ => some b
  | .bytes data =>
    if data ≠ [] ∧ offset ≤ b.dataLen then
      let needed := sizeT (offset + data.length)
      let (room, ptr) := b.reserve needed
      if ptr then do
        let buf ← poke room.buf offset data
        some { room with
          buf := buf
          dataLen := if room.dataLen < needed then
            sizeT (room.dataLen + sizeSub data.length offset) else room.dataLen }
      else some room
    else some b

/-- `IBinary_Append`. -/
def append (b : RawBinary) (src : Source) : Option RawBinary := b.insert src b.dataLen

/-- `IBinary_Truncate`. -/
def truncate (b : RawBinary) (dataLen : Nat) : Option RawBinary :=
  if b.buf ≠ [] ∧ dataLen < b.dataLen then do
    let buf ← poke b.buf dataLen (List.replicate (sizeSub b.buf.length dataLen) 0)
    some { b with buf := buf, dataLen := dataLen }
  else some b

/-- `IBinary_Copy`. -/
def copy (b : RawBinary) (src : Source) : Option RawBinary := do
  let cut ← b.truncate 0
  cut.insert src 0

/-- `IBinary_Clone`. -/
def clone (b : RawBinary) (src : Source) : Option RawBinary := do
  let cut ← b.truncate 0
  (cut.realloc src.length).insert src 0

/-- `IBinary_Delete`. -/
def delete (b : RawBinary) (offset bytes : Nat) : Option RawBinary :=
  if b.buf ≠ [] ∧ bytes ≠ 0 ∧ sizeT (offset + bytes) ≤ b.dataLen then do
    let dataLen := sizeSub b.dataLen bytes
    let moved ← memmove b.buf offset (offset + bytes) (sizeSub (sizeSub b.dataLen offset) bytes)
    let buf ← poke moved dataLen (List.replicate bytes 0)
    some { b with buf := buf, dataLen := dataLen }
  else some b

/-- `IBinary_Shrink`. -/
def shrink (b : RawBinary) (dataLen : Nat) : Option RawBinary := do
  let cut ← b.truncate dataLen
  if dataLen = 0 ∨ cut.growbyLen < sizeSub cut.buf.length cut.dataLen then
    some (cut.realloc (if dataLen ≠ 0 ∧ cut.growbyLen ≠ 0 then
      sizeT (sizeSub (cut.dataLen + cut.growbyLen) 1 / cut.growbyLen * cut.growbyLen) else 0))
  else some cut

/-- `IBinary_SetGrowBy`. -/
def setGrowBy (b : RawBinary) (growbyLen : Nat) : RawBinary :=
  if growbyLen ≠ 0 then { b with growbyLen := growbyLen } else b

end RawBinary

/-! ## The structure refines the buffer with its invariant -/

namespace RawBinary

/-- `needed` bytes, and the boundary above them if the buffer must grow, are a `size_t` each. -/
def RoomFor (b : RawBinary) (needed : Nat) : Prop :=
  needed < 2 ^ 64 ∧ (b.buf.length < needed → b.growLen needed < 2 ^ 64)

instance (b : RawBinary) (needed : Nat) : Decidable (b.RoomFor needed) := by
  unfold RoomFor
  infer_instance

theorem realloc_raw (b : IBinary) (n : Nat) : b.raw.realloc n = (b.realloc n).raw := by
  have hdata := b.dataLen_le
  unfold realloc IBinary.realloc IBinary.raw
  simp only
  by_cases hsame : n = b.buf.length
  · subst hsame
    simp [hdata]
  · rw [if_neg hsame]
    by_cases hz : n = 0
    · subst hz
      simp
    · rw [if_neg hz]
      congr 1
      split <;> omega

theorem reserve_raw (b : IBinary) {needed : Nat} (hpos : needed ≠ 0)
    (hroom : b.raw.RoomFor needed) : b.raw.reserve needed = ((b.reserve needed).raw, true) := by
  have hbuf (c : IBinary) (h : needed ≤ c.buf.length) : c.raw.buf.isEmpty = false := by
    cases hc : c.buf with
    | nil => simp [hc] at h; omega
    | cons a as => simp [IBinary.raw, hc]
  have hle := b.le_length_reserve needed
  unfold reserve
  by_cases hlt : b.buf.length < needed
  · have hgrow : sizeT (b.raw.growLen needed) = b.growLen needed := sizeT_eq (hroom.2 hlt)
    have hup : needed ≤ b.growLen needed := b.le_growLen needed
    have hsize : b.growLen needed < 2 ^ 64 := hroom.2 hlt
    have hsub : sizeSub (b.growLen needed) b.buf.length = b.growLen needed - b.buf.length :=
      sizeSub_eq hsize (by omega)
    have hsum : sizeT (b.buf.length + (b.growLen needed - b.buf.length)) = b.growLen needed := by
      rw [sizeT_eq (by omega)]
      omega
    have hres : b.reserve needed = b.realloc (b.growLen needed) := if_pos hlt
    rw [if_pos (show b.raw.buf.length < needed from hlt),
      if_pos (show b.raw.growbyLen ≠ 0 from b.growbyLen_ne)]
    simp only [hgrow]
    rw [show b.raw.buf.length = b.buf.length from rfl, hsub, hsum, realloc_raw, ← hres, hbuf _ hle]
    rfl
  · have hres : b.reserve needed = b := if_neg hlt
    rw [if_neg (show ¬ b.raw.buf.length < needed from hlt), hres, hbuf b (by omega)]
    rfl

theorem insert_raw (b : IBinary) (src : Source) (offset : Nat)
    (hroom : b.raw.RoomFor (b.dataLen + src.data.length)) :
    b.raw.insert src offset = some (b.insert src.data offset).raw := by
  cases src with
  | null n => simp [insert, IBinary.insert, Source.data]
  | bytes data =>
    rw [show (Source.bytes data).data = data from rfl] at hroom ⊢
    unfold insert IBinary.insert
    dsimp only
    by_cases hgo : data ≠ [] ∧ offset ≤ b.dataLen
    · have hne : data.length ≠ 0 := fun h => hgo.1 (List.eq_nil_of_length_eq_zero h)
      have hsize : sizeT (b.dataLen + data.length) = b.dataLen + data.length := sizeT_eq hroom.1
      have hlen := b.le_length_reserve (b.dataLen + data.length)
      have hdata := b.dataLen_reserve (b.dataLen + data.length)
      have hres := reserve_raw b (by omega) hroom
      rw [if_pos (show data ≠ [] ∧ offset ≤ b.raw.dataLen from hgo), if_pos hgo]
      rw [show b.raw.dataLen = b.dataLen from rfl, hsize, hres]
      show _ = some (RawBinary.mk ((b.reserve (b.dataLen + data.length)).openGap data offset)
        (b.dataLen + data.length) (b.reserve (b.dataLen + data.length)).growbyLen)
      generalize b.reserve (b.dataLen + data.length) = room at hlen hdata
      have hoff : offset ≤ room.dataLen := hdata ▸ hgo.2
      simp only [↓reduceIte, IBinary.raw, hdata, hsize]
      have hmoved : (if offset < b.dataLen then
            memmove room.buf (offset + data.length) offset (b.dataLen - offset)
          else some room.buf) = some (if offset < b.dataLen then
            overwrite room.buf (offset + data.length) (peekAt room.buf offset (b.dataLen - offset))
          else room.buf) := by
        split
        · exact memmove_eq (by omega) (by omega)
        · rfl
      have hgrown : room.buf.length ≤ (if offset < b.dataLen then
          overwrite room.buf (offset + data.length) (peekAt room.buf offset (b.dataLen - offset))
          else room.buf).length := by
        split
        · exact IBinary.length_le_overwrite _ _ _
        · exact le_refl _
      rw [hmoved, Option.bind_eq_bind, Option.bind_some, poke_eq (by omega)]
      simp only [Option.bind_some, IBinary.openGap, hdata]
    · rw [if_neg (show ¬ (data ≠ [] ∧ offset ≤ b.raw.dataLen) from hgo), if_neg hgo]

theorem truncate_raw (b : IBinary) (hbuf : b.buf.length < 2 ^ 64) (n : Nat) :
    b.raw.truncate n = some (b.truncate n).raw := by
  have hdata := b.dataLen_le
  unfold truncate IBinary.truncate
  by_cases hlt : n < b.dataLen
  · have hne : b.buf ≠ [] := by
      rintro h
      simp [h] at hdata
      omega
    rw [if_pos (show b.raw.buf ≠ [] ∧ n < b.raw.dataLen from ⟨hne, hlt⟩), dif_pos hlt]
    rw [show b.raw.buf.length = b.buf.length from rfl, sizeSub_eq hbuf (by omega),
      poke_eq (by rw [List.length_replicate]; show n + _ ≤ b.buf.length; omega)]
    have hdrop : List.drop (n + (b.buf.length - n)) b.buf = [] := List.drop_of_length_le (by omega)
    simp [IBinary.raw, overwrite, hdrop]
  · rw [if_neg (fun h => hlt h.2), dif_neg hlt]

theorem delete_raw (b : IBinary) (hbuf : b.buf.length < 2 ^ 64) {offset bytes : Nat}
    (hsum : offset + bytes < 2 ^ 64) :
    b.raw.delete offset bytes = some (b.delete offset bytes).raw := by
  have hdata := b.dataLen_le
  unfold delete IBinary.delete
  rw [sizeT_eq hsum]
  by_cases hgo : bytes ≠ 0 ∧ offset + bytes ≤ b.dataLen
  · have hne : b.buf ≠ [] := by
      rintro h
      simp [h] at hdata
      omega
    have hone : sizeSub b.raw.dataLen offset = b.dataLen - offset :=
      sizeSub_eq (show b.dataLen < _ by omega) (by show _ ≤ b.dataLen; omega)
    have htwo : sizeSub (b.dataLen - offset) bytes = b.dataLen - offset - bytes :=
      sizeSub_eq (by omega) (by omega)
    have hlen : sizeSub b.raw.dataLen bytes = b.dataLen - bytes :=
      sizeSub_eq (show b.dataLen < _ by omega) (by show _ ≤ b.dataLen; omega)
    have hmoved := IBinary.length_le_overwrite b.buf offset
      (peekAt b.buf (offset + bytes) (b.dataLen - offset - bytes))
    rw [if_pos (show b.raw.buf ≠ [] ∧ bytes ≠ 0 ∧ offset + bytes ≤ b.raw.dataLen from
      ⟨hne, hgo⟩), dif_pos hgo]
    simp only [hone, htwo, hlen]
    rw [show b.raw.buf = b.buf from rfl, memmove_eq (by omega) (by omega),
      Option.bind_eq_bind, Option.bind_some, poke_eq (by rw [List.length_replicate]; omega)]
    rfl
  · rw [if_neg (fun h => hgo h.2), dif_neg hgo]

theorem shrink_raw (b : IBinary) (hbuf : b.buf.length < 2 ^ 64) {n : Nat}
    (hsum : min n b.dataLen + b.growbyLen ≤ 2 ^ 64) : b.raw.shrink n = some (b.shrink n).raw := by
  have hcut := (b.truncate n).dataLen_le
  have hlen : (b.truncate n).buf.length < 2 ^ 64 := by rwa [IBinary.length_truncate]
  have hpos := Nat.pos_of_ne_zero (b.truncate n).growbyLen_ne
  have hfree : sizeSub (b.truncate n).raw.buf.length (b.truncate n).raw.dataLen =
      (b.truncate n).buf.length - (b.truncate n).dataLen := sizeSub_eq hlen hcut
  have hgrow : (b.truncate n).growbyLen = b.growbyLen := IBinary.growbyLen_truncate b n
  have hround : sizeSub ((b.truncate n).raw.dataLen + (b.truncate n).raw.growbyLen) 1 =
      (b.truncate n).dataLen + (b.truncate n).growbyLen - 1 := by
    have hdata := IBinary.dataLen_truncate b n
    show sizeSub ((b.truncate n).dataLen + (b.truncate n).growbyLen) 1 = _
    unfold sizeSub sizeT
    omega
  have hsize : sizeT (((b.truncate n).dataLen + (b.truncate n).growbyLen - 1) /
      (b.truncate n).growbyLen * (b.truncate n).growbyLen) =
      ((b.truncate n).dataLen + (b.truncate n).growbyLen - 1) /
        (b.truncate n).growbyLen * (b.truncate n).growbyLen := by
    refine sizeT_eq (lt_of_le_of_lt (Nat.div_mul_le_self _ _) ?_)
    have hdata := IBinary.dataLen_truncate b n
    omega
  unfold shrink IBinary.shrink
  rw [truncate_raw b hbuf, Option.bind_eq_bind, Option.bind_some]
  simp only [hfree, hround]
  rw [show (b.truncate n).raw.growbyLen = (b.truncate n).growbyLen from rfl]
  by_cases hgo : n = 0 ∨
      (b.truncate n).growbyLen < (b.truncate n).buf.length - (b.truncate n).dataLen
  · rw [if_pos hgo, if_pos hgo, hsize, realloc_raw]
    simp [b.growbyLen_ne]
  · rw [if_neg hgo, if_neg hgo]

/-- The buffer `IBinary_Clone` has allocated needs no growing. -/
theorem roomFor_clone (b : IBinary) {src : Source} (hsum : src.length < 2 ^ 64) :
    ((b.truncate 0).realloc src.length).raw.RoomFor
      (((b.truncate 0).realloc src.length).dataLen + src.data.length) := by
  have hzero : ((b.truncate 0).realloc src.length).dataLen = 0 := by
    show min (b.truncate 0).dataLen src.length = 0
    simp
  have hle : src.data.length ≤ src.length := by cases src <;> simp [Source.data, Source.length]
  have hlen : ((b.truncate 0).realloc src.length).raw.buf.length = src.length :=
    IBinary.length_realloc _ _
  exact ⟨by omega, fun hlt => by omega⟩

/-- `IBinary_Clone` may be told a length together with a null pointer. -/
theorem clone_raw (b : IBinary) (hbuf : b.buf.length < 2 ^ 64) (src : Source)
    (hsum : src.length < 2 ^ 64) : b.raw.clone src =
      some (((b.truncate 0).realloc src.length).insert src.data 0).raw := by
  rw [clone, truncate_raw b hbuf, Option.bind_eq_bind, Option.bind_some, realloc_raw]
  exact insert_raw _ src 0 (roomFor_clone b hsum)

end RawBinary

/-! ## The allocation stays a `size_t` -/

namespace IBinary

theorem length_reserve_lt (b : IBinary) {needed : Nat} (hbuf : b.buf.length < 2 ^ 64)
    (hroom : b.raw.RoomFor needed) : (b.reserve needed).buf.length < 2 ^ 64 := by
  unfold reserve
  split
  case isTrue hlt =>
    rw [length_realloc]
    exact hroom.2 hlt
  case isFalse => exact hbuf

theorem length_insert_lt (b : IBinary) (bytes : List UInt8) (offset : Nat)
    (hbuf : b.buf.length < 2 ^ 64) (hroom : b.raw.RoomFor (b.dataLen + bytes.length)) :
    (b.insert bytes offset).buf.length < 2 ^ 64 := by
  unfold insert
  split
  case isTrue hgo =>
    have hlt := b.length_reserve_lt hbuf hroom
    have hlen := b.le_length_reserve (b.dataLen + bytes.length)
    have hdata := b.dataLen_reserve (b.dataLen + bytes.length)
    show ((b.reserve (b.dataLen + bytes.length)).openGap bytes offset).length < _
    generalize b.reserve (b.dataLen + bytes.length) = room at hlt hlen hdata
    have htail : (peekAt room.buf offset (room.dataLen - offset)).length =
        room.dataLen - offset := length_peekAt (by omega)
    unfold openGap
    split
    · rw [length_overwrite, length_overwrite]
      · exact hlt
      · omega
      · rw [length_overwrite] <;> omega
    · rw [length_overwrite]
      · exact hlt
      · omega
  case isFalse => exact hbuf

theorem length_delete (b : IBinary) (offset bytes : Nat) :
    (b.delete offset bytes).buf.length = b.buf.length := by
  have hdata := b.dataLen_le
  unfold delete
  split
  case isTrue hgo =>
    have htail := @length_peekAt b.buf (offset + bytes) (b.dataLen - offset - bytes) (by omega)
    have hmoved : (overwrite b.buf offset (peekAt b.buf (offset + bytes)
        (b.dataLen - offset - bytes))).length = b.buf.length :=
      length_overwrite (by omega)
    show (overwrite (overwrite _ _ _) _ _).length = _
    rw [length_overwrite (by rw [hmoved, List.length_replicate]; omega), hmoved]
  case isFalse => rfl

theorem length_shrink_lt (b : IBinary) (n : Nat) (hbuf : b.buf.length < 2 ^ 64)
    (hsum : min n b.dataLen + b.growbyLen ≤ 2 ^ 64) : (b.shrink n).buf.length < 2 ^ 64 := by
  have hdata := dataLen_truncate b n
  have hpos := Nat.pos_of_ne_zero b.growbyLen_ne
  unfold shrink
  dsimp only
  split
  · rw [length_realloc]
    split
    · refine lt_of_le_of_lt (Nat.div_mul_le_self _ _) ?_
      rw [growbyLen_truncate]
      omega
    · omega
  · rw [length_truncate]
    exact hbuf

end IBinary

/-! ## Runs -/

/-- One call on a buffer. -/
inductive BinaryCall
  | append (src : Source)
  | insert (src : Source) (offset : Nat)
  | copy (src : Source)
  | clone (src : Source)
  | delete (offset bytes : Nat)
  | truncate (dataLen : Nat)
  | shrink (dataLen : Nat)
  | setGrowBy (growbyLen : Nat)
  deriving DecidableEq

/-- What a call does to a list of bytes. -/
def BinaryCall.onList (l : List UInt8) : BinaryCall → List UInt8
  | append src => l ++ src.data
  | insert src offset => if offset ≤ l.length then l.take offset ++ src.data ++ l.drop offset else l
  | copy src => src.data
  | clone src => src.data
  | delete offset bytes =>
    if offset + bytes ≤ l.length then l.take offset ++ l.drop (offset + bytes) else l
  | truncate n => l.take n
  | shrink n => l.take n
  | setGrowBy _ => l

namespace RawBinary

/-- `IBinary_Create`. -/
def create : RawBinary := IBinary.create.raw

/-- The sums and the rounded lengths a call computes are below `2 ^ 64`. -/
def Fits (b : RawBinary) : BinaryCall → Prop
  | .append src => b.RoomFor (b.dataLen + src.data.length)
  | .insert src _ => b.RoomFor (b.dataLen + src.data.length)
  | .copy src => b.RoomFor src.data.length
  | .clone src => src.length < 2 ^ 64
  | .delete offset bytes => offset + bytes < 2 ^ 64
  | .truncate _ => True
  | .shrink n => min n b.dataLen + b.growbyLen ≤ 2 ^ 64
  | .setGrowBy _ => True

instance (b : RawBinary) (call : BinaryCall) : Decidable (b.Fits call) := by
  cases call <;> unfold Fits <;> infer_instance

/-- One call; none where it would write outside the buffer. -/
def step (b : RawBinary) : BinaryCall → Option RawBinary
  | .append src => b.append src
  | .insert src offset => b.insert src offset
  | .copy src => b.copy src
  | .clone src => b.clone src
  | .delete offset bytes => b.delete offset bytes
  | .truncate n => b.truncate n
  | .shrink n => b.shrink n
  | .setGrowBy n => some (b.setGrowBy n)

/-- The structure is a well-formed buffer that holds the list. -/
def Holds (l : List UInt8) (r : RawBinary) : Prop :=
  ∃ b : IBinary, r = b.raw ∧ b.buf.length < 2 ^ 64 ∧ b.contents = l

theorem holds_insert (b : IBinary) (src : Source) (offset : Nat) (hbuf : b.buf.length < 2 ^ 64)
    (hroom : b.raw.RoomFor (b.dataLen + src.data.length)) :
    ∃ r, b.raw.insert src offset = some r ∧
      Holds ((BinaryCall.insert src offset).onList b.contents) r := by
  refine ⟨_, insert_raw b src offset hroom, _, rfl, b.length_insert_lt _ offset hbuf hroom, ?_⟩
  rw [BinaryCall.onList, IBinary.length_contents]
  split
  case isTrue hle => exact b.contents_insert _ hle
  case isFalse hgt =>
    congr 1
    exact if_neg fun h => hgt h.2

/-- Copying is inserting into a buffer that was emptied. -/
theorem holds_copy (b : IBinary) (src : Source) (hlen : b.buf.length < 2 ^ 64)
    (hroom : b.raw.RoomFor src.data.length) :
    ∃ r', b.raw.copy src = some r' ∧ Holds ((BinaryCall.copy src).onList b.contents) r' := by
  have hcut : (b.truncate 0).buf.length < 2 ^ 64 := by rwa [IBinary.length_truncate]
  have hzero : (b.truncate 0).dataLen = 0 := by simp
  have hroom₁ : (b.truncate 0).raw.RoomFor ((b.truncate 0).dataLen + src.data.length) := by
    have hsame : (b.truncate 0).raw.growLen = b.raw.growLen := by
      funext n
      rw [growLen, show (b.truncate 0).raw.growbyLen = b.raw.growbyLen from b.growbyLen_truncate 0]
      rfl
    rw [hzero, Nat.zero_add, RoomFor, hsame]
    show _ ∧ ((b.truncate 0).buf.length < _ → _)
    rw [IBinary.length_truncate]
    exact hroom
  obtain ⟨r, hr, hholds⟩ := holds_insert _ src 0 hcut hroom₁
  refine ⟨r, ?_, ?_⟩
  · rw [copy, truncate_raw b hlen]
    exact hr
  · simpa [BinaryCall.onList] using hholds

/-- **A call does to the buffer what it does to the list.** -/
theorem holds_step {l : List UInt8} {r : RawBinary} {call : BinaryCall} (hfits : r.Fits call)
    (hr : Holds l r) : ∃ r', r.step call = some r' ∧ Holds (call.onList l) r' := by
  obtain ⟨b, rfl, hbuf, rfl⟩ := hr
  cases call with
  | append src =>
    obtain ⟨r, hr, hholds⟩ := holds_insert b src b.dataLen hbuf hfits
    refine ⟨r, hr, ?_⟩
    have hlen : b.contents.length ≤ b.dataLen := by simp [IBinary.getLen]
    rwa [BinaryCall.onList, IBinary.length_contents,
      if_pos (show b.dataLen ≤ b.getLen from le_refl _), List.take_of_length_le hlen,
      List.drop_of_length_le hlen, List.append_nil] at hholds
  | insert src offset => exact holds_insert b src offset hbuf hfits
  | copy src => exact holds_copy b src hbuf hfits
  | clone src =>
    have hlen : ((b.truncate 0).realloc src.length).buf.length < 2 ^ 64 := by
      rw [IBinary.length_realloc]
      exact hfits
    have hnone : ((b.truncate 0).realloc src.length).contents = [] := by
      have hdata : ((b.truncate 0).realloc src.length).dataLen = 0 := by
        show min (b.truncate 0).dataLen src.length = 0
        simp
      rw [IBinary.contents, hdata, List.take_zero]
    refine ⟨_, clone_raw b hbuf src hfits, _, rfl,
      IBinary.length_insert_lt _ _ 0 hlen (roomFor_clone b hfits), ?_⟩
    rw [IBinary.contents_insert _ _ (Nat.zero_le _), hnone]
    simp [BinaryCall.onList]
  | delete offset bytes =>
    refine ⟨_, delete_raw b hbuf hfits, _, rfl, ?_, ?_⟩
    · rwa [IBinary.length_delete]
    · rw [BinaryCall.onList, IBinary.length_contents]
      split
      case isTrue hle => exact b.contents_delete hle
      case isFalse hgt =>
        congr 1
        exact dif_neg fun h => hgt h.2
  | truncate n =>
    exact ⟨_, truncate_raw b hbuf n, _, rfl, by rwa [IBinary.length_truncate],
      b.contents_truncate n⟩
  | shrink n =>
    exact ⟨_, shrink_raw b hbuf hfits, _, rfl, b.length_shrink_lt n hbuf hfits, b.contents_shrink n⟩
  | setGrowBy n =>
    refine ⟨_, rfl, b.setGrowBy n, ?_, ?_, b.contents_setGrowBy n⟩
    · unfold setGrowBy IBinary.setGrowBy
      split <;> simp_all [IBinary.raw]
    · unfold IBinary.setGrowBy
      split <;> exact hbuf

/-- **`IBinary` refines a list of bytes.**  Whatever the order of the calls, none writes outside
the buffer, the data stays inside it, and it is what the calls make of a list. -/
theorem run_refines_list (calls : List BinaryCall) (h : EveryStep step Fits create calls) :
    ∃ b, run step create calls = some b ∧ b.dataLen ≤ b.buf.length ∧
      b.contents = calls.foldl BinaryCall.onList [] := by
  have hstep (l : List UInt8) (r : RawBinary) (call : BinaryCall) (hfits : r.Fits call)
      (hr : Holds l r) : ∃ r', r.step call = some r' ∧ Holds (call.onList l) r' :=
    holds_step hfits hr
  obtain ⟨r, hrun, b, rfl, -, hb⟩ := run_refines hstep h
    (show Holds [] create from ⟨IBinary.create, rfl, by decide, rfl⟩)
  exact ⟨b.raw, hrun, b.dataLen_le, hb⟩

end RawBinary

/-! ## Overwriting -/

namespace RawBinary

/-- `IBinary_CopyOver` overwrites: the data is as long as it was, or as the bytes reach, it
is inside the buffer, and only the bytes from `offset` on are other ones. -/
def Overwrites (b : IBinary) (data : List UInt8) (offset : Nat) : Prop :=
  ∃ r, b.raw.copyOver (.bytes data) offset = some r ∧
    r.dataLen = max b.dataLen (offset + data.length) ∧ r.dataLen ≤ r.buf.length ∧
    r.contents = b.contents.take offset ++ data ++ b.contents.drop (offset + data.length)

/-- What `IBinary_CopyOver` leaves: the length is moved by `bytes - offset`. -/
theorem copyOver_raw (b : IBinary) {data : List UInt8} {offset : Nat} (hne : data ≠ [])
    (hoff : offset ≤ b.dataLen) (hroom : b.raw.RoomFor (offset + data.length)) :
    b.raw.copyOver (.bytes data) offset =
      some ⟨overwrite (b.reserve (offset + data.length)).buf offset data,
        if b.dataLen < offset + data.length then sizeT (b.dataLen + sizeSub data.length offset)
          else b.dataLen, (b.reserve (offset + data.length)).growbyLen⟩ := by
  have hpos : data.length ≠ 0 := fun h => hne (List.eq_nil_of_length_eq_zero h)
  have hlen := b.le_length_reserve (offset + data.length)
  have hdata := b.dataLen_reserve (offset + data.length)
  unfold copyOver
  dsimp only
  rw [if_pos (show data ≠ [] ∧ offset ≤ b.raw.dataLen from ⟨hne, hoff⟩), sizeT_eq hroom.1,
    reserve_raw b (by omega) hroom]
  simp only [↓reduceIte, IBinary.raw, hdata]
  rw [poke_eq (by omega), Option.bind_eq_bind, Option.bind_some]

/-- **`IBinary_CopyOver` is right just inside the data, and from its exact middle on.** -/
theorem overwrites_iff (b : IBinary) {data : List UInt8} {offset : Nat} (hne : data ≠ [])
    (hoff : offset ≤ b.dataLen) (hbuf : b.buf.length < 2 ^ 64)
    (hroom : b.raw.RoomFor (offset + data.length)) :
    Overwrites b data offset ↔ offset + data.length ≤ b.dataLen ∨ b.dataLen = 2 * offset := by
  have hpos : data.length ≠ 0 := fun h => hne (List.eq_nil_of_length_eq_zero h)
  have hin := b.dataLen_le
  have hfit : offset + data.length < 2 ^ 64 := hroom.1
  have hlen := b.le_length_reserve (offset + data.length)
  have hdata := b.dataLen_reserve (offset + data.length)
  have hcont := b.contents_reserve (offset + data.length)
  have hsame : (overwrite (b.reserve (offset + data.length)).buf offset data).length =
      (b.reserve (offset + data.length)).buf.length := length_overwrite hlen
  rw [Overwrites, copyOver_raw b hne hoff hroom]
  simp only [Option.some.injEq, exists_eq_left']
  by_cases hinside : offset + data.length ≤ b.dataLen
  · have hpatch := (b.reserve (offset + data.length)).contents_patch
      (show offset + data.length ≤ (b.reserve _).dataLen by omega)
    have hroomy := (b.reserve (offset + data.length)).dataLen_le
    rw [if_neg (by omega)]
    refine iff_of_true ⟨by omega, by omega, ?_⟩ (Or.inl hinside)
    rw [hcont] at hpatch
    rw [contents, ← hdata]
    exact hpatch
  · rw [if_pos (by omega)]
    have hmove : sizeT (b.dataLen + sizeSub data.length offset) = offset + data.length ↔
        b.dataLen = 2 * offset := by
      unfold sizeSub sizeT
      omega
    have hmax : max b.dataLen (offset + data.length) = offset + data.length := by omega
    rw [hmax, hmove, or_iff_right hinside]
    refine ⟨And.left, fun hmid => ⟨hmid, ?_, ?_⟩⟩
    · rw [hmove.2 hmid, hsame]
      exact hlen
    · have hfront : (b.reserve (offset + data.length)).buf.take offset =
          b.contents.take offset := by
        rw [← hcont, IBinary.contents, List.take_take, Nat.min_eq_left (by omega)]
      have hnone : b.contents.drop (offset + data.length) = [] :=
        List.drop_of_length_le (by rw [IBinary.length_contents, IBinary.getLen]; omega)
      rw [contents, hmove.2 hmid, take_overwrite (by omega) (le_refl _), hfront, hnone]
      simp [peekAt]

/-- A buffer that holds three bytes. -/
def threeBytes : IBinary := (IBinary.create.setGrowBy 4).append [1, 2, 3]

/-- Two bytes at the end of three leave two. -/
theorem not_overwrites_threeBytes : ¬ Overwrites threeBytes [8, 9] 3 := by
  rintro ⟨r, hr, hlen, -⟩
  have hend : threeBytes.raw.copyOver (.bytes [8, 9]) 3 =
      some ⟨[1, 2, 3, 8, 9, 0, 0, 0], 2, 4⟩ := by decide
  rw [hend] at hr
  cases hr
  revert hlen
  decide

/-- One byte over the second of three. -/
theorem overwrites_threeBytes : Overwrites threeBytes [9] 1 :=
  (overwrites_iff threeBytes (by decide) (by decide) (by decide) (by decide)).mpr
    (Or.inl (by decide))

/-- Bytes that come, are cut, moved and copied. -/
theorem run_refines_list_five :
    ∃ b, run step create [.append (.bytes [1, 2, 3]), .insert (.bytes [7]) 1, .delete 0 2,
        .truncate 1, .clone (.bytes [4, 5])] = some b ∧ b.dataLen ≤ b.buf.length ∧
      b.contents = [4, 5] :=
  run_refines_list [.append (.bytes [1, 2, 3]), .insert (.bytes [7]) 1, .delete 0 2, .truncate 1,
    .clone (.bytes [4, 5])] (by decide +kernel)

end RawBinary

import Dptf.Common.Types
import Dptf.Lib.Bytes

/-!
# `EsifData`: a typed buffer with a capacity and a length

The C structure as it is, with the memory behind `buf_ptr` as a byte list: the
two lengths are fields of their own and nothing in the structure makes them
agree with each other or with the buffer.
-/

open Lib

/-- `EsifData`. -/
structure EsifData where
  /-- `type`, an `esif_data_type`. -/
  type : UInt32
  /-- What `buf_ptr` points to; `none` is the null pointer. -/
  bufPtr : Option (List UInt8)
  /-- `buf_len`, the capacity. -/
  bufLen : UInt32
  /-- `data_len`, the bytes in use. -/
  dataLen : UInt32
deriving DecidableEq, Repr

namespace EsifData

/-! ## Cloning -/

/-- The buffer size of a clone, `esif_ccb_max(buf_len, data_len)`. -/
def cloneLen (d : EsifData) : UInt32 := max d.bufLen d.dataLen

/-- The bytes of a clone: `data_len` bytes copied over a zero-filled buffer. -/
def cloneBytes (d : EsifData) (bytes : List UInt8) : List UInt8 :=
  let copied := bytes.take d.dataLen.toNat
  copied ++ List.replicate (d.cloneLen.toNat - copied.length) 0

/-- `EsifData_Clone` with its allocations succeeding.  A null buffer is copied as
it is, lengths included; two zero lengths leave the clone without a buffer. -/
def clone (d : EsifData) : EsifData :=
  match d.bufPtr with
  | none => d
  | some bytes =>
    if d.cloneLen = 0 then { d with bufPtr := none }
    else { d with bufLen := d.cloneLen, bufPtr := some (d.cloneBytes bytes) }

@[simp] theorem clone_dataLen (d : EsifData) : d.clone.dataLen = d.dataLen := by
  unfold clone
  split
  · rfl
  · split <;> rfl

@[simp] theorem clone_type (d : EsifData) : d.clone.type = d.type := by
  unfold clone
  split
  · rfl
  · split <;> rfl

theorem dataLen_le_cloneLen (d : EsifData) : d.dataLen.toNat ≤ d.cloneLen.toNat := by
  unfold cloneLen
  rw [UInt32.toNat_max]
  omega

theorem length_cloneBytes (d : EsifData) (bytes : List UInt8) :
    (d.cloneBytes bytes).length = d.cloneLen.toNat := by
  have hle := d.dataLen_le_cloneLen
  have htake : (bytes.take d.dataLen.toNat).length ≤ d.dataLen.toNat := by simp
  simp only [cloneBytes, List.length_append, List.length_replicate]
  omega

/-- The shape `clone` leaves behind: the buffer is exactly as long as the capacity says,
the data fits in it, and zeros fill the rest. -/
structure IsClone (d : EsifData) : Prop where
  /-- The buffer is as long as the capacity. -/
  length_eq : ∀ bytes, d.bufPtr = some bytes → bytes.length = d.bufLen.toNat
  /-- The data fits. -/
  dataLen_le : d.bufPtr ≠ none → d.dataLen.toNat ≤ d.bufLen.toNat
  /-- There is no buffer of no bytes. -/
  bufLen_ne : d.bufPtr ≠ none → d.bufLen ≠ 0
  /-- Zeros stand behind the data. -/
  drop_eq : ∀ bytes, d.bufPtr = some bytes → bytes.drop d.dataLen.toNat =
    List.replicate (d.bufLen.toNat - d.dataLen.toNat) 0

theorem drop_cloneBytes (d : EsifData) (bytes : List UInt8) :
    (d.cloneBytes bytes).drop d.dataLen.toNat =
      List.replicate (d.cloneLen.toNat - d.dataLen.toNat) 0 := by
  have hlen : (bytes.take d.dataLen.toNat).length ≤ d.dataLen.toNat := by simp
  have hle := d.dataLen_le_cloneLen
  rw [cloneBytes, List.drop_append, List.drop_eq_nil_of_le hlen, List.nil_append,
    List.drop_replicate]
  congr 1
  omega

theorem clone_isClone (d : EsifData) : d.clone.IsClone := by
  cases hsrc : d.bufPtr with
  | none =>
    have hclone : d.clone = d := by simp [clone, hsrc]
    rw [hclone]
    constructor <;> simp [hsrc]
  | some src =>
    by_cases hz : d.cloneLen = 0
    · constructor <;> simp [clone, hsrc, hz]
    · have hclone : d.clone =
          { d with bufLen := d.cloneLen, bufPtr := some (d.cloneBytes src) } := by
        simp [clone, hsrc, hz]
      rw [hclone]
      constructor
      · rintro bytes ⟨⟩
        exact d.length_cloneBytes src
      · exact fun _ => d.dataLen_le_cloneLen
      · exact fun _ => hz
      · rintro bytes ⟨⟩
        exact d.drop_cloneBytes src

/-- What has the shape of a clone is cloned as it is. -/
theorem IsClone.clone_eq {d : EsifData} (h : d.IsClone) : d.clone = d := by
  cases hbuf : d.bufPtr with
  | none => simp [clone, hbuf]
  | some bytes =>
    have hsome : d.bufPtr ≠ none := by simp [hbuf]
    have hle := h.dataLen_le hsome
    have hlen := h.length_eq bytes hbuf
    have hmax : d.cloneLen = d.bufLen := by
      apply UInt32.toNat_inj.mp
      simp only [cloneLen, UInt32.toNat_max]
      omega
    have hbytes : d.cloneBytes bytes = bytes := by
      have htake : (bytes.take d.dataLen.toNat).length = d.dataLen.toNat := by
        rw [List.length_take]
        omega
      rw [cloneBytes, htake, hmax, ← h.drop_eq bytes hbuf]
      exact List.take_append_drop _ _
    simp only [clone, hbuf, hmax, h.bufLen_ne hsome, if_false, hbytes]
    rw [← hbuf]

end EsifData

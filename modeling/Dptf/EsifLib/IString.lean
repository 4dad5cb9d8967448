import Dptf.Common.CString
import Dptf.Common.Types
import Dptf.Lib.Layout

/-!
# Strings that grow

`esif_lib_istring.c`.  An `IString` is a pointer with two lengths: how much is allocated, and
how much of it the text and its terminator take up.  A string that was never filled has no
buffer and no data; a static one has a buffer that is not its own and counts as none.

A function is `none` where it uses memory that is not there, or copies with `memcpy` inside it
from bytes to bytes that overlap them.
-/

open Lib

/-- `ZSTRING_MAXLEN`. -/
def zstringMaxlen : Nat := 64 * 1024

/-- The characters `esif_ccb_strnlen` counts: up to a NUL, and not more than a number.  It takes
a null pointer. -/
def strnText (src : Option (List UInt8)) (siz : Nat) : Option (List UInt8) :=
  match src with
  | none => some []
  | some m =>
    let text := (m.take siz).takeWhile (· ≠ 0)
    if text.length < m.length ∨ siz ≤ m.length then some text else none

/-- `esif_ccb_strcpy` to a place in a buffer. -/
def ccbStrcpy (buffer : Option (List UInt8)) (pos : Nat) (src : Option (List UInt8)) (siz : Nat) :
    Option (Option (List UInt8)) :=
  if siz = 0 then some buffer
  else do
    let text ← strnText src siz
    let m ← buffer
    let m ← poke m pos (text.take (siz - 1) ++ [0])
    return some m

/-- `IString`, without the type that is always the same. -/
structure IString where
  bufPtr : Option (List UInt8)
  bufLen : UInt32
  dataLen : UInt32
deriving DecidableEq, Repr

namespace IString

variable {text old rest : List UInt8} {self src : IString}

/-- `IString_Create`. -/
def create : IString := ⟨none, 0, 0⟩

/-- `IString_CreateAs`. -/
def createAs (bufLen : UInt32) : IString :=
  if bufLen = 0 then create else ⟨some (List.replicate bufLen.toNat 0), bufLen, 1⟩

/-- `ISTRING_STATIC`. -/
def istringStatic (str : Option CName) : IString where
  bufPtr := str.map fun s => s.bytes ++ [0]
  bufLen := 0
  dataLen := str.elim 0 fun s => UInt32.ofNat (min s.bytes.length zstringMaxlen + 1)

/-- `IString_Strlen`. -/
def strlen (self : IString) : UInt32 := if self.dataLen ≠ 0 then self.dataLen - 1 else 0

/-- `IString_Resize`, and whether it gives a buffer. -/
def resize (self : IString) (bufLen : UInt32) : Bool × IString :=
  match self.bufPtr with
  | none => (true, ⟨some (List.replicate bufLen.toNat 0), bufLen, 1⟩)
  | some m =>
    if 0 < self.bufLen ∧ bufLen ≠ 0 then
      let m := (m ++ List.replicate (bufLen.toNat - self.bufLen.toNat) 0).take bufLen.toNat
      if bufLen < self.dataLen then (true, ⟨some (m.set (bufLen.toNat - 1) 0), bufLen, bufLen⟩)
      else (true, ⟨some m, bufLen, self.dataLen⟩)
    else (false, self)

/-- The buffer is made larger where it has to be. -/
def autogrow (self : IString) (bufLen : UInt32) : Bool × IString :=
  if self.bufLen < bufLen then self.resize bufLen else (true, self)

/-- `IString_Truncate`. -/
def truncate (self : IString) : Option IString :=
  if self.dataLen ≠ 0 then do
    let m ← self.bufPtr
    let m ← poke m 0 [0]
    return ⟨some m, self.bufLen, 1⟩
  else some self

/-- `IString_Copy`, and whether it gives a buffer. -/
def copy (self src : IString) : Option (Bool × IString) :=
  match self.autogrow src.dataLen with
  | (false, self) => some (false, self)
  | (true, self) => do
    let bufPtr ← ccbStrcpy self.bufPtr 0 src.bufPtr self.bufLen.toNat
    return (bufPtr.isSome, ⟨bufPtr, self.bufLen, src.dataLen⟩)

/-- `IString_Concat`, and whether it gives a buffer. -/
def concat (self src : IString) : Option (Bool × IString) :=
  let selfLen := self.strlen
  match self.autogrow (selfLen + src.dataLen) with
  | (false, self) => some (false, self)
  | (true, self) => do
    let bufPtr ← ccbStrcpy self.bufPtr selfLen.toNat src.bufPtr (self.bufLen - selfLen).toNat
    return (bufPtr.isSome, ⟨bufPtr, self.bufLen, self.dataLen + (src.dataLen - 1)⟩)

/-- `IString_VSprintfTo` of what the format and its arguments give, and its result. -/
def vsprintfTo (self : IString) (offset : UInt32) (text : CName) : Option (UInt32 × IString) :=
  let len := UInt32.ofNat text.bytes.length
  let offset := if 0 < self.dataLen then min offset (self.dataLen - 1) else 0
  match self.autogrow (offset + len + 1) with
  | (false, self) => some (0, self)
  | (true, self) => do
    let siz := (self.bufLen - offset).toNat
    let printed := if siz = 0 then text.bytes else text.bytes.take (siz - 1)
    let result := offset + UInt32.ofNat printed.length
    let m ← self.bufPtr
    let m ← poke m offset.toNat (if siz = 0 then [] else printed ++ [0])
    return (result, ⟨some m, self.bufLen, result + 1⟩)

/-- `IString_Sprintf`. -/
def sprintf (self : IString) (text : CName) : Option (UInt32 × IString) := self.vsprintfTo 0 text

/-- `IString_SprintfConcat`. -/
def sprintfConcat (self : IString) (text : CName) : Option (UInt32 × IString) :=
  self.vsprintfTo self.strlen text

/-- `IString_Strcpy`. -/
def strcpy (self : IString) (src : Option CName) : Option (Bool × IString) :=
  self.copy (istringStatic src)

/-- `IString_Strcat`. -/
def strcat (self : IString) (src : Option CName) : Option (Bool × IString) :=
  self.concat (istringStatic src)

/-- `IString_Insert`, and whether it gives a buffer. -/
def insert (self : IString) (src : Option CName) (offset : UInt32) : Option (Bool × IString) :=
  match src with
  | none => some (false, self)
  | some src =>
    let selfLen := self.strlen + 1
    let srcLen := UInt32.ofNat (min src.bytes.length zstringMaxlen)
    let offset := if selfLen < offset then selfLen - 1 else offset
    match self.autogrow (selfLen + srcLen) with
    | (false, self) => some (false, self)
    | (true, self) => do
      let m ← self.bufPtr
      let m ← memmove m (offset.toNat + srcLen.toNat) offset.toNat (selfLen - offset).toNat
      let m ← poke m offset.toNat (src.bytes.take srcLen.toNat)
      return (true, ⟨some m, self.bufLen, self.dataLen + srcLen⟩)

/-! ## What a string holds -/

/-- The string was never filled and has no buffer, or it has one with the text in it and a NUL
behind the text, and counts both.  It counts no more than its buffer has. -/
inductive Holds : IString → List UInt8 → Prop
  | neverFilled : Holds create []
  | filled {text rest : List UInt8} {bufLen dataLen : UInt32}
      (hbuf : bufLen.toNat = text.length + 1 + rest.length)
      (hdata : dataLen.toNat = text.length + 1) :
      Holds ⟨some (text ++ 0 :: rest), bufLen, dataLen⟩ text

theorem Holds.dataLen_le (h : Holds self text) : self.dataLen ≤ self.bufLen := by
  cases h with
  | neverFilled => decide
  | filled hbuf hdata =>
    rw [UInt32.le_iff_toNat_le]
    simp only [hbuf, hdata]
    omega

theorem Holds.strlen (h : Holds self text) : self.strlen.toNat = text.length := by
  cases h with
  | neverFilled => rfl
  | @filled text rest bufLen dataLen hbuf hdata =>
    have hne : dataLen ≠ 0 := by
      rintro rfl
      simp at hdata
    have hone : (1 : UInt32) ≤ dataLen := UInt32.le_iff_toNat_le.mpr (by simp [hdata])
    simp only [IString.strlen, if_pos hne, UInt32.toNat_sub_of_le _ _ hone, hdata]
    rfl

/-- A string that grows keeps its text, and has a buffer then. -/
theorem Holds.autogrow (h : Holds self text) {n : UInt32} (hn : 0 < n) :
    ∃ rest bufLen dataLen, self.autogrow n = (true, ⟨some (text ++ 0 :: rest), bufLen, dataLen⟩) ∧
        bufLen.toNat = text.length + 1 + rest.length ∧ dataLen.toNat = text.length + 1 ∧
        n ≤ bufLen := by
  have hpos : 0 < n.toNat := UInt32.lt_iff_toNat_lt.mp hn
  cases h with
  | neverFilled =>
    refine ⟨List.replicate (n.toNat - 1) 0, n, 1, ?_, ?_, rfl, UInt32.le_refl n⟩
    · have hzeros : List.replicate n.toNat (0 : UInt8) = 0 :: List.replicate (n.toNat - 1) 0 := by
        rw [← List.replicate_succ, Nat.sub_add_cancel hpos]
      have hgrow : create.bufLen < n := hn
      rw [IString.autogrow, if_pos hgrow]
      simp [resize, create, hzeros]
    · simp only [List.length_nil, List.length_replicate]
      omega
  | @filled text rest bufLen dataLen hbuf hdata =>
    by_cases hgrow : bufLen < n
    · have hlt := UInt32.lt_iff_toNat_lt.mp hgrow
      have hpos' : 0 < bufLen := UInt32.lt_iff_toNat_lt.mpr (by simp [hbuf])
      have hne : n ≠ 0 := by
        rintro rfl
        simp at hpos
      have hkeep : ¬n < dataLen := by
        rw [UInt32.lt_iff_toNat_lt, hdata]
        omega
      refine ⟨rest ++ List.replicate (n.toNat - bufLen.toNat) 0, n, dataLen, ?_, ?_, hdata,
        UInt32.le_refl n⟩
      · have hall : (text ++ 0 :: rest ++ List.replicate (n.toNat - bufLen.toNat) 0).take n.toNat =
            text ++ 0 :: (rest ++ List.replicate (n.toNat - bufLen.toNat) 0) := by
          rw [List.take_of_length_le]
          · simp
          · simp only [List.length_append, List.length_cons, List.length_replicate]
            omega
        simp only [IString.autogrow, if_pos hgrow, resize, if_pos (And.intro hpos' hne), hall,
          if_neg hkeep]
      · simp only [List.length_append, List.length_replicate]
        omega
    · refine ⟨rest, bufLen, dataLen, ?_, hbuf, hdata, UInt32.not_lt.mp hgrow⟩
      simp only [IString.autogrow, if_neg hgrow]

/-! ## Copies of C strings -/

/-- A C string is read up to its NUL, or as far as there is room. -/
theorem strnText_eq (text : CName) (rest : List UInt8) (siz : Nat) :
    strnText (some (text.bytes ++ 0 :: rest)) siz = some (text.bytes.take siz) := by
  have hread : ((text.bytes ++ 0 :: rest).take siz).takeWhile (· ≠ 0) = text.bytes.take siz := by
    have htext : ∀ b ∈ text.bytes.take siz, decide (b ≠ 0) = true := by
      intro b hb
      have hmem := List.mem_of_mem_take hb
      exact decide_eq_true fun hzero => text.nul_free (hzero ▸ hmem)
    have hstop : ((0 :: rest).take (siz - text.bytes.length)).takeWhile (· ≠ 0) = [] := by
      cases siz - text.bytes.length <;> simp
    rw [List.take_append, List.takeWhile_append_of_pos htext, hstop, List.append_nil]
  have hinside : (text.bytes.take siz).length < (text.bytes ++ 0 :: rest).length := by
    simp only [List.length_take, List.length_append, List.length_cons]
    omega
  simp only [strnText, hread, if_pos (Or.inl hinside)]

/-- A C string is copied with its NUL where there is room for both. -/
theorem ccbStrcpy_eq (m : List UInt8) (text : CName) (rest : List UInt8) (pos siz : Nat)
    (hroom : text.bytes.length < siz) (hin : pos + text.bytes.length + 1 ≤ m.length) :
    ccbStrcpy (some m) pos (some (text.bytes ++ 0 :: rest)) siz =
      some (some (overwrite m pos (text.bytes ++ [0]))) := by
  have hwhole : (text.bytes.take siz).take (siz - 1) = text.bytes := by
    rw [List.take_take, List.take_of_length_le (by omega)]
  have hpoke : pos + (text.bytes ++ [0]).length ≤ m.length := by
    simp only [List.length_append, List.length_singleton]
    omega
  rw [ccbStrcpy, if_neg (by omega), strnText_eq]
  simp only [Option.bind_eq_bind, Option.bind_some, hwhole, poke_eq hpoke]
  rfl

/-! ## What the functions do -/

theorem take_filled (text rest : List UInt8) {n : Nat} (hn : n ≤ text.length) :
    (text ++ 0 :: rest).take n = text.take n := List.take_append_of_le_length hn

/-- A text with its NUL written into a buffer, and what is before it. -/
theorem Holds.of_overwrite {m : List UInt8} (text : List UInt8) (pos : Nat)
    {bufLen dataLen : UInt32}
    (hbuf : bufLen.toNat = m.length) (hfits : pos + text.length + 1 ≤ m.length)
    (hdata : dataLen.toNat = pos + text.length + 1) :
    Holds ⟨some (overwrite m pos (text ++ [0])), bufLen, dataLen⟩ (m.take pos ++ text) := by
  have hform : overwrite m pos (text ++ [0]) =
      (m.take pos ++ text) ++ 0 :: m.drop (pos + text.length + 1) := by
    simp [overwrite, Nat.add_assoc]
  have hlen : (m.take pos).length = pos := by
    rw [List.length_take]
    omega
  rw [hform]
  refine .filled ?_ ?_
  · simp only [List.length_append, List.length_drop, hlen, hbuf]
    omega
  · simp only [List.length_append, hlen, hdata]

/-- `IString_Copy` of a string that holds something. -/
theorem Holds.copy {text : CName} (h : Holds self old)
    (hsrc : src.bufPtr = some (text.bytes ++ 0 :: rest))
    (hdata : src.dataLen.toNat = text.bytes.length + 1) :
    ∃ self', self.copy src = some (true, self') ∧ Holds self' text.bytes := by
  have hpos : 0 < src.dataLen := UInt32.lt_iff_toNat_lt.mpr (by simp [hdata])
  obtain ⟨tail, bufLen, dataLen, hgrow, hbuf, -, hle⟩ := h.autogrow hpos
  have hle := UInt32.le_iff_toNat_le.mp hle
  rw [hdata] at hle
  have hlen : bufLen.toNat = (old ++ 0 :: tail).length := by
    simp only [List.length_append, List.length_cons, hbuf]
    omega
  have hcopy := ccbStrcpy_eq (old ++ 0 :: tail) text rest 0 bufLen.toNat (by omega) (by omega)
  refine ⟨⟨some (overwrite (old ++ 0 :: tail) 0 (text.bytes ++ [0])), bufLen, src.dataLen⟩, ?_, ?_⟩
  · simp only [IString.copy, hgrow, hsrc, hcopy]
    rfl
  · have hholds := Holds.of_overwrite text.bytes 0 hlen (by omega) (hdata.trans (by omega))
    simpa using hholds

/-- `IString_Concat` of a string that holds something. -/
theorem Holds.concat {text : CName} (h : Holds self old)
    (hsrc : src.bufPtr = some (text.bytes ++ 0 :: rest))
    (hdata : src.dataLen.toNat = text.bytes.length + 1)
    (hsize : old.length + text.bytes.length + 1 < 2 ^ 32) :
    ∃ self', self.concat src = some (true, self') ∧ Holds self' (old ++ text.bytes) := by
  have hstrlen := h.strlen
  have hneed : (self.strlen + src.dataLen).toNat = old.length + text.bytes.length + 1 := by
    rw [UInt32.toNat_add, hstrlen, hdata, Nat.mod_eq_of_lt (by omega)]
    omega
  have hpos : 0 < self.strlen + src.dataLen := UInt32.lt_iff_toNat_lt.mpr (by simp [hneed])
  obtain ⟨tail, bufLen, dataLen, hgrow, hbuf, hlen, hle⟩ := h.autogrow hpos
  have hle := UInt32.le_iff_toNat_le.mp hle
  rw [hneed] at hle
  have hm : bufLen.toNat = (old ++ 0 :: tail).length := by
    simp only [List.length_append, List.length_cons, hbuf]
    omega
  have hsub : (bufLen - self.strlen).toNat = bufLen.toNat - old.length := by
    rw [UInt32.toNat_sub_of_le _ _ (UInt32.le_iff_toNat_le.mpr (by omega)), hstrlen]
  have hcopy := ccbStrcpy_eq (old ++ 0 :: tail) text rest old.length (bufLen.toNat - old.length)
    (by omega) (by omega)
  have hone : (1 : UInt32) ≤ src.dataLen := UInt32.le_iff_toNat_le.mpr (by simp [hdata])
  have hdata' : (dataLen + (src.dataLen - 1)).toNat = old.length + text.bytes.length + 1 := by
    rw [UInt32.toNat_add, UInt32.toNat_sub_of_le _ _ hone, hlen, hdata,
      Nat.mod_eq_of_lt (by simp only [UInt32.reduceToNat]; omega)]
    simp only [UInt32.reduceToNat]
    omega
  refine ⟨⟨some (overwrite (old ++ 0 :: tail) old.length (text.bytes ++ [0])), bufLen,
    dataLen + (src.dataLen - 1)⟩, ?_, ?_⟩
  · simp only [IString.concat, hgrow, hsrc, hstrlen, hsub, hcopy]
    rfl
  · have hholds := Holds.of_overwrite text.bytes old.length hm (by omega) hdata'
    rwa [List.take_left'] at hholds
    rfl

/-- `IString_VSprintfTo` from a place in the text on. -/
theorem Holds.vsprintfTo (h : Holds self old) (offset : UInt32) (text : CName)
    (hoffset : offset.toNat ≤ old.length) (hsize : offset.toNat + text.bytes.length + 1 < 2 ^ 32) :
    ∃ n self', self.vsprintfTo offset text = some (n, self') ∧
      Holds self' (old.take offset.toNat ++ text.bytes) := by
  have hclamp : (if 0 < self.dataLen then min offset (self.dataLen - 1) else 0) = offset := by
    cases h with
    | neverFilled =>
      refine UInt32.toNat_inj.mp ?_
      simp only [List.length_nil] at hoffset
      simp [create]
      omega
    | @filled old rest bufLen dataLen hbuf hdata =>
      have hone : (1 : UInt32) ≤ dataLen := UInt32.le_iff_toNat_le.mpr (by simp [hdata])
      have hpos : 0 < dataLen := UInt32.lt_iff_toNat_lt.mpr (by simp [hdata])
      have hle : offset ≤ dataLen - 1 := by
        rw [UInt32.le_iff_toNat_le, UInt32.toNat_sub_of_le _ _ hone, hdata]
        simpa using hoffset
      rw [if_pos hpos]
      exact if_pos hle
  have hofNat : (UInt32.ofNat text.bytes.length).toNat = text.bytes.length := by
    rw [UInt32.toNat_ofNat', Nat.mod_eq_of_lt (by omega)]
  have hsum : (offset + UInt32.ofNat text.bytes.length).toNat =
      offset.toNat + text.bytes.length := by
    rw [UInt32.toNat_add, hofNat, Nat.mod_eq_of_lt (by omega)]
  have hneed : (offset + UInt32.ofNat text.bytes.length + 1).toNat =
      offset.toNat + text.bytes.length + 1 := by
    rw [UInt32.toNat_add, hsum, UInt32.toNat_one, Nat.mod_eq_of_lt hsize]
  have hpos : 0 < offset + UInt32.ofNat text.bytes.length + 1 :=
    UInt32.lt_iff_toNat_lt.mpr (by simp [hneed])
  obtain ⟨tail, bufLen, dataLen, hgrow, hbuf, -, hle⟩ := h.autogrow hpos
  have hle := UInt32.le_iff_toNat_le.mp hle
  rw [hneed] at hle
  have hm : bufLen.toNat = (old ++ 0 :: tail).length := by
    simp only [List.length_append, List.length_cons, hbuf]
    omega
  have hsub : (bufLen - offset).toNat = bufLen.toNat - offset.toNat :=
    UInt32.toNat_sub_of_le _ _ (UInt32.le_iff_toNat_le.mpr (by omega))
  have hwhole : text.bytes.take (bufLen.toNat - offset.toNat - 1) = text.bytes :=
    List.take_of_length_le (by omega)
  have hpoke : offset.toNat + (text.bytes ++ [0]).length ≤ (old ++ 0 :: tail).length := by
    simp only [List.length_append, List.length_singleton, ← hm]
    omega
  have hholds := Holds.of_overwrite text.bytes offset.toNat hm (by omega) hneed
  rw [take_filled old tail hoffset] at hholds
  refine ⟨offset + UInt32.ofNat text.bytes.length, _, ?_, hholds⟩
  rw [IString.vsprintfTo]
  simp only [hclamp, hgrow, hsub, if_neg (show ¬bufLen.toNat - offset.toNat = 0 by omega), hwhole,
    Option.bind_eq_bind, Option.bind_some, poke_eq hpoke]
  rfl

/-- `IString_Insert` in the text, or at its end. -/
theorem Holds.insert (h : Holds self old) {src : CName} (hsrc : src.bytes.length ≤ zstringMaxlen)
    {offset : UInt32} (hoffset : offset.toNat ≠ old.length + 1)
    (hsize : old.length + src.bytes.length + 1 < 2 ^ 32) :
    ∃ self', self.insert (some src) offset = some (true, self') ∧
      Holds self' (old.take offset.toNat ++ src.bytes ++ old.drop offset.toNat) := by
  have hstrlen := h.strlen
  have hselfLen : (self.strlen + 1).toNat = old.length + 1 := by
    rw [UInt32.toNat_add, hstrlen, UInt32.toNat_one, Nat.mod_eq_of_lt (by omega)]
  have hmin : min src.bytes.length zstringMaxlen = src.bytes.length := Nat.min_eq_left hsrc
  have hofNat : (UInt32.ofNat src.bytes.length).toNat = src.bytes.length := by
    rw [UInt32.toNat_ofNat', Nat.mod_eq_of_lt (by omega)]
  -- an offset behind the NUL is that of the NUL
  obtain ⟨place, hplace, hle, hsplit⟩ : ∃ place,
      (if self.strlen + 1 < offset then self.strlen + 1 - 1 else offset) = place ∧
        place.toNat ≤ old.length ∧ old.take offset.toNat = old.take place.toNat ∧
          old.drop offset.toNat = old.drop place.toNat := by
    refine ⟨_, rfl, ?_⟩
    split
    · next hlt =>
      have hlt := UInt32.lt_iff_toNat_lt.mp hlt
      have hone : (1 : UInt32) ≤ self.strlen + 1 := UInt32.le_iff_toNat_le.mpr (by simp [hselfLen])
      rw [UInt32.toNat_sub_of_le _ _ hone, hselfLen, UInt32.toNat_one, Nat.add_sub_cancel]
      refine ⟨Nat.le_refl _, ?_, ?_⟩
      · rw [List.take_length, List.take_of_length_le (by omega)]
      · rw [List.drop_length, List.drop_eq_nil_of_le (by omega)]
    · next hge =>
      rw [UInt32.lt_iff_toNat_lt] at hge
      exact ⟨by omega, rfl, rfl⟩
  have hneed : (self.strlen + 1 + UInt32.ofNat src.bytes.length).toNat =
      old.length + 1 + src.bytes.length := by
    rw [UInt32.toNat_add, hselfLen, hofNat, Nat.mod_eq_of_lt (by omega)]
  have hpos : 0 < self.strlen + 1 + UInt32.ofNat src.bytes.length :=
    UInt32.lt_iff_toNat_lt.mpr (by rw [hneed]; simp)
  obtain ⟨tail, bufLen, dataLen, hgrow, hbuf, hdata, hroom⟩ := h.autogrow hpos
  have hroom := UInt32.le_iff_toNat_le.mp hroom
  rw [hneed] at hroom
  have hm : bufLen.toNat = (old ++ 0 :: tail).length := by
    simp only [List.length_append, List.length_cons, hbuf]
    omega
  have hcount : (self.strlen + 1 - place).toNat = old.length + 1 - place.toNat := by
    rw [UInt32.toNat_sub_of_le _ _ (UInt32.le_iff_toNat_le.mpr (by omega)), hselfLen]
  have hpeek : peekAt (old ++ 0 :: tail) place.toNat (old.length + 1 - place.toNat) =
      old.drop place.toNat ++ [0] := by
    have hfront : old ++ 0 :: tail = (old ++ [0]) ++ tail := by simp
    rw [peekAt, hfront, List.drop_append_of_le_length (by simp only [List.length_append, List.length_singleton]; omega),
      List.take_left' (by simp only [List.length_drop, List.length_append, List.length_singleton]),
      List.drop_append_of_le_length hle]
  have hmove : memmove (old ++ 0 :: tail) (place.toNat + src.bytes.length) place.toNat
      (old.length + 1 - place.toNat) = _ := memmove_eq (by omega) (by omega)
  have hpoke : place.toNat + src.bytes.length ≤ (overwrite (old ++ 0 :: tail)
      (place.toNat + src.bytes.length) (old.drop place.toNat ++ [0])).length := by
    rw [length_overwrite (by simp; omega)]
    omega
  have hdata' : (dataLen + UInt32.ofNat src.bytes.length).toNat =
      place.toNat + (src.bytes ++ old.drop place.toNat).length + 1 := by
    rw [UInt32.toNat_add, hdata, hofNat, Nat.mod_eq_of_lt (by omega)]
    simp only [List.length_append, List.length_drop]
    omega
  have hplaceRoom : place.toNat + src.bytes.length ≤ (old ++ 0 :: tail).length := by omega
  have hholds := Holds.of_overwrite (src.bytes ++ old.drop place.toNat) place.toNat hm
    (by rw [← hm]; simp only [List.length_append, List.length_drop]; omega) hdata'
  rw [take_filled old tail hle, List.append_assoc src.bytes,
    ← overwrite_overwrite_before hplaceRoom, ← List.append_assoc] at hholds
  rw [hsplit.1, hsplit.2]
  refine ⟨_, ?_, hholds⟩
  rw [IString.insert]
  simp only [hmin, hgrow, hplace, hcount, hofNat, hmove, hpeek, Option.bind_eq_bind,
    Option.bind_some, List.take_length, poke_eq hpoke]
  rfl

/-- `IString_Truncate`. -/
theorem Holds.truncate (h : Holds self old) :
    ∃ self', self.truncate = some self' ∧ Holds self' [] := by
  cases h with
  | neverFilled => exact ⟨create, rfl, .neverFilled⟩
  | @filled old rest bufLen dataLen hbuf hdata =>
    have hm : bufLen.toNat = (old ++ 0 :: rest).length := by
      simp only [List.length_append, List.length_cons, hbuf]
      omega
    have hne : dataLen ≠ 0 := by
      rintro rfl
      simp at hdata
    have hfits : 0 + ([] : List UInt8).length + 1 ≤ (old ++ 0 :: rest).length := by
      simp only [List.length_append, List.length_cons, List.length_nil]
      omega
    have hpoke : 0 + [(0 : UInt8)].length ≤ (old ++ 0 :: rest).length := hfits
    have hone : (1 : UInt32).toNat = 0 + ([] : List UInt8).length + 1 := rfl
    refine ⟨_, ?_, Holds.of_overwrite [] 0 hm hfits hone⟩
    rw [IString.truncate, if_pos hne]
    simp only [Option.bind_eq_bind, Option.bind_some, poke_eq hpoke]
    rfl

/-- `IString_Resize` to a size that is enough, and not none. -/
theorem Holds.resize (h : Holds self text) {n : UInt32} (hn : n ≠ 0) (hle : self.dataLen ≤ n) :
    Holds (self.resize n).2 text := by
  have hpos : 0 < n.toNat := Nat.pos_of_ne_zero fun hzero => hn (UInt32.toNat_inj.mp hzero)
  cases h with
  | neverFilled =>
    have hzeros : List.replicate n.toNat (0 : UInt8) =
        [] ++ 0 :: List.replicate (n.toNat - 1) 0 := by
      rw [List.nil_append, ← List.replicate_succ, Nat.sub_add_cancel hpos]
    rw [IString.resize, create, hzeros]
    refine .filled ?_ rfl
    simp only [List.length_nil, List.length_replicate]
    omega
  | @filled text rest bufLen dataLen hbuf hdata =>
    have hle := UInt32.le_iff_toNat_le.mp hle
    simp only [hdata] at hle
    have hpos' : 0 < bufLen := UInt32.lt_iff_toNat_lt.mpr (by simp [hbuf])
    have hkeep : ¬n < dataLen := by
      rw [UInt32.lt_iff_toNat_lt, hdata]
      omega
    have hform : (text ++ 0 :: rest ++ List.replicate (n.toNat - bufLen.toNat) 0).take n.toNat =
        text ++ 0 ::
          (rest ++ List.replicate (n.toNat - bufLen.toNat) 0).take (n.toNat - text.length - 1) := by
      obtain ⟨k, hk⟩ : ∃ k, n.toNat = text.length + (k + 1) :=
        ⟨n.toNat - text.length - 1, by omega⟩
      rw [List.append_assoc, hk, List.take_length_add_append]
      simp
    simp only [IString.resize, if_pos (And.intro hpos' hn), if_neg hkeep, hform]
    refine .filled ?_ hdata
    simp only [List.length_take, List.length_append, List.length_replicate]
    omega

end IString

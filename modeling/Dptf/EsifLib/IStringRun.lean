import Dptf.EsifLib.IString
import Dptf.Lib.Machine

/-!
# A string as a list of characters

The operations on a string that owns its buffer, beside what they should do to a list of
characters.

* `faithful_iff` — **a run keeps to the list just if all its operations are sound**.
-/

open Lib

namespace IString

variable {self src grown self' : IString} {text old : List UInt8} {offset : UInt32}

/-! ## Operations -/

/-- A string that is copied from: one that was never filled, or one that holds a C string. -/
structure Source where
  str : IString
  text : CName
  held : str.bufPtr = none ∧ str.dataLen = 0 ∧ text.bytes = [] ∨
    (∃ rest, str.bufPtr = some (text.bytes ++ 0 :: rest)) ∧
      str.dataLen.toNat = text.bytes.length + 1

/-- An operation on a string. -/
inductive Op
  | strcpy (src : Option CName)
  | copy (src : Source)
  | strcat (src : Option CName)
  | concat (src : Source)
  | sprintf (text : CName)
  | sprintfConcat (text : CName)
  | insert (src : Option CName) (offset : UInt32)
  | truncate
  | resize (bufLen : UInt32)

/-- The operation on the string. -/
def perform (self : IString) : Op → Option IString
  | .strcpy src => (self.strcpy src).map Prod.snd
  | .copy src => (self.copy src.str).map Prod.snd
  | .strcat src => (self.strcat src).map Prod.snd
  | .concat src => (self.concat src.str).map Prod.snd
  | .sprintf text => (self.sprintf text).map Prod.snd
  | .sprintfConcat text => (self.sprintfConcat text).map Prod.snd
  | .insert src offset => (self.insert src offset).map Prod.snd
  | .truncate => self.truncate
  | .resize bufLen => some (self.resize bufLen).2

/-- The characters of a C string; a null pointer has none. -/
def charsOf (src : Option CName) : List UInt8 := src.elim [] CName.bytes

/-- The operation on a list of characters. -/
def edit (text : List UInt8) : Op → List UInt8
  | .strcpy src => charsOf src
  | .copy src => src.text.bytes
  | .strcat src => text ++ charsOf src
  | .concat src => text ++ src.text.bytes
  | .sprintf printed => printed.bytes
  | .sprintfConcat printed => text ++ printed.bytes
  | .insert src offset => text.take offset.toNat ++ charsOf src ++ text.drop offset.toNat
  | .truncate => []
  | .resize _ => text

/-- A size that keeps what the string holds. -/
def keepsData (self : IString) : Op → Bool
  | .resize bufLen => self.dataLen ≤ bufLen && bufLen.toNat < 2 ^ 31
  | _ => true

/-- The string and the list stay within the sizes, and the string is not made smaller than what
it holds. -/
def Allowed (s : IString × List UInt8) (op : Op) : Prop :=
  s.1.bufLen.toNat < 2 ^ 31 ∧ (edit s.2 op).length + 1 < 2 ^ 31 ∧ keepsData s.1 op = true

instance (s : IString × List UInt8) (op : Op) : Decidable (Allowed s op) :=
  inferInstanceAs (Decidable (_ ∧ _ ∧ _))

/-- Both take the same operation. -/
def step (s : IString × List UInt8) (op : Op) : Option (IString × List UInt8) :=
  if Allowed s op then (s.1.perform op).map (·, edit s.2 op) else none

/-- The operation is carried out, and the string holds the list then. -/
def Faithful (s : IString × List UInt8) (op : Op) : Prop :=
  Allowed s op → ∃ self, s.1.perform op = some self ∧ Holds self (edit s.2 op)

/-- A source that was never filled is copied only to a string that was not either, and is not
appended; C strings are not longer than `ZSTRING_MAXLEN`; nothing is inserted just behind the
NUL; and a string without a buffer is given one of some size. -/
def Sound (s : IString × List UInt8) (op : Op) : Prop :=
  Allowed s op →
    match op with
    | .strcpy src => (src = none → s.1.bufPtr = none) ∧ (charsOf src).length ≤ zstringMaxlen
    | .copy src => src.str.bufPtr = none → s.1.bufPtr = none
    | .strcat src => src ≠ none ∧ (charsOf src).length ≤ zstringMaxlen
    | .concat src => src.str.bufPtr ≠ none
    | .insert src offset =>
      (charsOf src).length ≤ zstringMaxlen ∧
        (offset.toNat = s.2.length + 1 → charsOf src = [])
    | .resize bufLen => s.1.bufPtr = none → bufLen ≠ 0
    | .sprintf _ | .sprintfConcat _ | .truncate => True

/-! ## Copying -/

theorem Holds.dataLen_of_bufLen (h : Holds self text) (hbuf : self.bufLen.toNat ≠ 0) :
    self.dataLen.toNat = text.length + 1 := by
  cases h with
  | neverFilled => exact absurd rfl hbuf
  | filled _ hdata => exact hdata

theorem Holds.dataLen_of_ne_nil (h : Holds self text) (hne : text ≠ []) :
    self.dataLen.toNat = text.length + 1 := by
  cases h with
  | neverFilled => exact absurd rfl hne
  | filled _ hdata => exact hdata

/-- A string that was never filled, or has room, is not made larger. -/
theorem autogrow_self {n : UInt32} (h : n ≤ self.bufLen) :
    self.autogrow n = (true, self) := if_neg (UInt32.not_lt.mpr h)

/-- The source of a C string that is short enough. -/
def Source.ofString (src : Option CName) (h : (charsOf src).length ≤ zstringMaxlen) : Source where
  str := istringStatic src
  text := ⟨charsOf src, by
    cases src with
    | none => exact List.not_mem_nil
    | some s => exact s.nul_free⟩
  held := by
    cases src with
    | none => exact Or.inl ⟨rfl, rfl, rfl⟩
    | some s =>
      have hmin : min s.bytes.length zstringMaxlen = s.bytes.length := Nat.min_eq_left h
      refine Or.inr ⟨⟨[], rfl⟩, ?_⟩
      have hlt : s.bytes.length + 1 < 2 ^ 32 := Nat.lt_of_le_of_lt (Nat.succ_le_succ h) (by decide)
      simp only [istringStatic, Option.elim_some, hmin, charsOf]
      rw [UInt32.toNat_ofNat', Nat.mod_eq_of_lt hlt]

/-- What `IString_Copy` leaves counts as much as its source. -/
theorem dataLen_copy {b : Bool} (hgrow : self.autogrow src.dataLen = (true, grown))
    (h : self.copy src = some (b, self')) : self'.dataLen = src.dataLen := by
  simp only [IString.copy, hgrow, Option.bind_eq_bind, Option.bind_eq_some_iff] at h
  obtain ⟨bufPtr, -, h⟩ := h
  cases h
  rfl

/-- `IString_Copy` is right but for a source that was never filled. -/
theorem Holds.copy_iff (h : Holds self old) (src : Source) :
    (∃ self', (self.copy src.str).map Prod.snd = some self' ∧ Holds self' src.text.bytes) ↔
      (src.str.bufPtr = none → self.bufPtr = none) := by
  rcases src.held with ⟨hnone, hzero, hempty⟩ | ⟨⟨rest, hsome⟩, hdata⟩
  · have hgrow := autogrow_self (show src.str.dataLen ≤ self.bufLen by simp [hzero])
    cases h with
    | neverFilled =>
      refine iff_of_true ⟨create, ?_, hempty ▸ .neverFilled⟩ fun _ => rfl
      simp only [IString.copy, hnone, hzero]
      rfl
    | @filled old rest bufLen dataLen hbuf hdata =>
      refine iff_of_false ?_ fun hall => by cases hall hnone
      rintro ⟨self', hcopy, hholds⟩
      have hne : bufLen.toNat ≠ 0 := by omega
      have hpoke : 0 + ([] ++ [(0 : UInt8)]).length ≤ (old ++ 0 :: rest).length := by
        simp only [List.length_append, List.length_cons, List.length_nil]
        omega
      simp only [IString.copy, hgrow, hnone, ccbStrcpy, if_neg hne, strnText, List.take_nil,
        Option.bind_eq_bind, Option.bind_some, poke_eq hpoke] at hcopy
      cases hcopy
      have hcount := hholds.dataLen_of_bufLen hne
      simp [hzero] at hcount
  · refine iff_of_true ?_ fun hnone => by rw [hsome] at hnone; cases hnone
    obtain ⟨self', hcopy, hholds⟩ := h.copy hsome hdata
    exact ⟨self', by rw [hcopy]; rfl, hholds⟩

/-- `IString_Strcpy` also cuts a long C string. -/
theorem Holds.strcpy_iff (h : Holds self old) {src : Option CName} :
    (∃ self', (self.strcpy src).map Prod.snd = some self' ∧ Holds self' (charsOf src)) ↔
      (src = none → self.bufPtr = none) ∧ (charsOf src).length ≤ zstringMaxlen := by
  by_cases hlen : (charsOf src).length ≤ zstringMaxlen
  · have hiff := h.copy_iff (Source.ofString src hlen)
    have hnone : (istringStatic src).bufPtr = none ↔ src = none := by
      cases src <;> simp [istringStatic]
    rw [and_iff_left hlen, ← hnone]
    exact hiff
  · refine iff_of_false ?_ fun hall => hlen hall.2
    rintro ⟨self', hcopy, hholds⟩
    cases src with
    | none => exact hlen (Nat.zero_le _)
    | some s =>
      simp only [charsOf, Option.elim_some, Nat.not_le] at hlen hholds
      have hdata : (istringStatic (some s)).dataLen.toNat = zstringMaxlen + 1 := by
        simp only [istringStatic, Option.elim_some, Nat.min_eq_right (Nat.le_of_lt hlen)]
        rfl
      have hpos : 0 < (istringStatic (some s)).dataLen :=
        UInt32.lt_iff_toNat_lt.mpr (by rw [hdata]; decide)
      obtain ⟨_, _, _, hgrow, -⟩ := h.autogrow hpos
      rw [Option.map_eq_some_iff] at hcopy
      obtain ⟨⟨b, _⟩, hcopy, rfl⟩ := hcopy
      have hcount := hholds.dataLen_of_ne_nil (List.length_pos_iff.mp (by omega))
      rw [dataLen_copy hgrow hcopy, hdata] at hcount
      omega

/-! ## Appending -/

/-- What `IString_Concat` leaves counts what it had and its source, less one NUL. -/
theorem dataLen_concat {b : Bool}
    (hgrow : self.autogrow (self.strlen + src.dataLen) = (true, grown))
    (h : self.concat src = some (b, self')) :
    self'.dataLen = grown.dataLen + (src.dataLen - 1) ∧ self'.bufLen = grown.bufLen := by
  simp only [IString.concat, hgrow, Option.bind_eq_bind, Option.bind_eq_some_iff] at h
  obtain ⟨bufPtr, -, h⟩ := h
  cases h
  exact ⟨rfl, rfl⟩

/-- `IString_Concat` is right but for a source that was never filled: the NUL it takes off is
not there. -/
theorem Holds.concat_iff (h : Holds self old) (src : Source)
    (hsize : old.length + src.text.bytes.length + 1 < 2 ^ 31) :
    (∃ self', (self.concat src.str).map Prod.snd = some self' ∧
      Holds self' (old ++ src.text.bytes)) ↔ src.str.bufPtr ≠ none := by
  rcases src.held with ⟨hnone, hzero, hempty⟩ | ⟨⟨rest, hsome⟩, hdata⟩
  · refine iff_of_false ?_ fun hne => hne hnone
    rintro ⟨self', hconcat, hholds⟩
    rw [hempty, List.append_nil] at hholds
    rw [Option.map_eq_some_iff] at hconcat
    obtain ⟨⟨b, self''⟩, hconcat, rfl⟩ := hconcat
    have hroom : self.strlen + src.str.dataLen ≤ self.bufLen := by
      have hle := UInt32.le_iff_toNat_le.mp h.dataLen_le
      rw [hzero, UInt32.add_zero, UInt32.le_iff_toNat_le, h.strlen]
      cases h with
      | neverFilled => exact Nat.zero_le _
      | filled hbuf hdata =>
        simp only [hbuf]
        omega
    obtain ⟨hdata', hbuf'⟩ := dataLen_concat (autogrow_self hroom) hconcat
    rw [hzero] at hdata'
    have hle := UInt32.le_iff_toNat_le.mp hholds.dataLen_le
    rw [hdata', hbuf'] at hle
    cases h with
    | neverFilled => exact absurd hle (by decide)
    | @filled old rest bufLen dataLen hbuf hdata =>
      have hminus : (dataLen + (0 - 1)).toNat = old.length := by
        rw [UInt32.toNat_add, hdata, show ((0 : UInt32) - 1).toNat = 2 ^ 32 - 1 by rfl]
        omega
      have hcount := hholds.dataLen_of_bufLen (by rw [hbuf']; simp only [hbuf]; omega)
      rw [hdata', hminus] at hcount
      omega
  · refine iff_of_true ?_ fun hnone => by rw [hsome] at hnone; cases hnone
    obtain ⟨self', hconcat, hholds⟩ := h.concat hsome hdata (by omega)
    exact ⟨self', by rw [hconcat]; rfl, hholds⟩

/-- `IString_Strcat` also cuts a long C string. -/
theorem Holds.strcat_iff (h : Holds self old) {src : Option CName}
    (hsize : old.length + (charsOf src).length + 1 < 2 ^ 31) :
    (∃ self', (self.strcat src).map Prod.snd = some self' ∧ Holds self' (old ++ charsOf src)) ↔
      src ≠ none ∧ (charsOf src).length ≤ zstringMaxlen := by
  by_cases hlen : (charsOf src).length ≤ zstringMaxlen
  · have hiff := h.concat_iff (Source.ofString src hlen) hsize
    have hnone : (istringStatic src).bufPtr = none ↔ src = none := by
      cases src <;> simp [istringStatic]
    rw [and_iff_left hlen, ne_eq, ← hnone]
    exact hiff
  · refine iff_of_false ?_ fun hall => hlen hall.2
    rintro ⟨self', hconcat, hholds⟩
    cases src with
    | none => exact hlen (Nat.zero_le _)
    | some s =>
      simp only [charsOf, Option.elim_some, Nat.not_le] at hlen hholds hsize
      have hdata : (istringStatic (some s)).dataLen.toNat = zstringMaxlen + 1 := by
        simp only [istringStatic, Option.elim_some, Nat.min_eq_right (Nat.le_of_lt hlen)]
        rfl
      have hmax : zstringMaxlen = 65536 := rfl
      have hone : (1 : UInt32) ≤ (istringStatic (some s)).dataLen :=
        UInt32.le_iff_toNat_le.mpr (by rw [hdata]; decide)
      have hneed : (self.strlen + (istringStatic (some s)).dataLen).toNat =
          old.length + (zstringMaxlen + 1) := by
        rw [UInt32.toNat_add, h.strlen, hdata, Nat.mod_eq_of_lt (by omega)]
      have hpos : 0 < self.strlen + (istringStatic (some s)).dataLen :=
        UInt32.lt_iff_toNat_lt.mpr (by rw [hneed]; simp)
      obtain ⟨_, _, dataLen, hgrow, -, hgrown, -⟩ := h.autogrow hpos
      rw [Option.map_eq_some_iff] at hconcat
      obtain ⟨⟨b, self''⟩, hconcat, rfl⟩ := hconcat
      have hcount := hholds.dataLen_of_ne_nil (List.length_pos_iff.mp (by simp; omega))
      rw [(dataLen_concat hgrow hconcat).1, UInt32.toNat_add, hgrown,
        UInt32.toNat_sub_of_le _ _ hone, hdata, UInt32.toNat_one, List.length_append,
        Nat.mod_eq_of_lt (by omega)] at hcount
      omega

/-! ## Inserting -/

/-- What `IString_Insert` leaves counts what is copied. -/
theorem dataLen_insert {src : CName} {b : Bool} (hgrow : self.autogrow
      (self.strlen + 1 + UInt32.ofNat (min src.bytes.length zstringMaxlen)) = (true, grown))
    (h : self.insert (some src) offset = some (b, self')) :
    self'.dataLen = grown.dataLen + UInt32.ofNat (min src.bytes.length zstringMaxlen) := by
  simp only [IString.insert, hgrow, Option.bind_eq_bind, Option.bind_eq_some_iff] at h
  obtain ⟨m, -, m', -, m'', -, h⟩ := h
  cases h
  rfl

/-- `IString_Insert` just behind the NUL. -/
theorem Holds.insert_behind (h : Holds self old) {src : CName}
    (hsrc : src.bytes.length ≤ zstringMaxlen) (hoffset : offset.toNat = old.length + 1)
    (hsize : old.length + src.bytes.length + 1 < 2 ^ 31) :
    ∃ rest bufLen dataLen, self.insert (some src) offset =
        some (true, ⟨some (old ++ 0 :: (src.bytes ++ rest)), bufLen, dataLen⟩) ∧
      bufLen.toNat = old.length + 1 + (src.bytes ++ rest).length ∧
      dataLen.toNat = old.length + src.bytes.length + 1 := by
  have hmin : min src.bytes.length zstringMaxlen = src.bytes.length := Nat.min_eq_left hsrc
  have hofNat : (UInt32.ofNat src.bytes.length).toNat = src.bytes.length := by
    rw [UInt32.toNat_ofNat', Nat.mod_eq_of_lt (by omega)]
  have hselfLen : (self.strlen + 1).toNat = old.length + 1 := by
    rw [UInt32.toNat_add, h.strlen, UInt32.toNat_one, Nat.mod_eq_of_lt (by omega)]
  have hself : self.strlen + 1 = offset := UInt32.toNat_inj.mp (hselfLen.trans hoffset.symm)
  have hneed : (offset + UInt32.ofNat src.bytes.length).toNat =
      old.length + 1 + src.bytes.length := by
    rw [UInt32.toNat_add, hoffset, hofNat, Nat.mod_eq_of_lt (by omega)]
  have hpos : 0 < offset + UInt32.ofNat src.bytes.length :=
    UInt32.lt_iff_toNat_lt.mpr (by rw [hneed]; simp)
  obtain ⟨tail, bufLen, dataLen, hgrow, hbuf, hdata, hroom⟩ := h.autogrow hpos
  have hroom := UInt32.le_iff_toNat_le.mp hroom
  rw [hneed] at hroom
  have hmove : memmove (old ++ 0 :: tail) (offset.toNat + src.bytes.length) offset.toNat 0 =
      some (old ++ 0 :: tail) := by
    rw [memmove_eq (by simp; omega) (by simp; omega), peekAt, List.take_zero, overwrite_nil]
  have hpoke : offset.toNat + src.bytes.length ≤ (old ++ 0 :: tail).length := by
    simp only [List.length_append, List.length_cons]
    omega
  have hform : overwrite (old ++ 0 :: tail) offset.toNat src.bytes =
      old ++ 0 :: (src.bytes ++ tail.drop src.bytes.length) := by
    rw [hoffset, overwrite, List.append_cons old, List.take_left' (by simp),
      List.drop_append, List.drop_eq_nil_of_le (by simp)]
    simp
  refine ⟨tail.drop src.bytes.length, bufLen, dataLen + UInt32.ofNat src.bytes.length, ?_, ?_, ?_⟩
  · rw [IString.insert]
    simp only [hmin, hself, hgrow, UInt32.lt_irrefl, if_false, UInt32.sub_self, UInt32.toNat_zero,
      hofNat, hmove, Option.bind_eq_bind, Option.bind_some, List.take_length, poke_eq hpoke, hform]
    rfl
  · simp only [List.length_append, List.length_drop]
    omega
  · rw [UInt32.toNat_add, hdata, hofNat, Nat.mod_eq_of_lt (by omega)]
    omega

/-- `IString_Insert` is right but behind the NUL, where it leaves the NUL in the middle, and cuts
a long C string. -/
theorem Holds.insert_iff (h : Holds self old) {src : Option CName}
    (hsize : old.length + (charsOf src).length + 1 < 2 ^ 31) :
    (∃ self', (self.insert src offset).map Prod.snd = some self' ∧
      Holds self' (old.take offset.toNat ++ charsOf src ++ old.drop offset.toNat)) ↔
      (charsOf src).length ≤ zstringMaxlen ∧
        (offset.toNat = old.length + 1 → charsOf src = []) := by
  cases src with
  | none =>
    refine iff_of_true ⟨self, rfl, ?_⟩ ⟨Nat.zero_le _, fun _ => rfl⟩
    simpa [charsOf] using h
  | some src =>
  simp only [charsOf, Option.elim_some] at hsize ⊢
  by_cases hlen : src.bytes.length ≤ zstringMaxlen
  · rw [and_iff_right hlen]
    by_cases hoffset : offset.toNat = old.length + 1
    · obtain ⟨rest, bufLen, dataLen, hinsert, hbuf, hdata⟩ := h.insert_behind hlen hoffset hsize
      have hall : old.take offset.toNat ++ src.bytes ++ old.drop offset.toNat =
          old ++ src.bytes := by
        rw [List.take_of_length_le (by omega), List.drop_eq_nil_of_le (by omega), List.append_nil]
      rw [hall, hinsert, forall_prop_of_true hoffset]
      constructor
      · rintro ⟨self', hself, hholds⟩
        cases hself
        generalize htext : old ++ src.bytes = text at hholds
        cases hbytes : src.bytes with
        | nil => rfl
        | cons b bytes =>
          have hzero : b ≠ 0 := by
            rintro rfl
            exact src.nul_free (by rw [hbytes]; exact List.mem_cons_self)
          rw [hbytes] at hholds htext
          generalize hm : old ++ 0 :: (b :: bytes ++ rest) = m at hholds
          cases hholds with
          | filled =>
            rw [← htext, List.append_assoc, List.append_cancel_left_eq] at hm
            exact absurd (List.cons.inj hm).1.symm hzero
      · intro hempty
        rw [hempty] at hbuf hdata ⊢
        refine ⟨_, rfl, ?_⟩
        rw [List.append_nil]
        exact .filled (by simpa using hbuf) (by simpa using hdata)
    · obtain ⟨self', hinsert, hholds⟩ := h.insert hlen hoffset (by omega)
      exact iff_of_true ⟨self', by rw [hinsert]; rfl, hholds⟩ fun heq => absurd heq hoffset
  · refine iff_of_false ?_ fun hall => hlen hall.1
    rintro ⟨self', hinsert, hholds⟩
    have hmin : min src.bytes.length zstringMaxlen = zstringMaxlen :=
      Nat.min_eq_right (Nat.le_of_not_le hlen)
    have hmax : zstringMaxlen = 65536 := rfl
    have hneed : (self.strlen + 1 + UInt32.ofNat (min src.bytes.length zstringMaxlen)).toNat =
        old.length + 1 + zstringMaxlen := by
      rw [hmin, UInt32.toNat_add, UInt32.toNat_add, h.strlen, UInt32.toNat_one,
        UInt32.toNat_ofNat', hmax]
      omega
    have hpos : 0 < self.strlen + 1 + UInt32.ofNat (min src.bytes.length zstringMaxlen) :=
      UInt32.lt_iff_toNat_lt.mpr (by rw [hneed]; simp)
    obtain ⟨_, _, dataLen, hgrow, -, hgrown, -⟩ := h.autogrow hpos
    rw [Option.map_eq_some_iff] at hinsert
    obtain ⟨⟨b, self''⟩, hinsert, rfl⟩ := hinsert
    have hlength : (old.take offset.toNat ++ src.bytes ++ old.drop offset.toNat).length =
        old.length + src.bytes.length := by
      simp only [List.length_append, List.length_take, List.length_drop]
      omega
    have hcount := hholds.dataLen_of_ne_nil (List.length_pos_iff.mp (by omega))
    rw [dataLen_insert hgrow hinsert, hmin, UInt32.toNat_add, hgrown, UInt32.toNat_ofNat',
      hlength] at hcount
    omega

/-! ## Runs -/

/-- `IString_Resize` is right but for a string without a buffer that is given none. -/
theorem Holds.resize_iff (h : Holds self text) {bufLen : UInt32} (hle : self.dataLen ≤ bufLen) :
    Holds (self.resize bufLen).2 text ↔ (self.bufPtr = none → bufLen ≠ 0) := by
  constructor
  · rintro hholds hnone rfl
    cases h with
    | neverFilled => exact absurd hholds.dataLen_le (by decide)
    | filled => cases hnone
  · intro hne
    cases h with
    | neverFilled => exact Holds.neverFilled.resize (hne rfl) hle
    | @filled text rest bufLen' dataLen hbuf hdata =>
      refine (Holds.filled hbuf hdata).resize ?_ hle
      rintro rfl
      have hle := UInt32.le_iff_toNat_le.mp hle
      simp only [hdata, UInt32.toNat_zero] at hle
      omega

/-- **One operation.**  It does what it should just if it is sound. -/
theorem Holds.faithful_iff_sound (h : Holds self text) (op : Op) :
    Faithful (self, text) op ↔ Sound (self, text) op := by
  unfold Faithful Sound
  refine forall_congr' fun hallowed => ?_
  obtain ⟨-, hsize, hkeeps⟩ := hallowed
  cases op with
  | strcpy src => exact h.strcpy_iff
  | copy src => exact h.copy_iff src
  | strcat src =>
    simp only [edit, List.length_append] at hsize
    exact h.strcat_iff hsize
  | concat src =>
    simp only [edit, List.length_append] at hsize
    exact h.concat_iff src hsize
  | sprintf printed =>
    refine iff_true_intro ?_
    simp only [edit] at hsize
    have hzero : (0 : UInt32).toNat = 0 := rfl
    obtain ⟨n, self', hprint, hholds⟩ := h.vsprintfTo 0 printed (Nat.zero_le _) (by omega)
    refine ⟨self', ?_, ?_⟩
    · simp only [perform, IString.sprintf, hprint, Option.map_some]
    · rwa [hzero, List.take_zero, List.nil_append] at hholds
  | sprintfConcat printed =>
    refine iff_true_intro ?_
    simp only [edit, List.length_append] at hsize
    have hstrlen := h.strlen
    obtain ⟨n, self', hprint, hholds⟩ := h.vsprintfTo self.strlen printed
      (Nat.le_of_eq hstrlen) (by omega)
    refine ⟨self', ?_, ?_⟩
    · simp only [perform, IString.sprintfConcat, hprint, Option.map_some]
    · rwa [hstrlen, List.take_length] at hholds
  | insert src offset =>
    refine h.insert_iff ?_
    simp only [edit, List.length_append, List.length_take, List.length_drop] at hsize
    omega
  | truncate => exact iff_true_intro h.truncate
  | resize bufLen =>
    simp only [keepsData, Bool.and_eq_true, decide_eq_true_eq] at hkeeps
    simp only [perform, Option.some.injEq, exists_eq_left', edit]
    exact h.resize_iff hkeeps.1

/-- What `IString_Create` and `IString_CreateAs` give holds nothing. -/
theorem holds_createAs (bufLen : UInt32) : Holds (createAs bufLen) [] := by
  by_cases hzero : bufLen = 0
  · rw [createAs, if_pos hzero]
    exact .neverFilled
  · have hpos : 0 < bufLen.toNat :=
      Nat.pos_of_ne_zero fun h => hzero (UInt32.toNat_inj.mp h)
    have hzeros : List.replicate bufLen.toNat (0 : UInt8) =
        [] ++ 0 :: List.replicate (bufLen.toNat - 1) 0 := by
      rw [List.nil_append, ← List.replicate_succ, Nat.sub_add_cancel hpos]
    rw [createAs, if_neg hzero, hzeros]
    refine .filled ?_ rfl
    simp only [List.length_nil, List.length_replicate]
    omega

/-- **When a string is a string buffer.**  In a run all operations do to the string what they do
to a list of characters, just if all of them are sound. -/
theorem faithful_iff (bufLen : UInt32) (ops : List Op) :
    EveryStep step Faithful (createAs bufLen, []) ops ↔
      EveryStep step Sound (createAs bufLen, []) ops := by
  let inv : IString × List UInt8 → Prop := fun s => Holds s.1 s.2
  have hiff : ∀ s op, inv s → (Faithful s op ↔ Sound s op) :=
    fun s op h => Holds.faithful_iff_sound h op
  refine everyStep_congr_of_ok ?_ hiff (holds_createAs bufLen) ops
  intro s op s' hsound hstep h
  have hallowed : Allowed s op := by
    by_contra hnot
    rw [step, if_neg hnot] at hstep
    cases hstep
  obtain ⟨self, hself, hholds⟩ := (hiff s op h).mpr hsound hallowed
  rw [step, if_pos hallowed, hself] at hstep
  cases hstep
  exact hholds

/-- To a string that holds "ab" one is appended that was never filled: it counts one byte less
than before. -/
theorem neverFilled_not_appended :
    ¬∀ (bufLen : UInt32) (ops : List Op),
      EveryStep step Faithful (createAs bufLen, []) ops := by
  intro hall
  let ab : CName := ⟨[97, 98], by decide⟩
  let empty : Source := ⟨create, ⟨[], by decide⟩, Or.inl ⟨rfl, rfl, rfl⟩⟩
  have hfirst : step (createAs 0, []) (.strcpy (some ab)) =
      some (⟨some [97, 98, 0], 3, 3⟩, [97, 98]) := by decide +kernel
  obtain ⟨self, hself, hholds⟩ :=
    ((hall 0 [.strcpy (some ab), .concat empty]).2 _ hfirst).1 (by decide +kernel)
  have hsecond : perform ⟨some [97, 98, 0], 3, 3⟩ (.concat empty) =
      some ⟨some [97, 98, 0], 3, 2⟩ := by decide +kernel
  rw [hsecond] at hself
  cases hself
  exact absurd (hholds.dataLen_of_bufLen (by decide)) (by decide)

end IString

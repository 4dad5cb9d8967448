import Dptf.Lib.Bytes

/-!
# Packed records in a byte string

What a packed C structure is once it lies in a message: fields of fixed width,
one behind the other, read back by position.
-/

namespace Lib

variable {m bs as : List UInt8} {p q n pos dst src : Nat}

/-! ## Checked reads -/

/-- The `n` bytes at `pos`.  Reading no bytes touches nothing, wherever it points. -/
def readAt (m : List UInt8) (pos n : Nat) : Option (List UInt8) :=
  if n = 0 ∨ pos + n ≤ m.length then some ((m.drop pos).take n) else none

/-- The `n` bytes at `pos` as they are, short where the string ends. -/
def peekAt (m : List UInt8) (pos n : Nat) : List UInt8 := (m.drop pos).take n

def readU8 (m : List UInt8) (pos : Nat) : Option UInt8 :=
  (readAt m pos 1).map fun bs => UInt8.ofNat (leDec bs)

def readU16 (m : List UInt8) (pos : Nat) : Option UInt16 :=
  (readAt m pos 2).map fun bs => UInt16.ofNat (leDec bs)

def readU32 (m : List UInt8) (pos : Nat) : Option UInt32 :=
  (readAt m pos 4).map fun bs => UInt32.ofNat (leDec bs)

def readU64 (m : List UInt8) (pos : Nat) : Option UInt64 :=
  (readAt m pos 8).map fun bs => UInt64.ofNat (leDec bs)

/-- A fixed array of `n` bytes. -/
def readVec (m : List UInt8) (pos n : Nat) : Option (Vector UInt8 n) :=
  if h : pos + n ≤ m.length then
    some (Vector.ofFn fun i => m.get ⟨pos + i, by omega⟩)
  else none

/-- What a 32-bit read gives where it succeeds. -/
def peekU32 (m : List UInt8) (pos : Nat) : UInt32 := UInt32.ofNat (leDec (peekAt m pos 4))

/-- What a 64-bit read gives where it succeeds. -/
def peekU64 (m : List UInt8) (pos : Nat) : UInt64 := UInt64.ofNat (leDec (peekAt m pos 8))

theorem isSome_readAt (m : List UInt8) (pos n : Nat) :
    (readAt m pos n).isSome ↔ n = 0 ∨ pos + n ≤ m.length := by
  unfold readAt
  split <;> simp_all

theorem isSome_readU8 (m : List UInt8) (pos : Nat) :
    (readU8 m pos).isSome ↔ pos + 1 ≤ m.length := by
  simp [readU8, isSome_readAt]

theorem isSome_readU64 (m : List UInt8) (pos : Nat) :
    (readU64 m pos).isSome ↔ pos + 8 ≤ m.length := by
  simp [readU64, isSome_readAt]

theorem isSome_readU32 (m : List UInt8) (pos : Nat) :
    (readU32 m pos).isSome ↔ pos + 4 ≤ m.length := by
  simp [readU32, isSome_readAt]

/-- One checked read after another: both succeed. -/
theorem isSome_bind_iff {α β : Type} {x : Option α} {f : α → Option β} {P : Prop}
    (h : ∀ a, x = some a → ((f a).isSome ↔ P)) : (x.bind f).isSome ↔ x.isSome ∧ P := by
  cases x with
  | none => simp
  | some a => simpa using h a rfl

@[simp] theorem isSome_bind_some {α β : Type} (x : Option α) (g : α → β) :
    (x.bind fun a => some (g a)).isSome = x.isSome := by
  cases x <;> rfl

theorem readU32_eq (m : List UInt8) (pos : Nat) :
    readU32 m pos = if pos + 4 ≤ m.length then some (peekU32 m pos) else none := by
  simp only [readU32, readAt, OfNat.ofNat_ne_zero, false_or]
  split <;> rfl

theorem readU64_eq (m : List UInt8) (pos : Nat) :
    readU64 m pos = if pos + 8 ≤ m.length then some (peekU64 m pos) else none := by
  simp only [readU64, readAt, OfNat.ofNat_ne_zero, false_or]
  split <;> rfl

/-! ## A string inside a string -/

/-- `m` holds the bytes `bs` from position `pos` on. -/
def HasAt (m : List UInt8) (pos : Nat) (bs : List UInt8) : Prop :=
  ∃ before after, m = before ++ bs ++ after ∧ before.length = pos

theorem hasAt_append (before bs after : List UInt8) :
    HasAt (before ++ bs ++ after) before.length bs := ⟨before, after, rfl, rfl⟩

theorem hasAt_self (m : List UInt8) : HasAt m 0 m := ⟨[], [], by simp, rfl⟩

/-- **Positions compose.** -/
theorem HasAt.trans {m bs cs : List UInt8} (h : HasAt m p bs) (hin : HasAt bs q cs) :
    HasAt m (p + q) cs := by
  obtain ⟨pre, post, rfl, rfl⟩ := h
  obtain ⟨pre', post', rfl, rfl⟩ := hin
  exact ⟨pre ++ pre', post' ++ post, by simp, by simp⟩

theorem HasAt.peekAt (h : HasAt m p bs) : peekAt m p bs.length = bs := by
  obtain ⟨pre, post, rfl, rfl⟩ := h
  simp [Lib.peekAt]

theorem HasAt.length_le (h : HasAt m p bs) : p + bs.length ≤ m.length := by
  obtain ⟨pre, post, rfl, rfl⟩ := h
  simp only [List.length_append]
  omega

theorem HasAt.left (h : HasAt m p (as ++ bs)) : HasAt m p as := by
  obtain ⟨pre, post, rfl, rfl⟩ := h
  exact ⟨pre, bs ++ post, by simp, rfl⟩

theorem HasAt.right (h : HasAt m p (as ++ bs)) : HasAt m (p + as.length) bs := by
  obtain ⟨pre, post, rfl, rfl⟩ := h
  exact ⟨pre ++ as, post, by simp, by simp⟩

/-- What a string holds, it still holds with more behind it. -/
theorem HasAt.extend (h : HasAt m p bs) (after : List UInt8) : HasAt (m ++ after) p bs := by
  have hm : HasAt (m ++ after) 0 m := (hasAt_self (m ++ after)).left
  exact p.zero_add ▸ hm.trans h

/-- What a string holds, it holds further on with more in front of it. -/
theorem HasAt.shift (h : HasAt m p bs) (before : List UInt8) :
    HasAt (before ++ m) (before.length + p) bs := by
  have hm : HasAt (before ++ m) (0 + before.length) m := (hasAt_self (before ++ m)).right
  rw [Nat.zero_add] at hm
  exact hm.trans h

/-- **A read of what is there** gives it. -/
theorem HasAt.readAt (h : HasAt m p bs) : readAt m p bs.length = some bs := by
  have hle := h.length_le
  obtain ⟨pre, post, rfl, rfl⟩ := h
  rw [Lib.readAt, if_pos (Or.inr hle)]
  simp

theorem HasAt.readU8 {v : UInt8} (h : HasAt m p (leEnc 1 v.toNat)) : readU8 m p = some v := by
  have hread := h.readAt
  rw [length_leEnc] at hread
  rw [Lib.readU8, hread, Option.map_some, leDec_leEnc_of_lt (by have := v.toNat_lt; omega),
    UInt8.ofNat_toNat]

theorem HasAt.readU16 {v : UInt16} (h : HasAt m p (leEnc 2 v.toNat)) : readU16 m p = some v := by
  have hread := h.readAt
  rw [length_leEnc] at hread
  rw [Lib.readU16, hread, Option.map_some, leDec_leEnc_of_lt (by have := v.toNat_lt; omega),
    UInt16.ofNat_toNat]

theorem HasAt.readU32 {v : UInt32} (h : HasAt m p (leEnc 4 v.toNat)) : readU32 m p = some v := by
  have hread := h.readAt
  rw [length_leEnc] at hread
  rw [Lib.readU32, hread, Option.map_some, leDec_leEnc_of_lt (by have := v.toNat_lt; omega),
    UInt32.ofNat_toNat]

theorem HasAt.readU64 {v : UInt64} (h : HasAt m p (leEnc 8 v.toNat)) : readU64 m p = some v := by
  have hread := h.readAt
  rw [length_leEnc] at hread
  rw [Lib.readU64, hread, Option.map_some, leDec_leEnc_of_lt (by have := v.toNat_lt; omega),
    UInt64.ofNat_toNat]

/-- What stands from a position on. -/
theorem HasAt.drop_eq (h : HasAt m p bs) : ∃ post, m.drop p = bs ++ post := by
  obtain ⟨pre, post, rfl, rfl⟩ := h
  exact ⟨post, by rw [List.append_assoc, List.drop_left]⟩

theorem HasAt.readVec {v : Vector UInt8 n} (h : HasAt m p v.toList) : readVec m p n = some v := by
  have hle := h.length_le
  rw [Vector.length_toList] at hle
  obtain ⟨pre, post, rfl, rfl⟩ := h
  rw [Lib.readVec, dif_pos hle]
  congr 1
  ext i hi
  simp

/-! ## Packed records -/

/-- A field of a packed record: its width and its bytes, as many as the width says. -/
structure Field where
  width : Nat
  bytes : List UInt8
  length_eq : bytes.length = width

namespace Field

/-- A number in `n` bytes. -/
def num (n v : Nat) : Field := ⟨n, leEnc n v, length_leEnc n v⟩

def u8 (v : UInt8) : Field := num 1 v.toNat
def u16 (v : UInt16) : Field := num 2 v.toNat
def u32 (v : UInt32) : Field := num 4 v.toNat
def u64 (v : UInt64) : Field := num 8 v.toNat

/-- A fixed array of bytes. -/
def vec {n : Nat} (v : Vector UInt8 n) : Field := ⟨n, v.toList, v.length_toList⟩

@[simp] theorem width_u8 (v : UInt8) : (u8 v).width = 1 := rfl

@[simp] theorem width_u16 (v : UInt16) : (u16 v).width = 2 := rfl

@[simp] theorem width_u32 (v : UInt32) : (u32 v).width = 4 := rfl

@[simp] theorem width_u64 (v : UInt64) : (u64 v).width = 8 := rfl

@[simp] theorem width_vec {n : Nat} (v : Vector UInt8 n) : (vec v).width = n := rfl

end Field

/-- The bytes of a record. -/
def pack (fs : List Field) : List UInt8 := fs.flatMap Field.bytes

@[simp] theorem pack_nil : pack [] = [] := rfl

@[simp] theorem pack_cons (f : Field) (fs : List Field) : pack (f :: fs) = f.bytes ++ pack fs := rfl

theorem pack_append (fs gs : List Field) : pack (fs ++ gs) = pack fs ++ pack gs := by
  simp [pack]

theorem length_pack (fs : List Field) : (pack fs).length = (fs.map Field.width).sum := by
  induction fs with
  | nil => rfl
  | cons f fs ih => simp [ih, f.length_eq]

/-- The field that starts `p` bytes into the record. -/
def fieldAt : List Field → Nat → Option Field
  | [], _ => none
  | f :: fs, p => if p = 0 then some f else if f.width ≤ p then fieldAt fs (p - f.width) else none

theorem hasAt_pack {fs : List Field} {f : Field} (h : fieldAt fs p = some f) :
    HasAt (pack fs) p f.bytes := by
  induction fs generalizing p with
  | nil => simp [fieldAt] at h
  | cons g fs ih =>
    unfold fieldAt at h
    by_cases hz : p = 0
    · rw [if_pos hz] at h
      cases h
      rw [hz]
      exact (hasAt_self (pack (f :: fs))).left
    · rw [if_neg hz] at h
      by_cases hw : g.width ≤ p
      · rw [if_pos hw] at h
        have hright : HasAt (pack (g :: fs)) (0 + g.bytes.length) (pack fs) :=
          (hasAt_self (pack (g :: fs))).right
        have hp : 0 + g.bytes.length + (p - g.width) = p := by
          rw [g.length_eq]
          omega
        exact hp ▸ hright.trans (ih h)
      · simp [hw] at h

/-- **A packed record holds each field at its offset.** -/
theorem HasAt.field {fs : List Field} (h : HasAt m q (pack fs)) {f : Field} (p : Nat)
    (hf : fieldAt fs p = some f) : HasAt m (q + p) f.bytes :=
  h.trans (hasAt_pack hf)

/-! ## Patching -/

/-- `bs` copied over what stands at `pos`. -/
def overwrite (m : List UInt8) (pos : Nat) (bs : List UInt8) : List UInt8 :=
  m.take pos ++ bs ++ m.drop (pos + bs.length)

theorem overwrite_append {before old after bs : List UInt8} (h : old.length = bs.length) :
    overwrite (before ++ old ++ after) before.length bs = before ++ bs ++ after := by
  simp [overwrite, ← h, List.drop_append]

/-- What a patched string starts with: the old bytes, the patch, old bytes again. -/
theorem take_overwrite {pos k : Nat} (hpos : pos ≤ m.length) (hk : bs.length ≤ k) :
    (overwrite m pos bs).take (pos + k) =
      m.take pos ++ bs ++ peekAt m (pos + bs.length) (k - bs.length) := by
  have hlen : (m.take pos).length = pos := by simpa using hpos
  rw [overwrite, List.append_assoc, List.take_append, hlen,
    List.take_of_length_le (by omega : (m.take pos).length ≤ pos + k), Nat.add_sub_cancel_left,
    List.take_append, List.take_of_length_le hk, List.append_assoc, peekAt]

theorem take_overwrite_end (hpos : pos ≤ m.length) (bs : List UInt8) :
    (overwrite m pos bs).take (pos + bs.length) = m.take pos ++ bs := by
  rw [take_overwrite hpos (Nat.le_refl _), Nat.sub_self, peekAt, List.take_zero, List.append_nil]

/-- Bytes before the patch stay. -/
theorem take_overwrite_before (hpos : pos ≤ m.length) (hn : n ≤ pos) :
    (overwrite m pos bs).take n = m.take n := by
  have hlen : n ≤ (m.take pos).length := by
    rw [List.length_take]
    omega
  rw [overwrite, List.append_assoc, List.take_append_of_le_length hlen, List.take_take,
    Nat.min_eq_left hn]

theorem hasAt_overwrite (hpos : pos ≤ m.length) : HasAt (overwrite m pos bs) pos bs :=
  ⟨m.take pos, m.drop (pos + bs.length), rfl, by simpa using hpos⟩

theorem length_overwrite (h : pos + bs.length ≤ m.length) :
    (overwrite m pos bs).length = m.length := by
  simp only [overwrite, List.length_append, List.length_take, List.length_drop]
  omega

/-- Bytes beside the patch stay. -/
theorem peekAt_overwrite (h : pos + bs.length ≤ m.length)
    (hapart : p + n ≤ pos ∨ pos + bs.length ≤ p) :
    peekAt (overwrite m pos bs) p n = peekAt m p n := by
  have htake : (m.take pos).length = pos := by
    rw [List.length_take]
    omega
  refine List.ext_getElem? fun i => ?_
  simp only [peekAt, List.getElem?_take, List.getElem?_drop]
  split
  · rename_i hi
    rw [overwrite, List.append_assoc]
    rcases hapart with hbefore | hbehind
    · rw [List.getElem?_append_left (by omega), List.getElem?_take, if_pos (by omega)]
    · rw [List.getElem?_append_right (by omega), List.getElem?_append_right (by omega),
        List.getElem?_drop]
      congr 1
      omega
  · rfl

/-- Writing what is there already changes nothing. -/
theorem HasAt.overwrite_eq (h : HasAt m p bs) : overwrite m p bs = m := by
  obtain ⟨pre, post, rfl, rfl⟩ := h
  exact overwrite_append rfl

theorem overwrite_nil (m : List UInt8) (pos : Nat) : overwrite m pos [] = m := by
  simp [overwrite]

/-- What stands behind a patch stays. -/
theorem HasAt.overwrite_before (h : HasAt m p bs) (hle : pos + as.length ≤ p) :
    HasAt (overwrite m pos as) p bs := by
  obtain ⟨pre, post, rfl, rfl⟩ := h
  refine ⟨overwrite pre pos as, post, ?_, length_overwrite hle⟩
  unfold overwrite
  rw [List.append_assoc pre, List.take_append_of_le_length (by omega),
    List.drop_append_of_le_length hle]
  simp only [List.append_assoc]

/-- Two writes, one behind the other, are one. -/
theorem overwrite_overwrite (h : pos + as.length ≤ m.length) (bs : List UInt8) :
    overwrite (overwrite m pos as) (pos + as.length) bs = overwrite m pos (as ++ bs) := by
  have hpre : (m.take pos ++ as).length = pos + as.length := by
    simp only [List.length_append, List.length_take]
    omega
  unfold overwrite
  rw [← hpre, List.take_left', List.drop_append, List.drop_drop, hpre,
    List.drop_eq_nil_of_le (by simp only [List.length_append, List.length_take]; omega)]
  · simp [Nat.add_assoc]
  · rfl

/-- The same with the second one first. -/
theorem overwrite_overwrite_before (h : pos + as.length ≤ m.length) :
    overwrite (overwrite m (pos + as.length) bs) pos as = overwrite m pos (as ++ bs) := by
  have hpre : (m.take (pos + as.length)).length = pos + as.length := by
    rw [List.length_take]
    omega
  unfold overwrite
  rw [List.append_assoc (m.take (pos + as.length)), List.take_append_of_le_length (by omega),
    List.take_take, Nat.min_eq_left (Nat.le_add_right _ _), List.drop_left' hpre]
  simp [Nat.add_assoc]

/-! ## Checked writes -/

/-- `memcpy` and `memset` into the buffer. -/
def poke (m : List UInt8) (pos : Nat) (bs : List UInt8) : Option (List UInt8) :=
  if pos + bs.length ≤ m.length then some (overwrite m pos bs) else none

/-- `memmove` inside the buffer. -/
def memmove (m : List UInt8) (dst src n : Nat) : Option (List UInt8) :=
  if src + n ≤ m.length then poke m dst (peekAt m src n) else none

theorem poke_eq (h : pos + bs.length ≤ m.length) :
    poke m pos bs = some (overwrite m pos bs) := if_pos h

theorem length_peekAt {m : List UInt8} {pos n : Nat} (h : pos + n ≤ m.length) :
    (peekAt m pos n).length = n := by
  simp only [peekAt, List.length_take, List.length_drop]
  omega

theorem memmove_eq (hsrc : src + n ≤ m.length) (hdst : dst + n ≤ m.length) :
    memmove m dst src n = some (overwrite m dst (peekAt m src n)) := by
  rw [memmove, if_pos hsrc, poke_eq (by rw [length_peekAt hsrc]; exact hdst)]

/-- `memcpy` inside the buffer, for which the bytes must not overlap where they go to. -/
def memcpyWithin (m : List UInt8) (dst src n : Nat) : Option (List UInt8) :=
  if n = 0 ∨ dst + n ≤ src ∨ src + n ≤ dst then memmove m dst src n else none

/-- Bytes are copied to the front just if they do not reach over their place. -/
theorem HasAt.memcpyWithin_eq (h : HasAt m src bs) (hlt : dst < src) :
    memcpyWithin m dst src bs.length =
      if bs.length ≤ src - dst then some (overwrite m dst bs) else none := by
  have hle := h.length_le
  have hmove := memmove_eq hle (show dst + bs.length ≤ m.length by omega)
  rw [h.peekAt] at hmove
  rw [memcpyWithin, hmove]
  congr 1
  exact propext (by omega)

/-! ## Copying inside a buffer -/

/-- `n` bytes copied from `src` to `dst` in one buffer, the first one first. -/
def copyWithin (m : List UInt8) (dst src : Nat) : Nat → List UInt8
  | 0 => m
  | n + 1 => copyWithin (m.set dst (m.getD src 0)) (dst + 1) (src + 1) n

@[simp] theorem length_copyWithin (m : List UInt8) (dst src n : Nat) :
    (copyWithin m dst src n).length = m.length := by
  induction n generalizing m dst src with
  | zero => rfl
  | succ n ih => rw [copyWithin, ih, List.length_set]

/-- Copying towards the front reads each byte before it is written. -/
theorem getD_copyWithin (hle : dst ≤ src) (hsrc : src + n ≤ m.length) (i : Nat) :
    (copyWithin m dst src n).getD i 0 =
      if dst ≤ i ∧ i < dst + n then m.getD (src + (i - dst)) 0 else m.getD i 0 := by
  induction n generalizing m dst src with
  | zero =>
    rw [copyWithin, if_neg (by omega)]
  | succ n ih =>
    have hset (j : Nat) (hj : j ≠ dst) : (m.set dst (m.getD src 0)).getD j 0 = m.getD j 0 := by
      simp [List.getD, List.getElem?_set_ne (Ne.symm hj)]
    rw [copyWithin, ih (by omega) (by rw [List.length_set]; omega)]
    by_cases hi : i = dst
    · subst hi
      rw [if_neg (by omega), if_pos (by omega)]
      simp [List.getD, List.getElem?_set_self (by omega : i < m.length)]
    · rw [hset i hi]
      by_cases hin : dst + 1 ≤ i ∧ i < dst + 1 + n
      · rw [if_pos hin, if_pos (by omega), hset _ (by omega)]
        congr 1
        omega
      · rw [if_neg hin, if_neg (by omega)]

/-- **Copying towards the front** leaves the bytes in front and puts the copied ones behind. -/
theorem take_copyWithin (hle : dst ≤ src) (hsrc : src + n ≤ m.length) :
    (copyWithin m dst src n).take (dst + n) = m.take dst ++ peekAt m src n := by
  have hlen : (m.take dst).length = dst := by
    rw [List.length_take]
    omega
  refine List.ext_getElem (by simp [peekAt]; omega) fun i hi hi' => ?_
  have hi : i < dst + n := by
    rw [List.length_take] at hi
    omega
  have hget := getD_copyWithin hle hsrc i
  simp only [List.getD, List.getElem?_eq_getElem (show i < (copyWithin m dst src n).length by
    rw [length_copyWithin]; omega), Option.getD_some] at hget
  rw [List.getElem_take, hget]
  by_cases hd : dst ≤ i
  · rw [if_pos ⟨hd, hi⟩, List.getElem?_eq_getElem (by omega), Option.getD_some,
      List.getElem_append_right (by omega)]
    simp [peekAt, hlen]
  · rw [if_neg (by omega), List.getElem?_eq_getElem (by omega), Option.getD_some,
      List.getElem_append_left (by omega), List.getElem_take]

end Lib

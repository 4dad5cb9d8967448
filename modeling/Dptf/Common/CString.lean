import Mathlib.Data.List.Basic
import Mathlib.Data.List.TakeWhile

/-!
# Text as C sees it

A string is the list of its characters, in the C locale.  A buffer may hold `\0`;
what a string function sees of it ends there.

A name is a string of bytes without its NUL, so no byte of it is 0; the structure carries
the proof.  Names are compared without case, and only the ASCII letters have one.
-/

/-- The string that starts a buffer. -/
def cString (buffer : List Char) : List Char := buffer.takeWhile (· ≠ '\x00')

/-- `isspace`. -/
def isSpace (c : Char) : Bool :=
  c = ' ' || c = '\t' || c = '\n' || c = '\x0b' || c = '\x0c' || c = '\r'

/-- What comparing without case compares. -/
def toLower (s : List Char) : List Char := s.map Char.toLower

/-- `esif_ccb_stricmp`. -/
def stricmp (a b : List Char) : Ordering := compare (toLower a) (toLower b)

/-- `esif_ccb_strnicmp` of a string and all of `pre` is 0. -/
def startsWithNoCase (pre s : List Char) : Bool := toLower (s.take pre.length) = toLower pre

theorem stricmp_eq_iff {a b : List Char} : stricmp a b = .eq ↔ toLower a = toLower b :=
  Std.LawfulEqOrd.compare_eq_iff_eq

theorem length_eq_of_toLower_eq {a b : List Char} (h : toLower a = toLower b) :
    a.length = b.length := by
  simpa [toLower] using congrArg List.length h

theorem isLower_iff_toNat (c : Char) : c.isLower ↔ 97 ≤ c.toNat ∧ c.toNat ≤ 122 := by
  show (decide ('a'.val ≤ c.val) && decide (c.val ≤ 'z'.val)) = true ↔ _
  simp [UInt32.le_iff_toNat_le, ← Char.toNat_val]

/-- What is turned into lower case becomes a small letter. -/
theorem isLower_toLower_of_ne {c : Char} (h : c.toLower ≠ c) : c.toLower.isLower = true := by
  unfold Char.toLower at h ⊢
  split
  · rename_i hup
    rw [isLower_iff_toNat]
    obtain ⟨hge, hle⟩ := hup
    rw [ge_iff_le, UInt32.le_iff_toNat_le] at hge
    rw [UInt32.le_iff_toNat_le] at hle
    have hA : 'A'.val.toNat = 65 := rfl
    have hZ : 'Z'.val.toNat = 90 := rfl
    have hsum : (c.val + ('a'.val - 'A'.val)).toNat = c.val.toNat + 32 := by
      rw [UInt32.toNat_add, show ('a'.val - 'A'.val).toNat = 32 from rfl]
      omega
    show 97 ≤ (c.val + ('a'.val - 'A'.val)).toNat ∧ (c.val + ('a'.val - 'A'.val)).toNat ≤ 122
    omega
  · rename_i hnot
    exact absurd (dif_neg hnot) h

/-- A character whose lower case is no small letter is not changed. -/
theorem eq_of_toLower_eq {c d : Char} (h : c.toLower = d) (hd : d.isLower = false) : c = d := by
  by_contra hne
  have hlow := isLower_toLower_of_ne (c := c) (by rw [h]; exact Ne.symm hne)
  rw [h, hd] at hlow
  cases hlow

/-- Signs have no case. -/
theorem eq_of_map_toLower_eq {a b : List Char} (hb : ∀ d ∈ b, d.toLower = d ∧ d.isLower = false)
    (h : a.map Char.toLower = b.map Char.toLower) : a = b := by
  induction b generalizing a with
  | nil => simpa using h
  | cons d ds ih =>
    obtain ⟨c, cs, rfl, hc, hcs⟩ := List.map_eq_cons_iff.mp h
    obtain ⟨hd, hlow⟩ := hb d (by simp)
    rw [hd] at hc
    rw [eq_of_toLower_eq hc hlow, ih (fun e he => hb e (by simp [he])) hcs]

/-! ## Names -/

/-- A C string, without the NUL that ends it. -/
structure CName where
  /-- The bytes. -/
  bytes : List UInt8
  /-- The NUL is not one of them. -/
  nul_free : (0 : UInt8) ∉ bytes
deriving DecidableEq, Repr

/-- `tolower`. -/
def tolower (b : UInt8) : UInt8 := if 65 ≤ b ∧ b ≤ 90 then b + 32 else b

/-- `esif_ccb_strmatch` on the bytes of a string and of a pattern.  A `*` stands for any
part of the string; what it leaves is tried from the longest rest on. -/
def strmatch : List UInt8 → List UInt8 → Bool
  | string, [] => string.isEmpty
  | string, p :: pattern =>
    if p = 42 then string.tails.any fun rest => strmatch rest pattern
    else
      match string with
      | [] => false
      | b :: string => (p = 63 || tolower b = tolower p) && strmatch string pattern

namespace CName

/-- The empty string. -/
theorem nul_free_nil : (0 : UInt8) ∉ ([] : List UInt8) := List.not_mem_nil

/-- The bytes in lower case. -/
def folded (s : CName) : List UInt8 := s.bytes.map tolower

/-- The string that starts a buffer. -/
def ofBuffer (buffer : List UInt8) : CName where
  bytes := buffer.takeWhile (· ≠ 0)
  nul_free := by
    intro hmem
    simpa using List.mem_takeWhile_imp hmem

/-- `strlen` of the string and its NUL. -/
def size (s : CName) : Nat := s.bytes.length + 1

/-- `esif_ccb_strpbrk(s, "*?")` finds a sign. -/
def hasWildcard (s : CName) : Bool := s.bytes.any fun b => b = 42 || b = 63

/-- `esif_ccb_strmatch(s, pattern)`. -/
def matchesPattern (s pattern : CName) : Bool := strmatch s.bytes pattern.bytes

end CName

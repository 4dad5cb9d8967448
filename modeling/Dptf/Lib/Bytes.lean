import Mathlib.Data.List.Basic
import Mathlib.Tactic.Ring

/-!
# Little-endian numbers in byte lists

* `leDec_leEnc`, `leEnc_leDec` — the two round trips; `leDec_lt` bounds what `n`
  bytes can denote.
-/

namespace Lib

/-- What holds of the bytes one by one holds of every byte. -/
theorem forall_byte {P : UInt8 → Prop} (h : ∀ n < 256, P (UInt8.ofNat n)) (b : UInt8) : P b := by
  have hb := h b.toNat b.toNat_lt
  rwa [UInt8.ofNat_toNat] at hb

/-- The number a byte list denotes, lowest byte first. -/
def leDec : List UInt8 → Nat
  | [] => 0
  | b :: bs => b.toNat + 256 * leDec bs

/-- The `n` lowest bytes of a number, lowest first. -/
def leEnc : Nat → Nat → List UInt8
  | 0, _ => []
  | n + 1, v => UInt8.ofNat v :: leEnc n (v / 256)

@[simp] theorem leDec_nil : leDec [] = 0 := rfl

@[simp] theorem length_leEnc (n v : Nat) : (leEnc n v).length = n := by
  induction n generalizing v with
  | zero => rfl
  | succ n ih => simp [leEnc, ih]

theorem leDec_lt (bs : List UInt8) : leDec bs < 256 ^ bs.length := by
  induction bs with
  | nil => simp
  | cons b bs ih =>
    have hb : b.toNat < 256 := b.toNat_lt
    simp only [leDec, List.length_cons, pow_succ]
    omega

/-- **Decoding what was encoded** gives the number back, up to the bytes it had. -/
theorem leDec_leEnc (n v : Nat) : leDec (leEnc n v) = v % 256 ^ n := by
  induction n generalizing v with
  | zero => simp [leEnc, Nat.mod_one]
  | succ n ih =>
    have hmod : v % (256 * 256 ^ n) = v % 256 + 256 * (v / 256 % 256 ^ n) := Nat.mod_mul
    simp only [leEnc, leDec, ih, UInt8.toNat_ofNat', pow_succ 256, Nat.mul_comm (256 ^ n) 256, hmod]

theorem leDec_leEnc_of_lt {n v : Nat} (h : v < 256 ^ n) : leDec (leEnc n v) = v := by
  rw [leDec_leEnc, Nat.mod_eq_of_lt h]

/-- **Encoding what was decoded** gives the bytes back. -/
theorem leEnc_leDec (bs : List UInt8) : leEnc bs.length (leDec bs) = bs := by
  induction bs with
  | nil => rfl
  | cons b bs ih =>
    have hb : b.toNat < 256 := b.toNat_lt
    have hdiv : (b.toNat + 256 * leDec bs) / 256 = leDec bs := by omega
    have hlow : UInt8.ofNat (b.toNat + 256 * leDec bs) = b := by
      apply UInt8.toNat_inj.mp
      simp only [UInt8.toNat_ofNat']
      omega
    simp only [List.length_cons, leEnc, leDec, hdiv, ih, hlow]

theorem leDec_append (as bs : List UInt8) :
    leDec (as ++ bs) = leDec as + 256 ^ as.length * leDec bs := by
  induction as with
  | nil => simp
  | cons a as ih =>
    simp only [List.cons_append, leDec, ih, List.length_cons, pow_succ]
    ring

/-- Keeping the `k` lowest bytes keeps the number modulo `256 ^ k`. -/
theorem leDec_take {k : Nat} {bs : List UInt8} (h : k ≤ bs.length) :
    leDec (bs.take k) = leDec bs % 256 ^ k := by
  have hlen : (bs.take k).length = k := by simp [h]
  have hlt : leDec (bs.take k) < 256 ^ k := by
    simpa [hlen] using leDec_lt (bs.take k)
  have hsplit : leDec bs = leDec (bs.take k) + 256 ^ k * leDec (bs.drop k) := by
    conv_lhs => rw [← List.take_append_drop k bs, leDec_append, hlen]
  rw [hsplit, Nat.add_mul_mod_self_left, Nat.mod_eq_of_lt hlt]

/-- Byte lists of one length are equal when they denote the same number. -/
theorem eq_of_leDec_eq {as bs : List UInt8} (hlen : as.length = bs.length)
    (h : leDec as = leDec bs) : as = bs := by
  rw [← leEnc_leDec as, ← leEnc_leDec bs, hlen, h]

/-- The `k` lowest bytes of the `n`-byte form are the `k`-byte form. -/
theorem take_leEnc {k n : Nat} (h : k ≤ n) (v : Nat) : (leEnc n v).take k = leEnc k v := by
  induction k generalizing n v with
  | zero => simp [leEnc]
  | succ k ih =>
    obtain ⟨m, rfl⟩ : ∃ m, n = m + 1 := ⟨n - 1, by omega⟩
    simp [leEnc, ih (by omega : k ≤ m)]

/-- The bits of a number are those of its bytes. -/
theorem testBit_leDec (bs : List UInt8) (i : Nat) :
    (leDec bs).testBit i = (bs.getD (i / 8) 0).toNat.testBit (i % 8) := by
  induction bs generalizing i with
  | nil => simp
  | cons b bs ih =>
    have hform : leDec (b :: bs) = 2 ^ 8 * leDec bs + b.toNat := by
      rw [leDec]
      omega
    rw [hform, Nat.testBit_two_pow_mul_add _ b.toNat_lt]
    by_cases hi : i < 8
    · rw [if_pos hi, Nat.div_eq_of_lt hi, Nat.mod_eq_of_lt hi]
      rfl
    · have hdiv : i / 8 = (i - 8) / 8 + 1 := by omega
      have hmod : i % 8 = (i - 8) % 8 := by omega
      rw [if_neg hi, ih, hdiv, hmod, List.getD_cons_succ]

/-! ## Highest byte first -/

/-- The number a byte list denotes, highest byte first. -/
def beDec (bs : List UInt8) : Nat := leDec bs.reverse

/-- The `n` lowest bytes of a number, highest first. -/
def beEnc (n v : Nat) : List UInt8 := (leEnc n v).reverse

/-- A number with more bytes is one behind the other. -/
theorem leEnc_add (k n v : Nat) : leEnc (k + n) v = leEnc k v ++ leEnc n (v / 256 ^ k) := by
  induction k generalizing v with
  | zero => simp [leEnc]
  | succ k ih =>
    rw [Nat.succ_add, leEnc, ih, leEnc, Nat.div_div_eq_div_mul, ← Nat.pow_succ', List.cons_append]

theorem beEnc_add (k n v : Nat) : beEnc (k + n) v = beEnc k (v / 256 ^ n) ++ beEnc n v := by
  rw [beEnc, Nat.add_comm, leEnc_add, List.reverse_append, beEnc, beEnc]

@[simp] theorem length_beEnc (n v : Nat) : (beEnc n v).length = n := by
  rw [beEnc, List.length_reverse, length_leEnc]

end Lib

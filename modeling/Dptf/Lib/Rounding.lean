import Mathlib.Data.Int.Log
import Mathlib.Data.Rat.Floor
import Mathlib.Tactic.Linarith
import Mathlib.Tactic.Ring

/-!
# Rounding

Division rounded to the nearest whole number, a half away from zero, so that rounding does not
depend on the sign; and the `double` next to a rational number, a half to the even one.
-/

namespace Lib

section Rounding

/-- `n / d`, rounded to the nearest whole number, a half away from zero. -/
def roundAway (n : Int) (d : Nat) : Int :=
  if 0 ≤ n then (2 * n + d) / (2 * d) else -((2 * -n + d) / (2 * d))

theorem roundAway_of_nonneg {n : Int} (h : 0 ≤ n) (d : Nat) :
    roundAway n d = (2 * n + d) / (2 * d) := if_pos h

theorem roundAway_zero (d : Nat) : roundAway 0 d = 0 := by
  rw [roundAway_of_nonneg (le_refl 0)]
  rcases Nat.eq_zero_or_pos d with rfl | hd
  · rfl
  · exact Int.ediv_eq_zero_of_lt (by omega) (by omega)

theorem roundAway_neg (n : Int) (d : Nat) : roundAway (-n) d = -roundAway n d := by
  rcases Int.lt_trichotomy n 0 with h | rfl | h
  · rw [roundAway, roundAway, if_pos (by omega), if_neg (by omega), neg_neg]
  · rw [neg_zero, roundAway_zero, neg_zero]
  · rw [roundAway, roundAway, if_neg (by omega), if_pos (by omega), neg_neg]

variable {d : Nat}

theorem two_mul_roundAway_le_of_nonneg (hd : 0 < d) {n : Int} (hn : 0 ≤ n) :
    2 * (roundAway n d * d) ≤ 2 * n + d ∧ 2 * n - d < 2 * (roundAway n d * d) := by
  rw [roundAway_of_nonneg hn]
  have hpos : (0 : Int) < 2 * d := by omega
  have hle := Int.ediv_mul_le (2 * n + d) (ne_of_gt hpos)
  have hlt := Int.lt_ediv_add_one_mul_self (2 * n + d) hpos
  constructor <;> linarith

theorem two_mul_roundAway_le (hd : 0 < d) (n : Int) : 2 * (roundAway n d * d) ≤ 2 * n + d := by
  rcases le_total 0 n with hn | hn
  · exact (two_mul_roundAway_le_of_nonneg hd hn).1
  · have h := (two_mul_roundAway_le_of_nonneg hd (neg_nonneg.2 hn)).2
    rw [roundAway_neg] at h
    linarith

theorem le_two_mul_roundAway (hd : 0 < d) (n : Int) : 2 * n - d ≤ 2 * (roundAway n d * d) := by
  have h := two_mul_roundAway_le hd (-n)
  rw [roundAway_neg] at h
  linarith

theorem roundAway_eq_of_near (hd : 0 < d) {n x : Int} (hlo : 2 * n * d - d < 2 * x)
    (hhi : 2 * x < 2 * n * d + d) : roundAway x d = n := by
  have hle := two_mul_roundAway_le hd x
  have hge := le_two_mul_roundAway hd x
  have hpos : (0 : Int) < d := by omega
  have h1 : roundAway x d * d < (n + 1) * d := by linarith
  have h2 : (n - 1) * d < roundAway x d * d := by linarith
  have h3 := lt_of_mul_lt_mul_right h1 hpos.le
  have h4 := lt_of_mul_lt_mul_right h2 hpos.le
  omega

theorem roundAway_mul (hd : 0 < d) (n : Int) : roundAway (n * d) d = n :=
  roundAway_eq_of_near hd (by linarith [show (0 : Int) < d by omega])
    (by linarith [show (0 : Int) < d by omega])

/-- A multiple of `d`, moved by `c`, rounded to a finer grid and moved back. -/
theorem roundAway_roundAway {e : Nat} (he : 0 < e) (hed : e < d) (n c : Int) :
    roundAway (roundAway (n * d + c) e * e - c) d = n := by
  have hle := two_mul_roundAway_le he (n * d + c)
  have hge := le_two_mul_roundAway he (n * d + c)
  have hed' : (e : Int) < d := by omega
  exact roundAway_eq_of_near (by omega) (by linarith) (by linarith)

/-! ## Rounding to a `double` -/

/-- Rounded to the nearest whole number, a half to the even one. -/
def roundEven (x : ℚ) : Int :=
  if Int.fract x = 1 / 2 then 2 * ((⌊x⌋ + 1) / 2) else ⌊x + 1 / 2⌋

/-- The distance of the `double`s next to `x`. -/
def ulp (x : ℚ) : ℚ := 2 ^ (Int.log 2 |x| - 52)

/-- The `double` next to `x`; it takes no bounds of the exponent into account. -/
def roundDouble (x : ℚ) : ℚ := roundEven (x / ulp x) * ulp x

/-- The quotient of two whole numbers, as a `double`. -/
def divDouble (n d : Nat) : ℚ := roundDouble (n / d)

theorem abs_roundEven_sub_le (x : ℚ) : |roundEven x - x| ≤ 1 / 2 := by
  rw [roundEven, abs_le]
  split_ifs with hhalf
  · have hx : x = ⌊x⌋ + 1 / 2 := by rw [← hhalf, Int.floor_add_fract]
    have hlo : ⌊x⌋ ≤ 2 * ((⌊x⌋ + 1) / 2) := by omega
    have hhi : 2 * ((⌊x⌋ + 1) / 2) ≤ ⌊x⌋ + 1 := by omega
    have hlo' : (⌊x⌋ : ℚ) ≤ ((2 * ((⌊x⌋ + 1) / 2) : Int) : ℚ) := by exact_mod_cast hlo
    have hhi' : ((2 * ((⌊x⌋ + 1) / 2) : Int) : ℚ) ≤ ⌊x⌋ + 1 := by exact_mod_cast hhi
    constructor <;> linarith
  · have hlo := Int.floor_le (x + 1 / 2)
    have hhi := Int.lt_floor_add_one (x + 1 / 2)
    constructor <;> linarith

theorem ulp_pos (x : ℚ) : 0 < ulp x := zpow_pos (by norm_num) _

/-- A `double` is at most half the distance away. -/
theorem abs_roundDouble_sub_le (x : ℚ) : |roundDouble x - x| ≤ ulp x / 2 := by
  have hpos := ulp_pos x
  have hsub : roundDouble x - x = (roundEven (x / ulp x) - x / ulp x) * ulp x := by
    rw [roundDouble, sub_mul, div_mul_cancel₀ _ hpos.ne']
  rw [hsub, abs_mul, abs_of_pos hpos]
  have hround := mul_le_mul_of_nonneg_right (abs_roundEven_sub_le (x / ulp x)) hpos.le
  linarith

/-- The distance is small against the number. -/
theorem ulp_le_abs {x : ℚ} (h : x ≠ 0) : ulp x ≤ |x| := by
  refine le_trans ?_ (Int.zpow_log_le_self (by norm_num : 1 < 2) (abs_pos.2 h))
  exact zpow_le_zpow_right₀ (by norm_num) (by omega)

theorem roundDouble_zero : roundDouble 0 = 0 := by
  have hzero : roundEven 0 = 0 := by decide +kernel
  rw [roundDouble, zero_div, hzero, Int.cast_zero, zero_mul]

theorem roundDouble_pos_iff (x : ℚ) : 0 < roundDouble x ↔ 0 < x := by
  have hnear := abs_le.1 (abs_roundDouble_sub_le x)
  have hpos := ulp_pos x
  rcases lt_trichotomy x 0 with h | rfl | h
  · have hle := ulp_le_abs h.ne
    rw [abs_of_neg h] at hle
    constructor <;> intro <;> linarith
  · rw [roundDouble_zero]
  · have hle := ulp_le_abs h.ne'
    rw [abs_of_pos h] at hle
    constructor <;> intro <;> linarith

theorem divDouble_nonneg (n d : Nat) : 0 ≤ divDouble n d := by
  rcases (div_nonneg n.cast_nonneg d.cast_nonneg : (0 : ℚ) ≤ n / d).eq_or_lt with h | h
  · rw [divDouble, ← h, roundDouble_zero]
  · exact ((roundDouble_pos_iff _).2 h).le

theorem divDouble_zero (d : Nat) : divDouble 0 d = 0 := by
  rw [divDouble, Nat.cast_zero, zero_div, roundDouble_zero]

/-- 1.5 % is rounded to a half in the product with 100, and 14.5 % below one. -/
example : roundDouble (divDouble 15 1000 * 100) = 3 / 2 ∧
    roundDouble (divDouble 145 1000 * 100) < 29 / 2 := by decide +kernel

end Rounding

end Lib

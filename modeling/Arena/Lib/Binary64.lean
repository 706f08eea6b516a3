import Mathlib.Data.Int.Log
import Mathlib.Tactic

/-!
# Rounding to binary64

A number of the format `binary64` is an integer of 53 bits times a power of two from `2 ^ (-1074)` up.
`binary64 x` is the one nearest to `x`, the even one of two that are as near. Numbers that overflow
are left out: the exponent has no upper bound here.
-/

namespace Arena.Lib

/-- The nearest integer, the even one of two. -/
def roundHalfEven (x : ℚ) : ℤ :=
  if x - ⌊x⌋ < 1 / 2 then ⌊x⌋
  else if 1 / 2 < x - ⌊x⌋ then ⌊x⌋ + 1
  else if ⌊x⌋ % 2 = 0 then ⌊x⌋ else ⌊x⌋ + 1

/-- `int(x)`: the fraction is cut off. -/
def truncate (x : ℚ) : ℤ := if 0 ≤ x then ⌊x⌋ else ⌈x⌉

/-- The exponent of the last of the 53 bits. -/
def lastExponent (x : ℚ) : ℤ := max (Int.log 2 |x| - 52) (-1074)

def ulp (x : ℚ) : ℚ := 2 ^ lastExponent x

def binary64 (x : ℚ) : ℚ := roundHalfEven (x / ulp x) * ulp x

/-- `x` is a number of the format. -/
def IsBinary64 (x : ℚ) : Prop := ∃ m k : ℤ, |m| < 2 ^ 53 ∧ -1074 ≤ k ∧ x = m * 2 ^ k

variable {x y : ℚ}

/-! ## Rounding to an integer -/

theorem floor_le_roundHalfEven : ⌊x⌋ ≤ roundHalfEven x := by
  unfold roundHalfEven
  split_ifs <;> omega

theorem roundHalfEven_le : roundHalfEven x ≤ ⌊x⌋ + 1 := by
  unfold roundHalfEven
  split_ifs <;> omega

@[simp] theorem roundHalfEven_intCast (n : ℤ) : roundHalfEven n = n := by
  simp [roundHalfEven]

theorem roundHalfEven_mono (le : x ≤ y) : roundHalfEven x ≤ roundHalfEven y := by
  rcases (Int.floor_le_floor le).lt_or_eq with lt | same
  · have above : roundHalfEven x ≤ ⌊x⌋ + 1 := roundHalfEven_le
    have below : ⌊y⌋ ≤ roundHalfEven y := floor_le_roundHalfEven
    omega
  · -- between the same two integers the fractions decide
    have fractions : x - ⌊x⌋ ≤ y - ⌊y⌋ := by
      rw [same]
      exact sub_le_sub_right le _
    unfold roundHalfEven
    rw [same] at fractions ⊢
    split_ifs <;> first | omega | (exfalso; linarith)

/-! ## The numbers of the format -/

theorem ulp_pos : 0 < ulp x := zpow_pos (by norm_num) _

/-- A number of the format is a multiple of its last bit. -/
theorem IsBinary64.div_ulp (h : IsBinary64 x) : ∃ n : ℤ, x / ulp x = n := by
  obtain ⟨m, k, bits, least, rfl⟩ := h
  by_cases zero : m = 0
  · exact ⟨0, by simp [zero]⟩
  have two : (2 : ℚ) ≠ 0 := by norm_num
  have size : |(m : ℚ) * 2 ^ k| = |(m : ℚ)| * 2 ^ k := by
    rw [abs_mul, abs_of_pos (zpow_pos (by norm_num : (0 : ℚ) < 2) k)]
  have positive : 0 < |(m : ℚ) * 2 ^ k| := abs_pos.2 (mul_ne_zero (Int.cast_ne_zero.2 zero) (zpow_ne_zero k two))
  -- its first bit is at most 52 above `k`
  have first : Int.log 2 |(m : ℚ) * 2 ^ k| < k + 53 := by
    rw [← Int.lt_zpow_iff_log_lt (by norm_num) positive, size, Nat.cast_ofNat, zpow_add₀ two, mul_comm]
    refine mul_lt_mul_of_pos_left ?_ (zpow_pos (by norm_num) k)
    exact_mod_cast bits
  have last : lastExponent ((m : ℚ) * 2 ^ k) ≤ k := max_le (by omega) least
  obtain ⟨d, here⟩ := Int.eq_ofNat_of_zero_le (Int.sub_nonneg.2 last)
  refine ⟨m * 2 ^ d, ?_⟩
  rw [ulp, mul_div_assoc, ← zpow_sub₀ two, here]
  simp

/-- **A number of the format is not rounded.** -/
theorem binary64_eq (h : IsBinary64 x) : binary64 x = x := by
  obtain ⟨n, multiple⟩ := h.div_ulp
  rw [binary64, multiple, roundHalfEven_intCast, ← multiple, div_mul_cancel₀ x ulp_pos.ne']

theorem isBinary64_natCast {n : ℕ} (small : n < 2 ^ 53) : IsBinary64 n :=
  ⟨n, 0, by rw [abs_of_nonneg (by positivity)]; exact_mod_cast small, by norm_num, by simp⟩

@[simp] theorem binary64_zero : binary64 0 = 0 := by
  simpa using binary64_eq (isBinary64_natCast (n := 0) (by norm_num))

/-! ## Order -/

theorem binary64_nonneg (nonneg : 0 ≤ x) : 0 ≤ binary64 x := by
  have floor : 0 ≤ ⌊x / ulp x⌋ := Int.floor_nonneg.2 (div_nonneg nonneg ulp_pos.le)
  have rounded : 0 ≤ roundHalfEven (x / ulp x) := floor.trans floor_le_roundHalfEven
  exact mul_nonneg (by exact_mod_cast rounded) ulp_pos.le

theorem lastExponent_mono (positive : 0 < x) (le : x ≤ y) : lastExponent x ≤ lastExponent y := by
  have logs : Int.log 2 |x| ≤ Int.log 2 |y| := by
    rw [abs_of_pos positive, abs_of_pos (positive.trans_le le)]
    exact Int.log_mono_right positive le
  exact max_le_max_right _ (Int.sub_le_sub_right logs 52)

/-- A power of two at or above the last bit is a multiple of it. -/
theorem zpow_eq_mul_ulp {k : ℤ} (last : lastExponent x ≤ k) : ∃ n : ℤ, (2 : ℚ) ^ k = n * ulp x := by
  obtain ⟨d, here⟩ := Int.eq_ofNat_of_zero_le (Int.sub_nonneg.2 last)
  refine ⟨2 ^ d, ?_⟩
  have exponent : k = (d : ℤ) + lastExponent x := by omega
  rw [ulp, exponent, zpow_add₀ (by norm_num)]
  simp

/-- Such a power is a bound that rounding keeps. -/
theorem binary64_le_zpow {k : ℤ} (last : lastExponent x ≤ k) (le : x ≤ 2 ^ k) : binary64 x ≤ 2 ^ k := by
  obtain ⟨n, power⟩ := zpow_eq_mul_ulp last
  have scaled : x / ulp x ≤ n := by rwa [div_le_iff₀ ulp_pos, ← power]
  rw [binary64, power]
  refine mul_le_mul_of_nonneg_right ?_ ulp_pos.le
  exact_mod_cast (roundHalfEven_mono scaled).trans_eq (roundHalfEven_intCast _)

theorem zpow_le_binary64 {k : ℤ} (last : lastExponent x ≤ k) (le : 2 ^ k ≤ x) : 2 ^ k ≤ binary64 x := by
  obtain ⟨n, power⟩ := zpow_eq_mul_ulp last
  have scaled : n ≤ x / ulp x := by rwa [le_div_iff₀ ulp_pos, ← power]
  rw [binary64, power]
  refine mul_le_mul_of_nonneg_right ?_ ulp_pos.le
  exact_mod_cast (roundHalfEven_intCast _).symm.trans_le (roundHalfEven_mono scaled)

/-- **Rounding keeps the order.** -/
theorem binary64_mono (nonneg : 0 ≤ x) (le : x ≤ y) : binary64 x ≤ binary64 y := by
  rcases nonneg.eq_or_lt with rfl | positive
  · rw [binary64_zero]
    exact binary64_nonneg le
  rcases (lastExponent_mono positive le).eq_or_lt with same | lt
  · have last : ulp x = ulp y := by rw [ulp, ulp, same]
    have scaled : x / ulp y ≤ y / ulp y := div_le_div_of_nonneg_right le ulp_pos.le
    rw [binary64, binary64, last]
    refine mul_le_mul_of_nonneg_right ?_ ulp_pos.le
    exact_mod_cast roundHalfEven_mono scaled
  · -- a power of two is between the two
    have logY : lastExponent y = Int.log 2 y - 52 := by
      have first := abs_of_pos (positive.trans_le le)
      simp only [lastExponent, first] at lt ⊢
      omega
    have logX : Int.log 2 x ≤ lastExponent x + 52 := by
      simp only [lastExponent, abs_of_pos positive]
      omega
    have below : x ≤ 2 ^ Int.log 2 y := by
      have next : x < 2 ^ (Int.log 2 x + 1) := by
        exact_mod_cast Int.lt_zpow_succ_log_self (b := 2) (by norm_num) x
      exact next.le.trans (zpow_le_zpow_right₀ (by norm_num) (by omega))
    have above : (2 : ℚ) ^ Int.log 2 y ≤ y := by
      exact_mod_cast Int.zpow_log_le_self (b := 2) (by norm_num) (positive.trans_le le)
    exact (binary64_le_zpow (by omega) below).trans (zpow_le_binary64 (by omega) above)

/-- Rounding does not reach the next integer from as far below it as the bits tell apart. -/
theorem floor_binary64 {n k : ℕ} (lower : n ≤ x) (upper : x ≤ n + 1 - 1 / 2 ^ k)
    (small : (n + 1) * 2 ^ k ≤ 2 ^ 53) : ⌊binary64 x⌋ = n := by
  have step : (0 : ℚ) < 1 / 2 ^ k := by positivity
  have bits : n < 2 ^ 53 := by
    have one : 1 ≤ 2 ^ k := Nat.one_le_two_pow
    nlinarith
  have last : IsBinary64 ((n : ℚ) + 1 - 1 / 2 ^ k) := by
    have one : 1 ≤ (n + 1) * 2 ^ k := Nat.one_le_iff_ne_zero.2 (by positivity)
    have width : k ≤ 53 := by
      refine (Nat.pow_le_pow_iff_right (a := 2) (by norm_num)).1 (le_trans ?_ small)
      exact Nat.le_mul_of_pos_left _ n.succ_pos
    refine ⟨((n + 1) * 2 ^ k - 1 : ℕ), -k, ?_, by omega, ?_⟩
    · rw [abs_of_nonneg (by positivity)]
      exact_mod_cast lt_of_lt_of_le (Nat.sub_lt (by omega) one_pos) small
    · rw [Nat.cast_sub one, zpow_neg, zpow_natCast]
      push_cast
      field_simp
  rw [Int.floor_eq_iff]
  constructor
  · have rounded := binary64_mono n.cast_nonneg lower
    rwa [binary64_eq (isBinary64_natCast bits)] at rounded
  · have rounded := binary64_mono (n.cast_nonneg.trans lower) upper
    rw [binary64_eq last] at rounded
    push_cast
    linarith

end Arena.Lib

import Mathlib.Algebra.Order.Field.Power
import ScriptLexer.Number.Decimal
import ScriptLexer.Proofs.NearestRank

/-!
Decimals as rational numbers. The digit count bounds a decimal by powers of ten, which tells those
that are out of range from those that round to zero without ever forming the power. Main statement:
the double of a decimal is the one that its exact value rounds to.
-/

namespace ScriptLexer.Decimal

open Binary64

def value (x : Decimal) : ℚ := x.digits * 10 ^ x.exponent

/-- The position of the point before the first digit. -/
def point (x : Decimal) : Int := digitCount x.digits + x.exponent

theorem ten_zpow_pos (e : Int) : (0 : ℚ) < 10 ^ e := zpow_pos (by norm_num) e

theorem value_nonneg (x : Decimal) : 0 ≤ x.value :=
  mul_nonneg (Nat.cast_nonneg _) (ten_zpow_pos _).le

theorem digitCount_pos (n : Nat) : 0 < digitCount n := Nat.length_toDigits_pos

theorem lt_pow_digitCount (n : Nat) : n < 10 ^ digitCount n :=
  (Nat.length_toDigits_le_iff (by decide) (digitCount_pos n)).mp le_rfl

theorem pow_le_of_digitCount {n k : Nat} (ne : n ≠ 0) (h : k < digitCount n) : 10 ^ k ≤ n := by
  by_cases first : k = 0
  · subst first
    exact Nat.pos_of_ne_zero ne
  · by_contra less
    have short := (Nat.length_toDigits_le_iff (by decide) (Nat.pos_of_ne_zero first)).mpr
      (Nat.lt_of_not_le less)
    exact absurd h (Nat.not_lt.mpr short)

theorem value_lt (x : Decimal) : x.value < 10 ^ x.point := by
  have digits : (x.digits : ℚ) < 10 ^ (digitCount x.digits : Int) := by
    rw [zpow_natCast]
    exact_mod_cast lt_pow_digitCount x.digits
  rw [value, point, zpow_add₀ (by norm_num)]
  exact mul_lt_mul_of_pos_right digits (ten_zpow_pos _)

theorem le_value {x : Decimal} (ne : x.digits ≠ 0) : 10 ^ (x.point - 1) ≤ x.value := by
  have pos := digitCount_pos x.digits
  have digits : (10 : ℚ) ^ ((digitCount x.digits - 1 : Nat) : Int) ≤ x.digits := by
    rw [zpow_natCast]
    exact_mod_cast pow_le_of_digitCount ne (by omega)
  have split : x.point - 1 = ((digitCount x.digits - 1 : Nat) : Int) + x.exponent := by
    rw [point]
    omega
  rw [value, split, zpow_add₀ (by norm_num)]
  exact mul_le_mul_of_nonneg_right digits (ten_zpow_pos _).le

theorem value_eq_div (x : Decimal) :
    x.value = ((x.digits * 10 ^ x.exponent.toNat : Nat) : ℚ) / (10 ^ (-x.exponent).toNat : Nat) := by
  obtain ⟨digits, exponent⟩ := x
  rw [value]
  obtain ⟨e, rfl | rfl⟩ := exponent.eq_nat_or_neg
  · simp
  · simp [div_eq_mul_inv]

theorem two_pow_le_ten_pow : 2 ^ 1075 ≤ 10 ^ 324 ∧ 2 ^ 1024 ≤ 10 ^ 309 := by decide +kernel

theorem zero_of_small {x : Decimal} (small : x.digits = 0 ∨ x.point ≤ -324) :
    x.value ≤ 1 / 2 ^ 1075 := by
  obtain none_written | low := small
  · rw [value, none_written, Nat.cast_zero, zero_mul]
    positivity
  · have powers : (2 : ℚ) ^ 1075 ≤ 10 ^ 324 := by exact_mod_cast two_pow_le_ten_pow.1
    calc x.value
        ≤ 10 ^ x.point := x.value_lt.le
      _ ≤ 10 ^ (-324 : Int) := zpow_le_zpow_right₀ (by norm_num) low
      _ = 1 / 10 ^ 324 := by rw [zpow_neg, zpow_ofNat, one_div]
      _ ≤ 1 / 2 ^ 1075 := one_div_le_one_div_of_le (by positivity) powers

theorem infinite_of_large {x : Decimal} (ne : x.digits ≠ 0) (large : 310 ≤ x.point) :
    2 ^ 1024 - 2 ^ 970 ≤ x.value := by
  have powers : (2 : ℚ) ^ 1024 ≤ 10 ^ 309 := by exact_mod_cast two_pow_le_ten_pow.2
  calc (2 : ℚ) ^ 1024 - 2 ^ 970
      ≤ 2 ^ 1024 := sub_le_self _ (by positivity)
    _ ≤ 10 ^ 309 := powers
    _ = 10 ^ (309 : Int) := by rw [zpow_ofNat]
    _ ≤ 10 ^ (x.point - 1) := zpow_le_zpow_right₀ (by norm_num) (by omega)
    _ ≤ x.value := le_value ne

theorem exists_covers (x : Decimal) :
    ∃ r, Covers r x.value ∧ ∀ negative, x.toBinary64 negative = ofRank negative r := by
  have pos : 0 < 10 ^ (-x.exponent).toNat := Nat.pow_pos (by decide)
  have covers := covers_nearestRank ((x.digits * 10 ^ x.exponent.toNat) <<< 1074) pos
  have scaled : (((x.digits * 10 ^ x.exponent.toNat) <<< 1074 : Nat) : ℚ) /
      (10 ^ (-x.exponent).toNat : Nat) / 2 ^ 1074 = x.value := by
    rw [value_eq_div, cast_shiftLeft]
    field_simp
  rw [scaled] at covers
  by_cases small : x.digits = 0 ∨ x.point ≤ -324
  · exact ⟨0, (covers_zero_iff x.value_nonneg).mpr (zero_of_small small), fun _ => if_pos small⟩
  · by_cases large : 310 ≤ x.point
    · have range := covers.out_of_range_iff.mpr (infinite_of_large (fun h => small (.inl h)) large)
      refine ⟨_, covers, fun negative => ?_⟩
      rw [ofRank_of_le range]
      exact (if_neg small).trans (if_pos large)
    · exact ⟨_, covers, fun _ => (if_neg small).trans (if_neg large)⟩

theorem rounds_toBinary64 (x : Decimal) : Rounds x.value (x.toBinary64 false) := by
  obtain ⟨r, covers, same⟩ := x.exists_covers
  rw [same]
  exact rounds_of_covers x.value_nonneg covers

/-- The sign has no effect on the magnitude. -/
theorem toBinary64_of_rounds {x : Decimal} {rank : Fin magnitudes}
    (h : Rounds x.value (.finite false rank)) (negative : Bool) :
    x.toBinary64 negative = .finite negative rank := by
  obtain ⟨r, covers, same⟩ := x.exists_covers
  obtain rfl := covers.unique (h.interval rank rfl)
  rw [same, ofRank, dif_pos rank.isLt]

end ScriptLexer.Decimal

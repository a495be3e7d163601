import Mathlib.Order.Monotone.Basic
import Mathlib.Tactic.Ring
import ScriptLexer.Number.Binary64

/-!
The magnitudes in units of the least positive one. A rank splits into the binade and the significand,
where the full significand of one binade is the first of the next. So neighbours are one spacing
apart, and the magnitudes are just the numbers of at most 53 bits, shifted by at most 2045.
-/

namespace ScriptLexer.Binary64

theorem binade_eq : binade = 2 ^ 52 := by decide

theorem binade_pos : 0 < binade := by decide

theorem units_of_lt {n : Nat} (h : n < binade) : units n = n := by
  rw [units, significand, if_pos h, shift, Nat.div_eq_of_lt h]
  rfl

theorem units_normal (s : Nat) {n : Nat} (h : n < binade) :
    units ((s + 1) * binade + n) = (binade + n) * 2 ^ s := by
  have large : binade ≤ (s + 1) * binade := Nat.le_mul_of_pos_left binade (Nat.succ_pos s)
  have shifted : shift ((s + 1) * binade + n) = s := by
    rw [shift, Nat.mul_comm, Nat.mul_add_div binade_pos, Nat.div_eq_of_lt h]
    rfl
  rw [units, significand, if_neg (by omega), Nat.mul_add_mod_of_lt h, shifted, Nat.shiftLeft_eq]

/-- The full significand counts as well: it is the first magnitude of the next binade. -/
theorem units_add {s n : Nat} (normal : s = 0 ∨ binade ≤ n) (h : n ≤ 2 * binade) :
    units (s * binade + n) = n * 2 ^ s := by
  by_cases small : n < binade
  · obtain rfl : s = 0 := by omega
    rw [Nat.zero_mul, Nat.zero_add, units_of_lt small, Nat.pow_zero, Nat.mul_one]
  · obtain ⟨m, rfl⟩ := Nat.exists_eq_add_of_le (Nat.le_of_not_lt small)
    by_cases full : m = binade
    · subst full
      have next : s * binade + (binade + binade) = (s + 1 + 1) * binade + 0 := by ring
      rw [next, units_normal _ binade_pos]
      ring
    · have next : s * binade + (binade + m) = (s + 1) * binade + m := by ring
      rw [next, units_normal s (by omega)]

theorem exists_binade (r : Nat) :
    ∃ s n, r = s * binade + n ∧ (s = 0 ∨ binade ≤ n) ∧ n < 2 * binade := by
  by_cases small : r < binade
  · exact ⟨0, r, by omega, .inl rfl, by omega⟩
  · have split := Nat.div_add_mod r binade
    have below := Nat.mod_lt r binade_pos
    have quotient := Nat.div_pos (Nat.le_of_not_lt small) binade_pos
    obtain ⟨s, hs⟩ := Nat.exists_eq_succ_of_ne_zero quotient.ne'
    rw [hs, Nat.mul_succ, Nat.mul_comm] at split
    exact ⟨s, binade + r % binade, by omega, .inr (by omega), by omega⟩

theorem units_strictMono : StrictMono units := by
  refine strictMono_nat_of_lt_succ ?_
  intro r
  obtain ⟨s, n, rfl, normal, h⟩ := exists_binade r
  rw [Nat.add_assoc, units_add normal (by omega), units_add (by omega) (by omega)]
  exact Nat.mul_lt_mul_of_pos_right (Nat.lt_succ_self n) (Nat.two_pow_pos s)

theorem significand_lt (r : Nat) : significand r < 2 ^ 53 := by
  have width : 2 ^ 53 = 2 * binade := by decide
  have below := Nat.mod_lt r binade_pos
  rw [significand]
  split <;> omega

/-- A rank is even exactly when the significand is. -/
theorem significand_mod_two (r : Nat) : significand r % 2 = r % 2 := by
  rw [significand]
  split
  · rfl
  · have low : r % binade % 2 = r % 2 := Nat.mod_mod_of_dvd r (by decide)
    have even : binade % 2 = 0 := by decide
    omega

theorem normal_significand (r : Nat) : shift r = 0 ∨ 2 ^ 52 ≤ significand r := by
  rw [← binade_eq, significand]
  split
  · next small => exact .inl (by rw [shift, Nat.div_eq_of_lt small])
  · exact .inr (Nat.le_add_right _ _)

theorem shift_le {r : Nat} (h : r < magnitudes) : shift r ≤ 2045 := by
  have quotient : r / binade < 2047 := Nat.div_lt_of_lt_mul (by rwa [Nat.mul_comm])
  rw [shift]
  omega

/-- Numbers of 53 bits at most, shifted by 2045 at most, are magnitudes. -/
theorem exists_rank {m e : Nat} (hm : m < 2 ^ 53) (he : e ≤ 2045) :
    ∃ r < magnitudes, units r = m * 2 ^ e := by
  have width : 2 ^ 53 = 2 * binade := by decide
  induction e generalizing m with
  | zero =>
      have small : 2 * binade ≤ magnitudes := by decide
      refine ⟨m, by omega, ?_⟩
      have same := units_add (.inl rfl) (show m ≤ 2 * binade by omega)
      rwa [Nat.zero_mul, Nat.zero_add] at same
  | succ e ih =>
      by_cases normal : binade ≤ m
      · refine ⟨(e + 1) * binade + m, ?_, units_add (.inr normal) (by omega)⟩
        have rank : (e + 1) * binade ≤ 2045 * binade := Nat.mul_le_mul_right binade he
        have all : magnitudes = 2045 * binade + 2 * binade := by decide
        omega
      · obtain ⟨r, hr, same⟩ := ih (m := 2 * m) (by omega) (by omega)
        refine ⟨r, hr, ?_⟩
        rw [same]
        ring

end ScriptLexer.Binary64

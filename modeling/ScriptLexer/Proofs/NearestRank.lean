import ScriptLexer.Proofs.Rounding

/-!
The rank of a quotient. In units of the spacing of its binade a quotient is rounded to a whole number.
Main statement: this gives the rank of the interval in which the quotient lies.
-/

namespace ScriptLexer.Binary64

/-- The number lies within one half of a whole number, at one half only of an even one. -/
structure RoundsWhole (z : ℚ) (n : Nat) : Prop where
  low : (n : ℚ) - 1 / 2 ≤ z
  high : z ≤ n + 1 / 2
  even : z = (n : ℚ) - 1 / 2 ∨ z = n + 1 / 2 → n % 2 = 0

theorem two_mul_eq_of_half {m den : Nat} (pos : (0 : ℚ) < den) (h : (m : ℚ) / den = 1 / 2) :
    2 * m = den := by
  rw [div_eq_div_iff pos.ne' two_ne_zero, mul_comm, one_mul] at h
  exact_mod_cast h

theorem roundsWhole_nearest (num : Nat) {den : Nat} (pos : 0 < den) :
    RoundsWhole (num / den) (nearest num den) := by
  have left := Nat.mod_lt num pos
  have split : den * (num / den) + num % den = num := Nat.div_add_mod num den
  have posQ : (0 : ℚ) < den := Nat.cast_pos.mpr pos
  generalize hq : num / den = q at split
  generalize hm : num % den = m at split left
  have value : (num : ℚ) / den = q + m / den := by
    rw [← split]
    push_cast
    field_simp
  have nonneg : (0 : ℚ) ≤ m / den := by positivity
  have succ : ((q + 1 : Nat) : ℚ) = q + 1 := Nat.cast_succ q
  rw [value, nearest, hq, hm]
  split
  · next down =>
      have half : (m : ℚ) / den ≤ 1 / 2 := by
        rw [div_le_div_iff₀ posQ two_pos]
        exact_mod_cast (show m * 2 ≤ 1 * den by omega)
      refine ⟨by linarith, by linarith, ?_⟩
      rintro (tie | tie)
      · linarith
      · have double := two_mul_eq_of_half (m := m) posQ (by linarith)
        omega
  · next up =>
      have below : (m : ℚ) / den < 1 := by
        rw [div_lt_one posQ]
        exact_mod_cast left
      have half : 1 / 2 ≤ (m : ℚ) / den := by
        rw [div_le_div_iff₀ two_pos posQ]
        exact_mod_cast (show 1 * den ≤ m * 2 by omega)
      refine ⟨by linarith, by linarith, ?_⟩
      rintro (tie | tie)
      · have double := two_mul_eq_of_half (m := m) posQ (by linarith)
        omega
      · linarith

theorem magnitude_add {s n : Nat} (normal : s = 0 ∨ binade ≤ n) (h : n ≤ 2 * binade) :
    magnitude (s * binade + n) = n * spacing s := by
  rw [magnitude, units_add normal h, spacing, Nat.cast_mul, Nat.cast_pow, Nat.cast_ofNat,
    mul_div_assoc]

section

variable {s n : Nat} {z : ℚ}

theorem RoundsWhole.le_upper (rounds : RoundsWhole z n) (normal : s = 0 ∨ binade ≤ n)
    (small : n ≤ 2 * binade) (below : z < 2 * binade) :
    z * spacing s ≤ upper (s * binade + n) ∧
      (z * spacing s = upper (s * binade + n) → z = n + 1 / 2) := by
  have pos := spacing_pos s
  have here := magnitude_add normal small
  by_cases full : n = 2 * binade
  · have next := magnitude_strictMono (Nat.lt_succ_self (s * binade + n))
    have less : z * spacing s < n * spacing s := by
      have less : z < (2 * binade : Nat) := by rwa [Nat.cast_mul, Nat.cast_ofNat]
      rw [full]
      exact mul_lt_mul_of_pos_right less pos
    have strict : z * spacing s < upper (s * binade + n) := by
      rw [upper]
      linarith
    exact ⟨strict.le, fun same => absurd same strict.ne⟩
  · have next : magnitude (s * binade + n + 1) = (n + 1 : Nat) * spacing s := by
      rw [Nat.add_assoc]
      exact magnitude_add (by omega) (by omega)
    have half : upper (s * binade + n) = (n + 1 / 2) * spacing s := by
      rw [upper, here, next]
      push_cast
      ring
    rw [half]
    exact ⟨mul_le_mul_of_nonneg_right rounds.high pos.le, mul_right_cancel₀ pos.ne'⟩

theorem RoundsWhole.lower_le (rounds : RoundsWhole z n) (normal : s = 0 ∨ (binade : ℚ) ≤ z)
    (normal' : s = 0 ∨ binade ≤ n) (nonneg : 0 ≤ z) (small : n ≤ 2 * binade) :
    lower (s * binade + n) ≤ z * spacing s ∧
      (z * spacing s = lower (s * binade + n) → z = (n : ℚ) - 1 / 2 ∨ n = 0) := by
  have pos := spacing_pos s
  have here := magnitude_add normal' small
  by_cases first : n = 0
  · subst first
    obtain rfl : s = 0 := normal'.resolve_right (by decide)
    have zero : lower (0 * binade + 0) = 0 := lower_zero
    rw [zero]
    exact ⟨mul_nonneg nonneg pos.le, fun _ => .inr rfl⟩
  · obtain ⟨m, rfl⟩ : ∃ m, n = m + 1 := ⟨n - 1, by omega⟩
    by_cases inside : s = 0 ∨ binade ≤ m
    · have before := magnitude_add inside (by omega)
      have half : lower (s * binade + (m + 1)) = ((m + 1 : Nat) - 1 / 2 : ℚ) * spacing s := by
        rw [← Nat.add_assoc] at here ⊢
        rw [lower, Nat.add_sub_cancel, here, before]
        push_cast
        ring
      rw [half]
      exact ⟨mul_le_mul_of_nonneg_right rounds.low pos.le,
        fun same => .inl (mul_right_cancel₀ pos.ne' same)⟩
    · -- The magnitude before is less than one spacing away, but the number is not below this one.
      have edge : binade = m + 1 := by omega
      have le : ((m + 1 : Nat) : ℚ) * spacing s ≤ z * spacing s := by
        rw [← edge]
        exact mul_le_mul_of_nonneg_right (normal.resolve_left (by omega)) pos.le
      have before := magnitude_strictMono (Nat.lt_succ_self (s * binade + m))
      have strict : lower (s * binade + (m + 1)) < z * spacing s := by
        rw [← Nat.add_assoc] at here ⊢
        rw [lower, Nat.add_sub_cancel]
        linarith
      exact ⟨strict.le, fun same => absurd same strict.ne'⟩

end

/-- Rounding in units of the spacing of a binade finds the interval. -/
theorem covers_of_roundsWhole {s n : Nat} {z : ℚ} (normal : s = 0 ∨ (binade : ℚ) ≤ z)
    (nonneg : 0 ≤ z) (below : z < 2 * binade) (rounds : RoundsWhole z n) :
    Covers (s * binade + n) (z * spacing s) := by
  have small : n ≤ 2 * binade := by
    have le : (n : ℚ) < (2 * binade : Nat) + 1 := by
      have low := rounds.low
      push_cast
      linarith
    exact Nat.le_of_lt_succ (by exact_mod_cast le)
  have normal' : s = 0 ∨ binade ≤ n := by
    refine normal.imp_right ?_
    intro le
    have high := rounds.high
    have less : (binade : ℚ) < n + 1 := by linarith
    exact Nat.le_of_lt_succ (by exact_mod_cast less)
  obtain ⟨high, atUpper⟩ := rounds.le_upper normal' small below
  obtain ⟨low, atLower⟩ := rounds.lower_le normal normal' nonneg small
  refine ⟨low, high, ?_⟩
  intro tie
  have even : n % 2 = 0 := by
    obtain same | same := tie
    · obtain half | rfl := atLower same
      · exact rounds.even (.inl half)
      · rfl
    · exact rounds.even (.inr (atUpper same))
  have binade_even : binade % 2 = 0 := by decide
  rw [significand_mod_two, Nat.add_mod, Nat.mul_mod, binade_even, even]
  rfl

theorem binade_of_log2 (num : Nat) {den s : Nat} (pos : 0 < den)
    (hs : (num / den).log2 - 52 = s) :
    (s = 0 ∨ binade * (den <<< s) ≤ num) ∧ num < 2 * binade * (den <<< s) := by
  have unit : binade * (den <<< s) = 2 ^ (52 + s) * den := by
    rw [Nat.shiftLeft_eq, binade_eq, pow_add]
    ring
  rw [Nat.mul_assoc, unit]
  constructor
  · by_cases zero : s = 0
    · exact .inl zero
    · have ne : num / den ≠ 0 := by
        intro none_left
        rw [none_left, Nat.log2_zero] at hs
        omega
      have le : 2 ^ (52 + s) ≤ num / den := (Nat.le_log2 ne).mp (by omega)
      exact .inr ((Nat.le_div_iff_mul_le pos).mp le)
  · have less : num / den < 2 ^ (52 + s + 1) :=
      Nat.lt_of_lt_of_le Nat.lt_log2_self (Nat.pow_le_pow_right two_pos (by omega))
    rw [Nat.div_lt_iff_lt_mul pos, pow_succ] at less
    linarith

theorem covers_nearestRank (num : Nat) {den : Nat} (pos : 0 < den) :
    Covers (nearestRank num den) (num / den / 2 ^ 1074) := by
  have posQ : (0 : ℚ) < den := Nat.cast_pos.mpr pos
  generalize hs : (num / den).log2 - 52 = s
  obtain ⟨normal, below⟩ := binade_of_log2 num pos hs
  have posScaled : (0 : ℚ) < (den <<< s : Nat) := by
    rw [cast_shiftLeft]
    positivity
  have normalQ : s = 0 ∨ (binade : ℚ) ≤ num / (den <<< s : Nat) := by
    refine normal.imp_right ?_
    intro le
    rw [le_div_iff₀ posScaled]
    exact_mod_cast le
  have belowQ : (num : ℚ) / (den <<< s : Nat) < 2 * binade := by
    rw [div_lt_iff₀ posScaled]
    exact_mod_cast below
  have covers := covers_of_roundsWhole normalQ (by positivity) belowQ
    (roundsWhole_nearest num (Nat.cast_pos.mp posScaled))
  have value : (num : ℚ) / (den <<< s : Nat) * spacing s = num / den / 2 ^ 1074 := by
    rw [cast_shiftLeft, spacing]
    field_simp
  rw [nearestRank, hs, ← value]
  exact covers

end ScriptLexer.Binary64

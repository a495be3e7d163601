import ScriptLexer.Proofs.DecimalCandidates

/-!
The shortest decimal of a double. Every magnitude is so far from the ends of its rounding interval
that a decimal with seventeen digits fits in between. Main statement: the search finds a decimal that
rounds to the magnitude, with as few digits as there can be, and of these the nearest.
-/

namespace ScriptLexer.Binary64

theorem spacing_succ (s : Nat) : spacing (s + 1) = 2 * spacing s := by
  rw [spacing, spacing, pow_succ' 2 s, mul_div_assoc]

theorem magnitude_lt_lower_gap {r : Nat} (pos : 0 < r) :
    magnitude r < 2 * 10 ^ 16 * (magnitude r - lower r) := by
  obtain ⟨s, n, rfl, normal, below⟩ := exists_binade r
  have unit := spacing_pos s
  have here := magnitude_add normal below.le
  have ne : n ≠ 0 := by
    rintro rfl
    obtain rfl : s = 0 := normal.resolve_right (Nat.not_le.mpr binade_pos)
    rw [Nat.zero_mul] at pos
    exact lt_irrefl 0 pos
  obtain ⟨m, rfl⟩ : ∃ m, n = m + 1 := Nat.exists_eq_succ_of_ne_zero ne
  rw [lower, ← Nat.add_assoc, Nat.add_sub_cancel, Nat.add_assoc, here]
  by_cases inside : s = 0 ∨ binade ≤ m
  · have before := magnitude_add inside (by omega)
    have small : ((m + 1 : Nat) : ℚ) < 10 ^ 16 := by
      have width : 2 * binade ≤ 10 ^ 16 := by decide
      exact_mod_cast below.trans_le width
    rw [before]
    push_cast at small ⊢
    nlinarith
  · -- At a power of two the magnitude before is only half a spacing away.
    obtain ⟨t, rfl⟩ : ∃ t, s = t + 1 := Nat.exists_eq_succ_of_ne_zero (by omega)
    have edge : m + 1 = binade := by omega
    have before : magnitude ((t + 1) * binade + m) = (2 * binade - 1 : Nat) * spacing t := by
      have rank : (t + 1) * binade + m = t * binade + (2 * binade - 1) := by
        rw [Nat.succ_mul]
        omega
      rw [rank]
      exact magnitude_add (.inr (by omega)) (by omega)
    have width : ((2 * binade - 1 : Nat) : ℚ) = 2 ^ 53 - 1 := by
      rw [binade_eq]
      norm_num
    rw [edge, before, width, spacing_succ, binade_eq]
    rw [spacing_succ] at unit
    push_cast
    nlinarith

theorem magnitude_lt_upper_gap (r : Nat) :
    magnitude r < 2 * 10 ^ 16 * (upper r - magnitude r) := by
  obtain ⟨s, n, rfl, normal, below⟩ := exists_binade r
  have unit := spacing_pos s
  have here := magnitude_add normal below.le
  have next := magnitude_add (s := s) (n := n + 1) (by omega) (by omega)
  have small : (n : ℚ) < 10 ^ 16 := by
    have width : 2 * binade ≤ 10 ^ 16 := by decide
    exact_mod_cast below.trans_le width
  rw [upper, Nat.add_assoc, here, next]
  push_cast
  nlinarith

theorem seventeen_digits {r : Nat} (pos : 0 < r) :
    withDigits? r (wholeDigits r) 17 ≠ none := by
  intro missing
  have many := (wholeDigits_bounds pos).1
  obtain ⟨low, near, far, -, around⟩ := magnitude_around many.le
  have bounded := around.le_of_lt (magnitude_lt pos 17) (.inl rfl)
  have digits := hasDigits_of_le (by decide) bounded (lastDigit r 17)
  refine withDigits?_eq_none pos (by decide) many.le missing digits ?_
  have large := le_magnitude pos (show 0 < 17 by decide)
  obtain ⟨low, high⟩ := abs_le.mp around.half
  have below := magnitude_lt_lower_gap pos
  have above := magnitude_lt_upper_gap r
  push_cast at large
  apply covers_of_lt
  · linarith
  · linarith

/-- The first digit count for which the search finds a decimal. -/
theorem shortest_found {r : Nat} (pos : 0 < r) :
    ∃ count, 0 < count ∧ count ≤ 17 ∧ withDigits? r (wholeDigits r) count = some (shortest r) ∧
      ∀ j, 0 < j → j < count → withDigits? r (wholeDigits r) j = none := by
  cases found : (List.range' 1 17).findSome? (withDigits? r (wholeDigits r)) with
  | none =>
      have missing := List.findSome?_eq_none_iff.mp found 17 (by decide)
      exact absurd missing (seventeen_digits pos)
  | some x =>
      obtain ⟨fewer, count, more, split, some_x, before⟩ := List.findSome?_eq_some_iff.mp found
      obtain ⟨n, -, rfl, behind⟩ := List.range'_eq_append_iff.mp split
      obtain ⟨first, below, -⟩ := List.range'_eq_cons_iff.mp behind.symm
      have same : shortest r = x := by
        simp only [shortest]
        rw [← wholeDigits, found, Option.getD_some]
      rw [same]
      refine ⟨count, by omega, by omega, some_x, fun j some_digit less => ?_⟩
      exact before j (List.mem_range'_1.mpr ⟨some_digit, by omega⟩)

/-- The number rounds to the magnitude and has `count` digits; no number with fewer digits rounds to
the magnitude, and none with as many digits that does is nearer to it. -/
structure Shortest (rank : Fin magnitudes) (count : Nat) (y : ℚ) : Prop where
  rounds : Rounds y (.finite false rank)
  digits : HasDigits count y
  fewest : ∀ j z, HasDigits j z → Rounds z (.finite false rank) → count ≤ j
  nearest : ∀ z, HasDigits count z → Rounds z (.finite false rank) →
    |magnitude rank - y| ≤ |magnitude rank - z|

theorem rounds_iff_covers {rank : Fin magnitudes} {y : ℚ} (nonneg : 0 ≤ y) :
    Rounds y (.finite false rank) ↔ Covers rank y := by
  constructor
  · intro rounds
    exact rounds.interval rank rfl
  · intro covers
    have rounds := rounds_of_covers nonneg covers
    rwa [ofRank, dif_pos rank.isLt] at rounds

theorem Shortest.pos {rank : Fin magnitudes} {count : Nat} {y : ℚ} (h : Shortest rank count y)
    (pos : 0 < rank.val) : 0 < y :=
  (lower_pos pos).trans_le (h.rounds.interval rank rfl).low

theorem exists_shortest {rank : Fin magnitudes} (pos : 0 < rank.val) :
    ∃ count, Shortest rank count (shortest rank).value := by
  obtain ⟨count, some_digit, few, found, before⟩ := shortest_found pos
  have many := (wholeDigits_bounds pos).1
  obtain ⟨exponent, covers, bounded, nearest⟩ :=
    withDigits?_eq_some pos some_digit (few.trans many.le) found
  refine ⟨count, (rounds_iff_covers (Decimal.value_nonneg _)).mpr covers,
    hasDigits_of_le some_digit bounded _, ?_, ?_⟩
  · intro j z hz rounds
    have covers := rounds.interval rank rfl
    by_contra fewer
    obtain rfl | some_j := Nat.eq_zero_or_pos j
    · -- Without digits there is only zero, which rounds to no positive magnitude.
      obtain ⟨m, k, less, rfl⟩ := hz
      obtain rfl : m = 0 := Nat.lt_one_iff.mp less
      have low := covers.low
      have away := lower_pos pos
      rw [Nat.cast_zero, zero_mul] at low
      linarith
    · exact withDigits?_eq_none pos some_j (by omega) (before j some_j (by omega)) hz covers
  · intro z hz rounds
    exact nearest z hz (rounds.interval rank rfl)

end ScriptLexer.Binary64

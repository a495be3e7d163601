import Mathlib.Algebra.Order.Field.Rat
import Mathlib.Tactic.FieldSimp
import Mathlib.Tactic.Linarith
import Mathlib.Tactic.Positivity
import ScriptLexer.Proofs.Magnitudes

/-!
Rounding to the nearest double, the even one of two. Each magnitude has an interval that reaches half
way to its neighbours, and no number lies in two of these intervals. Main statement: the magnitude of
an interval is as near to the numbers in it as any double, and the first and the last interval end
where numbers round to zero and to infinity.
-/

namespace ScriptLexer.Binary64

def magnitude (r : Nat) : ℚ := units r / 2 ^ 1074

/-- Half way down to the magnitude before, zero for the first one. -/
def lower (r : Nat) : ℚ := (magnitude (r - 1) + magnitude r) / 2

/-- Half way up to the next magnitude. -/
def upper (r : Nat) : ℚ := (magnitude r + magnitude (r + 1)) / 2

/-- The number lies in the rounding interval of the magnitude, whose ends belong to it if the
significand is even. -/
structure Covers (r : Nat) (x : ℚ) : Prop where
  low : lower r ≤ x
  high : x ≤ upper r
  even : x = lower r ∨ x = upper r → significand r % 2 = 0

theorem cast_shiftLeft (n s : Nat) : ((n <<< s : Nat) : ℚ) = n * 2 ^ s := by
  rw [Nat.shiftLeft_eq, Nat.cast_mul, Nat.cast_pow, Nat.cast_ofNat]

theorem magnitude_strictMono : StrictMono magnitude := by
  intro r s h
  have less : (units r : ℚ) < units s := Nat.cast_lt.mpr (units_strictMono h)
  rw [magnitude, magnitude]
  exact div_lt_div_of_pos_right less (by positivity)

theorem magnitude_zero : magnitude 0 = 0 := by
  rw [magnitude, units_of_lt binade_pos, Nat.cast_zero, zero_div]

theorem upper_strictMono : StrictMono upper := by
  intro r s h
  have here := magnitude_strictMono h
  have next := magnitude_strictMono (Nat.succ_lt_succ h)
  rw [upper, upper]
  linarith

theorem Covers.not_lt {r s : Nat} {x : ℚ} (hr : Covers r x) (hs : Covers s x) : ¬ r < s := by
  intro h
  obtain ⟨t, rfl⟩ := Nat.exists_eq_add_of_lt h
  have below : upper (r + t) ≤ x := hs.low
  have above := hr.high
  obtain rfl : t = 0 := by
    by_contra ne
    have farther := upper_strictMono (show r < r + t by omega)
    linarith
  have even := hr.even (.inr (le_antisymm above below))
  have even' := hs.even (.inl (le_antisymm above below))
  rw [significand_mod_two] at even even'
  omega

theorem Covers.unique {r s : Nat} {x : ℚ} (hr : Covers r x) (hs : Covers s x) : r = s := by
  have := hr.not_lt hs
  have := hs.not_lt hr
  omega

theorem lower_zero : lower 0 = 0 := by
  rw [lower, magnitude_zero]
  norm_num

theorem covers_zero_iff {x : ℚ} (nonneg : 0 ≤ x) : Covers 0 x ↔ x ≤ 1 / 2 ^ 1075 := by
  have high : upper 0 = 1 / 2 ^ 1075 := by
    rw [upper, magnitude_zero, magnitude, units_of_lt (by decide), pow_succ 2 1074]
    field_simp
    norm_num
  constructor
  · intro h
    exact high ▸ h.high
  · intro h
    exact ⟨lower_zero ▸ nonneg, high ▸ h, fun _ => rfl⟩

theorem Covers.nearest_before {r s : Nat} {x : ℚ} (h : Covers r x) (hs : s < r) :
    |x - magnitude r| ≤ |x - magnitude s| ∧
      (|x - magnitude r| = |x - magnitude s| → significand r % 2 = 0) := by
  obtain ⟨t, rfl⟩ := Nat.exists_eq_succ_of_ne_zero (Nat.ne_of_gt (Nat.zero_lt_of_lt hs))
  have low : (magnitude t + magnitude (t + 1)) / 2 ≤ x := h.low
  have step : magnitude t < magnitude (t + 1) := magnitude_strictMono (Nat.lt_succ_self t)
  have before : magnitude s ≤ magnitude t :=
    magnitude_strictMono.monotone (Nat.le_of_lt_succ hs)
  have away : x - magnitude s ≤ |x - magnitude s| := le_abs_self _
  have near : |x - magnitude (t + 1)| ≤ x - magnitude t :=
    abs_le.mpr ⟨by linarith, by linarith⟩
  refine ⟨by linarith, ?_⟩
  intro same
  obtain right | left := abs_choice (x - magnitude (t + 1))
  · linarith
  · refine h.even (.inl ?_)
    have half : x = (magnitude t + magnitude (t + 1)) / 2 := by linarith
    exact half

theorem Covers.nearest_behind {r s : Nat} {x : ℚ} (h : Covers r x) (hs : r < s) :
    |x - magnitude r| ≤ |x - magnitude s| ∧
      (|x - magnitude r| = |x - magnitude s| → significand r % 2 = 0) := by
  have high : x ≤ (magnitude r + magnitude (r + 1)) / 2 := h.high
  have step : magnitude r < magnitude (r + 1) := magnitude_strictMono (Nat.lt_succ_self r)
  have behind : magnitude (r + 1) ≤ magnitude s := magnitude_strictMono.monotone hs
  have away : -(x - magnitude s) ≤ |x - magnitude s| := neg_le_abs _
  have near : |x - magnitude r| ≤ magnitude (r + 1) - x :=
    abs_le.mpr ⟨by linarith, by linarith⟩
  refine ⟨by linarith, ?_⟩
  intro same
  obtain right | left := abs_choice (x - magnitude r)
  · refine h.even (.inr ?_)
    have half : x = (magnitude r + magnitude (r + 1)) / 2 := by linarith
    exact half
  · linarith

/-- No magnitude is nearer, and where another is as near, the significand is even. -/
theorem Covers.nearest {r : Nat} {x : ℚ} (h : Covers r x) (s : Nat) :
    |x - magnitude r| ≤ |x - magnitude s| ∧
      (|x - magnitude r| = |x - magnitude s| → s = r ∨ significand r % 2 = 0) := by
  obtain hs | rfl | hs := Nat.lt_trichotomy s r
  · obtain ⟨near, tie⟩ := h.nearest_before hs
    exact ⟨near, fun same => .inr (tie same)⟩
  · exact ⟨le_rfl, fun _ => .inl rfl⟩
  · obtain ⟨near, tie⟩ := h.nearest_behind hs
    exact ⟨near, fun same => .inr (tie same)⟩

theorem upper_last : upper (magnitudes - 1) = 2 ^ 1024 - 2 ^ 970 := by
  have rank : magnitudes - 1 = 2045 * binade + (2 * binade - 1) := by decide
  have next : magnitudes - 1 + 1 = 2045 * binade + 2 * binade := by decide
  have last : units (magnitudes - 1) = (2 * binade - 1) * 2 ^ 2045 := by
    rw [rank]
    exact units_add (.inr (by decide)) (by decide)
  have first : units (magnitudes - 1 + 1) = 2 * binade * 2 ^ 2045 := by
    rw [next]
    exact units_add (.inr (by decide)) (by decide)
  have top : (2 : ℚ) ^ 1024 = 2 ^ 970 * 2 ^ 54 := pow_add 2 970 54
  have scale : (2 : ℚ) ^ 2045 = 2 ^ 970 * 2 * 2 ^ 1074 := by rw [← pow_succ, ← pow_add]
  have width : ((2 * binade - 1 : Nat) : ℚ) = 2 ^ 53 - 1 := by
    rw [binade_eq]
    norm_num
  have full : ((2 * binade : Nat) : ℚ) = 2 ^ 53 := by
    rw [binade_eq]
    norm_num
  rw [upper, magnitude, magnitude, last, first, top, Nat.cast_mul, Nat.cast_mul, width, full]
  rw [Nat.cast_pow, Nat.cast_ofNat, scale]
  have unit : (2 : ℚ) ^ 1074 ≠ 0 := by positivity
  generalize (2 : ℚ) ^ 970 = a
  generalize (2 : ℚ) ^ 1074 = u at unit
  field_simp
  ring

/-- A number is out of range from half way behind the last magnitude on. -/
theorem Covers.out_of_range_iff {r : Nat} {x : ℚ} (h : Covers r x) :
    magnitudes ≤ r ↔ 2 ^ 1024 - 2 ^ 970 ≤ x := by
  rw [← upper_last]
  constructor
  · intro large
    obtain ⟨t, rfl⟩ := Nat.exists_eq_succ_of_ne_zero (Nat.ne_of_gt (Nat.zero_lt_of_lt large))
    have below : upper t ≤ x := h.low
    have last : magnitudes - 1 ≤ t := by omega
    exact (upper_strictMono.monotone last).trans below
  · intro above
    by_contra small
    obtain less | same := Nat.lt_or_eq_of_le (show r ≤ magnitudes - 1 by omega)
    · have high := h.high
      have far := upper_strictMono less
      linarith
    · have even := h.even (.inr (le_antisymm h.high (same ▸ above)))
      rw [same] at even
      exact absurd even (by decide)

/-- How far apart the magnitudes of a binade are. -/
def spacing (s : Nat) : ℚ := 2 ^ s / 2 ^ 1074

theorem spacing_pos (s : Nat) : 0 < spacing s := by
  rw [spacing]
  positivity

theorem magnitude_eq (r : Nat) : magnitude r = significand r * spacing (shift r) := by
  rw [magnitude, units, cast_shiftLeft, spacing, mul_div_assoc]

theorem exists_magnitude {m e : Nat} (hm : m < 2 ^ 53) (he : e ≤ 2045) :
    ∃ r < magnitudes, magnitude r = m * spacing e := by
  obtain ⟨r, hr, same⟩ := exists_rank hm he
  refine ⟨r, hr, ?_⟩
  rw [magnitude, same, spacing, Nat.cast_mul, Nat.cast_pow, Nat.cast_ofNat, mul_div_assoc]

theorem ofRank_of_le {negative : Bool} {r : Nat} (h : magnitudes ≤ r) :
    ofRank negative r = .infinity negative :=
  dif_neg (Nat.not_lt.mpr h)

/-- The double nearest to a number that is not negative, told without ranks: `m * spacing e` with 53
bits for `m` runs through the magnitudes, and `m` is the significand if it has all of its bits or `e`
is least. -/
structure Rounds (x : ℚ) (y : Binary64) : Prop where
  positive : y = .infinity false ∨ ∃ r, y = .finite false r
  zero : y = .zero false ↔ x ≤ 1 / 2 ^ 1075
  infinity : y = .infinity false ↔ 2 ^ 1024 - 2 ^ 970 ≤ x
  interval : ∀ r, y = .finite false r → Covers r x
  nearest : ∀ r, y = .finite false r → ∃ m e : Nat, m < 2 ^ 53 ∧ e ≤ 2045 ∧
    (e = 0 ∨ 2 ^ 52 ≤ m) ∧ magnitude r = m * spacing e ∧
    ∀ n d : Nat, n < 2 ^ 53 → d ≤ 2045 →
      |x - m * spacing e| ≤ |x - n * spacing d| ∧
        (|x - m * spacing e| = |x - n * spacing d| →
          (n * spacing d : ℚ) = m * spacing e ∨ m % 2 = 0)

theorem Rounds.unique {x : ℚ} {y z : Binary64} (hy : Rounds x y) (hz : Rounds x z) : y = z := by
  obtain rfl | ⟨r, rfl⟩ := hy.positive
  · exact (hz.infinity.mpr (hy.infinity.mp rfl)).symm
  · obtain rfl | ⟨s, rfl⟩ := hz.positive
    · cases hy.infinity.mpr (hz.infinity.mp rfl)
    · have same := (hy.interval r rfl).unique (hz.interval s rfl)
      rw [Fin.ext same]

theorem rounds_of_covers {r : Nat} {x : ℚ} (nonneg : 0 ≤ x) (h : Covers r x) :
    Rounds x (ofRank false r) := by
  by_cases finite : r < magnitudes
  · rw [ofRank, dif_pos finite]
    constructor
    · exact .inr ⟨_, rfl⟩
    · rw [← covers_zero_iff nonneg]
      constructor
      · intro same
        cases same
        exact h
      · intro zero
        cases h.unique zero
        rfl
    · rw [← h.out_of_range_iff]
      constructor
      · exact nofun
      · intro large
        exact absurd finite (Nat.not_lt.mpr large)
    · intro s same
      cases same
      exact h
    · intro s same
      cases same
      refine ⟨significand r, shift r, significand_lt r, shift_le finite, normal_significand r,
        magnitude_eq r, ?_⟩
      intro n d hn hd
      obtain ⟨t, -, other⟩ := exists_magnitude hn hd
      rw [← magnitude_eq, ← other]
      obtain ⟨near, tie⟩ := h.nearest t
      refine ⟨near, fun same => (tie same).imp_left ?_⟩
      rintro rfl
      rfl
  · rw [ofRank_of_le (Nat.le_of_not_lt finite)]
    constructor
    · exact .inl rfl
    · rw [← covers_zero_iff nonneg]
      constructor
      · exact nofun
      · intro zero
        cases h.unique zero
        exact absurd (by decide) finite
    · rw [← h.out_of_range_iff]
      exact iff_of_true rfl (Nat.le_of_not_lt finite)
    · exact nofun
    · exact nofun

end ScriptLexer.Binary64

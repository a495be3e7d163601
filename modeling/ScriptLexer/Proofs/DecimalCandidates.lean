import Mathlib.Algebra.Order.Floor.Semifield
import Mathlib.Data.Rat.Floor
import ScriptLexer.Number.Shortest
import ScriptLexer.Proofs.DecimalRounding

/-!
Decimals with few digits around a double. With a given number of digits only the two multiples of a
power of ten around a magnitude can be nearest to it. Main statement: one step of the search finds the
nearest decimal with so many digits that rounds to the magnitude, or else there is none.
-/

namespace ScriptLexer.Binary64

/-- The number can be written with `count` significant digits, and any number of zeros behind. -/
def HasDigits (count : Nat) (y : ℚ) : Prop := ∃ (m : Nat) (k : Int), m < 10 ^ count ∧ y = m * 10 ^ k

theorem hasDigits_of_le {count m : Nat} (some_digit : 0 < count) (h : m ≤ 10 ^ count) (k : Int) :
    HasDigits count (m * 10 ^ k) := by
  obtain less | rfl := Nat.lt_or_eq_of_le h
  · exact ⟨m, k, less, rfl⟩
  · refine ⟨1, count + k, Nat.one_lt_pow some_digit.ne' (by decide), ?_⟩
    rw [zpow_add₀ (by norm_num), zpow_natCast]
    push_cast
    ring

/-- Between neighbouring multiples of a power of ten is nothing that has only the digits of the lower
one. -/
theorem HasDigits.outside {count low : Nat} {y : ℚ} (h : HasDigits count y)
    (large : 10 ^ (count - 1) ≤ low) (g : Int) :
    y ≤ low * 10 ^ g ∨ (low + 1 : Nat) * 10 ^ g ≤ y := by
  obtain ⟨m, k, less, rfl⟩ := h
  have pos := Decimal.ten_zpow_pos g
  by_cases fine : k < g
  · left
    have power : (10 : ℚ) ^ k ≤ 10 ^ (g - 1) := zpow_le_zpow_right₀ (by norm_num) (by omega)
    have digits : m ≤ 10 * low := by
      have one_more : 10 ^ count ≤ 10 * 10 ^ (count - 1) := by
        rw [← pow_succ']
        exact Nat.pow_le_pow_right (by decide) (by omega)
      omega
    have digitsQ : (m : ℚ) ≤ 10 * low := by exact_mod_cast digits
    calc (m : ℚ) * 10 ^ k
        ≤ (10 * low) * 10 ^ (g - 1) :=
          mul_le_mul digitsQ power (Decimal.ten_zpow_pos k).le (by positivity)
      _ = low * 10 ^ g := by
          rw [zpow_sub_one₀ (by norm_num)]
          field_simp
  · obtain ⟨d, hd⟩ : ∃ d : Nat, k = g + d := ⟨(k - g).toNat, by omega⟩
    have multiple : (m : ℚ) * 10 ^ k = (m * 10 ^ d : Nat) * 10 ^ g := by
      rw [hd, zpow_add₀ (by norm_num), zpow_natCast]
      push_cast
      ring
    rw [multiple]
    obtain below | above := Nat.lt_or_ge low (m * 10 ^ d)
    · right
      exact mul_le_mul_of_nonneg_right (Nat.cast_le.mpr below) pos.le
    · left
      exact mul_le_mul_of_nonneg_right (Nat.cast_le.mpr above) pos.le

section

variable {r : Nat} {x y z : ℚ}

theorem lower_lt_magnitude (pos : 0 < r) : lower r < magnitude r := by
  have step := magnitude_strictMono (Nat.sub_lt pos one_pos)
  rw [lower]
  linarith

theorem magnitude_lt_upper (r : Nat) : magnitude r < upper r := by
  have step := magnitude_strictMono (Nat.lt_succ_self r)
  rw [upper]
  linarith

theorem lower_pos (pos : 0 < r) : 0 < lower r := by
  have before := magnitude_strictMono.monotone (Nat.zero_le (r - 1))
  have here := magnitude_strictMono pos
  rw [magnitude_zero] at before here
  rw [lower]
  linarith

theorem covers_iff : Covers r x ↔
    if r % 2 = 0 then lower r ≤ x ∧ x ≤ upper r else lower r < x ∧ x < upper r := by
  rw [← significand_mod_two]
  split
  · next even => exact ⟨fun h => ⟨h.low, h.high⟩, fun h => ⟨h.1, h.2, fun _ => even⟩⟩
  · next odd =>
    constructor
    · intro h
      exact ⟨lt_of_le_of_ne h.low fun same => odd (h.even (.inl same.symm)),
        lt_of_le_of_ne h.high fun same => odd (h.even (.inr same))⟩
    · intro h
      refine ⟨h.1.le, h.2.le, ?_⟩
      rintro (same | same)
      · exact absurd same h.1.ne'
      · exact absurd same h.2.ne

theorem Covers.between (hx : Covers r x) (hz : Covers r z) (low : x ≤ y) (high : y ≤ z) :
    Covers r y := by
  refine ⟨hx.low.trans low, high.trans hz.high, ?_⟩
  rintro (same | same)
  · exact hx.even (.inl (le_antisymm (same ▸ low) hx.low))
  · exact hz.even (.inr (le_antisymm hz.high (same ▸ high)))

theorem covers_of_lt (low : lower r < x) (high : x < upper r) : Covers r x := by
  refine ⟨low.le, high.le, ?_⟩
  rintro (same | same)
  · exact absurd same low.ne'
  · exact absurd same high.ne

theorem covers_magnitude (pos : 0 < r) : Covers r (magnitude r) :=
  covers_of_lt (lower_lt_magnitude pos) (magnitude_lt_upper r)

end

theorem scale_eq : scale = 10 ^ scaleDigits := by
  unfold scale
  generalize scaleDigits = k
  rfl

theorem scale_pos : (0 : ℚ) < scale := by
  rw [scale_eq, Nat.cast_pow]
  positivity

/-- The test of the search is exact. -/
theorem roundsTo_iff (r num : Nat) :
    roundsTo r num = true ↔ Covers r (num / scale / 2 ^ 1074) := by
  have scaled := scale_pos
  have unit : (0 : ℚ) < 2 * scale * 2 ^ 1074 := by positivity
  have half (m n : Nat) : (magnitude m + magnitude n) / 2 =
      ((units m + units n) * scale : Nat) / (2 * scale * 2 ^ 1074) := by
    rw [magnitude, magnitude, Nat.cast_mul, Nat.cast_add]
    field_simp
  have middle : (num : ℚ) / scale / 2 ^ 1074 = (2 * num : Nat) / (2 * scale * 2 ^ 1074) := by
    rw [Nat.cast_mul, Nat.cast_ofNat]
    field_simp
  rw [covers_iff, lower, upper, half, half, middle, roundsTo]
  simp only [div_le_div_iff_of_pos_right unit, div_lt_div_iff_of_pos_right unit, Nat.cast_le,
    Nat.cast_lt]
  split <;> simp

/-- How many digits the scaled magnitude has before the point. -/
def wholeDigits (r : Nat) : Nat := Decimal.digitCount ((units r * scale) >>> 1074)

/-- The unit of the last of `count` digits, as a power of ten. -/
def lastDigit (r count : Nat) : Int := (wholeDigits r : Int) - count - scaleDigits

theorem digitCount_shiftRight {a b k : Nat} (large : 10 ^ k <<< b ≤ a) :
    let count := Decimal.digitCount (a >>> b)
    k < count ∧ 10 ^ (count - 1) * 2 ^ b ≤ a ∧ a < 10 ^ count * 2 ^ b := by
  intro count
  have unit : 0 < 2 ^ b := Nat.two_pow_pos b
  have quotient : 10 ^ k ≤ a >>> b := by
    rw [Nat.shiftRight_eq_div_pow, Nat.le_div_iff_mul_le unit]
    rwa [Nat.shiftLeft_eq] at large
  have less : a >>> b < 10 ^ count := Decimal.lt_pow_digitCount _
  have some_digit : 0 < count := Decimal.digitCount_pos _
  have ne : a >>> b ≠ 0 := (Nat.lt_of_lt_of_le (Nat.pow_pos (by decide)) quotient).ne'
  have first : 10 ^ (count - 1) ≤ a >>> b :=
    Decimal.pow_le_of_digitCount ne (show count - 1 < count by omega)
  refine ⟨(Nat.pow_lt_pow_iff_right (by decide)).mp (quotient.trans_lt less), ?_, ?_⟩
  · rwa [Nat.shiftRight_eq_div_pow, Nat.le_div_iff_mul_le unit] at first
  · rwa [Nat.shiftRight_eq_div_pow, Nat.div_lt_iff_lt_mul unit] at less

theorem ten_zpow_lastDigit {r count : Nat} (h : count ≤ wholeDigits r) :
    (10 : ℚ) ^ lastDigit r count = 10 ^ (wholeDigits r - count) / scale := by
  have split : lastDigit r count = (wholeDigits r - count : Nat) - scaleDigits := by
    rw [lastDigit]
    omega
  rw [split, zpow_sub₀ (by norm_num), zpow_natCast, zpow_natCast, scale_eq, Nat.cast_pow,
    Nat.cast_ofNat]

theorem scale_large : 10 ^ 17 <<< 1074 ≤ scale := by decide +kernel

theorem wholeDigits_bounds {r : Nat} (pos : 0 < r) :
    17 < wholeDigits r ∧ 10 ^ lastDigit r 1 ≤ magnitude r ∧ magnitude r < 10 ^ lastDigit r 0 := by
  have some_units : 0 < units r := Nat.zero_lt_of_lt (units_strictMono pos)
  have times : scale ≤ units r * scale := Nat.le_mul_of_pos_left scale some_units
  obtain ⟨many, low, high⟩ := digitCount_shiftRight (Nat.le_trans scale_large times)
  rw [← wholeDigits] at many low high
  have scaled := scale_pos
  have lowQ : (10 : ℚ) ^ (wholeDigits r - 1) * 2 ^ 1074 ≤ units r * scale := by exact_mod_cast low
  have highQ : (units r : ℚ) * scale < 10 ^ wholeDigits r * 2 ^ 1074 := by exact_mod_cast high
  rw [ten_zpow_lastDigit (by omega), ten_zpow_lastDigit (Nat.zero_le _), magnitude, Nat.sub_zero]
  refine ⟨many, ?_, ?_⟩
  · rwa [div_le_div_iff₀ scaled (by positivity)]
  · rwa [div_lt_div_iff₀ (by positivity) scaled]

/-- The two multiples of a unit around a number, the nearer first. -/
structure Around (v unit : ℚ) (low near far : Nat) : Prop where
  below : low * unit ≤ v
  above : v < (low + 1 : Nat) * unit
  pair : near = low ∧ far = low + 1 ∨ near = low + 1 ∧ far = low
  half : |v - near * unit| ≤ unit / 2

section

variable {v unit : ℚ} {low near far : Nat}

theorem Around.unit_pos (h : Around v unit low near far) : 0 < unit := by
  have apart := h.below.trans_lt h.above
  push_cast at apart
  linarith

theorem Around.nearer (h : Around v unit low near far) :
    |v - near * unit| ≤ |v - far * unit| := by
  have apart : |(near : ℚ) * unit - far * unit| = unit := by
    rw [← sub_mul, abs_mul, abs_of_pos h.unit_pos]
    obtain ⟨rfl, rfl⟩ | ⟨rfl, rfl⟩ := h.pair <;> simp
  have detour := abs_sub_le (near * unit) v (far * unit)
  rw [abs_sub_comm _ v, apart] at detour
  linarith [h.half]

theorem Around.le_of_lt {bound c : Nat} (h : Around v unit low near far)
    (less : v < bound * unit) (hc : c = near ∨ c = far) : c ≤ bound := by
  have inside : low < bound :=
    Nat.cast_lt.mp (lt_of_mul_lt_mul_right (h.below.trans_lt less) h.unit_pos.le)
  have pair := h.pair
  omega

/-- A number with few digits lies behind one of the two multiples, as seen from between them. -/
theorem Around.exists_between {y : ℚ} {g : Int} {count : Nat}
    (h : Around v (10 ^ g) low near far) (large : ((10 ^ (count - 1) : Nat) : ℚ) * 10 ^ g ≤ v)
    (hy : HasDigits count y) :
    ∃ b, (b = near ∨ b = far) ∧
      (y ≤ b * 10 ^ g ∧ b * 10 ^ g ≤ v ∨ v ≤ b * 10 ^ g ∧ b * 10 ^ g ≤ y) := by
  have less := lt_of_mul_lt_mul_right (large.trans_lt h.above) h.unit_pos.le
  have enough : 10 ^ (count - 1) ≤ low := Nat.le_of_lt_succ (Nat.cast_lt.mp less)
  have pair := h.pair
  obtain behind | behind := hy.outside enough g
  · exact ⟨low, by omega, .inl ⟨behind, h.below⟩⟩
  · exact ⟨low + 1, by omega, .inr ⟨h.above.le, behind⟩⟩

theorem Around.scaled (h : Around v 1 low near far) (pos : 0 < unit) :
    Around (v * unit) unit low near far := by
  obtain ⟨below, above, pair, half⟩ := h
  rw [mul_one] at below above half
  refine ⟨mul_le_mul_of_nonneg_right below pos.le, mul_lt_mul_of_pos_right above pos, pair, ?_⟩
  rw [← sub_mul, abs_mul, abs_of_pos pos, div_eq_mul_one_div, mul_comm unit]
  exact mul_le_mul_of_nonneg_right half pos.le

end

theorem neighbours_eq (r : Nat) {spacing : Nat} (pos : 0 < spacing) :
    ∃ low near far, neighbours r spacing = [near, far] ∧
      Around ((units r * scale : Nat) / spacing) 1 low near far := by
  generalize hn : units r * scale = num
  have rounds := roundsWhole_nearest num pos
  have below : ((num / spacing : Nat) : ℚ) * 1 ≤ num / spacing := by
    rw [← Nat.floor_div_eq_div (K := ℚ), mul_one]
    exact Nat.floor_le (by positivity)
  have above : (num : ℚ) / spacing < (num / spacing + 1 : Nat) * 1 := by
    rw [← Nat.floor_div_eq_div (K := ℚ), Nat.cast_succ, mul_one]
    exact Nat.lt_floor_add_one _
  have half : |(num : ℚ) / spacing - nearest num spacing * 1| ≤ 1 / 2 := by
    rw [mul_one]
    exact abs_le.mpr ⟨by linarith [rounds.low], by linarith [rounds.high]⟩
  rw [neighbours, hn]
  by_cases down : nearest num spacing = num / spacing
  · rw [down] at half
    exact ⟨_, _, _, if_pos down, below, above, .inl ⟨rfl, rfl⟩, half⟩
  · have up : nearest num spacing = num / spacing + 1 := by
      rw [nearest] at down ⊢
      split at down
      · exact absurd rfl down
      · next up => exact if_neg up
    rw [up] at half
    exact ⟨_, _, _, if_neg down, below, above, .inr ⟨rfl, rfl⟩, half⟩

section

variable {r count : Nat}

theorem scaled_multiple (h : count ≤ wholeDigits r) (c : Nat) :
    ((c * Nat.pow 10 (wholeDigits r - count) <<< 1074 : Nat) : ℚ) / scale / 2 ^ 1074 =
      c * 10 ^ lastDigit r count := by
  have scaled := scale_pos
  rw [ten_zpow_lastDigit h, Nat.cast_mul, cast_shiftLeft, Nat.pow_eq, Nat.cast_pow, Nat.cast_ofNat]
  field_simp

theorem magnitude_around (h : count ≤ wholeDigits r) :
    ∃ low near far, neighbours r (Nat.pow 10 (wholeDigits r - count) <<< 1074) = [near, far] ∧
      Around (magnitude r) (10 ^ lastDigit r count) low near far := by
  have scaled := scale_pos
  have pos : 0 < Nat.pow 10 (wholeDigits r - count) <<< 1074 := by
    rw [Nat.shiftLeft_eq, Nat.pow_eq]
    positivity
  obtain ⟨low, near, far, same, around⟩ := neighbours_eq r pos
  have value : ((units r * scale : Nat) : ℚ) /
      (Nat.pow 10 (wholeDigits r - count) <<< 1074 : Nat) * 10 ^ lastDigit r count =
        magnitude r := by
    rw [ten_zpow_lastDigit h, cast_shiftLeft, Nat.pow_eq, Nat.cast_pow, Nat.cast_ofNat, magnitude,
      Nat.cast_mul]
    field_simp
  refine ⟨low, near, far, same, ?_⟩
  rw [← value]
  exact around.scaled (Decimal.ten_zpow_pos _)

theorem le_magnitude (pos : 0 < r) (some_digit : 0 < count) :
    ((10 ^ (count - 1) : Nat) : ℚ) * 10 ^ lastDigit r count ≤ magnitude r := by
  have first : lastDigit r 1 = (count - 1 : Nat) + lastDigit r count := by
    rw [lastDigit, lastDigit]
    omega
  have low := (wholeDigits_bounds pos).2.1
  rwa [first, zpow_add₀ (by norm_num), zpow_natCast, ← Nat.cast_ofNat, ← Nat.cast_pow] at low

theorem magnitude_lt (pos : 0 < r) (count : Nat) :
    magnitude r < (10 ^ count : Nat) * 10 ^ lastDigit r count := by
  have point : lastDigit r 0 = count + lastDigit r count := by
    rw [lastDigit, lastDigit]
    omega
  have high := (wholeDigits_bounds pos).2.2
  rwa [point, zpow_add₀ (by norm_num), zpow_natCast, ← Nat.cast_ofNat, ← Nat.cast_pow] at high

end

section

variable {r count : Nat} {y : ℚ}

/-- If any decimal with so many digits rounds to the magnitude, one of the two candidates does, and
it is no farther away. -/
theorem exists_candidate (pos : 0 < r) (some_digit : 0 < count) {low near far : Nat}
    (around : Around (magnitude r) (10 ^ lastDigit r count) low near far) (hy : HasDigits count y)
    (covers : Covers r y) :
    ∃ b : Nat, (b = near ∨ b = far) ∧ Covers r (b * 10 ^ lastDigit r count) ∧
      |magnitude r - b * 10 ^ lastDigit r count| ≤ |magnitude r - y| := by
  obtain ⟨b, hb, between⟩ := around.exists_between (le_magnitude pos some_digit) hy
  refine ⟨b, hb, ?_⟩
  obtain ⟨low, high⟩ | ⟨low, high⟩ := between
  · refine ⟨covers.between (covers_magnitude pos) low high, ?_⟩
    rw [abs_of_nonneg (by linarith), abs_of_nonneg (by linarith)]
    linarith
  · refine ⟨(covers_magnitude pos).between covers low high, ?_⟩
    rw [abs_of_nonpos (by linarith), abs_of_nonpos (by linarith)]
    linarith

theorem roundsTo_multiple_iff (h : count ≤ wholeDigits r) (c : Nat) :
    roundsTo r (c * Nat.pow 10 (wholeDigits r - count) <<< 1074) = true ↔
      Covers r (c * 10 ^ lastDigit r count) := by
  rw [roundsTo_iff, scaled_multiple h]

theorem withDigits?_eq_some (pos : 0 < r) (some_digit : 0 < count) (h : count ≤ wholeDigits r)
    {x : Decimal} (found : withDigits? r (wholeDigits r) count = some x) :
    x.exponent = lastDigit r count ∧ Covers r x.value ∧ x.digits ≤ 10 ^ count ∧
      ∀ y, HasDigits count y → Covers r y → |magnitude r - x.value| ≤ |magnitude r - y| := by
  obtain ⟨low, near, far, same, around⟩ := magnitude_around h
  rw [withDigits?, same] at found
  obtain ⟨c, hc, rfl⟩ := Option.map_eq_some_iff.mp found
  have listed : c = near ∨ c = far := by simpa using List.mem_of_find?_eq_some hc
  have test := List.find?_some hc
  have rounds := (roundsTo_multiple_iff h c).mp test
  have bounded : c ≤ 10 ^ count := around.le_of_lt (magnitude_lt pos count) listed
  refine ⟨rfl, rounds, bounded, ?_⟩
  intro y hy covers
  obtain ⟨b, hb, rounds_b, closer⟩ := exists_candidate pos some_digit around hy covers
  refine le_trans ?_ closer
  -- The farther candidate is taken only where the nearer one does not round to the magnitude.
  by_cases first : roundsTo r (near * Nat.pow 10 (wholeDigits r - count) <<< 1074) = true
  · simp only [List.find?_cons, first] at hc
    obtain rfl := Option.some.inj hc
    obtain rfl | rfl := hb
    · exact le_rfl
    · exact around.nearer
  · obtain rfl : b = far := hb.resolve_left fun same =>
      first ((roundsTo_multiple_iff h near).mpr (same ▸ rounds_b))
    obtain rfl : c = b := listed.resolve_left fun same =>
      first ((roundsTo_multiple_iff h near).mpr (same ▸ rounds))
    exact le_rfl

theorem withDigits?_eq_none (pos : 0 < r) (some_digit : 0 < count) (h : count ≤ wholeDigits r)
    (missing : withDigits? r (wholeDigits r) count = none) (hy : HasDigits count y) :
    ¬ Covers r y := by
  intro covers
  obtain ⟨low, near, far, same, around⟩ := magnitude_around h
  obtain ⟨b, hb, rounds, -⟩ := exists_candidate pos some_digit around hy covers
  rw [withDigits?, same] at missing
  have none_rounds := List.find?_eq_none.mp (Option.map_eq_none_iff.mp missing)
  refine none_rounds b ?_ ((roundsTo_multiple_iff h b).mpr rounds)
  simpa using hb

end

end ScriptLexer.Binary64

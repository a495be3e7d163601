import ScriptLexer.Number.Layout
import ScriptLexer.Number.Spelling
import ScriptLexer.Proofs.DecimalRounding
import ScriptLexer.Proofs.Numeral

/-!
The texts of decimals. A text is either positional or has an exponent, which depends on the weight of
the first digit, and neither has digits that could be left out. Main statement: the layout of a
decimal is such a text, and reading a text gives its exact value back.
-/

namespace ScriptLexer.Decimal

/-- Digits on both sides of the point, and no zero in front or behind that could be left out. -/
structure Positional (y : ℚ) (whole fraction : List Char) : Prop where
  digits : ∀ c ∈ whole ++ fraction, c.isDigit = true
  whole_ne_nil : whole ≠ []
  fraction_ne_nil : fraction ≠ []
  leading_zero : whole.head? = some '0' → whole = ['0']
  trailing_zero : fraction.getLast? = some '0' → fraction = ['0']
  value : y = Nat.ofDigitChars 10 (whole ++ fraction) 0 * 10 ^ (-fraction.length : Int)

/-- The first digit and the others, with no zero in front or behind, and at least two digits of the
exponent, a zero in front only if there would be one digit else. -/
structure Scientific (y : ℚ) (e : Int) (first : Char) (more power : List Char) : Prop where
  digits : ∀ c ∈ first :: more, c.isDigit = true
  leading_zero : first ≠ '0'
  trailing_zero : more.getLast? ≠ some '0'
  power_digits : ∀ c ∈ power, c.isDigit = true
  power_value : Nat.ofDigitChars 10 power 0 = e.natAbs
  two_digits : 2 ≤ power.length
  padding : power.head? = some '0' → power.length = 2
  value : y = Nat.ofDigitChars 10 (first :: more) 0 * 10 ^ (e - more.length)

/-- How a number with the first digit at `10 ^ e` is written. -/
inductive Writes (y : ℚ) (e : Int) : List Char → Prop where
  | positional {whole fraction : List Char} : -4 ≤ e → e < 16 → Positional y whole fraction →
      Writes y e (whole ++ '.' :: fraction)
  | scientific {first : Char} {more power : List Char} : e < -4 ∨ 16 ≤ e →
      Scientific y e first more power →
      Writes y e (first :: (if more = [] then [] else '.' :: more) ++
        'e' :: (if e < 0 then '-' else '+') :: power)

section

variable {y : ℚ} {e : Int} {whole fraction more power : List Char} {first : Char}

theorem Positional.read (h : Positional y whole fraction) :
    ∃ x : Decimal, readWith? readSigned? (whole ++ '.' :: fraction) = some x ∧ x.value = y := by
  have run : Text.LongestRun Char.isDigit fraction [] :=
    .nil_right fun c hc => h.digits c (List.mem_append_right _ hc)
  have read := readMantissa?_point (fun c hc => h.digits c (List.mem_append_left _ hc)) run
    (List.append_ne_nil_of_left_ne_nil h.whole_ne_nil fraction)
  rw [List.append_nil] at read
  refine ⟨⟨Nat.ofDigitChars 10 (whole ++ fraction) 0, -fraction.length⟩, ?_, h.value.symm⟩
  rw [readWith?, read]

theorem Scientific.readSigned?_power (h : Scientific y e first more power) :
    readSigned? ((if e < 0 then '-' else '+') :: power) = some e := by
  have ne : power ≠ [] := by
    rintro rfl
    exact absurd h.two_digits (by decide)
  have read : readDigits? power = some e.natAbs := by
    rw [readDigits?_eq_some ne h.power_digits, h.power_value]
  by_cases negative : e < 0
  · simp [if_pos negative, readSigned?, splitSign, read, abs_of_neg negative]
  · have value : (e.natAbs : Int) = e := by omega
    simp [if_neg negative, readSigned?, splitSign, read, value]

theorem Scientific.readMantissa? (h : Scientific y e first more power) (tail : List Char) :
    readMantissa? (first :: (if more = [] then [] else '.' :: more) ++ 'e' :: tail) =
      some (⟨Nat.ofDigitChars 10 (first :: more) 0, -more.length⟩, 'e' :: tail) := by
  have first_digit : ∀ c ∈ [first], c.isDigit = true := by
    simpa using h.digits first List.mem_cons_self
  cases more with
  | nil => exact readMantissa?_whole (.cons_right first_digit rfl) (by simp) (by simp)
  | cons c cs =>
      have run : Text.LongestRun Char.isDigit (c :: cs) ('e' :: tail) :=
        .cons_right (fun d hd => h.digits d (List.mem_cons_of_mem _ hd)) rfl
      exact readMantissa?_point first_digit run (by simp)

theorem Scientific.read (h : Scientific y e first more power) :
    ∃ x : Decimal, readWith? readSigned? (first :: (if more = [] then [] else '.' :: more) ++
      'e' :: (if e < 0 then '-' else '+') :: power) = some x ∧ x.value = y := by
  refine ⟨⟨Nat.ofDigitChars 10 (first :: more) 0, -more.length + e⟩, ?_, ?_⟩
  · rw [readWith?, h.readMantissa?]
    simp only [true_or, if_true, h.readSigned?_power, Option.map_some]
  · rw [h.value, Decimal.value]
    congr 2
    ring

theorem Writes.read {text : List Char} (h : Writes y e text) :
    ∃ x : Decimal, readWith? readSigned? text = some x ∧ x.value = y := by
  cases h with
  | positional _ _ h => exact h.read
  | scientific _ h => exact h.read

end

/-- Digits of a number without zeros in front and behind. -/
structure Significant (ds : List Char) : Prop where
  digits : ∀ c ∈ ds, c.isDigit = true
  ne_nil : ds ≠ []
  leading : ds.head? ≠ some '0'
  trailing : ds.getLast? ≠ some '0'

theorem ofDigitChars_lt {ds : List Char} (digits : ∀ c ∈ ds, c.isDigit = true) :
    Nat.ofDigitChars 10 ds 0 < 10 ^ ds.length := by
  induction ds with
  | nil => exact Nat.one_pos
  | cons c ds ih =>
      have digit : c.toNat - '0'.toNat ≤ 9 := by
        have range := digits c List.mem_cons_self
        simp [Char.isDigit, UInt32.le_iff_toNat_le] at range
        have zero : '0'.toNat = 48 := rfl
        omega
      have rest := ih fun d hd => digits d (List.mem_cons_of_mem _ hd)
      rw [Nat.ofDigitChars_cons, Nat.ofDigitChars_eq_ofDigitChars_zero, List.length_cons, pow_succ]
      have first : 10 ^ ds.length * (10 * 0 + (c.toNat - '0'.toNat)) ≤ 10 ^ ds.length * 9 :=
        Nat.mul_le_mul_left _ (by omega)
      omega

theorem toDigits_leading {n : Nat} (ne : n ≠ 0) : (Nat.toDigits 10 n).head? ≠ some '0' := by
  intro leading
  obtain ⟨ds, same⟩ := List.head?_eq_some_iff.mp leading
  have digits : ∀ c ∈ ds, c.isDigit = true := by
    intro c hc
    refine Nat.isDigit_of_mem_toDigits (b := 10) (n := n) (by decide) (by decide) ?_
    rw [same]
    exact List.mem_cons_of_mem _ hc
  have value : Nat.ofDigitChars 10 ds 0 = n := by
    have value := Nat.ofDigitChars_toDigits (n := n) (show 1 < 10 by decide) (le_refl 10)
    rwa [same, Nat.ofDigitChars_cons] at value
  have short : digitCount n = ds.length + 1 := by rw [digitCount, same, List.length_cons]
  have large := pow_le_of_digitCount ne (show ds.length < digitCount n by omega)
  have small := ofDigitChars_lt digits
  omega

/-- Only zeros are left out. -/
theorem toDigits_eq (n : Nat) :
    ∃ zeros, Nat.toDigits 10 n = significantDigits n ++ List.replicate zeros '0' := by
  rw [significantDigits]
  generalize hds : (Nat.toDigits 10 n).reverse = ds
  have run := Text.LongestRun.of_scan (· = '0') ds
  have zeros : ds.takeWhile (· = '0') = List.replicate (ds.takeWhile (· = '0')).length '0' :=
    List.eq_replicate_iff.mpr ⟨rfl, fun c hc => of_decide_eq_true (run.all c hc)⟩
  refine ⟨(ds.takeWhile (· = '0')).length, ?_⟩
  rw [← List.reverse_replicate, ← zeros, ← List.reverse_append, List.takeWhile_append_dropWhile,
    ← hds, List.reverse_reverse]

theorem significantDigits_significant {n : Nat} (ne : n ≠ 0) :
    Significant (significantDigits n) := by
  obtain ⟨zeros, same⟩ := toDigits_eq n
  have leading := toDigits_leading ne
  have ne_nil : significantDigits n ≠ [] := by
    intro none_left
    rw [none_left, List.nil_append] at same
    cases zeros with
    | zero => exact Nat.toDigits_ne_nil same
    | succ zeros => exact leading (by rw [same, List.replicate_succ]; rfl)
  refine ⟨?_, ne_nil, ?_, ?_⟩
  · intro c hc
    refine Nat.isDigit_of_mem_toDigits (b := 10) (n := n) (by decide) (by decide) ?_
    rw [same]
    exact List.mem_append_left _ hc
  · rwa [same, List.head?_append_of_ne_nil _ ne_nil] at leading
  · rw [significantDigits, List.getLast?_reverse]
    intro last
    have stop := (Text.LongestRun.of_scan (· = '0') _).stops _ last
    cases stop

theorem value_eq (x : Decimal) :
    x.value = Nat.ofDigitChars 10 (significantDigits x.digits) 0 *
      10 ^ (x.point - (significantDigits x.digits).length) := by
  obtain ⟨zeros, same⟩ := toDigits_eq x.digits
  have length : digitCount x.digits = (significantDigits x.digits).length + zeros := by
    rw [digitCount, same, List.length_append, List.length_replicate]
  have digits := Nat.ofDigitChars_toDigits (n := x.digits) (show 1 < 10 by decide) (le_refl 10)
  rw [same, Nat.ofDigitChars_append, Nat.ofDigitChars_replicate_zero] at digits
  have power : x.point - (significantDigits x.digits).length = zeros + x.exponent := by
    rw [point, length]
    omega
  have digitsQ : (x.digits : ℚ) =
      10 ^ zeros * (Nat.ofDigitChars 10 (significantDigits x.digits) 0 : Nat) := by
    exact_mod_cast digits.symm
  rw [power, zpow_add₀ (by norm_num), zpow_natCast, value, digitsQ]
  ring

section

variable {y : ℚ} {ds : List Char}

theorem zeros_digits (zeros : Nat) : ∀ c ∈ List.replicate zeros '0', c.isDigit = true := by
  intro c hc
  rw [List.eq_of_mem_replicate hc]
  rfl

/-- All digits stand behind the point. -/
theorem Significant.behind (h : Significant ds) {zeros : Nat}
    (value : y = Nat.ofDigitChars 10 ds 0 * 10 ^ (-zeros - ds.length : Int)) :
    positional (-zeros) ds = ['0'] ++ '.' :: (List.replicate zeros '0' ++ ds) ∧
      Positional y ['0'] (List.replicate zeros '0' ++ ds) := by
  refine ⟨by simp [positional, h.ne_nil], ?_⟩
  constructor
  · intro c hc
    obtain hc | hc := List.mem_append.mp hc
    · exact zeros_digits 1 c hc
    · exact (List.mem_append.mp hc).elim (zeros_digits zeros c) (h.digits c)
  · exact List.cons_ne_nil _ _
  · exact List.append_ne_nil_of_right_ne_nil _ h.ne_nil
  · exact fun _ => rfl
  · intro last
    rw [List.getLast?_append_of_ne_nil _ h.ne_nil] at last
    exact absurd last h.trailing
  · have leading : Nat.ofDigitChars 10 ['0'] 0 = 0 := rfl
    have places : -zeros - ds.length = (-(List.replicate zeros '0' ++ ds).length : Int) := by
      rw [List.length_append, List.length_replicate]
      omega
    rw [value, Nat.ofDigitChars_append, Nat.ofDigitChars_append, leading,
      Nat.ofDigitChars_replicate_zero, Nat.mul_zero, places]

/-- The point stands between the digits. -/
theorem Significant.around (h : Significant ds) {before : Nat} (some_digit : 0 < before)
    (inside : before < ds.length)
    (value : y = Nat.ofDigitChars 10 ds 0 * 10 ^ (before - ds.length : Int)) :
    positional before ds = ds.take before ++ '.' :: ds.drop before ∧
      Positional y (ds.take before) (ds.drop before) := by
  have front : ds.take before ≠ [] := by
    simp [h.ne_nil, some_digit.ne']
  have behind : ds.drop before ≠ [] := by
    simpa using inside
  have split := List.take_append_drop before ds
  refine ⟨?_, ?_⟩
  · have padding : before - ds.length = 0 := Nat.sub_eq_zero_of_le inside.le
    simp [positional, padding, front, behind]
  constructor
  · rw [split]
    exact h.digits
  · exact front
  · exact behind
  · intro first
    rw [← List.head?_append_of_ne_nil _ front, split] at first
    exact absurd first h.leading
  · intro last
    rw [← List.getLast?_append_of_ne_nil _ behind, split] at last
    exact absurd last h.trailing
  · have places : (before - ds.length : Int) = -(ds.drop before).length := by
      rw [List.length_drop]
      omega
    rw [split, value, places]

/-- All digits stand before the point. -/
theorem Significant.before (h : Significant ds) {zeros : Nat}
    (value : y = Nat.ofDigitChars 10 ds 0 * 10 ^ zeros) :
    positional (ds.length + zeros : Nat) ds = (ds ++ List.replicate zeros '0') ++ '.' :: ['0'] ∧
      Positional y (ds ++ List.replicate zeros '0') ['0'] := by
  refine ⟨?_, ?_⟩
  · generalize hb : ds.length + zeros = before
    have take : ds.take before = ds := List.take_of_length_le (by omega)
    have drop : ds.drop before = [] := List.drop_of_length_le (by omega)
    have padding : before - ds.length = zeros := by omega
    simp [positional, take, drop, padding, h.ne_nil]
  constructor
  · intro c hc
    obtain hc | hc := List.mem_append.mp hc
    · exact (List.mem_append.mp hc).elim (h.digits c) (zeros_digits zeros c)
    · exact zeros_digits 1 c hc
  · exact List.append_ne_nil_of_left_ne_nil h.ne_nil _
  · exact List.cons_ne_nil _ _
  · intro first
    rw [List.head?_append_of_ne_nil _ h.ne_nil] at first
    exact absurd first h.leading
  · exact fun _ => rfl
  · have digits : Nat.ofDigitChars 10 (ds ++ List.replicate zeros '0' ++ ['0']) 0 =
        10 * (10 ^ zeros * Nat.ofDigitChars 10 ds 0) := by
      rw [Nat.ofDigitChars_append, Nat.ofDigitChars_append, Nat.ofDigitChars_replicate_zero]
      rfl
    have places : (-['0'].length : Int) = -1 := rfl
    rw [value, digits, places, zpow_neg_one]
    push_cast
    field_simp

theorem Significant.exponential (h : Significant ds) {e : Int} (far : e < -4 ∨ 16 ≤ e)
    (value : y = Nat.ofDigitChars 10 ds 0 * 10 ^ (e + 1 - ds.length)) :
    Writes y e (scientific e ds) := by
  obtain ⟨first, more, rfl⟩ := List.exists_cons_of_ne_nil h.ne_nil
  generalize hn : Nat.toDigits 10 e.natAbs = power
  have text : scientific e (first :: more) = first :: (if more = [] then [] else '.' :: more) ++
      'e' :: (if e < 0 then '-' else '+') :: (List.replicate (2 - power.length) '0' ++ power) := by
    simp [scientific, hn]
  have some_digit : 0 < power.length := by
    rw [← hn]
    exact Nat.length_toDigits_pos
  rw [text]
  refine .scientific far ⟨h.digits, ?_, ?_, ?_, ?_, ?_, ?_, ?_⟩
  · rintro rfl
    exact h.leading rfl
  · intro last
    have ne : more ≠ [] := by
      rintro rfl
      cases last
    rw [← List.getLast?_append_of_ne_nil [first] ne] at last
    exact h.trailing last
  · intro c hc
    obtain hc | hc := List.mem_append.mp hc
    · exact zeros_digits _ c hc
    · rw [← hn] at hc
      exact Nat.isDigit_of_mem_toDigits (by decide) (by decide) hc
  · rw [Nat.ofDigitChars_append, Nat.ofDigitChars_replicate_zero, Nat.mul_zero, ← hn]
    exact Nat.ofDigitChars_toDigits (by decide) (le_refl 10)
  · rw [List.length_append, List.length_replicate]
    omega
  · intro leading
    rw [List.length_append, List.length_replicate]
    by_contra longer
    have nothing : 2 - power.length = 0 := by omega
    rw [nothing, List.replicate_zero, List.nil_append, ← hn] at leading
    exact toDigits_leading (by omega) leading
  · rw [value, List.length_cons]
    congr 2
    push_cast
    ring

end

/-- The layout of a decimal is its text, and the first digit decides between the two forms. -/
theorem layout_writes {x : Decimal} (ne : x.digits ≠ 0) : Writes x.value (x.point - 1) x.layout := by
  have significant := significantDigits_significant ne
  have value := x.value_eq
  rw [layout, ← point]
  generalize x.point = before at value
  generalize significantDigits x.digits = ds at value significant
  by_cases near : -4 < before ∧ before ≤ 16
  · -- The point stands before, between or behind the digits, with zeros up to it.
    rw [if_pos near]
    by_cases behind : before ≤ 0
    · obtain ⟨zeros, rfl⟩ : ∃ zeros : Nat, before = -zeros := ⟨(-before).toNat, by omega⟩
      obtain ⟨text, written⟩ := significant.behind value
      rw [text]
      exact .positional (by omega) (by omega) written
    · by_cases inside : before < ds.length
      · obtain ⟨k, rfl⟩ : ∃ k : Nat, before = k := ⟨before.toNat, by omega⟩
        obtain ⟨text, written⟩ := significant.around (by omega) (by omega) value
        rw [text]
        exact .positional (by omega) (by omega) written
      · obtain ⟨zeros, rfl⟩ : ∃ zeros : Nat, before = (ds.length + zeros : Nat) :=
          ⟨(before - ds.length).toNat, by omega⟩
        have power : ((ds.length + zeros : Nat) - ds.length : Int) = zeros := by omega
        rw [power, zpow_natCast] at value
        obtain ⟨text, written⟩ := significant.before value
        rw [text]
        exact .positional (by omega) (by omega) written
  · rw [if_neg near]
    refine significant.exponential (by omega) ?_
    rw [value, sub_add_cancel]

end ScriptLexer.Decimal

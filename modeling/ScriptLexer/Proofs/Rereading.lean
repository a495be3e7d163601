import ScriptLexer.Proofs.NumberTokens
import ScriptLexer.Proofs.Rendering

/-!
The texts of doubles as programs. A literal has no sign in its exponent, so a text with an exponent is
none, and every other text is one. Rounding keeps the order, which carries the limits of the positional
form from the decimals that are written over to the doubles that they stand for. Main statement: reading
the text of a double that a number token can hold gives this token again exactly for zero and from
1e-4 on and below 1e16.
-/

namespace ScriptLexer

namespace Binary64

/-- Rounding keeps the order. -/
theorem Covers.mono {r s : Nat} {x y : ℚ} (hr : Covers r x) (hs : Covers s y) (h : x ≤ y) :
    r ≤ s := by
  by_contra less
  obtain ⟨t, rfl⟩ := Nat.exists_eq_add_of_lt (Nat.lt_of_not_le less)
  have below : upper (s + t) ≤ x := hr.low
  have above : y ≤ upper s := hs.high
  have farther := upper_strictMono.monotone (Nat.le_add_right s t)
  have same : x = y := by linarith
  have rank := hr.unique (same ▸ hs)
  omega

/-- The exact number with its sign. -/
def signed (negative : Bool) (rank : Nat) : ℚ :=
  if negative then -magnitude rank else magnitude rank

/-- Numerical order. Nothing is in order with what is not a number. -/
def AtMost : Binary64 → Binary64 → Prop
  | .nan, _ | _, .nan => False
  | .infinity negative, .infinity negative' => negative = true ∨ negative' = false
  | .infinity negative, .finite _ _ => negative = true
  | .finite _ _, .infinity negative => negative = false
  | .finite negative rank, .finite negative' rank' =>
    signed negative rank ≤ signed negative' rank'

def Below (x y : Binary64) : Prop := x.AtMost y ∧ ¬ y.AtMost x

theorem atMost_finite {r s : Fin magnitudes} :
    AtMost (.finite false r) (.finite false s) ↔ r.val ≤ s.val :=
  magnitude_strictMono.le_iff_le

theorem below_finite {r s : Fin magnitudes} :
    Below (.finite false r) (.finite false s) ↔ r.val < s.val := by
  rw [Below, atMost_finite, atMost_finite]
  omega

section

variable {rank : Fin magnitudes}

theorem covers_shortest (pos : 0 < rank.val) : Covers rank (shortest rank).value := by
  obtain ⟨count, short⟩ := exists_shortest pos
  exact short.rounds.interval rank rfl

theorem shortest_digits_ne_zero (pos : 0 < rank.val) : (shortest rank).digits ≠ 0 := by
  intro none_written
  have low := (covers_shortest pos).low
  have away := lower_pos pos
  rw [Decimal.value, none_written, Nat.cast_zero, zero_mul] at low
  linarith

/-- Where a power of ten is the shortest decimal of a double, the doubles from there on are those with
the first digit at this power or before it. -/
theorem le_iff_lt_point {limit : Fin magnitudes} {e : Int} (limit_pos : 0 < limit.val)
    (own : shortest limit = ⟨1, e⟩) (pos : 0 < rank.val) :
    limit.val ≤ rank.val ↔ e < (shortest rank).point := by
  have covers := covers_shortest pos
  have covers_limit := covers_shortest limit_pos
  have value : (shortest limit).value = 10 ^ e := by simp [own, Decimal.value]
  rw [value] at covers_limit
  have low := Decimal.le_value (shortest_digits_ne_zero pos)
  have high := Decimal.value_lt (shortest rank)
  constructor
  · intro le
    by_contra early
    have power : (10 : ℚ) ^ (shortest rank).point ≤ 10 ^ e :=
      zpow_le_zpow_right₀ (by norm_num) (by omega)
    have rank_le := covers.mono covers_limit (high.le.trans power)
    have same : rank = limit := Fin.ext (le_antisymm rank_le le)
    have one_digit : Decimal.digitCount 1 = 1 := by decide
    have point : Decimal.point ⟨1, e⟩ = 1 + e := by
      rw [Decimal.point, one_digit]
      rfl
    rw [same, own, point] at early
    omega
  · intro late
    have power : (10 : ℚ) ^ e ≤ 10 ^ ((shortest rank).point - 1) :=
      zpow_le_zpow_right₀ (by norm_num) (by omega)
    exact covers_limit.mono covers (power.trans low)

/-- Zero, and what lies from 1e-4 on and below 1e16. -/
def IsPlain (x : Binary64) : Prop :=
  x = .zero false ∨
    ((⟨1, -4⟩ : Decimal).toBinary64 false).AtMost x ∧ x.Below ((⟨1, 16⟩ : Decimal).toBinary64 false)

theorem tenThousandth_eq : (⟨1, -4⟩ : Decimal).toBinary64 false =
    .finite false ⟨4547007122018943789, by decide⟩ := by
  decide +kernel

theorem tenQuadrillion_eq : (⟨1, 16⟩ : Decimal).toBinary64 false =
    .finite false ⟨4846369599423283200, by decide⟩ := by
  decide +kernel

theorem isPlain_finite_iff (pos : 0 < rank.val) :
    IsPlain (.finite false rank) ↔
      -4 ≤ (shortest rank).point - 1 ∧ (shortest rank).point - 1 < 16 := by
  have not_zero : Binary64.finite false rank ≠ .zero false := by
    rintro ⟨⟩
    exact lt_irrefl 0 pos
  have first : shortest (⟨4547007122018943789, by decide⟩ : Fin magnitudes) = ⟨1, -4⟩ := by
    decide +kernel
  have last : shortest (⟨4846369599423283200, by decide⟩ : Fin magnitudes) = ⟨1, 16⟩ := by
    decide +kernel
  have low := le_iff_lt_point (by decide) first pos
  have high := le_iff_lt_point (by decide) last pos
  rw [IsPlain, tenThousandth_eq, tenQuadrillion_eq, atMost_finite, below_finite,
    or_iff_right not_zero, low, ← Nat.not_le, high]
  omega

end

/-- A number token of some text holds the double. -/
def IsHeld (x : Binary64) : Prop :=
  ∃ source file t, t ∈ (tokenize source file).answer.tokens ∧ t.kind = .number ∧
    t.value = .number x

/-- Reading gives one token, a number with this value, and meets no fault. -/
def Rereads (x : Binary64) (r : LexResult) : Prop :=
  ∃ t, r = ⟨[t], none⟩ ∧ t.kind = .number ∧ t.value = .number x

/-- Reading breaks off in front of the sign of an exponent, with a fault at the start. -/
def BreaksAtSign (file : String) (text : List Char) (r : LexResult) : Prop :=
  ∃ mantissa sign power, text = mantissa ++ 'e' :: sign :: power ∧ (sign = '+' ∨ sign = '-') ∧
    ∃ e, r = ⟨[], some e⟩ ∧ e.offset = 0 ∧
      e = .invalidNumber (mantissa ++ ['e']) .start file

end Binary64

namespace Decimal

/-- Every decimal is written by some literal: zeros behind the point shift the digits to the right, and
the exponent shifts them to the left. -/
theorem exists_numeral (x : Decimal) : ∃ n : Numeral, n.decimal = x := by
  obtain ⟨digits, exponent⟩ := x
  have is_digit (n : Nat) : ∀ c ∈ Nat.toDigits 10 n, c.isDigit = true :=
    fun c hc => Nat.isDigit_of_mem_toDigits (by decide) (le_refl 10) hc
  have value (n : Nat) : Nat.ofDigitChars 10 (Nat.toDigits 10 n) 0 = n :=
    Nat.ofDigitChars_toDigits (by decide) (le_refl 10)
  let zeros := (-exponent).toNat
  let scale := (Nat.toDigits 10 digits).length + exponent.toNat
  refine ⟨⟨[], some (List.replicate zeros '0' ++ Nat.toDigits 10 digits),
    some ('e', Nat.toDigits 10 scale), nofun, ?_, ?_, ?_, ?_, ?_⟩, ?_⟩
  · rintro ds ⟨⟩ c hc
    exact (List.mem_append.mp hc).elim (zeros_digits zeros c) (is_digit digits c)
  · exact List.append_ne_nil_of_right_ne_nil [] (List.append_ne_nil_of_right_ne_nil _
      Nat.toDigits_ne_nil)
  · rintro e ⟨⟩
    exact .inl rfl
  · rintro e ⟨⟩
    exact Nat.toDigits_ne_nil
  · rintro e ⟨⟩
    exact is_digit scale
  · have mantissa : Nat.ofDigitChars 10 (List.replicate zeros '0' ++ Nat.toDigits 10 digits) 0 =
        digits := by
      rw [Nat.ofDigitChars_append, Nat.ofDigitChars_replicate_zero, Nat.mul_zero, value]
    have power : (scale : Int) - (List.replicate zeros '0' ++ Nat.toDigits 10 digits).length =
        exponent := by
      rw [List.length_append, List.length_replicate]
      omega
    simp only [Numeral.decimal, Numeral.mantissa, Numeral.scale, Numeral.places, Option.getD_some,
      Option.elim_some, List.nil_append, value, mantissa, power]

variable {y : ℚ} {e : Int} {whole fraction more power : List Char} {first : Char}

/-- A positional text is a literal. -/
theorem Positional.exists_numeral (h : Positional y whole fraction) :
    ∃ n : Numeral, n.text = whole ++ '.' :: fraction ∧ n.value = y := by
  have whole_digits : ∀ c ∈ whole, c.isDigit = true :=
    fun c hc => h.digits c (List.mem_append_left _ hc)
  have fraction_digits : ∀ ds ∈ some fraction, ∀ c ∈ ds, c.isDigit = true := by
    rintro ds ⟨⟩ c hc
    exact h.digits c (List.mem_append_right _ hc)
  refine ⟨⟨whole, some fraction, none, whole_digits, fraction_digits,
    List.append_ne_nil_of_left_ne_nil h.whole_ne_nil _, nofun, nofun, nofun⟩, ?_, ?_⟩
  · simp [Numeral.text]
  · refine Eq.trans ?_ h.value.symm
    simp [Numeral.value, Numeral.mantissa, Numeral.scale, Numeral.places]

theorem Scientific.characters (h : Scientific y e first more power) :
    ∀ c ∈ first :: (if more = [] then [] else '.' :: more) ++ ['e'],
      decide (c ∈ Lexeme.numberCharacters) = true := by
  have digit : ∀ c ∈ first :: more, c ∈ Lexeme.numberCharacters :=
    fun c hc => Numeral.mem_numberCharacters_of_isDigit (h.digits c hc)
  intro c hc
  apply decide_eq_true
  obtain mantissa | letter := List.mem_append.mp hc
  · obtain rfl | hc := List.mem_cons.mp mantissa
    · exact digit c List.mem_cons_self
    · split at hc
      · cases hc
      · obtain rfl | hc := List.mem_cons.mp hc
        · decide
        · exact digit c (List.mem_cons_of_mem _ hc)
  · rw [List.mem_singleton.mp letter]
    decide

/-- No literal ends with the letter of an exponent. -/
theorem Scientific.not_numeral (h : Scientific y e first more power) :
    ¬ ∃ n : Numeral, n.text = first :: (if more = [] then [] else '.' :: more) ++ ['e'] := by
  rw [← Numeral.ofLiteral?_eq_none_iff, ofLiteral?, readWith?, h.readMantissa?]
  rfl

/-- A number reaches up to the sign of the exponent, and so far it is no literal. -/
theorem Scientific.fails (h : Scientific y e first more power) :
    Lexeme.Fails (first :: (if more = [] then [] else '.' :: more) ++ ['e'])
      ((if e < 0 then '-' else '+') :: power) := by
  have digit : first.isDigit = true := h.digits first List.mem_cons_self
  have starts : Lexeme.startsNumber first = true := by simp [Lexeme.startsNumber, digit]
  refine .number starts (.cons_right h.characters ?_) h.not_numeral
  split <;> decide

end Decimal

theorem Lexeme.Fails.tokenize_start {span behind : List Char} (h : Lexeme.Fails span behind)
    (file : String) :
    (tokenize (String.ofList (span ++ behind)) file).answer =
      ⟨[], some (.invalidNumber span .start file)⟩ := by
  have divides : Division.Divides ⟨[], [], span, behind⟩ (span ++ behind) :=
    ⟨rfl, trivial, nofun, .inr h⟩
  rw [Division.tokenize_ofList divides]
  simp [Division.result, Division.tokens, Division.fault, Division.rest, Division.front,
    Division.fails_rest_ne_nil h, Place.behind_nil]

namespace Binary64

theorem isHeld_double (n : Numeral) : n.double.IsHeld := by
  refine ⟨String.ofList n.text, "", ⟨.number, .number n.double, 0, n.text.length, 1, 1, ""⟩, ?_,
    rfl, rfl⟩
  rw [n.tokenize_text]
  exact List.mem_cons_self

/-- The doubles that number tokens hold are those without a minus sign. -/
theorem isHeld_iff {x : Binary64} :
    x.IsHeld ↔ x = .infinity false ∨ ∃ rank, x = .finite false rank := by
  constructor
  · rintro ⟨source, file, t, mem, kind, value⟩
    obtain ⟨n, -, double⟩ := Numeral.exists_of_token mem kind
    obtain rfl : x = n.double := Value.number.inj (value.symm.trans double)
    exact n.rounds_double.positive
  · intro unsigned
    obtain ⟨d, rfl⟩ : ∃ d : Decimal, d.toBinary64 false = x := by
      obtain rfl | ⟨rank, rfl⟩ := unsigned
      · exact ⟨⟨2, 308⟩, by decide +kernel⟩
      · obtain zero | pos := Nat.eq_zero_or_pos rank.val
        · obtain rfl : rank = ⟨0, by decide⟩ := Fin.ext zero
          exact ⟨⟨0, 0⟩, by decide⟩
        · obtain ⟨count, short⟩ := exists_shortest pos
          exact ⟨shortest rank, Decimal.toBinary64_of_rounds short.rounds false⟩
    obtain ⟨n, rfl⟩ := d.exists_numeral
    exact isHeld_double n

theorem rereads_positional {x : Binary64} {y : ℚ} {whole fraction : List Char}
    (rounds : Rounds y x) (h : Decimal.Positional y whole fraction) (file : String) :
    Rereads x (tokenize (String.ofList (whole ++ '.' :: fraction)) file).answer := by
  obtain ⟨n, text, rfl⟩ := h.exists_numeral
  obtain rfl := n.rounds_double.unique rounds
  rw [← text, n.tokenize_text]
  exact ⟨_, rfl, rfl, rfl⟩

theorem breaksAtSign_scientific {y : ℚ} {e : Int} {first : Char} {more power : List Char}
    (h : Decimal.Scientific y e first more power) (file : String) :
    let text := first :: (if more = [] then [] else '.' :: more) ++
      'e' :: (if e < 0 then '-' else '+') :: power
    BreaksAtSign file text (tokenize (String.ofList text) file).answer := by
  intro text
  have read := h.fails.tokenize_start file
  rw [List.append_assoc, List.singleton_append] at read
  refine ⟨_, _, power, rfl, ?_, _, read, rfl, rfl⟩
  split
  · exact .inr rfl
  · exact .inl rfl

theorem not_rereads_of_breaksAtSign {x : Binary64} {file : String} {text : List Char}
    {r : LexResult} (h : BreaksAtSign file text r) : ¬ Rereads x r := by
  obtain ⟨-, -, -, -, -, e, rfl, -⟩ := h
  rintro ⟨t, same, -⟩
  cases same

/-- A positional text is read again, and one with an exponent breaks off. -/
theorem reads_of_writes {x : Binary64} {y : ℚ} {e : Int} {text : List Char} (rounds : Rounds y x)
    (h : Decimal.Writes y e text) (file : String) :
    let r := (tokenize (String.ofList text) file).answer
    (-4 ≤ e ∧ e < 16 → Rereads x r) ∧ (¬ (-4 ≤ e ∧ e < 16) → BreaksAtSign file text r) := by
  intro r
  cases h with
  | positional low high h =>
      exact ⟨fun _ => rereads_positional rounds h file, fun far => absurd ⟨low, high⟩ far⟩
  | scientific far h =>
      refine ⟨fun near => ?_, fun _ => breaksAtSign_scientific h file⟩
      omega

theorem rereads_zero (file : String) :
    Rereads (.zero false) (tokenize (String.ofList (render (.zero false))) file).answer := by
  have zero_digits : Nat.ofDigitChars 10 ['0', '0'] 0 = 0 := by decide
  have positional : Decimal.Positional (Decimal.value ⟨0, 0⟩) ['0'] ['0'] :=
    ⟨Decimal.zeros_digits 2, nofun, nofun, fun _ => rfl, fun _ => rfl,
      by simp [Decimal.value, zero_digits]⟩
  exact rereads_positional (Decimal.rounds_toBinary64 ⟨0, 0⟩) positional file

theorem tokenize_render_finite (rank : Fin magnitudes) (file : String) :
    let x := Binary64.finite false rank
    let r := (tokenize (String.ofList x.render) file).answer
    (x.IsPlain → Rereads x r) ∧ (¬ x.IsPlain → BreaksAtSign file x.render r) := by
  intro x r
  obtain zero | pos := Nat.eq_zero_or_pos rank.val
  · obtain rfl : rank = ⟨0, by decide⟩ := Fin.ext zero
    exact ⟨fun _ => rereads_zero file, fun not_plain => absurd (.inl rfl) not_plain⟩
  · obtain ⟨count, short⟩ := exists_shortest pos
    have text : x.render = (shortest rank).layout := if_neg pos.ne'
    have writes := Decimal.layout_writes (shortest_digits_ne_zero pos)
    have plain : x.IsPlain ↔ _ := isPlain_finite_iff pos
    rw [← text] at writes
    rw [plain]
    exact reads_of_writes short.rounds writes file

/-- The text of infinity is a word. -/
theorem tokenize_render_infinity (file : String) :
    (tokenize (String.ofList (render (.infinity false))) file).answer =
      ⟨[⟨.identifier, .text "inf", 0, 3, 1, 1, file⟩], none⟩ := by
  have word : ['i', 'n', 'f'].all Lexeme.isWordPart = true := by decide
  have reads : Lexeme.Reads ['i', 'n', 'f'] [] .identifier (.text "inf") := by
    refine .identifier rfl (.nil_right (List.all_eq_true.mp word)) ?_
    intro k
    cases k <;> decide
  have text : render (.infinity false) = ['i', 'n', 'f'] := rfl
  rw [text]
  exact Division.tokenize_ofList (Division.divides_lexeme reads) file

theorem not_isPlain_infinity : ¬ IsPlain (.infinity false) := by
  rw [IsPlain, tenQuadrillion_eq]
  rintro (zero | ⟨-, below, -⟩)
  · cases zero
  · cases below

/-- The doubles that number tokens hold are those without a minus sign. Reading the text of one gives a
number token with this double again exactly if it is zero or lies from 1e-4 on and below 1e16; the text
of any other finite one breaks off at the sign of its exponent, and that of infinity is a word. -/
theorem tokenize_render (x : Binary64) (file : String) :
    let r := (tokenize (String.ofList x.render) file).answer
    (x.IsHeld ↔ x = .infinity false ∨ ∃ rank, x = .finite false rank) ∧
      (x.IsHeld → (Rereads x r ↔ x.IsPlain)) ∧
      (x.IsHeld → x ≠ .infinity false → ¬ x.IsPlain → BreaksAtSign file x.render r) ∧
      (x = .infinity false → r = ⟨[⟨.identifier, .text "inf", 0, 3, 1, 1, file⟩], none⟩) := by
  intro r
  rw [isHeld_iff]
  refine ⟨Iff.rfl, ?_, ?_, ?_⟩
  · rintro (rfl | ⟨rank, rfl⟩)
    · refine iff_of_false ?_ not_isPlain_infinity
      rintro ⟨t, same, kind, -⟩
      have read : r = _ := tokenize_render_infinity file
      rw [read] at same
      cases same
      cases kind
    · obtain ⟨again, broken⟩ := tokenize_render_finite rank file
      refine ⟨fun rereads => ?_, again⟩
      by_contra not_plain
      exact not_rereads_of_breaksAtSign (broken not_plain) rereads
  · rintro (rfl | ⟨rank, rfl⟩) finite not_plain
    · exact absurd rfl finite
    · exact (tokenize_render_finite rank file).2 not_plain
  · rintro rfl
    exact tokenize_render_infinity file

/-- The first digit of the double before 1e-4 stands one place lower than that of 1e-4. -/
example : (finite false ⟨4547007122018943788, by decide⟩).render =
    "9.999999999999999e-05".toList := by
  decide +kernel

end Binary64
end ScriptLexer

import ScriptLexer.Proofs.DecimalRounding
import ScriptLexer.Proofs.Division

/-!
The doubles of number tokens. A literal writes an exact number, and other ways to write this number
have no effect on the double. Main statement: reading the text of a literal gives one token and no
fault, and the token of a literal in any text carries the double that the number rounds to.
-/

namespace ScriptLexer

namespace Numeral

/-- The number that a literal writes. -/
def value (n : Numeral) : ℚ := n.mantissa * 10 ^ ((n.scale : Int) - n.places)

theorem rounds_double (n : Numeral) : Binary64.Rounds n.value n.double :=
  n.decimal.rounds_toBinary64

theorem double_eq_of_value {m n : Numeral} (h : m.value = n.value) : m.double = n.double :=
  (h ▸ m.rounds_double).unique n.rounds_double

/-- Another way to write the same number. -/
inductive Rewritten (n m : Numeral) : Prop where
  | leadingZeros (count : Nat) :
      m.whole = List.replicate count '0' ++ n.whole → m.fraction = n.fraction →
      m.exponent = n.exponent → Rewritten n m
  | trailingZeros {ds : List Char} (count : Nat) :
      m.whole = n.whole → n.fraction = some ds →
      m.fraction = some (ds ++ List.replicate count '0') → m.exponent = n.exponent →
      Rewritten n m
  | shiftedPoint :
      m.whole ++ m.fraction.getD [] = n.whole ++ n.fraction.getD [] →
      m.scale + n.places = n.scale + m.places → Rewritten n m

theorem value_of_rewritten {n m : Numeral} (h : Rewritten n m) : m.value = n.value := by
  cases h with
  | leadingZeros count whole fraction exponent =>
      have mantissa : m.mantissa = n.mantissa := by
        rw [Numeral.mantissa, whole, fraction, List.append_assoc, Nat.ofDigitChars_append,
          Nat.ofDigitChars_replicate_zero, Nat.mul_zero]
        rfl
      rw [value, value, mantissa, scale, exponent, places, fraction]
      rfl
  | @trailingZeros ds count whole fraction fraction' exponent =>
      have mantissa : m.mantissa = 10 ^ count * n.mantissa := by
        rw [Numeral.mantissa, Numeral.mantissa, whole, fraction, fraction', Option.getD_some,
          Option.getD_some, ← List.append_assoc, Nat.ofDigitChars_append,
          Nat.ofDigitChars_replicate_zero]
      have places : (m.places : Int) = n.places + count := by
        rw [Numeral.places, Numeral.places, fraction, fraction', Option.getD_some,
          Option.getD_some, List.length_append, List.length_replicate, Nat.cast_add]
      have scale : m.scale = n.scale := by
        rw [Numeral.scale, Numeral.scale, exponent]
      have power : (10 : ℚ) ^ ((n.scale : Int) - n.places) =
          10 ^ count * 10 ^ ((n.scale : Int) - (n.places + count)) := by
        rw [← zpow_natCast, ← zpow_add₀ (by norm_num)]
        congr 1
        omega
      rw [value, value, mantissa, places, scale, power]
      push_cast
      ring
  | shiftedPoint digits exponent =>
      have mantissa : m.mantissa = n.mantissa := congrArg (Nat.ofDigitChars 10 · 0) digits
      have power : (m.scale : Int) - m.places = n.scale - n.places := by omega
      rw [value, value, mantissa, power]

theorem mem_numberCharacters_of_isDigit {c : Char} (h : c.isDigit = true) :
    c ∈ Lexeme.numberCharacters := by
  have starts : Lexeme.startsNumber c = true := by simp [Lexeme.startsNumber, h]
  exact of_decide_eq_true (Lexeme.mem_numberCharacters starts)

theorem text_numberCharacters (n : Numeral) : ∀ c ∈ n.text, c ∈ Lexeme.numberCharacters := by
  intro c hc
  rw [text, List.mem_append, List.mem_append] at hc
  obtain (whole | fraction) | exponent := hc
  · exact mem_numberCharacters_of_isDigit (n.whole_digits c whole)
  · cases hf : n.fraction with
    | none =>
        rw [hf] at fraction
        cases fraction
    | some ds =>
        rw [hf] at fraction
        obtain rfl | digit := List.mem_cons.mp fraction
        · decide
        · exact mem_numberCharacters_of_isDigit (n.fraction_digits ds hf c digit)
  · cases he : n.exponent with
    | none =>
        rw [he] at exponent
        cases exponent
    | some e =>
        rw [he] at exponent
        obtain rfl | digit := List.mem_cons.mp exponent
        · obtain letter | letter := n.exponent_letter e he
          · rw [letter]
            decide
          · rw [letter]
            decide
        · exact mem_numberCharacters_of_isDigit (n.exponent_digits e he c digit)

end Numeral

/-- The characters that a token covers. -/
def Token.textIn (text : List Char) (t : Token) : List Char :=
  (text.drop t.start.toNat).take (t.stop - t.start).toNat

theorem between_textIn (file : String) (kind : Kind) (value : Value)
    (front lexeme behind : List Char) :
    Token.textIn (front ++ (lexeme ++ behind))
      (.between file (Place.behind front) (Place.behind (front ++ lexeme)) kind value) =
        lexeme := by
  have length : ((front ++ lexeme).length - front.length : Int).toNat = lexeme.length := by
    rw [List.length_append]
    omega
  simp only [Token.textIn, Token.between, Place.behind]
  rw [Int.toNat_natCast, List.drop_left, length, List.take_left]

namespace Division

theorem tokens_of_pieces {file : String} {before : List Char} (behind : List Char)
    {ps : List Piece} {t : Token} (ht : t ∈ tokens file before ps) :
    ∃ p ∈ ps, t.kind = p.kind ∧ t.value = p.value ∧
      t.textIn (before ++ (ps.flatMap Piece.text ++ behind)) = p.lexeme := by
  induction ps generalizing before with
  | nil => cases ht
  | cons p ps ih =>
      rw [List.flatMap_cons]
      obtain rfl | ht := List.mem_cons.mp ht
      · refine ⟨p, List.mem_cons_self, rfl, rfl, ?_⟩
        simp only [Piece.text, ← List.append_assoc]
        rw [List.append_assoc, List.append_assoc (before ++ p.blanks)]
        exact between_textIn file _ _ _ _ _
      · obtain ⟨q, hq, kind, value, text⟩ := ih ht
        refine ⟨q, List.mem_cons_of_mem _ hq, kind, value, ?_⟩
        rw [← text]
        simp only [List.append_assoc]

theorem Lawful.reads {behind : List Char} {ps : List Piece} (lawful : Lawful behind ps) :
    ∀ p ∈ ps, ∃ rest, Lexeme.Reads p.lexeme rest p.kind p.value := by
  induction ps with
  | nil => exact List.forall_mem_nil _
  | cons p ps ih =>
      obtain ⟨-, -, reads, lawful⟩ := lawful
      intro q hq
      obtain rfl | hq := List.mem_cons.mp hq
      · exact ⟨_, reads⟩
      · exact ih lawful q hq

end Division

theorem Lexeme.Reads.of_number {lexeme rest : List Char} {value : Value}
    (h : Lexeme.Reads lexeme rest .number value) :
    ∃ n : Numeral, lexeme = n.text ∧ value = .number n.double := by
  cases h with
  | punctuation hm => exact absurd hm (by simp [Kind.punctuation])
  | @number n _ _ => exact ⟨n, rfl, rfl⟩

namespace Numeral

theorem divides_text (n : Numeral) :
    Division.Divides ⟨[⟨[], n.text, .number, .number n.double⟩], [], [], []⟩ n.text := by
  have reads : Lexeme.Reads n.text [] .number (.number n.double) := by
    refine .number (.nil_right ?_)
    intro c hc
    exact decide_eq_true (n.text_numberCharacters c hc)
  exact Division.divides_lexeme reads

theorem tokenize_text (n : Numeral) (file : String) :
    (tokenize (String.ofList n.text) file).answer =
      ⟨[⟨.number, .number n.double, 0, n.text.length, 1, 1, file⟩], none⟩ := by
  rw [Division.tokenize_ofList n.divides_text]
  rfl

theorem exists_of_token {source file : String} {t : Token}
    (ht : t ∈ (tokenize source file).answer.tokens) (kind : t.kind = .number) :
    ∃ n : Numeral, t.textIn source.toList = n.text ∧ t.value = .number n.double := by
  obtain ⟨d, hd⟩ := Division.exists_divides source.toList
  rw [Division.tokenize_of_divides hd] at ht
  obtain ⟨p, hp, kind', value, text⟩ :=
    Division.tokens_of_pieces (d.blanks ++ d.rest) ht
  obtain ⟨rest, reads⟩ := hd.pieces.reads p hp
  rw [← kind', kind] at reads
  obtain ⟨n, lexeme, double⟩ := reads.of_number
  refine ⟨n, ?_, value.trans double⟩
  rw [← lexeme, ← text, hd.text, Division.front, List.append_assoc]
  rfl

/-- The text of every literal is read as one token, whose double is the one that the number of the
literal rounds to, however large or small it is and however it is written; and the number tokens of
any text are of this kind. -/
theorem tokenize_rounds :
    (∀ (n : Numeral) (file : String), ∃ y, Binary64.Rounds n.value y ∧
      (tokenize (String.ofList n.text) file).answer =
        ⟨[⟨.number, .number y, 0, n.text.length, 1, 1, file⟩], none⟩) ∧
    (∀ (m n : Numeral) (file : String), m.value = n.value ∨ Rewritten n m →
      (tokenize (String.ofList m.text) file).answer.tokens.map Token.value =
        (tokenize (String.ofList n.text) file).answer.tokens.map Token.value) ∧
    ∀ (source file : String), ∀ t ∈ (tokenize source file).answer.tokens, t.kind = .number →
      ∃ n : Numeral, t.textIn source.toList = n.text ∧
        ∃ y, t.value = .number y ∧ Binary64.Rounds n.value y := by
  refine ⟨?_, ?_, ?_⟩
  · intro n file
    exact ⟨n.double, n.rounds_double, n.tokenize_text file⟩
  · intro m n file same
    have value : m.value = n.value := same.elim id value_of_rewritten
    rw [m.tokenize_text, n.tokenize_text, double_eq_of_value value]
    rfl
  · intro source file t ht kind
    obtain ⟨n, text, value⟩ := exists_of_token ht kind
    exact ⟨n, text, n.double, value, n.rounds_double⟩

end Numeral
end ScriptLexer

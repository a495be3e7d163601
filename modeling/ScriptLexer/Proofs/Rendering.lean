import ScriptLexer.Proofs.DecimalText
import ScriptLexer.Proofs.ShortestDecimal
import ScriptLexer.Token.Basic

/-!
The texts of doubles. Main statement: the text of a finite double is the shortest decimal that rounds
to it, and reading the text of any double gives the double again, so that no two doubles share one.
-/

namespace ScriptLexer

namespace Decimal

theorem Writes.exists_digit {y : ℚ} {e : Int} {text : List Char} (h : Writes y e text) :
    ∃ c cs, text = c :: cs ∧ c.isDigit = true := by
  cases h with
  | @positional whole fraction _ _ h =>
      obtain ⟨c, cs, rfl⟩ := List.exists_cons_of_ne_nil h.whole_ne_nil
      exact ⟨c, _, rfl, h.digits c List.mem_cons_self⟩
  | scientific _ h => exact ⟨_, _, rfl, h.digits _ List.mem_cons_self⟩

theorem splitSign_signed {c : Char} (digit : c.isDigit = true) (cs : List Char) (negative : Bool) :
    splitSign ((if negative then ['-'] else []) ++ c :: cs) = (negative, c :: cs) := by
  cases negative with
  | true => rfl
  | false =>
      have minus : c ≠ '-' := by
        rintro rfl
        exact absurd digit (by decide)
      have plus : c ≠ '+' := by
        rintro rfl
        exact absurd digit (by decide)
      simp [splitSign, minus, plus]

end Decimal

namespace Binary64

theorem toLower_of_isDigit {c : Char} (digit : c.isDigit = true) : c.toLower = c := by
  simp [Char.isDigit, UInt32.le_iff_toNat_le] at digit
  delta Char.toLower
  rw [dif_neg]
  simp [UInt32.le_iff_toNat_le]
  omega

/-- Reading a number with a sign goes through the exact decimal. -/
theorem read?_signed {c : Char} {cs : List Char} (digit : c.isDigit = true) {x : Decimal}
    (read : Decimal.readWith? Decimal.readSigned? (c :: cs) = some x) (negative : Bool) :
    read? ((if negative then ['-'] else []) ++ c :: cs) = some (x.toBinary64 negative) := by
  have no_word (name : String) (letter : ∃ d ∈ name.toList.head?, d.isDigit = false) :
      String.ofList ((c :: cs).map Char.toLower) ≠ name := by
    rintro rfl
    obtain ⟨d, first, stop⟩ := letter
    obtain rfl : c = d := by simpa [toLower_of_isDigit digit] using first
    rw [digit] at stop
    cases stop
  have nan := no_word "nan" ⟨'n', rfl, rfl⟩
  have inf := no_word "inf" ⟨'i', rfl, rfl⟩
  have infinity := no_word "infinity" ⟨'i', rfl, rfl⟩
  simp only [read?, Decimal.splitSign_signed digit, if_neg nan, if_neg (not_or.mpr ⟨inf, infinity⟩),
    read, Option.map_some]

/-- The text behind the sign: of zero a fixed one, and otherwise that of the shortest decimal. -/
structure Spells (rank : Fin magnitudes) (text : List Char) (x : Decimal) : Prop where
  read : Decimal.readWith? Decimal.readSigned? text = some x
  rounds : Rounds x.value (.finite false rank)
  zero : rank.val = 0 → text = "0.0".toList
  shortest : rank.val ≠ 0 → ∃ (count : Nat) (e : Int), Shortest rank count x.value ∧
    10 ^ e ≤ x.value ∧ x.value < 10 ^ (e + 1) ∧ Decimal.Writes x.value e text

theorem exists_text (rank : Fin magnitudes) :
    ∃ text x, Spells rank text x ∧ (∃ c cs, text = c :: cs ∧ c.isDigit = true) ∧
      ∀ negative, (finite negative rank).render = (if negative then ['-'] else []) ++ text := by
  by_cases zero : rank.val = 0
  · obtain rfl : rank = ⟨0, by decide⟩ := Fin.ext zero
    have rounds := Decimal.rounds_toBinary64 ⟨0, -1⟩
    exact ⟨"0.0".toList, ⟨0, -1⟩, ⟨by decide, rounds, fun _ => rfl, fun ne => absurd rfl ne⟩,
      ⟨'0', _, rfl, rfl⟩, fun _ => rfl⟩
  · have pos := Nat.pos_of_ne_zero zero
    obtain ⟨count, short⟩ := exists_shortest pos
    have ne : (shortest rank).digits ≠ 0 := by
      intro none_written
      have positive := short.pos pos
      rw [Decimal.value, none_written, Nat.cast_zero, zero_mul] at positive
      exact lt_irrefl 0 positive
    have writes := Decimal.layout_writes ne
    obtain ⟨x, read, same⟩ := writes.read
    rw [← same] at short writes
    have low := Decimal.le_value ne
    have high := Decimal.value_lt (shortest rank)
    rw [← same] at low high
    refine ⟨(shortest rank).layout, x, ⟨read, short.rounds, fun h => absurd h zero, fun _ =>
      ⟨count, _, short, low, by rwa [sub_add_cancel], writes⟩⟩, writes.exists_digit, ?_⟩
    intro negative
    rw [render, if_neg zero]

theorem read?_render (x : Binary64) : read? x.render = some x := by
  cases x with
  | nan => decide
  | infinity negative => cases negative <;> decide
  | finite negative rank =>
      obtain ⟨text, x, written, ⟨c, cs, rfl, digit⟩, render⟩ := exists_text rank
      rw [render, read?_signed digit written.read, Decimal.toBinary64_of_rounds written.rounds]

theorem render_injective : Function.Injective render := by
  intro x y same
  have read := x.read?_render
  rw [same, y.read?_render] at read
  exact (Option.some.inj read).symm

end Binary64

/-- Tokens that differ in their doubles only are listed differently. -/
theorem Token.render_number_injective (t : Token) :
    Function.Injective fun x : Binary64 => { t with value := .number x }.render := by
  intro x y same
  have characters := congrArg String.toList same
  simp only [render, Value.render?, String.toList_append, String.toList_ofList, List.append_assoc,
    List.append_cancel_left_eq, List.append_cancel_right_eq] at characters
  exact Binary64.render_injective characters

namespace Binary64

/-- The text of every finite double is that of the shortest decimal that rounds to it, and reading the
text of any double gives the double again, so that texts of doubles, also in a listing of tokens, are
equal only for equal doubles. -/
theorem render_faithful :
    (∀ (negative : Bool) (rank : Fin magnitudes), ∃ text x, Spells rank text x ∧
      (finite negative rank).render = (if negative then ['-'] else []) ++ text) ∧
    (∀ x : Binary64, read? x.render = some x) ∧
    Function.Injective render ∧
    ∀ (t : Token) (x y : Binary64), x ≠ y →
      { t with value := .number x }.render ≠ { t with value := .number y }.render := by
  refine ⟨?_, read?_render, render_injective, ?_⟩
  · intro negative rank
    obtain ⟨text, x, written, -, render⟩ := exists_text rank
    exact ⟨text, x, written, render negative⟩
  · intro t x y different same
    exact different (t.render_number_injective same)

/-- The least positive double is about 4.94e-324, and one digit tells it from its neighbours. -/
example : (finite true ⟨1, by decide⟩).render = "-5e-324".toList := by decide +kernel

end Binary64
end ScriptLexer

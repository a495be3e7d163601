import ScriptLexer.Number.Literal
import ScriptLexer.Proofs.LongestRun

/-!
The grammar of number literals, by their parts, and the exact decimal that each one writes. Main
statement: reading accepts the literals of the grammar and nothing else, and yields that decimal.
-/

namespace ScriptLexer

/-- A literal by its parts: digits, perhaps a point with digits behind it, and perhaps the letter of
an exponent with digits behind it. One side of the point may be empty. -/
structure Numeral where
  whole : List Char
  fraction : Option (List Char)
  exponent : Option (Char × List Char)
  whole_digits : ∀ c ∈ whole, c.isDigit = true
  fraction_digits : ∀ ds ∈ fraction, ∀ c ∈ ds, c.isDigit = true
  mantissa_ne_nil : whole ++ fraction.getD [] ≠ []
  exponent_letter : ∀ e ∈ exponent, e.1 = 'e' ∨ e.1 = 'E'
  exponent_ne_nil : ∀ e ∈ exponent, e.2 ≠ []
  exponent_digits : ∀ e ∈ exponent, ∀ c ∈ e.2, c.isDigit = true

namespace Numeral

def text (n : Numeral) : List Char :=
  n.whole ++ n.fraction.elim [] ('.' :: ·) ++ n.exponent.elim [] fun e => e.1 :: e.2

/-- The digits before and behind the point, as one number. -/
def mantissa (n : Numeral) : Nat := Nat.ofDigitChars 10 (n.whole ++ n.fraction.getD []) 0

def places (n : Numeral) : Nat := (n.fraction.getD []).length

/-- The number behind the letter; zero without one. -/
def scale (n : Numeral) : Nat := n.exponent.elim 0 fun e => Nat.ofDigitChars 10 e.2 0

def decimal (n : Numeral) : Decimal := ⟨n.mantissa, n.scale - n.places⟩

def double (n : Numeral) : Binary64 := n.decimal.toBinary64 false

end Numeral

namespace Decimal

theorem readDigits?_eq_some {cs : List Char} (ne : cs ≠ []) (h : ∀ c ∈ cs, c.isDigit = true) :
    readDigits? cs = some (Nat.ofDigitChars 10 cs 0) := by
  simpa [readDigits?, ne] using h

theorem of_readDigits? {cs : List Char} {n : Nat} (h : readDigits? cs = some n) :
    cs ≠ [] ∧ (∀ c ∈ cs, c.isDigit = true) ∧ Nat.ofDigitChars 10 cs 0 = n := by
  rw [readDigits?] at h
  split at h
  · next hc => exact ⟨hc.1, List.all_eq_true.mp hc.2, Option.some.inj h⟩
  · cases h

theorem readMantissa?_whole {whole tail : List Char} (run : Text.LongestRun Char.isDigit whole tail)
    (point : tail.head? ≠ some '.') (ne : whole ≠ []) :
    readMantissa? (whole ++ tail) = some (⟨Nat.ofDigitChars 10 whole 0, 0⟩, tail) := by
  simp [readMantissa?, run.takeWhile_append, run.dropWhile_append, point,
    readDigits?_eq_some ne run.all]

theorem readMantissa?_point {whole fraction tail : List Char}
    (hw : ∀ c ∈ whole, c.isDigit = true) (run : Text.LongestRun Char.isDigit fraction tail)
    (ne : whole ++ fraction ≠ []) :
    readMantissa? (whole ++ '.' :: (fraction ++ tail)) =
      some (⟨Nat.ofDigitChars 10 (whole ++ fraction) 0, -fraction.length⟩, tail) := by
  have digits : ∀ c ∈ whole ++ fraction, c.isDigit = true := by
    intro c hc
    obtain h | h := List.mem_append.mp hc
    · exact hw c h
    · exact run.all c h
  have runWhole : Text.LongestRun Char.isDigit whole ('.' :: (fraction ++ tail)) :=
    .cons_right hw rfl
  simp [readMantissa?, runWhole.takeWhile_append, runWhole.dropWhile_append,
    run.takeWhile_append, run.dropWhile_append, readDigits?_eq_some ne digits]

theorem of_readMantissa? {cs rest : List Char} {x : Decimal}
    (h : readMantissa? cs = some (x, rest)) :
    ∃ (whole : List Char) (fraction : Option (List Char)),
      cs = whole ++ fraction.elim [] ('.' :: ·) ++ rest ∧ (∀ c ∈ whole, c.isDigit = true) ∧
      (∀ ds ∈ fraction, ∀ c ∈ ds, c.isDigit = true) ∧ whole ++ fraction.getD [] ≠ [] ∧
      x = ⟨Nat.ofDigitChars 10 (whole ++ fraction.getD []) 0, -(fraction.getD []).length⟩ := by
  have runWhole := Text.LongestRun.of_scan Char.isDigit cs
  simp only [readMantissa?, Option.map_eq_some_iff] at h
  obtain ⟨n, hn, h⟩ := h
  obtain ⟨rfl, rfl⟩ := Prod.mk.inj h
  obtain ⟨ne, -, rfl⟩ := of_readDigits? hn
  by_cases point : (cs.dropWhile Char.isDigit).head? = some '.'
  · obtain ⟨ds, hds⟩ := List.head?_eq_some_iff.mp point
    have runFraction := Text.LongestRun.of_scan Char.isDigit ds
    simp only [hds, List.head?_cons, ite_true, List.tail_cons] at ne ⊢
    refine ⟨cs.takeWhile Char.isDigit, some (ds.takeWhile Char.isDigit), ?_, runWhole.all,
      by simpa using runFraction.all, ne, rfl⟩
    rw [Option.elim_some, List.append_assoc, List.cons_append,
      List.takeWhile_append_dropWhile, ← hds, List.takeWhile_append_dropWhile]
  · simp only [if_neg point] at ne ⊢
    refine ⟨cs.takeWhile Char.isDigit, none, ?_, runWhole.all, by simp, ne, rfl⟩
    rw [Option.elim_none, List.append_nil, List.takeWhile_append_dropWhile]

end Decimal

namespace Numeral

/-- The letter of an exponent and its digits. -/
def tail (n : Numeral) : List Char := n.exponent.elim [] fun e => e.1 :: e.2

theorem longestRun_tail (n : Numeral) {ds : List Char} (h : ∀ c ∈ ds, c.isDigit = true) :
    Text.LongestRun Char.isDigit ds n.tail := by
  rw [tail]
  cases he : n.exponent with
  | none => exact .nil_right h
  | some e =>
      apply Text.LongestRun.cons_right h
      obtain hl | hl := n.exponent_letter e he <;> simp [hl]

theorem tail_head?_ne_point (n : Numeral) : n.tail.head? ≠ some '.' := by
  rw [tail]
  cases he : n.exponent with
  | none => simp
  | some e => obtain hl | hl := n.exponent_letter e he <;> simp [hl]

theorem readMantissa?_text (n : Numeral) :
    Decimal.readMantissa? n.text = some (⟨n.mantissa, -n.places⟩, n.tail) := by
  have ne := n.mantissa_ne_nil
  cases hf : n.fraction with
  | none =>
      have read := Decimal.readMantissa?_whole (n.longestRun_tail n.whole_digits)
        n.tail_head?_ne_point (by simpa [hf] using ne)
      simpa [text, tail, mantissa, places, hf] using read
  | some ds =>
      have read := Decimal.readMantissa?_point n.whole_digits
        (n.longestRun_tail (n.fraction_digits ds hf)) (by simpa [hf] using ne)
      simpa [text, tail, mantissa, places, hf] using read

theorem ofLiteral?_text (n : Numeral) : Decimal.ofLiteral? n.text = some n.decimal := by
  rw [Decimal.ofLiteral?, Decimal.readWith?, n.readMantissa?_text]
  cases he : n.exponent with
  | none => simp [tail, decimal, scale, he]
  | some e =>
      have digits := Decimal.readDigits?_eq_some (n.exponent_ne_nil e he) (n.exponent_digits e he)
      simp only [tail, he, Option.elim_some, if_pos (n.exponent_letter e he), digits,
        Option.map_some, decimal, scale]
      congr 2
      simp only [Int.ofNat_eq_natCast]
      omega

theorem exists_of_ofLiteral? {cs : List Char} {x : Decimal} (h : Decimal.ofLiteral? cs = some x) :
    ∃ n : Numeral, n.text = cs ∧ n.decimal = x := by
  rw [Decimal.ofLiteral?, Decimal.readWith?] at h
  split at h
  · cases h
  · next y hm =>
      obtain rfl := Option.some.inj h
      obtain ⟨whole, fraction, rfl, hw, hf, ne, rfl⟩ := Decimal.of_readMantissa? hm
      refine ⟨⟨whole, fraction, none, hw, hf, ne, by simp, by simp, by simp⟩, rfl, ?_⟩
      simp [decimal, mantissa, scale, places]
  · next y c ds hm =>
      split at h
      · next letter =>
          simp only [Option.map_map, Option.map_eq_some_iff, Function.comp_apply] at h
          obtain ⟨e, he, rfl⟩ := h
          obtain ⟨ne', hd, rfl⟩ := Decimal.of_readDigits? he
          obtain ⟨whole, fraction, rfl, hw, hf, ne, rfl⟩ := Decimal.of_readMantissa? hm
          refine ⟨⟨whole, fraction, some (c, ds), hw, hf, ne, by simpa using letter,
            by simpa using ne', by simpa using hd⟩, rfl, ?_⟩
          simp only [decimal, mantissa, scale, places, Option.elim_some, Int.ofNat_eq_natCast]
          congr 1
          omega
      · cases h

/-- Reading accepts the texts of literals and nothing else. -/
theorem ofLiteral?_eq_some_iff {cs : List Char} {x : Decimal} :
    Decimal.ofLiteral? cs = some x ↔ ∃ n : Numeral, n.text = cs ∧ n.decimal = x := by
  constructor
  · exact exists_of_ofLiteral?
  · rintro ⟨n, rfl, rfl⟩
    exact n.ofLiteral?_text

theorem ofLiteral?_eq_none_iff {cs : List Char} :
    Decimal.ofLiteral? cs = none ↔ ¬ ∃ n : Numeral, n.text = cs := by
  constructor
  · rintro h ⟨n, rfl⟩
    rw [n.ofLiteral?_text] at h
    cases h
  · intro h
    cases hx : Decimal.ofLiteral? cs with
    | none => rfl
    | some x =>
        obtain ⟨n, hn, -⟩ := exists_of_ofLiteral? hx
        exact absurd ⟨n, hn⟩ h

end Numeral
end ScriptLexer

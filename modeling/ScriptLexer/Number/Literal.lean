import ScriptLexer.Number.Decimal

/-!
Number literals. A literal of the language is unsigned, and so is its exponent.
-/

namespace ScriptLexer

namespace Decimal

/-- Reads one digit at least and nothing else. -/
def readDigits? (cs : List Char) : Option Nat :=
  if cs ≠ [] ∧ cs.all Char.isDigit then some (Nat.ofDigitChars 10 cs 0) else none

/-- Digits with at most one point among or around them, and what follows. -/
def readMantissa? (cs : List Char) : Option (Decimal × List Char) :=
  let whole := cs.takeWhile Char.isDigit
  let rest := cs.dropWhile Char.isDigit
  let fraction := if rest.head? = some '.' then rest.tail.takeWhile Char.isDigit else []
  let rest := if rest.head? = some '.' then rest.tail.dropWhile Char.isDigit else rest
  (readDigits? (whole ++ fraction)).map fun n => (⟨n, -fraction.length⟩, rest)

/-- A mantissa, then nothing or the letter of the exponent and what the reader accepts as one. -/
def readWith? (exponent? : List Char → Option Int) (cs : List Char) : Option Decimal :=
  match readMantissa? cs with
  | none => none
  | some (x, []) => some x
  | some (x, c :: cs) =>
    if c = 'e' ∨ c = 'E' then
      (exponent? cs).map fun e => ⟨x.digits, x.exponent + e⟩
    else none

/-- Reads a literal of the language. -/
def ofLiteral? (cs : List Char) : Option Decimal :=
  readWith? (fun ds => (readDigits? ds).map Int.ofNat) cs

end Decimal
end ScriptLexer

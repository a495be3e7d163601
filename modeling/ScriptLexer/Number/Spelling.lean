import ScriptLexer.Number.Literal
import ScriptLexer.Text.Blank
import ScriptLexer.Text.Digit

/-!
Doubles as they are spelled outside programs. A spelling may carry a sign before the number and one
before the exponent, and words name the values that are not finite. Around it there may be blanks,
single underscores may group the digits, and the digits may be those of any script.
-/

namespace ScriptLexer

namespace Decimal

/-- Splits off a sign; true means minus. -/
def splitSign : List Char → Bool × List Char
  | '-' :: cs => (true, cs)
  | '+' :: cs => (false, cs)
  | cs => (false, cs)

def readSigned? (cs : List Char) : Option Int :=
  let (negative, ds) := splitSign cs
  (readDigits? ds).map fun n => if negative then -(n : Int) else n

end Decimal

namespace Binary64

/-- Reads a spelling without blanks and groups, in ASCII digits. Words may be in either case. -/
def read? (cs : List Char) : Option Binary64 :=
  let (negative, cs) := Decimal.splitSign cs
  let word := String.ofList (cs.map Char.toLower)
  if word = "nan" then some .nan
  else if word = "inf" ∨ word = "infinity" then some (.infinity negative)
  else (Decimal.readWith? Decimal.readSigned? cs).map (Decimal.toBinary64 negative)

/-- Blanks that may surround a number: all but the separators among the control characters. -/
def isMargin (c : Char) : Bool := Text.isBlank c && !(0x1c ≤ c.toNat && c.toNat ≤ 0x1f)

def trim (cs : List Char) : List Char :=
  ((cs.dropWhile isMargin).reverse.dropWhile isMargin).reverse

/-- A digit of any script as an ASCII digit; any other character as it is. -/
def plainDigit (c : Char) : Char := (Text.digitValue? c).elim c Nat.digitChar

/-- Takes out the underscores that group digits. An underscore has to stand between two digits;
`afterDigit` tells whether a digit precedes the text. -/
def ungroup? (afterDigit : Bool) : List Char → Option (List Char)
  | [] => some []
  | ['_'] => none
  | '_' :: d :: cs =>
    if afterDigit && d.isDigit then (ungroup? true cs).map (d :: ·) else none
  | c :: cs => (ungroup? c.isDigit cs).map (c :: ·)

/-- Reads a spelling. -/
def ofText? (s : String) : Option Binary64 :=
  (ungroup? false ((trim s.toList).map plainDigit)).bind read?

end Binary64
end ScriptLexer

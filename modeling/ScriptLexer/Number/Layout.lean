import ScriptLexer.Number.Shortest

/-!
How numbers are written: positionally near one, otherwise with an exponent.
-/

namespace ScriptLexer

namespace Decimal

/-- The digits without the zeros at the end. -/
def significantDigits (n : Nat) : List Char :=
  ((Nat.toDigits 10 n).reverse.dropWhile (· = '0')).reverse

/-- Digits with the point behind the first `before` of them, and at least one on each side. -/
def positional (before : Int) (digits : List Char) : List Char :=
  let whole := digits.take before.toNat ++ List.replicate (before.toNat - digits.length) '0'
  let fraction := List.replicate (-before).toNat '0' ++ digits.drop before.toNat
  let orZero (part : List Char) := if part = [] then ['0'] else part
  orZero whole ++ '.' :: orZero fraction

/-- Digits with the point behind the first one, if there are more, and a signed exponent of at
least two digits. -/
def scientific (exponent : Int) (digits : List Char) : List Char :=
  let power := Nat.toDigits 10 exponent.natAbs
  digits.take 1 ++ (if digits.length ≤ 1 then [] else '.' :: digits.drop 1) ++
    'e' :: (if exponent < 0 then '-' else '+') :: (List.replicate (2 - power.length) '0' ++ power)

/-- Positional from 10 ^ -4 on and below 10 ^ 16. -/
def layout (x : Decimal) : List Char :=
  let before := (digitCount x.digits : Int) + x.exponent
  let digits := significantDigits x.digits
  if -4 < before ∧ before ≤ 16 then positional before digits else scientific (before - 1) digits

end Decimal

namespace Binary64

def render : Binary64 → List Char
  | .nan => "nan".toList
  | .infinity negative => (if negative then ['-'] else []) ++ "inf".toList
  | .finite negative rank =>
    (if negative then ['-'] else []) ++
      if rank.val = 0 then "0.0".toList else (shortest rank.val).layout

end Binary64
end ScriptLexer

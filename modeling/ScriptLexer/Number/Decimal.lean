import ScriptLexer.Number.Binary64

/-!
Exact decimals and the double nearest to each.
-/

namespace ScriptLexer

/-- The number `digits * 10 ^ exponent`. -/
structure Decimal where
  digits : Nat
  exponent : Int
deriving Repr, DecidableEq

namespace Decimal

/-- How many digits a number is written with. -/
def digitCount (n : Nat) : Nat := (Nat.toDigits 10 n).length

/-- The double nearest to the decimal, the even one of two.

A decimal from 10 ^ 309 on is too large for a double, and one below 10 ^ -324 is nearer to zero
than to the least positive double. These two are told by their digit count, so that an exponent of
any length stays cheap. -/
def toBinary64 (negative : Bool) (x : Decimal) : Binary64 :=
  let point := (digitCount x.digits : Int) + x.exponent
  if x.digits = 0 ∨ point ≤ -324 then .zero negative
  else if 310 ≤ point then .infinity negative
  else
    let num := (x.digits * Nat.pow 10 x.exponent.toNat) <<< 1074
    let den := Nat.pow 10 (-x.exponent).toNat
    .ofRank negative (Binary64.nearestRank num den)

end Decimal
end ScriptLexer

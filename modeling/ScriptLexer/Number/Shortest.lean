import ScriptLexer.Number.Decimal

/-!
The shortest decimal that reads back as a given double.

Of the decimals with a given number of significant digits only the two around the double can be
nearest to it. The search takes one digit, two digits and so on, and stops where one of these two
reads back; seventeen digits are enough for every double.
-/

namespace ScriptLexer.Binary64

/-- Scaled by this power of ten every positive double exceeds 10 ^ 17, so that its first seventeen
digits stand before the point. -/
def scaleDigits : Nat := 341

def scale : Nat := Nat.pow 10 scaleDigits

/-- Whether a number of scaled units lies between the midpoints to both neighbouring magnitudes.
A midpoint itself belongs to the even one of the two. -/
def roundsTo (rank num : Nat) : Bool :=
  let low := (units (rank - 1) + units rank) * scale
  let high := (units rank + units (rank + 1)) * scale
  if rank % 2 = 0 then decide (low ≤ 2 * num) && decide (2 * num ≤ high)
  else decide (low < 2 * num) && decide (2 * num < high)

/-- The two multiples of the spacing around a magnitude, the nearer first. -/
def neighbours (rank spacing : Nat) : List Nat :=
  let num := units rank * scale
  let low := num / spacing
  if nearest num spacing = low then [low, low + 1] else [low + 1, low]

/-- The nearest decimal that reads back as the magnitude, among those with `count` digits of the
`whole` ones that the scaled magnitude has before the point. -/
def withDigits? (rank whole count : Nat) : Option Decimal :=
  let spacing := Nat.pow 10 (whole - count) <<< 1074
  ((neighbours rank spacing).find? fun c => roundsTo rank (c * spacing)).map
    fun c => ⟨c, (whole : Int) - count - scaleDigits⟩

/-- The shortest decimal that reads back as a positive magnitude, and the nearest of these. -/
def shortest (rank : Nat) : Decimal :=
  let whole := Decimal.digitCount ((units rank * scale) >>> 1074)
  ((List.range' 1 17).findSome? (withDigits? rank whole)).getD ⟨0, 0⟩

end ScriptLexer.Binary64

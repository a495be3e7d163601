/-!
Sets of characters, written as ascending lists of code point ranges.
-/

namespace ScriptLexer.Text

/-- The code points from `first` to `last`, both included. -/
structure CodeRange where
  first : Nat
  last : Nat

/-- Membership in a list of ranges. The ranges ascend, so the search ends at the first one that
starts behind the code point. -/
def CodeRange.covers : List CodeRange → Nat → Bool
  | [], _ => false
  | r :: rs, n => if n < r.first then false else if n ≤ r.last then true else covers rs n

end ScriptLexer.Text

/-!
Double precision numbers.

The finite magnitudes are numbered in ascending order from zero, so that neighbours differ by one
and a number is even exactly when its significand is. Every magnitude is a whole multiple of the
least positive one, 2 ^ -1074.
-/

namespace ScriptLexer

namespace Binary64

/-- How many magnitudes share one exponent, and how many are subnormal, zero among them. -/
def binade : Nat := 1 <<< 52

/-- How many finite magnitudes there are. -/
def magnitudes : Nat := 2047 * binade

end Binary64

inductive Binary64 where
  | nan
  | infinity (negative : Bool)
  | finite (negative : Bool) (rank : Fin Binary64.magnitudes)
deriving Repr, DecidableEq

namespace Binary64

/-- Subnormals count from zero; all other significands have one bit more. -/
def significand (rank : Nat) : Nat :=
  if rank < binade then rank else binade + rank % binade

/-- Zero for the subnormals and for the first binade behind them. -/
def shift (rank : Nat) : Nat := rank / binade - 1

/-- The magnitude as a multiple of the least positive one. Defined beyond the finite magnitudes,
too: at `magnitudes` it is 2 ^ 1024. -/
def units (rank : Nat) : Nat := significand rank <<< shift rank

/-- What is too large for a finite number becomes infinite. -/
def ofRank (negative : Bool) (rank : Nat) : Binary64 :=
  if h : rank < magnitudes then .finite negative ⟨rank, h⟩ else .infinity negative

def zero (negative : Bool) : Binary64 := .finite negative ⟨0, by decide⟩

/-- Numerical equality: the two zeros are equal, and nothing equals what is not a number. -/
def equals : Binary64 → Binary64 → Bool
  | .infinity s, .infinity t => s == t
  | .finite s m, .finite t n => m == n && (s == t || m.val == 0)
  | _, _ => false

/-- The whole number nearest to a quotient, the even one of two. -/
def nearest (num den : Nat) : Nat :=
  let low := num / den
  let left := num % den
  if 2 * left < den ∨ (2 * left = den ∧ low % 2 = 0) then low else low + 1

/-- The number of the magnitude nearest to a quotient of units, the even one of two. The quotient
is rounded to a multiple of the spacing of the binade that it lies in, which is one unit for the
subnormals; a quotient that rounds up to the next power of two is the first of the next binade. -/
def nearestRank (num den : Nat) : Nat :=
  let spacing := (num / den).log2 - 52
  spacing * binade + nearest num (den <<< spacing)

end Binary64
end ScriptLexer

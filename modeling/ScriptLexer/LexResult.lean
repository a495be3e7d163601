import ScriptLexer.LexError

/-!
Results of reading a whole text.
-/

namespace ScriptLexer

/-- All tokens of a text, or those before its first fault together with the fault. -/
structure LexResult where
  tokens : List Token := []
  error : Option LexError := none
deriving Repr, DecidableEq

namespace LexResult

def isComplete (r : LexResult) : Bool := r.error.isNone

def isTruncated (r : LexResult) : Bool := r.error.isSome

/-- The tokens of a complete result. -/
def toExcept (r : LexResult) : Except LexError (List Token) :=
  match r.error with
  | none => .ok r.tokens
  | some error => .error error

/-- Results of separate runs. A fault belongs to its run, so two faults are never equal. -/
def equals (r s : LexResult) : Bool :=
  Token.allEqual r.tokens s.tokens && r.isComplete && s.isComplete

end LexResult
end ScriptLexer

import ScriptLexer.Text.Quoted
import ScriptLexer.Token.Keyword
import ScriptLexer.Token.Kind

/-!
Looking up keywords and kinds that have to exist.
-/

namespace ScriptLexer

inductive LookupError where
  | noKeyword (word : String)
  | noKindName (name : String)
  | noKindCode (code : Int)
deriving Repr, DecidableEq

def LookupError.message : LookupError → String
  | .noKeyword word => Text.quoted word ++ " is not a valid Keyword"
  | .noKindName name => Text.quoted name
  | .noKindCode code => toString code ++ " is not a valid TokenKind"

def Keyword.get (word : String) : Except LookupError Keyword :=
  match Keyword.ofSpelling? word with
  | some keyword => .ok keyword
  | none => .error (.noKeyword word)

def Kind.withName (name : String) : Except LookupError Kind :=
  match Kind.ofName? name with
  | some kind => .ok kind
  | none => .error (.noKindName name)

def Kind.withCode (code : Int) : Except LookupError Kind :=
  match Kind.ofCode? code with
  | some kind => .ok kind
  | none => .error (.noKindCode code)

end ScriptLexer

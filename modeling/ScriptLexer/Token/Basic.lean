import ScriptLexer.Number.Layout
import ScriptLexer.Text.Quoted
import ScriptLexer.Token.Keyword
import ScriptLexer.Token.Kind

/-!
Tokens: what was read, and where it stands.
-/

namespace ScriptLexer

/-- What a token carries beside its kind. -/
inductive Value where
  | absent
  | keyword (keyword : Keyword)
  | text (text : String)
  | number (number : Binary64)
deriving Repr, DecidableEq

namespace Value

/-- Values of different cases are never equal, and numbers compare as numbers. -/
def equals : Value → Value → Bool
  | .absent, .absent => true
  | .keyword k, .keyword l => k = l
  | .text s, .text t => s = t
  | .number x, .number y => x.equals y
  | _, _ => false

/-- The value as a token listing shows it. -/
def render? : Value → Option String
  | .absent => none
  | .keyword k => some k.name
  | .text s => some (Text.quoted s)
  | .number x => some (String.ofList x.render)

end Value

/-- A token covers the characters from `start` on and before `stop`. Line and column are those of
its first character and count from one. A token need not come from a text: its places may be any
integers and its value need not fit its kind. -/
structure Token where
  kind : Kind
  value : Value
  start : Int
  stop : Int
  line : Int
  column : Int
  file : String
deriving Repr, DecidableEq

/-- The file name of what has none. -/
def unnamedFile : String := "<unknown>"

namespace Token

def isEndOfFile (t : Token) : Bool := t.kind = .endOfFile

/-- Field by field. -/
def equals (s t : Token) : Bool :=
  s.kind = t.kind && s.value.equals t.value && s.start = t.start && s.stop = t.stop &&
    s.line = t.line && s.column = t.column && s.file = t.file

def sameKindAndValue (s t : Token) : Bool := s.kind = t.kind && s.value.equals t.value

/-- Token by token, and equally many. -/
def allEqual : List Token → List Token → Bool
  | [], [] => true
  | s :: ss, t :: ts => s.equals t && allEqual ss ts
  | _, _ => false

/-- One line of a token listing; it leaves out the span and the file. -/
def render (t : Token) : String :=
  let value := match t.value.render? with
    | none => ""
    | some text => ", " ++ text
  "Token(" ++ t.kind.name ++ value ++ ", " ++ toString t.line ++ ":" ++ toString t.column ++ ")"

/-- How many of the tokens differ from every earlier one. -/
def countDistinct (ts : List Token) : Nat :=
  (ts.foldl (fun seen t => if seen.any (·.equals t) then seen else t :: seen) []).length

end Token
end ScriptLexer

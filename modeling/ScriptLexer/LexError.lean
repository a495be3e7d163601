import ScriptLexer.Place
import ScriptLexer.Text.Quoted
import ScriptLexer.Token.Basic

/-!
Faults in a text that is read into tokens.
-/

namespace ScriptLexer

/-- What is wrong, and the first character of what could not become a token. -/
structure LexError where
  text : String
  offset : Int
  line : Int := 1
  column : Int := 1
  file : String := unnamedFile
deriving Repr, DecidableEq

namespace LexError

/-- The fault with its place in front. -/
def message (e : LexError) : String :=
  e.file ++ ":" ++ toString e.line ++ ":" ++ toString e.column ++ ": " ++ e.text

/-- The only fault a text can have: a stretch that starts like a number and is none. -/
def invalidNumber (lexeme : List Char) (place : Place) (file : String) : LexError where
  text := "Invalid number literal: " ++ Text.quoted (String.ofList lexeme)
  offset := place.offset
  line := place.line
  column := place.column
  file := file

end LexError
end ScriptLexer

import ScriptLexer.LexResult
import ScriptLexer.Log
import ScriptLexer.Reading

/-!
Lexers. A lexer keeps its place in a text between calls. Its text and its file name may be
exchanged at any time; the place stays.
-/

namespace ScriptLexer

structure Lexer where
  source : String
  file : String := unnamedFile
  place : Place := .start
  /-- The fault that ended a stream of tokens, until the next stream starts. -/
  error : Option LexError := none
deriving Repr, DecidableEq

/-- What a call answers, the lexer after it, and what it logs. -/
structure Reply (α : Type) where
  answer : α
  lexer : Lexer
  records : List Log.Record := []

namespace Lexer

/-- What is still to be read: nothing if the text has become shorter than what was read. -/
def rest (l : Lexer) : List Char := l.source.toList.drop l.place.offset

/-- The token that stands for the end, at the place of the lexer. -/
def endToken (l : Lexer) : Token :=
  ⟨.endOfFile, .absent, l.place.offset, l.place.offset, l.place.line, l.place.column, l.file⟩

/-- Takes one token, at the end the token that stands for it. A fault is answered and not kept. -/
def next (l : Lexer) : Except LexError Token × Lexer :=
  match scan l.file l.place l.rest with
  | .token t place _ => (.ok t, { l with place })
  | .finish place => (.ok { l with place }.endToken, { l with place })
  | .failure error place => (.error error, { l with place })

def logger : String := Log.qualify "lexer.lexer"

theorem logger_eq : logger = "tinyscript.lexer.lexer" := by decide +kernel

def truncatedRecord (e : LexError) : Log.Record :=
  ⟨.warning, logger, "Token stream truncated: " ++ e.message⟩

def countRecord (file : String) (count : Nat) : Log.Record :=
  ⟨.debug, logger, "Lexed " ++ file ++ ": " ++ toString count ++ " token(s)"⟩

/-- Takes all tokens that are left. The fault that ends them is kept and logged. -/
def readAll (l : Lexer) : Reply (List Token) :=
  let reading := readFrom l.file l.place l.rest
  ⟨reading.tokens, { l with place := reading.place, error := reading.error },
    reading.error.toList.map truncatedRecord⟩

/-- Takes all tokens that are left and reports how many there are. -/
def tokenize (l : Lexer) : Reply LexResult :=
  let reply := l.readAll
  ⟨⟨reply.answer, reply.lexer.error⟩, reply.lexer,
    reply.records ++ [countRecord l.file reply.answer.length]⟩

end Lexer

/-- Reads a whole text. -/
def tokenize (source file : String) : Reply LexResult := Lexer.tokenize { source, file }

end ScriptLexer

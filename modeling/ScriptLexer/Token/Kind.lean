/-!
The kinds of token.
-/

namespace ScriptLexer

inductive Kind where
  | comma
  | semicolon
  | openParenthesis
  | closeParenthesis
  | openBrace
  | closeBrace
  | openBracket
  | closeBracket
  | keyword
  | identifier
  | number
  | operator
  | lineComment
  | endOfFile
deriving Repr, DecidableEq

namespace Kind

/-- In the order of their codes. -/
def all : List Kind :=
  [.comma, .semicolon, .openParenthesis, .closeParenthesis, .openBrace, .closeBrace, .openBracket,
   .closeBracket, .keyword, .identifier, .number, .operator, .lineComment, .endOfFile]

def name : Kind → String
  | .comma => "COMMA"
  | .semicolon => "SEMI"
  | .openParenthesis => "OPEN_PAREN"
  | .closeParenthesis => "CLOSE_PAREN"
  | .openBrace => "OPEN_BRACE"
  | .closeBrace => "CLOSE_BRACE"
  | .openBracket => "OPEN_BRACKET"
  | .closeBracket => "CLOSE_BRACKET"
  | .keyword => "KEYWORD"
  | .identifier => "IDENT"
  | .number => "NUMBER"
  | .operator => "OP"
  | .lineComment => "LINE_COMMENT"
  | .endOfFile => "EOF"

/-- Codes count from one. -/
def code : Kind → Nat
  | .comma => 1
  | .semicolon => 2
  | .openParenthesis => 3
  | .closeParenthesis => 4
  | .openBrace => 5
  | .closeBrace => 6
  | .openBracket => 7
  | .closeBracket => 8
  | .keyword => 9
  | .identifier => 10
  | .number => 11
  | .operator => 12
  | .lineComment => 13
  | .endOfFile => 14

def ofName? (name : String) : Option Kind := all.find? (·.name = name)

def ofCode? (code : Int) : Option Kind := all.find? (·.code = code)

/-- The characters that are tokens of their own, each with its kind. -/
def punctuation : List (Char × Kind) :=
  [(';', .semicolon), (',', .comma), ('(', .openParenthesis), (')', .closeParenthesis),
   ('\x7b', .openBrace), ('\x7d', .closeBrace), ('[', .openBracket), (']', .closeBracket)]

def ofPunctuation? (c : Char) : Option Kind := punctuation.lookup c

/-- The kind of a text that is one punctuation character. -/
def ofSpelling? (text : String) : Option Kind :=
  match text.toList with
  | [c] => ofPunctuation? c
  | _ => none

theorem mem_all (k : Kind) : k ∈ all := by cases k <;> decide

theorem ofName?_name (k : Kind) : ofName? k.name = some k := by cases k <;> decide

theorem ofCode?_code (k : Kind) : ofCode? k.code = some k := by cases k <;> decide

end Kind
end ScriptLexer

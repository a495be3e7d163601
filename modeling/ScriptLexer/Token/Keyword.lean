/-!
The reserved words.
-/

namespace ScriptLexer

inductive Keyword where
  | constWord
  | elseWord
  | forWord
  | functionWord
  | ifWord
  | importWord
  | returnWord
  | varWord
deriving Repr, DecidableEq

namespace Keyword

/-- In the order in which listings give them. -/
def all : List Keyword :=
  [.constWord, .elseWord, .forWord, .functionWord, .ifWord, .importWord, .returnWord, .varWord]

/-- The word as a program writes it. -/
def spelling : Keyword → String
  | .constWord => "const"
  | .elseWord => "else"
  | .forWord => "for"
  | .functionWord => "function"
  | .ifWord => "if"
  | .importWord => "import"
  | .returnWord => "return"
  | .varWord => "var"

/-- The name that stands for the word in a token listing. -/
def name : Keyword → String
  | .constWord => "CONST"
  | .elseWord => "ELSE"
  | .forWord => "FOR"
  | .functionWord => "FUNCTION"
  | .ifWord => "IF"
  | .importWord => "IMPORT"
  | .returnWord => "RETURN"
  | .varWord => "VAR"

def ofSpelling? (word : String) : Option Keyword := all.find? (·.spelling = word)

def ofName? (name : String) : Option Keyword := all.find? (·.name = name)

theorem mem_all (k : Keyword) : k ∈ all := by cases k <;> decide

theorem ofSpelling?_eq_some_iff {word : String} {k : Keyword} :
    ofSpelling? word = some k ↔ k.spelling = word := by
  constructor
  · intro h
    simpa using List.find?_some h
  · rintro rfl
    cases k <;> decide

end Keyword
end ScriptLexer

import ScriptLexer.Number.Literal
import ScriptLexer.Text.Alphanumeric
import ScriptLexer.Token.Basic

/-!
Lexemes: the stretches of text that become tokens.

The first character alone decides which shape a lexeme has, and every character starts one. The
shape decides how far the lexeme reaches. A number reaches as far as hexadecimal digits and points
go; only then it is asked whether the stretch is a number at all.
-/

namespace ScriptLexer

namespace Lexeme

inductive Shape where
  | punctuation (kind : Kind)
  | comment
  | number
  | word
  | operator
deriving Repr, DecidableEq

def isNumberPart (c : Char) : Bool :=
  c = '.' || c.isDigit || ('a' ≤ c && c ≤ 'f') || ('A' ≤ c && c ≤ 'F')

def isWordPart (c : Char) : Bool := c = '_' || Text.isAlphanumeric c

/-- The shape of a lexeme that starts with the character. Numbers and words start in ASCII. -/
def Shape.ofFirst (c : Char) : Shape :=
  match Kind.ofPunctuation? c with
  | some kind => .punctuation kind
  | none =>
    if c = '#' then .comment
    else if c = '.' || c.isDigit then .number
    else if c = '_' || c.isAlpha then .word
    else .operator

/-- How many characters a lexeme takes that starts the text. The line feed behind a comment belongs
to it; at the end of the text there may be none. -/
def Shape.extent (cs : List Char) : Shape → Nat
  | .punctuation _ | .operator => 1
  | .comment => (cs.takeWhile (· ≠ '\n')).length + 1
  | .number => (cs.takeWhile isNumberPart).length
  | .word => (cs.takeWhile isWordPart).length

/-- The kind and the value of a lexeme. Only a number can have none. -/
def Shape.content? (lexeme : List Char) : Shape → Option (Kind × Value)
  | .punctuation kind => some (kind, .absent)
  | .comment => some (.lineComment, .absent)
  | .number =>
    (Decimal.ofLiteral? lexeme).map fun x => (.number, .number (x.toBinary64 false))
  | .word =>
    let word := String.ofList lexeme
    match Keyword.ofSpelling? word with
    | some keyword => some (.keyword, .keyword keyword)
    | none => some (.identifier, .text word)
  | .operator => some (.operator, .text (String.ofList lexeme))

theorem isWordPart_of_isAlpha {c : Char} (h : c.isAlpha = true) : isWordPart c = true := by
  simp [isWordPart, Text.isAlphanumeric_of_isAlpha h]

theorem Shape.extent_pos (c : Char) (cs : List Char) :
    0 < (Shape.ofFirst c).extent (c :: cs) := by
  unfold Shape.ofFirst
  split
  · simp [Shape.extent]
  · split
    · simp [Shape.extent]
    · split
      · next h =>
          have : isNumberPart c = true := by simp_all [isNumberPart]
          simp [Shape.extent, this]
      · split
        · next h =>
            have : isWordPart c = true := by
              rcases Bool.or_eq_true_iff.mp h with h | h
              · simp_all [isWordPart]
              · exact isWordPart_of_isAlpha h
            simp [Shape.extent, this]
        · simp [Shape.extent]

end Lexeme
end ScriptLexer

import ScriptLexer.Lexeme
import ScriptLexer.LexError
import ScriptLexer.Text.Blank

/-!
Reading a text into tokens, from a place on and up to the end or the first fault.
-/

namespace ScriptLexer

/-- What a scan meets, and the place behind it. A fault leaves the place before the lexeme. -/
inductive Scan where
  | token (token : Token) (place : Place) (rest : List Char)
  | finish (place : Place)
  | failure (error : LexError) (place : Place)
deriving Repr, DecidableEq

/-- Skips blanks and takes one lexeme of a text that starts at the given place. -/
def scan (file : String) (place : Place) (cs : List Char) : Scan :=
  let place := place.advance (cs.takeWhile Text.isBlank)
  match cs.dropWhile Text.isBlank with
  | [] => .finish place
  | c :: cs =>
    let shape := Lexeme.Shape.ofFirst c
    let extent := shape.extent (c :: cs)
    let lexeme := (c :: cs).take extent
    match shape.content? lexeme with
    | none => .failure (.invalidNumber lexeme place file) place
    | some (kind, value) =>
      let behind := place.advance lexeme
      .token ⟨kind, value, place.offset, behind.offset, place.line, place.column, file⟩ behind
        ((c :: cs).drop extent)

theorem scan_token_length {file : String} {place behind : Place} {cs rest : List Char} {t : Token}
    (h : scan file place cs = .token t behind rest) : rest.length < cs.length := by
  have hle := (List.dropWhile_sublist Text.isBlank (l := cs)).length_le
  unfold scan at h
  split at h
  · cases h
  · next c ds hds =>
      dsimp only at h
      split at h
      · cases h
      · cases h
        have := Lexeme.Shape.extent_pos c ds
        rw [hds] at hle
        simp only [List.length_drop, List.length_cons] at hle ⊢
        omega

/-- The tokens of a text, the place where reading ends, and the fault that ends it. -/
structure Reading where
  tokens : List Token
  place : Place
  error : Option LexError
deriving Repr, DecidableEq

/-- Reads a text that starts at the given place. -/
def readFrom (file : String) (place : Place) (cs : List Char) : Reading :=
  match h : scan file place cs with
  | .finish place => ⟨[], place, none⟩
  | .failure error place => ⟨[], place, some error⟩
  | .token t behind rest =>
    have := scan_token_length h
    let reading := readFrom file behind rest
    ⟨t :: reading.tokens, reading.place, reading.error⟩
termination_by cs.length

end ScriptLexer

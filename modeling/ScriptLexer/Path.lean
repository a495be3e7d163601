/-!
Paths as they are given to the program, and the one form in which it shows them.
-/

namespace ScriptLexer

/-- Where a path starts. Two slashes in front are a root of their own; more than two mean one. -/
inductive Root where
  | none
  | single
  | double
deriving Repr, DecidableEq

namespace Root

def ofSlashes : Nat → Root
  | 0 => .none
  | 2 => .double
  | _ => .single

def chars : Root → List Char
  | .none => []
  | .single => ['/']
  | .double => ['/', '/']

end Root

/-- A path without its idle parts: the names are not empty and none is a single dot. Two dots stay,
because what they lead to depends on the directory before them. -/
structure Path where
  root : Root
  names : List String
deriving Repr, DecidableEq

namespace Path

/-- The parts between slashes, one more than there are slashes. -/
def pieces : List Char → List (List Char)
  | [] => [[]]
  | c :: cs => if c = '/' then [] :: pieces cs else (pieces cs).modifyHead (c :: ·)

theorem pieces_ne_nil (cs : List Char) : pieces cs ≠ [] := by
  cases cs with
  | nil => simp [pieces]
  | cons c cs =>
      unfold pieces
      split
      · simp
      · simpa using pieces_ne_nil cs

def isIdle (piece : List Char) : Bool := piece = [] || piece = ['.']

def parse (s : String) : Path where
  root := .ofSlashes (s.toList.takeWhile (· = '/')).length
  names := ((pieces s.toList).filter (!isIdle ·)).map String.ofList

/-- The path in its shortest spelling; the working directory is a dot. -/
def render (p : Path) : String :=
  if p.root = .none ∧ p.names = [] then "."
  else String.ofList (p.root.chars ++ ['/'].intercalate (p.names.map String.toList))

end Path
end ScriptLexer

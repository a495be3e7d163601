/-!
Places in a text. Only the line feed starts a line; every other character takes one column.
-/

namespace ScriptLexer

/-- A place before a character: how many characters precede it, and its line and column, which
count from one. -/
structure Place where
  offset : Nat
  line : Nat
  column : Nat
deriving Repr, DecidableEq

namespace Place

def start : Place := ⟨0, 1, 1⟩

def step (p : Place) (c : Char) : Place :=
  if c = '\n' then ⟨p.offset + 1, p.line + 1, 1⟩ else ⟨p.offset + 1, p.line, p.column + 1⟩

/-- The place behind a text. -/
def advance (p : Place) (cs : List Char) : Place := cs.foldl step p

@[simp] theorem advance_nil (p : Place) : p.advance [] = p := rfl

@[simp] theorem advance_cons (p : Place) (c : Char) (cs : List Char) :
    p.advance (c :: cs) = (p.step c).advance cs := rfl

theorem advance_append (p : Place) (cs ds : List Char) :
    p.advance (cs ++ ds) = (p.advance cs).advance ds := by
  simp [advance]

@[simp] theorem offset_step (p : Place) (c : Char) : (p.step c).offset = p.offset + 1 := by
  unfold step
  split <;> rfl

@[simp] theorem offset_advance (p : Place) (cs : List Char) :
    (p.advance cs).offset = p.offset + cs.length := by
  induction cs generalizing p with
  | nil => simp
  | cons c cs ih =>
      simp only [advance_cons, ih, offset_step, List.length_cons]
      omega

end Place
end ScriptLexer

import Mathlib.Data.List.DropRight
import ScriptLexer.Place

/-!
The place behind a text, counted from the text alone: the line by the line feeds in the text, the
column by what stands behind the last of them. Main statements: stepping through a text gives just
this place, and each character moves it forward by line and column.
-/

namespace ScriptLexer.Place

/-- The characters behind the last line feed. -/
def lastLine (cs : List Char) : List Char := cs.rtakeWhile (· ≠ '\n')

def behind (cs : List Char) : Place := ⟨cs.length, 1 + cs.count '\n', 1 + (lastLine cs).length⟩

/-- Earlier in the text, by line and column. -/
def Precedes (p q : Place) : Prop := p.line < q.line ∨ p.line = q.line ∧ p.column < q.column

theorem behind_nil : behind [] = start := rfl

theorem behind_concat (cs : List Char) (c : Char) : behind (cs ++ [c]) = (behind cs).step c := by
  by_cases hc : c = '\n'
  · subst hc
    simp [behind, step, lastLine, List.count_append, Nat.add_assoc]
  · simp [behind, step, lastLine, List.count_append, hc, Nat.add_assoc]

theorem behind_advance (cs ds : List Char) : (behind cs).advance ds = behind (cs ++ ds) := by
  induction ds generalizing cs with
  | nil => rw [advance_nil, List.append_nil]
  | cons d ds ih => rw [advance_cons, ← behind_concat, ih, List.append_assoc, List.singleton_append]

theorem precedes_step (p : Place) (c : Char) : p.Precedes (p.step c) := by
  by_cases hc : c = '\n'
  · exact .inl (by simp [step, hc])
  · exact .inr (by simp [step, hc])

theorem Precedes.trans {p q r : Place} (h : p.Precedes q) (h' : q.Precedes r) : p.Precedes r := by
  simp only [Precedes] at h h' ⊢
  omega

theorem precedes_advance (p : Place) {cs : List Char} (ne : cs ≠ []) :
    p.Precedes (p.advance cs) := by
  induction cs generalizing p with
  | nil => exact absurd rfl ne
  | cons c cs ih =>
      by_cases hcs : cs = []
      · subst hcs
        exact precedes_step p c
      · exact (precedes_step p c).trans (ih (p.step c) hcs)

theorem behind_precedes {cs : List Char} {m n : Nat} (h : m < n) (hn : n ≤ cs.length) :
    (behind (cs.take m)).Precedes (behind (cs.take n)) := by
  have split : cs.take n = cs.take m ++ (cs.drop m).take (n - m) := by
    rw [← List.take_add, Nat.add_sub_of_le h.le]
  rw [split, ← behind_advance]
  apply precedes_advance
  rw [Ne, List.take_eq_nil_iff, List.drop_eq_nil_iff]
  omega

end ScriptLexer.Place

import ScriptLexer.Proofs.Positions

/-!
Reading on from any place. Of all that a lexer has passed over, only its place is left: what it reads
from there is what a fresh lexer reads from the rest of the text, moved to the place. Lines count on
from the line of the place; columns do so in this line only, since every other line of the rest is a
line of its own. Main statement: so it is after every run, the text exchanged as it may be.
-/

namespace ScriptLexer

/-- The column that a fresh reading gives, counted on from the place in its first line. -/
def Place.onwardColumn (p : Place) (line column : Int) : Int :=
  if line = 1 then column + (p.column - 1) else column

/-- A token of a text that does not start at the start, but at the place. -/
def Token.moved (p : Place) (t : Token) : Token :=
  { t with
    start := t.start + p.offset
    stop := t.stop + p.offset
    line := t.line + (p.line - 1)
    column := p.onwardColumn t.line t.column }

def LexError.moved (p : Place) (e : LexError) : LexError :=
  { e with
    offset := e.offset + p.offset
    line := e.line + (p.line - 1)
    column := p.onwardColumn e.line e.column }

def LexResult.moved (p : Place) (r : LexResult) : LexResult :=
  ⟨r.tokens.map (.moved p), r.error.map (.moved p)⟩

namespace Place

theorem lastLine_append (front cs : List Char) :
    lastLine (front ++ cs) = if '\n' ∈ cs then lastLine cs else lastLine front ++ cs := by
  induction cs using List.reverseRecOn with
  | nil => simp
  | append_singleton cs c ih =>
      simp only [lastLine] at ih ⊢
      rw [← List.append_assoc, List.rtakeWhile_concat, List.rtakeWhile_concat, ih]
      by_cases hc : c = '\n'
      · simp [hc]
      · by_cases hcs : '\n' ∈ cs <;> simp [hc, hcs, Ne.symm hc]

theorem lastLine_eq_self {cs : List Char} (h : '\n' ∉ cs) : lastLine cs = cs := by
  have same := lastLine_append [] cs
  rwa [if_neg h] at same

theorem offset_behind_append (front cs : List Char) :
    ((behind (front ++ cs)).offset : Int) = (behind cs).offset + (behind front).offset := by
  simp only [behind, List.length_append]
  omega

theorem line_behind_append (front cs : List Char) :
    ((behind (front ++ cs)).line : Int) = (behind cs).line + ((behind front).line - 1) := by
  simp only [behind, List.count_append]
  omega

theorem column_behind_append (front cs : List Char) :
    ((behind (front ++ cs)).column : Int) =
      (behind front).onwardColumn (behind cs).line (behind cs).column := by
  by_cases h : '\n' ∈ cs
  · have later : ((behind cs).line : Int) ≠ 1 := by
      have counted := List.count_pos_iff.mpr h
      simp only [behind]
      omega
    rw [onwardColumn, if_neg later]
    simp only [behind, lastLine_append, if_pos h]
  · have first : ((behind cs).line : Int) = 1 := by
      simp only [behind, List.count_eq_zero.mpr h]
      rfl
    rw [onwardColumn, if_pos first]
    simp only [behind, lastLine_append, if_neg h, lastLine_eq_self h, List.length_append]
    omega

end Place

theorem Token.between_behind_append (file : String) (front before through : List Char)
    (kind : Kind) (value : Value) :
    Token.between file (Place.behind (front ++ before)) (Place.behind (front ++ through)) kind
        value =
      (Token.between file (Place.behind before) (Place.behind through) kind value).moved
        (Place.behind front) := by
  simp only [Token.between, Token.moved, Place.offset_behind_append, Place.line_behind_append,
    Place.column_behind_append]

theorem LexError.invalidNumber_behind_append (span front before : List Char) (file : String) :
    LexError.invalidNumber span (Place.behind (front ++ before)) file =
      (LexError.invalidNumber span (Place.behind before) file).moved (Place.behind front) := by
  let here := Place.behind front
  let fresh := LexError.invalidNumber span (Place.behind before) file
  calc LexError.invalidNumber span (Place.behind (front ++ before)) file
      = ⟨fresh.text, (Place.behind (front ++ before)).offset,
          (Place.behind (front ++ before)).line, (Place.behind (front ++ before)).column,
          file⟩ := rfl
    _ = ⟨fresh.text, fresh.offset + here.offset, fresh.line + (here.line - 1),
          here.onwardColumn fresh.line fresh.column, file⟩ := by
        rw [Place.offset_behind_append, Place.line_behind_append, Place.column_behind_append]
        rfl
    _ = fresh.moved here := rfl

namespace Division

theorem tokens_behind_append (file : String) (front before : List Char) (ps : List Piece) :
    tokens file (front ++ before) ps =
      (tokens file before ps).map (.moved (Place.behind front)) := by
  induction ps generalizing before with
  | nil => rfl
  | cons p ps ih =>
      rw [tokens, tokens, List.map_cons, List.append_assoc, List.append_assoc, ih,
        Token.between_behind_append]

theorem fault_behind_append (file : String) (front before : List Char) (d : Division) :
    d.fault file (front ++ before) = (d.fault file before).map (.moved (Place.behind front)) := by
  rw [fault, fault]
  by_cases empty : d.rest = []
  · rw [if_pos empty, if_pos empty]
    rfl
  · rw [if_neg empty, if_neg empty, List.append_assoc, LexError.invalidNumber_behind_append]
    rfl

end Division

theorem file_of_tokenize_error {source file : String} {e : LexError}
    (h : e ∈ (tokenize source file).answer.error) : e.file = file := by
  obtain ⟨d, hd⟩ := Division.exists_divides source.toList
  rw [Division.tokenize_of_divides hd, Division.result, Division.fault] at h
  split at h
  · cases h
  · cases h
    rfl

/-- A lexer behind some text reads what a fresh one reads from the rest, moved to its place. -/
theorem Lexer.tokenize_behind {l : Lexer} {front : List Char}
    (start : l.place = Place.behind front) :
    l.tokenize.answer =
      (ScriptLexer.tokenize (String.ofList l.rest) l.file).answer.moved l.place := by
  obtain ⟨d, hd⟩ := Division.exists_divides l.rest
  have here := Division.readFrom_behind hd l.file front
  have tokens := Division.tokens_behind_append l.file front [] d.pieces
  have fault := d.fault_behind_append l.file front []
  rw [List.append_nil] at tokens fault
  rw [Division.tokenize_ofList hd, Division.result, LexResult.moved, start, ← tokens,
    ← fault]
  rw [Lexer.tokenize, readAll, start, here]

namespace Session

/-- Whatever a session went through, and wherever its cursor stands in its present text or beyond
it, reading all that is left gives the tokens and the fault of a fresh reading of just that, moved to
the place of the cursor. -/
theorem run_translated (source file : String) (requests : List Request) :
    let s := (ofSource source file).after requests
    let p := s.lexer.place
    let left := String.ofList (s.lexer.source.toList.drop p.offset)
    let fresh := (ScriptLexer.tokenize left s.lexer.file).answer
    let here := s.lexer.tokenize.answer
    (s.perform .tokenize).answer = .result here ∧
      here.tokens = fresh.tokens.map (.moved p) ∧
      (here.isTruncated = true ↔ fresh.isTruncated = true) ∧
      here.error = fresh.error.map (.moved p) ∧
      ∀ e ∈ fresh.error, (e.moved p).text = e.text ∧
        (e.moved p).message = s.lexer.file ++ ":" ++ toString (e.line + (p.line - 1)) ++ ":" ++
          toString (p.onwardColumn e.line e.column) ++ ": " ++ e.text := by
  intro s p left fresh here
  have origin : (ofSource source file).lexer.place = Place.behind [] := rfl
  have start : p = Place.behind ((ofSource source file).consumed requests) :=
    (runs_run origin requests).place
  have moved : here = fresh.moved p := Lexer.tokenize_behind start
  refine ⟨rfl, ?_, ?_, ?_, ?_⟩
  · rw [moved]
    rfl
  · rw [moved, LexResult.isTruncated, LexResult.isTruncated, LexResult.moved, Option.isSome_map]
  · rw [moved]
    rfl
  · intro e he
    have named : e.file = s.lexer.file := file_of_tokenize_error he
    refine ⟨rfl, ?_⟩
    rw [LexError.message, ← named]
    rfl

end Session
end ScriptLexer

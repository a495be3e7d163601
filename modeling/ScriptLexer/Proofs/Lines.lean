import ScriptLexer.Proofs.Translation

/-!
Reading line by line. No lexeme reaches beyond the end of its line but a comment, which takes the line
feed and nothing behind it. Main statement: the tokens of a text are those of its lines, each read on
its own and moved to where it stands, up to the first line that has a fault.
-/

namespace ScriptLexer

/-- A comment of a line that has another one behind it takes the line feed between them. -/
def Token.closed (t : Token) : Token :=
  if t.kind = .lineComment then { t with stop := t.stop + 1 } else t

/-- A token of a line that has so many lines and characters before it. -/
def Token.onLine (lines characters : Nat) (t : Token) : Token :=
  { t with start := t.start + characters, stop := t.stop + characters, line := t.line + lines }

def LexError.onLine (lines characters : Nat) (e : LexError) : LexError :=
  { e with offset := e.offset + characters, line := e.line + lines }

/-- The results of lines that are read each on its own, put together up to the first fault. So many
lines and characters, line feeds included, stand before them. -/
def readLines (file : String) (before characters : Nat) : List (List Char) → LexResult
  | [] => ⟨[], none⟩
  | line :: lines =>
    let own := (tokenize (String.ofList line) file).answer
    let closed := if lines = [] then own.tokens else own.tokens.map .closed
    let tokens := closed.map (.onLine before characters)
    match own.error with
    | some e => ⟨tokens, some (e.onLine before characters)⟩
    | none =>
      let later := readLines file (before + 1) (characters + line.length + 1) lines
      ⟨tokens ++ later.tokens, later.error⟩

namespace Text.LongestRun

/-- What stops a run at the end of a text stops it as well where the text goes on with it. -/
theorem append_stop {p : Char → Bool} {run rest : List Char} (h : LongestRun p run rest) {c : Char}
    (hc : p c = false) (more : List Char) : LongestRun p run (rest ++ c :: more) := by
  refine ⟨h.all, ?_⟩
  cases rest with
  | nil => simpa using hc
  | cons d ds => exact h.stops

end Text.LongestRun

namespace Lexeme

theorem Fails.before_line {span tail : List Char} (h : Fails span tail) (more : List Char) :
    Fails span (tail ++ '\n' :: more) := by
  obtain ⟨starts, run, none_of⟩ := h
  exact .number starts (run.append_stop (by decide) more) none_of

/-- The end of a line ends a lexeme just as the end of a text does, but a comment takes it in. -/
theorem Reads.before_line {lexeme rest : List Char} {kind : Kind} {value : Value}
    (h : Reads lexeme rest kind value) (inside : '\n' ∉ lexeme) (more : List Char) :
    kind ≠ .lineComment ∧ Reads lexeme (rest ++ '\n' :: more) kind value ∨
      kind = .lineComment ∧ rest = [] ∧ Reads (lexeme ++ ['\n']) more kind value := by
  cases h with
  | punctuation hm =>
      refine .inl ⟨?_, .punctuation hm⟩
      rintro rfl
      revert hm
      simp [Kind.punctuation]
  | comment _ => simp at inside
  | lastComment hb => exact .inr ⟨rfl, rfl, .comment hb⟩
  | number run => exact .inl ⟨by decide, .number (run.append_stop (by decide) more)⟩
  | keyword run => exact .inl ⟨by decide, .keyword (run.append_stop (by decide) more)⟩
  | identifier starts run none_of =>
      exact .inl ⟨by decide, .identifier starts (run.append_stop (by decide) more) none_of⟩
  | operator blank starts => exact .inl ⟨by decide, .operator blank starts⟩

end Lexeme

theorem scan_blanks (file : String) (place : Place) {blanks : List Char}
    (blank : ∀ c ∈ blanks, Text.isBlank c = true) (cs : List Char) :
    scan file place (blanks ++ cs) = scan file (place.advance blanks) cs := by
  rw [scan, scan, List.takeWhile_append_of_pos blank, List.dropWhile_append_of_pos blank,
    Place.advance_append]

theorem readFrom_blanks (file : String) (place : Place) {blanks : List Char}
    (blank : ∀ c ∈ blanks, Text.isBlank c = true) (cs : List Char) :
    readFrom file place (blanks ++ cs) = readFrom file (place.advance blanks) cs := by
  have same := scan_blanks file place blank cs
  cases out : scan file (place.advance blanks) cs with
  | token t behind rest =>
      rw [readFrom_of_token out, readFrom_of_token (same.trans out)]
  | finish behind => rw [readFrom_of_finish out, readFrom_of_finish (same.trans out)]
  | failure e behind => rw [readFrom_of_failure out, readFrom_of_failure (same.trans out)]

namespace Division

theorem Divides.of_empty {pieces : List Piece} {blanks span tail : List Char}
    (h : Divides ⟨pieces, blanks, span, tail⟩ []) :
    pieces = [] ∧ blanks = [] ∧ span ++ tail = [] := by
  cases pieces with
  | nil =>
      obtain ⟨text, -, -⟩ := h.of_nil
      obtain ⟨hb, hr⟩ := List.append_eq_nil_iff.mp text.symm
      exact ⟨rfl, hb, hr⟩
  | cons p ps =>
      obtain ⟨ds, text, -, reads, -⟩ := h.of_cons
      obtain ⟨c, cs, lexeme, -⟩ := reads.content
      simp [lexeme] at text

theorem fault_cons (file : String) (before : List Char) (p : Piece) (ps : List Piece)
    (blanks span tail : List Char) :
    fault file before ⟨p :: ps, blanks, span, tail⟩ =
      fault file (before ++ p.text) ⟨ps, blanks, span, tail⟩ := by
  simp only [fault, front, rest, List.flatMap_cons, List.append_assoc]

/-- Reading a line gives what it would give on its own, and if it has no fault reading goes on at the
start of the next line. -/
theorem readFrom_line {d : Division} {line : List Char} (h : d.Divides line) (file : String)
    (before : List Char) (inside : '\n' ∉ line) (more : List Char) :
    let own := (tokens file before d.pieces).map Token.closed
    let next := readFrom file (Place.behind (before ++ (line ++ ['\n']))) more
    let reading := readFrom file (Place.behind before) (line ++ '\n' :: more)
    reading.tokens = own ++ (if d.rest = [] then next.tokens else []) ∧
      reading.error = (d.fault file before).or next.error := by
  obtain ⟨pieces, blanks, span, tail⟩ := d
  induction pieces generalizing before line with
  | nil =>
      obtain ⟨rfl, hb, empty | fails⟩ := h.of_nil
      · have blank : ∀ c ∈ blanks ++ ['\n'], Text.isBlank c = true := by
          intro c hc
          obtain hc | hc := List.mem_append.mp hc
          · exact hb c hc
          · rw [List.mem_singleton.mp hc]
            decide
        have skipped := readFrom_blanks file (Place.behind before) blank more
        rw [Place.behind_advance, List.append_assoc, List.singleton_append] at skipped
        simp [fault, rest, empty, skipped, tokens]
      · have failed := scan_failure file (Place.behind before) hb (fails.before_line more)
        rw [Place.behind_advance] at failed
        simp [fault, rest, fails_rest_ne_nil fails, readFrom_of_failure failed, tokens, front]
  | cons p ps ih =>
      obtain ⟨ds, rfl, blank, reads, hd⟩ := h.of_cons
      rw [List.mem_append, List.mem_append, not_or, not_or] at inside
      obtain ⟨-, insideLexeme, insideRest⟩ := inside
      dsimp only
      rw [fault_cons, tokens, List.map_cons]
      obtain ⟨kind, onward⟩ | ⟨kind, rfl, onward⟩ := reads.before_line insideLexeme more
      · have unclosed : ∀ start stop : Place,
            (Token.between file start stop p.kind p.value).closed =
              Token.between file start stop p.kind p.value := fun _ _ => if_neg kind
        have later := ih (before ++ p.text) insideRest hd
        simp only [Piece.text, List.append_assoc, rest] at later ⊢
        rw [readFrom_piece file before blank onward, unclosed]
        exact ⟨congrArg (_ :: ·) later.1, later.2⟩
      · obtain ⟨rfl, rfl, empty⟩ := hd.of_empty
        have closed : ∀ start : Place, ∀ text : List Char,
            (Token.between file start (Place.behind text) p.kind p.value).closed =
              Token.between file start (Place.behind (text ++ ['\n'])) p.kind p.value := by
          intro start text
          rw [Token.closed]
          simp [Token.between, kind, Place.behind]
        have read := readFrom_piece file before blank onward
        simp only [List.append_assoc, List.singleton_append] at read
        simp [Piece.text, rest, empty, fault, tokens, closed, read]

end Division

namespace Token

/-- At the start of a line columns are those of the line. -/
theorem moved_lineStart {before : List Char} (start : Place.lastLine before = []) :
    Token.moved (Place.behind before) = Token.onLine (before.count '\n') before.length := by
  funext t
  simp only [moved, onLine, Place.onwardColumn, Place.behind, start, Token.mk.injEq, true_and,
    and_true, List.length_nil]
  omega

theorem closed_onLine (lines characters : Nat) (t : Token) :
    (t.onLine lines characters).closed = t.closed.onLine lines characters := by
  by_cases kind : t.kind = .lineComment
  · simp only [closed, onLine, kind, if_true, Token.mk.injEq, true_and, and_true]
    omega
  · simp only [closed, onLine, kind, if_false]

end Token

theorem LexError.moved_lineStart {before : List Char} (start : Place.lastLine before = []) :
    LexError.moved (Place.behind before) = LexError.onLine (before.count '\n') before.length := by
  funext e
  simp only [moved, onLine, Place.onwardColumn, Place.behind, start, LexError.mk.injEq, true_and,
    and_true, List.length_nil]
  omega

namespace Division

variable {before : List Char}

theorem tokens_lineStart (start : Place.lastLine before = []) (file : String) (ps : List Piece) :
    tokens file before ps =
      (tokens file [] ps).map (.onLine (before.count '\n') before.length) := by
  have moved := tokens_behind_append file before [] ps
  rwa [List.append_nil, Token.moved_lineStart start] at moved

theorem fault_lineStart (start : Place.lastLine before = []) (file : String) (d : Division) :
    d.fault file before =
      (d.fault file []).map (.onLine (before.count '\n') before.length) := by
  have moved := fault_behind_append file before [] d
  rwa [List.append_nil, LexError.moved_lineStart start] at moved

theorem closed_lineStart (start : Place.lastLine before = []) (file : String) (ps : List Piece) :
    (tokens file before ps).map Token.closed =
      ((tokens file [] ps).map Token.closed).map
        (.onLine (before.count '\n') before.length) := by
  rw [tokens_lineStart start, List.map_map, List.map_map]
  exact List.map_congr_left fun t _ => t.closed_onLine _ _

end Division

theorem Place.lastLine_concat (front : List Char) : lastLine (front ++ ['\n']) = [] := by
  rw [lastLine, List.rtakeWhile_concat_neg _ _ _ (by simp)]

theorem readFrom_lines (file : String) (before cs : List Char)
    (start : Place.lastLine before = []) :
    let reading := readFrom file (Place.behind before) cs
    readLines file (before.count '\n') before.length (cs.splitOn '\n') =
      ⟨reading.tokens, reading.error⟩ := by
  obtain ⟨line, rest, rfl, run⟩ := Text.LongestRun.exists_split (· ≠ '\n') cs
  have inside : '\n' ∉ line := fun hn => of_decide_eq_true (run.all _ hn) rfl
  obtain ⟨d, hd⟩ := Division.exists_divides line
  have own := Division.tokenize_ofList hd file
  have fault := d.fault_lineStart start file
  cases rest with
  | nil =>
      rw [List.append_nil, List.splitOn_eq_singleton inside, Division.readFrom_behind hd,
        Division.tokens_lineStart start, fault, readLines, own, Division.result, if_pos rfl,
        readLines]
      cases Division.fault file [] d with
      | none => simp
      | some e => simp
  | cons c more =>
      obtain rfl : c = '\n' := by simpa using run.stops c rfl
      have lineEnd : Place.lastLine (before ++ (line ++ ['\n'])) = [] := by
        rw [← List.append_assoc, Place.lastLine_concat]
      have count : (before ++ (line ++ ['\n'])).count '\n' = before.count '\n' + 1 := by
        simp [List.count_append, List.count_eq_zero.mpr inside]
      have length : (before ++ (line ++ ['\n'])).length = before.length + line.length + 1 := by
        simp only [List.length_append, List.length_singleton, Nat.add_assoc]
      have later := readFrom_lines file (before ++ (line ++ ['\n'])) more lineEnd
      obtain ⟨tokens, error⟩ := Division.readFrom_line hd file before inside more
      rw [count, length] at later
      dsimp only
      rw [tokens, error, Division.closed_lineStart start, fault,
        List.splitOn_append_cons_self_of_not_mem inside, readLines, own, Division.result,
        if_neg (List.splitOn_ne_nil _ _), later]
      by_cases empty : d.rest = []
      · have complete : Division.fault file [] d = none := if_pos empty
        simp [complete, empty]
      · obtain ⟨e, faulty⟩ : ∃ e, Division.fault file [] d = some e := ⟨_, if_neg empty⟩
        simp [faulty, empty]
termination_by cs.length

theorem isTruncated_readLines (file : String) (before characters : Nat)
    (lines : List (List Char)) :
    (readLines file before characters lines).isTruncated = true ↔
      ∃ line ∈ lines, (tokenize (String.ofList line) file).answer.isTruncated = true := by
  induction lines generalizing before characters with
  | nil => simp [readLines, LexResult.isTruncated]
  | cons line lines ih =>
      have later := ih (before + 1) (characters + line.length + 1)
      simp only [List.mem_cons, exists_eq_or_imp, ← later, readLines]
      cases own : (tokenize (String.ofList line) file).answer.error with
      | none => simp [LexResult.isTruncated, own]
      | some e => simp [LexResult.isTruncated, own]

/-- Reading a text gives what reading its lines one after the other gives, and has a fault exactly if
one of the lines has. -/
theorem tokenize_eq_readLines (source file : String) :
    (tokenize source file).answer = readLines file 0 0 (source.toList.splitOn '\n') ∧
      ((tokenize source file).answer.isTruncated = true ↔
        ∃ line ∈ source.toList.splitOn '\n',
          (tokenize (String.ofList line) file).answer.isTruncated = true) := by
  have whole : (tokenize source file).answer =
      readLines file 0 0 (source.toList.splitOn '\n') :=
    (readFrom_lines file [] source.toList rfl).symm
  refine ⟨whole, ?_⟩
  rw [whole]
  exact isTruncated_readLines file 0 0 (source.toList.splitOn '\n')

end ScriptLexer

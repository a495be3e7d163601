import ScriptLexer.Proofs.Placement
import ScriptLexer.Proofs.Scanning

/-!
The division of a text: lexemes with blanks between them, up to the end or to a fault. Main
statement: every text has one division and no other, and reading it gives the tokens of that
division, each with the span and the place of its lexeme.
-/

namespace ScriptLexer

/-- A lexeme with the blanks in front of it, and what it becomes. -/
structure Piece where
  blanks : List Char
  lexeme : List Char
  kind : Kind
  value : Value

def Piece.text (p : Piece) : List Char := p.blanks ++ p.lexeme

def Token.inFile (file : String) (t : Token) : Token := { t with file }

/-- The pieces, the blanks behind them, and what is left: nothing, or a span that starts like a
number and is none, with the text behind it. -/
structure Division where
  pieces : List Piece
  blanks : List Char
  span : List Char
  tail : List Char

namespace Division

def rest (d : Division) : List Char := d.span ++ d.tail

def front (d : Division) : List Char := d.pieces.flatMap Piece.text ++ d.blanks

/-- Blanks and lexemes alternate, and each lexeme is what the grammar reads where it stands. -/
def Lawful (behind : List Char) : List Piece → Prop
  | [] => True
  | p :: ps =>
    (∀ c ∈ p.blanks, Text.isBlank c = true) ∧ (∀ c ∈ p.lexeme.head?, Text.isBlank c = false) ∧
      Lexeme.Reads p.lexeme (ps.flatMap Piece.text ++ behind) p.kind p.value ∧ Lawful behind ps

structure Divides (d : Division) (cs : List Char) : Prop where
  text : cs = d.front ++ d.rest
  pieces : Lawful (d.blanks ++ d.rest) d.pieces
  blanks : ∀ c ∈ d.blanks, Text.isBlank c = true
  rest : d.rest = [] ∨ Lexeme.Fails d.span d.tail

/-- The tokens of pieces that stand behind the given text. -/
def tokens (file : String) (before : List Char) : List Piece → List Token
  | [] => []
  | p :: ps =>
    .between file (Place.behind (before ++ p.blanks)) (Place.behind (before ++ p.text)) p.kind
      p.value :: tokens file (before ++ p.text) ps

def fault (file : String) (before : List Char) (d : Division) : Option LexError :=
  if d.rest = [] then none
  else some (.invalidNumber d.span (Place.behind (before ++ d.front)) file)

def result (file : String) (d : Division) : LexResult := ⟨tokens file [] d.pieces, d.fault file []⟩

theorem fails_rest_ne_nil {span tail : List Char} (h : Lexeme.Fails span tail) :
    span ++ tail ≠ [] := by
  obtain ⟨c, cs, rfl, -⟩ := h.content
  exact List.cons_ne_nil _ _

theorem Divides.of_nil {blanks span tail cs : List Char}
    (h : Divides ⟨[], blanks, span, tail⟩ cs) :
    cs = blanks ++ (span ++ tail) ∧ (∀ c ∈ blanks, Text.isBlank c = true) ∧
      (span ++ tail = [] ∨ Lexeme.Fails span tail) :=
  ⟨h.text, h.blanks, h.rest⟩

theorem Divides.of_cons {p : Piece} {ps : List Piece} {blanks span tail cs : List Char}
    (h : Divides ⟨p :: ps, blanks, span, tail⟩ cs) :
    ∃ ds, cs = p.blanks ++ (p.lexeme ++ ds) ∧ (∀ c ∈ p.blanks, Text.isBlank c = true) ∧
      Lexeme.Reads p.lexeme ds p.kind p.value ∧ Divides ⟨ps, blanks, span, tail⟩ ds := by
  obtain ⟨rfl, ⟨blank, -, reads, lawful⟩, hb, hr⟩ := h
  refine ⟨ps.flatMap Piece.text ++ (blanks ++ (span ++ tail)), ?_, blank, reads, ?_, lawful, hb, hr⟩
  · simp only [front, List.flatMap_cons, Piece.text, List.append_assoc]
    rfl
  · rw [front, List.append_assoc]
    rfl

theorem longestRun_blanks {blanks span tail : List Char}
    (hb : ∀ c ∈ blanks, Text.isBlank c = true)
    (hr : span ++ tail = [] ∨ Lexeme.Fails span tail) :
    Text.LongestRun Text.isBlank blanks (span ++ tail) := by
  obtain empty | fails := hr
  · rw [empty]
    exact .nil_right hb
  · exact fails.blanks_before hb

theorem Divides.cons {d : Division} {blanks lexeme cs : List Char} {kind : Kind} {value : Value}
    (h : d.Divides cs) (blank : ∀ c ∈ blanks, Text.isBlank c = true)
    (reads : Lexeme.Reads lexeme cs kind value) :
    Divides { d with pieces := ⟨blanks, lexeme, kind, value⟩ :: d.pieces }
      (blanks ++ (lexeme ++ cs)) := by
  have same : cs = d.pieces.flatMap Piece.text ++ (d.blanks ++ d.rest) := by
    rw [← List.append_assoc]
    exact h.text
  obtain ⟨c, ds, hl, hc, -⟩ := reads.content
  have head : ∀ a ∈ lexeme.head?, Text.isBlank a = false := by simp [hl, hc]
  refine ⟨?_, ⟨blank, head, same ▸ reads, h.pieces⟩, h.blanks, h.rest⟩
  rw [front, List.flatMap_cons, h.text, front]
  simp only [Piece.text, List.append_assoc]
  rfl

theorem divides_blanks {last : List Char} (blank : ∀ c ∈ last, Text.isBlank c = true) :
    Divides ⟨[], last, [], []⟩ last :=
  ⟨by simp [front, rest], trivial, blank, .inl rfl⟩

/-- A lexeme alone. -/
theorem divides_lexeme {lexeme : List Char} {kind : Kind} {value : Value}
    (reads : Lexeme.Reads lexeme [] kind value) :
    Divides ⟨[⟨[], lexeme, kind, value⟩], [], [], []⟩ lexeme := by
  have divides := (divides_blanks (List.forall_mem_nil _)).cons (List.forall_mem_nil _) reads
  rwa [List.nil_append, List.append_nil] at divides

theorem exists_divides (cs : List Char) : ∃ d : Division, d.Divides cs := by
  induction hn : cs.length using Nat.strong_induction_on generalizing cs with
  | _ n ih =>
      generalize ho : scan "" .start cs = out
      cases scan_eq_iff.mp ho with
      | @token blanks lexeme rest kind value blank reads =>
          obtain ⟨d, hd⟩ := ih rest.length (hn ▸ scan_token_length ho) rest rfl
          exact ⟨_, hd.cons blank reads⟩
      | finish blank => exact ⟨⟨[], cs, [], []⟩, by simp [front, rest], trivial, blank, .inl rfl⟩
      | @failure blanks span rest blank fails =>
          exact ⟨⟨[], blanks, span, rest⟩, by simp [front, Division.rest], trivial, blank,
            .inr fails⟩

theorem Divides.nil_ne_cons {p : Piece} {ps : List Piece}
    {blanks span tail blanks' span' tail' cs : List Char}
    (h : Divides ⟨[], blanks, span, tail⟩ cs) : ¬ Divides ⟨p :: ps, blanks', span', tail'⟩ cs := by
  intro h'
  obtain ⟨rfl, hb, hr⟩ := h.of_nil
  obtain ⟨ds, same, blank, reads, -⟩ := h'.of_cons
  obtain ⟨-, hrest⟩ := (longestRun_blanks hb hr).unique (reads.blanks_before blank) same
  obtain empty | fails := hr
  · obtain ⟨c, cs, hl, -⟩ := reads.content
    rw [empty, hl] at hrest
    cases hrest
  · exact reads.not_fails fails hrest.symm

theorem Divides.unique {d e : Division} {cs : List Char} (h : d.Divides cs) (h' : e.Divides cs) :
    d = e := by
  obtain ⟨pieces, blanks, span, tail⟩ := d
  obtain ⟨pieces', blanks', span', tail'⟩ := e
  induction pieces generalizing pieces' cs with
  | nil =>
      cases pieces' with
      | cons q qs => exact absurd h' h.nil_ne_cons
      | nil =>
          obtain ⟨rfl, hb, hr⟩ := h.of_nil
          obtain ⟨same, hb', hr'⟩ := h'.of_nil
          obtain ⟨rfl, hrest⟩ := (longestRun_blanks hb hr).unique (longestRun_blanks hb' hr') same
          obtain empty | fails := hr
          · obtain ⟨rfl, rfl⟩ := List.append_eq_nil_iff.mp empty
            obtain ⟨rfl, rfl⟩ := List.append_eq_nil_iff.mp hrest.symm
            rfl
          · obtain empty' | fails' := hr'
            · exact absurd (hrest.trans empty') (fails_rest_ne_nil fails)
            · obtain ⟨rfl, rfl⟩ := fails.unique fails' hrest
              rfl
  | cons p ps ih =>
      cases pieces' with
      | nil => exact absurd h h'.nil_ne_cons
      | cons q qs =>
          obtain ⟨ds, rfl, blank, reads, hd⟩ := h.of_cons
          obtain ⟨ds', same, blank', reads', hd'⟩ := h'.of_cons
          obtain ⟨hblanks, same⟩ :=
            (reads.blanks_before blank).unique (reads'.blanks_before blank') same
          obtain ⟨hlexeme, rfl, hkind, hvalue⟩ := reads.unique reads' same
          obtain ⟨rfl, rfl, rfl, rfl⟩ := Division.mk.inj (ih hd qs hd')
          obtain ⟨b, l, k, v⟩ := p
          obtain ⟨b', l', k', v'⟩ := q
          cases hblanks
          cases hlexeme
          cases hkind
          cases hvalue
          rfl

theorem readFrom_piece (file : String) (before : List Char) {blanks lexeme rest : List Char}
    {kind : Kind} {value : Value} (blank : ∀ c ∈ blanks, Text.isBlank c = true)
    (reads : Lexeme.Reads lexeme rest kind value) :
    let through := before ++ (blanks ++ lexeme)
    let later := readFrom file (Place.behind through) rest
    readFrom file (Place.behind before) (blanks ++ (lexeme ++ rest)) =
      ⟨.between file (Place.behind (before ++ blanks)) (Place.behind through) kind value ::
        later.tokens, later.place, later.error⟩ := by
  rw [readFrom_of_token (scan_token file _ blank reads), Place.behind_advance,
    Place.behind_advance, List.append_assoc]

/-- Reading on behind a text gives the tokens and the fault of the division of what follows. -/
theorem readFrom_behind {d : Division} {cs : List Char} (h : d.Divides cs) (file : String)
    (before : List Char) :
    readFrom file (Place.behind before) cs =
      ⟨tokens file before d.pieces, Place.behind (before ++ d.front), d.fault file before⟩ := by
  obtain ⟨pieces, blanks, span, tail⟩ := d
  induction pieces generalizing before cs with
  | nil =>
      obtain ⟨rfl, hb, empty | fails⟩ := h.of_nil
      · rw [empty, List.append_nil, readFrom_of_finish (scan_finish file _ hb),
          Place.behind_advance]
        simp [tokens, front, fault, rest, empty]
      · rw [readFrom_of_failure (scan_failure file _ hb fails), Place.behind_advance]
        simp [tokens, front, fault, rest, fails_rest_ne_nil fails]
  | cons p ps ih =>
      obtain ⟨ds, rfl, blank, reads, hd⟩ := h.of_cons
      rw [readFrom_piece file before blank reads, ih _ hd]
      simp only [tokens, front, fault, rest, Piece.text, List.flatMap_cons, List.append_assoc]

theorem tokenize_of_divides {d : Division} {source : String} (h : d.Divides source.toList)
    (file : String) : (tokenize source file).answer = d.result file := by
  rw [tokenize_answer, ← Place.behind_nil, readFrom_behind h, List.nil_append, result]

theorem tokenize_ofList {d : Division} {cs : List Char} (h : d.Divides cs) (file : String) :
    (tokenize (String.ofList cs) file).answer = d.result file := by
  apply tokenize_of_divides
  rwa [String.toList_ofList]

/-- The file name has no part in what is read. -/
theorem tokens_file (file file' : String) (before : List Char) (ps : List Piece) :
    tokens file' before ps = (tokens file before ps).map (.inFile file') := by
  induction ps generalizing before with
  | nil => rfl
  | cons p ps ih =>
      rw [tokens, tokens, List.map_cons, ← ih]
      rfl

theorem file_of_mem_tokenize {source file : String} {t : Token}
    (h : t ∈ (tokenize source file).answer.tokens) : t.file = file := by
  obtain ⟨d, hd⟩ := exists_divides source.toList
  rw [tokenize_of_divides hd, result, tokens_file file file] at h
  obtain ⟨u, -, rfl⟩ := List.mem_map.mp h
  rfl

/-- Every text has one division, and reading it gives the tokens and the fault of that division. -/
theorem tokenize_division (source file : String) :
    ∃ d : Division, d.Divides source.toList ∧
      (∀ e : Division, e.Divides source.toList → e = d) ∧
      (tokenize source file).answer = d.result file ∧
      ((tokenize source file).answer.isComplete = true ↔ d.rest = []) := by
  obtain ⟨d, hd⟩ := exists_divides source.toList
  have read : (tokenize source file).answer = d.result file := by
    rw [tokenize_answer, ← Place.behind_nil, readFrom_behind hd, List.nil_append, result]
  refine ⟨d, hd, fun e he => he.unique hd, read, ?_⟩
  rw [read, LexResult.isComplete, result, fault]
  by_cases empty : d.rest = []
  · simp [empty]
  · simp [empty]

end Division
end ScriptLexer

import ScriptLexer.Lexer
import ScriptLexer.Proofs.LexemeGrammar

/-!
Scans by the grammar. A scan passes over blanks and then meets a lexeme, a fault or the end; each
of these three says what the text is made of. What reading a whole text and taking a single token do
follows from the scan at hand.
-/

namespace ScriptLexer

/-- The token of a lexeme between two places. -/
def Token.between (file : String) (start behind : Place) (kind : Kind) (value : Value) : Token :=
  ⟨kind, value, start.offset, behind.offset, start.line, start.column, file⟩

theorem Token.isEndOfFile_between {lexeme rest : List Char} {kind : Kind} {value : Value}
    (reads : Lexeme.Reads lexeme rest kind value) (file : String) (start behind : Place) :
    (between file start behind kind value).isEndOfFile = false :=
  decide_eq_false reads.kind_ne_endOfFile

/-- The outcome of a scan by the parts of the text. -/
inductive Scans (file : String) (place : Place) : List Char → Scan → Prop where
  | token {blanks lexeme rest : List Char} {kind : Kind} {value : Value} :
      (∀ c ∈ blanks, Text.isBlank c = true) → Lexeme.Reads lexeme rest kind value →
      Scans file place (blanks ++ (lexeme ++ rest))
        (.token (.between file (place.advance blanks) ((place.advance blanks).advance lexeme)
          kind value) ((place.advance blanks).advance lexeme) rest)
  | finish {blanks : List Char} :
      (∀ c ∈ blanks, Text.isBlank c = true) →
      Scans file place blanks (.finish (place.advance blanks))
  | failure {blanks span rest : List Char} :
      (∀ c ∈ blanks, Text.isBlank c = true) → Lexeme.Fails span rest →
      Scans file place (blanks ++ (span ++ rest))
        (.failure (.invalidNumber span (place.advance blanks) file) (place.advance blanks))

theorem scans_scan (file : String) (place : Place) (cs : List Char) :
    Scans file place cs (scan file place cs) := by
  obtain ⟨blanks, tail, rfl, run⟩ := Text.LongestRun.exists_split Text.isBlank cs
  rw [scan, run.takeWhile_append, run.dropWhile_append]
  cases tail with
  | nil =>
      rw [List.append_nil]
      exact .finish run.all
  | cons c ds =>
      dsimp only
      generalize hl : (c :: ds).take ((Lexeme.Shape.ofFirst c).extent (c :: ds)) = lexeme
      generalize hr : (c :: ds).drop ((Lexeme.Shape.ofFirst c).extent (c :: ds)) = rest
      have same : c :: ds = lexeme ++ rest := by rw [← hl, ← hr, List.take_append_drop]
      have found := Lexeme.reads_or_fails (run.stops c rfl)
        (show (c :: ds).splitAt _ = (lexeme, rest) by rw [List.splitAt_eq, hl, hr])
      cases content : (Lexeme.Shape.ofFirst c).content? lexeme with
      | none =>
          rw [content] at found
          rw [same]
          exact .failure run.all found
      | some kindValue =>
          rw [content] at found
          rw [same]
          exact .token run.all found

theorem scan_token (file : String) (place : Place) {blanks lexeme rest : List Char} {kind : Kind}
    {value : Value} (blank : ∀ c ∈ blanks, Text.isBlank c = true)
    (h : Lexeme.Reads lexeme rest kind value) :
    scan file place (blanks ++ (lexeme ++ rest)) =
      .token (.between file (place.advance blanks) ((place.advance blanks).advance lexeme)
        kind value) ((place.advance blanks).advance lexeme) rest := by
  have run := h.blanks_before blank
  obtain ⟨c, cs, rfl, -, cut, content⟩ := h.content
  rw [Lexeme.Shape.Cuts, List.splitAt_eq] at cut
  obtain ⟨taken, dropped⟩ := Prod.mk.inj cut
  rw [scan, run.takeWhile_append, run.dropWhile_append]
  rw [List.cons_append] at taken dropped ⊢
  simp only [taken, dropped, content]
  rfl

theorem scan_finish (file : String) (place : Place) {blanks : List Char}
    (blank : ∀ c ∈ blanks, Text.isBlank c = true) :
    scan file place blanks = .finish (place.advance blanks) := by
  have run : Text.LongestRun Text.isBlank blanks [] := .nil_right blank
  have taken := run.takeWhile_append
  have dropped := run.dropWhile_append
  rw [List.append_nil] at taken dropped
  rw [scan, taken, dropped]

theorem scan_failure (file : String) (place : Place) {blanks span rest : List Char}
    (blank : ∀ c ∈ blanks, Text.isBlank c = true) (h : Lexeme.Fails span rest) :
    scan file place (blanks ++ (span ++ rest)) =
      .failure (.invalidNumber span (place.advance blanks) file) (place.advance blanks) := by
  have run := h.blanks_before blank
  obtain ⟨c, cs, rfl, -, cut, content⟩ := h.content
  rw [Lexeme.Shape.Cuts, List.splitAt_eq] at cut
  obtain ⟨taken, dropped⟩ := Prod.mk.inj cut
  rw [scan, run.takeWhile_append, run.dropWhile_append]
  rw [List.cons_append] at taken dropped ⊢
  simp only [taken, content]

/-- A scan does what the grammar says, and the grammar leaves it no choice. -/
theorem scan_eq_iff {file : String} {place : Place} {cs : List Char} {out : Scan} :
    scan file place cs = out ↔ Scans file place cs out := by
  constructor
  · rintro rfl
    exact scans_scan file place cs
  · intro h
    cases h with
    | token blank reads => exact scan_token file place blank reads
    | finish blank => exact scan_finish file place blank
    | failure blank fails => exact scan_failure file place blank fails

theorem readFrom_of_token {file : String} {place behind : Place} {cs rest : List Char} {t : Token}
    (h : scan file place cs = .token t behind rest) :
    readFrom file place cs =
      ⟨t :: (readFrom file behind rest).tokens, (readFrom file behind rest).place,
        (readFrom file behind rest).error⟩ := by
  rw [readFrom]
  split
  · next h' => cases h.symm.trans h'
  · next h' => cases h.symm.trans h'
  · next h' =>
      cases h.symm.trans h'
      rfl

theorem readFrom_of_finish {file : String} {place behind : Place} {cs : List Char}
    (h : scan file place cs = .finish behind) : readFrom file place cs = ⟨[], behind, none⟩ := by
  rw [readFrom]
  split
  · next h' =>
      cases h.symm.trans h'
      rfl
  · next h' => cases h.symm.trans h'
  · next h' => cases h.symm.trans h'

theorem readFrom_of_failure {file : String} {place behind : Place} {cs : List Char} {e : LexError}
    (h : scan file place cs = .failure e behind) :
    readFrom file place cs = ⟨[], behind, some e⟩ := by
  rw [readFrom]
  split
  · next h' => cases h.symm.trans h'
  · next h' =>
      cases h.symm.trans h'
      rfl
  · next h' => cases h.symm.trans h'

theorem tokenize_answer (source file : String) :
    (tokenize source file).answer =
      ⟨(readFrom file .start source.toList).tokens, (readFrom file .start source.toList).error⟩ :=
  rfl

end ScriptLexer

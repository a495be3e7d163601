import ScriptLexer.Proofs.Division
import ScriptLexer.Proofs.Stream

/-!
What the cursor passes over. Reading on in a text takes a front of what is left, and the line and the
column of each token and fault are those of its first character, counted in all that was passed over
since the start. Main statement: so it is with every way to read on, and the tokens follow each other.
-/

namespace ScriptLexer

/-- The line and the column behind as many characters of the text as the offset says. -/
def Located (text : List Char) (offset line column : Int) : Prop :=
  ∃ front, front <+: text ∧ offset = (front.length : Int) ∧
    line = 1 + (front.count '\n' : Int) ∧ column = 1 + ((Place.lastLine front).length : Int)

theorem Located.mono {text text' : List Char} {offset line column : Int} (h : text <+: text')
    (located : Located text offset line column) : Located text' offset line column := by
  obtain ⟨front, hf, same⟩ := located
  exact ⟨front, hf.trans h, same⟩

theorem append_isPrefix (before stretch next : List Char) :
    before ++ stretch <+: before ++ (stretch ++ next) := by
  rw [← List.append_assoc]
  exact List.prefix_append _ _

theorem located_behind {front text : List Char} (h : front <+: text) :
    Located text (Place.behind front).offset (Place.behind front).line
      (Place.behind front).column :=
  ⟨front, h, rfl, by simp [Place.behind], by simp [Place.behind]⟩

def Token.Precedes (t u : Token) : Prop :=
  t.line < u.line ∨ t.line = u.line ∧ t.column < u.column

/-- The token has the place of its first character in the text and covers some of the text. -/
structure Token.StandsIn (text : List Char) (t : Token) : Prop where
  located : Located text t.start t.line t.column
  start_lt : t.start < t.stop
  stop_le : t.stop ≤ text.length

theorem Token.StandsIn.mono {text text' : List Char} {t : Token} (h : text <+: text')
    (stands : t.StandsIn text) : t.StandsIn text' :=
  ⟨stands.located.mono h, stands.start_lt,
    Int.le_trans stands.stop_le (Int.ofNat_le.mpr h.length_le)⟩

theorem Token.StandsIn.precedes {text : List Char} {t u : Token} (ht : t.StandsIn text)
    (hu : u.StandsIn text) (h : t.start < u.start) : t.Precedes u := by
  obtain ⟨front, hf, start, line, column⟩ := ht.located
  obtain ⟨front', hf', start', line', column'⟩ := hu.located
  have earlier : (Place.behind front).Precedes (Place.behind front') := by
    rw [List.prefix_iff_eq_take.mp hf, List.prefix_iff_eq_take.mp hf']
    exact Place.behind_precedes (by omega) hf'.length_le
  simp only [Place.Precedes, Place.behind] at earlier
  simp only [Token.Precedes]
  omega

theorem Token.StandsIn.start_eq {text : List Char} {t u : Token} (ht : t.StandsIn text)
    (hu : u.StandsIn text) (line : t.line = u.line) (column : t.column = u.column) :
    t.start = u.start := by
  by_contra ne
  obtain h | h := Int.lt_or_gt_of_ne ne
  · have earlier := ht.precedes hu h
    simp only [Token.Precedes] at earlier
    omega
  · have earlier := hu.precedes ht h
    simp only [Token.Precedes] at earlier
    omega

/-- Tokens out of a stretch of text, from the front to the back. -/
structure Token.Follow (before stretch : List Char) (ts : List Token) : Prop where
  stands : ∀ t ∈ ts, t.StandsIn (before ++ stretch)
  later : ∀ t ∈ ts, (before.length : Int) ≤ t.start
  order : ts.Pairwise fun t u => t.stop ≤ u.start

theorem Token.Follow.nil (before stretch : List Char) : Token.Follow before stretch [] :=
  ⟨List.forall_mem_nil _, List.forall_mem_nil _, .nil⟩

theorem Token.Follow.of_reads (file : String) (before blanks : List Char)
    {lexeme behind : List Char} {kind : Kind} {value : Value}
    (reads : Lexeme.Reads lexeme behind kind value) :
    Token.Follow before (blanks ++ lexeme)
      [.between file (Place.behind (before ++ blanks)) (Place.behind (before ++ (blanks ++ lexeme)))
        kind value] := by
  obtain ⟨c, cs, rfl, -⟩ := reads.content
  refine ⟨?_, ?_, List.pairwise_singleton _ _⟩
  · intro t ht
    rw [List.mem_singleton.mp ht]
    refine ⟨located_behind (append_isPrefix before blanks _), ?_, Int.le_refl _⟩
    simp only [Token.between, Place.behind, List.length_append, List.length_cons]
    omega
  · intro t ht
    rw [List.mem_singleton.mp ht]
    simp only [Token.between, Place.behind, List.length_append]
    omega

theorem Token.Follow.append {before stretch next : List Char} {ts us : List Token}
    (ht : Token.Follow before stretch ts) (hu : Token.Follow (before ++ stretch) next us) :
    Token.Follow before (stretch ++ next) (ts ++ us) := by
  refine ⟨?_, ?_, ?_⟩
  · intro t h
    obtain h | h := List.mem_append.mp h
    · exact (ht.stands t h).mono (append_isPrefix before stretch next)
    · rw [← List.append_assoc]
      exact hu.stands t h
  · intro t h
    obtain h | h := List.mem_append.mp h
    · exact ht.later t h
    · have behind := hu.later t h
      rw [List.length_append] at behind
      omega
  · refine List.pairwise_append.mpr ⟨ht.order, hu.order, ?_⟩
    intro t h u h'
    exact Int.le_trans (ht.stands t h).stop_le (hu.later u h')

theorem Token.Follow.precedes {before stretch : List Char} {ts : List Token}
    (h : Token.Follow before stretch ts) : ts.Pairwise Token.Precedes := by
  refine h.order.imp_of_mem ?_
  intro t u ht hu le
  have stands := h.stands t ht
  exact stands.precedes (h.stands u hu) (Int.lt_of_lt_of_le stands.start_lt le)

theorem Division.tokens_follow (file : String) (before : List Char) {behind : List Char}
    {ps : List Piece} (lawful : Lawful behind ps) :
    Token.Follow before (ps.flatMap Piece.text) (tokens file before ps) := by
  induction ps generalizing before with
  | nil => exact .nil before []
  | cons p ps ih =>
      obtain ⟨-, -, reads, lawful⟩ := lawful
      exact (Token.Follow.of_reads file before p.blanks reads).append (ih _ lawful)

/-- A fault that is kept is one from before or one of the text. -/
def FaultIn (text : List Char) (old new : Option LexError) : Prop :=
  ∀ e ∈ new, e ∈ old ∨ Located text e.offset e.line e.column

theorem FaultIn.refl (text : List Char) (kept : Option LexError) : FaultIn text kept kept :=
  fun _ he => .inl he

theorem FaultIn.trans {text text' : List Char} {first second third : Option LexError}
    (h : text <+: text') (faults : FaultIn text first second)
    (faults' : FaultIn text' second third) : FaultIn text' first third := by
  intro e he
  obtain he | located := faults' e he
  · exact (faults e he).imp_right fun located => located.mono h
  · exact .inr located

namespace Lexer

/-- What the cursor passed over to get from one place in the text to another. -/
def passed (l m : Lexer) : List Char := l.rest.take (m.place.offset - l.place.offset)

/-- Reading on in one text: the stretch it passes over and the tokens it hands out. -/
structure Passes (before : List Char) (l : Lexer) (stretch : List Char) (ts : List Token)
    (m : Lexer) : Prop where
  source : m.source = l.source
  front : stretch <+: l.rest
  place : m.place = Place.behind (before ++ stretch)
  follow : Token.Follow before stretch ts
  error : FaultIn (before ++ stretch) l.error m.error

theorem Passes.refl {before : List Char} {l : Lexer} (h : l.place = Place.behind before) :
    Passes before l [] [] l :=
  ⟨rfl, List.nil_prefix, by rw [h, List.append_nil], .nil _ _, .refl _ _⟩

theorem Passes.trans {before stretch next : List Char} {l m n : Lexer} {ts us : List Token}
    (start : l.place = Place.behind before) (h : Passes before l stretch ts m)
    (h' : Passes (before ++ stretch) m next us n) :
    Passes before l (stretch ++ next) (ts ++ us) n := by
  constructor
  · exact h'.source.trans h.source
  · obtain ⟨left, split⟩ := h.front
    have moved : m.rest = left := by
      rw [← rest_advance split.symm, rest, h.source, h.place, start, Place.behind_advance]
      rfl
    rw [← split, ← moved]
    exact (List.prefix_append_right_inj _).mpr h'.front
  · rw [h'.place, List.append_assoc]
  · exact h.follow.append h'.follow
  · have error := h'.error
    rw [List.append_assoc] at error
    exact h.error.trans (append_isPrefix before stretch next) error

theorem Passes.passed_eq {before stretch : List Char} {l m : Lexer} {ts : List Token}
    (start : l.place = Place.behind before) (h : Passes before l stretch ts m) :
    l.passed m = stretch := by
  have length : m.place.offset - l.place.offset = stretch.length := by
    rw [h.place, start]
    simp [Place.behind]
  rw [passed, length]
  exact (List.prefix_iff_eq_take.mp h.front).symm

theorem passes_next {before : List Char} {l : Lexer} (start : l.place = Place.behind before) :
    ∃ stretch, match l.next with
      | (.ok t, m) =>
        Passes before l stretch (if t.isEndOfFile then [] else [t]) m ∧
          Located (before ++ stretch) t.start t.line t.column
      | (.error e, m) =>
        Passes before l stretch [] m ∧ Located (before ++ stretch) e.offset e.line e.column := by
  have called := l.nexts_next
  generalize l.next = out at called
  cases called with
  | @token blanks lexeme behind kind value split blank reads =>
      have follow := Token.Follow.of_reads l.file before blanks reads
      refine ⟨blanks ++ lexeme, ?_⟩
      simp only [start, Place.behind_advance, List.append_assoc]
      rw [Token.isEndOfFile_between reads, if_neg Bool.false_ne_true]
      refine ⟨⟨rfl, ?_, rfl, follow, .refl _ _⟩, (follow.stands _ List.mem_cons_self).located⟩
      rw [split, ← List.append_assoc]
      exact List.prefix_append _ _
  | finish blank =>
      refine ⟨l.rest, ⟨rfl, List.prefix_refl _, ?_, .nil _ _, .refl _ _⟩, ?_⟩
      · exact start ▸ Place.behind_advance before l.rest
      · simp only [start, Place.behind_advance]
        exact located_behind (List.prefix_refl _)
  | @failure blanks span behind split blank fails =>
      refine ⟨blanks, ⟨rfl, ?_, ?_, .nil _ _, .refl _ _⟩, ?_⟩
      · rw [split]
        exact List.prefix_append _ _
      · exact start ▸ Place.behind_advance before blanks
      · simp only [start, Place.behind_advance]
        exact located_behind (List.prefix_refl _)

theorem passes_draw {before : List Char} {l : Lexer} (start : l.place = Place.behind before) :
    ∃ stretch, Passes before l stretch l.draw.1.answer.toList l.draw.1.lexer := by
  obtain ⟨stretch, called⟩ := passes_next start
  refine ⟨stretch, ?_⟩
  rw [draw]
  generalize l.next = out at called
  obtain ⟨e | t, m⟩ := out
  · obtain ⟨passes, located⟩ := called
    refine { passes with follow := .nil _ _, error := ?_ }
    intro e he
    cases he
    exact .inr located
  · obtain ⟨passes, -⟩ := called
    dsimp only
    by_cases atEnd : t.isEndOfFile = true
    · rw [if_pos atEnd] at passes ⊢
      exact passes
    · rw [if_neg atEnd] at passes ⊢
      exact passes

theorem passes_advance {before : List Char} {l : Lexer} (start : l.place = Place.behind before)
    (state : StreamState) :
    ∃ stretch, Passes before l stretch (l.advance state).1.answer.toList
      (l.advance state).1.lexer := by
  cases state with
  | ended => exact ⟨[], .refl start⟩
  | active => exact passes_draw start
  | fresh =>
      have opened : { l with error := none }.place = Place.behind before := start
      obtain ⟨stretch, passes⟩ := passes_draw opened
      refine ⟨stretch, { passes with error := ?_ }⟩
      intro e he
      obtain none_kept | located := passes.error e he
      · cases none_kept
      · exact .inr located

theorem passes_take {before : List Char} {l : Lexer} (start : l.place = Place.behind before)
    (state : StreamState) (count : Nat) :
    ∃ stretch, Passes before l stretch (l.take state count).1.answer.1
      (l.take state count).1.lexer := by
  induction count generalizing before l state with
  | zero => exact ⟨[], .refl start⟩
  | succ count ih =>
      obtain ⟨stretch, passes⟩ := passes_advance start state
      rw [take]
      generalize l.advance state = advanced at passes
      obtain ⟨⟨answer, m, records⟩, state'⟩ := advanced
      cases answer with
      | none => exact ⟨stretch, passes⟩
      | some t =>
          obtain ⟨next, more⟩ := ih passes.place state'
          exact ⟨stretch ++ next, passes.trans start more⟩

theorem passes_readAll {before : List Char} {l : Lexer} (start : l.place = Place.behind before) :
    ∃ stretch, Passes before l stretch l.readAll.answer l.readAll.lexer ∧
      ∀ e ∈ l.readAll.lexer.error, Located (before ++ stretch) e.offset e.line e.column := by
  obtain ⟨d, hd⟩ := Division.exists_divides l.rest
  have read := start ▸ Division.readFrom_behind hd l.file before
  have follow := (Division.tokens_follow l.file before hd.pieces).append
    (.nil (before ++ d.pieces.flatMap Piece.text) d.blanks)
  rw [List.append_nil] at follow
  refine ⟨d.front, ?_⟩
  rw [readAll, read]
  have located : ∀ e ∈ d.fault l.file before,
      Located (before ++ d.front) e.offset e.line e.column := by
    intro e he
    rw [Division.fault] at he
    split at he
    · cases he
    · cases he
      exact located_behind (List.prefix_refl _)
  exact ⟨⟨rfl, hd.text ▸ List.prefix_append _ _, rfl, follow, fun e he => .inr (located e he)⟩,
    located⟩

end Lexer

end ScriptLexer

import ScriptLexer.Proofs.Lookahead
import ScriptLexer.Proofs.Lines
import ScriptLexer.Proofs.Unparsing

/-!
What comments say. A comment ends at its line feed and at nothing else, and behind the line feed
reading starts in the first column whatever the comment was. Main statement: another body in a comment
changes no token but for the offsets behind it.
-/

namespace ScriptLexer

/-- What stands in a comment behind its first character, up to its line feed. -/
def Token.commentBody (text : List Char) (t : Token) : List Char :=
  (t.textIn text).tail.takeWhile (· ≠ '\n')

/-- The text with another body in this comment. -/
def Token.rewritten (text : List Char) (t : Token) (body : List Char) : List Char :=
  text.take (t.start.toNat + 1) ++ body ++
    text.drop (t.start.toNat + 1 + (t.commentBody text).length)

/-- So many offsets farther on. -/
def Token.shifted (distance : Int) (t : Token) : Token :=
  { t with start := t.start + distance, stop := t.stop + distance }

def LexError.shifted (distance : Int) (e : LexError) : LexError :=
  { e with offset := e.offset + distance }

theorem Token.shifted_zero : Token.shifted 0 = id := by
  funext t
  simp only [shifted, Int.add_zero, id_eq]

theorem LexError.shifted_zero : LexError.shifted 0 = id := by
  funext e
  simp only [shifted, Int.add_zero, id_eq]

theorem Lexeme.Reads.of_comment {lexeme rest : List Char} {value : Value}
    (h : Lexeme.Reads lexeme rest .lineComment value) :
    ∃ body feed, lexeme = '#' :: body ++ feed ∧ '\n' ∉ body ∧ value = .absent ∧
      (feed = ['\n'] ∨ feed = [] ∧ rest = []) := by
  cases h with
  | punctuation hm => exact absurd hm (by simp [Kind.punctuation])
  | @comment body rest hb => exact ⟨body, ['\n'], rfl, hb, rfl, .inl rfl⟩
  | @lastComment body hb => exact ⟨body, [], (List.append_nil _).symm, hb, rfl, .inr ⟨rfl, rfl⟩⟩

namespace Division

theorem tokens_append (file : String) (before : List Char) (ps qs : List Piece) :
    tokens file before (ps ++ qs) =
      tokens file before ps ++ tokens file (before ++ ps.flatMap Piece.text) qs := by
  induction ps generalizing before with
  | nil => rw [List.flatMap_nil, List.append_nil, List.nil_append, tokens, List.nil_append]
  | cons p ps ih =>
      rw [List.cons_append, tokens, tokens, ih, List.flatMap_cons, List.append_assoc,
        List.cons_append]

theorem fault_append (file : String) (before : List Char) (ps qs : List Piece)
    (blanks span tail : List Char) :
    fault file before ⟨ps ++ qs, blanks, span, tail⟩ =
      fault file (before ++ ps.flatMap Piece.text) ⟨qs, blanks, span, tail⟩ := by
  simp only [fault, front, rest, List.flatMap_append, List.append_assoc]

/-- The pieces on both sides of a token. -/
theorem exists_piece {file : String} {before : List Char} {ps : List Piece} {ts us : List Token}
    {t : Token} (h : tokens file before ps = ts ++ t :: us) :
    ∃ qs p rs, ps = qs ++ p :: rs ∧ tokens file before qs = ts ∧
      tokens file (before ++ qs.flatMap Piece.text) (p :: rs) = t :: us := by
  induction ts generalizing before ps with
  | nil =>
      cases ps with
      | nil => cases h
      | cons p ps => exact ⟨[], p, ps, rfl, rfl, by rwa [List.flatMap_nil, List.append_nil]⟩
  | cons u ts ih =>
      cases ps with
      | nil => cases h
      | cons p ps =>
          obtain ⟨first, later⟩ := List.cons.inj h
          obtain ⟨qs, q, rs, rfl, front, back⟩ := ih later
          refine ⟨p :: qs, q, rs, rfl, ?_, ?_⟩
          · rw [tokens, first, front]
          · rwa [List.flatMap_cons, ← List.append_assoc]

theorem Lawful.append_iff {behind : List Char} {ps qs : List Piece} :
    Lawful behind (ps ++ qs) ↔
      Lawful (qs.flatMap Piece.text ++ behind) ps ∧ Lawful behind qs := by
  induction ps with
  | nil => exact ⟨fun h => ⟨trivial, h⟩, fun h => h.2⟩
  | cons p ps ih =>
      simp only [List.cons_append, Lawful, ih, List.flatMap_append, List.append_assoc, and_assoc]

theorem Lawful.eq_nil {behind : List Char} {ps : List Piece} (h : Lawful behind ps)
    (empty : ps.flatMap Piece.text = []) : ps = [] := by
  cases ps with
  | nil => rfl
  | cons p ps =>
      obtain ⟨c, cs, first, -⟩ := h.2.2.1.content
      simp [Piece.text, first] at empty

/-- The comment piece that says this. -/
def commentPiece (gap body feed : List Char) : Piece :=
  ⟨gap, '#' :: body ++ feed, .lineComment, .absent⟩

/-- A comment is closed by its line feed or by the end of the text. -/
theorem Divides.exists_comment {d : Division} {text : List Char} (h : d.Divides text)
    {file : String} {ts us : List Token} {c : Token}
    (found : tokens file [] d.pieces = ts ++ c :: us) (kind : c.kind = .lineComment) :
    ∃ qs gap body feed rs, d.pieces = qs ++ commentPiece gap body feed :: rs ∧ '\n' ∉ body ∧
      (feed = ['\n'] ∨ feed = [] ∧ rs = [] ∧ d.blanks ++ d.rest = []) ∧
      tokens file [] qs = ts ∧
      tokens file (qs.flatMap Piece.text) (commentPiece gap body feed :: rs) = c :: us := by
  obtain ⟨qs, p, rs, pieces, front, back⟩ := exists_piece found
  have lawful := h.pieces
  rw [pieces] at lawful
  obtain ⟨-, reads, later⟩ := (Lawful.append_iff.mp lawful).2.2
  obtain ⟨gap, lexeme, kind', value⟩ := p
  obtain rfl : kind' = .lineComment := by
    rw [tokens] at back
    rw [← kind, ← (List.cons.inj back).1]
    rfl
  obtain ⟨body, feed, rfl, inside, rfl, closed⟩ := reads.of_comment
  refine ⟨qs, gap, body, feed, rs, pieces, inside, ?_, front, back⟩
  obtain feed | ⟨feed, empty⟩ := closed
  · exact .inl feed
  · obtain ⟨none_later, nothing⟩ := List.append_eq_nil_iff.mp empty
    exact .inr ⟨feed, later.eq_nil none_later, nothing⟩

section Rewriting

variable {qs rs : List Piece} {gap old feed blanks span tail text body : List Char}

theorem Divides.rewritten
    (h : Divides ⟨qs ++ commentPiece gap old feed :: rs, blanks, span, tail⟩ text)
    (closed : feed = ['\n'] ∨ feed = [] ∧ rs = [] ∧ blanks ++ (span ++ tail) = [])
    (inside : '\n' ∉ body) :
    Divides ⟨qs ++ commentPiece gap body feed :: rs, blanks, span, tail⟩
      (qs.flatMap Piece.text ++ gap ++ '#' :: body ++ feed ++
        (rs.flatMap Piece.text ++ (blanks ++ (span ++ tail)))) := by
  obtain ⟨-, lawful, blank, left⟩ := h
  obtain ⟨before, gapBlank, -, -, later⟩ := Lawful.append_iff.mp lawful
  refine ⟨?_, Lawful.append_iff.mpr ⟨?_, gapBlank, ?_, ?_, later⟩, blank, left⟩
  · simp only [front, Division.rest, commentPiece, Piece.text, List.flatMap_append,
      List.flatMap_cons, List.append_assoc]
  · -- The first characters of the comment settle all that stands before it.
    have ne : gap ++ ['#'] ≠ [] := List.append_ne_nil_of_right_ne_nil _ (List.cons_ne_nil _ _)
    simp only [commentPiece, Piece.text, List.flatMap_cons, List.append_assoc, List.cons_append,
      Division.rest] at before ⊢
    rw [← List.singleton_append, ← List.append_assoc] at before ⊢
    exact before.goes_on ne _
  · intro c hc
    cases hc
    decide
  · obtain rfl | ⟨rfl, rfl, empty⟩ := closed
    · exact .comment inside
    · change Lexeme.Reads ('#' :: body ++ []) (blanks ++ (span ++ tail)) .lineComment .absent
      rw [empty, List.append_nil]
      exact .lastComment inside

/-- Behind a line feed nothing but the offsets tells what stood before. -/
theorem tokens_shifted {before before' : List Char} (start : Place.lastLine before = [])
    (start' : Place.lastLine before' = []) (lines : before'.count '\n' = before.count '\n')
    (file : String) (ps : List Piece) :
    tokens file before' ps =
      (tokens file before ps).map (.shifted (before'.length - before.length)) := by
  rw [tokens_lineStart start, tokens_lineStart start', List.map_map, lines]
  refine List.map_congr_left fun t _ => ?_
  simp only [Function.comp_apply, Token.onLine, Token.shifted, Token.mk.injEq, true_and, and_true]
  omega

theorem fault_shifted {before before' : List Char} (start : Place.lastLine before = [])
    (start' : Place.lastLine before' = []) (lines : before'.count '\n' = before.count '\n')
    (file : String) (d : Division) :
    d.fault file before' =
      (d.fault file before).map (.shifted (before'.length - before.length)) := by
  rw [fault_lineStart start, fault_lineStart start', Option.map_map, lines]
  congr 1
  funext e
  simp only [Function.comp_apply, LexError.onLine, LexError.shifted, LexError.mk.injEq, true_and,
    and_true]
  omega

theorem lineStart_comment (before : List Char) (gap body : List Char) :
    Place.lastLine (before ++ (commentPiece gap body ['\n']).text) = [] := by
  simp only [commentPiece, Piece.text, ← List.append_assoc]
  exact Place.lastLine_concat _

theorem count_comment (inside : '\n' ∉ body) (before : List Char) :
    (before ++ (commentPiece gap body feed).text).count '\n' =
      before.count '\n' + (gap.count '\n' + feed.count '\n') := by
  have none_inside := List.count_eq_zero.mpr inside
  simp [commentPiece, Piece.text, List.count_append, none_inside]

variable (gap) in
/-- The tokens and the fault behind another comment. -/
theorem behind_rewritten
    (closed : feed = ['\n'] ∨ feed = [] ∧ rs = [] ∧ blanks ++ (span ++ tail) = [])
    (insideOld : '\n' ∉ old) (inside : '\n' ∉ body) (file : String) (before : List Char) :
    let distance : Int := body.length - old.length
    let through := before ++ (commentPiece gap old feed).text
    let through' := before ++ (commentPiece gap body feed).text
    tokens file through' rs = (tokens file through rs).map (.shifted distance) ∧
      fault file through' ⟨rs, blanks, span, tail⟩ =
        (fault file through ⟨rs, blanks, span, tail⟩).map (.shifted distance) := by
  obtain rfl | ⟨rfl, rfl, empty⟩ := closed
  · have length : (before ++ (commentPiece gap body ['\n']).text).length -
        (before ++ (commentPiece gap old ['\n']).text).length = (body.length - old.length : Int) := by
      simp only [commentPiece, Piece.text, List.length_append, List.length_cons]
      omega
    have lines : (before ++ (commentPiece gap body ['\n']).text).count '\n' =
        (before ++ (commentPiece gap old ['\n']).text).count '\n' := by
      rw [count_comment inside, count_comment insideOld]
    have start := lineStart_comment before gap old
    have start' := lineStart_comment before gap body
    dsimp only
    rw [← length]
    exact ⟨tokens_shifted start start' lines file rs, fault_shifted start start' lines file _⟩
  · have complete (through : List Char) : fault file through ⟨[], blanks, span, tail⟩ = none :=
      if_pos (List.append_eq_nil_iff.mp empty).2
    dsimp only
    rw [complete, complete]
    exact ⟨rfl, rfl⟩

theorem result_rewritten
    (closed : feed = ['\n'] ∨ feed = [] ∧ rs = [] ∧ blanks ++ (span ++ tail) = [])
    (insideOld : '\n' ∉ old) (inside : '\n' ∉ body) {file : String} {us : List Token} {c : Token}
    (found : tokens file (qs.flatMap Piece.text) (commentPiece gap old feed :: rs) = c :: us) :
    let distance : Int := body.length - old.length
    let d : Division := ⟨qs ++ commentPiece gap old feed :: rs, blanks, span, tail⟩
    let d' : Division := ⟨qs ++ commentPiece gap body feed :: rs, blanks, span, tail⟩
    (d'.result file).tokens =
        tokens file [] qs ++ { c with stop := c.stop + distance } :: us.map (.shifted distance) ∧
      (d'.result file).error = (d.result file).error.map (.shifted distance) := by
  intro distance d d'
  obtain ⟨later, fault⟩ :=
    behind_rewritten gap closed insideOld inside file (qs.flatMap Piece.text)
  obtain ⟨rfl, rfl⟩ := List.cons.inj found
  refine ⟨?_, ?_⟩
  · have stop : ((qs.flatMap Piece.text ++ (commentPiece gap body feed).text).length : Int) =
        (qs.flatMap Piece.text ++ (commentPiece gap old feed).text).length + distance := by
      simp only [commentPiece, Piece.text, List.length_append, List.length_cons, distance]
      omega
    change tokens file [] (qs ++ _ :: rs) = _
    rw [tokens_append, List.nil_append, tokens, later]
    simp only [Token.between, Place.behind, stop]
    rfl
  · change Division.fault file [] d' = (Division.fault file [] d).map _
    rw [fault_append, fault_append, List.nil_append, fault_cons, fault_cons, fault]

end Rewriting

/-- A comment in its text, and the division of the text with another body in it. -/
theorem Divides.exists_rewritten {d : Division} {text : List Char} (h : d.Divides text)
    {file : String} {ts us : List Token} {c : Token}
    (found : tokens file [] d.pieces = ts ++ c :: us) (kind : c.kind = .lineComment) :
    ∃ front old feed back, text = front ++ ('#' :: old ++ feed ++ back) ∧ '\n' ∉ old ∧
      (feed = ['\n'] ∨ feed = [] ∧ back = []) ∧
      c = .between file (.behind front) (.behind (front ++ ('#' :: old ++ feed))) .lineComment
        .absent ∧
      ∀ body, '\n' ∉ body → ∃ d' : Division, d'.Divides (front ++ ('#' :: body ++ feed ++ back)) ∧
        let distance : Int := body.length - old.length
        (d'.result file).tokens =
            ts ++ { c with stop := c.stop + distance } :: us.map (.shifted distance) ∧
          (d'.result file).error = (d.result file).error.map (.shifted distance) := by
  obtain ⟨qs, gap, old, feed, rs, pieces, insideOld, closed, front, back⟩ :=
    h.exists_comment found kind
  obtain ⟨ps, blanks, span, tail⟩ := d
  obtain rfl : ps = _ := pieces
  refine ⟨qs.flatMap Piece.text ++ gap, old, feed,
    rs.flatMap Piece.text ++ (blanks ++ (span ++ tail)), ?_, insideOld, ?_, ?_, ?_⟩
  · rw [h.text]
    simp only [Division.front, Division.rest, commentPiece, Piece.text, List.flatMap_append,
      List.flatMap_cons, List.append_assoc]
  · obtain closed | ⟨closed, rfl, empty⟩ := closed
    · exact .inl closed
    · exact .inr ⟨closed, empty⟩
  · rw [← (List.cons.inj back).1, List.append_assoc]
    rfl
  · intro body inside
    have divides := h.rewritten closed inside
    obtain ⟨tokens, error⟩ := result_rewritten closed insideOld inside back
    rw [front] at tokens
    simp only [List.append_assoc] at divides ⊢
    exact ⟨_, divides, tokens, error⟩

end Division

section Between

variable (file : String) (front back : List Char) {old feed : List Char}

theorem commentBody_between (inside : '\n' ∉ old) (closed : feed = ['\n'] ∨ feed = []) :
    Token.commentBody (front ++ ('#' :: old ++ feed ++ back))
      (.between file (.behind front) (.behind (front ++ ('#' :: old ++ feed))) .lineComment
        .absent) = old := by
  have run : Text.LongestRun (· ≠ '\n') old feed := by
    have plain : ∀ a ∈ old, decide (a ≠ '\n') = true := by
      intro a mem
      exact decide_eq_true fun feed => inside (feed ▸ mem)
    obtain rfl | rfl := closed
    · exact .cons_right plain rfl
    · exact .nil_right plain
  rw [Token.commentBody, between_textIn, List.cons_append, List.tail_cons, run.takeWhile_append]

theorem rewritten_between (inside : '\n' ∉ old) (closed : feed = ['\n'] ∨ feed = [])
    (body : List Char) :
    Token.rewritten (front ++ ('#' :: old ++ feed ++ back))
      (.between file (.behind front) (.behind (front ++ ('#' :: old ++ feed))) .lineComment
        .absent) body = front ++ ('#' :: body ++ feed ++ back) := by
  have split : front ++ ('#' :: old ++ feed ++ back) = front ++ ['#'] ++ (old ++ (feed ++ back)) := by
    simp
  have length : front.length + 1 = (front ++ ['#']).length := by
    rw [List.length_append, List.length_singleton]
  rw [Token.rewritten, commentBody_between file front back inside closed, split]
  simp only [Token.between, Place.behind, Int.toNat_natCast]
  rw [length, List.take_left, ← List.drop_drop, List.drop_left, List.drop_left]
  simp

end Between

/-- Another body in a comment keeps its kind, its value and its place, and all tokens before it. What
stands behind it keeps its line and column and moves by the difference of the lengths, the fault too. -/
theorem tokenize_rewritten {source file : String} {ts us : List Token} {c : Token}
    (found : (tokenize source file).answer.tokens = ts ++ c :: us) (kind : c.kind = .lineComment)
    {body : List Char} (inside : '\n' ∉ body) :
    let text := source.toList
    let old := c.commentBody text
    let distance : Int := body.length - old.length
    let before := (tokenize source file).answer
    let after := (tokenize (String.ofList (c.rewritten text body)) file).answer
    (∃ front back, text = front ++ '#' :: old ++ back ∧
        c.rewritten text body = front ++ '#' :: body ++ back ∧ c.start = front.length ∧
        '\n' ∉ old ∧ (back = [] ∨ back.head? = some '\n')) ∧
      after.tokens = ts ++ { c with stop := c.stop + distance } :: us.map (.shifted distance) ∧
      after.error = before.error.map (.shifted distance) ∧
      (∀ e ∈ before.error, (e.shifted distance).message = e.message) ∧
      after.contents = before.contents ∧ after.isTruncated = before.isTruncated ∧
      (body.length = old.length → after = before) := by
  intro text old distance before after
  obtain ⟨d, hd⟩ := Division.exists_divides text
  have read : before = d.result file := Division.tokenize_of_divides hd file
  have listed : Division.tokens file [] d.pieces = ts ++ c :: us := by
    rw [← found]
    exact congrArg LexResult.tokens read.symm
  obtain ⟨front, said, feed, back, split, insideOld, closed, token, divides⟩ :=
    hd.exists_rewritten listed kind
  have ends : feed = ['\n'] ∨ feed = [] := closed.imp_right And.left
  obtain rfl : said = old := by
    rw [← commentBody_between file front back insideOld ends, ← split, ← token]
  have changed : c.rewritten text body = front ++ ('#' :: body ++ feed ++ back) := by
    rw [← rewritten_between file front back insideOld ends body, ← split, ← token]
  obtain ⟨d', hd', tokens, error⟩ := divides body inside
  have reread : after = d'.result file := by
    rw [← Division.tokenize_ofList hd' file, ← changed]
  rw [← reread] at tokens error
  rw [← read] at error
  refine ⟨⟨front, feed ++ back, ?_, ?_, ?_, insideOld, ?_⟩, tokens, error, fun e _ => rfl,
    ?_, ?_, ?_⟩
  · rw [split]
    simp
  · rw [changed]
    simp
  · rw [token]
    rfl
  · obtain rfl | ⟨rfl, rfl⟩ := closed
    · exact .inr rfl
    · exact .inl rfl
  · rw [LexResult.contents, LexResult.contents, tokens, found, List.map_append, List.map_append,
      List.map_cons, List.map_cons, List.map_map]
    rfl
  · rw [LexResult.isTruncated, LexResult.isTruncated, error, Option.isSome_map]
  · intro same
    have still : (body.length - old.length : Int) = 0 := by omega
    rw [still, Token.shifted_zero, List.map_id, Int.add_zero, ← found] at tokens
    rw [still, LexError.shifted_zero, Option.map_id] at error
    calc after = ⟨after.tokens, after.error⟩ := rfl
      _ = ⟨before.tokens, before.error⟩ := by rw [tokens, error, id_eq]
      _ = before := rfl

/-- A bad number in a comment is not read, and the one behind it moves. -/
theorem bad_number_in_comment :
    let source := "a # b\n 1..2"
    let t : Token := ⟨.identifier, .text "a", 0, 1, 1, 1, "f"⟩
    let c : Token := ⟨.lineComment, .absent, 2, 6, 1, 3, "f"⟩
    let after := (tokenize (String.ofList (c.rewritten source.toList "3.4.5 #".toList)) "f").answer
    (tokenize source "f").answer.tokens = [t] ++ c :: [] ∧ c.kind = .lineComment ∧
      '\n' ∉ "3.4.5 #".toList ∧ after.tokens = [t, { c with stop := 11 }] ∧
      after.error = (tokenize source "f").answer.error.map (.shifted 5) ∧
      after.isTruncated = true := by
  intro source t c after
  have found : (tokenize source "f").answer.tokens = [t] ++ c :: [] := by decide +kernel
  have inside : '\n' ∉ "3.4.5 #".toList := by decide +kernel
  obtain ⟨-, tokens, error, -⟩ := tokenize_rewritten found rfl inside
  have distance : (("3.4.5 #".toList.length : Int) - (c.commentBody source.toList).length) = 5 := by
    decide +kernel
  rw [distance] at tokens error
  exact ⟨found, rfl, inside, tokens, error, by decide +kernel⟩

end ScriptLexer

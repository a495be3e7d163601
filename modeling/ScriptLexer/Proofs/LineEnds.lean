import ScriptLexer.Proofs.Listing
import ScriptLexer.Proofs.Lookahead

/-!
Line ends of two characters. A carriage return before a line feed ends lexemes just as the line feed
does, belongs to the comment it stands in, and is the last of its line, so that no token has it before
itself there. Main statement: without these carriage returns a text has the same tokens and the same
fault, only nearer to the start; hence what is printed for a file is what its own text gives.
-/

namespace ScriptLexer

namespace Text

/-- Every carriage return has a line feed directly behind it. -/
def ReturnsPaired (cs : List Char) : Prop :=
  ∀ back, '\r' :: back <:+ cs → back.head? = some '\n'

def withoutReturns (cs : List Char) : List Char := cs.filter (· ≠ '\r')

theorem ReturnsPaired.suffix {cs ds : List Char} (h : ReturnsPaired cs) (back : ds <:+ cs) :
    ReturnsPaired ds :=
  fun _ suffix => h _ (suffix.trans back)

theorem ReturnsPaired.behind {front back : List Char} (h : ReturnsPaired (front ++ back)) :
    ReturnsPaired back :=
  h.suffix (List.suffix_append front back)

theorem withoutReturns_append (cs ds : List Char) :
    withoutReturns (cs ++ ds) = withoutReturns cs ++ withoutReturns ds :=
  List.filter_append ..

theorem withoutReturns_cons {c : Char} (h : c ≠ '\r') (cs : List Char) :
    withoutReturns (c :: cs) = c :: withoutReturns cs :=
  List.filter_cons_of_pos (by simpa using h)

theorem withoutReturns_eq_self {cs : List Char} (h : '\r' ∉ cs) : withoutReturns cs = cs := by
  refine List.filter_eq_self.mpr fun c mem => decide_eq_true ?_
  rintro rfl
  exact h mem

theorem length_withoutReturns (cs : List Char) :
    (withoutReturns cs).length + cs.count '\r' = cs.length := by
  induction cs with
  | nil => rfl
  | cons c cs ih =>
      by_cases hc : c = '\r'
      · subst hc
        change (withoutReturns cs).length + _ = _
        rw [List.count_cons_self, List.length_cons]
        omega
      · rw [withoutReturns_cons hc, List.count_cons_of_ne hc, List.length_cons, List.length_cons]
        omega

theorem normalizeNewlines_of_paired {cs : List Char} (h : ReturnsPaired cs) :
    normalizeNewlines cs = withoutReturns cs := by
  induction cs using normalizeNewlines.induct with
  | case1 => rfl
  | case2 cs ih =>
      rw [normalizeNewlines, ih (h.suffix (List.suffix_append ['\r', '\n'] cs))]
      rfl
  | case3 c cs single ih =>
      have plain : c ≠ '\r' := by
        rintro rfl
        obtain ⟨ds, rfl⟩ := List.head?_eq_some_iff.mp (h cs (List.suffix_refl _))
        exact single ds rfl rfl
      rw [normalizeNewlines.eq_3 _ _ single, if_neg plain, withoutReturns_cons plain,
        ih (h.suffix (List.suffix_cons c cs))]

/-- A pair of carriage return and line feed stops what the line feed stops. -/
theorem LongestRun.withoutReturns {p : Char → Bool} {run rest : List Char}
    (h : LongestRun p run rest) (paired : ReturnsPaired rest) (stop : p '\n' = false) :
    LongestRun p run (withoutReturns rest) := by
  cases rest with
  | nil => exact h
  | cons c cs =>
      by_cases hc : c = '\r'
      · subst hc
        obtain ⟨ds, rfl⟩ := List.head?_eq_some_iff.mp (paired cs (List.suffix_refl _))
        exact .cons_right h.all stop
      · rw [withoutReturns_cons hc]
        exact ⟨h.all, h.stops⟩

theorem LongestRun.notMem_return {p : Char → Bool} {run rest : List Char}
    (h : LongestRun p run rest) (plain : p '\r' = false) : '\r' ∉ run := by
  intro mem
  rw [h.all _ mem] at plain
  cases plain

end Text

namespace Lexeme

theorem Fails.withoutReturns {span tail : List Char} (h : Fails span tail)
    (paired : Text.ReturnsPaired tail) :
    Fails (Text.withoutReturns span) (Text.withoutReturns tail) := by
  obtain ⟨starts, run, none_of⟩ := h
  rw [Text.withoutReturns_eq_self (run.notMem_return (by decide))]
  exact .number starts (run.withoutReturns paired (by decide)) none_of

theorem Reads.withoutReturns {lexeme rest : List Char} {kind : Kind} {value : Value}
    (h : Reads lexeme rest kind value) (paired : Text.ReturnsPaired rest) :
    Reads (Text.withoutReturns lexeme) (Text.withoutReturns rest) kind value := by
  have inside {body : List Char} (hb : '\n' ∉ body) : '\n' ∉ Text.withoutReturns body :=
    fun mem => hb (List.mem_of_mem_filter mem)
  cases h with
  | @punctuation c rest kind hm =>
      have plain : c ≠ '\r' := by
        rintro rfl
        revert hm
        simp [Kind.punctuation]
      rw [Text.withoutReturns_cons plain]
      exact .punctuation hm
  | @comment body rest hb =>
      rw [Text.withoutReturns_append, Text.withoutReturns_cons (by decide)]
      exact .comment (inside hb)
  | @lastComment body hb => exact .lastComment (inside hb)
  | number run =>
      rw [Text.withoutReturns_eq_self (run.notMem_return (by decide))]
      exact .number (run.withoutReturns paired (by decide))
  | keyword run =>
      rw [Text.withoutReturns_eq_self (run.notMem_return (by decide))]
      exact .keyword (run.withoutReturns paired (by decide))
  | identifier starts run none_of =>
      rw [Text.withoutReturns_eq_self (run.notMem_return (by decide))]
      exact .identifier starts (run.withoutReturns paired (by decide)) none_of
  | @operator c rest blank starts =>
      have plain : c ≠ '\r' := by
        rintro rfl
        revert blank
        decide
      rw [Text.withoutReturns_cons plain]
      exact .operator blank starts

end Lexeme

namespace Place

theorem lastLine_withoutReturns (front : List Char) :
    lastLine (Text.withoutReturns front) = Text.withoutReturns (lastLine front) := by
  induction front using List.reverseRecOn with
  | nil => rfl
  | append_singleton front c ih =>
      simp only [lastLine] at ih ⊢
      rw [Text.withoutReturns_append, List.rtakeWhile_concat]
      by_cases hc : c = '\r'
      · subst hc
        change List.rtakeWhile _ (Text.withoutReturns front ++ []) = _
        rw [List.append_nil, ih, if_pos (by decide), Text.withoutReturns_append]
        exact (List.append_nil _).symm
      · rw [Text.withoutReturns_cons hc]
        change List.rtakeWhile _ (Text.withoutReturns front ++ [c]) = _
        rw [List.rtakeWhile_concat, ih]
        by_cases feed : c = '\n'
        · simp [feed, Text.withoutReturns]
        · simp [feed, hc, Text.withoutReturns]

/-- Before a character that is not the line feed of a pair there is no carriage return in its line. -/
theorem notMem_lastLine {front back : List Char} {c : Char}
    (paired : Text.ReturnsPaired (front ++ c :: back)) (hc : c ≠ '\n') : '\r' ∉ lastLine front := by
  intro mem
  obtain ⟨x, y, split⟩ := List.append_of_mem mem
  have inside : ∀ d ∈ lastLine front, d ≠ '\n' := by
    intro d hd
    rw [lastLine] at hd
    simpa using List.mem_rtakeWhile_imp hd
  have suffix : '\r' :: (y ++ c :: back) <:+ front ++ c :: back := by
    have whole : lastLine front <:+ front := List.rtakeWhile_suffix _ _
    rw [split] at whole
    obtain ⟨z, rfl⟩ := whole
    exact ⟨z ++ x, by simp⟩
  have next := paired _ suffix
  cases y with
  | nil => exact hc (by simpa using next)
  | cons d ds =>
      obtain rfl : d = '\n' := by simpa using next
      exact inside '\n' (by simp [split]) rfl

end Place

/-- Where an offset of the text is after the carriage returns before it have gone. -/
def Text.nearer (text : List Char) (offset : Int) : Int :=
  offset - (text.take offset.toNat).count '\r'

def Token.nearer (text : List Char) (t : Token) : Token :=
  { t with start := Text.nearer text t.start, stop := Text.nearer text t.stop }

def LexError.nearer (text : List Char) (e : LexError) : LexError :=
  { e with offset := Text.nearer text e.offset }

theorem Text.nearer_length (front back : List Char) :
    nearer (front ++ back) (Place.behind front).offset =
      (Place.behind (withoutReturns front)).offset := by
  have length := length_withoutReturns front
  simp only [nearer, Place.behind, Int.toNat_natCast, List.take_left]
  omega

theorem Place.behind_withoutReturns {front : List Char} (h : '\r' ∉ lastLine front) :
    (behind (Text.withoutReturns front)).line = (behind front).line ∧
      (behind (Text.withoutReturns front)).column = (behind front).column := by
  refine ⟨?_, ?_⟩
  · simp only [behind, Text.withoutReturns]
    rw [List.count_filter (by decide)]
  · simp only [behind]
    rw [lastLine_withoutReturns, Text.withoutReturns_eq_self h]

theorem Token.between_withoutReturns {start stop : List Char} (file : String)
    (back more : List Char) (kind : Kind) (value : Value) (same : start ++ back = stop ++ more)
    (h : '\r' ∉ Place.lastLine start) :
    Token.between file (Place.behind (Text.withoutReturns start))
        (Place.behind (Text.withoutReturns stop)) kind value =
      (Token.between file (Place.behind start) (Place.behind stop) kind value).nearer
        (start ++ back) := by
  obtain ⟨line, column⟩ := Place.behind_withoutReturns h
  have first := Text.nearer_length start back
  have last := Text.nearer_length stop more
  rw [← same] at last
  simp only [between, nearer, line, column, first, last]

theorem LexError.invalidNumber_withoutReturns {start : List Char} (span back : List Char)
    (file : String) (h : '\r' ∉ Place.lastLine start) :
    LexError.invalidNumber span (Place.behind (Text.withoutReturns start)) file =
      (LexError.invalidNumber span (Place.behind start) file).nearer (start ++ back) := by
  obtain ⟨line, column⟩ := Place.behind_withoutReturns h
  let here := Place.behind (Text.withoutReturns start)
  let fault := LexError.invalidNumber span (Place.behind start) file
  calc LexError.invalidNumber span here file
      = ⟨fault.text, here.offset, here.line, here.column, file⟩ := rfl
    _ = ⟨fault.text, Text.nearer (start ++ back) fault.offset, fault.line, fault.column, file⟩ := by
        rw [line, column, ← Text.nearer_length start back]
        rfl
    _ = fault.nearer (start ++ back) := rfl

def Piece.withoutReturns (p : Piece) : Piece :=
  { p with blanks := Text.withoutReturns p.blanks, lexeme := Text.withoutReturns p.lexeme }

def Division.withoutReturns (d : Division) : Division :=
  ⟨d.pieces.map .withoutReturns, Text.withoutReturns d.blanks, Text.withoutReturns d.span,
    Text.withoutReturns d.tail⟩

theorem Piece.text_withoutReturns (p : Piece) :
    p.withoutReturns.text = Text.withoutReturns p.text :=
  (Text.withoutReturns_append ..).symm

namespace Division

theorem flatMap_withoutReturns (ps : List Piece) :
    (ps.map Piece.withoutReturns).flatMap Piece.text =
      Text.withoutReturns (ps.flatMap Piece.text) := by
  induction ps with
  | nil => rfl
  | cons p ps ih =>
      rw [List.map_cons, List.flatMap_cons, List.flatMap_cons, Text.withoutReturns_append, ih,
        p.text_withoutReturns]

theorem Lawful.withoutReturns {behind : List Char} {ps : List Piece} (h : Lawful behind ps)
    (paired : Text.ReturnsPaired (ps.flatMap Piece.text ++ behind)) :
    Lawful (Text.withoutReturns behind) (ps.map .withoutReturns) := by
  induction ps with
  | nil => trivial
  | cons p ps ih =>
      obtain ⟨blank, -, reads, lawful⟩ := h
      rw [List.flatMap_cons, Piece.text, List.append_assoc, List.append_assoc] at paired
      have rest := paired.behind.behind
      have reads' := reads.withoutReturns rest
      obtain ⟨c, cs, first, visible, -⟩ := reads'.content
      refine ⟨fun c mem => blank c (List.mem_of_mem_filter mem), ?_, ?_, ih lawful rest⟩
      · simp [Piece.withoutReturns, first, visible]
      · rw [flatMap_withoutReturns, ← Text.withoutReturns_append]
        exact reads'

theorem rest_withoutReturns (d : Division) :
    d.withoutReturns.rest = Text.withoutReturns d.rest :=
  (Text.withoutReturns_append ..).symm

theorem front_withoutReturns (d : Division) :
    d.withoutReturns.front = Text.withoutReturns d.front := by
  rw [front, front, Text.withoutReturns_append, ← flatMap_withoutReturns]
  rfl

theorem Divides.withoutReturns {d : Division} {cs : List Char} (h : d.Divides cs)
    (paired : Text.ReturnsPaired cs) : d.withoutReturns.Divides (Text.withoutReturns cs) := by
  obtain ⟨text, lawful, blank, left⟩ := h
  rw [text] at paired
  refine ⟨?_, ?_, fun c mem => blank c (List.mem_of_mem_filter mem), ?_⟩
  · rw [text, Text.withoutReturns_append, front_withoutReturns, rest_withoutReturns]
  · rw [front, List.append_assoc] at paired
    have pieces := lawful.withoutReturns paired
    rwa [Text.withoutReturns_append, ← rest_withoutReturns] at pieces
  · obtain empty | fails := left
    · rw [rest_withoutReturns, empty]
      exact .inl rfl
    · exact .inr (fails.withoutReturns paired.behind.behind)

/-- The tokens of pieces that have other text behind them. -/
theorem tokens_withoutReturns {text back : List Char} (paired : Text.ReturnsPaired text)
    (file : String) (before : List Char) {ps : List Piece} (lawful : Lawful back ps)
    (same : text = before ++ (ps.flatMap Piece.text ++ back)) :
    tokens file (Text.withoutReturns before) (ps.map .withoutReturns) =
      (tokens file before ps).map (.nearer text) := by
  induction ps generalizing before with
  | nil => rfl
  | cons p ps ih =>
      obtain ⟨-, -, reads, lawful⟩ := lawful
      rw [List.flatMap_cons, List.append_assoc, ← List.append_assoc] at same
      have later := ih (before ++ p.text) lawful same
      obtain ⟨c, cs, first, visible, -⟩ := reads.content
      have start : text = before ++ p.blanks ++ (c :: (cs ++ (ps.flatMap Piece.text ++ back))) := by
        rw [same, Piece.text, first]
        simp
      have plain : c ≠ '\n' := by
        rintro rfl
        revert visible
        decide
      have inLine := Place.notMem_lastLine (start ▸ paired) plain
      have token := Token.between_withoutReturns file _ _ p.kind p.value (start.symm.trans same) inLine
      rw [List.map_cons, tokens, tokens, List.map_cons, p.text_withoutReturns,
        ← Text.withoutReturns_append, later, start, ← token, ← start, Piece.withoutReturns,
        ← Text.withoutReturns_append]

theorem Divides.fault_withoutReturns {d : Division} {text : List Char} (h : d.Divides text)
    (paired : Text.ReturnsPaired text) (file : String) :
    d.withoutReturns.fault file [] = (d.fault file []).map (.nearer text) := by
  rw [fault, fault, rest_withoutReturns, front_withoutReturns]
  obtain empty | fails := h.rest
  · rw [if_pos (by rw [empty]; rfl), if_pos empty]
    rfl
  · have faulty : d.rest ≠ [] := fails_rest_ne_nil fails
    have same := h.text
    obtain ⟨c, cs, first, visible, -⟩ := fails.content
    rw [Division.rest, first, List.cons_append] at same
    have plain : c ≠ '\n' := by
      rintro rfl
      revert visible
      decide
    have inLine := Place.notMem_lastLine (same ▸ paired) plain
    have moved := LexError.invalidNumber_withoutReturns d.span (c :: (cs ++ d.tail)) file inLine
    have kept : Text.withoutReturns d.span = d.span :=
      Text.withoutReturns_eq_self (fails.longestRun.notMem_return (by decide))
    have faulty' : Text.withoutReturns d.rest ≠ [] := by
      rw [Division.rest, Text.withoutReturns_append, kept, first]
      exact List.cons_ne_nil _ _
    rw [if_neg faulty, if_neg faulty', List.nil_append, List.nil_append, Option.map_some, same,
      ← moved, Division.withoutReturns, kept]

theorem Divides.result_withoutReturns {d : Division} {text : List Char} (h : d.Divides text)
    (paired : Text.ReturnsPaired text) (file : String) :
    d.withoutReturns.result file =
      ⟨(d.result file).tokens.map (.nearer text), (d.result file).error.map (.nearer text)⟩ := by
  have same := h.text
  rw [front, List.append_assoc] at same
  have moved := tokens_withoutReturns paired file [] h.pieces same
  rw [result, result, h.fault_withoutReturns paired]
  exact congrArg (LexResult.mk · _) moved

end Division

theorem tokenize_withoutReturns {text : List Char} (paired : Text.ReturnsPaired text)
    (file : String) :
    let raw := (tokenize (String.ofList text) file).answer
    (tokenize (String.ofList (Text.withoutReturns text)) file).answer =
      ⟨raw.tokens.map (.nearer text), raw.error.map (.nearer text)⟩ := by
  obtain ⟨d, hd⟩ := Division.exists_divides text
  dsimp only
  rw [Division.tokenize_ofList hd, Division.tokenize_ofList (hd.withoutReturns paired),
    hd.result_withoutReturns paired]

namespace Command

/-- Spans are not listed. -/
theorem Lists.of_nearer {o : Outcome} {r : LexResult} {text : List Char}
    (h : Lists o ⟨r.tokens.map (.nearer text), r.error.map (.nearer text)⟩) : Lists o r := by
  obtain ⟨tokens, error⟩ := r
  have fault : faultText ⟨tokens.map (.nearer text), error.map (.nearer text)⟩ =
      faultText ⟨tokens, error⟩ := by
    cases error <;> rfl
  obtain ⟨stdout, lines, ending⟩ := h
  rw [fault, List.map_map] at stdout lines
  refine ⟨stdout, lines, ?_⟩
  rw [ending]
  cases error <;> rfl

end Command

/-- Where every carriage return is paired with a line feed, a text without its carriage returns has the
same tokens and the same fault, as many offsets nearer as carriage returns have gone from before them.
This is the text that is read from a file, so what is printed for the file lists its own text. -/
theorem tokenize_normalized (text file : String) (paired : Text.ReturnsPaired text.toList) :
    let raw := (tokenize text file).answer
    let plain := Text.normalizeNewlines text.toList
    let read := (tokenize (String.ofList plain) file).answer
    plain = Text.withoutReturns text.toList ∧
      read.tokens = raw.tokens.map (.nearer text.toList) ∧
      read.isTruncated = raw.isTruncated ∧
      read.error = raw.error.map (.nearer text.toList) ∧
      (∀ e ∈ raw.error, (e.nearer text.toList).message = e.message) ∧
      ∀ (find : Path → Found) (time : String) (arguments : List String) (path : Path)
        (bytes : List UInt8), Command.Invocation.ofArguments arguments = .tokenize path →
        find path = .file bytes → Text.Utf8.decode bytes = .ok text.toList →
        Command.Lists (Command.run find time arguments) (tokenize text path.render).answer := by
  intro raw plain read
  have normal : plain = Text.withoutReturns text.toList := Text.normalizeNewlines_of_paired paired
  have same (name : String) : (tokenize (String.ofList plain) name).answer =
      ⟨(tokenize text name).answer.tokens.map (.nearer text.toList),
        (tokenize text name).answer.error.map (.nearer text.toList)⟩ := by
    have moved := tokenize_withoutReturns paired name
    rwa [String.ofList_toList, ← normal] at moved
  have found : read = ⟨raw.tokens.map (.nearer text.toList), raw.error.map (.nearer text.toList)⟩ :=
    same file
  refine ⟨normal, ?_, ?_, ?_, fun e _ => rfl, ?_⟩
  · rw [found]
  · rw [found, LexResult.isTruncated, LexResult.isTruncated, Option.isSome_map]
  · rw [found]
  · intro find time arguments path bytes asked file decoded
    have reads : Command.Reads find arguments path (String.ofList plain) :=
      ⟨asked, bytes, text.toList, file, decoded, rfl⟩
    have lists := reads.lists time
    rw [same path.render] at lists
    exact lists.of_nearer

/-- Blanks, a comment and a fault behind pairs, and what is printed for a file with this text. -/
theorem paired_lines :
    let text := "x \r\n# y\r\n\t1.2.3\r\n"
    let tree := FileTree.ofPaths [] [(Path.parse "f", text.toUTF8.data.toList)]
    Text.ReturnsPaired text.toList ∧
      (tokenize (String.ofList (Text.normalizeNewlines text.toList)) "f").answer.tokens =
        (tokenize text "f").answer.tokens.map (.nearer text.toList) ∧
      (tokenize text "f").answer.tokens.map (fun t => (t.start, t.stop)) = [(0, 1), (4, 9)] ∧
      (tokenize text "f").answer.error.map (·.offset) = some 10 ∧
      (tokenize text "f").answer.error.map (·.nearer text.toList |>.offset) = some 8 ∧
      Command.Lists (Command.run tree.lookup "" ["tokenize", "f"]) (tokenize text "f").answer := by
  intro text tree
  have paired : Text.ReturnsPaired text.toList := by
    have tails : ∀ s ∈ text.toList.tails, s.head? = some '\r' → s.tail.head? = some '\n' := by
      decide +kernel
    exact fun back suffix => tails _ ((List.mem_tails _ _).mpr suffix) rfl
  obtain ⟨-, tokens, -, -, -, listed⟩ := tokenize_normalized text "f" paired
  have lists := listed tree.lookup "" ["tokenize", "f"] (Path.parse "f") text.toUTF8.data.toList
    (by decide +kernel) (by decide +kernel) (by decide +kernel)
  have name : (Path.parse "f").render = "f" := by decide +kernel
  rw [name] at lists
  exact ⟨paired, tokens, by decide +kernel, by decide +kernel, by decide +kernel, lists⟩

end ScriptLexer

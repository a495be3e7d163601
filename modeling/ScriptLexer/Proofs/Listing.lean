import ScriptLexer.Command
import ScriptLexer.Proofs.TokenText

/-!
What the command line prints for a file. Main statement: there is one line for each token and then
nothing or the fault, and two runs that print the same have found the same tokens, up to their spans and
files, and a fault in both texts or in neither.
-/

namespace ScriptLexer

/-- All of a token but its span and its file. -/
def Token.shown (t : Token) : Kind × Value × Int × Int := (t.kind, t.value, t.line, t.column)

namespace Command

/-- The arguments ask for the tokens of a file, and it is there and holds the text. -/
structure Reads (find : Path → Found) (arguments : List String) (path : Path) (text : String) :
    Prop where
  asked : Invocation.ofArguments arguments = .tokenize path
  found : ∃ bytes cs, find path = .file bytes ∧ Text.Utf8.decode bytes = .ok cs ∧
    text = String.ofList (Text.normalizeNewlines cs)

/-- What is printed behind the tokens. -/
def faultText (r : LexResult) : String :=
  match r.error with
  | none => ""
  | some e => "Lexer error: " ++ e.message ++ "\n"

/-- One line for each token, then the fault if there is one, which the exit code tells. -/
structure Lists (o : Outcome) (r : LexResult) : Prop where
  stdout : o.stdout = printed (r.tokens.map Token.render) ++ faultText r
  lines : o.stdout.toList.splitOn '\n' =
    r.tokens.map (·.render.toList) ++ (faultText r).toList.splitOn '\n'
  ending : o.ending = .exit (if r.isComplete then 0 else 1)

theorem toList_printed_cons (x : String) (xs : List String) :
    (printed (x :: xs)).toList = x.toList ++ '\n' :: (printed xs).toList := by
  simp [printed]

theorem printed_printTokens (source file : String) :
    let r := (tokenize source file).answer
    printed (printTokens source file).lines = printed (r.tokens.map Token.render) ++ faultText r ∧
      (printTokens source file).ending = .exit (if r.isComplete then 0 else 1) := by
  intro r
  rw [printTokens, faultText, LexResult.isComplete]
  cases (tokenize source file).answer.error with
  | none => simp [r]
  | some e => simp [r, printed]

theorem Reads.run_eq {find : Path → Found} {arguments : List String} {path : Path} {text : String}
    (h : Reads find arguments path text) (time : String) :
    (run find time arguments).stdout = printed (printTokens text path.render).lines ∧
      (run find time arguments).ending = (printTokens text path.render).ending := by
  obtain ⟨asked, bytes, cs, found, decoded, rfl⟩ := h
  have performed : (Invocation.ofArguments arguments).perform find =
      printTokens (String.ofList (Text.normalizeNewlines cs)) path.render := by
    rw [asked, Invocation.perform, found, printFound]
    simp only [decoded]
  rw [run, performed]
  exact ⟨rfl, rfl⟩

theorem splitOn_listing (ts : List Token) (tail : List Char) :
    ((printed (ts.map Token.render)).toList ++ tail).splitOn '\n' =
      ts.map (·.render.toList) ++ tail.splitOn '\n' := by
  induction ts with
  | nil => simp [printed]
  | cons t ts ih =>
      rw [List.map_cons, toList_printed_cons, List.append_assoc, List.cons_append,
        List.splitOn_append_cons_self_of_not_mem t.newline_notMem_render, ih, List.map_cons,
        List.cons_append]

theorem Reads.lists {find : Path → Found} {arguments : List String} {path : Path} {text : String}
    (h : Reads find arguments path text) (time : String) :
    Lists (run find time arguments) (tokenize text path.render).answer := by
  obtain ⟨stdout, ending⟩ := h.run_eq time
  obtain ⟨lines, code⟩ := printed_printTokens text path.render
  rw [lines] at stdout
  rw [code] at ending
  refine ⟨stdout, ?_, ending⟩
  rw [stdout, String.toList_append, splitOn_listing]

/-- Lines of tokens end where the first character tells that no token follows. -/
theorem shown_of_listing_eq {ts us : List Token} {tail tail' : List Char}
    (h : tail.head? ≠ some 'T') (h' : tail'.head? ≠ some 'T')
    (same : (printed (ts.map Token.render)).toList ++ tail =
      (printed (us.map Token.render)).toList ++ tail') :
    ts.map Token.shown = us.map Token.shown ∧ tail = tail' := by
  have run (t : Token) (rest : List Char) :
      Text.LongestRun (· ≠ '\n') t.render.toList ('\n' :: rest) := by
    refine .cons_right (fun c mem => decide_eq_true ?_) (by simp)
    rintro rfl
    exact t.newline_notMem_render mem
  have starts (t : Token) (rest : List Char) : (t.render.toList ++ rest).head? = some 'T' := by
    rw [Token.toList_render]
    rfl
  induction ts generalizing us with
  | nil =>
      cases us with
      | nil => exact ⟨rfl, same⟩
      | cons u us =>
          rw [List.map_cons, toList_printed_cons, List.append_assoc] at same
          exact absurd ((congrArg List.head? same).trans (starts u _)) h
  | cons t ts ih =>
      rw [List.map_cons, toList_printed_cons, List.append_assoc, List.cons_append] at same
      cases us with
      | nil => exact absurd ((congrArg List.head? same).symm.trans (starts t _)) h'
      | cons u us =>
          rw [List.map_cons, toList_printed_cons, List.append_assoc, List.cons_append] at same
          obtain ⟨first, later⟩ := (run t _).unique (run u _) same
          obtain ⟨kind, value, line, column⟩ := Token.of_render_eq (String.toList_inj.mp first)
          obtain ⟨rest, tails⟩ := ih (List.cons.inj later).2
          refine ⟨?_, tails⟩
          rw [List.map_cons, List.map_cons, rest, Token.shown, kind, value, line, column,
            Token.shown]

theorem isEmpty_faultText (r : LexResult) : (faultText r).toList.isEmpty = r.isComplete := by
  rw [faultText, LexResult.isComplete]
  cases r.error with
  | none => rfl
  | some e => simp

theorem head?_faultText (r : LexResult) : (faultText r).toList.head? ≠ some 'T' := by
  rw [faultText]
  cases r.error with
  | none => decide
  | some e => simp

/-- What is printed for a file lists its tokens, one on each line, and then the fault if there is one;
and it tells the tokens, up to their spans and files, and whether there is a fault. -/
theorem stdout_tells_tokens {find find' : Path → Found} {arguments arguments' : List String}
    {path path' : Path} {text text' : String} (h : Reads find arguments path text)
    (h' : Reads find' arguments' path' text') (time time' : String) :
    let o := run find time arguments
    let o' := run find' time' arguments'
    let r := (tokenize text path.render).answer
    let r' := (tokenize text' path'.render).answer
    Lists o r ∧ Lists o' r' ∧
      (o.stdout = o'.stdout →
        r.tokens.map Token.shown = r'.tokens.map Token.shown ∧ r.isComplete = r'.isComplete) := by
  intro o o' r r'
  have lists : Lists o r := h.lists time
  have lists' : Lists o' r' := h'.lists time'
  refine ⟨lists, lists', fun same => ?_⟩
  have characters := congrArg String.toList same
  rw [lists.stdout, lists'.stdout, String.toList_append, String.toList_append] at characters
  obtain ⟨tokens, tails⟩ := shown_of_listing_eq (head?_faultText r) (head?_faultText r') characters
  exact ⟨tokens, by rw [← isEmpty_faultText, ← isEmpty_faultText, tails]⟩

/-- Comments, spellings of numbers and line ends are not shown; the fault behind them is. -/
theorem alike_but_for_comments :
    let tree (text : String) := FileTree.ofPaths [] [(Path.parse "a", text.toUTF8.data.toList)]
    let first := "x = 1.50;# one\n1..2"
    let second := "x = 1.5 ;# another\n1..2"
    let o := run (tree first).lookup "" ["tokenize", "a"]
    let o' := run (tree "x = 1.5 ;# another\r\n1..2").lookup "" ["tokenize", ".//a", "-v"]
    o.stdout = o'.stdout ∧ Lists o (tokenize first "a").answer ∧
      (tokenize first "a").answer.tokens.map Token.shown =
        (tokenize second "a").answer.tokens.map Token.shown ∧
      (tokenize first "a").answer.isTruncated = true := by
  intro tree first second o o'
  have reads : Reads (tree first).lookup ["tokenize", "a"] (Path.parse "a") first :=
    ⟨by decide +kernel, first.toUTF8.data.toList, first.toList, by decide +kernel,
      by decide +kernel, by decide +kernel⟩
  have reads' : Reads (tree "x = 1.5 ;# another\r\n1..2").lookup ["tokenize", ".//a", "-v"]
      (Path.parse "a") second :=
    ⟨by decide +kernel, "x = 1.5 ;# another\r\n1..2".toUTF8.data.toList,
      "x = 1.5 ;# another\r\n1..2".toList, by decide +kernel, by decide +kernel,
      by decide +kernel⟩
  have same : o.stdout = o'.stdout := by decide +kernel
  obtain ⟨lists, -, tells⟩ := stdout_tells_tokens reads reads' "" ""
  have name : (Path.parse "a").render = "a" := by decide +kernel
  rw [name] at lists tells
  exact ⟨same, lists, (tells same).1, by decide +kernel⟩

end Command
end ScriptLexer

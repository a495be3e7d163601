import ScriptLexer.Proofs.Listing

/-!
Outcomes of command lines. The words that are no verbose flags ask for one thing, and one of four things
comes of it: something is told, a text is lexed, a file cannot be read, or the words are refused. Main
statement: the words and the file system alone decide what is printed and how it ends, and the flags
decide how much of the log is shown.
-/

namespace ScriptLexer.Command

/-- The arguments but the verbose flags. -/
def positional (arguments : List String) : List String :=
  arguments.filter fun a => a ≠ "-v" ∧ a ≠ "--verbose"

/-- What words without flags ask for. -/
inductive Asks : List String → Invocation → Prop
  | nothing : Asks [] .nothing
  | help {word : String} (spelling : word = "--help" ∨ word = "-h") (more : List String) :
    Asks (word :: more) .help
  | version (more : List String) : Asks ("--version" :: more) .version
  | demo (more : List String) : Asks ("demo" :: more) .demo
  | tokenizeNothing : Asks ["tokenize"] .tokenizeNothing
  | tokenize (name : String) (more : List String) :
    Asks ("tokenize" :: name :: more) (.tokenize (Path.parse name))
  | unknown {word : String} (strange : word ∉ ["--help", "-h", "--version", "demo", "tokenize"])
    (more : List String) : Asks (word :: more) (.unknown word)

/-- The words ask for tokens: of this text, which has this name in messages. -/
inductive Lexes (find : Path → Found) : List String → String → String → Prop
  | demo (more : List String) : Lexes find ("demo" :: more) demoSource "<demo>"
  | file {name : String} {bytes : List UInt8} {cs : List Char} (more : List String)
    (found : find (Path.parse name) = .file bytes) (decoded : Text.Utf8.decode bytes = .ok cs) :
    Lexes find ("tokenize" :: name :: more) (String.ofList (Text.normalizeNewlines cs))
      (Path.parse name).render

/-- The words ask for the tokens of something that is there and is no text. -/
inductive Unreadable (find : Path → Found) : List String → ReadError → Prop
  | directory {name : String} (more : List String) (found : find (Path.parse name) = .directory) :
    Unreadable find ("tokenize" :: name :: more) (.isDirectory (Path.parse name).render)
  | nameTooLong {name : String} (more : List String) (found : find (Path.parse name) = .tooLong) :
    Unreadable find ("tokenize" :: name :: more) (.nameTooLong (Path.parse name).render)
  | notUtf8 {name : String} {bytes : List UInt8} {error : Text.Utf8.DecodeError}
    (more : List String) (found : find (Path.parse name) = .file bytes)
    (broken : Text.Utf8.decode bytes = .error error) :
    Unreadable find ("tokenize" :: name :: more) (.notUtf8 error)

/-- The words start with a command that never fails, or name a file that has no fault. -/
inductive Succeeds (find : Path → Found) : List String → Prop
  | word {word : String} (known : word ∈ ["--help", "-h", "--version", "demo"])
    (more : List String) : Succeeds find (word :: more)
  | file {name text file : String} {more : List String}
    (lexes : Lexes find ("tokenize" :: name :: more) text file)
    (complete : (tokenize text file).answer.isComplete) :
    Succeeds find ("tokenize" :: name :: more)

def warningText (e : LexError) : String := "Token stream truncated: " ++ e.message

def countText (file : String) (count : Nat) : String :=
  "Lexed " ++ file ++ ": " ++ toString count ++ " token(s)"

/-- What the log shows of a result: the fault if there is one, and in full also the count. -/
def shownLog (verbose : Bool) (time file : String) (r : LexResult) : List String :=
  if verbose then
    r.error.toList.map (time ++ " - tinyscript.lexer.lexer - WARNING - " ++ warningText ·) ++
      [time ++ " - tinyscript.lexer.lexer - DEBUG - " ++ countText file r.tokens.length]
  else r.error.toList.map warningText

section Arguments

variable {arguments words : List String} {i : Invocation}

theorem filter_isVerboseFlag (arguments : List String) :
    arguments.filter (!isVerboseFlag ·) = positional arguments := by
  refine List.filter_congr fun a _ => ?_
  simp [isVerboseFlag]

theorem any_isVerboseFlag (arguments : List String) :
    arguments.any isVerboseFlag = decide ("-v" ∈ arguments ∨ "--verbose" ∈ arguments) := by
  rw [Bool.eq_iff_iff, List.any_eq_true, decide_eq_true_iff]
  simp only [isVerboseFlag, Bool.or_eq_true, decide_eq_true_eq]
  constructor
  · rintro ⟨a, mem, rfl | rfl⟩
    · exact .inl mem
    · exact .inr mem
  · rintro (mem | mem)
    · exact ⟨_, mem, .inl rfl⟩
    · exact ⟨_, mem, .inr rfl⟩

theorem positional_positional (arguments : List String) :
    positional (positional arguments) = positional arguments := by
  simp [positional, List.filter_filter]

theorem asks_ofArguments (arguments : List String) :
    Asks (positional arguments) (Invocation.ofArguments arguments) := by
  rw [Invocation.ofArguments, filter_isVerboseFlag]
  cases positional arguments with
  | nil => exact .nothing
  | cons word operands =>
      dsimp only
      split_ifs with help version demo other
      · exact .help help operands
      · exact version ▸ .version operands
      · exact demo ▸ .demo operands
      · exact .unknown (by simp_all) operands
      · obtain rfl : word = "tokenize" := not_not.mp other
        cases operands with
        | nil => exact .tokenizeNothing
        | cons name more => exact .tokenize name more

theorem ofArguments_eq (h : Asks words i) (rest : positional arguments = words) :
    Invocation.ofArguments arguments = i := by
  rw [Invocation.ofArguments, filter_isVerboseFlag, rest]
  cases h with
  | nothing | version more | demo more | tokenizeNothing | tokenize name more => rfl
  | help spelling more => exact if_pos spelling
  | unknown strange more => simp_all

theorem ofArguments_positional (arguments : List String) :
    Invocation.ofArguments (positional arguments) = Invocation.ofArguments arguments :=
  ofArguments_eq (asks_ofArguments arguments) (positional_positional arguments)

end Arguments

section Effects

variable {find : Path → Found} {arguments words : List String}

theorem perform_of_lexes {text file : String} (h : Lexes find words text file)
    (rest : positional arguments = words) :
    (Invocation.ofArguments arguments).perform find = printTokens text file := by
  cases h with
  | demo more =>
      rw [ofArguments_eq (.demo more) rest]
      rfl
  | file more found decoded =>
      rw [ofArguments_eq (.tokenize _ more) rest, Invocation.perform, found, printFound]
      simp only [decoded]

theorem perform_of_unreadable {e : ReadError} (h : Unreadable find words e)
    (rest : positional arguments = words) :
    (Invocation.ofArguments arguments).perform find = ⟨[], [], .unread e⟩ := by
  cases h with
  | directory more found | nameTooLong more found =>
      rw [ofArguments_eq (.tokenize _ more) rest, Invocation.perform, found, printFound]
  | notUtf8 more found broken =>
      rw [ofArguments_eq (.tokenize _ more) rest, Invocation.perform, found, printFound]
      simp only [broken]

theorem isComplete_demo : (tokenize demoSource "<demo>").answer.isComplete = true := by
  decide +kernel

/-- Where no text is lexed and no error escapes, nothing is logged, and it ends well only for words that
never fail. -/
theorem Asks.perform_cases {i : Invocation} (h : Asks words i) (find : Path → Found) :
    (∃ text file, Lexes find words text file) ∨ (∃ e, Unreadable find words e) ∨
      ∃ lines, (i.perform find = ⟨lines, [], .exit 0⟩ ∧ Succeeds find words) ∨
        i.perform find = ⟨lines, [], .exit 1⟩ := by
  cases h with
  | nothing | tokenizeNothing | unknown strange more => exact .inr (.inr ⟨_, .inr rfl⟩)
  | help spelling more =>
      refine .inr (.inr ⟨_, .inl ⟨rfl, .word ?_ more⟩⟩)
      obtain rfl | rfl := spelling <;> decide
  | version more => exact .inr (.inr ⟨_, .inl ⟨rfl, .word (by decide) more⟩⟩)
  | demo more => exact .inl ⟨_, _, .demo more⟩
  | tokenize name more =>
      cases found : find (Path.parse name) with
      | missing =>
          refine .inr (.inr ⟨["Error: file not found: " ++ (Path.parse name).render], .inr ?_⟩)
          rw [Invocation.perform, found, printFound]
      | tooLong => exact .inr (.inl ⟨_, .nameTooLong more found⟩)
      | directory => exact .inr (.inl ⟨_, .directory more found⟩)
      | file bytes =>
          cases decoded : Text.Utf8.decode bytes with
          | error e => exact .inr (.inl ⟨_, .notUtf8 more found decoded⟩)
          | ok cs => exact .inl ⟨_, _, .file more found decoded⟩

theorem Lexes.succeeds {text file : String} (h : Lexes find words text file)
    (complete : (tokenize text file).answer.isComplete) : Succeeds find words := by
  cases h with
  | demo more => exact .word (by decide) more
  | file more found decoded => exact .file (.file more found decoded) complete

theorem ending_of_succeeds (h : Succeeds find words) (rest : positional arguments = words) :
    ((Invocation.ofArguments arguments).perform find).ending = .exit 0 := by
  cases h with
  | file lexes complete =>
      rw [perform_of_lexes lexes rest, (printed_printTokens _ _).2, if_pos complete]
  | word known more =>
      simp only [List.mem_cons, List.not_mem_nil, or_false] at known
      obtain rfl | rfl | rfl | rfl := known
      · rw [ofArguments_eq (.help (.inl rfl) more) rest]
        rfl
      · rw [ofArguments_eq (.help (.inr rfl) more) rest]
        rfl
      · rw [ofArguments_eq (.version more) rest]
        rfl
      · rw [perform_of_lexes (.demo more) rest, (printed_printTokens _ _).2,
          if_pos isComplete_demo]

theorem run_ending_cases (find : Path → Found) (time : String) (arguments : List String) :
    let words := positional arguments
    let ending := (run find time arguments).ending
    (ending = .exit 0 ∧ Succeeds find words) ∨ ending = .exit 1 ∨
      ∃ e, ending = .unread e ∧ Unreadable find words e := by
  intro words ending
  obtain ⟨text, file, lexes⟩ | ⟨e, unreadable⟩ | ⟨lines, ⟨performed, succeeds⟩ | performed⟩ :=
    (asks_ofArguments arguments).perform_cases find
  · have code :
        ending = .exit (if (tokenize text file).answer.isComplete then 0 else 1) := by
      rw [← (printed_printTokens text file).2, ← perform_of_lexes lexes rfl]
      rfl
    by_cases complete : (tokenize text file).answer.isComplete
    · exact .inl ⟨by rw [code, if_pos complete], lexes.succeeds complete⟩
    · exact .inr (.inl (by rw [code, if_neg complete]))
  · exact .inr (.inr ⟨e, congrArg Effect.ending (perform_of_unreadable unreadable rfl), unreadable⟩)
  · exact .inl ⟨congrArg Effect.ending performed, succeeds⟩
  · exact .inr (.inl (congrArg Effect.ending performed))

theorem run_succeeds_iff (find : Path → Found) (time : String) (arguments : List String) :
    (run find time arguments).ending = .exit 0 ↔ Succeeds find (positional arguments) := by
  refine ⟨fun exits => ?_, fun h => ending_of_succeeds h rfl⟩
  obtain ⟨-, h⟩ | fails | ⟨e, escapes, -⟩ := run_ending_cases find time arguments
  · exact h
  · cases exits.symm.trans fails
  · cases exits.symm.trans escapes

theorem run_escapes_iff (find : Path → Found) (time : String) (arguments : List String)
    (e : ReadError) :
    (run find time arguments).ending = .unread e ↔ Unreadable find (positional arguments) e := by
  refine ⟨fun escapes => ?_, fun h => congrArg Effect.ending (perform_of_unreadable h rfl)⟩
  obtain ⟨exits, -⟩ | fails | ⟨e', escapes', h⟩ := run_ending_cases find time arguments
  · cases escapes.symm.trans exits
  · cases escapes.symm.trans fails
  · cases escapes.symm.trans escapes'
    exact h

theorem run_fails_iff (find : Path → Found) (time : String) (arguments : List String) :
    (run find time arguments).ending = .exit 1 ↔
      ¬ Succeeds find (positional arguments) ∧ ∀ e, ¬ Unreadable find (positional arguments) e := by
  constructor
  · intro fails
    refine ⟨fun h => ?_, fun e h => ?_⟩
    · cases ((run_succeeds_iff find time arguments).mpr h).symm.trans fails
    · cases ((run_escapes_iff find time arguments e).mpr h).symm.trans fails
  · rintro ⟨unsuccessful, readable⟩
    obtain ⟨-, h⟩ | fails | ⟨e, -, h⟩ := run_ending_cases find time arguments
    · exact absurd h unsuccessful
    · exact fails
    · exact absurd h (readable e)

theorem records_printTokens (source file : String) :
    let r := (tokenize source file).answer
    (printTokens source file).records =
      r.error.toList.map Lexer.truncatedRecord ++ [Lexer.countRecord file r.tokens.length] := by
  intro r
  have logged : (tokenize source file).records =
      r.error.toList.map Lexer.truncatedRecord ++ [Lexer.countRecord file r.tokens.length] := rfl
  rw [← logged, printTokens]
  split
  · rfl
  · rfl

/-- Every record of a lexer carries the same name. -/
theorem line_of_lexer (time : String) (level : Log.Level) (message : String) :
    Log.Record.line time ⟨level, Lexer.logger, message⟩ =
      time ++ (" - tinyscript.lexer.lexer - " ++ level.name ++ " - ") ++ message := by
  rw [Lexer.logger_eq]
  cases level with
  | debug | warning =>
      simp only [Log.Record.line, Log.Level.name, String.append_assoc]
      rfl

theorem line_truncatedRecord (time : String) (e : LexError) :
    (Lexer.truncatedRecord e).line time =
      time ++ " - tinyscript.lexer.lexer - WARNING - " ++ warningText e :=
  line_of_lexer time .warning (warningText e)

theorem line_countRecord (time file : String) (count : Nat) :
    (Lexer.countRecord file count).line time =
      time ++ " - tinyscript.lexer.lexer - DEBUG - " ++ countText file count :=
  line_of_lexer time .debug (countText file count)

theorem logLines_printTokens (verbose : Bool) (time source file : String) :
    logLines verbose time (printTokens source file).records =
      shownLog verbose time file (tokenize source file).answer := by
  rw [records_printTokens, logLines, shownLog]
  cases verbose with
  | true =>
      simp only [if_true, List.map_append, List.map_map, List.map_singleton, line_countRecord,
        Function.comp_def, line_truncatedRecord]
  | false =>
      cases (tokenize source file).answer.error with
      | none => rfl
      | some e => rfl

/-- What is logged is all about the text that is lexed. -/
theorem records_of_not_lexes (unlexed : ∀ text file, ¬ Lexes find (positional arguments) text file) :
    ((Invocation.ofArguments arguments).perform find).records = [] := by
  obtain ⟨text, file, lexes⟩ | ⟨e, unreadable⟩ | ⟨lines, ⟨performed, -⟩ | performed⟩ :=
    (asks_ofArguments arguments).perform_cases find
  · exact absurd lexes (unlexed text file)
  · exact congrArg Effect.records (perform_of_unreadable unreadable rfl)
  · exact congrArg Effect.records performed
  · exact congrArg Effect.records performed

/-- Verbose flags do not change what is printed and how it ends, wherever they stand; they set the
level of the log. The exit code tells whether the words succeed. An error escapes only if something that
is there cannot be read, and then nothing is printed. The log is that of the text that was lexed, if any. -/
theorem run_outcome (find : Path → Found) (time : String) (arguments : List String) :
    let o := run find time arguments
    let words := positional arguments
    let verbose : Bool := "-v" ∈ arguments ∨ "--verbose" ∈ arguments
    (∀ time', o.stdout = (run find time' words).stdout ∧
        o.ending = (run find time' words).ending) ∧
      o.threshold = (if verbose then .debug else .warning) ∧
      (o.ending = .exit 0 ↔ Succeeds find words) ∧
      (o.ending = .exit 1 ↔ ¬ Succeeds find words ∧ ∀ e, ¬ Unreadable find words e) ∧
      (∀ e, o.ending = .unread e ↔ Unreadable find words e) ∧
      (∀ e, o.ending = .unread e → o.stdout = "") ∧
      (∀ text file, Lexes find words text file →
        o.stderr = printed (shownLog verbose time file (tokenize text file).answer)) ∧
      ((∀ text file, ¬ Lexes find words text file) → o.stderr = "") := by
  intro o words verbose
  have flags : arguments.any isVerboseFlag = verbose := any_isVerboseFlag arguments
  have unreadable := run_escapes_iff find time arguments
  refine ⟨fun time' => ?_, ?_, run_succeeds_iff find time arguments,
    run_fails_iff find time arguments, unreadable, fun e escapes => ?_, fun text file lexes => ?_,
    fun unlexed => ?_⟩
  · simp only [o, words, run, ofArguments_positional, and_self]
  · simp only [o, run, flags]
  · have performed := perform_of_unreadable ((unreadable e).mp escapes) rfl
    simp only [o, run, performed]
    rfl
  · simp only [o, run, perform_of_lexes lexes rfl, flags, logLines_printTokens]
  · simp only [o, run, records_of_not_lexes unlexed, logLines]
    cases arguments.any isVerboseFlag with
    | true => rfl
    | false => rfl

/-- A flag takes the place of nothing, so it names no file. -/
example (find : Path → Found) (time : String) :
    (run find time ["tokenize", "-v"]).stdout =
      "Error: command 'tokenize' requires a file argument\n" := by
  rfl

end Effects
end ScriptLexer.Command

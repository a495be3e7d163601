import ScriptLexer.Proofs.CommandLine
import ScriptLexer.Proofs.Translation

/-!
The normal form of path arguments. What is kept of an argument is its root, told by the slashes in
front, and its parts that are not idle; put together again with one slash between them, they make the
text that is shown. Main statement: this text is its own normal form, two arguments are shown alike
exactly if they agree in root and parts, and a command line does the same for an argument and for the
text that is shown for it.
-/

namespace ScriptLexer

namespace Path

/-- A path argument as messages and tokens show it. -/
def shown (argument : String) : String := (parse argument).render

/-- Two slashes in front are a root of their own; any other number of them means one. -/
def rootText : List Char → List Char
  | '/' :: '/' :: '/' :: _ => ['/']
  | '/' :: '/' :: _ => ['/', '/']
  | '/' :: _ => ['/']
  | _ => []

/-- The parts between slashes that are neither empty nor a single dot. -/
def components (cs : List Char) : List (List Char) :=
  (cs.splitOn '/').filter fun part => part ≠ [] ∧ part ≠ ['.']

def normalText (cs : List Char) : List Char :=
  if rootText cs = [] ∧ components cs = [] then ['.']
  else rootText cs ++ ['/'].intercalate (components cs)

/-- A text that can stand between slashes and does not idle there. -/
structure IsName (name : List Char) : Prop where
  ne_nil : name ≠ []
  ne_dot : name ≠ ['.']
  no_slash : '/' ∉ name

section Parsing

theorem pieces_eq_splitOn (cs : List Char) : pieces cs = cs.splitOn '/' := by
  induction cs with
  | nil => rfl
  | cons c cs ih =>
      rw [pieces, ih, List.splitOn_cons_eq_if_modifyHead]
      simp only [beq_iff_eq]

theorem takeWhile_slash {cs : List Char} (h : ∀ ds, cs ≠ '/' :: ds) :
    cs.takeWhile (· = '/') = [] := by
  cases cs with
  | nil => rfl
  | cons c cs =>
      have other : c ≠ '/' := fun same => h cs (same ▸ rfl)
      simp [other]

theorem chars_root_parse (s : String) : (parse s).root.chars = rootText s.toList := by
  rw [parse]
  generalize s.toList = cs
  unfold rootText
  split
  · simp [Root.ofSlashes, Root.chars]
  · next stop => simp [takeWhile_slash stop, Root.ofSlashes, Root.chars]
  · next stop => simp [takeWhile_slash stop, Root.ofSlashes, Root.chars]
  · next stop =>
      rw [takeWhile_slash stop]
      rfl

theorem names_parse (s : String) :
    (parse s).names.map String.toList = components s.toList := by
  rw [parse, List.map_map, pieces_eq_splitOn, components]
  simp [Function.comp_def, isIdle]

theorem chars_injective {r r' : Root} (h : r.chars = r'.chars) : r = r' := by
  cases r <;> cases r' <;> first | rfl | cases h

/-- Root and parts are all that is kept of an argument. -/
theorem parse_eq_iff {s t : String} :
    parse s = parse t ↔
      rootText s.toList = rootText t.toList ∧ components s.toList = components t.toList := by
  rw [← chars_root_parse, ← chars_root_parse, ← names_parse, ← names_parse]
  constructor
  · intro same
    rw [same]
    exact ⟨rfl, rfl⟩
  · intro same
    have root := chars_injective same.1
    have names := List.map_injective_iff.mpr (fun _ _ => String.toList_inj.mp) same.2
    calc parse s = ⟨(parse s).root, (parse s).names⟩ := rfl
      _ = ⟨(parse t).root, (parse t).names⟩ := by rw [root, names]

theorem toList_shown (s : String) : (shown s).toList = normalText s.toList := by
  have bare : (parse s).root = .none ↔ rootText s.toList = [] := by
    rw [← chars_root_parse]
    cases (parse s).root <;> simp [Root.chars]
  have alone : (parse s).names = [] ↔ components s.toList = [] := by
    rw [← names_parse, List.map_eq_nil_iff]
  rw [shown, render, normalText]
  simp only [bare, alone, chars_root_parse, names_parse]
  split
  · rfl
  · rw [String.toList_ofList]

end Parsing

section Components

variable {cs : List Char} {names : List (List Char)}

theorem slash_notMem_splitOn (cs : List Char) : ∀ part ∈ cs.splitOn '/', '/' ∉ part := by
  induction cs with
  | nil => simp
  | cons c cs ih =>
      rw [List.splitOn_cons_eq_if_modifyHead]
      split
      · simpa using ih
      · next plain =>
          obtain ⟨part, parts, split⟩ := List.exists_cons_of_ne_nil (List.splitOn_ne_nil '/' cs)
          have other : '/' ≠ c := fun same => plain (beq_iff_eq.mpr same.symm)
          rw [split] at ih ⊢
          simpa [other] using ih

theorem isName_components (cs : List Char) : ∀ part ∈ components cs, IsName part := by
  intro part mem
  obtain ⟨found, kept⟩ := List.mem_filter.mp mem
  obtain ⟨ne_nil, ne_dot⟩ := of_decide_eq_true kept
  exact ⟨ne_nil, ne_dot, slash_notMem_splitOn cs part found⟩

theorem components_slash (cs : List Char) : components ('/' :: cs) = components cs := by
  rw [components, ← List.nil_append ('/' :: cs), List.splitOn_append_cons_self, List.filter_append]
  rfl

theorem splitOn_intercalate_names (h : ∀ name ∈ names, IsName name) (some_there : names ≠ []) :
    (['/'].intercalate names).splitOn '/' = names :=
  List.splitOn_intercalate '/' (fun name mem => (h name mem).no_slash) some_there

/-- Joined by slashes, names come apart again as they were, and none of them idles. -/
theorem components_intercalate (h : ∀ name ∈ names, IsName name) :
    components (['/'].intercalate names) = names := by
  by_cases empty : names = []
  · subst empty
    rfl
  · rw [components, splitOn_intercalate_names h empty, List.filter_eq_self]
    exact fun name mem => decide_eq_true ⟨(h name mem).ne_nil, (h name mem).ne_dot⟩

/-- The slashes of joined names stand neither in front nor behind, where a part would be empty. -/
theorem slash_inside (h : ∀ name ∈ names, IsName name) {front back : List Char}
    (same : ['/'].intercalate names = front ++ '/' :: back) : front ≠ [] ∧ back ≠ [] := by
  have some_there : names ≠ [] := by
    intro empty
    subst empty
    simp at same
  have parts : names = front.splitOn '/' ++ back.splitOn '/' := by
    rw [← List.splitOn_append_cons_self, ← same, splitOn_intercalate_names h some_there]
  have full : [] ∉ names := fun mem => (h [] mem).ne_nil rfl
  constructor
  · intro empty
    subst empty
    exact full (by simp [parts])
  · intro empty
    subst empty
    exact full (by simp [parts])

theorem rootText_cases (cs : List Char) :
    rootText cs = [] ∨ rootText cs = ['/'] ∨ rootText cs = ['/', '/'] := by
  unfold rootText
  split <;> simp

theorem rootText_append {tail : List Char} (cs : List Char) (stop : ∀ ds, tail ≠ '/' :: ds) :
    rootText (rootText cs ++ tail) = rootText cs := by
  cases tail with
  | nil => obtain root | root | root := rootText_cases cs <;> rw [root] <;> rfl
  | cons c tail =>
      have other : c ≠ '/' := fun same => stop tail (same ▸ rfl)
      obtain root | root | root := rootText_cases cs <;> rw [root] <;> simp [rootText, other]

theorem components_rootText_append (cs tail : List Char) :
    components (rootText cs ++ tail) = components tail := by
  obtain root | root | root := rootText_cases cs
  · rw [root, List.nil_append]
  · rw [root, List.singleton_append, components_slash]
  · rw [root, List.cons_append, List.singleton_append, components_slash, components_slash]

theorem rootText_normalText (cs : List Char) : rootText (normalText cs) = rootText cs := by
  rw [normalText]
  split
  · next idle =>
      rw [idle.1]
      rfl
  · exact rootText_append cs fun ds same => (slash_inside (isName_components cs) same).1 rfl

theorem components_normalText (cs : List Char) : components (normalText cs) = components cs := by
  rw [normalText]
  split
  · next idle =>
      rw [idle.2]
      rfl
  · rw [components_rootText_append, components_intercalate (isName_components cs)]

/-- The text that is shown for an argument leads where the argument leads. -/
theorem parse_shown (s : String) : parse (shown s) = parse s := by
  rw [parse_eq_iff, toList_shown]
  exact ⟨rootText_normalText s.toList, components_normalText s.toList⟩

/-- Only a root that stands alone has its slash behind. -/
theorem normalText_of_getLast? (h : (normalText cs).getLast? = some '/') :
    normalText cs = ['/'] ∨ normalText cs = ['/', '/'] := by
  rw [normalText] at h ⊢
  split at h
  · cases h
  · next idle =>
      have parts := isName_components cs
      rw [if_neg idle]
      by_cases joined : ['/'].intercalate (components cs) = []
      · have alone : components cs = [] := by
          rw [← components_intercalate parts, joined]
          rfl
        have rooted : rootText cs ≠ [] := fun bare => idle ⟨bare, alone⟩
        rw [joined, List.append_nil]
        exact (rootText_cases cs).resolve_left rooted
      · rw [List.getLast?_append_of_ne_nil _ joined] at h
        obtain ⟨front, last⟩ := List.getLast?_eq_some_iff.mp h
        exact absurd rfl (slash_inside parts last).2

end Components

/-- A flag is its own normal form, so what is shown as something else is no flag. -/
theorem shown_flag : ∀ flag ∈ ["-v", "--verbose"], shown flag = flag := by
  decide +kernel

end Path

namespace Command

/-- What a run comes to for what is found at a path, if the path has this name in all that is shown and
in all tokens and faults. What is said of a text that is not UTF-8 does not name the path. -/
def Calls (name : String) (verbose : Bool) (time : String) (o : Outcome) : Found → Prop
  | .missing =>
    o.stdout = "Error: file not found: " ++ name ++ "\n" ∧ o.stderr = "" ∧ o.ending = .exit 1
  | .tooLong => o.stdout = "" ∧ o.stderr = "" ∧ o.ending = .unread (.nameTooLong name)
  | .directory => o.stdout = "" ∧ o.stderr = "" ∧ o.ending = .unread (.isDirectory name)
  | .file bytes =>
    ∀ cs, Text.Utf8.decode bytes = .ok cs →
      let r := (tokenize (String.ofList (Text.normalizeNewlines cs)) name).answer
      Lists o r ∧ o.stderr = printed (shownLog verbose time name r) ∧
        (∀ t ∈ r.tokens, t.file = name) ∧ ∀ e ∈ r.error, e.file = name

section PathArgument

variable {find : Path → Found} {time : String} {front : List String} {a b : String}

/-- The first argument behind the command that is no flag is the path. -/
theorem ofArguments_path (asks : positional front = ["tokenize"]) (back : List String)
    (plain : a ∉ ["-v", "--verbose"]) :
    Invocation.ofArguments (front ++ a :: back) = .tokenize (Path.parse a) := by
  have kept : positional (a :: back) = a :: positional back :=
    List.filter_cons_of_pos (by simpa using plain)
  refine ofArguments_eq (.tokenize a (positional back)) ?_
  rw [positional, List.filter_append, ← positional, ← positional, asks, kept]
  rfl

/-- A command line does the same for two arguments that are the same path. -/
theorem run_of_parse_eq (asks : positional front = ["tokenize"]) (back : List String)
    (plain : a ∉ ["-v", "--verbose"]) (plain' : b ∉ ["-v", "--verbose"])
    (same : Path.parse a = Path.parse b) :
    run find time (front ++ a :: back) = run find time (front ++ b :: back) := by
  have flags : (front ++ a :: back).any isVerboseFlag = (front ++ b :: back).any isVerboseFlag := by
    have no_flag {c : String} (h : c ∉ ["-v", "--verbose"]) : isVerboseFlag c = false := by
      simpa [isVerboseFlag] using h
    rw [List.any_append, List.any_append, List.any_cons, List.any_cons, no_flag plain,
      no_flag plain']
  rw [run, run, flags, ofArguments_path asks back plain, ofArguments_path asks back plain', same]

theorem printed_logLines_nil (verbose : Bool) (time : String) :
    printed (logLines verbose time []) = "" := by
  cases verbose with
  | true | false => rfl

theorem calls_shown (asks : positional front = ["tokenize"]) (back : List String)
    (plain : a ∉ ["-v", "--verbose"]) :
    let arguments := front ++ a :: back
    Calls (Path.shown a) ("-v" ∈ arguments ∨ "--verbose" ∈ arguments) time
      (run find time arguments) (find (Path.parse a)) := by
  intro arguments
  have asked : Invocation.ofArguments arguments = .tokenize (Path.parse a) :=
    ofArguments_path asks back plain
  have performed : (Invocation.ofArguments arguments).perform find =
      printFound (Path.shown a) (find (Path.parse a)) := by
    rw [asked]
    rfl
  cases found : find (Path.parse a) with
  | missing | tooLong | directory =>
      rw [found] at performed
      simp only [Calls, run, performed, printFound, printed_logLines_nil, and_true]
      rfl
  | file bytes =>
      intro cs decoded r
      have reads : Reads find arguments (Path.parse a)
          (String.ofList (Text.normalizeNewlines cs)) :=
        ⟨asked, bytes, cs, found, decoded, rfl⟩
      refine ⟨reads.lists time, ?_, fun t => Division.file_of_mem_tokenize,
        fun e => file_of_tokenize_error⟩
      rw [found] at performed
      simp only [run, performed, printFound, decoded, logLines_printTokens, any_isVerboseFlag]
      rfl

end PathArgument

end Command

namespace Path

/-- A path argument is shown by its root and its parts that are not idle, or as a dot if it has
neither. This is its own normal form and the one of every argument with the same root and parts, and it
has a slash behind only as a bare root. Wherever the argument stands in a command line, it has this name
in all that is printed and logged; and with the name in its place the command line does the same, unless
the name would be taken for a flag. -/
theorem shown_normal_form (a : String) :
    (shown a).toList = normalText a.toList ∧ shown (shown a) = shown a ∧
      parse (shown a) = parse a ∧
      (∀ b, shown a = shown b ↔
        rootText a.toList = rootText b.toList ∧ components a.toList = components b.toList) ∧
      ((shown a).toList.getLast? = some '/' ↔ shown a = "/" ∨ shown a = "//") ∧
      ∀ (find : Path → Found) (time : String) (front back : List String),
        Command.positional front = ["tokenize"] →
          let arguments := front ++ a :: back
          let o := Command.run find time arguments
          (a ∉ ["-v", "--verbose"] →
            Command.Calls (shown a) ("-v" ∈ arguments ∨ "--verbose" ∈ arguments) time o
              (find (parse a))) ∧
          (shown a ∉ ["-v", "--verbose"] →
            o = Command.run find time (front ++ shown a :: back)) := by
  have again : shown (shown a) = shown a := congrArg render (parse_shown a)
  refine ⟨toList_shown a, again, parse_shown a, ?_, ?_, ?_⟩
  · intro b
    rw [← parse_eq_iff]
    constructor
    · intro same
      rw [← parse_shown a, same, parse_shown b]
    · intro same
      exact congrArg render same
  · rw [← String.toList_inj, ← String.toList_inj, toList_shown]
    constructor
    · exact normalText_of_getLast?
    · intro root
      obtain root | root := root <;> rw [root] <;> rfl
  · intro find time front back asks arguments o
    refine ⟨Command.calls_shown asks back, fun plain => ?_⟩
    have plain' : a ∉ ["-v", "--verbose"] := by
      intro flag
      rw [shown_flag a flag] at plain
      exact plain flag
    exact Command.run_of_parse_eq asks back plain' plain (parse_shown a).symm

/-- Dots that are part of a name stay; the file `-v` in the working directory is shown as a flag. -/
example :
    [".//a/./../b/", "//", "///.", "/./a//", "//./a", "", "./...", "./-v"].map shown =
      ["a/../b", "//", "/", "/a", "//a", ".", "...", "-v"] := by
  decide +kernel

end Path
end ScriptLexer

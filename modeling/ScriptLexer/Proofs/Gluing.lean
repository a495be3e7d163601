import ScriptLexer.Proofs.Unparsing

/-!
Lexemes without the gap that they need. A word takes in a word part behind it and becomes another
word; a number takes in characters of numbers, and then there is a fault, or a lexeme fewer, or only
the rest of a word behind it. Main statement: spaced lexemes are read back as they are, taking a
needed gap away shows in the kinds and values, and every complete text is made of spaced lexemes.
-/

namespace ScriptLexer

namespace Text.LongestRun

/-- Characters of the class at the start of a text belong to its longest run. -/
theorem exists_append {p : Char → Bool} {run rest front cs : List Char}
    (h : LongestRun p run rest) (same : run ++ rest = front ++ cs)
    (hp : ∀ c ∈ front, p c = true) :
    ∃ more, run = front ++ more ∧ more ++ rest = cs ∧ LongestRun p more rest := by
  induction front generalizing run with
  | nil => exact ⟨run, rfl, same, h⟩
  | cons c front ih =>
      rw [List.cons_append] at same
      obtain ⟨ds, rfl, same'⟩ := h.exists_cons same (hp c List.mem_cons_self)
      have shorter : LongestRun p ds rest :=
        ⟨fun d hd => h.all d (List.mem_cons_of_mem _ hd), h.stops⟩
      obtain ⟨more, rfl, behind⟩ := ih shorter same' fun d hd => hp d (List.mem_cons_of_mem _ hd)
      exact ⟨more, rfl, behind⟩

theorem ne_nil {p : Char → Bool} {run rest : List Char} (h : LongestRun p run rest) {c : Char}
    (hc : c ∈ (run ++ rest).head?) (hp : p c = true) : run ≠ [] := by
  rintro rfl
  rw [h.stops c hc] at hp
  cases hp

end Text.LongestRun

namespace Lexeme

theorem numberCharacters_start :
    ∀ c ∈ numberCharacters, startsNumber c = true ∨ startsWord c = true := by
  have all : (numberCharacters.all fun c => startsNumber c || startsWord c) = true := by decide
  simpa only [List.all_eq_true, Bool.or_eq_true] using all

theorem numberCharacters_wordParts :
    ∀ c ∈ numberCharacters, isWordPart c = true ∨ c = '.' := by
  have all : (numberCharacters.all fun c => isWordPart c || decide (c = '.')) = true := by decide
  simpa only [List.all_eq_true, Bool.or_eq_true, decide_eq_true_eq] using all

theorem punctuation_not_wordParts : ∀ p ∈ Kind.punctuation, isWordPart p.1 = false := by
  decide +kernel

/-- A word part starts a word, a number or an operator. -/
theorem startsOperator_of_isWordPart {c : Char} (part : isWordPart c = true)
    (word : startsWord c = false) (number : startsNumber c = false) :
    Text.isBlank c = false ∧ Shape.StartsWith c .operator := by
  constructor
  · rw [Bool.eq_false_iff]
    intro blank
    rw [isWordPart_of_isBlank blank] at part
    cases part
  · refine .operator ?_ ?_ number word
    · intro kind listed
      rw [punctuation_not_wordParts _ listed] at part
      cases part
    · rintro rfl
      exact absurd part (by decide +kernel)

end Lexeme

namespace Written

theorem ofWord_injective {cs ds : List Char} (h : ofWord cs = ofWord ds) : cs = ds := by
  have same : String.ofList cs = String.ofList ds := by
    simp only [ofWord] at h
    cases hk : Keyword.ofSpelling? (String.ofList cs) with
    | none =>
        cases hl : Keyword.ofSpelling? (String.ofList ds) with
        | none =>
            rw [hk, hl] at h
            exact Value.text.inj (congrArg Prod.snd h)
        | some l =>
            rw [hk, hl] at h
            cases congrArg Prod.fst h
    | some k =>
        cases hl : Keyword.ofSpelling? (String.ofList ds) with
        | none =>
            rw [hk, hl] at h
            cases congrArg Prod.fst h
        | some l =>
            rw [hk, hl] at h
            obtain rfl := Value.keyword.inj (congrArg Prod.snd h)
            rw [← Keyword.ofSpelling?_eq_some_iff.mp hk, ← Keyword.ofSpelling?_eq_some_iff.mp hl]
  simpa using congrArg String.toList same

/-- What starts with a character of numbers is a number or a word. -/
theorem of_numberCharacter {l : Written} {c : Char} (hc : c ∈ l.text.head?)
    (h : c ∈ Lexeme.numberCharacters) :
    (∃ n, l = .number n) ∨ ∃ ds starts parts, l = .word c ds starts parts := by
  have start := Lexeme.numberCharacters_start c h
  cases l with
  | number n => exact .inl ⟨n, rfl⟩
  | word d ds starts parts =>
      obtain rfl : d = c := by simpa [text] using hc
      exact .inr ⟨ds, starts, parts, rfl⟩
  | punctuation d kind listed =>
      obtain rfl : d = c := by simpa [text] using hc
      have none_of := (Lexeme.punctuation_starts_nothing_else _ listed).2.2
      simp [none_of] at start
  | operator d visible starts =>
      obtain rfl : d = c := by simpa [text] using hc
      cases starts with
      | operator _ _ number word => simp [number, word] at start
  | comment body inside | openComment body inside =>
      obtain rfl : '#' = c := by simpa [text] using hc
      exact absurd h (by decide)

end Written

/-- No lexeme reaches into what is written behind it. -/
theorem Spacing.stops {p : Spaced} {ps : List Spaced} {last : List Char}
    (h : Spacing (p :: ps) last) :
    ∀ c ∈ (unparse ps last).head?, p.lexeme.takesIn c = false := by
  cases ps with
  | nil => exact fun c hc => p.lexeme.takesIn_of_isBlank (h.last c (List.mem_of_mem_head? hc))
  | cons q qs =>
      have joined := (List.isChain_cons_cons.mp h.joins).1
      have stops := joined.stops (h.gaps q (by simp)) (unparse qs last)
      rwa [Spaced.text, List.append_assoc, ← unparse_cons] at stops

theorem Spacing.suffix {ps qs : List Spaced} {last : List Char} (h : Spacing ps last)
    (later : qs <:+ ps) : Spacing qs last :=
  ⟨fun p hp => h.gaps p (later.mem hp), h.last, h.joins.suffix later⟩

/-- A point starts nothing but a number. -/
theorem Spaced.exists_number_of_point {p : Spaced} {ps : List Spaced} {last : List Char}
    (blank : ∀ c ∈ p.gap, Text.isBlank c = true) (point : '.' ∈ (unparse (p :: ps) last).head?) :
    ∃ n, p = ⟨[], .number n⟩ := by
  obtain ⟨gap, lexeme⟩ := p
  rw [unparse_cons] at point
  cases gap with
  | cons c cs =>
      obtain rfl : c = '.' := by simpa using point
      exact absurd (blank '.' List.mem_cons_self) (by decide)
  | nil =>
      obtain ⟨c, cs, text, -⟩ := lexeme.exists_first
      have first : '.' ∈ lexeme.text.head? := by
        rw [text] at point ⊢
        exact point
      obtain ⟨n, rfl⟩ | ⟨ds, starts, parts, rfl⟩ := Written.of_numberCharacter first (by decide)
      · exact ⟨n, rfl⟩
      · exact absurd starts (by decide)

namespace Division

/-- A word that goes on behind its end is another word. -/
theorem exists_divides_word {gap : List Char} (blank : ∀ c ∈ gap, Text.isBlank c = true) {d : Char}
    {ds cs : List Char} (starts : Lexeme.startsWord d = true)
    (parts : ∀ c ∈ ds, Lexeme.isWordPart c = true) {c : Char} (hc : c ∈ cs.head?)
    (part : Lexeme.isWordPart c = true) :
    ∃ e : Division, e.Divides (gap ++ (d :: ds ++ cs)) ∧
      ∀ later, e.contents ≠ Written.ofWord (d :: ds) :: later := by
  obtain ⟨run, rest, same, longest⟩ :=
    Text.LongestRun.exists_split Lexeme.isWordPart (d :: ds ++ cs)
  obtain ⟨more, rfl, rfl, onward⟩ := longest.exists_append same (Lexeme.word_parts starts parts)
  obtain ⟨e, he⟩ := exists_divides rest
  have reads : Lexeme.Reads (d :: (ds ++ more)) rest _ _ := Written.reads_word starts longest
  have divides := he.cons blank reads
  rw [List.cons_append, List.append_assoc] at divides
  refine ⟨_, divides, fun later equal => onward.ne_nil hc part ?_⟩
  have first := Written.ofWord_injective (List.cons.inj equal).1
  exact List.append_right_eq_self.mp (List.cons.inj first).2

/-- The rest of a word, read on its own, is not the word. -/
theorem exists_divides_wordRest {front ds rest : List Char} {d : Char} (longer : front ≠ [])
    (parts : ∀ c ∈ d :: ds, Lexeme.isWordPart c = true) (number : d ∉ Lexeme.numberCharacters)
    (stops : ∀ c ∈ rest.head?, Lexeme.isWordPart c = false) :
    ∃ e : Division, e.Divides (d :: ds ++ rest) ∧
      ∀ later, e.contents ≠ Written.ofWord (front ++ d :: ds) :: later := by
  cases starts : Lexeme.startsWord d with
  | true =>
      obtain ⟨e, he⟩ := exists_divides rest
      refine ⟨_, he.cons (List.forall_mem_nil _) (Written.reads_word starts ⟨parts, stops⟩), ?_⟩
      intro later equal
      have same := Written.ofWord_injective (List.cons.inj equal).1
      exact longer (List.self_eq_append_left.mp same)
  | false =>
      have startsNumber : Lexeme.startsNumber d = false := by
        rw [Bool.eq_false_iff]
        exact fun starts => number (of_decide_eq_true (Lexeme.mem_numberCharacters starts))
      obtain ⟨visible, operator⟩ :=
        Lexeme.startsOperator_of_isWordPart (parts d List.mem_cons_self) starts startsNumber
      obtain ⟨e, he⟩ := exists_divides (ds ++ rest)
      refine ⟨_, he.cons (List.forall_mem_nil _) (.operator visible operator), ?_⟩
      intro later equal
      have kind := congrArg Prod.fst (List.cons.inj equal).1
      rw [Written.ofWord] at kind
      split at kind <;> cases kind

/-- Behind a number that took in all of a lexeme stand later lexemes only. -/
theorem exists_suffix {q : Spaced} {after : List Spaced} {last more tail : List Char}
    (spacing : Spacing (q :: after) last)
    (takes : ∀ c ∈ Lexeme.numberCharacters, q.lexeme.takesIn c = true ∨ c = '.')
    (run : Text.LongestRun (· ∈ Lexeme.numberCharacters) more tail)
    (same : more ++ tail = unparse after last) :
    ∃ later, later <:+ after ∧ tail = unparse later last := by
  induction after generalizing q more with
  | nil =>
      cases more with
      | nil => exact ⟨[], List.suffix_rfl, same⟩
      | cons c cs =>
          have blank := spacing.last c (by simp [← show c :: cs ++ tail = last from same])
          have inside := of_decide_eq_true (run.all c List.mem_cons_self)
          rw [Lexeme.numberCharacters_not_blank c inside] at blank
          cases blank
  | cons r after ih =>
      cases more with
      | nil => exact ⟨_, List.suffix_rfl, same⟩
      | cons c cs =>
          have inside := of_decide_eq_true (run.all c List.mem_cons_self)
          have first : c ∈ (unparse (r :: after) last).head? := by rw [← same]; rfl
          -- The lexeme before did not go on, so the number goes on with a point, and it takes in all
          -- of the number that the point starts.
          have point : c = '.' :=
            (takes c inside).resolve_left (by simp [spacing.stops c first])
          subst point
          obtain ⟨n, rfl⟩ := Spaced.exists_number_of_point (spacing.gaps r (by simp)) first
          have same' : '.' :: cs ++ tail = n.text ++ unparse after last :=
            same.trans (unparse_cons _ _ _)
          obtain ⟨more, -, same'', run'⟩ := run.exists_append same' fun c hc =>
            decide_eq_true (n.text_numberCharacters c hc)
          obtain ⟨later, suffix, tail⟩ := ih (spacing.suffix (List.suffix_cons _ _))
            (fun c hc => .inl (decide_eq_true hc)) run' same''
          exact ⟨later, suffix.trans (List.suffix_cons _ _), tail⟩

/-- Behind a number that took in a whole lexeme, the lexeme is missing. -/
theorem exists_divides_behind_lexeme {q : Spaced} {after : List Spaced} {last more tail : List Char}
    (spacing : Spacing (q :: after) last)
    (takes : ∀ c ∈ Lexeme.numberCharacters, q.lexeme.takesIn c = true ∨ c = '.')
    (inside : ∀ c ∈ q.lexeme.text, c ∈ Lexeme.numberCharacters)
    (run : Text.LongestRun (· ∈ Lexeme.numberCharacters) more tail)
    (same : more ++ tail = q.lexeme.text ++ unparse after last) :
    ∃ e : Division, e.Divides tail ∧ e.contents ≠ (q :: after).map Spaced.content := by
  obtain ⟨more', -, same', run'⟩ := run.exists_append same fun c hc => decide_eq_true (inside c hc)
  obtain ⟨later, suffix, rfl⟩ := exists_suffix spacing takes run' same'
  have spacing' := spacing.suffix (suffix.trans (List.suffix_cons _ _))
  obtain ⟨e, he, -, contents⟩ := spacing'.exists_divides
  refine ⟨e, he, fun equal => ?_⟩
  have shorter := suffix.length_le
  have length := congrArg List.length (contents.symm.trans equal)
  simp only [List.length_map, List.length_cons] at length
  omega

/-- Behind a number that took in the first character of a lexeme, the lexeme is missing or only the
rest of it is left. -/
theorem exists_divides_behind_first {q : Spaced} {after : List Spaced} {last more tail : List Char}
    (spacing : Spacing (q :: after) last) {c : Char} (hc : c ∈ q.lexeme.text.head?)
    (taken : c ∈ Lexeme.numberCharacters)
    (run : Text.LongestRun (· ∈ Lexeme.numberCharacters) more tail)
    (same : more ++ tail = q.lexeme.text ++ unparse after last) :
    ∃ e : Division, e.Divides tail ∧ e.contents ≠ (q :: after).map Spaced.content := by
  obtain ⟨gap, lexeme⟩ := q
  obtain ⟨n, rfl⟩ | ⟨ds, starts, parts, rfl⟩ := Written.of_numberCharacter hc taken
  · exact exists_divides_behind_lexeme spacing (fun c hc => .inl (decide_eq_true hc))
      n.text_numberCharacters run same
  · obtain ⟨front, behind, split, front_run⟩ :=
      Text.LongestRun.exists_split (· ∈ Lexeme.numberCharacters) (c :: ds)
    cases behind with
    | nil =>
        rw [List.append_nil] at split
        subst split
        exact exists_divides_behind_lexeme spacing Lexeme.numberCharacters_wordParts
          (fun a ha => of_decide_eq_true (front_run.all a ha)) run same
    | cons d behind =>
        have longer : front ≠ [] :=
          front_run.ne_nil (c := c) (by rw [split]; rfl) (decide_eq_true taken)
        have run' : Text.LongestRun (· ∈ Lexeme.numberCharacters) front
            (d :: behind ++ unparse after last) := ⟨front_run.all, front_run.stops⟩
        have same' : more ++ tail = front ++ (d :: behind ++ unparse after last) := by
          rw [same, ← List.append_assoc, split]
          rfl
        obtain ⟨rfl, rfl⟩ := run.unique run' same'
        have inside : ∀ a ∈ d :: behind, Lexeme.isWordPart a = true := by
          intro a ha
          refine Lexeme.word_parts starts parts a ?_
          rw [← split]
          exact List.mem_append_right _ ha
        obtain ⟨e, he, differs⟩ := exists_divides_wordRest longer inside
          (of_decide_eq_false (front_run.stops d rfl)) spacing.stops
        rw [split] at differs
        exact ⟨e, he, differs _⟩

/-- A number that takes in the first character of what follows it is in the end no number, or another
one, or what follows is cut short. -/
theorem exists_divides_number {gap : List Char} (blank : ∀ c ∈ gap, Text.isBlank c = true)
    (n : Numeral) {q : Spaced} {after : List Spaced} {last : List Char}
    (spacing : Spacing (q :: after) last) (glues : (Written.number n).Glues q.lexeme) :
    ∃ e : Division, e.Divides (gap ++ (n.text ++ (q.lexeme.text ++ unparse after last))) ∧
      (e.rest ≠ [] ∨
        e.contents ≠ (Written.number n).content :: (q :: after).map Spaced.content) := by
  obtain ⟨c, hc, takes⟩ := glues
  obtain ⟨run, rest, same, longest⟩ := Text.LongestRun.exists_split
    (· ∈ Lexeme.numberCharacters) (n.text ++ (q.lexeme.text ++ unparse after last))
  obtain ⟨more, rfl, same', longest'⟩ := longest.exists_append same fun c hc =>
    decide_eq_true (n.text_numberCharacters c hc)
  obtain ⟨d, ds, text, starts⟩ := Lexeme.exists_startsNumber n
  rw [← same]
  have whole : n.text ++ more = d :: (ds ++ more) := by rw [text]; rfl
  rw [whole] at longest ⊢
  have read := Lexeme.number_reads_or_fails starts longest
  cases content : Lexeme.Shape.number.content? (d :: (ds ++ more)) with
  | none =>
      rw [content] at read
      refine ⟨⟨[], gap, _, _⟩, ⟨?_, trivial, blank, .inr read⟩, .inl ?_⟩
      · rfl
      · exact fails_rest_ne_nil read
  | some result =>
      rw [content] at read
      obtain ⟨e, he, differs⟩ :=
        exists_divides_behind_first spacing hc (of_decide_eq_true takes) longest' same'
      exact ⟨_, he.cons blank read, .inr fun equal => differs (List.cons.inj equal).2⟩

end Division

theorem unparse_append (ps qs : List Spaced) (last : List Char) :
    unparse (ps ++ qs) last = unparse ps (unparse qs last) := by
  simp only [unparse, List.flatMap_append, List.append_assoc]

/-- Without a gap that it needs, a text is not read as its lexemes. -/
theorem Spacing.exists_divides_glued {before after : List Spaced} {p q : Spaced}
    {last : List Char} (h : Spacing (before ++ p :: q :: after) last)
    (glues : p.lexeme.Glues q.lexeme) :
    ∃ d : Division, d.Divides (unparse (before ++ p :: { q with gap := [] } :: after) last) ∧
      (d.rest ≠ [] ∨ d.contents ≠ (before ++ p :: q :: after).map Spaced.content) := by
  have blank := h.gaps p (by simp)
  have spacing : Spacing (q :: after) last :=
    h.suffix ((List.suffix_cons p _).trans (List.suffix_append before _))
  -- What stands in front is read as before, so only the two lexemes and what follows count.
  obtain ⟨e, he, differs⟩ : ∃ e : Division,
      e.Divides (p.gap ++ (p.lexeme.text ++ (q.lexeme.text ++ unparse after last))) ∧
        (e.rest ≠ [] ∨ e.contents ≠ p.content :: (q :: after).map Spaced.content) := by
    obtain ⟨gap, lexeme⟩ := p
    obtain ⟨c, hc, takes⟩ := glues
    cases lexeme with
    | number n => exact Division.exists_divides_number blank n spacing ⟨c, hc, takes⟩
    | word d ds starts parts =>
        have first : c ∈ (q.lexeme.text ++ unparse after last).head? := by
          rw [List.head?_append, Option.mem_def.mp hc]
          rfl
        obtain ⟨e, he, differs⟩ := Division.exists_divides_word blank starts parts first takes
        exact ⟨e, he, .inr (differs _)⟩
    | _ => cases takes
  have split : before ++ p :: q :: after = before ++ [p] ++ q :: after := by simp
  have text : unparse (before ++ p :: { q with gap := [] } :: after) last =
      unparse (before ++ [p]) (q.lexeme.text ++ unparse after last) := by
    rw [List.append_cons, unparse_append, unparse_cons]
    rfl
  have gaps : ∀ r ∈ before ++ [p], ∀ c ∈ r.gap, Text.isBlank c = true := by
    intro r hr
    refine h.gaps r ?_
    rw [split]
    exact List.mem_append_left _ hr
  have joins : (before ++ [p]).IsChain Spaced.Joins := by
    have joins := h.joins
    rw [split] at joins
    exact joins.left_of_append
  have he' : e.Divides (unparse [p] (q.lexeme.text ++ unparse after last)) := by
    rw [unparse_cons]
    exact he
  obtain ⟨d, hd, rest, contents⟩ := Division.exists_divides_front gaps joins he'
  refine ⟨d, by rwa [text], ?_⟩
  rw [rest, contents, List.map_append]
  exact differs.imp_right fun differs equal => differs (List.append_cancel_left equal)

namespace Lexeme

/-- What is read is a lexeme as it is written, and it does not reach further. -/
theorem Reads.exists_written {lexeme rest : List Char} {kind : Kind} {value : Value}
    (h : Reads lexeme rest kind value) :
    ∃ l : Written, l.text = lexeme ∧ l.content = (kind, value) ∧ (l.isOpen = true → rest = []) ∧
      ∀ c ∈ rest.head?, l.takesIn c = false := by
  -- The content of a closed lexeme need not be computed, as a lexeme is read in one way only.
  have closed (l : Written) (text : l.text = lexeme) (closed : l.isOpen = false)
      (stops : ∀ c ∈ rest.head?, l.takesIn c = false) :
      l.text = lexeme ∧ l.content = (kind, value) ∧ (l.isOpen = true → rest = []) ∧
        ∀ c ∈ rest.head?, l.takesIn c = false := by
    obtain ⟨-, -, rfl, rfl⟩ := h.unique (Written.reads closed stops) (by rw [text])
    exact ⟨text, rfl, by simp [closed], stops⟩
  cases h with
  | punctuation listed => exact ⟨.punctuation _ _ listed, closed _ rfl rfl fun _ _ => rfl⟩
  | comment inside => exact ⟨.comment _ inside, closed _ rfl rfl fun _ _ => rfl⟩
  | lastComment inside => exact ⟨.openComment _ inside, rfl, rfl, fun _ => rfl, nofun⟩
  | number run => exact ⟨.number _, closed _ rfl rfl run.stops⟩
  | @keyword k rest run =>
      obtain ⟨c, cs, spelling, starts⟩ := startsWord_spelling k
      have parts : ∀ d ∈ cs, isWordPart d = true :=
        fun d hd => run.all d (by rw [spelling]; exact List.mem_cons_of_mem _ hd)
      exact ⟨.word c cs starts parts, closed _ spelling.symm rfl run.stops⟩
  | identifier starts run _ =>
      have parts := fun d hd => run.all d (List.mem_cons_of_mem _ hd)
      exact ⟨.word _ _ starts parts, closed _ rfl rfl run.stops⟩
  | operator visible starts => exact ⟨.operator _ visible starts, closed _ rfl rfl fun _ _ => rfl⟩

end Lexeme

/-- A text that is read to its end is made of spaced lexemes. -/
theorem Division.Divides.exists_spacing {d : Division} {cs : List Char} (h : d.Divides cs)
    (complete : d.rest = []) :
    ∃ ps last, Spacing ps last ∧ cs = unparse ps last := by
  obtain ⟨pieces, blanks, span, tail⟩ := d
  induction pieces generalizing cs with
  | nil =>
      obtain ⟨rfl, blank, -⟩ := h.of_nil
      refine ⟨[], blanks, ⟨List.forall_mem_nil _, blank, .nil⟩, ?_⟩
      rw [show span ++ tail = [] from complete, List.append_nil]
      rfl
  | cons p pieces ih =>
      obtain ⟨ds, rfl, blank, reads, divides⟩ := h.of_cons
      obtain ⟨qs, last, spacing, rfl⟩ := ih divides complete
      obtain ⟨l, text, -, closed, stops⟩ := reads.exists_written
      have joins : ∀ q ∈ qs.head?, Spaced.Joins ⟨p.blanks, l⟩ q := by
        intro q hq
        obtain ⟨rs, rfl⟩ := List.head?_eq_some_iff.mp hq
        obtain ⟨c, cs, first, -⟩ := q.lexeme.exists_first
        rw [unparse_cons, first] at closed stops
        refine ⟨?_, ?_⟩
        · rw [Bool.eq_false_iff]
          intro isOpen
          simpa using closed isOpen
        · rintro ⟨d, hd, takes⟩ gap
          obtain rfl : c = d := by simpa [first] using hd
          have stop := stops c (by simp [gap])
          rw [show l.takesIn c = true from takes] at stop
          cases stop
      refine ⟨⟨p.blanks, l⟩ :: qs, last, ⟨?_, spacing.last, ?_⟩, ?_⟩
      · exact List.forall_mem_cons.mpr ⟨blank, spacing.gaps⟩
      · exact List.isChain_cons.mpr ⟨joins, spacing.joins⟩
      · rw [unparse_cons, ← text]

/-- Spaced lexemes are read back. -/
theorem Spacing.tokenize_unparsed {ps : List Spaced} {last : List Char} (h : Spacing ps last)
    (file : String) :
    let result := (tokenize (String.ofList (unparse ps last)) file).answer
    result.isComplete = true ∧ result.contents = ps.map Spaced.content := by
  obtain ⟨d, hd, rest, contents⟩ := h.exists_divides
  intro result
  have read : result = d.result file := Division.tokenize_ofList hd file
  rw [read, Division.isComplete_result, Division.contents_result]
  exact ⟨rest, contents⟩

/-- Lexemes written down with gaps are read back as they are; without one of the gaps that they need
they are not; and every text that is read to its end is made of lexemes with gaps, so that other gaps
change nothing. -/
theorem tokenize_unparse (file : String) :
    (∀ ps last, Spacing ps last →
      let result := (tokenize (String.ofList (unparse ps last)) file).answer
      result.isComplete = true ∧ result.contents = ps.map Spaced.content) ∧
    (∀ before p q after last, Spacing (before ++ p :: q :: after) last →
      p.lexeme.Glues q.lexeme →
      let glued := unparse (before ++ p :: { q with gap := [] } :: after) last
      let result := (tokenize (String.ofList glued) file).answer
      result.isTruncated = true ∨
        result.contents ≠ (before ++ p :: q :: after).map Spaced.content) ∧
    ∀ source, (tokenize source file).answer.isComplete = true →
      ∃ ps last, Spacing ps last ∧ source.toList = unparse ps last ∧
        ∀ ps' last', Spacing ps' last' → ps'.map Spaced.lexeme = ps.map Spaced.lexeme →
          let result := (tokenize (String.ofList (unparse ps' last')) file).answer
          result.isComplete = true ∧
            result.contents = (tokenize source file).answer.contents := by
  refine ⟨?_, ?_, ?_⟩
  · intro ps last spacing
    exact spacing.tokenize_unparsed file
  · intro before p q after last spacing glues
    obtain ⟨d, hd, differs⟩ := spacing.exists_divides_glued glues
    intro text result
    have read : result = d.result file := Division.tokenize_ofList hd file
    rw [read, Division.contents_result]
    obtain rest | contents := differs
    · exact .inl ((Division.isTruncated_result d file).mpr rest)
    · exact .inr contents
  · intro source complete
    obtain ⟨d, hd⟩ := Division.exists_divides source.toList
    rw [Division.tokenize_of_divides hd, Division.isComplete_result] at complete
    obtain ⟨ps, last, spacing, text⟩ := hd.exists_spacing complete
    refine ⟨ps, last, spacing, text, fun ps' last' spacing' same => ?_⟩
    obtain ⟨complete', contents⟩ := spacing'.tokenize_unparsed file
    have original := (spacing.tokenize_unparsed file).2
    rw [← text, String.ofList_toList] at original
    refine ⟨complete', ?_⟩
    have lexemes : ∀ qs : List Spaced,
        qs.map Spaced.content = (qs.map Spaced.lexeme).map Written.content := by
      intro qs
      rw [List.map_map]
      rfl
    rw [contents, original, lexemes, lexemes, same]

/-- A number in front of a word that starts with a hexadecimal digit, with the blank between them and
without it. -/
theorem number_before_word :
    let one : Numeral := ⟨['1'], none, none, List.forall_mem_singleton.mpr rfl, nofun,
      List.cons_ne_nil _ _, nofun, nofun, nofun⟩
    let word : Written := .word 'a' ['b'] rfl (List.forall_mem_singleton.mpr (by decide))
    let ps : List Spaced := [⟨[], .number one⟩, ⟨[' '], word⟩]
    let contents : List (Kind × Value) :=
      [(.number, .number one.double), (.identifier, .text "ab")]
    Spacing ps [] ∧ (Written.number one).Glues word ∧
      (tokenize "1 ab" "f").answer.contents = contents ∧
      ((tokenize "1ab" "f").answer.isTruncated = true ∨
        (tokenize "1ab" "f").answer.contents ≠ contents) := by
  intro one word ps contents
  have spacing : Spacing ps [] := by
    have blank : ∀ c ∈ [' '], Text.isBlank c = true := List.forall_mem_singleton.mpr (by decide)
    refine ⟨List.forall_mem_cons.mpr ⟨List.forall_mem_nil _, List.forall_mem_singleton.mpr blank⟩,
      List.forall_mem_nil _, ?_⟩
    exact List.isChain_pair.mpr ⟨rfl, fun _ => by decide⟩
  have glues : (Written.number one).Glues word := ⟨'a', rfl, by decide⟩
  have identifier : Written.ofWord ['a', 'b'] = (.identifier, .text "ab") := by decide
  have same : ps.map Spaced.content = contents :=
    congrArg (fun last => [(Kind.number, Value.number one.double), last]) identifier
  let glued : List Spaced := [⟨[], .number one⟩, ⟨[], word⟩]
  have text : String.ofList (unparse ps []) = "1 ab" := rfl
  have gluedText : String.ofList (unparse glued []) = "1ab" := rfl
  obtain ⟨read, needed, -⟩ := tokenize_unparse "f"
  have unread : (tokenize (String.ofList (unparse glued [])) "f").answer.isTruncated = true ∨
      (tokenize (String.ofList (unparse glued [])) "f").answer.contents ≠
        ps.map Spaced.content :=
    needed [] ⟨[], .number one⟩ ⟨[' '], word⟩ [] [] spacing glues
  have spaced := (read ps [] spacing).2
  rw [text, same] at spaced
  rw [gluedText, same] at unread
  exact ⟨spacing, glues, spaced, unread⟩

end ScriptLexer

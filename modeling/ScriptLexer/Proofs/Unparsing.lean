import Mathlib.Data.List.Chain
import ScriptLexer.Proofs.NumberTokens

/-!
Writing lexemes down and reading them again. Some lexemes take in what stands directly behind them if
it starts with a character of theirs; between two such lexemes there has to be a blank. Main statement:
lexemes written down so have a division into just these lexemes.
-/

namespace ScriptLexer

namespace Text

theorem CodeRange.exists_of_covers {rs : List CodeRange} {n : Nat} (h : covers rs n = true) :
    ∃ r ∈ rs, r.first ≤ n ∧ n ≤ r.last := by
  induction rs with
  | nil => cases h
  | cons r rs ih =>
      rw [covers] at h
      split at h
      · cases h
      · next first =>
        by_cases last : n ≤ r.last
        · exact ⟨r, List.mem_cons_self, Nat.le_of_not_lt first, last⟩
        · rw [if_neg last] at h
          obtain ⟨r', hr', inside⟩ := ih h
          exact ⟨r', List.mem_cons_of_mem _ hr', inside⟩

theorem blankRanges_not_alphanumeric :
    ∀ r ∈ blankRanges, ∀ n ∈ List.range' r.first (r.last + 1 - r.first),
      CodeRange.covers alphanumericRanges n = false := by
  decide +kernel

theorem isAlphanumeric_of_isBlank {c : Char} (h : isBlank c = true) : isAlphanumeric c = false := by
  obtain ⟨r, hr, first, last⟩ := CodeRange.exists_of_covers h
  refine blankRanges_not_alphanumeric r hr _ (List.mem_range'_1.mpr ⟨first, ?_⟩)
  omega

end Text

namespace Lexeme

theorem isWordPart_of_isBlank {c : Char} (h : Text.isBlank c = true) : isWordPart c = false := by
  have notUnderscore : c ≠ '_' := by
    rintro rfl
    revert h
    decide
  simp [isWordPart, notUnderscore, Text.isAlphanumeric_of_isBlank h]

theorem word_parts {c : Char} {cs : List Char} (starts : startsWord c = true)
    (parts : ∀ d ∈ cs, isWordPart d = true) : ∀ d ∈ c :: cs, isWordPart d = true := by
  intro d hd
  obtain rfl | hd := List.mem_cons.mp hd
  · exact isWordPart_of_startsWord starts
  · exact parts d hd

theorem numberCharacters_not_blank : ∀ c ∈ numberCharacters, Text.isBlank c = false := by
  have all : (numberCharacters.all fun c => !Text.isBlank c) = true := by decide
  simpa only [List.all_eq_true, Bool.not_eq_true'] using all

end Lexeme

/-- A lexeme as it is written. The last form is a comment at the end of a text, where no line feed
closes it. -/
inductive Written where
  | punctuation (c : Char) (kind : Kind) (listed : (c, kind) ∈ Kind.punctuation)
  | word (first : Char) (more : List Char) (starts : Lexeme.startsWord first = true)
      (parts : ∀ c ∈ more, Lexeme.isWordPart c = true)
  | number (n : Numeral)
  | operator (c : Char) (visible : Text.isBlank c = false)
      (starts : Lexeme.Shape.StartsWith c .operator)
  | comment (body : List Char) (inside : '\n' ∉ body)
  | openComment (body : List Char) (inside : '\n' ∉ body)

namespace Written

def text : Written → List Char
  | punctuation c _ _ | operator c _ _ => [c]
  | word c cs _ _ => c :: cs
  | number n => n.text
  | comment body _ => '#' :: body ++ ['\n']
  | openComment body _ => '#' :: body

/-- What a word becomes: the keyword that it spells, or else an identifier. -/
def ofWord (cs : List Char) : Kind × Value :=
  match Keyword.ofSpelling? (String.ofList cs) with
  | some k => (.keyword, .keyword k)
  | none => (.identifier, .text (String.ofList cs))

/-- The kind and the value of the token that the lexeme stands for. -/
def content : Written → Kind × Value
  | punctuation _ kind _ => (kind, .absent)
  | word c cs _ _ => ofWord (c :: cs)
  | number n => (.number, .number n.double)
  | operator c _ _ => (.operator, .text (String.ofList [c]))
  | comment _ _ | openComment _ _ => (.lineComment, .absent)

def isOpen : Written → Bool
  | openComment _ _ => true
  | punctuation _ _ _ | word _ _ _ _ | number _ | operator _ _ _ | comment _ _ => false

/-- The lexeme would reach over the character, if it stood directly behind. -/
def takesIn (c : Char) : Written → Bool
  | word _ _ _ _ => Lexeme.isWordPart c
  | number _ => c ∈ Lexeme.numberCharacters
  | punctuation _ _ _ | operator _ _ _ | comment _ _ | openComment _ _ => false

theorem takesIn_of_isBlank {c : Char} (h : Text.isBlank c = true) (l : Written) :
    l.takesIn c = false := by
  cases l with
  | word _ _ _ _ => exact Lexeme.isWordPart_of_isBlank h
  | number _ =>
      refine decide_eq_false fun hc => ?_
      rw [Lexeme.numberCharacters_not_blank c hc] at h
      cases h
  | _ => rfl

theorem content?_word (cs : List Char) : Lexeme.Shape.word.content? cs = some (ofWord cs) := by
  simp only [Lexeme.Shape.content?, ofWord]
  cases Keyword.ofSpelling? (String.ofList cs) <;> rfl

theorem reads_word {c : Char} {cs rest : List Char} (starts : Lexeme.startsWord c = true)
    (run : Text.LongestRun Lexeme.isWordPart (c :: cs) rest) :
    Lexeme.Reads (c :: cs) rest (ofWord (c :: cs)).1 (ofWord (c :: cs)).2 := by
  obtain ⟨kind, value, content, reads⟩ := Lexeme.word_reads starts run
  rw [content?_word] at content
  rw [Option.some.inj content]
  exact reads

/-- A lexeme is read where it does not take in what follows. -/
theorem reads {l : Written} (closed : l.isOpen = false) {rest : List Char}
    (stops : ∀ c ∈ rest.head?, l.takesIn c = false) :
    Lexeme.Reads l.text rest l.content.1 l.content.2 := by
  cases l with
  | punctuation c kind listed => exact .punctuation listed
  | word c cs starts parts => exact reads_word starts ⟨Lexeme.word_parts starts parts, stops⟩
  | number n => exact .number ⟨fun c hc => decide_eq_true (n.text_numberCharacters c hc), stops⟩
  | operator c visible starts => exact .operator visible starts
  | comment body inside => exact .comment inside
  | openComment body inside => cases closed

theorem exists_first (l : Written) :
    ∃ c cs, l.text = c :: cs ∧ Text.isBlank c = false := by
  cases l with
  | punctuation c kind listed =>
      exact ⟨c, [], rfl, (Lexeme.punctuation_starts_nothing_else _ listed).1⟩
  | word c cs starts parts => exact ⟨c, cs, rfl, Lexeme.isBlank_of_startsWord starts⟩
  | number n =>
      obtain ⟨c, cs, text, starts⟩ := Lexeme.exists_startsNumber n
      exact ⟨c, cs, text, Lexeme.isBlank_of_startsNumber starts⟩
  | operator c visible starts => exact ⟨c, [], rfl, visible⟩
  | comment body inside | openComment body inside => exact ⟨'#', _, rfl, by decide⟩

/-- The first lexeme would reach into the second, with nothing between them. -/
def Glues (l m : Written) : Prop := ∃ c ∈ m.text.head?, l.takesIn c = true

end Written

/-- A lexeme with what is written in front of it. -/
structure Spaced where
  gap : List Char
  lexeme : Written

namespace Spaced

def text (p : Spaced) : List Char := p.gap ++ p.lexeme.text

def content (p : Spaced) : Kind × Value := p.lexeme.content

/-- What may follow directly: only the last comment is open, and there is a gap where one is needed. -/
def Joins (p q : Spaced) : Prop :=
  p.lexeme.isOpen = false ∧ (p.lexeme.Glues q.lexeme → q.gap ≠ [])

end Spaced

/-- Lexemes with gaps of blanks before, between and behind them, and no two of them glued. -/
structure Spacing (ps : List Spaced) (last : List Char) : Prop where
  gaps : ∀ p ∈ ps, ∀ c ∈ p.gap, Text.isBlank c = true
  last : ∀ c ∈ last, Text.isBlank c = true
  joins : ps.IsChain Spaced.Joins

/-- The text of spaced lexemes and the blanks behind them. -/
def unparse (ps : List Spaced) (last : List Char) : List Char := ps.flatMap Spaced.text ++ last

def Division.contents (d : Division) : List (Kind × Value) := d.pieces.map fun p => (p.kind, p.value)

def LexResult.contents (r : LexResult) : List (Kind × Value) :=
  r.tokens.map fun t => (t.kind, t.value)

namespace Spaced

variable {p q : Spaced}

/-- Where two lexemes join, the first is not extended by what follows. -/
theorem Joins.stops (h : p.Joins q) (blank : ∀ c ∈ q.gap, Text.isBlank c = true) (rest : List Char) :
    ∀ c ∈ (q.text ++ rest).head?, p.lexeme.takesIn c = false := by
  intro c hc
  rw [text] at hc
  cases hg : q.gap with
  | nil =>
      obtain ⟨d, ds, first, -⟩ := q.lexeme.exists_first
      rw [hg, List.nil_append, first] at hc
      obtain rfl : d = c := by simpa using hc
      rw [Bool.eq_false_iff]
      intro takes
      exact h.2 ⟨d, by simp [first], takes⟩ hg
  | cons d ds =>
      rw [hg] at hc
      obtain rfl : d = c := by simpa using hc
      exact Written.takesIn_of_isBlank (blank _ (by simp [hg])) _

end Spaced

theorem unparse_cons (p : Spaced) (ps : List Spaced) (last : List Char) :
    unparse (p :: ps) last = p.gap ++ (p.lexeme.text ++ unparse ps last) := by
  simp only [unparse, List.flatMap_cons, Spaced.text, List.append_assoc]

namespace Division

/-- A division of what follows, with the lexeme in front. -/
theorem Divides.spaced {e : Division} {p : Spaced} {rest : List Char} (h : e.Divides rest)
    (gap : ∀ c ∈ p.gap, Text.isBlank c = true) (closed : p.lexeme.isOpen = false)
    (stops : ∀ c ∈ rest.head?, p.lexeme.takesIn c = false) :
    ∃ d : Division, d.Divides (p.gap ++ (p.lexeme.text ++ rest)) ∧ d.rest = e.rest ∧
      d.contents = p.content :: e.contents :=
  ⟨_, h.cons gap (Written.reads closed stops), rfl, rfl⟩

/-- Lexemes in front of a lexeme are read as they are written, whatever stands behind that one. -/
theorem exists_divides_front {e : Division} {ps : List Spaced} {p : Spaced} {cs : List Char}
    (gaps : ∀ q ∈ ps ++ [p], ∀ c ∈ q.gap, Text.isBlank c = true)
    (joins : (ps ++ [p]).IsChain Spaced.Joins) (h : e.Divides (unparse [p] cs)) :
    ∃ d : Division, d.Divides (unparse (ps ++ [p]) cs) ∧ d.rest = e.rest ∧
      d.contents = ps.map Spaced.content ++ e.contents := by
  induction ps with
  | nil => exact ⟨e, h, rfl, rfl⟩
  | cons q ps ih =>
      rw [List.cons_append] at gaps joins ⊢
      obtain ⟨next, joins⟩ := List.isChain_cons.mp joins
      obtain ⟨d, hd, rest, contents⟩ := ih (fun r hr => gaps r (List.mem_cons_of_mem _ hr)) joins
      obtain ⟨r, rs, hr⟩ : ∃ r rs, ps ++ [p] = r :: rs :=
        List.exists_cons_of_ne_nil (List.append_ne_nil_of_right_ne_nil _ (List.cons_ne_nil _ _))
      rw [hr] at next hd gaps ⊢
      have joined : q.Joins r := next r rfl
      have stops := joined.stops (gaps r (List.mem_cons_of_mem _ List.mem_cons_self))
        (unparse rs cs)
      obtain ⟨d', hd', rest', contents'⟩ :=
        hd.spaced (gaps q List.mem_cons_self) joined.1 (by
          rw [unparse_cons, ← List.append_assoc]
          exact stops)
      refine ⟨d', by rwa [unparse_cons], rest'.trans rest, ?_⟩
      rw [contents', contents]
      rfl

/-- At the end of the text a comment may be open. It takes in blanks up to a line feed among them. -/
theorem exists_divides_last {p : Spaced} {last : List Char}
    (gap : ∀ c ∈ p.gap, Text.isBlank c = true) (blank : ∀ c ∈ last, Text.isBlank c = true) :
    ∃ d : Division, d.Divides (unparse [p] last) ∧ d.rest = [] ∧ d.contents = [p.content] := by
  rw [unparse_cons]
  cases closed : p.lexeme.isOpen with
  | false =>
      have stops : ∀ c ∈ last.head?, p.lexeme.takesIn c = false :=
        fun c hc => p.lexeme.takesIn_of_isBlank (blank c (List.mem_of_mem_head? hc))
      exact (divides_blanks blank).spaced gap closed stops
  | true =>
      obtain ⟨gap', lexeme⟩ := p
      cases lexeme with
      | openComment body inside =>
          obtain ⟨more, rest, rfl, run⟩ := Text.LongestRun.exists_split (· ≠ '\n') last
          have insideMore : '\n' ∉ body ++ more := by
            intro hn
            obtain hn | hn := List.mem_append.mp hn
            · exact inside hn
            · exact of_decide_eq_true (run.all _ hn) rfl
          cases rest with
          | nil =>
              have reads := Lexeme.Reads.lastComment insideMore
              have divides := (divides_blanks (List.forall_mem_nil _)).cons gap reads
              refine ⟨⟨[⟨gap', '#' :: (body ++ more), _, _⟩], [], [], []⟩, ?_, rfl, rfl⟩
              simpa [unparse, Written.text] using divides
          | cons c rest =>
              obtain rfl : c = '\n' := by simpa using run.stops c rfl
              have reads : Lexeme.Reads ('#' :: (body ++ more) ++ ['\n']) rest .lineComment .absent :=
                .comment insideMore
              have behind : ∀ c ∈ rest, Text.isBlank c = true :=
                fun c hc => blank c (by simp [hc])
              have divides := (divides_blanks behind).cons gap reads
              refine ⟨⟨[⟨gap', '#' :: (body ++ more) ++ ['\n'], _, _⟩], rest, [], []⟩, ?_, rfl, rfl⟩
              simpa [unparse, Written.text] using divides
      | _ => cases closed

end Division

theorem Spacing.exists_divides {ps : List Spaced} {last : List Char} (h : Spacing ps last) :
    ∃ d : Division, d.Divides (unparse ps last) ∧ d.rest = [] ∧
      d.contents = ps.map Spaced.content := by
  obtain rfl | ⟨qs, p, rfl⟩ := List.eq_nil_or_concat' ps
  · exact ⟨_, Division.divides_blanks h.last, rfl, rfl⟩
  · obtain ⟨e, he, rest, contents⟩ :=
      Division.exists_divides_last (h.gaps p (by simp)) h.last
    obtain ⟨d, hd, rest', contents'⟩ := Division.exists_divides_front h.gaps h.joins he
    refine ⟨d, hd, rest'.trans rest, ?_⟩
    rw [contents', contents, List.map_append]
    rfl

theorem Division.contents_result (d : Division) (file : String) :
    (d.result file).contents = d.contents := by
  have same : ∀ (before : List Char) (ps : List Piece),
      (tokens file before ps).map (fun t => (t.kind, t.value)) =
        ps.map fun p => (p.kind, p.value) := by
    intro before ps
    induction ps generalizing before with
    | nil => rfl
    | cons p ps ih =>
        rw [tokens, List.map_cons, List.map_cons, ih]
        rfl
  exact same [] d.pieces

theorem Division.isComplete_result (d : Division) (file : String) :
    (d.result file).isComplete = true ↔ d.rest = [] := by
  rw [LexResult.isComplete, result, fault]
  by_cases empty : d.rest = []
  · simp [empty]
  · simp [empty]

theorem Division.isTruncated_result (d : Division) (file : String) :
    (d.result file).isTruncated = true ↔ d.rest ≠ [] := by
  rw [ne_eq, ← d.isComplete_result file, LexResult.isTruncated, LexResult.isComplete]
  simp [Option.isSome_iff_ne_none]

end ScriptLexer

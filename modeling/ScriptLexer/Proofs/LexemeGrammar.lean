import ScriptLexer.Proofs.Numeral
import ScriptLexer.Reading

/-!
The grammar of lexemes. Every character starts lexemes of one shape only. A lexeme of one fixed
character is that character, a comment ends behind the first line feed, and numbers and words are
longest runs; a run that starts like a number and is no literal is a fault. Main statement: a scan
skips blanks and takes what the grammar says, and the grammar leaves it no choice.
-/

namespace ScriptLexer

theorem Kind.ofPunctuation?_eq_some_iff {c : Char} {kind : Kind} :
    Kind.ofPunctuation? c = some kind ↔ (c, kind) ∈ Kind.punctuation := by
  constructor
  · intro h
    obtain ⟨before, behind, h, -⟩ := List.lookup_eq_some_iff.mp h
    simp [h]
  · intro h
    simp only [Kind.punctuation, List.mem_cons, Prod.mk.injEq, List.not_mem_nil, or_false] at h
    obtain ⟨rfl, rfl⟩ | ⟨rfl, rfl⟩ | ⟨rfl, rfl⟩ | ⟨rfl, rfl⟩ | ⟨rfl, rfl⟩ | ⟨rfl, rfl⟩ |
      ⟨rfl, rfl⟩ | ⟨rfl, rfl⟩ := h <;> rfl

namespace Lexeme

/-- What numbers are made of, before it is asked whether they are literals. -/
def numberCharacters : List Char :=
  ['.', '0', '1', '2', '3', '4', '5', '6', '7', '8', '9', 'a', 'b', 'c', 'd', 'e', 'f',
   'A', 'B', 'C', 'D', 'E', 'F']

def startsNumber (c : Char) : Bool := c = '.' || c.isDigit

def startsWord (c : Char) : Bool := c = '_' || c.isAlpha

inductive Shape.StartsWith (c : Char) : Shape → Prop where
  | punctuation {kind : Kind} : (c, kind) ∈ Kind.punctuation → StartsWith c (.punctuation kind)
  | comment : c = '#' → StartsWith c .comment
  | number : startsNumber c = true → StartsWith c .number
  | word : startsWord c = true → StartsWith c .word
  | operator : (∀ kind, (c, kind) ∉ Kind.punctuation) → c ≠ '#' → startsNumber c = false →
      startsWord c = false → StartsWith c .operator

theorem isNumberPart_eq : isNumberPart = fun c => decide (c ∈ numberCharacters) := by
  funext c
  rw [Bool.eq_iff_iff, decide_eq_true_iff]
  simp [isNumberPart, numberCharacters, Char.isDigit, Char.le_def, Char.ext_iff,
    UInt32.le_iff_toNat_le, UInt32.toNat_inj.symm]
  omega

theorem punctuation_starts_nothing_else :
    ∀ p ∈ Kind.punctuation, Text.isBlank p.1 = false ∧ p.1 ≠ '#' ∧ startsNumber p.1 = false ∧
      startsWord p.1 = false := by
  decide

theorem startsNumber_not_punctuation {c : Char} (h : startsNumber c = true) (kind : Kind) :
    (c, kind) ∉ Kind.punctuation := by
  intro hm
  rw [(punctuation_starts_nothing_else _ hm).2.2.1] at h
  cases h

theorem startsWord_not_punctuation {c : Char} (h : startsWord c = true) (kind : Kind) :
    (c, kind) ∉ Kind.punctuation := by
  intro hm
  rw [(punctuation_starts_nothing_else _ hm).2.2.2] at h
  cases h

theorem toNat_of_startsWord {c : Char} (h : startsWord c = true) :
    0x41 ≤ c.toNat ∧ c.toNat ≤ 0x7a := by
  have letters : c.isAlpha = (decide (c.val ≥ 'A'.val ∧ c.val ≤ 'Z'.val) ||
      (c.val ≥ 'a'.val && c.val ≤ 'z'.val)) := rfl
  simp [startsWord, letters, Char.ext_iff, UInt32.le_iff_toNat_le, UInt32.toNat_inj.symm] at h
  omega

theorem startsWord_not_startsNumber {c : Char} (h : startsWord c = true) :
    startsNumber c = false := by
  have range := toNat_of_startsWord h
  simp [startsNumber, Char.isDigit, Char.ext_iff, UInt32.le_iff_toNat_le, UInt32.toNat_inj.symm]
  omega

/-- Every character starts lexemes of exactly one shape, the one that reading chooses. -/
theorem Shape.ofFirst_eq_iff {c : Char} {shape : Shape} :
    Shape.ofFirst c = shape ↔ shape.StartsWith c := by
  constructor
  · rintro rfl
    rw [Shape.ofFirst]
    cases hp : Kind.ofPunctuation? c with
    | some kind => exact .punctuation (Kind.ofPunctuation?_eq_some_iff.mp hp)
    | none =>
        have none_of (kind : Kind) : (c, kind) ∉ Kind.punctuation := by
          intro hm
          rw [Kind.ofPunctuation?_eq_some_iff.mpr hm] at hp
          cases hp
        dsimp only
        split
        · next h => exact .comment h
        · next hash =>
            split
            · next h => exact .number h
            · next number =>
                split
                · next h => exact .word h
                · next word =>
                    exact .operator none_of hash (Bool.eq_false_iff.mpr number)
                      (Bool.eq_false_iff.mpr word)
  · intro h
    have none_of (hn : ∀ kind, (c, kind) ∉ Kind.punctuation) : Kind.ofPunctuation? c = none := by
      cases hp : Kind.ofPunctuation? c with
      | none => rfl
      | some kind => exact absurd (Kind.ofPunctuation?_eq_some_iff.mp hp) (hn kind)
    cases h with
    | punctuation hm => simp [Shape.ofFirst, Kind.ofPunctuation?_eq_some_iff.mpr hm]
    | comment hc => subst hc; rfl
    | number hn =>
        have hash : c ≠ '#' := by rintro rfl; exact absurd hn (by decide)
        have number : c = '.' ∨ c.isDigit = true := by simpa [startsNumber] using hn
        simp [Shape.ofFirst, none_of (startsNumber_not_punctuation hn), hash, number]
    | word hw =>
        have hash : c ≠ '#' := by rintro rfl; exact absurd hw (by decide)
        have number : ¬ (c = '.' ∨ c.isDigit = true) := by
          simpa [startsNumber] using startsWord_not_startsNumber hw
        have word : c = '_' ∨ c.isAlpha = true := by simpa [startsWord] using hw
        simp [Shape.ofFirst, none_of (startsWord_not_punctuation hw), hash, number, word]
    | operator hp hash hn hw =>
        have number : ¬ (c = '.' ∨ c.isDigit = true) := by simpa [startsNumber] using hn
        have word : ¬ (c = '_' ∨ c.isAlpha = true) := by simpa [startsWord] using hw
        simp [Shape.ofFirst, none_of hp, hash, number, word]

/-- The text `lexeme ++ rest` starts with this lexeme, which becomes a token of the kind and value
given. -/
inductive Reads : List Char → List Char → Kind → Value → Prop where
  | punctuation {c : Char} {rest : List Char} {kind : Kind} :
      (c, kind) ∈ Kind.punctuation → Reads [c] rest kind .absent
  | comment {body rest : List Char} :
      '\n' ∉ body → Reads ('#' :: body ++ ['\n']) rest .lineComment .absent
  | lastComment {body : List Char} :
      '\n' ∉ body → Reads ('#' :: body) [] .lineComment .absent
  | number {n : Numeral} {rest : List Char} :
      Text.LongestRun (· ∈ numberCharacters) n.text rest →
      Reads n.text rest .number (.number n.double)
  | keyword {k : Keyword} {rest : List Char} :
      Text.LongestRun isWordPart k.spelling.toList rest →
      Reads k.spelling.toList rest .keyword (.keyword k)
  | identifier {c : Char} {cs rest : List Char} :
      startsWord c = true → Text.LongestRun isWordPart (c :: cs) rest →
      (∀ k : Keyword, k.spelling.toList ≠ c :: cs) →
      Reads (c :: cs) rest .identifier (.text (String.ofList (c :: cs)))
  | operator {c : Char} {rest : List Char} :
      Text.isBlank c = false → Shape.StartsWith c .operator →
      Reads [c] rest .operator (.text (String.ofList [c]))

/-- The text `span ++ rest` starts like a number, as far as `span`, and this is no literal. -/
inductive Fails : List Char → List Char → Prop where
  | number {c : Char} {cs rest : List Char} :
      startsNumber c = true → Text.LongestRun (· ∈ numberCharacters) (c :: cs) rest →
      (¬ ∃ n : Numeral, n.text = c :: cs) → Fails (c :: cs) rest

theorem isBlank_of_startsNumber {c : Char} (h : startsNumber c = true) :
    Text.isBlank c = false := by
  have hc : 0x2e ≤ c.toNat ∧ c.toNat ≤ 0x39 := by
    simp [startsNumber, Char.isDigit, Char.ext_iff, UInt32.le_iff_toNat_le,
      UInt32.toNat_inj.symm] at h
    omega
  simp only [Text.isBlank, Text.blankRanges, Text.CodeRange.covers]
  grind

theorem isBlank_of_startsWord {c : Char} (h : startsWord c = true) : Text.isBlank c = false := by
  have hc := toNat_of_startsWord h
  simp only [Text.isBlank, Text.blankRanges, Text.CodeRange.covers]
  grind

theorem exists_startsNumber (n : Numeral) : ∃ c cs, n.text = c :: cs ∧ startsNumber c = true := by
  have ne := n.mantissa_ne_nil
  cases hw : n.whole with
  | cons c cs =>
      have digit := n.whole_digits c (by simp [hw])
      exact ⟨c, _, by rw [Numeral.text, hw]; rfl, by simp [startsNumber, digit]⟩
  | nil =>
      cases hf : n.fraction with
      | none => simp [hw, hf] at ne
      | some ds =>
          exact ⟨'.', _, by rw [Numeral.text, hw, hf]; rfl, rfl⟩

theorem startsWord_spelling (k : Keyword) :
    ∃ c cs, k.spelling.toList = c :: cs ∧ startsWord c = true := by
  cases k <;> exact ⟨_, _, rfl, rfl⟩

/-- The shape cuts the text `lexeme ++ rest` there. -/
def Shape.Cuts (shape : Shape) (lexeme rest : List Char) : Prop :=
  (lexeme ++ rest).splitAt (shape.extent (lexeme ++ rest)) = (lexeme, rest)

theorem Shape.cuts_of_length {shape : Shape} {lexeme rest : List Char}
    (h : shape.extent (lexeme ++ rest) = lexeme.length) : shape.Cuts lexeme rest := by
  rw [Shape.Cuts, h, List.splitAt_eq, List.take_left, List.drop_left]

theorem Shape.cuts_number {run rest : List Char}
    (h : Text.LongestRun (· ∈ numberCharacters) run rest) : Shape.number.Cuts run rest := by
  apply cuts_of_length
  rw [← isNumberPart_eq] at h
  rw [Shape.extent, h.takeWhile_append]

theorem Shape.cuts_word {run rest : List Char} (h : Text.LongestRun isWordPart run rest) :
    Shape.word.Cuts run rest := by
  apply cuts_of_length
  rw [Shape.extent, h.takeWhile_append]

theorem comment_inside {body : List Char} (h : '\n' ∉ body) :
    ∀ c ∈ '#' :: body, decide (c ≠ '\n') = true := by
  intro c hc
  obtain rfl | hc := List.mem_cons.mp hc
  · rfl
  · exact decide_eq_true fun hn => h (hn ▸ hc)

theorem Shape.cuts_comment {body rest : List Char} (h : '\n' ∉ body) :
    Shape.comment.Cuts ('#' :: body ++ ['\n']) rest := by
  have run : Text.LongestRun (· ≠ '\n') ('#' :: body) ('\n' :: rest) :=
    .cons_right (comment_inside h) rfl
  have taken := run.takeWhile_append
  apply cuts_of_length
  rw [Shape.extent, List.append_assoc, List.singleton_append, taken, List.length_append,
    List.length_singleton]

theorem Shape.cuts_lastComment {body : List Char} (h : '\n' ∉ body) :
    Shape.comment.Cuts ('#' :: body) [] := by
  have run : Text.LongestRun (· ≠ '\n') ('#' :: body) [] := .nil_right (comment_inside h)
  -- The extent counts a line feed that is not there, so it reaches beyond the text.
  rw [Shape.Cuts, Shape.extent, run.takeWhile_append, List.append_nil, List.splitAt_eq,
    List.take_of_length_le (Nat.le_succ _), List.drop_of_length_le (Nat.le_succ _)]

theorem Reads.content {lexeme rest : List Char} {kind : Kind} {value : Value}
    (h : Reads lexeme rest kind value) :
    ∃ c cs, lexeme = c :: cs ∧ Text.isBlank c = false ∧ (Shape.ofFirst c).Cuts lexeme rest ∧
      (Shape.ofFirst c).content? lexeme = some (kind, value) := by
  cases h with
  | @punctuation c rest kind hm =>
      refine ⟨c, [], rfl, (punctuation_starts_nothing_else _ hm).1, ?_⟩
      rw [Shape.ofFirst_eq_iff.mpr (.punctuation hm)]
      exact ⟨Shape.cuts_of_length rfl, rfl⟩
  | @comment body rest hb =>
      refine ⟨'#', body ++ ['\n'], rfl, by decide, ?_⟩
      rw [Shape.ofFirst_eq_iff.mpr (.comment rfl)]
      exact ⟨Shape.cuts_comment hb, rfl⟩
  | @lastComment body hb =>
      refine ⟨'#', body, rfl, by decide, ?_⟩
      rw [Shape.ofFirst_eq_iff.mpr (.comment rfl)]
      exact ⟨Shape.cuts_lastComment hb, rfl⟩
  | @number n rest run =>
      obtain ⟨c, cs, htext, hc⟩ := exists_startsNumber n
      refine ⟨c, cs, htext, isBlank_of_startsNumber hc, ?_⟩
      rw [Shape.ofFirst_eq_iff.mpr (.number hc)]
      exact ⟨Shape.cuts_number run, by rw [Shape.content?, n.ofLiteral?_text]; rfl⟩
  | @keyword k rest run =>
      obtain ⟨c, cs, hspelling, hc⟩ := startsWord_spelling k
      refine ⟨c, cs, hspelling, isBlank_of_startsWord hc, ?_⟩
      rw [Shape.ofFirst_eq_iff.mpr (.word hc)]
      refine ⟨Shape.cuts_word run, ?_⟩
      rw [Shape.content?, String.ofList_toList, Keyword.ofSpelling?_eq_some_iff.mpr rfl]
  | @identifier c cs rest hc run none_of =>
      refine ⟨c, cs, rfl, isBlank_of_startsWord hc, ?_⟩
      rw [Shape.ofFirst_eq_iff.mpr (.word hc)]
      refine ⟨Shape.cuts_word run, ?_⟩
      cases hk : Keyword.ofSpelling? (String.ofList (c :: cs)) with
      | none => simp only [Shape.content?, hk]
      | some k =>
          have spelled := Keyword.ofSpelling?_eq_some_iff.mp hk
          exact absurd (by rw [spelled, String.toList_ofList]) (none_of k)
  | @operator c rest blank hc =>
      refine ⟨c, [], rfl, blank, ?_⟩
      rw [Shape.ofFirst_eq_iff.mpr hc]
      exact ⟨Shape.cuts_of_length rfl, rfl⟩

theorem Fails.content {span rest : List Char} (h : Fails span rest) :
    ∃ c cs, span = c :: cs ∧ Text.isBlank c = false ∧ (Shape.ofFirst c).Cuts span rest ∧
      (Shape.ofFirst c).content? span = none := by
  obtain ⟨hc, run, none_of⟩ := h
  refine ⟨_, _, rfl, isBlank_of_startsNumber hc, ?_⟩
  rw [Shape.ofFirst_eq_iff.mpr (.number hc)]
  refine ⟨Shape.cuts_number run, ?_⟩
  rw [Shape.content?, Numeral.ofLiteral?_eq_none_iff.mpr none_of]
  rfl

theorem mem_numberCharacters {c : Char} (h : startsNumber c = true) :
    decide (c ∈ numberCharacters) = true := by
  have part : isNumberPart c = true := by
    obtain h | h := Bool.or_eq_true_iff.mp h <;> simp [isNumberPart, h]
  rwa [isNumberPart_eq] at part

theorem isWordPart_of_startsWord {c : Char} (h : startsWord c = true) : isWordPart c = true := by
  obtain h | h := Bool.or_eq_true_iff.mp h
  · simp [isWordPart, h]
  · exact isWordPart_of_isAlpha h

theorem number_reads_or_fails {c : Char} {cs rest : List Char} (hc : startsNumber c = true)
    (run : Text.LongestRun (· ∈ numberCharacters) (c :: cs) rest) :
    match Shape.number.content? (c :: cs) with
    | some (kind, value) => Reads (c :: cs) rest kind value
    | none => Fails (c :: cs) rest := by
  rw [Shape.content?]
  cases hx : Decimal.ofLiteral? (c :: cs) with
  | none => exact .number hc run (Numeral.ofLiteral?_eq_none_iff.mp hx)
  | some x =>
      obtain ⟨n, hn, rfl⟩ := Numeral.exists_of_ofLiteral? hx
      rw [← hn] at run ⊢
      exact .number run

theorem word_reads {c : Char} {cs rest : List Char} (hc : startsWord c = true)
    (run : Text.LongestRun isWordPart (c :: cs) rest) :
    ∃ kind value, Shape.word.content? (c :: cs) = some (kind, value) ∧
      Reads (c :: cs) rest kind value := by
  simp only [Shape.content?]
  cases hk : Keyword.ofSpelling? (String.ofList (c :: cs)) with
  | none =>
      refine ⟨_, _, rfl, .identifier hc run ?_⟩
      intro k spelled
      rw [← spelled, String.ofList_toList, Keyword.ofSpelling?_eq_some_iff.mpr rfl] at hk
      cases hk
  | some k =>
      have spelled : k.spelling.toList = c :: cs := by
        rw [Keyword.ofSpelling?_eq_some_iff.mp hk, String.toList_ofList]
      rw [← spelled] at run ⊢
      exact ⟨_, _, rfl, .keyword run⟩

theorem Reads.kind_ne_endOfFile {lexeme rest : List Char} {kind : Kind} {value : Value}
    (h : Reads lexeme rest kind value) : kind ≠ .endOfFile := by
  cases h with
  | punctuation hm =>
      intro hk
      subst hk
      revert hm
      simp [Kind.punctuation]
  | _ => exact nofun

theorem Shape.cuts_unique {c c' : Char} {cs cs' rest rest' : List Char}
    (cut : (Shape.ofFirst c).Cuts (c :: cs) rest)
    (cut' : (Shape.ofFirst c').Cuts (c' :: cs') rest')
    (same : c :: cs ++ rest = c' :: cs' ++ rest') : c = c' ∧ cs = cs' ∧ rest = rest' := by
  obtain rfl : c = c' := (List.cons.inj same).1
  rw [Shape.Cuts, same] at cut
  obtain ⟨lexeme, rest⟩ := Prod.mk.inj (cut.symm.trans cut')
  exact ⟨rfl, (List.cons.inj lexeme).2, rest⟩

theorem Reads.unique {lexeme rest lexeme' rest' : List Char} {kind kind' : Kind}
    {value value' : Value} (h : Reads lexeme rest kind value)
    (h' : Reads lexeme' rest' kind' value') (same : lexeme ++ rest = lexeme' ++ rest') :
    lexeme = lexeme' ∧ rest = rest' ∧ kind = kind' ∧ value = value' := by
  obtain ⟨c, cs, rfl, -, cut, content⟩ := h.content
  obtain ⟨c', cs', rfl, -, cut', content'⟩ := h'.content
  obtain ⟨rfl, rfl, rfl⟩ := Shape.cuts_unique cut cut' same
  obtain ⟨rfl, rfl⟩ := Prod.mk.inj (Option.some.inj (content.symm.trans content'))
  exact ⟨rfl, rfl, rfl, rfl⟩

theorem Reads.not_fails {lexeme rest span tail : List Char} {kind : Kind} {value : Value}
    (h : Reads lexeme rest kind value) (h' : Fails span tail) :
    lexeme ++ rest ≠ span ++ tail := by
  intro same
  obtain ⟨c, cs, rfl, -, cut, content⟩ := h.content
  obtain ⟨c', cs', rfl, -, cut', content'⟩ := h'.content
  obtain ⟨rfl, rfl, rfl⟩ := Shape.cuts_unique cut cut' same
  cases content.symm.trans content'

theorem Fails.unique {span tail span' tail' : List Char} (h : Fails span tail)
    (h' : Fails span' tail') (same : span ++ tail = span' ++ tail') :
    span = span' ∧ tail = tail' := by
  obtain ⟨-, run, -⟩ := h
  obtain ⟨-, run', -⟩ := h'
  exact run.unique run' same

theorem Reads.blanks_before {blanks lexeme rest : List Char} {kind : Kind} {value : Value}
    (h : Reads lexeme rest kind value) (blank : ∀ c ∈ blanks, Text.isBlank c = true) :
    Text.LongestRun Text.isBlank blanks (lexeme ++ rest) := by
  obtain ⟨c, cs, rfl, hc, -⟩ := h.content
  exact .cons_right blank hc

theorem Fails.blanks_before {blanks span rest : List Char} (h : Fails span rest)
    (blank : ∀ c ∈ blanks, Text.isBlank c = true) :
    Text.LongestRun Text.isBlank blanks (span ++ rest) := by
  obtain ⟨c, cs, rfl, hc, -⟩ := h.content
  exact .cons_right blank hc

/-- What reading cuts off a text that starts with no blank is a lexeme of the grammar, or a fault if
it has no kind. -/
theorem reads_or_fails {c : Char} {cs lexeme rest : List Char} (blank : Text.isBlank c = false)
    (h : (c :: cs).splitAt ((Shape.ofFirst c).extent (c :: cs)) = (lexeme, rest)) :
    match (Shape.ofFirst c).content? lexeme with
    | some (kind, value) => Reads lexeme rest kind value
    | none => Fails lexeme rest := by
  generalize hs : Shape.ofFirst c = shape at h ⊢
  cases Shape.ofFirst_eq_iff.mp hs with
  | punctuation hm =>
      rw [Shape.extent, List.splitAt_eq] at h
      obtain ⟨rfl, rfl⟩ := Prod.mk.inj h
      exact .punctuation hm
  | comment hc =>
      obtain ⟨body, tail, rfl, run⟩ := Text.LongestRun.exists_split (· ≠ '\n') cs
      have hb : '\n' ∉ body := fun hn => of_decide_eq_true (run.all _ hn) rfl
      subst hc
      cases tail with
      | nil =>
          have cut := Shape.cuts_lastComment hb
          rw [Shape.Cuts, List.append_nil] at cut
          rw [List.append_nil] at h
          obtain ⟨rfl, rfl⟩ := Prod.mk.inj (h.symm.trans cut)
          exact .lastComment hb
      | cons d ds =>
          have hd : d = '\n' := by simpa using run.stops d rfl
          have cut : Shape.comment.Cuts ('#' :: body ++ ['\n']) ds := Shape.cuts_comment hb
          subst hd
          rw [Shape.Cuts, List.append_assoc, List.singleton_append, List.cons_append] at cut
          obtain ⟨rfl, rfl⟩ := Prod.mk.inj (h.symm.trans cut)
          exact .comment hb
  | number hc =>
      obtain ⟨run, tail, same, hrun⟩ :=
        Text.LongestRun.exists_split (· ∈ numberCharacters) (c :: cs)
      obtain ⟨ds, rfl, -⟩ := hrun.exists_cons same (mem_numberCharacters hc)
      rw [← same] at h
      obtain ⟨rfl, rfl⟩ := Prod.mk.inj (h.symm.trans (Shape.cuts_number hrun))
      exact number_reads_or_fails hc hrun
  | word hc =>
      obtain ⟨run, tail, same, hrun⟩ := Text.LongestRun.exists_split isWordPart (c :: cs)
      obtain ⟨ds, rfl, -⟩ := hrun.exists_cons same (isWordPart_of_startsWord hc)
      rw [← same] at h
      obtain ⟨rfl, rfl⟩ := Prod.mk.inj (h.symm.trans (Shape.cuts_word hrun))
      obtain ⟨kind, value, content, reads⟩ := word_reads hc hrun
      rw [content]
      exact reads
  | operator hp hash hn hw =>
      rw [Shape.extent, List.splitAt_eq] at h
      obtain ⟨rfl, rfl⟩ := Prod.mk.inj h
      exact .operator blank (.operator hp hash hn hw)

end Lexeme
end ScriptLexer

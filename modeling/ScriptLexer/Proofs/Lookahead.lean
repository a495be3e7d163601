import ScriptLexer.Proofs.Passage

/-!
One character of lookahead. A lexeme is settled once a character stands behind it, and at once if it is
a single character or a comment with its line feed: whatever the text goes on with, it stays as it is.
Main statement: two texts with a common front have the same settled tokens in it, and the same fault if
its span is settled.
-/

namespace ScriptLexer

/-- A token that ends by itself, whatever stands behind it in the text. -/
def Token.isShut (text : List Char) (t : Token) : Bool :=
  Kind.punctuation.any (·.2 = t.kind) || t.kind = .operator ||
    (t.kind = .lineComment && text[t.stop.toNat - 1]? = some '\n')

/-- A token in the first `m` characters of a text, with one of them behind it if it needs that. -/
def Token.isSettled (text : List Char) (m : Nat) (t : Token) : Bool :=
  t.stop < m || (t.stop ≤ m && t.isShut text)

/-- Where the span ends that starts like a number and is none. -/
def LexError.stop (text : List Char) (e : LexError) : Int :=
  e.offset + ((text.drop e.offset.toNat).takeWhile (· ∈ Lexeme.numberCharacters)).length

/-- What stops a run in the front of a text stops it however the text goes on. -/
theorem Text.LongestRun.goes_on {p : Char → Bool} {run front x : List Char}
    (h : LongestRun p run (front ++ x)) (ne : front ≠ []) (y : List Char) :
    LongestRun p run (front ++ y) := by
  obtain ⟨c, cs, rfl⟩ := List.exists_cons_of_ne_nil ne
  exact ⟨h.all, h.stops⟩

namespace Lexeme

/-- A lexeme that ends by itself. -/
def Shuts (lexeme : List Char) (kind : Kind) : Prop :=
  (∃ c, (c, kind) ∈ Kind.punctuation) ∨ kind = .operator ∨
    kind = .lineComment ∧ lexeme.getLast? = some '\n'

theorem Reads.goes_on {lexeme front x : List Char} {kind : Kind} {value : Value}
    (h : Reads lexeme (front ++ x) kind value) (settled : front ≠ [] ∨ Shuts lexeme kind)
    (y : List Char) : Reads lexeme (front ++ y) kind value := by
  generalize hr : front ++ x = rest at h
  have longest {p : Char → Bool} {run : List Char} (run_rest : Text.LongestRun p run rest)
      (open_ended : ¬ Shuts lexeme kind) : Text.LongestRun p run (front ++ y) := by
    rw [← hr] at run_rest
    exact run_rest.goes_on (settled.resolve_right open_ended) y
  cases h with
  | punctuation hm => exact .punctuation hm
  | comment hb => exact .comment hb
  | operator blank starts => exact .operator blank starts
  | number run => exact .number (longest run (by simp [Shuts, Kind.punctuation]))
  | keyword run => exact .keyword (longest run (by simp [Shuts, Kind.punctuation]))
  | identifier starts run none_of =>
      exact .identifier starts (longest run (by simp [Shuts, Kind.punctuation])) none_of
  | @lastComment body hb =>
      obtain ⟨rfl, -⟩ := List.append_eq_nil_iff.mp hr
      obtain ne | ⟨c, hc⟩ | no_comment | ⟨-, last⟩ := settled
      · exact absurd rfl ne
      · simp [Kind.punctuation] at hc
      · cases no_comment
      · have inside := List.mem_of_getLast? last
        simp [hb] at inside

theorem Fails.goes_on {span front x : List Char} (h : Fails span (front ++ x)) (ne : front ≠ [])
    (y : List Char) : Fails span (front ++ y) := by
  obtain ⟨starts, run, none_of⟩ := h
  exact .number starts (run.goes_on ne y) none_of

theorem Fails.longestRun {span rest : List Char} (h : Fails span rest) :
    Text.LongestRun (· ∈ numberCharacters) span rest := by
  obtain ⟨-, run, -⟩ := h
  exact run

/-- The text starts, within its front, with a lexeme that is settled there. -/
def Settles (front x : List Char) : Prop :=
  ∃ blanks lexeme left kind value, front = blanks ++ (lexeme ++ left) ∧
    (∀ c ∈ blanks, Text.isBlank c = true) ∧ Reads lexeme (left ++ x) kind value ∧
    (left ≠ [] ∨ Shuts lexeme kind)

theorem Settles.goes_on {front x : List Char} (h : Settles front x) (y : List Char) :
    Settles front y := by
  obtain ⟨blanks, lexeme, left, kind, value, same, blank, reads, settled⟩ := h
  exact ⟨blanks, lexeme, left, kind, value, same, blank, reads.goes_on settled y, settled⟩

end Lexeme

namespace Token

theorem isSettled_of_lt {text : List Char} {m : Nat} {t : Token} (h : (m : Int) < t.stop) :
    t.isSettled text m = false := by
  simp [isSettled, Int.not_lt.mpr (Int.le_of_lt h), Int.not_le.mpr h]

theorem isSettled_take {m : Nat} {t : Token} (text : List Char) (pos : 0 < t.stop) :
    t.isSettled (text.take m) m = t.isSettled text m := by
  by_cases inside : t.stop ≤ m
  · have found : (text.take m)[t.stop.toNat - 1]? = text[t.stop.toNat - 1]? :=
      List.getElem?_take_of_lt (by omega)
    rw [isSettled, isSettled, isShut, isShut, found]
  · rw [isSettled_of_lt (Int.not_le.mp inside), isSettled_of_lt (Int.not_le.mp inside)]

/-- At the end of the text a token is settled only if its lexeme ends by itself. -/
theorem shuts_of_isShut {before lexeme : List Char} {t : Token} (ne : lexeme ≠ [])
    (stop : t.stop = (before ++ lexeme).length) (h : t.isShut (before ++ lexeme) = true) :
    Lexeme.Shuts lexeme t.kind := by
  simp only [isShut, stop, Int.toNat_natCast, ← List.getLast?_eq_getElem?,
    List.getLast?_append_of_ne_nil _ ne, Bool.or_eq_true, Bool.and_eq_true, decide_eq_true_eq,
    List.any_eq_true] at h
  obtain (⟨⟨c, k⟩, listed, same⟩ | operator) | comment := h
  · exact .inl ⟨c, same ▸ listed⟩
  · exact .inr (.inl operator)
  · exact .inr (.inr comment)

end Token

theorem stop_of_mem_readFrom {file : String} {before cs : List Char} {t : Token}
    (h : t ∈ (readFrom file (Place.behind before) cs).tokens) : (before.length : Int) < t.stop := by
  obtain ⟨d, hd⟩ := Division.exists_divides cs
  have follow := Division.tokens_follow file before hd.pieces
  rw [Division.readFrom_behind hd] at h
  exact Int.lt_of_le_of_lt (follow.later t h) (follow.stands t h).start_lt

theorem exists_left {cs front rest x : List Char} (same : front ++ x = cs ++ rest)
    (inside : cs.length ≤ front.length) : ∃ left, front = cs ++ left ∧ rest = left ++ x := by
  have whole : cs <+: front ++ x := ⟨rest, same.symm⟩
  obtain ⟨left, rfl⟩ := List.prefix_of_prefix_length_le whole (List.prefix_append front x) inside
  rw [List.append_assoc, List.append_cancel_left_eq] at same
  exact ⟨left, rfl, same.symm⟩

/-- A lexeme that reaches beyond the front, or to its end without ending by itself, is not settled. -/
theorem not_isSettled_of_not_settles {file : String} {before front x blanks lexeme rest : List Char}
    {kind : Kind} {value : Value} (h : ¬ Lexeme.Settles front x)
    (same : front ++ x = blanks ++ (lexeme ++ rest)) (blank : ∀ c ∈ blanks, Text.isBlank c = true)
    (reads : Lexeme.Reads lexeme rest kind value) (start : Place) :
    let t := Token.between file start (Place.behind (before ++ (blanks ++ lexeme))) kind value
    t.isSettled (before ++ front) (before ++ front).length = false ∧
      ((before ++ front).length : Int) ≤ t.stop := by
  intro t
  have stop : t.stop = (before ++ (blanks ++ lexeme)).length := rfl
  have ne : lexeme ≠ [] := by
    obtain ⟨c, cs, rfl, -⟩ := reads.content
    exact List.cons_ne_nil c cs
  rw [← List.append_assoc] at same
  by_cases inside : (blanks ++ lexeme).length ≤ front.length
  · obtain ⟨left, rfl, rfl⟩ := exists_left same inside
    rw [List.append_assoc] at h
    have at_end : left = [] := by
      by_contra more
      exact h ⟨blanks, lexeme, left, kind, value, rfl, blank, reads, .inl more⟩
    subst at_end
    rw [List.append_nil] at h ⊢
    have open_ended : t.isShut (before ++ (blanks ++ lexeme)) = false := by
      rw [Bool.eq_false_iff]
      intro shut
      rw [← List.append_assoc] at stop shut
      have shuts := Token.shuts_of_isShut ne stop shut
      exact h ⟨blanks, lexeme, [], kind, value, by simp, blank, reads, .inr shuts⟩
    rw [Token.isSettled, stop, open_ended]
    simp
  · have reach : ((before ++ front).length : Int) < t.stop := by
      rw [stop, List.length_append, List.length_append]
      omega
    exact ⟨Token.isSettled_of_lt reach, Int.le_of_lt reach⟩

/-- Behind a lexeme that is not settled no token is. -/
theorem filter_of_not_settles {file : String} {before front x : List Char}
    (h : ¬ Lexeme.Settles front x) :
    (readFrom file (Place.behind before) (front ++ x)).tokens.filter
      (·.isSettled (before ++ front) (before ++ front).length) = [] := by
  generalize hcs : front ++ x = cs
  generalize ho : scan file (Place.behind before) cs = out
  cases scan_eq_iff.mp ho with
  | finish blank => rw [readFrom_of_finish ho, List.filter_nil]
  | failure blank fails => rw [readFrom_of_failure ho, List.filter_nil]
  | @token blanks lexeme rest kind value blank reads =>
      obtain ⟨first, reach⟩ := not_isSettled_of_not_settles h hcs blank reads _
      rw [Division.readFrom_piece file before blank reads,
        List.filter_cons_of_neg (by rw [first]; exact Bool.false_ne_true), List.filter_eq_nil_iff]
      intro t ht
      rw [Token.isSettled_of_lt (Int.lt_of_le_of_lt reach (stop_of_mem_readFrom ht))]
      exact Bool.false_ne_true

theorem filter_settled (file : String) (before front x y : List Char) :
    (readFrom file (Place.behind before) (front ++ x)).tokens.filter
        (·.isSettled (before ++ front) (before ++ front).length) =
      (readFrom file (Place.behind before) (front ++ y)).tokens.filter
        (·.isSettled (before ++ front) (before ++ front).length) := by
  induction hn : front.length using Nat.strong_induction_on generalizing before front with
  | _ n ih =>
      by_cases h : Lexeme.Settles front x
      · obtain ⟨blanks, lexeme, left, kind, value, rfl, blank, reads, settled⟩ := h
        have reads' := reads.goes_on settled y
        have shorter : left.length < n := by
          obtain ⟨c, cs, rfl, -⟩ := reads.content
          simp only [List.length_append, List.length_cons] at hn
          omega
        have later := ih left.length shorter (before ++ (blanks ++ lexeme)) left rfl
        simp only [List.append_assoc] at later ⊢
        rw [Division.readFrom_piece file before blank reads,
          Division.readFrom_piece file before blank reads', List.filter_cons, List.filter_cons,
          later]
      · rw [filter_of_not_settles h, filter_of_not_settles fun h' => h (h'.goes_on x)]

namespace Division

theorem Lawful.goes_on {front x : List Char} {ps : List Piece} (h : Lawful (front ++ x) ps)
    (ne : front ≠ []) (y : List Char) : Lawful (front ++ y) ps := by
  induction ps with
  | nil => trivial
  | cons p ps ih =>
      obtain ⟨blank, visible, reads, lawful⟩ := h
      rw [← List.append_assoc] at reads
      refine ⟨blank, visible, ?_, ih lawful⟩
      rw [← List.append_assoc]
      exact reads.goes_on (.inl (List.append_ne_nil_of_right_ne_nil _ ne)) y

/-- A division with a fault goes on as it is, if the span ends within the front. -/
theorem Divides.goes_on {d : Division} {front x : List Char} (h : d.Divides (front ++ x))
    (faulty : d.rest ≠ []) (inside : d.front.length + d.span.length < front.length)
    (y : List Char) (file : String) :
    ∃ e : Division, e.Divides (front ++ y) ∧ e.result file = d.result file := by
  obtain ⟨pieces, blanks, span, tail⟩ := d
  obtain ⟨text, lawful, blank, left_over⟩ := h
  have fails := left_over.resolve_left faulty
  rw [Division.rest, ← List.append_assoc] at text
  rw [← List.length_append] at inside
  obtain ⟨left, rfl, rfl⟩ := exists_left text inside.le
  have more : left ≠ [] := by
    rintro rfl
    rw [List.append_nil] at inside
    exact absurd inside (Nat.lt_irrefl _)
  have here : Lawful ((blanks ++ (span ++ left)) ++ x) pieces := by
    simpa only [Division.rest, List.append_assoc] using lawful
  have there : Lawful ((blanks ++ (span ++ left)) ++ y) pieces := here.goes_on (by simp [more]) y
  have fails' : Lexeme.Fails span (left ++ y) := fails.goes_on more y
  refine ⟨⟨pieces, blanks, span, left ++ y⟩, ⟨?_, ?_, blank, .inr fails'⟩, ?_⟩
  · simp only [Division.front, Division.rest, List.append_assoc]
  · simpa only [Division.rest, List.append_assoc] using there
  · have faulty' : Division.rest ⟨pieces, blanks, span, left ++ y⟩ ≠ [] :=
      fails_rest_ne_nil fails'
    rw [result, result, fault, fault, if_neg faulty, if_neg faulty']
    rfl

/-- The fault of a division stops where its span does. -/
theorem Divides.stop_fault {d : Division} {cs : List Char} (h : d.Divides cs) {file : String}
    {e : LexError} (he : e ∈ d.fault file []) :
    d.rest ≠ [] ∧ e.stop cs = d.front.length + d.span.length := by
  rw [fault] at he
  split at he
  · cases he
  · next faulty =>
      cases he
      have run := (h.rest.resolve_left faulty).longestRun
      have left : cs.drop d.front.length = d.span ++ d.tail := by
        rw [h.text, List.drop_left, Division.rest]
      refine ⟨faulty, ?_⟩
      rw [LexError.stop, List.nil_append]
      change (d.front.length : Int) + ((cs.drop d.front.length).takeWhile _).length = _
      rw [left, run.takeWhile_append]

end Division

/-- Whether a token is settled goes down to the tokens before it, so the settled ones are in front. -/
theorem filter_isPrefix {p : Token → Bool} {ts : List Token}
    (down : ts.Pairwise fun t u => p u = true → p t = true) : ts.filter p <+: ts := by
  induction ts with
  | nil => exact List.nil_prefix
  | cons t ts ih =>
      obtain ⟨first, later⟩ := List.pairwise_cons.mp down
      by_cases ht : p t = true
      · rw [List.filter_cons_of_pos ht]
        exact (List.prefix_cons_inj t).mpr (ih later)
      · have none_later : ts.filter p = [] :=
          List.filter_eq_nil_iff.mpr fun u hu hp => ht (first u hu hp)
        rw [List.filter_cons_of_neg ht, none_later]
        exact List.nil_prefix

theorem tokenize_follow (source file : String) :
    Token.Follow [] source.toList (tokenize source file).answer.tokens := by
  obtain ⟨d, hd⟩ := Division.exists_divides source.toList
  have follow := (Division.tokens_follow file [] hd.pieces).append (.nil _ (d.blanks ++ d.rest))
  rw [List.append_nil, ← List.append_assoc] at follow
  rw [Division.tokenize_of_divides hd, hd.text]
  exact follow

theorem pos_stop {source file : String} {t : Token}
    (h : t ∈ (tokenize source file).answer.tokens) : 0 < t.stop :=
  Int.lt_of_le_of_lt ((tokenize_follow source file).later t h)
    ((tokenize_follow source file).stands t h).start_lt

/-- What is settled in the front of a text can be told from the front. -/
theorem filter_settled_take (source file : String) (m : Nat) :
    (tokenize source file).answer.tokens.filter (·.isSettled source.toList m) =
      (readFrom file .start (source.toList.take m ++ source.toList.drop m)).tokens.filter
        (·.isSettled (source.toList.take m) m) := by
  rw [List.take_append_drop]
  refine List.filter_congr fun t ht => ?_
  rw [Token.isSettled_take source.toList (pos_stop ht)]

theorem settled_of_same {a b : String} {m : Nat} (ha : m ≤ a.length)
    (same : a.toList.take m = b.toList.take m) (file : String) :
    (tokenize a file).answer.tokens.filter (·.isSettled a.toList m) =
      (tokenize b file).answer.tokens.filter (·.isSettled b.toList m) := by
  have settled := filter_settled file [] (a.toList.take m) (a.toList.drop m) (b.toList.drop m)
  have length : ([] ++ a.toList.take m).length = m := by
    rw [List.nil_append, List.length_take, String.length_toList, Nat.min_eq_left ha]
  rw [length, List.nil_append, Place.behind_nil] at settled
  rw [filter_settled_take, filter_settled_take, settled, same]

theorem isSettled_down {text : List Char} {m : Nat} {t u : Token} (le : t.stop ≤ u.start)
    (lt : u.start < u.stop) (h : u.isSettled text m = true) : t.isSettled text m = true := by
  simp only [Token.isSettled, Bool.or_eq_true, Bool.and_eq_true, decide_eq_true_eq] at h ⊢
  omega

/-- A fault with its span within the common front is the fault of both texts. -/
theorem fault_of_same {a b : String} {m : Nat} (hb : m ≤ b.length)
    (same : a.toList.take m = b.toList.take m) {file : String} {e : LexError}
    (he : e ∈ (tokenize a file).answer.error) (inside : e.stop a.toList < m) :
    (tokenize b file).answer = (tokenize a file).answer := by
  obtain ⟨d, hd⟩ := Division.exists_divides a.toList
  rw [Division.tokenize_of_divides hd] at he ⊢
  obtain ⟨faulty, stop⟩ := hd.stop_fault he
  have length : (b.toList.take m).length = m := by
    rw [List.length_take, String.length_toList, Nat.min_eq_left hb]
  have within : d.front.length + d.span.length < (b.toList.take m).length := by omega
  rw [← List.take_append_drop m a.toList, same] at hd
  obtain ⟨other, divides, result⟩ := hd.goes_on faulty within (b.toList.drop m) file
  rw [List.take_append_drop] at divides
  rw [Division.tokenize_of_divides divides, result]

/-- More text changes at most the last token. -/
theorem dropLast_isPrefix (a more file : String) :
    (tokenize a file).answer.tokens.dropLast <+: (tokenize (a ++ more) file).answer.tokens := by
  have same : a.toList.take a.length = (a ++ more).toList.take a.length := by
    rw [String.toList_append, ← String.length_toList, List.take_length, List.take_left]
  have settled := settled_of_same (Nat.le_refl _) same file
  have follow := tokenize_follow a file
  have follow' := tokenize_follow (a ++ more) file
  have kept : (tokenize (a ++ more) file).answer.tokens.filter
      (·.isSettled (a ++ more).toList a.length) <+: (tokenize (a ++ more) file).answer.tokens := by
    refine filter_isPrefix (follow'.order.imp_of_mem fun ht hu le => ?_)
    exact isSettled_down le (follow'.stands _ hu).start_lt
  refine List.IsPrefix.trans ?_ (settled ▸ kept)
  obtain empty | ⟨ts, t, tokens⟩ := List.eq_nil_or_concat' (tokenize a file).answer.tokens
  · rw [empty]
    exact List.nil_prefix
  · rw [tokens] at follow ⊢
    rw [List.dropLast_concat, List.filter_append]
    have all : ts.filter (·.isSettled a.toList a.length) = ts := by
      refine List.filter_eq_self.mpr fun u hu => ?_
      have before := (List.pairwise_append.mp follow.order).2.2 u hu t (by simp)
      have last := follow.stands t (by simp)
      have last_start := last.start_lt
      have last_stop := last.stop_le
      rw [List.nil_append, String.length_toList] at last_stop
      have shorter : u.stop < a.length := by omega
      simp [Token.isSettled, shorter]
    rw [all]
    exact List.prefix_append _ _

/-- One character of lookahead is all that reading needs: two texts that agree in their first `m`
characters have the same tokens with a character of these behind them, or which end by themselves. If a
fault has one behind its span, it is that of both texts, behind the same tokens. More text changes at
most the last token. -/
theorem tokenize_lookahead (a b file : String) (m : Nat) (ha : m ≤ a.length) (hb : m ≤ b.length)
    (same : a.toList.take m = b.toList.take m) :
    let first := (tokenize a file).answer
    let second := (tokenize b file).answer
    first.tokens.filter (·.stop < (m : Int)) = second.tokens.filter (·.stop < (m : Int)) ∧
      first.tokens.filter (·.isSettled a.toList m) =
        second.tokens.filter (·.isSettled b.toList m) ∧
      (∀ e ∈ first.error, e.stop a.toList < m → second = first) ∧
      ∀ more : String,
        first.tokens.dropLast <+: (tokenize (a ++ more) file).answer.tokens := by
  intro first second
  have settled := settled_of_same ha same file
  have narrow (text : List Char) (ts : List Token) :
      (ts.filter (·.isSettled text m)).filter (·.stop < (m : Int)) =
        ts.filter (·.stop < (m : Int)) := by
    rw [List.filter_filter]
    refine List.filter_congr fun t _ => ?_
    by_cases lt : t.stop < (m : Int)
    · simp [Token.isSettled, lt]
    · simp [lt]
  refine ⟨?_, settled, fun e he => fault_of_same hb same he, ?_⟩
  · rw [← narrow a.toList, settled, narrow]
  · intro more
    exact dropLast_isPrefix a more file

/-- The word at the end goes on in one of the texts, and the bad number before it stays. -/
theorem common_front :
    let a := "if x1; 1..2 y"
    let b := "if x1; 1..2 yes # more"
    13 ≤ a.length ∧ 13 ≤ b.length ∧ a.toList.take 13 = b.toList.take 13 ∧
      (tokenize b "f").answer = (tokenize a "f").answer ∧
      (tokenize a "f").answer.tokens.length = 3 ∧ (tokenize a "f").answer.isTruncated = true := by
  intro a b
  have ha : 13 ≤ a.length := by decide +kernel
  have hb : 13 ≤ b.length := by decide +kernel
  have same : a.toList.take 13 = b.toList.take 13 := by decide +kernel
  obtain ⟨-, -, fault, -⟩ := tokenize_lookahead a b "f" 13 ha hb same
  have within : ∀ e ∈ (tokenize a "f").answer.error, e.stop a.toList < 13 := by decide +kernel
  obtain ⟨e, he⟩ : ∃ e, (tokenize a "f").answer.error = some e :=
    Option.isSome_iff_exists.mp (by decide +kernel)
  exact ⟨ha, hb, same, fault e he (within e he), by decide +kernel, by decide +kernel⟩

end ScriptLexer

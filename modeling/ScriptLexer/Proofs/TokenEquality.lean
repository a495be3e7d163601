import Mathlib.Data.Finset.Card
import Mathlib.Data.List.ProdSigma
import ScriptLexer.Proofs.Positions
import ScriptLexer.Proofs.TokenText

/-!
Equality of tokens. Numbers compare as numbers, so that the two zeros are equal and what is no number
differs from itself; but what is read is a number and has no sign. Main statement: tokens that are read
are equal only if they are the same, no two tokens of a result are equal, and the tokens that two
results share are as many as their equal pairs.
-/

namespace ScriptLexer

/-- A number that is not negative; zero has no sign either. -/
def Binary64.IsUnsigned (x : Binary64) : Prop := x.sign? = some false

def Value.IsUnsigned : Value → Prop
  | .number x => x.IsUnsigned
  | .absent | .keyword _ | .text _ => True

namespace Token

/-- Some lexer, whatever its state, answers with the token; it may be the one for the end. -/
def IsRead (t : Token) : Prop := ∃ l : Lexer, l.next.1 = .ok t

/-- All fields but the file, numbers compared as numbers. -/
structure AlikeButForFile (t u : Token) : Prop where
  kindAndValue : t.sameKindAndValue u = true
  start : t.start = u.start
  stop : t.stop = u.stop
  line : t.line = u.line
  column : t.column = u.column

/-- How many pairs of a token of the one list and a token of the other are equal. -/
def countPairs (ts us : List Token) : Nat := (ts ×ˢ us).countP fun (t, u) => t.equals u

/-- One step of counting: a token that equals none before it is kept. -/
def keep (seen : List Token) (t : Token) : List Token :=
  if seen.any (·.equals t) then seen else t :: seen

end Token

/-- The tokens in an answer, the one for the end too. -/
def Answer.read : Answer → List Token
  | .token t => [t]
  | .tokens ts | .taken ts _ => ts
  | .result r => r.tokens
  | .done | .failure _ | .description _ _ => []

section Values

theorem Binary64.equals_iff_eq {x y : Binary64} (hx : x.IsUnsigned) (hy : y.IsUnsigned) :
    x.equals y = true ↔ x = y := by
  constructor
  · intro same
    exact eq_of_equals same (hx.trans hy.symm)
  · intro same
    subst same
    cases x with
    | nan => cases hx
    | infinity _ | finite _ _ => simp [equals]

theorem Value.equals_iff_eq {v w : Value} (hv : v.IsUnsigned) (hw : w.IsUnsigned) :
    v.equals w = true ↔ v = w := by
  cases v with
  | absent | keyword _ | text _ => cases w <;> simp [equals]
  | number x =>
      cases w with
      | absent | keyword _ | text _ => simp [equals]
      | number y =>
          rw [equals, number.injEq]
          exact Binary64.equals_iff_eq hv hw

theorem Value.equals_self_iff (v : Value) : v.equals v = true ↔ v ≠ .number .nan := by
  cases v with
  | absent | keyword _ | text _ => simp [equals]
  | number x => cases x <;> simp [equals, Binary64.equals]

theorem Value.IsUnsigned.ne_nan {v : Value} (h : v.IsUnsigned) : v ≠ .number .nan := by
  intro same
  subst same
  cases h

theorem Decimal.isUnsigned_toBinary64 (x : Decimal) : (x.toBinary64 false).IsUnsigned := by
  simp only [toBinary64, Binary64.ofRank]
  split_ifs <;> rfl

theorem Lexeme.Reads.isUnsigned {lexeme rest : List Char} {kind : Kind} {value : Value}
    (h : Reads lexeme rest kind value) : value.IsUnsigned := by
  cases h with
  | @number n _ _ => exact n.decimal.isUnsigned_toBinary64
  | _ => trivial

end Values

namespace Token

variable {t u : Token}

theorem equals_iff : t.equals u = true ↔ t.AlikeButForFile u ∧ t.file = u.file := by
  simp only [equals, Bool.and_eq_true, decide_eq_true_eq]
  constructor
  · rintro ⟨⟨⟨⟨⟨⟨kind, value⟩, start⟩, stop⟩, line⟩, column⟩, file⟩
    exact ⟨⟨by simp [sameKindAndValue, kind, value], start, stop, line, column⟩, file⟩
  · rintro ⟨⟨kindAndValue, start, stop, line, column⟩, file⟩
    simp only [sameKindAndValue, Bool.and_eq_true, decide_eq_true_eq] at kindAndValue
    exact ⟨⟨⟨⟨⟨kindAndValue, start⟩, stop⟩, line⟩, column⟩, file⟩

theorem alikeButForFile_inFile (ordinary : t.value ≠ .number .nan) (file : String) :
    t.AlikeButForFile (t.inFile file) := by
  have value := t.value.equals_self_iff.mpr ordinary
  exact ⟨by simp [sameKindAndValue, inFile, value], rfl, rfl, rfl, rfl⟩

theorem equals_self_iff (t : Token) : t.equals t = true ↔ t.value ≠ .number .nan := by
  constructor
  · intro same
    have value := (Bool.and_eq_true_iff.mp (equals_iff.mp same).1.kindAndValue).2
    exact t.value.equals_self_iff.mp value
  · intro ordinary
    exact equals_iff.mpr ⟨alikeButForFile_inFile ordinary t.file, rfl⟩

theorem IsRead.isUnsigned (h : t.IsRead) : t.value.IsUnsigned := by
  obtain ⟨l, answered⟩ := h
  have called := l.nexts_next
  generalize l.next = out at answered called
  cases called with
  | token split blank reads =>
      cases answered
      exact reads.isUnsigned
  | finish blank =>
      cases answered
      trivial
  | failure split blank fails => cases answered

/-- Tokens that are read are equal only if they are the same. -/
theorem IsRead.equals_iff_eq (ht : t.IsRead) (hu : u.IsRead) : t.equals u = true ↔ t = u := by
  constructor
  · intro same
    obtain ⟨⟨kindAndValue, start, stop, line, column⟩, file⟩ := equals_iff.mp same
    obtain ⟨kind, value⟩ := Bool.and_eq_true_iff.mp kindAndValue
    have kind := of_decide_eq_true kind
    have value := (Value.equals_iff_eq ht.isUnsigned hu.isUnsigned).mp value
    calc t = ⟨t.kind, t.value, t.start, t.stop, t.line, t.column, t.file⟩ := rfl
      _ = ⟨u.kind, u.value, u.start, u.stop, u.line, u.column, u.file⟩ := by
          rw [kind, value, start, stop, line, column, file]
  · intro same
    subst same
    exact t.equals_self_iff.mpr ht.isUnsigned.ne_nan

/-- Each token of a stretch starts where those before it have stopped, so that none is there twice. -/
theorem Follow.nodup {before stretch : List Char} {ts : List Token}
    (h : Follow before stretch ts) : ts.Nodup := by
  refine h.order.imp_of_mem ?_
  intro t u ht _ behind same
  subst same
  exact absurd (h.stands t ht).start_lt (Int.not_lt.mpr behind)

section Counting

variable {ts us : List Token}

theorem keep_eq {seen : List Token} (hs : ∀ u ∈ seen, u.IsRead) (ht : t.IsRead) :
    keep seen t = if t ∈ seen then seen else t :: seen := by
  have met : seen.any (·.equals t) = decide (t ∈ seen) := by
    rw [Bool.eq_iff_iff, List.any_eq_true, decide_eq_true_iff]
    constructor
    · intro found
      obtain ⟨u, hu, same⟩ := found
      rwa [← ((hs u hu).equals_iff_eq ht).mp same]
    · intro mem
      exact ⟨t, mem, (ht.equals_iff_eq ht).mpr rfl⟩
  simp only [keep, met, decide_eq_true_eq]

theorem length_foldl_keep {seen : List Token} (hs : ∀ t ∈ seen, t.IsRead)
    (ht : ∀ t ∈ ts, t.IsRead) (nodup : seen.Nodup) :
    (ts.foldl keep seen).length = (seen ++ ts).toFinset.card := by
  induction ts generalizing seen with
  | nil => rw [List.append_nil, List.toFinset_card_of_nodup nodup, List.foldl_nil]
  | cons t ts ih =>
      obtain ⟨first, later⟩ := List.forall_mem_cons.mp ht
      rw [List.foldl_cons, keep_eq hs first]
      by_cases met : t ∈ seen
      · have same : (seen ++ t :: ts).toFinset = (seen ++ ts).toFinset := by
          ext u
          simp only [List.mem_toFinset, List.mem_append, List.mem_cons]
          grind
        rw [if_pos met, ih hs later nodup, same]
      · have same : (seen ++ t :: ts).toFinset = (t :: seen ++ ts).toFinset := by
          ext u
          simp only [List.mem_toFinset, List.mem_append, List.mem_cons]
          grind
        rw [if_neg met, ih (List.forall_mem_cons.mpr ⟨first, hs⟩) later (nodup.cons met), same]

/-- The tokens that differ from every earlier one are as many as there are different tokens. -/
theorem countDistinct_eq_card (ht : ∀ t ∈ ts, t.IsRead) :
    countDistinct ts = ts.toFinset.card :=
  length_foldl_keep (List.forall_mem_nil _) ht List.nodup_nil

theorem countP_equals (ht : t.IsRead) (hu : ∀ u ∈ us, u.IsRead) (nodup : us.Nodup) :
    us.countP (t.equals ·) = if t ∈ us then 1 else 0 := by
  have same : us.countP (t.equals ·) = us.count t := by
    refine List.countP_congr fun u mem => ?_
    rw [ht.equals_iff_eq (hu u mem), beq_iff_eq, eq_comm]
  rw [same, nodup.count]

theorem countPairs_eq_card (ht : ∀ t ∈ ts, t.IsRead) (hu : ∀ u ∈ us, u.IsRead)
    (nodup : ts.Nodup) (nodup' : us.Nodup) :
    countPairs ts us = (ts.toFinset ∩ us.toFinset).card := by
  induction ts with
  | nil => simp [countPairs]
  | cons t ts ih =>
      obtain ⟨first, later⟩ := List.forall_mem_cons.mp ht
      obtain ⟨fresh, nodup⟩ := List.nodup_cons.mp nodup
      have pairs : countPairs (t :: ts) us = us.countP (t.equals ·) + countPairs ts us := by
        rw [countPairs, List.product_cons, List.countP_append, List.countP_map]
        rfl
      rw [pairs, ih later nodup, countP_equals first hu nodup', List.toFinset_cons]
      by_cases shared : t ∈ us
      · have fresh : t ∉ ts.toFinset ∩ us.toFinset := by simp [fresh]
        rw [if_pos shared, Finset.insert_inter_of_mem (List.mem_toFinset.mpr shared),
          Finset.card_insert_of_notMem fresh, Nat.add_comm]
      · rw [if_neg shared, Finset.insert_inter_of_notMem (by simpa using shared), Nat.zero_add]

theorem countDistinct_append (ht : ∀ t ∈ ts, t.IsRead) (hu : ∀ u ∈ us, u.IsRead)
    (nodup : ts.Nodup) (nodup' : us.Nodup) :
    countDistinct (ts ++ us) + countPairs ts us = ts.length + us.length := by
  have all : ∀ t ∈ ts ++ us, t.IsRead := List.forall_mem_append.mpr ⟨ht, hu⟩
  calc countDistinct (ts ++ us) + countPairs ts us
      = (ts.toFinset ∪ us.toFinset).card + (ts.toFinset ∩ us.toFinset).card := by
        rw [countDistinct_eq_card all, countPairs_eq_card ht hu nodup nodup',
          List.toFinset_append]
    _ = ts.toFinset.card + us.toFinset.card := Finset.card_union_add_card_inter _ _
    _ = ts.length + us.length := by
        rw [List.toFinset_card_of_nodup nodup, List.toFinset_card_of_nodup nodup']

end Counting

end Token

theorem Lexer.isRead_of_mem_remaining {l : Lexer} {t : Token} (h : t ∈ l.remaining.tokens) :
    t.IsRead := by
  generalize left : l.remaining.tokens = ts at h
  induction ts generalizing l with
  | nil => cases h
  | cons u ts ih =>
      obtain ⟨place, called, -, -, more⟩ := next_of_cons left
      obtain rfl | later := List.mem_cons.mp h
      · exact ⟨l, by rw [called]⟩
      · exact ih (congrArg Reading.tokens more) later

namespace Session

theorem isRead_perform (s : Session) (request : Request) :
    ∀ t ∈ (s.perform request).answer.read, t.IsRead := by
  intro t ht
  cases request with
  | next =>
      rw [perform] at ht
      split at ht
      · next u lexer called =>
          obtain rfl : t = u := List.mem_singleton.mp ht
          exact ⟨s.lexer, by rw [called]⟩
      · cases ht
  | readAll | tokenize => exact Lexer.isRead_of_mem_remaining ht
  | take name count =>
      have taken : t ∈ (s.lexer.take (s.state name) count).1.answer.1 := ht
      by_cases ended : s.state name = .ended
      · rw [ended, Lexer.take_ended] at taken
        cases taken
      · rw [(s.lexer.takes_take ended count).answer] at taken
        exact Lexer.isRead_of_mem_remaining (List.mem_of_mem_take taken)
  | stream _ | close _ | setSource _ | setFile _ | describe => cases ht

theorem isRead_run (s : Session) (requests : List Request) :
    ∀ step ∈ s.run requests, ∀ t ∈ step.answer.read, t.IsRead := by
  induction requests generalizing s with
  | nil => exact List.forall_mem_nil _
  | cons request requests ih =>
      exact List.forall_mem_cons.mpr ⟨s.isRead_perform request, ih _⟩

theorem mem_read_of_handed {answer : Answer} {t : Token} (h : t ∈ answer.handed) :
    t ∈ answer.read := by
  cases answer with
  | token u =>
      rw [Answer.handed] at h
      split at h
      · cases h
      · exact h
  | tokens _ | taken _ _ | result _ => exact h
  | done | failure _ | description _ _ => cases h

theorem isRead_of_handed {s : Session} {requests : List Request} {t : Token}
    (h : t ∈ handed (s.run requests)) : t.IsRead := by
  obtain ⟨step, mem, ht⟩ := List.mem_flatMap.mp h
  exact s.isRead_run requests step mem t (mem_read_of_handed ht)

/-- Even where the text is exchanged, the cursor only moves forward. -/
theorem handed_distinct (source file : String) (requests : List Request) :
    (handed ((ofSource source file).run requests)).Pairwise fun t u => t.equals u = false := by
  have origin : (ofSource source file).lexer.place = Place.behind [] := rfl
  refine (runs_run origin requests).follow.nodup.imp_of_mem ?_
  intro t u ht hu different
  have same_iff := (isRead_of_handed ht).equals_iff_eq (isRead_of_handed hu)
  exact Bool.eq_false_iff.mpr fun same => different (same_iff.mp same)

end Session

section Results

variable {source file : String}

theorem isRead_of_mem_tokenize {t : Token} (h : t ∈ (tokenize source file).answer.tokens) :
    t.IsRead :=
  Lexer.isRead_of_mem_remaining (l := { source, file }) h

theorem nodup_tokenize (source file : String) : (tokenize source file).answer.tokens.Nodup := by
  obtain ⟨d, hd⟩ := Division.exists_divides source.toList
  rw [Division.tokenize_of_divides hd]
  exact (Division.tokens_follow file [] hd.pieces).nodup

theorem tokenize_inFile (source file file' : String) :
    (tokenize source file').answer.tokens =
        (tokenize source file).answer.tokens.map (.inFile file') ∧
      (tokenize source file').answer.isTruncated = (tokenize source file).answer.isTruncated := by
  obtain ⟨d, hd⟩ := Division.exists_divides source.toList
  rw [Division.tokenize_of_divides hd, Division.tokenize_of_divides hd]
  refine ⟨Division.tokens_file file file' [] d.pieces, ?_⟩
  simp only [Division.result, LexResult.isTruncated, Division.fault]
  split <;> rfl

end Results

/-- Among the tokens that are read, in any state of any session, equality is an equivalence and leaves
no two tokens equal that are not the same: only what is no number differs from itself, and it is never
read. No session hands out a token twice. So a token of one result equals at most one of another, and the
different tokens of both are as many as their tokens, less the equal pairs. The file name has no part in
reading: results of one text match token by token if they have one file name; if not, they agree in all
else and match nowhere. -/
theorem Token.equality_of_results :
    Equivalence (fun t u : { t : Token // t.IsRead } => t.val.equals u.val = true) ∧
      (∀ t u : Token, t.IsRead → u.IsRead → (t.equals u = true ↔ t = u)) ∧
      (∀ t : Token, t.equals t = true ↔ t.value ≠ .number .nan) ∧
      (∀ (s : Session) (requests : List Request), ∀ step ∈ s.run requests,
        ∀ t ∈ step.answer.read, t.IsRead ∧ t.value ≠ .number .nan) ∧
      (∀ (source file : String) (requests : List Request),
        (Session.handed ((Session.ofSource source file).run requests)).Pairwise
          fun t u => t.equals u = false) ∧
      ∀ source file source' file' : String,
        let a := (tokenize source file).answer
        let b := (tokenize source' file').answer
        (∀ t ∈ a.tokens, t.IsRead) ∧
          (∀ (i j : Nat) (t u : Token), a.tokens[i]? = some t → a.tokens[j]? = some u →
            t.equals u = true → i = j) ∧
          (∀ t ∈ a.tokens, b.tokens.countP (t.equals ·) ≤ 1) ∧
          countDistinct (a.tokens ++ b.tokens) = (a.tokens ++ b.tokens).toFinset.card ∧
          countDistinct (a.tokens ++ b.tokens) + countPairs a.tokens b.tokens =
            a.tokens.length + b.tokens.length ∧
          (source = source' → file = file' →
            List.Forall₂ (fun t u => t.equals u = true) a.tokens b.tokens) ∧
          (file ≠ file' → ∀ t ∈ a.tokens, ∀ u ∈ b.tokens, t.equals u = false) ∧
          (source = source' → List.Forall₂ AlikeButForFile a.tokens b.tokens ∧
            a.isTruncated = b.isTruncated) := by
  refine ⟨⟨?_, ?_, ?_⟩, fun t u ht hu => ht.equals_iff_eq hu, equals_self_iff, ?_,
    Session.handed_distinct, ?_⟩
  · intro t
    exact (t.2.equals_iff_eq t.2).mpr rfl
  · intro t u same
    exact (u.2.equals_iff_eq t.2).mpr ((t.2.equals_iff_eq u.2).mp same).symm
  · intro t u v first second
    rw [(t.2.equals_iff_eq u.2).mp first]
    exact second
  · intro s requests step mem t ht
    have read := s.isRead_run requests step mem t ht
    exact ⟨read, read.isUnsigned.ne_nan⟩
  · intro source file source' file' a b
    have ha : ∀ t ∈ a.tokens, t.IsRead := fun t => isRead_of_mem_tokenize
    have hb : ∀ t ∈ b.tokens, t.IsRead := fun t => isRead_of_mem_tokenize
    have nodup : a.tokens.Nodup := nodup_tokenize source file
    have nodup' : b.tokens.Nodup := nodup_tokenize source' file'
    refine ⟨ha, ?_, ?_, countDistinct_eq_card (List.forall_mem_append.mpr ⟨ha, hb⟩),
      countDistinct_append ha hb nodup nodup', ?_, ?_, ?_⟩
    · intro i j t u hi hj same
      have ht := ha t (List.mem_of_getElem? hi)
      have hu := ha u (List.mem_of_getElem? hj)
      have once : a.tokens[i]? = a.tokens[j]? := by
        rw [hi, hj, (ht.equals_iff_eq hu).mp same]
      exact (List.getElem?_inj (List.getElem?_eq_some_iff.mp hi).1 nodup).mp once
    · intro t ht
      rw [countP_equals (ha t ht) hb nodup']
      split <;> decide
    · intro text name
      subst text name
      exact List.forall₂_same.mpr fun t ht => ((ha t ht).equals_iff_eq (ha t ht)).mpr rfl
    · intro different t ht u hu
      refine Bool.eq_false_iff.mpr fun same => different ?_
      rw [← Division.file_of_mem_tokenize ht, ← Division.file_of_mem_tokenize hu]
      exact (equals_iff.mp same).2
    · intro text
      subst text
      obtain ⟨tokens, truncated⟩ := tokenize_inFile source file file'
      have renamed : b.tokens = a.tokens.map (.inFile file') := tokens
      refine ⟨?_, truncated.symm⟩
      rw [renamed, List.forall₂_map_right_iff, List.forall₂_same]
      exact fun t ht => alikeButForFile_inFile (ha t ht).isUnsigned.ne_nan file'

/-- Of tokens that are made otherwise, one may differ from itself, and two with different zeros are equal. -/
example :
    let token (x : Binary64) : Token := ⟨.number, .number x, 0, 1, 1, 1, ""⟩
    (token .nan).equals (token .nan) = false ∧
      (token (.zero true)).equals (token (.zero false)) = true := by
  decide

end ScriptLexer

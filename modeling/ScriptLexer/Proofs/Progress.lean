import Mathlib.Algebra.GroupWithZero.Nat
import ScriptLexer.Proofs.Indexing
import ScriptLexer.Proofs.Positions

/-!
Progress and bounds. A call moves the cursor forward, over blanks and at most one lexeme, and stops
inside the text or at its end, also where the text has become shorter than what was read. Each token
has a visible character of its own, so that there are no more tokens than visible characters left. Main
statement: so it is in every session, and every stream ends.
-/

namespace ScriptLexer

namespace Lexer

/-- What one call comes to, by the text and by the cursor before and behind it: the token for the end
behind blanks only, at the end of the text or where the cursor stood behind it; a token of some text;
or a fault at a character, where the cursor stays. -/
def Advances (l : Lexer) : Except LexError Token × Lexer → Prop
  | (.ok t, m) =>
    if t.isEndOfFile then
      t.start = m.place.offset ∧ t.stop = m.place.offset ∧
        m.place.offset = max l.place.offset l.source.length ∧
        ∀ c ∈ l.source.toList.drop l.place.offset, Text.isBlank c = true
    else
      (l.place.offset : Int) ≤ t.start ∧ t.start < t.stop ∧ t.stop = m.place.offset ∧
        m.place.offset ≤ l.source.length ∧
        ∀ c ∈ (l.source.toList.take t.start.toNat).drop l.place.offset, Text.isBlank c = true
  | (.error e, m) =>
    l.place.offset ≤ m.place.offset ∧ e.offset = m.place.offset ∧
      m.place.offset < l.source.length ∧
      ∀ c ∈ (l.source.toList.take m.place.offset).drop l.place.offset, Text.isBlank c = true

theorem front_of_rest {l : Lexer} {front behind : List Char} (h : l.rest = front ++ behind) :
    (l.source.toList.take (l.place.offset + front.length)).drop l.place.offset = front := by
  rw [List.drop_take, Nat.add_sub_cancel_left, ← rest, h, List.take_left]

theorem length_of_rest {l : Lexer} {cs : List Char} (h : l.rest = cs) (ne : cs ≠ []) :
    l.source.length = l.place.offset + cs.length := by
  have length := congrArg List.length h
  have some_left := List.length_pos_iff.mpr ne
  rw [rest, List.length_drop, String.length_toList] at length
  omega

theorem offset_invalidNumber (span : List Char) (place : Place) (file : String) :
    (LexError.invalidNumber span place file).offset = place.offset := rfl

theorem isEndOfFile_endToken (l : Lexer) : l.endToken.isEndOfFile = true := rfl

theorem advances_next (l : Lexer) : l.Advances l.next := by
  have called := l.nexts_next
  generalize l.next = out at called
  cases called with
  | @token blanks lexeme behind kind value split blank reads =>
      obtain ⟨c, cs, rfl, -⟩ := reads.content
      have length := length_of_rest split (by simp)
      have front := front_of_rest split
      simp only [List.length_append, List.length_cons] at length
      rw [Advances, Token.isEndOfFile_between reads, if_neg Bool.false_ne_true]
      simp only [Token.between, Place.offset_advance, List.length_cons, Int.toNat_natCast, front]
      exact ⟨by omega, by omega, trivial, by omega, blank⟩
  | finish blank =>
      rw [Advances, if_pos (isEndOfFile_endToken _)]
      refine ⟨rfl, rfl, ?_, blank⟩
      rw [Place.offset_advance, rest, List.length_drop, String.length_toList]
      omega
  | @failure blanks span behind split blank fails =>
      obtain ⟨c, cs, rfl, -⟩ := fails.content
      have ne : blanks ++ (c :: cs ++ behind) ≠ [] := by simp
      have length := length_of_rest split ne
      have front := front_of_rest split
      simp only [List.length_append, List.length_cons] at length
      rw [Advances]
      simp only [offset_invalidNumber, Place.offset_advance, front]
      exact ⟨by omega, trivial, by omega, blank⟩

/-- How many visible characters are left to read. -/
def visible (l : Lexer) : Nat := l.rest.countP fun c => !Text.isBlank c

/-- The tokens that are taken have visible characters of their own, and the others are left. -/
def Uses (l : Lexer) (ts : List Token) (m : Lexer) : Prop := ts.length + m.visible ≤ l.visible

theorem Uses.refl (l : Lexer) : l.Uses [] l := by simp [Uses]

theorem Uses.trans {l m n : Lexer} {ts us : List Token} (h : l.Uses ts m) (h' : m.Uses us n) :
    l.Uses (ts ++ us) n := by
  simp only [Uses, List.length_append] at h h' ⊢
  omega

theorem visible_advance {l : Lexer} {front behind : List Char} (h : l.rest = front ++ behind) :
    l.visible = (front.countP fun c => !Text.isBlank c) +
      visible { l with place := l.place.advance front } := by
  rw [visible, visible, rest_advance h, h, List.countP_append]

theorem uses_next (l : Lexer) :
    match l.next with
    | (.ok t, m) => l.Uses (if t.isEndOfFile then [] else [t]) m
    | (.error _, m) => l.Uses [] m := by
  have called := l.nexts_next
  generalize l.next = out at called
  cases called with
  | @token blanks lexeme behind kind value split blank reads =>
      rw [← List.append_assoc] at split
      have passed := visible_advance split
      obtain ⟨c, cs, rfl, visible, -⟩ := reads.content
      dsimp only
      rw [Token.isEndOfFile_between reads, if_neg Bool.false_ne_true, Uses, passed,
        Place.advance_append, List.countP_append, List.countP_cons_of_pos (by simp [visible])]
      simp only [List.length_singleton]
      omega
  | finish blank =>
      have passed := visible_advance (List.append_nil l.rest).symm
      dsimp only
      rw [if_pos (isEndOfFile_endToken _), Uses, passed]
      simp only [List.length_nil]
      omega
  | failure split blank fails =>
      have passed := visible_advance split
      dsimp only
      rw [Uses, passed]
      simp only [List.length_nil]
      omega

theorem uses_draw (l : Lexer) : l.Uses l.draw.1.answer.toList l.draw.1.lexer := by
  have called := l.uses_next
  rw [draw]
  generalize l.next = out at called
  obtain ⟨e | t, m⟩ := out
  · exact called
  · dsimp only at called ⊢
    by_cases atEnd : t.isEndOfFile = true
    · rw [if_pos atEnd] at called ⊢
      exact called
    · rw [if_neg atEnd] at called ⊢
      exact called

theorem uses_advance (l : Lexer) (state : StreamState) :
    l.Uses (l.advance state).1.answer.toList (l.advance state).1.lexer := by
  cases state with
  | ended => exact .refl l
  | active => exact l.uses_draw
  | fresh => exact uses_draw { l with error := none }

theorem uses_take (l : Lexer) (state : StreamState) (count : Nat) :
    l.Uses (l.take state count).1.answer.1 (l.take state count).1.lexer := by
  induction count generalizing l state with
  | zero => exact .refl l
  | succ count ih =>
      have first := l.uses_advance state
      rw [take]
      generalize l.advance state = advanced at first
      obtain ⟨⟨answer, m, records⟩, state'⟩ := advanced
      cases answer with
      | none => exact first
      | some t => exact first.trans (ih m state')

theorem uses_readAll (l : Lexer) : l.Uses l.readAll.answer l.readAll.lexer := by
  have whole := l.uses_take .fresh (l.remaining.tokens.length + 1)
  rwa [take_fresh_eq_readAll] at whole

/-- No more tokens are left than visible characters. -/
theorem remaining_le_visible (l : Lexer) : l.remaining.tokens.length ≤ l.visible :=
  Nat.le_trans (Nat.le_add_right _ _) l.uses_readAll

end Lexer

namespace Session

theorem uses_perform (s : Session) {request : Request} (keeps : request.keepsSource = true) :
    s.lexer.Uses (s.perform request).answer.handed (s.perform request).after.lexer := by
  cases request with
  | next =>
      have called := s.lexer.uses_next
      rw [perform]
      generalize s.lexer.next = out at called
      obtain ⟨e | t, m⟩ := out
      · exact called
      · exact called
  | readAll | tokenize => exact s.lexer.uses_readAll
  | take name count => exact s.lexer.uses_take (s.state name) count
  | stream name | close name | setFile file | describe => exact .refl s.lexer
  | setSource source => cases keeps

theorem uses_run (s : Session) {requests : List Request}
    (keeps : ∀ request ∈ requests, request.keepsSource = true) :
    s.lexer.Uses (handed (s.run requests)) (s.after requests).lexer := by
  induction requests generalizing s with
  | nil => exact .refl s.lexer
  | cons request requests ih =>
      have first := s.uses_perform (keeps request List.mem_cons_self)
      exact first.trans (ih _ fun r hr => keeps r (List.mem_cons_of_mem _ hr))

/-- How many tokens a request asks of a stream. -/
def asked (name : String) : Request → Nat
  | .take other count => if other = name then count else 0
  | .next | .readAll | .tokenize | .stream _ | .close _ | .setSource _ | .setFile _ | .describe => 0

theorem asked_of_ne {name : String} {request : Request} (h : request.stream? ≠ some name) :
    asked name request = 0 := by
  cases request with
  | take other count => exact if_neg fun same => h (congrArg some same)
  | _ => rfl

/-- A stream that has not ended gave as many tokens as it was asked for. -/
theorem asked_perform {s : Session} {name : String} {request : Request}
    (keeps : request.keepsSource = true) (kept : request ≠ .stream name)
    (live : (s.perform request).after.state name ≠ .ended) :
    s.state name ≠ .ended ∧
      asked name request + (s.perform request).after.lexer.visible ≤ s.lexer.visible := by
  have used := s.uses_perform keeps
  by_cases h : request.stream? = some name
  · cases request with
    | stream other =>
        cases h
        exact absurd rfl kept
    | close other =>
        cases h
        exact absurd (state_setState s name .ended) live
    | take other count =>
        cases h
        have taken := s.answers_perform (.take name count)
        rw [Answers] at taken
        by_cases ended : s.state name = .ended
        · rw [if_pos ended] at taken
          exact absurd taken.2 live
        · rw [if_neg ended] at taken
          have enough := Nat.le_of_not_lt (mt taken.2.1.mpr live)
          have given := (s.lexer.takes_take ended count).answer
          simp only [perform, Answer.handed, given, Lexer.Uses, List.length_take,
            Nat.min_eq_left enough] at used
          rw [asked, if_pos rfl]
          exact ⟨ended, used⟩
    | next | readAll | tokenize | setSource _ | setFile _ | describe => cases h
  · rw [s.state_perform_of_ne h] at live
    rw [asked_of_ne h, Nat.zero_add]
    exact ⟨live, Nat.le_trans (Nat.le_add_left _ _) used⟩

theorem asked_run {s : Session} {name : String} {requests : List Request}
    (keeps : ∀ request ∈ requests, request.keepsSource = true)
    (kept : ∀ request ∈ requests, request ≠ .stream name)
    (live : (s.after requests).state name ≠ .ended) :
    s.state name ≠ .ended ∧
    (requests.map (asked name)).sum + (s.after requests).lexer.visible ≤ s.lexer.visible := by
  induction requests generalizing s with
  | nil => exact ⟨live, by simp [after]⟩
  | cons request requests ih =>
      obtain ⟨live', later⟩ := ih (fun r hr => keeps r (List.mem_cons_of_mem _ hr))
        (fun r hr => kept r (List.mem_cons_of_mem _ hr)) live
      obtain ⟨here, now⟩ := asked_perform (keeps request List.mem_cons_self)
        (kept request List.mem_cons_self) live'
      refine ⟨here, ?_⟩
      rw [List.map_cons, List.sum_cons]
      calc asked name request + (requests.map (asked name)).sum + _
          ≤ asked name request + (s.perform request).after.lexer.visible := by
            rw [Nat.add_assoc]
            exact Nat.add_le_add_left later _
        _ ≤ s.lexer.visible := now

/-- In every session, the text exchanged as it may be, a call asks for no character that is not there
and moves the cursor forward to where its answer says. No request moves it back. As long as the text
stays, there are no more tokens than visible characters, and a stream that is asked for more ends. -/
theorem run_progresses (source file : String) (requests : List Request) :
    let s := (ofSource source file).after requests
    let l := s.lexer
    l.nextByIndex? = some l.next ∧ l.Advances l.next ∧
      (∀ request, l.place.offset ≤ (s.perform request).after.lexer.place.offset) ∧
      (∀ count, l.visible < count →
        l.take .fresh count =
          (⟨(l.readAll.answer, true), l.readAll.lexer, l.readAll.records⟩, .ended)) ∧
      ∀ later, (∀ request ∈ later, request.keepsSource = true) →
        (handed (s.run later)).length ≤ l.visible ∧
          ∀ name, (∀ request ∈ later, request ≠ .stream name) →
            l.visible < (later.map (asked name)).sum → (s.after later).state name = .ended := by
  intro s l
  have origin : (ofSource source file).lexer.place = Place.behind [] := rfl
  have start : l.place = Place.behind ((ofSource source file).consumed requests) :=
    (runs_run origin requests).place
  refine ⟨l.nextByIndex?_eq, l.advances_next, ?_, ?_, ?_⟩
  · intro request
    obtain ⟨stretch, moves, -⟩ := moves_perform start request
    rw [moves.place, start]
    simp [Place.behind]
  · intro count many
    have live : StreamState.fresh ≠ .ended := by decide
    rw [Lexer.take_all l live (Nat.lt_of_le_of_lt l.remaining_le_visible many), Lexer.opened,
      Option.or_none]
    rfl
  · intro later keeps
    have used := s.uses_run keeps
    refine ⟨Nat.le_trans (Nat.le_add_right _ _) used, ?_⟩
    intro name kept many
    by_contra live
    obtain ⟨-, bound⟩ := asked_run keeps kept live
    exact absurd many (Nat.not_lt_of_le (Nat.le_trans (Nat.le_add_right _ _) bound))

end Session
end ScriptLexer

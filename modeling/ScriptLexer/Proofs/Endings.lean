import ScriptLexer.Proofs.Positions

/-!
Where reading ends. A call that meets a fault passes over blanks and changes nothing else, and from a
fault or from the end of the text no request leads away, as long as the text and the file name stay.
Main statement: from there on nothing is handed out, nothing moves, and whoever asks meets the same
fault or the same end; so the fault that is kept is the one that the next call meets.
-/

namespace ScriptLexer

namespace Lexer

/-- Nothing is left in front of the cursor but perhaps a fault. -/
def StandsAt (l : Lexer) (fault : Option LexError) : Prop := l.remaining = ⟨[], l.place, fault⟩

theorem StandsAt.tokens {l : Lexer} {fault : Option LexError} (h : l.StandsAt fault) :
    l.remaining.tokens = [] :=
  congrArg Reading.tokens h

theorem StandsAt.place {l : Lexer} {fault : Option LexError} (h : l.StandsAt fault) :
    l.remaining.place = l.place :=
  congrArg Reading.place h

theorem StandsAt.error {l : Lexer} {fault : Option LexError} (h : l.StandsAt fault) :
    l.remaining.error = fault :=
  congrArg Reading.error h

/-- What every call answers where nothing is left. -/
def ending (l : Lexer) : Option LexError → Except LexError Token
  | none => .ok l.endToken
  | some e => .error e

theorem next_of_standsAt {l : Lexer} {fault : Option LexError} (h : l.StandsAt fault) :
    l.next = (l.ending fault, l) := by
  have still : { l with place := l.remaining.place } = l := by rw [h.place]
  cases fault with
  | none =>
      obtain ⟨called, -⟩ := next_of_end h.tokens h.error
      rwa [still] at called
  | some e =>
      obtain ⟨called, -⟩ := next_of_fault h.tokens h.error
      rwa [still] at called

theorem standsAt_end (l : Lexer) :
    StandsAt { l with place := l.remaining.place } l.remaining.error :=
  l.remaining_at_end

/-- A call that meets a fault: the blanks before a literal are passed over and nothing else changes, so
that the cursor stands at the first character of the literal, where the fault is, too. -/
structure FailsAt (l : Lexer) (passed blanks span behind : List Char) (e : LexError) (m : Lexer) :
    Prop where
  split : l.rest = blanks ++ (span ++ behind)
  blank : ∀ c ∈ blanks, Text.isBlank c = true
  fails : Lexeme.Fails span behind
  after : m = { l with place := Place.behind (passed ++ blanks) }
  left : m.rest = span ++ behind
  error : e = .invalidNumber span m.place m.file
  placed : e.offset = m.place.offset ∧ e.line = m.place.line ∧ e.column = m.place.column

theorem failsAt_next {l m : Lexer} {passed : List Char} {e : LexError}
    (start : l.place = Place.behind passed) (h : l.next = (.error e, m)) :
    ∃ blanks span behind, l.FailsAt passed blanks span behind e m := by
  have called := l.nexts_next
  rw [h] at called
  cases called with
  | @failure blanks span behind split blank fails =>
      have moved : l.place.advance blanks = Place.behind (passed ++ blanks) := by
        rw [start, Place.behind_advance]
      refine ⟨blanks, span, behind, split, blank, fails, ?_, rest_advance split, rfl, rfl, rfl,
        rfl⟩
      rw [moved]

theorem standsAt_next_fault {l m : Lexer} {e : LexError} (h : l.next = (.error e, m)) :
    m.StandsAt (some e) := by
  have called := l.nexts_next
  rw [h] at called
  cases called with
  | failure split blank fails => exact (remaining_failure split blank fails).2

theorem standsAt_next_end {l m : Lexer} {t : Token} (h : l.next = (.ok t, m))
    (atEnd : t.isEndOfFile = true) : t = m.endToken ∧ m.StandsAt none := by
  have called := l.nexts_next
  rw [h] at called
  cases called with
  | token split blank reads => exact absurd (of_decide_eq_true atEnd) reads.kind_ne_endOfFile
  | finish blank => exact ⟨rfl, (remaining_finish blank).2⟩

/-- Only the fault that is kept may differ. -/
def SameCursor (l m : Lexer) : Prop := m = { l with error := m.error }

theorem SameCursor.trans {l m n : Lexer} (h : l.SameCursor m) (h' : m.SameCursor n) :
    l.SameCursor n := by
  rw [SameCursor] at h h' ⊢
  rw [h', h]

theorem SameCursor.standsAt {l m : Lexer} {fault : Option LexError} (h : l.SameCursor m)
    (stands : l.StandsAt fault) : m.StandsAt fault := by
  rw [h]
  exact stands

theorem sameCursor_readAll {l : Lexer} {fault : Option LexError} (h : l.StandsAt fault) :
    l.SameCursor l.readAll.lexer := by
  have place : l.readAll.lexer.place = l.place := h.place
  rw [SameCursor, ← place]
  rfl

theorem sameCursor_take {l : Lexer} {fault : Option LexError} (h : l.StandsAt fault)
    (state : StreamState) (count : Nat) : l.SameCursor (l.take state count).1.lexer := by
  by_cases ended : state = .ended
  · rw [ended, take_ended, SameCursor]
  · cases count with
    | zero => rfl
    | succ count =>
        have short : l.remaining.tokens.length < count + 1 := by
          rw [h.tokens]
          exact Nat.succ_pos count
        rw [take_all l ended short, SameCursor, h.place]

/-- The fault that is kept is the one in front of the cursor. -/
def KeepsOwn (l : Lexer) : Prop := ∀ e ∈ l.error, l.StandsAt (some e)

theorem keepsOwn_of_none {l : Lexer} (h : l.error = none) : l.KeepsOwn := by
  intro e he
  rw [h] at he
  cases he

theorem keepsOwn_next {l : Lexer} (h : l.KeepsOwn) : l.next.2.KeepsOwn := by
  cases he : l.error with
  | none =>
      have called := l.nexts_next
      generalize l.next = out at called
      cases called with
      | token _ _ _ | finish _ | failure _ _ _ => exact keepsOwn_of_none he
  | some e =>
      rw [next_of_standsAt (h e he)]
      exact h

theorem keepsOwn_draw {l : Lexer} (h : l.KeepsOwn) : l.draw.1.lexer.KeepsOwn := by
  have after := keepsOwn_next h
  rw [draw]
  cases called : l.next with
  | mk answer m =>
      rw [called] at after
      cases answer with
      | ok t =>
          dsimp only
          split
          · exact after
          · exact after
      | error e =>
          have stands := standsAt_next_fault called
          intro e' he'
          cases he'
          exact stands

theorem keepsOwn_advance {l : Lexer} (h : l.KeepsOwn) (state : StreamState) :
    (l.advance state).1.lexer.KeepsOwn := by
  cases state with
  | ended => exact h
  | active => exact keepsOwn_draw h
  | fresh => exact keepsOwn_draw (l := { l with error := none }) (keepsOwn_of_none rfl)

theorem keepsOwn_take {l : Lexer} (h : l.KeepsOwn) (state : StreamState) (count : Nat) :
    (l.take state count).1.lexer.KeepsOwn := by
  induction count generalizing l state with
  | zero => exact h
  | succ count ih =>
      have first := keepsOwn_advance h state
      rw [take]
      generalize l.advance state = advanced at first
      obtain ⟨⟨answer, m, records⟩, state'⟩ := advanced
      cases answer with
      | none => exact first
      | some t => exact ih first state'

theorem keepsOwn_readAll (l : Lexer) : l.readAll.lexer.KeepsOwn := by
  intro e he
  have fault : l.remaining.error = some e := he
  have stands := l.standsAt_end
  rw [fault] at stands
  exact stands

end Lexer

namespace Session

theorem keepsOwn_perform {s : Session} (h : s.lexer.KeepsOwn) {request : Request}
    (keeps : request.keepsText = true) : (s.perform request).after.lexer.KeepsOwn := by
  cases request with
  | next =>
      have after := Lexer.keepsOwn_next h
      rw [perform]
      cases called : s.lexer.next with
      | mk answer m =>
          rw [called] at after
          cases answer with
          | ok t => exact after
          | error e => exact after
  | readAll | tokenize => exact s.lexer.keepsOwn_readAll
  | take name count => exact Lexer.keepsOwn_take h (s.state name) count
  | stream name | close name | describe => exact h
  | setSource _ | setFile _ => cases keeps

theorem keepsOwn_after {s : Session} (h : s.lexer.KeepsOwn) {requests : List Request}
    (keeps : ∀ request ∈ requests, request.keepsText = true) :
    (s.after requests).lexer.KeepsOwn := by
  induction requests generalizing s with
  | nil => exact h
  | cons request requests ih =>
      exact ih (keepsOwn_perform h (keeps request List.mem_cons_self))
        fun r hr => keeps r (List.mem_cons_of_mem _ hr)

theorem sameCursor_perform {s : Session} {fault : Option LexError} (h : s.lexer.StandsAt fault)
    {request : Request} (keeps : request.keepsText = true) :
    s.lexer.SameCursor (s.perform request).after.lexer := by
  cases request with
  | next =>
      rw [perform, Lexer.next_of_standsAt h]
      cases fault with
      | none | some e => rfl
  | readAll | tokenize => exact Lexer.sameCursor_readAll h
  | take name count => exact Lexer.sameCursor_take h (s.state name) count
  | stream name | close name | describe => rfl
  | setSource _ | setFile _ => cases keeps

theorem sameCursor_after {s : Session} {fault : Option LexError} (h : s.lexer.StandsAt fault)
    {requests : List Request} (keeps : ∀ request ∈ requests, request.keepsText = true) :
    s.lexer.SameCursor (s.after requests).lexer := by
  induction requests generalizing s with
  | nil => rfl
  | cons request requests ih =>
      have first := sameCursor_perform h (keeps request List.mem_cons_self)
      exact first.trans (ih (first.standsAt h) fun r hr => keeps r (List.mem_cons_of_mem _ hr))

/-- The fault in an answer. -/
def fault? : Except LexError Token → Option LexError
  | .ok _ => none
  | .error e => some e

/-- However requests follow, as long as the text and the file name stay: nothing is handed out, the cursor
stays, every call gives the answer `ending` and changes nothing, and every other request finds nothing
left but the fault in that answer, if there is one. -/
def EndsFor (s : Session) (ending : Except LexError Token) : Prop :=
  ∀ later, (∀ request ∈ later, request.keepsText = true) →
    let u := s.after later
    handed (s.run later) = [] ∧ s.lexer.SameCursor u.lexer ∧ u.lexer.next = (ending, u.lexer) ∧
      ∀ request, u.Answers [] (fault? ending) request (u.perform request)

theorem endsFor_of_standsAt {s : Session} {fault : Option LexError}
    (h : s.lexer.StandsAt fault) : s.EndsFor (s.lexer.ending fault) := by
  intro later keeps u
  have same : s.lexer.SameCursor u.lexer := sameCursor_after h keeps
  have stands : u.lexer.StandsAt fault := same.standsAt h
  have ending : u.lexer.ending fault = s.lexer.ending fault := by
    rw [same]
    cases fault with
    | none | some e => rfl
  have found : fault? (s.lexer.ending fault) = fault := by
    cases fault with
    | none | some e => rfl
  refine ⟨?_, same, ending ▸ Lexer.next_of_standsAt stands, ?_⟩
  · obtain ⟨tokens, -⟩ := s.run_remaining keeps
    rw [h.tokens] at tokens
    exact (List.append_eq_nil_iff.mp tokens).1
  · intro request
    have answers := u.answers_perform request
    rwa [stands.tokens, stands.error, ← found] at answers

/-- From every state that a session can reach: a call that meets a fault passes over blanks and changes
nothing else, and then, as after a call that meets the end, there is nothing more to get from the text.
While the text and the file name stay, the fault that is kept is the one in front of the cursor. -/
theorem run_ends (source file : String) (requests : List Request) :
    let first := ofSource source file
    let s := first.after requests
    let l := s.lexer
    (∀ e m, l.next = (.error e, m) →
      s.perform .next = ⟨.failure e, { s with lexer := m }, []⟩ ∧
        (∃ blanks span behind,
          l.FailsAt (first.consumed requests) blanks span behind e m) ∧
        { s with lexer := m }.EndsFor (.error e)) ∧
      (∀ t m, l.next = (.ok t, m) → t.isEndOfFile = true →
        s.perform .next = ⟨.token t, { s with lexer := m }, []⟩ ∧ t = m.endToken ∧
          { s with lexer := m }.EndsFor (.ok t)) ∧
      ((∀ request ∈ requests, request.keepsText = true) →
        ∀ e ∈ l.error, l.next = (.error e, l) ∧ s.EndsFor (.error e)) := by
  intro first s l
  have origin : first.lexer.place = Place.behind [] := rfl
  have start : l.place = Place.behind (first.consumed requests) := (runs_run origin requests).place
  refine ⟨?_, ?_, ?_⟩
  · intro e m called
    refine ⟨?_, Lexer.failsAt_next start called, ?_⟩
    · have answered : s.lexer.next = (.error e, m) := called
      rw [perform, answered]
    · exact endsFor_of_standsAt (s := { s with lexer := m }) (Lexer.standsAt_next_fault called)
  · intro t m called atEnd
    have answered : s.lexer.next = (.ok t, m) := called
    obtain ⟨rfl, stands⟩ := Lexer.standsAt_next_end called atEnd
    refine ⟨?_, rfl, endsFor_of_standsAt (s := { s with lexer := m }) stands⟩
    rw [perform, answered]
  · intro keeps e he
    have none_yet : first.lexer.KeepsOwn := Lexer.keepsOwn_of_none rfl
    have stands := keepsOwn_after none_yet keeps e he
    exact ⟨Lexer.next_of_standsAt stands, endsFor_of_standsAt stands⟩

end Session
end ScriptLexer

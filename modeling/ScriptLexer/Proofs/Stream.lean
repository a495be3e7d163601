import ScriptLexer.Proofs.Cursor
import ScriptLexer.Session

/-!
Streams over one cursor. A stream under way takes the first token that is left, and asking it for
several tokens takes as many from the front. It ends when none is left, and then the fault behind
them, if there is one, is kept and logged.
-/

namespace ScriptLexer.Lexer

/-- The lexer once a stream of the given state has begun to draw on it. -/
def opened (l : Lexer) : StreamState → Lexer
  | .fresh => { l with error := none }
  | .active | .ended => l

theorem remaining_opened (l : Lexer) (state : StreamState) :
    (l.opened state).remaining = l.remaining := by
  cases state <;> rfl

theorem advance_of_live (l : Lexer) {state : StreamState} (live : state ≠ .ended) :
    l.advance state = (l.opened state).draw := by
  cases state with
  | fresh | active => rfl
  | ended => exact absurd rfl live

theorem draw_of_cons {l : Lexer} {t : Token} {ts : List Token} (h : l.remaining.tokens = t :: ts) :
    ∃ place, l.draw = (⟨some t, { l with place }, []⟩, .active) ∧ place.offset = t.stop ∧
      remaining { l with place } = ⟨ts, l.remaining.place, l.remaining.error⟩ := by
  obtain ⟨place, called, notEnd, stop, left⟩ := next_of_cons h
  refine ⟨place, ?_, stop, left⟩
  simp only [draw, called, notEnd]
  rfl

theorem draw_of_nil {l : Lexer} (h : l.remaining.tokens = []) :
    l.draw =
      (⟨none, { l with place := l.remaining.place, error := l.remaining.error.or l.error },
        l.remaining.error.toList.map truncatedRecord⟩, .ended) := by
  cases he : l.remaining.error with
  | none =>
      simp only [draw, (next_of_end h he).1]
      rfl
  | some e =>
      simp only [draw, (next_of_fault h he).1]
      rfl

theorem advance_of_cons {l : Lexer} {state : StreamState} (live : state ≠ .ended) {t : Token}
    {ts : List Token} (h : l.remaining.tokens = t :: ts) :
    ∃ place,
      let after : Lexer := { l.opened state with place }
      l.advance state = (⟨some t, after, []⟩, .active) ∧ place.offset = t.stop ∧
        after.remaining = ⟨ts, l.remaining.place, l.remaining.error⟩ := by
  rw [← l.remaining_opened state] at h ⊢
  rw [advance_of_live l live]
  exact draw_of_cons h

theorem advance_of_nil {l : Lexer} {state : StreamState} (live : state ≠ .ended)
    (h : l.remaining.tokens = []) :
    l.advance state =
      (⟨none,
        { l with
          place := l.remaining.place
          error := l.remaining.error.or (l.opened state).error },
        l.remaining.error.toList.map truncatedRecord⟩, .ended) := by
  rw [← l.remaining_opened state] at h ⊢
  rw [advance_of_live l live, draw_of_nil h]
  cases state with
  | fresh | active | ended => rfl

theorem take_of_none {l m : Lexer} {state state' : StreamState} {records : List Log.Record}
    (h : l.advance state = (⟨none, m, records⟩, state')) (count : Nat) :
    l.take state (count + 1) = (⟨([], true), m, records⟩, state') := by
  simp only [take, h]

theorem take_of_some {l m : Lexer} {t : Token} {state state' : StreamState}
    {records : List Log.Record} (h : l.advance state = (⟨some t, m, records⟩, state'))
    (count : Nat) :
    let more := m.take state' count
    l.take state (count + 1) =
      (⟨(t :: more.1.answer.1, more.1.answer.2), more.1.lexer, records ++ more.1.records⟩,
        more.2) := by
  simp only [take, h]

/-- At the place where reading ends there is nothing left, or the same fault again. -/
theorem remaining_at_end (l : Lexer) :
    remaining { l with place := l.remaining.place } =
      ⟨[], l.remaining.place, l.remaining.error⟩ := by
  cases ht : l.remaining.tokens with
  | nil =>
      rw [← ht]
      cases he : l.remaining.error with
      | none => exact (next_of_end ht he).2.trans (by rw [← he])
      | some e => exact (next_of_fault ht he).2.trans (by rw [← he])
  | cons t ts =>
      obtain ⟨place, -, -, -, left⟩ := next_of_cons ht
      have shorter : (remaining { l with place }).tokens.length < l.remaining.tokens.length := by
        rw [left, ht]
        exact Nat.lt_succ_self _
      have atEnd := remaining_at_end { l with place }
      rwa [left] at atEnd
termination_by l.remaining.tokens.length

theorem take_ended (l : Lexer) (count : Nat) :
    l.take .ended count = (⟨([], decide (0 < count)), l, []⟩, .ended) := by
  cases count <;> rfl

/-- A live stream that is asked for more tokens than are left takes them all and ends. -/
theorem take_all (l : Lexer) {state : StreamState} (live : state ≠ .ended) {count : Nat}
    (short : l.remaining.tokens.length < count) :
    l.take state count =
      (⟨(l.remaining.tokens, true),
        { l with
          place := l.remaining.place
          error := l.remaining.error.or (l.opened state).error },
        l.remaining.error.toList.map truncatedRecord⟩, .ended) := by
  induction count generalizing l state with
  | zero => cases short
  | succ count ih =>
      cases ht : l.remaining.tokens with
      | nil => rw [take_of_none (advance_of_nil live ht)]
      | cons t ts =>
          obtain ⟨place, advanced, -, left⟩ := advance_of_cons live ht
          rw [ht, List.length_cons, Nat.add_lt_add_iff_right] at short
          have more := ih { l.opened state with place } (show StreamState.active ≠ .ended by decide)
            (by rwa [left])
          rw [take_of_some advanced, more, left]
          cases state with
          | fresh | active | ended => rfl

/-- Taking all tokens at once is a stream of its own that is asked until it ends. -/
theorem take_fresh_eq_readAll (l : Lexer) :
    l.take .fresh (l.remaining.tokens.length + 1) =
      (⟨(l.readAll.answer, true), l.readAll.lexer, l.readAll.records⟩, .ended) := by
  have live : StreamState.fresh ≠ .ended := by decide
  rw [take_all l live (Nat.lt_succ_self _), opened, Option.or_none]
  rfl

/-- A live stream that is asked for no more tokens than are left takes as many and stays under way. -/
theorem take_within (l : Lexer) {state : StreamState} (live : state ≠ .ended) {count : Nat}
    (enough : count < l.remaining.tokens.length) :
    ∃ place,
      let after : Lexer := { l.opened state with place }
      l.take state (count + 1) =
          (⟨(l.remaining.tokens.take (count + 1), false), after, []⟩, .active) ∧
        (∀ t ∈ l.remaining.tokens[count]?, place.offset = t.stop) ∧
        after.remaining =
          ⟨l.remaining.tokens.drop (count + 1), l.remaining.place, l.remaining.error⟩ := by
  induction count generalizing l state with
  | zero =>
      obtain ⟨t, ts, ht⟩ := List.exists_cons_of_length_pos enough
      obtain ⟨place, advanced, stop, left⟩ := advance_of_cons live ht
      refine ⟨place, ?_, ?_, ?_⟩
      · rw [take_of_some advanced, ht]
        rfl
      · simpa [ht] using stop
      · simpa [ht] using left
  | succ count ih =>
      obtain ⟨t, ts, ht⟩ := List.exists_cons_of_length_pos (Nat.zero_lt_of_lt enough)
      obtain ⟨place, advanced, -, left⟩ := advance_of_cons live ht
      have more := ih { l.opened state with place } (show StreamState.active ≠ .ended by decide)
      rw [left] at more
      rw [ht, List.length_cons, Nat.add_lt_add_iff_right] at enough
      obtain ⟨place', taken, stop, left'⟩ := more enough
      rw [opened] at taken left'
      refine ⟨place', ?_, ?_, ?_⟩
      · rw [take_of_some advanced, taken, ht]
        rfl
      · simpa [ht] using stop
      · simpa [ht] using left'

/-- What asking a stream for up to `count` tokens comes to, by how it stands and by what is left:
nothing if it has ended or no token is asked for, all that is left if this is too little, or else as
many tokens from the front. -/
inductive Took (l : Lexer) (state : StreamState) (count : Nat) :
    Reply (List Token × Bool) × StreamState → Prop where
  | idle : state = .ended ∨ count = 0 →
      Took l state count (⟨([], decide (0 < count)), l, []⟩, state)
  | all : ¬ (state = .ended ∨ count = 0) → l.remaining.tokens.length < count →
      Took l state count
        (⟨(l.remaining.tokens, true),
          { l with
            place := l.remaining.place
            error := l.remaining.error.or (l.opened state).error },
          l.remaining.error.toList.map truncatedRecord⟩, .ended)
  | within {place : Place} : ¬ (state = .ended ∨ count = 0) → count ≤ l.remaining.tokens.length →
      (∀ t ∈ (l.remaining.tokens.take count).getLast?, place.offset = t.stop) →
      remaining { l.opened state with place } =
        ⟨l.remaining.tokens.drop count, l.remaining.place, l.remaining.error⟩ →
      Took l state count
        (⟨(l.remaining.tokens.take count, false), { l.opened state with place }, []⟩, .active)

theorem took_take (l : Lexer) (state : StreamState) (count : Nat) :
    l.Took state count (l.take state count) := by
  by_cases idle : state = .ended ∨ count = 0
  · have nothing : l.take state count = (⟨([], decide (0 < count)), l, []⟩, state) := by
      obtain rfl | rfl := idle
      · exact l.take_ended count
      · rfl
    rw [nothing]
    exact .idle idle
  · obtain ⟨live, asked⟩ := not_or.mp idle
    by_cases short : l.remaining.tokens.length < count
    · rw [take_all l live short]
      exact .all idle short
    · obtain ⟨more, rfl⟩ := Nat.exists_eq_succ_of_ne_zero asked
      have enough := Nat.le_of_not_lt short
      obtain ⟨place, taken, stop, left⟩ := l.take_within live enough
      rw [taken]
      refine .within idle enough ?_ left
      intro t ht
      rw [List.getLast?_take, if_neg asked, Nat.succ_sub_one,
        List.getElem?_eq_getElem enough, Option.some_or, ← List.getElem?_eq_getElem enough] at ht
      exact stop t ht

/-- What asking a live stream for up to `count` tokens comes to, if reading on would give `left`. -/
structure Takes (left : Reading) (count : Nat) (out : Reply (List Token × Bool) × StreamState) :
    Prop where
  answer : out.1.answer = (left.tokens.take count, decide (left.tokens.length < count))
  remaining : out.1.lexer.remaining = ⟨left.tokens.drop count, left.place, left.error⟩
  records : out.1.records =
    if left.tokens.length < count then left.error.toList.map truncatedRecord else []
  fault : left.tokens.length < count → ∀ e ∈ left.error, out.1.lexer.error = some e
  ended : out.2 = .ended ↔ left.tokens.length < count
  stop : count ≤ left.tokens.length →
    ∀ t ∈ (left.tokens.take count).getLast?, out.1.lexer.place.offset = t.stop

theorem takes_take (l : Lexer) {state : StreamState} (live : state ≠ .ended) (count : Nat) :
    Takes l.remaining count (l.take state count) := by
  have taken := l.took_take state count
  generalize l.take state count = out at taken
  cases taken with
  | idle nothing =>
      obtain rfl := nothing.resolve_left live
      exact ⟨by simp, rfl, rfl, by simp, by simp [live], by simp⟩
  | all _ short =>
      have whole := Nat.le_of_lt short
      constructor
      · rw [List.take_of_length_le whole, decide_eq_true short]
      · rw [List.drop_of_length_le whole]
        exact l.remaining_at_end
      · rw [if_pos short]
      · intro _ e he
        rw [Option.mem_def.mp he, Option.some_or]
      · exact iff_of_true rfl short
      · intro enough
        exact absurd short (Nat.not_lt_of_le enough)
  | within _ enough stop left =>
      have short := Nat.not_lt_of_le enough
      constructor
      · rw [decide_eq_false short]
      · exact left
      · rw [if_neg short]
      · exact fun h => absurd h short
      · exact iff_of_false nofun short
      · exact fun _ => stop

end ScriptLexer.Lexer

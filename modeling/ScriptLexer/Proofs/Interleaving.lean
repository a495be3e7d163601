import ScriptLexer.Proofs.Stream

/-!
Interleaved streams. Whatever order the requests of a session come in, the tokens that they hand
out are, put together, the front of what reading the whole text gives. Each request takes its share
from the front of what is still left; a stream ends only where nothing is left.
-/

namespace ScriptLexer

/-- The text and the file name stay as they are. -/
def Request.keepsText : Request → Bool
  | .setSource _ | .setFile _ => false
  | .next | .readAll | .tokenize | .stream _ | .take _ _ | .close _ | .describe => true

/-- The stream that a request is about. -/
def Request.stream? : Request → Option String
  | .stream name | .take name _ | .close name => some name
  | .next | .readAll | .tokenize | .setSource _ | .setFile _ | .describe => none

/-- The tokens that an answer hands out; the token for the end is not one of them. -/
def Answer.handed : Answer → List Token
  | .token t => if t.isEndOfFile then [] else [t]
  | .tokens ts | .taken ts _ => ts
  | .result r => r.tokens
  | .done | .failure _ | .description _ _ => []

namespace Session

def handed (steps : List Step) : List Token := steps.flatMap (·.answer.handed)

def after (s : Session) (requests : List Request) : Session :=
  requests.foldl (fun s request => (s.perform request).after) s

theorem run_append (s : Session) (before later : List Request) :
    s.run (before ++ later) = s.run before ++ (s.after before).run later := by
  induction before generalizing s with
  | nil => rfl
  | cons request before ih =>
      rw [List.cons_append, run, run, ih]
      rfl

/-- What a request comes to where the tokens in `left` are still to come and then perhaps a fault.

Taking one token gives the first that is left; with none left it meets the end or the fault. Taking
all of them gives just these. A stream that has ended gives nothing; a live one gives as many as it
is asked for, and ends exactly if there are not so many, at the end or at the fault. Nothing is
read ahead: the lexer stands where the last token that it handed out stops. -/
def Answers (s : Session) (left : List Token) (fault : Option LexError) : Request → Step → Prop
  | .next, step =>
    match left, fault with
    | t :: _, _ =>
      step.answer = .token t ∧ t.isEndOfFile = false ∧ step.after.lexer.place.offset = t.stop
    | [], none => ∃ t, step.answer = .token t ∧ t.isEndOfFile = true
    | [], some e => step.answer = .failure e
  | .readAll, step => step.answer = .tokens left ∧ step.after.lexer.error = fault
  | .tokenize, step => step.answer = .result ⟨left, fault⟩
  | .take name count, step =>
    if s.state name = .ended then
      step.answer = .taken [] (decide (0 < count)) ∧ step.after.state name = .ended
    else
      step.answer = .taken (left.take count) (decide (left.length < count)) ∧
        (step.after.state name = .ended ↔ left.length < count) ∧
        (left.length < count → step.records = fault.toList.map Lexer.truncatedRecord ∧
          ∀ e ∈ fault, step.after.lexer.error = some e) ∧
        (count ≤ left.length → ∀ t ∈ (left.take count).getLast?,
          step.after.lexer.place.offset = t.stop)
  | .stream name, step => step.answer = .done ∧ step.after.state name = .fresh
  | .close name, step => step.answer = .done ∧ step.after.state name = .ended
  | .describe, step => step.answer.handed = []
  | .setSource _, step | .setFile _, step => step.answer = .done

theorem answers_perform (s : Session) (request : Request) :
    s.Answers s.lexer.remaining.tokens s.lexer.remaining.error request (s.perform request) := by
  cases request with
  | next =>
      cases ht : s.lexer.remaining.tokens with
      | cons t ts =>
          obtain ⟨place, called, notEnd, stop, -⟩ := Lexer.next_of_cons ht
          simp only [Answers, perform, called]
          exact ⟨trivial, notEnd, stop⟩
      | nil =>
          cases he : s.lexer.remaining.error with
          | none =>
              obtain ⟨called, -⟩ := Lexer.next_of_end ht he
              simp only [Answers, perform, called]
              exact ⟨_, rfl, rfl⟩
          | some e =>
              obtain ⟨called, -⟩ := Lexer.next_of_fault ht he
              simp only [Answers, perform, called]
  | readAll => exact ⟨rfl, rfl⟩
  | tokenize => rfl
  | take name count =>
      by_cases hs : s.state name = .ended
      · rw [Answers, if_pos hs]
        simp only [perform, hs, Lexer.take_ended]
        exact ⟨trivial, state_setState _ _ _⟩
      · have taken := s.lexer.takes_take hs count
        rw [Answers, if_neg hs]
        simp only [perform, state_setState, taken.answer, taken.ended]
        refine ⟨trivial, trivial, ?_, taken.stop⟩
        intro short
        exact ⟨by rw [taken.records, if_pos short], taken.fault short⟩
  | stream name => exact ⟨rfl, state_setState _ _ _⟩
  | close name => exact ⟨rfl, state_setState _ _ _⟩
  | describe | setSource _ | setFile _ => rfl

/-- A step hands out the front of what was left and leaves the rest of it. -/
structure Continues (left : Reading) (step : Step) : Prop where
  tokens : step.answer.handed ++ step.after.lexer.remaining.tokens = left.tokens
  error : step.after.lexer.remaining.error = left.error

theorem continues_perform (s : Session) {request : Request} (keeps : request.keepsText = true) :
    Continues s.lexer.remaining (s.perform request) := by
  cases request with
  | next =>
      cases ht : s.lexer.remaining.tokens with
      | cons t ts =>
          obtain ⟨place, called, notEnd, -, left⟩ := Lexer.next_of_cons ht
          constructor
          · simp [perform, called, Answer.handed, notEnd, left, ht]
          · simp [perform, called, left]
      | nil =>
          cases he : s.lexer.remaining.error with
          | none =>
              obtain ⟨called, left⟩ := Lexer.next_of_end ht he
              constructor
              · simp only [perform, called, left, ht]
                rfl
              · simp only [perform, called, left]
          | some e =>
              obtain ⟨called, left⟩ := Lexer.next_of_fault ht he
              constructor
              · simp only [perform, called, left, ht]
                rfl
              · simp only [perform, called, left]
  | readAll | tokenize =>
      have noneLeft := congrArg Reading.tokens s.lexer.remaining_at_end
      have error := congrArg Reading.error s.lexer.remaining_at_end
      refine ⟨?_, error⟩
      exact (congrArg (s.lexer.remaining.tokens ++ ·) noneLeft).trans (List.append_nil _)
  | take name count =>
      by_cases hs : s.state name = .ended
      · constructor
        · simp only [perform, hs, Lexer.take_ended]
          rfl
        · simp only [perform, hs, Lexer.take_ended]
          rfl
      · have taken := s.lexer.takes_take hs count
        have left := congrArg Reading.tokens taken.remaining
        have error := congrArg Reading.error taken.remaining
        refine ⟨?_, error⟩
        simp only [perform, Answer.handed, taken.answer]
        exact (congrArg (_ ++ ·) left).trans (List.take_append_drop _ _)
  | stream name | close name | describe => exact ⟨rfl, rfl⟩
  | setSource _ | setFile _ => cases keeps

theorem run_remaining (s : Session) {requests : List Request}
    (keeps : ∀ request ∈ requests, request.keepsText = true) :
    handed (s.run requests) ++ (s.after requests).lexer.remaining.tokens =
        s.lexer.remaining.tokens ∧
      (s.after requests).lexer.remaining.error = s.lexer.remaining.error := by
  induction requests generalizing s with
  | nil => exact ⟨rfl, rfl⟩
  | cons request requests ih =>
      obtain ⟨tokens, error⟩ := s.continues_perform (keeps request List.mem_cons_self)
      obtain ⟨tokens', error'⟩ := ih (s.perform request).after
        fun r hr => keeps r (List.mem_cons_of_mem _ hr)
      constructor
      · rw [run, handed, List.flatMap_cons, List.append_assoc, ← tokens, ← tokens']
        rfl
      · exact error'.trans error

theorem state_perform_of_ne (s : Session) {request : Request} {other : String}
    (h : request.stream? ≠ some other) : (s.perform request).after.state other = s.state other := by
  cases request with
  | next =>
      rw [perform]
      split <;> rfl
  | stream name | close name | take name count =>
      exact state_setState_of_ne _ _ fun same => h (congrArg some same.symm)
  | readAll | tokenize | setSource _ | setFile _ | describe => rfl

/-- However requests to a lexer and its streams follow each other, as long as the text and the file
name stay, the tokens handed out are the front of what reading the whole text gives, and each step
comes to what the tokens still left and the fault behind them demand. -/
theorem run_interleaved (source file : String) (requests : List Request)
    (keeps : ∀ request ∈ requests, request.keepsText = true) :
    let first := ofSource source file
    let whole := (ScriptLexer.tokenize source file).answer
    handed (first.run requests) <+: whole.tokens ∧
      ∀ before request later, requests = before ++ request :: later →
        let s := first.after before
        let step := s.perform request
        first.run requests = first.run before ++ step :: step.after.run later ∧
          s.Answers (whole.tokens.drop (handed (first.run before)).length) whole.error request
            step ∧
          ∀ other, request.stream? ≠ some other → step.after.state other = s.state other := by
  intro first whole
  obtain ⟨tokens, -⟩ := first.run_remaining keeps
  refine ⟨⟨_, tokens⟩, ?_⟩
  intro before request later split s step
  subst split
  obtain ⟨tokens, error⟩ := first.run_remaining
    fun r hr => keeps r (List.mem_append_left _ hr)
  have left : s.lexer.remaining.tokens =
      whole.tokens.drop (handed (first.run before)).length := by
    have all : whole.tokens = first.lexer.remaining.tokens := rfl
    rw [all, ← tokens, List.drop_left]
  have fault : s.lexer.remaining.error = whole.error := error
  refine ⟨?_, ?_, ?_⟩
  · exact first.run_append before (request :: later)
  · rw [← left, ← fault]
    exact s.answers_perform request
  · intro other h
    exact s.state_perform_of_ne h

/-- Two streams and a plain call share three words, and the stream that asks last meets the fault. -/
theorem shared_words :
    let requests : List Request :=
      [.stream "left", .stream "right", .take "left" 1, .next, .take "right" 2, .take "left" 1]
    let steps := (ofSource "a b c 1.2.3" "f").run requests
    let whole := (ScriptLexer.tokenize "a b c 1.2.3" "f").answer
    (∀ request ∈ requests, request.keepsText = true) ∧ handed steps <+: whole.tokens ∧
      (handed steps).length = 3 ∧ whole.isTruncated = true := by
  intro requests steps whole
  have keeps : ∀ request ∈ requests, request.keepsText = true := by decide
  obtain ⟨front, -⟩ := run_interleaved "a b c 1.2.3" "f" requests keeps
  exact ⟨keeps, front, by decide +kernel, by decide +kernel⟩

end Session
end ScriptLexer

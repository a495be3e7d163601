import ScriptLexer.Proofs.Interleaving
import ScriptLexer.Proofs.Passage

/-!
Positions along a run. The text of a session may be exchanged while the cursor stands in it, so
lines and columns are counted in what the cursor has passed over, whichever texts that stood in.
Main statement: the lexer, every token and every fault have the line and column that this count
gives, and the tokens handed out move forward in it.
-/

namespace ScriptLexer

/-- The text is not exchanged. -/
def Request.keepsSource : Request → Bool
  | .setSource _ => false
  | .next | .readAll | .tokenize | .stream _ | .take _ _ | .close _ | .setFile _ | .describe =>
    true

/-- Every token and every fault in the answer has the place of a character of the text, or of its
end. -/
def Answer.PlacedIn (text : List Char) : Answer → Prop
  | .token t => Located text t.start t.line t.column
  | .failure e => Located text e.offset e.line e.column
  | .tokens ts | .taken ts _ => ∀ t ∈ ts, Located text t.start t.line t.column
  | .result r =>
    (∀ t ∈ r.tokens, Located text t.start t.line t.column) ∧
      ∀ e ∈ r.error, Located text e.offset e.line e.column
  | .done | .description _ _ => True

theorem Answer.PlacedIn.mono {text text' : List Char} {answer : Answer} (h : text <+: text')
    (placed : answer.PlacedIn text) : answer.PlacedIn text' := by
  cases answer with
  | token t | failure e => exact Located.mono h placed
  | tokens ts | taken ts ended => exact fun t ht => (placed t ht).mono h
  | result r => exact ⟨fun t ht => (placed.1 t ht).mono h, fun e he => (placed.2 e he).mono h⟩
  | done | description source file => trivial

namespace Session

/-- The characters that the cursor passes over in a run, in whichever text each of them stands. -/
def consumed (s : Session) : List Request → List Char
  | [] => []
  | request :: requests =>
    let after := (s.perform request).after
    s.lexer.passed after.lexer ++ after.consumed requests

/-- A step passes over the front of what is left and answers with places in it. -/
structure Moves (before : List Char) (s : Session) (stretch : List Char) (step : Step) :
    Prop where
  passed : s.lexer.passed step.after.lexer = stretch
  front : stretch <+: s.lexer.rest
  place : step.after.lexer.place = Place.behind (before ++ stretch)
  follow : Token.Follow before stretch step.answer.handed
  answer : step.answer.PlacedIn (before ++ stretch)
  error : FaultIn (before ++ stretch) s.lexer.error step.after.lexer.error

theorem moves_of_passes {before stretch : List Char} {s : Session} {step : Step}
    (start : s.lexer.place = Place.behind before)
    (h : Lexer.Passes before s.lexer stretch step.answer.handed step.after.lexer)
    (answer : step.answer.PlacedIn (before ++ stretch)) : Moves before s stretch step :=
  ⟨h.passed_eq start, h.front, h.place, h.follow, answer, h.error⟩

theorem moves_of_still {before : List Char} {s : Session} {step : Step}
    (start : s.lexer.place = Place.behind before) (place : step.after.lexer.place = s.lexer.place)
    (handed : step.answer.handed = []) (answer : step.answer.PlacedIn before)
    (error : step.after.lexer.error = s.lexer.error) : Moves before s [] step := by
  refine ⟨?_, List.nil_prefix, ?_, ?_, ?_, ?_⟩
  · rw [Lexer.passed, place, Nat.sub_self, List.take_zero]
  · rw [place, start, List.append_nil]
  · rw [handed]
    exact .nil _ _
  · rwa [List.append_nil]
  · rw [error]
    exact .refl _ _

theorem moves_perform {before : List Char} {s : Session}
    (start : s.lexer.place = Place.behind before) (request : Request) :
    ∃ stretch, Moves before s stretch (s.perform request) ∧
      (request.keepsSource = true →
        (s.perform request).after.lexer.source = s.lexer.source) := by
  cases request with
  | next =>
      obtain ⟨stretch, called⟩ := Lexer.passes_next start
      refine ⟨stretch, ?_⟩
      rw [perform]
      generalize s.lexer.next = out at called
      obtain ⟨e | t, m⟩ := out
      · exact ⟨moves_of_passes start called.1 called.2, fun _ => called.1.source⟩
      · exact ⟨moves_of_passes start called.1 called.2, fun _ => called.1.source⟩
  | readAll =>
      obtain ⟨stretch, passes, -⟩ := Lexer.passes_readAll start
      have placed := fun t ht => (passes.follow.stands t ht).located
      exact ⟨stretch, moves_of_passes start passes placed, fun _ => passes.source⟩
  | tokenize =>
      obtain ⟨stretch, passes, located⟩ := Lexer.passes_readAll start
      have placed := fun t ht => (passes.follow.stands t ht).located
      exact ⟨stretch, moves_of_passes start passes ⟨placed, located⟩, fun _ => passes.source⟩
  | take name count =>
      obtain ⟨stretch, passes⟩ := Lexer.passes_take start (s.state name) count
      have placed := fun t ht => (passes.follow.stands t ht).located
      exact ⟨stretch, moves_of_passes start passes placed, fun _ => passes.source⟩
  | stream name | close name | setFile file | describe =>
      exact ⟨[], moves_of_still start rfl rfl trivial rfl, fun _ => rfl⟩
  | setSource source =>
      refine ⟨[], moves_of_still start rfl rfl trivial rfl, ?_⟩
      intro keeps
      cases keeps

structure Runs (before : List Char) (s : Session) (requests : List Request) : Prop where
  place : (s.after requests).lexer.place = Place.behind (before ++ s.consumed requests)
  follow : Token.Follow before (s.consumed requests) (handed (s.run requests))
  answers : ∀ step ∈ s.run requests, step.answer.PlacedIn (before ++ s.consumed requests)
  error : FaultIn (before ++ s.consumed requests) s.lexer.error (s.after requests).lexer.error

theorem runs_run {before : List Char} {s : Session} (start : s.lexer.place = Place.behind before)
    (requests : List Request) : Runs before s requests := by
  induction requests generalizing before s with
  | nil =>
      refine ⟨?_, .nil _ _, List.forall_mem_nil _, .refl _ _⟩
      rw [consumed, List.append_nil]
      exact start
  | cons request requests ih =>
      obtain ⟨stretch, first, -⟩ := moves_perform start request
      have later := ih first.place
      have text : s.consumed (request :: requests) =
          stretch ++ (s.perform request).after.consumed requests := by
        rw [consumed, first.passed]
      have farther : before ++ stretch <+: before ++ s.consumed (request :: requests) := by
        rw [text]
        exact append_isPrefix before stretch _
      constructor
      · rw [text, ← List.append_assoc]
        exact later.place
      · rw [text]
        exact first.follow.append later.follow
      · intro step hstep
        obtain rfl | hstep := List.mem_cons.mp hstep
        · exact first.answer.mono farther
        · rw [text, ← List.append_assoc]
          exact later.answers step hstep
      · refine first.error.trans farther ?_
        rw [text, ← List.append_assoc]
        exact later.error

/-- As long as the text is not exchanged, its own front is what the cursor passes over. -/
theorem consumed_isPrefix {before : List Char} {s : Session}
    (start : s.lexer.place = Place.behind before) (front : before <+: s.lexer.source.toList)
    {requests : List Request} (keeps : ∀ request ∈ requests, request.keepsSource = true) :
    before ++ s.consumed requests <+: s.lexer.source.toList := by
  induction requests generalizing before s with
  | nil => rwa [consumed, List.append_nil]
  | cons request requests ih =>
      obtain ⟨stretch, first, source⟩ := moves_perform start request
      have same := source (keeps request List.mem_cons_self)
      have farther : before ++ stretch <+: s.lexer.source.toList := by
        obtain ⟨left, split⟩ := front
        have rest : s.lexer.rest = left := by
          rw [Lexer.rest, start, ← split]
          exact List.drop_left
        rw [← split, ← rest]
        exact (List.prefix_append_right_inj _).mpr first.front
      have all := ih first.place (same ▸ farther) fun r hr => keeps r (List.mem_cons_of_mem _ hr)
      rw [consumed, first.passed, ← List.append_assoc, ← same]
      exact all

/-- In every run, the texts exchanged as they may be, the line and the column of the cursor, of
every token and of every fault are counted in the characters that the cursor passed over; every
character but a line feed takes one column. The tokens move forward by line and column, which tell
where a token starts. While the text is not exchanged, these characters are its front. -/
theorem run_positions (source file : String) (requests : List Request) :
    let first := ofSource source file
    let text := first.consumed requests
    let steps := first.run requests
    let last := (first.after requests).lexer
    last.place = Place.behind text ∧
      (∀ step ∈ steps, step.answer.PlacedIn text) ∧
      (∀ e ∈ last.error, Located text e.offset e.line e.column) ∧
      (∀ t ∈ handed steps, t.start < t.stop ∧ t.stop ≤ last.place.offset) ∧
      (handed steps).Pairwise Token.Precedes ∧
      (∀ t ∈ handed steps, ∀ u ∈ handed steps, t.line = u.line → t.column = u.column →
        t.start = u.start) ∧
      (∀ front c, front ++ [c] <+: text → c ≠ '\n' →
        (Place.behind (front ++ [c])).line = (Place.behind front).line ∧
          (Place.behind (front ++ [c])).column = (Place.behind front).column + 1) ∧
      ((∀ request ∈ requests, request.keepsSource = true) →
        text = source.toList.take last.place.offset) := by
  intro first text steps last
  have start : first.lexer.place = Place.behind [] := rfl
  have runs := runs_run start requests
  have length : last.place.offset = text.length := by
    rw [runs.place]
    rfl
  refine ⟨runs.place, runs.answers, ?_, ?_, runs.follow.precedes, ?_, ?_, ?_⟩
  · intro e he
    obtain none_yet | located := runs.error e he
    · cases none_yet
    · exact located
  · intro t ht
    rw [length]
    exact ⟨(runs.follow.stands t ht).start_lt, (runs.follow.stands t ht).stop_le⟩
  · intro t ht u hu line column
    exact (runs.follow.stands t ht).start_eq (runs.follow.stands u hu) line column
  · intro front c _ hc
    rw [Place.behind_concat, Place.step, if_neg hc]
    exact ⟨rfl, rfl⟩
  · intro keeps
    rw [length]
    exact List.prefix_iff_eq_take.mp (consumed_isPrefix start List.nil_prefix keeps)

end Session
end ScriptLexer

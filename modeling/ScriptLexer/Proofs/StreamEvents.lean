import Mathlib.Logic.Function.Basic
import ScriptLexer.Proofs.Interleaving

/-!
The fault that a lexer keeps and the log, by what happens to its streams. Two kinds of event count: a
stream is asked for the first time, and a stream ends at a fault. Requests and their answers tell how
every stream stands, and so what happens to it. Main statement: the streams stand as it is told, the
latest event decides which fault is kept, each failure of a stream is logged once and in order, and
nothing else touches either.
-/

namespace ScriptLexer

/-- What happens to a stream. The stream that takes all tokens at once has no name. -/
inductive StreamEvent where
  | begins (stream : Option String)
  | fails (stream : Option String) (error : LexError)
deriving Repr, DecidableEq

namespace StreamEvent

/-- The fault that is kept from the event on. -/
def fault? : StreamEvent → Option LexError
  | begins _ => none
  | fails _ error => some error

/-- The record of a stream that is cut short. -/
def warning? : StreamEvent → Option Log.Record
  | begins _ => none
  | fails _ error =>
    some ⟨.warning, "tinyscript.lexer.lexer", "Token stream truncated: " ++ error.message⟩

/-- The fault that is kept after the events: that of the latest, or else the one from before. -/
def kept (before : Option LexError) (events : List StreamEvent) : Option LexError :=
  (events.getLast?.map fault?).getD before

@[simp] theorem kept_nil (before : Option LexError) : kept before [] = before := rfl

theorem kept_append (before : Option LexError) (es fs : List StreamEvent) :
    kept before (es ++ fs) = kept (kept before es) fs := by
  simp only [kept, List.getLast?_append]
  cases fs.getLast? <;> rfl

theorem kept_none (events : List StreamEvent) :
    kept none events = events.getLast?.bind fault? := by
  rw [kept]
  cases events.getLast? <;> rfl

theorem level_of_warning? {event : StreamEvent} {record : Log.Record}
    (h : event.warning? = some record) : record.level = .warning := by
  cases event with
  | begins stream => cases h
  | fails stream error =>
      cases h
      rfl

end StreamEvent

/-- A request with its answer, and the fault at which reading on from there would have ended. -/
structure Exchange where
  request : Request
  answer : Answer
  ahead : Option LexError
deriving Repr, DecidableEq

namespace Exchange

/-- How the streams stand after an exchange. A stream is fresh when it is made and until it is first
asked for a token. It ends when it is closed or gives fewer tokens than it is asked for, and then there
is nothing to ask of it until one of its name is made anew. -/
def follow (x : Exchange) (standing : String → StreamState) : String → StreamState :=
  match x.request with
  | .stream name => Function.update standing name .fresh
  | .close name => Function.update standing name .ended
  | .take name count =>
    if standing name = .ended ∨ count = 0 then standing
    else Function.update standing name
      (if x.answer.handed.length < count then .ended else .active)
  | .next | .readAll | .tokenize | .setSource _ | .setFile _ | .describe => standing

/-- What happens to the streams in an exchange. Taking all tokens at once is asking a stream of its own
until it ends. -/
def happens (x : Exchange) (standing : String → StreamState) : List StreamEvent :=
  match x.request with
  | .readAll | .tokenize => .begins none :: x.ahead.toList.map (.fails none)
  | .take name count =>
    if standing name = .ended ∨ count = 0 then []
    else
      (if standing name = .fresh then [.begins (some name)] else []) ++
        if x.answer.handed.length < count then x.ahead.toList.map (.fails (some name)) else []
  | .next | .stream _ | .close _ | .setSource _ | .setFile _ | .describe => []

/-- No stream is asked for the first time, and none meets a fault: the request is about no stream's
tokens, or the stream has ended, or it is under way and gives enough tokens or has no fault behind
them. -/
def IsQuiet (x : Exchange) (standing : String → StreamState) : Prop :=
  match x.request with
  | .next | .stream _ | .close _ | .setSource _ | .setFile _ | .describe => True
  | .take name count =>
    standing name = .ended ∨ count = 0 ∨
      standing name = .active ∧ (count ≤ x.answer.handed.length ∨ x.ahead = none)
  | .readAll | .tokenize => False

/-- The report of how many tokens a call has read. -/
def counts (x : Exchange) (file : String) : List Log.Record :=
  match x.request with
  | .tokenize =>
    [⟨.debug, "tinyscript.lexer.lexer",
      "Lexed " ++ file ++ ": " ++ toString x.answer.handed.length ++ " token(s)"⟩]
  | .next | .readAll | .stream _ | .take _ _ | .close _ | .setSource _ | .setFile _ | .describe =>
    []

/-- How the streams stand after some exchanges. -/
def standing (start : String → StreamState) (exchanges : List Exchange) : String → StreamState :=
  exchanges.foldl (fun standing x => x.follow standing) start

/-- What happens to the streams in some exchanges. -/
def events (start : String → StreamState) : List Exchange → List StreamEvent
  | [] => []
  | x :: xs => x.happens start ++ events (x.follow start) xs

variable {start : String → StreamState}

theorem happens_of_isQuiet {x : Exchange} (quiet : x.IsQuiet start) : x.happens start = [] := by
  obtain ⟨request, answer, ahead⟩ := x
  cases request with
  | next | stream _ | close _ | setSource _ | setFile _ | describe => rfl
  | readAll | tokenize => cases quiet
  | take name count =>
      obtain ended | none_asked | ⟨active, enough | faultless⟩ := quiet
      · exact if_pos (.inl ended)
      · exact if_pos (.inr none_asked)
      · simp [happens, active, Nat.not_lt_of_le enough]
      · simp [happens, active, show ahead = none from faultless]

/-- Without a stream that begins there is none under way, and none that could fail. -/
theorem idle_follow {x : Exchange} (idle : ∀ name, start name ≠ .active)
    (none_begins : ∀ stream, .begins stream ∉ x.happens start) :
    x.happens start = [] ∧ ∀ name, x.follow start name ≠ .active := by
  have update_idle (name : String) {state : StreamState} (h : state ≠ .active) :
      ∀ other, Function.update start name state other ≠ .active := by
    rw [Function.forall_update_iff start fun _ state => state ≠ .active]
    exact ⟨h, fun other _ => idle other⟩
  obtain ⟨request, answer, ahead⟩ := x
  cases request with
  | next | setSource _ | setFile _ | describe => exact ⟨rfl, idle⟩
  | stream name | close name => exact ⟨rfl, update_idle name (by decide)⟩
  | readAll | tokenize => exact absurd List.mem_cons_self (none_begins none)
  | take name count =>
      by_cases none_given : start name = .ended ∨ count = 0
      · refine ⟨if_pos none_given, ?_⟩
        simpa only [follow, if_pos none_given] using idle
      · have fresh : start name = .fresh := by
          cases hs : start name with
          | fresh => rfl
          | active => exact absurd hs (idle name)
          | ended => exact absurd (.inl hs) none_given
        refine absurd ?_ (none_begins (some name))
        simp only [happens, if_neg none_given, if_pos fresh]
        exact List.mem_cons_self

theorem events_eq_nil (idle : ∀ name, start name ≠ .active) {xs : List Exchange}
    (none_begins : ∀ stream, .begins stream ∉ events start xs) : events start xs = [] := by
  induction xs generalizing start with
  | nil => rfl
  | cons x xs ih =>
      simp only [events, List.mem_append, not_or] at none_begins
      obtain ⟨nothing, idle⟩ := idle_follow idle fun stream => (none_begins stream).1
      rw [events, nothing, List.nil_append]
      exact ih idle fun stream => (none_begins stream).2

end Exchange

namespace Lexer

theorem warning?_fails (stream : Option String) (e : LexError) :
    (StreamEvent.fails stream e).warning? = some (truncatedRecord e) := by
  rw [StreamEvent.warning?, truncatedRecord, logger_eq]

/-- What the events leave behind: the fault that is kept then, and the records. -/
structure Shows (l m : Lexer) (records : List Log.Record) (events : List StreamEvent) : Prop where
  error : m.error = StreamEvent.kept l.error events
  records : records = events.filterMap StreamEvent.warning?

theorem Shows.trans {l m n : Lexer} {records more : List Log.Record}
    {events later : List StreamEvent} (h : Shows l m records events) (h' : Shows m n more later) :
    Shows l n (records ++ more) (events ++ later) := by
  refine ⟨?_, ?_⟩
  · rw [StreamEvent.kept_append, ← h.error]
    exact h'.error
  · rw [List.filterMap_append, ← h.records, ← h'.records]

/-- A stream that runs short leaves the fault behind, if there is one. -/
theorem shows_fault {l m : Lexer} {fault : Option LexError} (h : m.error = fault.or l.error)
    (stream : Option String) :
    Shows l m (fault.toList.map truncatedRecord) (fault.toList.map (.fails stream)) := by
  cases fault with
  | none => exact ⟨h, rfl⟩
  | some e =>
      refine ⟨h, ?_⟩
      rw [Option.toList_some, List.map_singleton, List.map_singleton,
        List.filterMap_cons_some (warning?_fails stream e), List.filterMap_nil]

/-- A live stream begins when it is first asked. -/
theorem shows_opened (l : Lexer) (stream : Option String) (state : StreamState) :
    Shows l (l.opened state) [] (if state = .fresh then [.begins stream] else []) := by
  cases state with
  | fresh | active | ended => exact ⟨rfl, rfl⟩

theorem shows_readAll (l : Lexer) :
    Shows l l.readAll.lexer l.readAll.records
      (.begins none :: l.remaining.error.toList.map (.fails none)) := by
  have begun := l.shows_opened none .fresh
  exact begun.trans (shows_fault (Option.or_none.symm : l.remaining.error = _) none)

section Took

variable {l : Lexer} {state : StreamState} {count : Nat}
  {out : Reply (List Token × Bool) × StreamState}

/-- A live stream that is asked for tokens begins if it is fresh, and fails if it gives too few and
there is a fault behind them. -/
theorem Took.shows (h : l.Took state count out) (stream : Option String) :
    Shows l out.1.lexer out.1.records
      (if state = .ended ∨ count = 0 then []
      else
        (if state = .fresh then [.begins stream] else []) ++
          if out.1.answer.1.length < count then l.remaining.error.toList.map (.fails stream)
          else []) := by
  have begun := l.shows_opened stream state
  cases h with
  | idle nothing =>
      rw [if_pos nothing]
      exact ⟨rfl, rfl⟩
  | all asked short =>
      rw [if_neg asked, if_pos short]
      exact begun.trans (shows_fault rfl stream)
  | within asked enough _ _ =>
      have given := Nat.not_lt_of_le (Nat.le_of_eq (List.length_take_of_le enough).symm)
      rw [if_neg asked, if_neg given, List.append_nil]
      exact ⟨begun.error, begun.records⟩

/-- It ends if it gives too few, and is under way if not. -/
theorem Took.state_eq (h : l.Took state count out) :
    out.2 =
      if state = .ended ∨ count = 0 then state
      else if out.1.answer.1.length < count then .ended else .active := by
  cases h with
  | idle nothing => rw [if_pos nothing]
  | all asked short => rw [if_neg asked, if_pos short]
  | within asked enough _ _ =>
      have given := Nat.not_lt_of_le (Nat.le_of_eq (List.length_take_of_le enough).symm)
      rw [if_neg asked, if_neg given]

theorem Took.text_eq (h : l.Took state count out) :
    (out.1.lexer.source, out.1.lexer.file) = (l.source, l.file) := by
  cases h with
  | idle _ | all _ _ => rfl
  | within _ _ _ _ =>
      cases state with
      | fresh | active | ended => rfl

end Took

end Lexer

namespace Session

/-- The text and the file name after a request. -/
def retext (text : String × String) : Request → String × String
  | .setSource source => (source, text.2)
  | .setFile file => (text.1, file)
  | .next | .readAll | .tokenize | .stream _ | .take _ _ | .close _ | .describe => text

/-- The fault ahead is the one behind all that is left before the request. -/
def exchange (s : Session) (request : Request) : Exchange :=
  ⟨request, (s.perform request).answer, s.lexer.remaining.error⟩

def exchanges (s : Session) : List Request → List Exchange
  | [] => []
  | request :: requests =>
    s.exchange request :: (s.perform request).after.exchanges requests

theorem state_setState_eq_update (s : Session) (name : String) (state : StreamState) :
    (s.setState name state).state = Function.update s.state name state := by
  funext other
  by_cases same : other = name
  · rw [same, state_setState, Function.update_self]
  · rw [state_setState_of_ne s state same, Function.update_of_ne same]

/-- After a step the streams stand as request and answer tell. -/
theorem state_perform (s : Session) (request : Request) :
    (s.perform request).after.state = (s.exchange request).follow s.state := by
  cases request with
  | next =>
      rw [perform]
      split <;> rfl
  | readAll | tokenize | setSource _ | setFile _ | describe => rfl
  | stream name | close name => exact s.state_setState_eq_update name _
  | take name count =>
      have state := (s.lexer.took_take (s.state name) count).state_eq
      calc (s.perform (.take name count)).after.state
          = Function.update s.state name (s.lexer.take (s.state name) count).2 :=
            state_setState_eq_update { s with lexer := _ } name _
        _ = (s.exchange (.take name count)).follow s.state := by
            simp only [Exchange.follow, exchange]
            by_cases idle : s.state name = .ended ∨ count = 0
            · rw [if_pos idle] at state ⊢
              rw [state, Function.update_eq_self]
            · rw [if_neg idle] at state ⊢
              rw [state]
              rfl

/-- A step changes the fault that is kept, and the log, by what happens in it and in no other way. -/
theorem shows_perform (s : Session) (request : Request) :
    let x := s.exchange request
    ∃ records, Lexer.Shows s.lexer (s.perform request).after.lexer records (x.happens s.state) ∧
      (s.perform request).records = records ++ x.counts s.lexer.file := by
  cases request with
  | next =>
      have called := s.lexer.nexts_next
      rw [perform]
      generalize s.lexer.next = out at called
      cases called with
      | token _ _ _ | finish _ | failure _ _ _ => exact ⟨[], ⟨rfl, rfl⟩, rfl⟩
  | readAll => exact ⟨_, s.lexer.shows_readAll, (List.append_nil _).symm⟩
  | tokenize =>
      refine ⟨_, s.lexer.shows_readAll, ?_⟩
      simp only [Exchange.counts, exchange, ← Lexer.logger_eq]
      rfl
  | take name count =>
      have taken := s.lexer.took_take (s.state name) count
      exact ⟨_, taken.shows (some name), (List.append_nil _).symm⟩
  | stream name | close name | setSource source | setFile file | describe =>
      exact ⟨[], ⟨rfl, rfl⟩, rfl⟩

theorem text_perform (s : Session) (request : Request) :
    let after := (s.perform request).after.lexer
    (after.source, after.file) = retext (s.lexer.source, s.lexer.file) request := by
  cases request with
  | next =>
      have called := s.lexer.nexts_next
      rw [perform]
      generalize s.lexer.next = out at called
      cases called with
      | token _ _ _ | finish _ | failure _ _ _ => rfl
  | take name count => exact (s.lexer.took_take (s.state name) count).text_eq
  | readAll | tokenize | stream name | close name | setSource source | setFile file | describe =>
      rfl

section Run

variable (s : Session) (before requests later : List Request)

theorem exchanges_append :
    s.exchanges (before ++ later) = s.exchanges before ++ (s.after before).exchanges later := by
  induction before generalizing s with
  | nil => rfl
  | cons request before ih =>
      rw [List.cons_append, exchanges, exchanges, ih]
      rfl

theorem state_after :
    (s.after requests).state = Exchange.standing s.state (s.exchanges requests) := by
  induction requests generalizing s with
  | nil => rfl
  | cons request requests ih =>
      rw [exchanges, Exchange.standing, List.foldl_cons, ← state_perform]
      exact ih (s.perform request).after

theorem text_after :
    let last := (s.after requests).lexer
    (last.source, last.file) = requests.foldl retext (s.lexer.source, s.lexer.file) := by
  induction requests generalizing s with
  | nil => rfl
  | cons request requests ih =>
      rw [List.foldl_cons, ← text_perform]
      exact ih (s.perform request).after

theorem error_after :
    (s.after requests).lexer.error =
      StreamEvent.kept s.lexer.error (Exchange.events s.state (s.exchanges requests)) := by
  induction requests generalizing s with
  | nil => rfl
  | cons request requests ih =>
      obtain ⟨records, shows, -⟩ := s.shows_perform request
      rw [exchanges, Exchange.events, StreamEvent.kept_append, ← shows.error, ← state_perform]
      exact ih (s.perform request).after

theorem warnings_run :
    ((s.run requests).flatMap (·.records)).filter (·.level = .warning) =
      (Exchange.events s.state (s.exchanges requests)).filterMap StreamEvent.warning? := by
  induction requests generalizing s with
  | nil => rfl
  | cons request requests ih =>
      obtain ⟨records, shows, logged⟩ := s.shows_perform request
      have warnings : records.filter (·.level = .warning) = records := by
        rw [List.filter_eq_self, shows.records]
        intro record h
        obtain ⟨event, -, h⟩ := List.mem_filterMap.mp h
        exact decide_eq_true (StreamEvent.level_of_warning? h)
      have counts :
          ((s.exchange request).counts s.lexer.file).filter (·.level = .warning) = [] := by
        cases request <;> rfl
      rw [run, exchanges, Exchange.events, List.flatMap_cons, List.filter_append, ih, logged,
        List.filter_append, warnings, counts, List.append_nil, List.filterMap_append,
        shows.records, ← state_perform]

end Run

/-- In every run, the text exchanged as it may be, requests and answers tell how the streams stand. The
latest event decides which fault is kept, and none is before a stream begins. The warnings are those of
the streams that fail, in order, and each count of tokens is reported once, behind the warning of its
call. A quiet request leaves the fault as it is. -/
theorem run_keeps_latest_fault (source file : String) (requests : List Request) :
    let unmade : String → StreamState := fun _ => .ended
    let first := ofSource source file
    let last := first.after requests
    let exchanges := first.exchanges requests
    let events := Exchange.events unmade exchanges
    last.state = Exchange.standing unmade exchanges ∧
      (last.lexer.source, last.lexer.file) = requests.foldl retext (source, file) ∧
      last.lexer.error = events.getLast?.bind StreamEvent.fault? ∧
      ((∀ stream, .begins stream ∉ events) → last.lexer.error = none) ∧
      ((first.run requests).flatMap (·.records)).filter (·.level = .warning) =
        events.filterMap StreamEvent.warning? ∧
      ∀ before request later, requests = before ++ request :: later →
        let s := first.after before
        let step := s.perform request
        let x := s.exchange request
        let standing := Exchange.standing unmade (first.exchanges before)
        exchanges = first.exchanges before ++ x :: step.after.exchanges later ∧
          s.Answers s.lexer.remaining.tokens s.lexer.remaining.error request step ∧
          step.records =
            (x.happens standing).filterMap StreamEvent.warning? ++ x.counts s.lexer.file ∧
          (x.IsQuiet standing → step.after.lexer.error = s.lexer.error) := by
  intro unmade first last exchanges events
  have latest : last.lexer.error = events.getLast?.bind StreamEvent.fault? := by
    rw [← StreamEvent.kept_none]
    exact first.error_after requests
  refine ⟨first.state_after requests, first.text_after requests, latest, ?_,
    first.warnings_run requests, ?_⟩
  · intro none_begins
    have idle : ∀ name, unmade name ≠ .active := nofun
    have nothing : events = [] := Exchange.events_eq_nil idle none_begins
    rw [latest, nothing]
    rfl
  · intro before request later split s step x standing
    have stands : s.state = standing := first.state_after before
    obtain ⟨records, shows, logged⟩ := s.shows_perform request
    rw [stands] at shows
    refine ⟨?_, s.answers_perform request, ?_, ?_⟩
    · have told : exchanges = first.exchanges (before ++ request :: later) := by rw [← split]
      rw [told, exchanges_append]
      rfl
    · rw [logged, shows.records]
    · intro quiet
      rw [shows.error, Exchange.happens_of_isQuiet quiet, StreamEvent.kept_nil]

/-- A stream that is made before a fault and first asked after it forgets the fault. -/
example :
    let requests : List Request := [.stream "early", .readAll, .setSource "", .take "early" 1]
    let first := ofSource "1.2.3" "f"
    (first.after [.stream "early", .readAll]).lexer.error.isSome = true ∧
      (Exchange.events (fun _ => .ended) (first.exchanges requests)).getLast? =
        some (.begins (some "early")) ∧
      (first.after requests).lexer.error = none := by
  decide +kernel

end Session
end ScriptLexer

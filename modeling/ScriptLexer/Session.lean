import ScriptLexer.Lexer

/-!
Sessions: one lexer and any number of lazy token streams that draw on it.

The streams share the place of the lexer, so each token goes to the stream that asks first. A
stream does nothing before it is first asked for a token; then it forgets the fault that an earlier
stream may have left. It ends at the end of the text, at a fault or when it is closed, and has no
token from then on, whatever becomes of the lexer.
-/

namespace ScriptLexer

inductive StreamState where
  | fresh
  | active
  | ended
deriving Repr, DecidableEq

namespace Lexer

/-- One token for a stream under way. A fault ends the stream and is kept and logged. -/
def draw (l : Lexer) : Reply (Option Token) × StreamState :=
  match l.next with
  | (.ok t, l) => if t.isEndOfFile then (⟨none, l, []⟩, .ended) else (⟨some t, l, []⟩, .active)
  | (.error e, l) => (⟨none, { l with error := some e }, [truncatedRecord e]⟩, .ended)

/-- One token for a stream, or nothing if it has ended or ends now. -/
def advance (l : Lexer) : StreamState → Reply (Option Token) × StreamState
  | .ended => (⟨none, l, []⟩, .ended)
  | .fresh => { l with error := none }.draw
  | .active => l.draw

/-- Up to `count` tokens for a stream, and whether it ended before there were as many. -/
def take (l : Lexer) (state : StreamState) : Nat → Reply (List Token × Bool) × StreamState
  | 0 => (⟨([], false), l, []⟩, state)
  | count + 1 =>
    match l.advance state with
    | (⟨none, l, records⟩, state) => (⟨([], true), l, records⟩, state)
    | (⟨some t, l, records⟩, state) =>
      let (more, state) := l.take state count
      (⟨(t :: more.answer.1, more.answer.2), more.lexer, records ++ more.records⟩, state)

end Lexer

/-- A lexer and its streams by name. The state of a stream is the one that was set last. -/
structure Session where
  lexer : Lexer
  streams : List (String × StreamState) := []
deriving Repr, DecidableEq

/-- What can be asked of a session. -/
inductive Request where
  | next
  | readAll
  | tokenize
  | stream (name : String)
  | take (name : String) (count : Nat)
  | close (name : String)
  | setSource (source : String)
  | setFile (file : String)
  | describe
deriving Repr, DecidableEq

inductive Answer where
  | done
  | token (token : Token)
  | failure (error : LexError)
  | tokens (tokens : List Token)
  /-- Tokens of a stream, and whether the stream turned out to have ended. -/
  | taken (tokens : List Token) (ended : Bool)
  | result (result : LexResult)
  | description (source file : String)
deriving Repr, DecidableEq

namespace Session

def ofSource (source file : String) : Session where
  lexer := { source, file }

/-- A stream that was never made has no tokens, like one that has ended. -/
def state (s : Session) (name : String) : StreamState := (s.streams.lookup name).getD .ended

def setState (s : Session) (name : String) (state : StreamState) : Session :=
  { s with streams := (name, state) :: s.streams }

@[simp] theorem state_setState (s : Session) (name : String) (state : StreamState) :
    (s.setState name state).state name = state := by
  simp [Session.state, setState]

theorem state_setState_of_ne (s : Session) {name other : String} (state : StreamState)
    (h : other ≠ name) : (s.setState name state).state other = s.state other := by
  have hne : (other == name) = false := by simpa using h
  simp [Session.state, setState, List.lookup_cons, hne]

/-- The answer to a request, the session after it, and what is logged meanwhile. -/
structure Step where
  answer : Answer
  after : Session
  records : List Log.Record := []
deriving Repr, DecidableEq

def perform (s : Session) : Request → Step
  | .next =>
    match s.lexer.next with
    | (.ok t, lexer) => ⟨.token t, { s with lexer }, []⟩
    | (.error e, lexer) => ⟨.failure e, { s with lexer }, []⟩
  | .readAll =>
    let reply := s.lexer.readAll
    ⟨.tokens reply.answer, { s with lexer := reply.lexer }, reply.records⟩
  | .tokenize =>
    let reply := s.lexer.tokenize
    ⟨.result reply.answer, { s with lexer := reply.lexer }, reply.records⟩
  | .stream name => ⟨.done, s.setState name .fresh, []⟩
  | .take name count =>
    let (reply, state) := s.lexer.take (s.state name) count
    ⟨.taken reply.answer.1 reply.answer.2, { s with lexer := reply.lexer }.setState name state,
      reply.records⟩
  | .close name => ⟨.done, s.setState name .ended, []⟩
  | .setSource source => ⟨.done, { s with lexer := { s.lexer with source } }, []⟩
  | .setFile file => ⟨.done, { s with lexer := { s.lexer with file } }, []⟩
  | .describe => ⟨.description s.lexer.source s.lexer.file, s, []⟩

/-- Performs requests one after the other. -/
def run (s : Session) : List Request → List Step
  | [] => []
  | request :: requests =>
    let step := s.perform request
    step :: step.after.run requests

end Session
end ScriptLexer

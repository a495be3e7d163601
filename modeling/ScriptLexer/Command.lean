import ScriptLexer.FileTree
import ScriptLexer.Lexer
import ScriptLexer.Text.Newline
import ScriptLexer.Text.Utf8

/-!
The command line: what the arguments ask for, and what comes of it.
-/

namespace ScriptLexer.Command

def usage : List String :=
  ["tinyscript command line entry point.",
   "",
   "Usage:",
   "    tinyscript demo                   Lex the built-in sample program",
   "    tinyscript tokenize <file>        Display the token stream of a file",
   "",
   "Options:",
   "    -v, --verbose                     Log debug output to stderr"]

def version : String := "0.1.0"

/-- The sample program. -/
def demoSource : String :=
  "\n    # This is a comment\n\n    var var1 = 1;\n    var1 = var1 + 1;\n\n" ++
  "    function add(a, b) \x7b\n        return a + b;\n    \x7d\n\n" ++
  "    const var2 = 2;\n    const var3 = add(var1, var2);\n    "

def isVerboseFlag (argument : String) : Bool := argument = "-v" || argument = "--verbose"

/-- What a command line asks for. -/
inductive Invocation where
  | nothing
  | help
  | version
  | demo
  | unknown (word : String)
  | tokenizeNothing
  | tokenize (path : Path)
deriving Repr, DecidableEq

/-- Flags may stand anywhere and take the place of nothing; arguments in excess are ignored. -/
def Invocation.ofArguments (arguments : List String) : Invocation :=
  match arguments.filter (!isVerboseFlag ·) with
  | [] => .nothing
  | word :: operands =>
    if word = "--help" ∨ word = "-h" then .help
    else if word = "--version" then .version
    else if word = "demo" then .demo
    else if word ≠ "tokenize" then .unknown word
    else match operands with
      | [] => .tokenizeNothing
      | path :: _ => .tokenize (Path.parse path)

/-- Why an existing file cannot be read. -/
inductive ReadError where
  | isDirectory (path : String)
  | nameTooLong (path : String)
  | notUtf8 (error : Text.Utf8.DecodeError)
deriving Repr, DecidableEq

def ReadError.message : ReadError → String
  | .isDirectory path => "[Errno 21] Is a directory: " ++ Text.quoted path
  | .nameTooLong path => "[Errno 36] File name too long: " ++ Text.quoted path
  | .notUtf8 error => error.message

inductive Ending where
  | exit (code : Nat)
  | unread (error : ReadError)
deriving Repr, DecidableEq

/-- The lines that are printed, the records that are logged, and how it ends. -/
structure Effect where
  lines : List String
  records : List Log.Record := []
  ending : Ending
deriving Repr, DecidableEq

/-- Prints the tokens of a text. -/
def printTokens (source file : String) : Effect :=
  let reply := tokenize source file
  let listing := reply.answer.tokens.map Token.render
  match reply.answer.error with
  | none => ⟨listing, reply.records, .exit 0⟩
  | some error => ⟨listing ++ ["Lexer error: " ++ error.message], reply.records, .exit 1⟩

/-- Prints the tokens of what was found at a path. -/
def printFound (path : String) : Found → Effect
  | .missing => ⟨["Error: file not found: " ++ path], [], .exit 1⟩
  | .tooLong => ⟨[], [], .unread (.nameTooLong path)⟩
  | .directory => ⟨[], [], .unread (.isDirectory path)⟩
  | .file bytes =>
    match Text.Utf8.decode bytes with
    | .error error => ⟨[], [], .unread (.notUtf8 error)⟩
    | .ok cs => printTokens (String.ofList (Text.normalizeNewlines cs)) path

/-- Carries out a command, with a way to look up paths. -/
def Invocation.perform (find : Path → Found) : Invocation → Effect
  | .nothing => ⟨usage, [], .exit 1⟩
  | .help => ⟨usage, [], .exit 0⟩
  | .version => ⟨["tinyscript " ++ Command.version], [], .exit 0⟩
  | .demo => printTokens demoSource "<demo>"
  | .unknown word => ⟨("Error: unknown command '" ++ word ++ "'") :: usage, [], .exit 1⟩
  | .tokenizeNothing =>
    ⟨["Error: command 'tokenize' requires a file argument"], [], .exit 1⟩
  | .tokenize path => printFound path.render (find path)

/-- What a whole run shows. -/
structure Outcome where
  /-- The least level that is shown of the log. -/
  threshold : Log.Level
  stdout : String
  stderr : String
  ending : Ending
deriving Repr, DecidableEq

/-- Lines as they are printed, each with its line feed. -/
def printed (lines : List String) : String := String.join (lines.map (· ++ "\n"))

/-- The lines of the log: all records in full, or the bare messages of the warnings. -/
def logLines (verbose : Bool) (time : String) (records : List Log.Record) : List String :=
  if verbose then records.map (·.line time)
  else (records.filter (·.level = .warning)).map (·.message)

/-- Runs a command line. The time is the one that full log lines show. -/
def run (find : Path → Found) (time : String) (arguments : List String) : Outcome :=
  let verbose := arguments.any isVerboseFlag
  let effect := (Invocation.ofArguments arguments).perform find
  { threshold := if verbose then .debug else .warning
    stdout := printed effect.lines
    stderr := printed (logLines verbose time effect.records)
    ending := effect.ending }

end ScriptLexer.Command

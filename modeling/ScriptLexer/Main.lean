import ScriptLexer.Command
import Std.Time.Format

/-!
The program: looks up the file that the arguments name, runs the command line and prints.
-/

open ScriptLexer

/-- Looks up a path in the file system. -/
def lookUpFile (path : Path) : IO Found := do
  if !path.isNameable then return .missing
  try
    return .file (← IO.FS.readBinFile path.render).toList
  catch
    | .noFileOrDirectory .. => return .missing
    | .inappropriateType _ code _ => return if code = 21 then .directory else .missing
    | .invalidArgument .. => return .tooLong
    | error => throw error

def main (arguments : List String) : IO UInt32 := do
  let found ← match Command.Invocation.ofArguments arguments with
    | .tokenize path => lookUpFile path
    | _ => pure .missing
  let time := (← Std.Time.PlainDateTime.now).format "uuuu-MM-dd HH:mm:ss,SSS"
  let outcome := Command.run (fun _ => found) time arguments
  IO.eprint outcome.stderr
  IO.print outcome.stdout
  match outcome.ending with
  | .exit code => return code.toUInt32
  | .unread error =>
    IO.eprintln error.message
    return 1

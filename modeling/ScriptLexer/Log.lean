/-!
Log records and the names they are filed under.
-/

namespace ScriptLexer.Log

/-- The name above all others. -/
def rootName : String := "tinyscript"

/-- The full name of a logger: below the root, unless it is there already. -/
def qualify (name : String) : String :=
  if name = rootName ∨ (rootName ++ ".").toList.isPrefixOf name.toList then name
  else rootName ++ "." ++ name

inductive Level where
  | debug
  | warning
deriving Repr, DecidableEq

def Level.name : Level → String
  | .debug => "DEBUG"
  | .warning => "WARNING"

structure Record where
  level : Level
  logger : String
  message : String
deriving Repr, DecidableEq

/-- A record as a full log shows it. -/
def Record.line (time : String) (r : Record) : String :=
  time ++ " - " ++ r.logger ++ " - " ++ r.level.name ++ " - " ++ r.message

end ScriptLexer.Log

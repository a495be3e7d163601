/-!
Line ends. A file may end its lines with a line feed, a carriage return or both in this order; the
text read from it has line feeds only.
-/

namespace ScriptLexer.Text

def normalizeNewlines : List Char → List Char
  | [] => []
  | '\r' :: '\n' :: cs => '\n' :: normalizeNewlines cs
  | c :: cs => (if c = '\r' then '\n' else c) :: normalizeNewlines cs

end ScriptLexer.Text

import ScriptLexer.Text.CodeRange

/-!
Blanks: the characters that separate lexemes and mean nothing else.
-/

namespace ScriptLexer.Text

/-- White space and the control characters that separate, beyond ASCII too. The zero width space
and the byte order mark are not among them. -/
def blankRanges : List CodeRange :=
  [⟨0x9, 0xd⟩, ⟨0x1c, 0x20⟩, ⟨0x85, 0x85⟩, ⟨0xa0, 0xa0⟩, ⟨0x1680, 0x1680⟩, ⟨0x2000, 0x200a⟩,
   ⟨0x2028, 0x2029⟩, ⟨0x202f, 0x202f⟩, ⟨0x205f, 0x205f⟩, ⟨0x3000, 0x3000⟩]

def isBlank (c : Char) : Bool := CodeRange.covers blankRanges c.toNat

end ScriptLexer.Text

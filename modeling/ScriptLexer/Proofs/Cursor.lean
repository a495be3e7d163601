import ScriptLexer.Proofs.Scanning

/-!
The cursor of a lexer. What is left to read is fixed by the text, the file name and the place; one
call takes the first token of it, or nothing if there is none. The place at which reading will end
and the fault that will end it stay the same from call to call.
-/

namespace ScriptLexer.Lexer

/-- What reading on to the end would give. -/
def remaining (l : Lexer) : Reading := readFrom l.file l.place l.rest

/-- The answer to one call, and the lexer after it, by the parts of what is left. -/
inductive Nexts (l : Lexer) : Except LexError Token × Lexer → Prop where
  | token {blanks lexeme behind : List Char} {kind : Kind} {value : Value} :
      l.rest = blanks ++ (lexeme ++ behind) → (∀ c ∈ blanks, Text.isBlank c = true) →
      Lexeme.Reads lexeme behind kind value →
      Nexts l (.ok (.between l.file (l.place.advance blanks)
        ((l.place.advance blanks).advance lexeme) kind value),
        { l with place := (l.place.advance blanks).advance lexeme })
  | finish : (∀ c ∈ l.rest, Text.isBlank c = true) →
      Nexts l (.ok { l with place := l.place.advance l.rest }.endToken,
        { l with place := l.place.advance l.rest })
  | failure {blanks span behind : List Char} :
      l.rest = blanks ++ (span ++ behind) → (∀ c ∈ blanks, Text.isBlank c = true) →
      Lexeme.Fails span behind →
      Nexts l (.error (.invalidNumber span (l.place.advance blanks) l.file),
        { l with place := l.place.advance blanks })

theorem nexts_next (l : Lexer) : l.Nexts l.next := by
  generalize hr : l.rest = cs
  have scanned := scans_scan l.file l.place cs
  rw [next, hr]
  generalize scan l.file l.place cs = out at scanned
  cases scanned with
  | token blank reads => exact .token hr blank reads
  | finish blank =>
      subst hr
      exact .finish blank
  | failure blank fails => exact .failure hr blank fails

/-- Moving the cursor over the front of what is left leaves the rest of it. -/
theorem rest_advance {l : Lexer} {cs ds : List Char} (h : l.rest = cs ++ ds) :
    rest { l with place := l.place.advance cs } = ds := by
  simp only [rest] at h ⊢
  rw [Place.offset_advance, ← List.drop_drop, h, List.drop_left]

theorem remaining_token {l : Lexer} {blanks lexeme behind : List Char} {kind : Kind}
    {value : Value} (split : l.rest = blanks ++ (lexeme ++ behind))
    (blank : ∀ c ∈ blanks, Text.isBlank c = true) (reads : Lexeme.Reads lexeme behind kind value) :
    let after : Lexer := { l with place := (l.place.advance blanks).advance lexeme }
    l.remaining =
      ⟨.between l.file (l.place.advance blanks) after.place kind value :: after.remaining.tokens,
        after.remaining.place, after.remaining.error⟩ := by
  have moved : rest { l with place := (l.place.advance blanks).advance lexeme } = behind := by
    rw [← Place.advance_append]
    exact rest_advance (by rw [split, List.append_assoc])
  simp only [remaining, moved]
  rw [split]
  exact readFrom_of_token (scan_token l.file l.place blank reads)

theorem remaining_finish {l : Lexer} (blank : ∀ c ∈ l.rest, Text.isBlank c = true) :
    let after : Lexer := { l with place := l.place.advance l.rest }
    l.remaining = ⟨[], after.place, none⟩ ∧ after.remaining = ⟨[], after.place, none⟩ := by
  have moved : rest { l with place := l.place.advance l.rest } = [] :=
    rest_advance (List.append_nil _).symm
  simp only [remaining, moved]
  constructor
  · exact readFrom_of_finish (scan_finish l.file l.place blank)
  · exact readFrom_of_finish (scan_finish l.file _ nofun)

theorem remaining_failure {l : Lexer} {blanks span behind : List Char}
    (split : l.rest = blanks ++ (span ++ behind)) (blank : ∀ c ∈ blanks, Text.isBlank c = true)
    (fails : Lexeme.Fails span behind) :
    let after : Lexer := { l with place := l.place.advance blanks }
    let error := LexError.invalidNumber span after.place l.file
    l.remaining = ⟨[], after.place, some error⟩ ∧
      after.remaining = ⟨[], after.place, some error⟩ := by
  have moved : rest { l with place := l.place.advance blanks } = span ++ behind :=
    rest_advance split
  have again := scan_failure l.file (l.place.advance blanks) (List.forall_mem_nil _) fails
  simp only [remaining, moved, split]
  constructor
  · exact readFrom_of_failure (scan_failure l.file l.place blank fails)
  · exact readFrom_of_failure again

theorem next_of_cons {l : Lexer} {t : Token} {ts : List Token} (h : l.remaining.tokens = t :: ts) :
    ∃ place, l.next = (.ok t, { l with place }) ∧ t.isEndOfFile = false ∧
      place.offset = t.stop ∧
      remaining { l with place } = ⟨ts, l.remaining.place, l.remaining.error⟩ := by
  have called := l.nexts_next
  generalize l.next = out at called
  cases called with
  | token split blank reads =>
      have left := remaining_token split blank reads
      rw [left] at h
      obtain ⟨rfl, rfl⟩ := List.cons.inj h
      exact ⟨_, rfl, Token.isEndOfFile_between reads _ _ _, rfl, by rw [left]⟩
  | finish blank =>
      rw [(remaining_finish blank).1] at h
      cases h
  | failure split blank fails =>
      rw [(remaining_failure split blank fails).1] at h
      cases h

theorem next_of_end {l : Lexer} (h : l.remaining.tokens = []) (he : l.remaining.error = none) :
    let after : Lexer := { l with place := l.remaining.place }
    l.next = (.ok after.endToken, after) ∧ after.remaining = l.remaining := by
  have called := l.nexts_next
  generalize l.next = out at called
  cases called with
  | token split blank reads =>
      rw [remaining_token split blank reads] at h
      cases h
  | finish blank =>
      obtain ⟨left, left'⟩ := remaining_finish blank
      rw [left]
      exact ⟨rfl, left'⟩
  | failure split blank fails =>
      rw [(remaining_failure split blank fails).1] at he
      cases he

theorem next_of_fault {l : Lexer} {e : LexError} (h : l.remaining.tokens = [])
    (he : l.remaining.error = some e) :
    let after : Lexer := { l with place := l.remaining.place }
    l.next = (.error e, after) ∧ after.remaining = l.remaining := by
  have called := l.nexts_next
  generalize l.next = out at called
  cases called with
  | token split blank reads =>
      rw [remaining_token split blank reads] at h
      cases h
  | finish blank =>
      rw [(remaining_finish blank).1] at he
      cases he
  | failure split blank fails =>
      obtain ⟨left, left'⟩ := remaining_failure split blank fails
      rw [left] at he ⊢
      cases he
      exact ⟨rfl, left'⟩

end ScriptLexer.Lexer

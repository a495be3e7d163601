import ScriptLexer.LexError
import ScriptLexer.Proofs.QuotedText

/-!
How quoted texts look. Each character comes to a stretch of its own, after which no backslash waits for
a character to escape; inside of it only an escaped character can look like the quote. Main statement:
a text is quoted on one line, its quote is chosen by the quotes in it and stands inside only behind a
backslash that escapes it, and the whole reads as the text again.
-/

namespace ScriptLexer.Text.Quoted

/-- Whether a backslash at the end escapes what follows. One that is escaped itself does not. -/
def endsEscaping (cs : List Char) : Bool :=
  cs.foldl (fun escaping c => !escaping && decide (c = '\\')) false

/-- What may end a line. -/
def lineSeparators : List Char :=
  ['\n', '\x0b', '\x0c', '\r', '\x1c', '\x1d', '\x1e', '\u0085', '\u2028', '\u2029']

theorem not_printable_of_lineSeparator {c : Char} (h : c ∈ lineSeparators) :
    isPrintable c = false := by
  have all : lineSeparators.all (!isPrintable ·) = true := by decide +kernel
  simpa using List.all_eq_true.mp all c h

theorem endsEscaping_append {front : List Char} (h : endsEscaping front = false)
    (back : List Char) : endsEscaping (front ++ back) = endsEscaping back := by
  rw [endsEscaping, List.foldl_append, ← endsEscaping, h, endsEscaping]

theorem endsEscaping_of_notMem {cs : List Char} (h : '\\' ∉ cs) : endsEscaping cs = false := by
  induction cs with
  | nil => rfl
  | cons c cs ih =>
      obtain ⟨first, more⟩ := not_or.mp (mt List.mem_cons.mpr h)
      have alone : endsEscaping [c] = false := by simp [endsEscaping, Ne.symm first]
      exact (endsEscaping_append alone cs).trans (ih more)

theorem notMem_hex {c : Char} (h : hexValue? c = none) (width n : Nat) : c ∉ hex width n := by
  intro mem
  obtain ⟨k, small, rfl⟩ := exists_of_mem_hex mem
  rw [(hexDigit_spec small).1] at h
  cases h

section

variable {quote c : Char} {text : List Char}

theorem Tells.endsEscaping (h : Tells quote c text) : endsEscaping text = false := by
  cases h with
  | plain _ backslash _ _ _ =>
      simp [Quoted.endsEscaping, backslash]
  | named _ _ _ => rfl
  | @numbered letter width _ _ _ =>
      have escaped : Quoted.endsEscaping ['\\', letter] = false := rfl
      exact (endsEscaping_append escaped _).trans
        (endsEscaping_of_notMem (notMem_hex rfl width c.toNat))

/-- Inside of a character that is told, only the one behind the backslash looks like a quote. -/
theorem Tells.escapes (h : Tells quote c text) (hq : quote = '\'' ∨ quote = '"')
    {front back : List Char} (split : text = front ++ quote :: back) :
    Quoted.endsEscaping front = true := by
  have not_backslash : '\\' ≠ quote := by rcases hq with rfl | rfl <;> decide
  have no_digit : hexValue? quote = none := by rcases hq with rfl | rfl <;> decide
  -- The quote is the first, the second or a later character of the stretch.
  rcases front with _ | ⟨d, _ | ⟨e, front⟩⟩
  · obtain ⟨f, fs, head, different⟩ := h.head not_backslash.symm
    rw [head] at split
    exact absurd (List.cons.inj split).1 different
  · cases h with
    | plain _ _ _ _ _ => cases split
    | named _ _ _ | numbered _ _ _ =>
        cases split
        rfl
  · cases h with
    | plain _ _ _ _ _ => cases split
    | named _ _ _ => simp at split
    | @numbered letter width _ _ _ =>
        have digits : hex width c.toNat = front ++ quote :: back := by
          simpa using congrArg (List.drop 2) split
        exact absurd (digits ▸ List.mem_append_right _ List.mem_cons_self)
          (notMem_hex no_digit width c.toNat)

end

theorem escapes_of_flatMap {quote : Char} (hq : quote = '\'' ∨ quote = '"') {cs : List Char}
    {front back : List Char} (split : cs.flatMap (escape quote) = front ++ quote :: back) :
    endsEscaping front = true := by
  induction cs generalizing front with
  | nil => simp at split
  | cons c cs ih =>
      have tells := escape_tells hq c
      rw [List.flatMap_cons] at split
      obtain ⟨more, rfl, later⟩ | ⟨inside, told, rest⟩ := List.append_eq_append_iff.mp split
      · rw [endsEscaping_append tells.endsEscaping]
        exact ih later
      · cases inside with
        | nil =>
            have impossible : endsEscaping [] = true := ih rest.symm
            cases impossible
        | cons d inside =>
            obtain ⟨rfl, -⟩ := List.cons.inj rest
            exact tells.escapes hq told

/-- How a text stands between quotes: on one line, and with nothing inside that could be taken for the
end. -/
structure Layout (cs shown : List Char) : Prop where
  enclosed : ∃ quote body, shown = quote :: body ++ [quote] ∧
    quote = (if '\'' ∈ cs ∧ '"' ∉ cs then '"' else '\'') ∧
    ∀ front back, body = front ++ quote :: back → endsEscaping front = true
  printable : ∀ c ∈ shown, isPrintable c = true
  one_line : ∀ c ∈ shown, c ∉ lineSeparators
  read : read? shown = some cs

theorem encode_layout (cs : List Char) : Layout cs (encode cs) := by
  constructor
  · exact ⟨quoteFor cs, cs.flatMap (escape (quoteFor cs)), rfl, rfl,
      fun _ _ => escapes_of_flatMap (quoteFor_eq cs)⟩
  · exact fun c hc => isPrintable_of_mem_encode hc
  · intro c hc separator
    have printable := isPrintable_of_mem_encode hc
    rw [not_printable_of_lineSeparator separator] at printable
    cases printable
  · exact read?_encode cs

end Quoted

/-- The values of tokens and the spans in the texts of faults stand between quotes on one line and can
be read again, so that no two of them look alike. -/
theorem quoted_reversible (s : String) :
    Quoted.Layout s.toList (quoted s).toList ∧
      (∀ t, quoted s = quoted t → s = t) ∧
      (Value.text s).render? = some (quoted s) ∧
      ∀ place file, (LexError.invalidNumber s.toList place file).text =
        "Invalid number literal: " ++ quoted s := by
  have toList (t : String) : (quoted t).toList = Quoted.encode t.toList := String.toList_ofList
  refine ⟨?_, ?_, rfl, ?_⟩
  · rw [toList]
    exact Quoted.encode_layout s.toList
  · intro t same
    have read := Quoted.read?_encode s.toList
    rw [← toList, same, toList, Quoted.read?_encode] at read
    exact (String.toList_inj.mp (Option.some.inj read)).symm
  · intro place file
    unfold LexError.invalidNumber
    dsimp only
    rw [String.ofList_toList]

/-- A text with both quotes, a backslash before one of them, and a line separator. -/
example : quoted "it's \\\"\u2028" = "'it\\'s \\\\\"\\u2028'" := by decide +kernel

end ScriptLexer.Text

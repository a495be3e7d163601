import ScriptLexer.Proofs.Cursor

/-!
Reading character by character. A call can go through the text by index, with the cursor on the next
character; what it asks for behind the end of the text is not there. The cursor may stand behind the
end, too, if the text has become shorter. Main statement: such a call asks for no character that is
not there, and comes to what reading the rest of the text comes to.
-/

namespace ScriptLexer.Lexer

def isAtEnd (l : Lexer) : Bool := decide (l.source.length ≤ l.place.offset)

/-- The character at the cursor, if there is one. -/
def peek? (l : Lexer) : Option Char := l.source.toList[l.place.offset]?

/-- Moves the cursor over the character at it. -/
def step? (l : Lexer) : Option (Char × Lexer) :=
  l.peek?.map fun c => (c, { l with place := l.place.step c })

theorem rest_nil_iff (l : Lexer) : l.rest = [] ↔ l.isAtEnd = true := by
  rw [rest, List.drop_eq_nil_iff, isAtEnd, decide_eq_true_iff, String.length_toList]

theorem isAtEnd_of_cons {l : Lexer} {c : Char} {cs : List Char} (h : l.rest = c :: cs) :
    l.isAtEnd = false := by
  rw [Bool.eq_false_iff, ne_eq, ← rest_nil_iff, h]
  exact List.cons_ne_nil c cs

theorem peek?_of_cons {l : Lexer} {c : Char} {cs : List Char} (h : l.rest = c :: cs) :
    l.peek? = some c := by
  rw [peek?, ← List.head?_drop, ← rest, h, List.head?_cons]

theorem rest_step {l : Lexer} {c : Char} {cs : List Char} (h : l.rest = c :: cs) :
    rest { l with place := l.place.step c } = cs :=
  rest_advance (show l.rest = [c] ++ cs from h)

theorem step?_of_cons {l : Lexer} {c : Char} {cs : List Char} (h : l.rest = c :: cs) :
    l.step? = some (c, { l with place := l.place.step c }) := by
  rw [step?, peek?_of_cons h, Option.map_some]

/-- What is left gets shorter with each character. -/
theorem nearer_of_step? {l m : Lexer} {c : Char} (h : l.step? = some (c, m)) :
    m.source.length - m.place.offset < l.source.length - l.place.offset := by
  simp only [step?, peek?, Option.map_eq_some_iff, Prod.mk.injEq] at h
  obtain ⟨d, found, rfl, rfl⟩ := h
  obtain ⟨inside, -⟩ := List.getElem?_eq_some_iff.mp found
  rw [String.length_toList] at inside
  simp only [Place.offset_step]
  omega

/-- Moves the cursor over all characters of a class. -/
def skipWhile? (p : Char → Bool) (l : Lexer) : Option Lexer :=
  if l.isAtEnd then some l
  else match l.peek? with
    | none => none
    | some c =>
      if p c then
        match h : l.step? with
        | none => none
        | some (_, m) =>
          have := nearer_of_step? h
          skipWhile? p m
      else some l
termination_by l.source.length - l.place.offset

/-- Moves the cursor behind the next line feed, or to the end if there is none. -/
def skipLine? (l : Lexer) : Option Lexer :=
  if l.isAtEnd then some l
  else match h : l.step? with
    | none => none
    | some (c, m) =>
      have := nearer_of_step? h
      if c = '\n' then some m else m.skipLine?
termination_by l.source.length - l.place.offset

/-- The index of the first character that is no part of numbers, from an index on; the cursor does
not move. -/
def numberEnd? (l : Lexer) (index : Nat) : Option Nat :=
  if l.source.length ≤ index then some index
  else match l.source.toList[index]? with
    | none => none
    | some c => if Lexeme.isNumberPart c then l.numberEnd? (index + 1) else some index
termination_by l.source.length - index

/-- Moves the cursor forward to an index. -/
def advanceTo? (l : Lexer) (index : Nat) : Option Lexer :=
  if index ≤ l.place.offset then some l
  else match h : l.step? with
    | none => none
    | some (_, m) =>
      have := nearer_of_step? h
      m.advanceTo? index
termination_by l.source.length - l.place.offset

/-- Moves the cursor over a lexeme of the given shape. -/
def skipLexeme? (l : Lexer) : Lexeme.Shape → Option Lexer
  | .punctuation _ | .operator => l.step?.map Prod.snd
  | .comment => l.skipLine?
  | .number => (l.numberEnd? l.place.offset).bind l.advanceTo?
  | .word => l.skipWhile? Lexeme.isWordPart

/-- The characters between two places of the cursor. -/
def between (l m : Lexer) : List Char :=
  (l.source.toList.take m.place.offset).drop l.place.offset

/-- One call, character by character. It has no outcome if it asks for a character that is not
there. -/
def nextByIndex? (l : Lexer) : Option (Except LexError Token × Lexer) :=
  match l.skipWhile? Text.isBlank with
  | none => none
  | some l =>
    if l.isAtEnd then some (.ok l.endToken, l)
    else match l.peek? with
      | none => none
      | some c =>
        let shape := Lexeme.Shape.ofFirst c
        match l.skipLexeme? shape with
        | none => none
        | some m =>
          match shape.content? (l.between m) with
          | none => some (.error (.invalidNumber (l.between m) l.place l.file), l)
          | some (kind, value) => some (.ok (.between l.file l.place m.place kind value), m)

theorem skipWhile?_eq (p : Char → Bool) (l : Lexer) :
    l.skipWhile? p = some { l with place := l.place.advance (l.rest.takeWhile p) } := by
  induction hr : l.rest generalizing l with
  | nil =>
      rw [skipWhile?, if_pos (l.rest_nil_iff.mp hr)]
      rfl
  | cons c cs ih =>
      rw [skipWhile?, if_neg (by rw [isAtEnd_of_cons hr]; exact Bool.false_ne_true)]
      simp only [peek?_of_cons hr]
      by_cases hc : p c = true
      · rw [if_pos hc, List.takeWhile_cons_of_pos hc]
        split
        · next h => cases h.symm.trans (step?_of_cons hr)
        · next h =>
            cases h.symm.trans (step?_of_cons hr)
            rw [ih _ (rest_step hr)]
            rfl
      · rw [if_neg hc, List.takeWhile_cons_of_neg hc]
        rfl

theorem skipLine?_eq (l : Lexer) :
    l.skipLine? = some { l with
      place := l.place.advance (l.rest.take ((l.rest.takeWhile (· ≠ '\n')).length + 1)) } := by
  induction hr : l.rest generalizing l with
  | nil =>
      rw [skipLine?, if_pos (l.rest_nil_iff.mp hr)]
      rfl
  | cons c cs ih =>
      rw [skipLine?, if_neg (by rw [isAtEnd_of_cons hr]; exact Bool.false_ne_true)]
      split
      · next h => cases h.symm.trans (step?_of_cons hr)
      · next h =>
          cases h.symm.trans (step?_of_cons hr)
          by_cases hc : c = '\n'
          · simp [hc]
          · rw [if_neg hc, ih _ (rest_step hr), List.takeWhile_cons_of_pos (by simpa using hc)]
            rfl

theorem numberEnd?_eq (l : Lexer) (index : Nat) :
    l.numberEnd? index = some
      (index + ((l.source.toList.drop index).takeWhile Lexeme.isNumberPart).length) := by
  induction hr : l.source.toList.drop index generalizing index with
  | nil =>
      rw [List.drop_eq_nil_iff, String.length_toList] at hr
      rw [numberEnd?, if_pos hr]
      rfl
  | cons c cs ih =>
      have inside : ¬ l.source.length ≤ index := by
        rw [← String.length_toList, ← List.drop_eq_nil_iff, hr]
        exact List.cons_ne_nil c cs
      have found : l.source.toList[index]? = some c := by
        rw [← List.head?_drop, hr, List.head?_cons]
      have next : l.source.toList.drop (index + 1) = cs := by
        rw [← List.drop_drop, hr, List.drop_one, List.tail_cons]
      rw [numberEnd?, if_neg inside]
      simp only [found]
      by_cases hc : Lexeme.isNumberPart c = true
      · rw [if_pos hc, ih _ next, List.takeWhile_cons_of_pos hc, List.length_cons]
        congr 1
        omega
      · rw [if_neg hc, List.takeWhile_cons_of_neg hc]
        rfl

theorem advanceTo?_eq {l : Lexer} {cs ds : List Char} (h : l.rest = cs ++ ds) :
    l.advanceTo? (l.place.offset + cs.length) =
      some { l with place := l.place.advance cs } := by
  induction cs generalizing l with
  | nil =>
      rw [advanceTo?, if_pos (by simp)]
      rfl
  | cons c cs ih =>
      rw [List.cons_append] at h
      rw [advanceTo?, if_neg (by simp)]
      split
      · next h' => cases h'.symm.trans (step?_of_cons h)
      · next h' =>
          cases h'.symm.trans (step?_of_cons h)
          have more := ih (rest_step h)
          simp only [Place.offset_step, List.length_cons] at more ⊢
          rw [Nat.add_right_comm, Nat.add_assoc] at more
          exact more

theorem skipLexeme?_eq {l : Lexer} (shape : Lexeme.Shape) {c : Char} {cs : List Char}
    (h : l.rest = c :: cs) :
    l.skipLexeme? shape = some { l with
      place := l.place.advance (l.rest.take (shape.extent l.rest)) } := by
  have run_eq (p : Char → Bool) :
      l.rest.take (l.rest.takeWhile p).length = l.rest.takeWhile p :=
    (List.prefix_iff_eq_take.mp (List.takeWhile_prefix p)).symm
  cases shape with
  | punctuation kind | operator =>
      rw [skipLexeme?, step?_of_cons h, h]
      rfl
  | comment => exact l.skipLine?_eq
  | word => rw [skipLexeme?, skipWhile?_eq, Lexeme.Shape.extent, run_eq]
  | number =>
      rw [skipLexeme?, numberEnd?_eq, Option.bind_some, Lexeme.Shape.extent, run_eq, ← rest]
      exact advanceTo?_eq (List.takeWhile_append_dropWhile).symm

theorem between_eq (l : Lexer) (cs : List Char) (extent : Nat) (h : l.rest = cs) :
    l.between { l with place := l.place.advance (cs.take extent) } = cs.take extent := by
  subst h
  simp only [between, Place.offset_advance]
  rw [List.drop_take, Nat.add_sub_cancel_left, ← rest, List.length_take]
  simp

/-- A call never asks for a character that is not there, and comes to what reading the rest does. -/
theorem nextByIndex?_eq (l : Lexer) : l.nextByIndex? = some l.next := by
  have split : l.rest = l.rest.takeWhile Text.isBlank ++ l.rest.dropWhile Text.isBlank :=
    (List.takeWhile_append_dropWhile).symm
  have passed := rest_advance split
  rw [nextByIndex?, skipWhile?_eq, next, scan]
  dsimp only
  generalize l.place.advance (l.rest.takeWhile Text.isBlank) = place at passed
  cases hr : l.rest.dropWhile Text.isBlank with
  | nil =>
      rw [hr] at passed
      rw [if_pos ((rest_nil_iff _).mp passed)]
  | cons c cs =>
      rw [hr] at passed
      rw [if_neg (by rw [isAtEnd_of_cons passed]; exact Bool.false_ne_true)]
      simp only [peek?_of_cons passed, skipLexeme?_eq _ passed]
      rw [passed]
      have lexeme := between_eq _ _ ((Lexeme.Shape.ofFirst c).extent (c :: cs)) passed
      simp only [lexeme]
      cases (Lexeme.Shape.ofFirst c).content?
        ((c :: cs).take ((Lexeme.Shape.ofFirst c).extent (c :: cs))) with
      | none => rfl
      | some content => rfl

end ScriptLexer.Lexer

import Mathlib.Data.List.Forall2
import ScriptLexer.Text.Utf8

/-!
Well-formed byte sequences, by a table of their forms. Main statements: these are the sequences that
encode characters, and where no such sequence starts a text, reading tells the longest beginning of one
that does.
-/

namespace ScriptLexer.Text.Utf8

/-- The forms of well-formed sequences, each by the bounds of its bytes. -/
def forms : List (List Bounds) :=
  [[⟨0x00, 0x7f⟩],
   [⟨0xc2, 0xdf⟩, ⟨0x80, 0xbf⟩],
   [⟨0xe0, 0xe0⟩, ⟨0xa0, 0xbf⟩, ⟨0x80, 0xbf⟩],
   [⟨0xe1, 0xec⟩, ⟨0x80, 0xbf⟩, ⟨0x80, 0xbf⟩],
   [⟨0xed, 0xed⟩, ⟨0x80, 0x9f⟩, ⟨0x80, 0xbf⟩],
   [⟨0xee, 0xef⟩, ⟨0x80, 0xbf⟩, ⟨0x80, 0xbf⟩],
   [⟨0xf0, 0xf0⟩, ⟨0x90, 0xbf⟩, ⟨0x80, 0xbf⟩, ⟨0x80, 0xbf⟩],
   [⟨0xf1, 0xf3⟩, ⟨0x80, 0xbf⟩, ⟨0x80, 0xbf⟩, ⟨0x80, 0xbf⟩],
   [⟨0xf4, 0xf4⟩, ⟨0x80, 0x8f⟩, ⟨0x80, 0xbf⟩, ⟨0x80, 0xbf⟩]]

/-- As many bytes as bounds, each within its own. -/
def Fits : List Bounds → List UInt8 → Prop := List.Forall₂ fun b byte => b.contains byte = true

def IsSequence (bytes : List UInt8) : Prop := ∃ form ∈ forms, Fits form bytes

/-- The bytes that some sequence starts with. -/
def Begins (bytes : List UInt8) : Prop := ∃ more, IsSequence (bytes ++ more)

theorem Bounds.contains_iff {b : Bounds} {byte : UInt8} :
    b.contains byte = true ↔ b.least.toNat ≤ byte.toNat ∧ byte.toNat ≤ b.greatest.toNat := by
  simp [Bounds.contains, UInt8.le_iff_toNat_le]

/-- Six more bits of a code point. -/
def addBits (code : Nat) (byte : UInt8) : Nat := code * 64 + byte.toNat % 64

/-- The code point whose bits the bytes carry. -/
def codePoint : List UInt8 → Nat
  | [] => 0
  | lead :: more => more.foldl addBits (leadBits lead more.length)

theorem codePoint_two (a b : UInt8) : codePoint [a, b] = a.toNat % 32 * 64 + b.toNat % 64 := rfl

theorem codePoint_three (a b c : UInt8) :
    codePoint [a, b, c] = (a.toNat % 16 * 64 + b.toNat % 64) * 64 + c.toNat % 64 := rfl

theorem codePoint_four (a b c d : UInt8) :
    codePoint [a, b, c, d] =
      ((a.toNat % 8 * 64 + b.toNat % 64) * 64 + c.toNat % 64) * 64 + d.toNat % 64 := rfl

/-- A byte within the widest bounds of those that follow the first. -/
def IsLater (byte : UInt8) : Prop := 0x80 ≤ byte.toNat ∧ byte.toNat ≤ 0xbf

theorem IsSequence.two {a b : UInt8} (h : IsSequence [a, b]) :
    (0xc0 ≤ a.toNat ∧ a.toNat ≤ 0xdf) ∧ IsLater b ∧ 0x80 ≤ codePoint [a, b] := by
  simp [IsSequence, forms, Fits, Bounds.contains_iff] at h
  simp only [IsLater, codePoint_two]
  omega

/-- The narrower bounds keep the code point away from those of shorter sequences and from surrogates. -/
theorem IsSequence.three {a b c : UInt8} (h : IsSequence [a, b, c]) :
    (0xe0 ≤ a.toNat ∧ a.toNat ≤ 0xef) ∧ IsLater b ∧ IsLater c ∧
      0x800 ≤ codePoint [a, b, c] ∧ (codePoint [a, b, c]).isValidChar := by
  simp [IsSequence, forms, Fits, Bounds.contains_iff] at h
  simp only [IsLater, codePoint_three, Nat.isValidChar]
  omega

/-- Here they keep it away from what lies above the last code point. -/
theorem IsSequence.four {a b c d : UInt8} (h : IsSequence [a, b, c, d]) :
    (0xf0 ≤ a.toNat ∧ a.toNat ≤ 0xf7) ∧ IsLater b ∧ IsLater c ∧ IsLater d ∧
      0x10000 ≤ codePoint [a, b, c, d] ∧ (codePoint [a, b, c, d]).isValidChar := by
  simp [IsSequence, forms, Fits, Bounds.contains_iff] at h
  simp only [IsLater, codePoint_four, Nat.isValidChar]
  omega

theorem isSequence_encode (c : Char) : IsSequence (String.utf8EncodeChar c) := by
  have scalar : c.toNat.isValidChar := c.valid
  simp only [String.utf8EncodeChar, Char.toNat_val, Nat.isValidChar] at scalar ⊢
  split_ifs <;> simp [IsSequence, forms, Fits, Bounds.contains_iff] <;> omega

theorem codePoint_encode (c : Char) : codePoint (String.utf8EncodeChar c) = c.toNat := by
  have scalar : c.toNat.isValidChar := c.valid
  simp only [String.utf8EncodeChar, Char.toNat_val, Nat.isValidChar] at scalar ⊢
  split_ifs
  · exact Nat.mod_eq_of_lt (by omega)
  · simp only [codePoint_two, UInt8.toNat_ofNat']
    omega
  · simp only [codePoint_three, UInt8.toNat_ofNat']
    omega
  · simp only [codePoint_four, UInt8.toNat_ofNat']
    omega

theorem exists_of_scalar {bytes : List UInt8} (scalar : (codePoint bytes).isValidChar)
    (encodes : ∀ c : Char, c.toNat = codePoint bytes → String.utf8EncodeChar c = bytes) :
    ∃ c : Char, String.utf8EncodeChar c = bytes := by
  refine ⟨Char.ofNat (codePoint bytes), encodes _ ?_⟩
  rw [Char.ofNat, dif_pos scalar]
  rfl

/-- The sequences of the table encode characters. -/
theorem exists_encode {bytes : List UInt8} (h : IsSequence bytes) :
    ∃ c : Char, String.utf8EncodeChar c = bytes := by
  match bytes with
  | [a] =>
      have short : a.toNat ≤ 0x7f := by
        simpa [IsSequence, forms, Fits, Bounds.contains_iff] using h
      have code : codePoint [a] = a.toNat := rfl
      refine exists_of_scalar (.inl (by omega)) fun ch same => ?_
      simp only [String.utf8EncodeChar, Char.toNat_val, same, code, if_pos short,
        UInt8.ofNat_toNat]
  | [a, b] =>
      have bounds := h.two
      simp only [IsLater, codePoint_two] at bounds
      refine exists_of_scalar (.inl (by rw [codePoint_two]; omega)) fun ch same => ?_
      rw [codePoint_two] at same
      simp only [String.utf8EncodeChar, Char.toNat_val]
      rw [if_neg (by omega), if_pos (by omega)]
      simp only [← UInt8.toNat_inj, List.cons.injEq, UInt8.toNat_ofNat', and_true]
      omega
  | [a, b, c] =>
      obtain ⟨ha, hb, hc, long, scalar⟩ := h.three
      refine exists_of_scalar scalar fun ch same => ?_
      simp only [IsLater, Nat.isValidChar, ← same] at hb hc long scalar
      rw [codePoint_three] at same
      simp only [String.utf8EncodeChar, Char.toNat_val]
      rw [if_neg (by omega), if_neg (by omega), if_pos (by omega)]
      simp only [← UInt8.toNat_inj, List.cons.injEq, UInt8.toNat_ofNat', and_true]
      omega
  | [a, b, c, d] =>
      obtain ⟨ha, hb, hc, hd, long, scalar⟩ := h.four
      refine exists_of_scalar scalar fun ch same => ?_
      simp only [IsLater, Nat.isValidChar, ← same] at hb hc hd long scalar
      rw [codePoint_four] at same
      simp only [String.utf8EncodeChar, Char.toNat_val]
      rw [if_neg (by omega), if_neg (by omega), if_neg (by omega)]
      simp only [← UInt8.toNat_inj, List.cons.injEq, UInt8.toNat_ofNat', and_true]
      omega
  | [] => simp [IsSequence, forms, Fits] at h
  | _ :: _ :: _ :: _ :: _ :: _ => simp [IsSequence, forms, Fits] at h

/-- The first byte decides the form. -/
theorem following_eq_some_iff {lead : UInt8} {bounds : List Bounds} :
    following lead = some bounds ↔ ∃ b, b :: bounds ∈ forms ∧ b.contains lead = true := by
  simp only [following, continuation, Bounds.contains_iff, UInt8.lt_iff_toNat_lt,
    ← UInt8.toNat_inj, UInt8.reduceToNat]
  constructor
  · intro h
    -- One case for each kind of lead byte. Between 0xe1 and 0xef two rows have the same bounds.
    split_ifs at h
    all_goals cases h
    · exact ⟨⟨0x00, 0x7f⟩, by simp [forms], by simp; omega⟩
    · exact ⟨⟨0xc2, 0xdf⟩, by simp [forms], by simp; omega⟩
    · exact ⟨⟨0xe0, 0xe0⟩, by simp [forms], by simp; omega⟩
    · exact ⟨⟨0xed, 0xed⟩, by simp [forms], by simp; omega⟩
    · by_cases low : lead.toNat ≤ 0xec
      · exact ⟨⟨0xe1, 0xec⟩, by simp [forms], by simp; omega⟩
      · exact ⟨⟨0xee, 0xef⟩, by simp [forms], by simp; omega⟩
    · exact ⟨⟨0xf0, 0xf0⟩, by simp [forms], by simp; omega⟩
    · exact ⟨⟨0xf1, 0xf3⟩, by simp [forms], by simp; omega⟩
    · exact ⟨⟨0xf4, 0xf4⟩, by simp [forms], by simp; omega⟩
  · rintro ⟨b, row, h⟩
    simp only [forms, List.mem_cons, List.cons.injEq, List.not_mem_nil, or_false] at row
    obtain ⟨rfl, rfl⟩ | ⟨rfl, rfl⟩ | ⟨rfl, rfl⟩ | ⟨rfl, rfl⟩ | ⟨rfl, rfl⟩ | ⟨rfl, rfl⟩ |
      ⟨rfl, rfl⟩ | ⟨rfl, rfl⟩ | ⟨rfl, rfl⟩ := row
    all_goals
      simp only [UInt8.reduceToNat] at h
      grind

theorem isSequence_cons_iff {lead : UInt8} {more : List UInt8} :
    IsSequence (lead :: more) ↔ ∃ bounds, following lead = some bounds ∧ Fits bounds more := by
  constructor
  · rintro ⟨form, listed, fits⟩
    obtain _ | ⟨first, later⟩ := fits
    exact ⟨_, following_eq_some_iff.mpr ⟨_, listed, first⟩, later⟩
  · rintro ⟨bounds, decided, later⟩
    obtain ⟨b, listed, first⟩ := following_eq_some_iff.mp decided
    exact ⟨b :: bounds, listed, .cons first later⟩

/-- No bounds are empty, so bytes that fit the first of them begin a sequence. -/
theorem exists_fits_of_following {lead : UInt8} {fit left : List Bounds}
    (decided : following lead = some (fit ++ left)) : ∃ more, Fits left more := by
  obtain ⟨b, listed, -⟩ := following_eq_some_iff.mp decided
  have nonempty : ∀ form ∈ forms, ∀ c ∈ form, c.contains c.least = true := by decide
  refine ⟨left.map Bounds.least, List.forall₂_map_right_iff.mpr (List.forall₂_same.mpr ?_)⟩
  intro c mem
  exact nonempty _ listed c (by simp [mem])

theorem begins_of_fits {lead : UInt8} {seen : List UInt8} {fit left : List Bounds}
    (decided : following lead = some (fit ++ left)) (fits : Fits fit seen) :
    Begins (lead :: seen) := by
  obtain ⟨more, later⟩ := exists_fits_of_following decided
  exact ⟨more, isSequence_cons_iff.mpr ⟨_, decided, List.rel_append fits later⟩⟩

theorem fits_append_cons {fit left : List Bounds} {b : Bounds} {seen more : List UInt8}
    {byte : UInt8} (fits : Fits fit seen) (h : Fits (fit ++ b :: left) (seen ++ byte :: more)) :
    b.contains byte = true := by
  induction fits with
  | nil =>
      obtain _ | ⟨first, -⟩ := h
      exact first
  | cons _ _ ih =>
      obtain _ | ⟨-, later⟩ := h
      exact ih later

theorem IsSequence.length_le {bytes : List UInt8} (h : IsSequence bytes) : bytes.length ≤ 4 := by
  obtain ⟨form, listed, fits⟩ := h
  have short : ∀ form ∈ forms, form.length ≤ 4 := by decide
  exact fits.length_eq ▸ short form listed

theorem Begins.of_isPrefix {bytes longer : List UInt8} (h : Begins longer)
    (front : bytes <+: longer) : Begins bytes := by
  obtain ⟨left, rfl⟩ := front
  obtain ⟨more, sequence⟩ := h
  exact ⟨left ++ more, by rwa [← List.append_assoc]⟩

/-- A sequence that is not whole yet. -/
theorem Begins.length_le {bytes : List UInt8} (h : Begins bytes) (broken : ¬ IsSequence bytes) :
    bytes.length ≤ 3 := by
  obtain ⟨more, sequence⟩ := h
  have ne : more ≠ [] := by
    rintro rfl
    rw [List.append_nil] at sequence
    exact broken sequence
  have pos := List.length_pos_iff.mpr ne
  have four := sequence.length_le
  rw [List.length_append] at four
  omega

/-- Where no sequence starts a text: what begins one there, and how that ends. -/
inductive Breaks : List UInt8 → List UInt8 → Reason → Prop where
  | start {lead : UInt8} {rest : List UInt8} :
      ¬ Begins [lead] → Breaks (lead :: rest) [lead] .invalidStart
  | continuation {span rest : List UInt8} {byte : UInt8} :
      span ≠ [] → Begins span → ¬ IsSequence span → ¬ Begins (span ++ [byte]) →
      Breaks (span ++ byte :: rest) span .invalidContinuation
  | finish {span : List UInt8} :
      span ≠ [] → Begins span → ¬ IsSequence span → Breaks span span .unexpectedEnd

/-- What the start of a text is: a sequence, or such a fault. -/
def Meets (bytes : List UInt8) : Sequence → Prop
  | .complete code length rest =>
    ∃ s, bytes = s ++ rest ∧ IsSequence s ∧ code = codePoint s ∧ length = s.length
  | .broken span reason => Breaks bytes span reason

theorem meets_extend {lead : UInt8} {fit left : List Bounds} {seen : List UInt8}
    (decided : following lead = some (fit ++ left)) (fits : Fits fit seen) (rest : List UInt8) :
    Meets (lead :: seen ++ rest)
      (.extend (lead :: seen)
        (seen.foldl addBits (leadBits lead (fit ++ left).length)) left rest) := by
  induction left generalizing fit seen rest with
  | nil =>
      rw [List.append_nil] at decided ⊢
      rw [Sequence.extend]
      refine ⟨lead :: seen, rfl, isSequence_cons_iff.mpr ⟨fit, decided, fits⟩, ?_, rfl⟩
      rw [codePoint, fits.length_eq]
  | cons b left ih =>
      have begins := begins_of_fits decided fits
      have open_ended : ¬ IsSequence (lead :: seen) := by
        intro h
        obtain ⟨bounds, decided', fits'⟩ := isSequence_cons_iff.mp h
        cases decided.symm.trans decided'
        have same := fits'.length_eq.trans fits.length_eq.symm
        simp at same
      cases rest with
      | nil =>
          rw [List.append_nil, Sequence.extend]
          exact .finish (List.cons_ne_nil _ _) begins open_ended
      | cons byte rest =>
          by_cases within : b.contains byte = true
          · have longer : Fits (fit ++ [b]) (seen ++ [byte]) :=
              List.rel_append fits (.cons within .nil)
            have later := ih (by rwa [List.append_assoc]) longer rest
            rw [Sequence.extend, if_pos within]
            simpa [addBits] using later
          · rw [Sequence.extend, if_neg within]
            refine .continuation (List.cons_ne_nil _ _) begins open_ended ?_
            rintro ⟨more, h⟩
            rw [List.append_assoc, List.singleton_append, List.cons_append] at h
            obtain ⟨bounds, decided', fits'⟩ := isSequence_cons_iff.mp h
            cases decided.symm.trans decided'
            exact within (fits_append_cons fits fits')

theorem meets_read (lead : UInt8) (rest : List UInt8) :
    Meets (lead :: rest) (.read lead rest) := by
  rw [Sequence.read]
  cases decided : following lead with
  | none =>
      refine .start ?_
      rintro ⟨more, h⟩
      obtain ⟨bounds, decided', -⟩ := isSequence_cons_iff.mp h
      cases decided.symm.trans decided'
  | some bounds => exact @meets_extend lead [] bounds [] decided .nil rest

theorem extend_of_fits (seen : List UInt8) (code : Nat) {bounds : List Bounds}
    {more : List UInt8} (fits : Fits bounds more) (rest : List UInt8) :
    Sequence.extend seen code bounds (more ++ rest) =
      .complete (more.foldl addBits code) (seen.length + more.length) rest := by
  induction fits generalizing seen code with
  | nil =>
      rw [List.nil_append, Sequence.extend]
      rfl
  | cons within _ ih =>
      rw [List.cons_append, Sequence.extend, if_pos within, ih, List.length_append,
        List.length_singleton, List.length_cons, Nat.add_assoc, Nat.add_comm 1]
      rfl

theorem read_of_isSequence {lead : UInt8} {more : List UInt8} (h : IsSequence (lead :: more))
    (rest : List UInt8) :
    Sequence.read lead (more ++ rest) =
      .complete (codePoint (lead :: more)) (lead :: more).length rest := by
  obtain ⟨bounds, decided, fits⟩ := isSequence_cons_iff.mp h
  simp only [Sequence.read, decided]
  rw [extend_of_fits _ _ fits, codePoint, fits.length_eq]
  simp [Nat.add_comm]

end ScriptLexer.Text.Utf8

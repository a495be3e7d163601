import Mathlib.Algebra.Group.Nat.Defs
import ScriptLexer.Text.Quoted

/-!
Reading quoted texts. A backslash starts a character that is told by a letter or by its number, every
other character stands for itself, and the quote that starts the text ends it. Main statements: reading
a quoted text gives the text back, so that no two texts are quoted alike, and a quoted text has
printable characters only.
-/

namespace ScriptLexer.Text.Quoted

def hexValue? (c : Char) : Option Nat :=
  if '0' ≤ c ∧ c ≤ '9' then some (c.toNat - 0x30)
  else if 'a' ≤ c ∧ c ≤ 'f' then some (c.toNat - 0x57)
  else if 'A' ≤ c ∧ c ≤ 'F' then some (c.toNat - 0x37)
  else none

/-- The number that the first `width` digits write, and what is behind them. -/
def readHex? : (width : Nat) → List Char → Option (Nat × List Char)
  | 0, cs => some (0, cs)
  | width + 1, cs =>
    match readHex? width cs with
    | some (high, c :: rest) => (hexValue? c).map fun low => (16 * high + low, rest)
    | _ => none

/-- The character that a letter behind a backslash tells by itself. -/
def named? : Char → Option Char
  | '\\' => some '\\'
  | '\'' => some '\''
  | '"' => some '"'
  | 't' => some '\t'
  | 'n' => some '\n'
  | 'r' => some '\r'
  | _ => none

/-- How many digits of a number follow a letter behind a backslash. -/
def width? : Char → Option Nat
  | 'x' => some 2
  | 'u' => some 4
  | 'U' => some 8
  | _ => none

/-- What is told behind a backslash. -/
def readEscape? : List Char → Option (Char × List Char)
  | [] => none
  | letter :: cs =>
    match width? letter with
    | none => (named? letter).map (·, cs)
    | some width =>
      match readHex? width cs with
      | none => none
      | some (n, rest) => if n.isValidChar then some (Char.ofNat n, rest) else none

/-- The first character of what stands between quotes. Lines do not end there. -/
def readChar? : List Char → Option (Char × List Char)
  | [] => none
  | c :: cs =>
    if c = '\\' then readEscape? cs
    else if c = '\n' ∨ c = '\r' then none
    else some (c, cs)

theorem length_of_readHex? {width n : Nat} {cs rest : List Char}
    (h : readHex? width cs = some (n, rest)) : rest.length + width = cs.length := by
  induction width generalizing n rest with
  | zero =>
      cases h
      rfl
  | succ width ih =>
      rw [readHex?] at h
      split at h
      · next high c rest' front =>
          obtain ⟨low, -, same⟩ := Option.map_eq_some_iff.mp h
          cases same
          have shorter := ih front
          rw [List.length_cons] at shorter
          omega
      · cases h

theorem length_of_readChar? {c : Char} {cs rest : List Char}
    (h : readChar? cs = some (c, rest)) : rest.length < cs.length := by
  cases cs with
  | nil => cases h
  | cons d cs =>
      rw [readChar?] at h
      split at h
      · cases cs with
        | nil => cases h
        | cons letter cs =>
            rw [readEscape?] at h
            simp only [List.length_cons]
            split at h
            · obtain ⟨d, -, same⟩ := Option.map_eq_some_iff.mp h
              cases same
              omega
            · split at h
              · cases h
              · next found =>
                  have shorter := length_of_readHex? found
                  split at h
                  · cases h
                    omega
                  · cases h
      · split at h
        · cases h
        · cases h
          exact Nat.lt_succ_self _

/-- What stands before the closing quote, with nothing behind it. -/
def readBody? (quote : Char) : List Char → Option (List Char)
  | [] => none
  | c :: cs =>
    if c = quote then if cs = [] then some [] else none
    else
      match h : readChar? (c :: cs) with
      | none => none
      | some (d, rest) =>
        have := length_of_readChar? h
        (readBody? quote rest).map (d :: ·)
termination_by cs => cs.length
decreasing_by assumption

def read? : List Char → Option (List Char)
  | [] => none
  | quote :: cs => if quote = '\'' ∨ quote = '"' then readBody? quote cs else none

/-- How a character may stand before the closing quote. -/
inductive Tells (quote c : Char) : List Char → Prop where
  | plain : c ≠ quote → c ≠ '\\' → c ≠ '\n' → c ≠ '\r' → isPrintable c = true →
      Tells quote c [c]
  | named {letter : Char} : width? letter = none → named? letter = some c →
      isPrintable letter = true → Tells quote c ['\\', letter]
  | numbered {letter : Char} {width : Nat} : width? letter = some width →
      c.toNat < 16 ^ width → isPrintable letter = true →
      Tells quote c ('\\' :: letter :: hex width c.toNat)

theorem numeric_tells (quote c : Char) : Tells quote c (numeric c.toNat) := by
  have bound : c.toNat < 16 ^ 8 := by
    have valid : c.toNat.isValidChar := c.valid
    simp only [Nat.isValidChar] at valid
    omega
  rw [numeric]
  split
  · next small => exact .numbered rfl small (by decide)
  · split
    · next small => exact .numbered rfl small (by decide)
    · exact .numbered rfl bound (by decide)

theorem escape_tells {quote : Char} (hq : quote = '\'' ∨ quote = '"') (c : Char) :
    Tells quote c (escape quote c) := by
  rw [escape]
  split
  · next special =>
      have quoted : c = '\'' ∨ c = '"' ∨ c = '\\' := by grind
      rcases quoted with rfl | rfl | rfl <;> exact .named rfl rfl (by decide)
  · next special =>
      obtain ⟨different, backslash⟩ := not_or.mp special
      by_cases tab : c = '\t'
      · rw [if_pos tab, tab]
        exact .named rfl rfl (by decide)
      by_cases feed : c = '\n'
      · rw [if_neg tab, if_pos feed, feed]
        exact .named rfl rfl (by decide)
      by_cases back : c = '\r'
      · rw [if_neg tab, if_neg feed, if_pos back, back]
        exact .named rfl rfl (by decide)
      rw [if_neg tab, if_neg feed, if_neg back]
      split
      · next printable => exact .plain different backslash feed back printable
      · exact numeric_tells quote c

theorem hexDigit_spec {n : Nat} (h : n < 16) :
    hexValue? (hexDigit n) = some n ∧ isPrintable (hexDigit n) = true := by
  have all : ∀ k < 16, hexValue? (hexDigit k) = some k ∧ isPrintable (hexDigit k) = true := by
    decide
  exact all n h

theorem readHex?_hex (width n : Nat) (rest : List Char) :
    readHex? width (hex width n ++ rest) = some (n % 16 ^ width, rest) := by
  induction width generalizing n rest with
  | zero => rw [readHex?, hex, List.nil_append, Nat.pow_zero, Nat.mod_one]
  | succ width ih =>
      obtain ⟨low, -⟩ := hexDigit_spec (Nat.mod_lt n (show 0 < 16 by decide))
      have value : 16 * (n / 16 % 16 ^ width) + n % 16 = n % 16 ^ (width + 1) := by
        rw [Nat.pow_succ', Nat.mod_mul]
        omega
      rw [hex, List.append_assoc, List.singleton_append, readHex?, ih]
      simp only [low, Option.map_some, value]

section

variable {quote c : Char} {text : List Char}

theorem Tells.readChar? (h : Tells quote c text) (rest : List Char) :
    readChar? (text ++ rest) = some (c, rest) := by
  cases h with
  | plain _ backslash feed back _ =>
      rw [List.singleton_append, Quoted.readChar?, if_neg backslash,
        if_neg (not_or.mpr ⟨feed, back⟩)]
  | named no_digits names _ =>
      simp only [List.cons_append, Quoted.readChar?, if_true, readEscape?, no_digits,
        List.nil_append, names, Option.map_some]
  | numbered digits fits _ =>
      have valid : c.toNat.isValidChar := c.valid
      simp only [List.cons_append, Quoted.readChar?, if_true, readEscape?, digits, readHex?_hex,
        Nat.mod_eq_of_lt fits, if_pos valid, Char.ofNat_toNat]

/-- No character looks like the closing quote. -/
theorem Tells.head (h : Tells quote c text) (hq : quote ≠ '\\') :
    ∃ d ds, text = d :: ds ∧ d ≠ quote := by
  cases h with
  | plain different _ _ _ _ => exact ⟨_, _, rfl, different⟩
  | named _ _ _ => exact ⟨_, _, rfl, hq.symm⟩
  | numbered _ _ _ => exact ⟨_, _, rfl, hq.symm⟩

theorem exists_of_mem_hex {width n : Nat} (h : c ∈ hex width n) : ∃ k < 16, c = hexDigit k := by
  induction width generalizing n with
  | zero => cases h
  | succ width ih =>
      rcases List.mem_append.mp h with high | low
      · exact ih high
      · exact ⟨n % 16, Nat.mod_lt n (by decide), List.mem_singleton.mp low⟩

theorem Tells.isPrintable (h : Tells quote c text) : ∀ d ∈ text, isPrintable d = true := by
  have backslash : Text.isPrintable '\\' = true := by decide
  cases h with
  | plain _ _ _ _ printable => simpa using printable
  | named _ _ printable => simpa [backslash] using printable
  | numbered _ _ printable =>
      intro d hd
      rcases List.mem_cons.mp hd with rfl | hd
      · exact backslash
      · rcases List.mem_cons.mp hd with rfl | hd
        · exact printable
        · obtain ⟨k, small, rfl⟩ := exists_of_mem_hex hd
          exact (hexDigit_spec small).2

end

theorem readBody?_flatMap {quote : Char} (hq : quote = '\'' ∨ quote = '"') (cs : List Char) :
    readBody? quote (cs.flatMap (escape quote) ++ [quote]) = some cs := by
  induction cs with
  | nil => rw [List.flatMap_nil, List.nil_append, readBody?, if_pos rfl, if_pos rfl]
  | cons c cs ih =>
      have not_backslash : quote ≠ '\\' := by rcases hq with rfl | rfl <;> decide
      have tells := escape_tells hq c
      have read := tells.readChar? (cs.flatMap (escape quote) ++ [quote])
      obtain ⟨d, ds, head, different⟩ := tells.head not_backslash
      rw [List.flatMap_cons, List.append_assoc]
      rw [head, List.cons_append] at read ⊢
      rw [readBody?, if_neg different]
      split
      · next none_read =>
          rw [read] at none_read
          cases none_read
      · next found =>
          rw [read] at found
          cases found
          rw [ih, Option.map_some]

theorem quoteFor_eq (cs : List Char) : quoteFor cs = '\'' ∨ quoteFor cs = '"' := by
  rw [quoteFor]
  split
  · exact .inr rfl
  · exact .inl rfl

theorem read?_encode (cs : List Char) : read? (encode cs) = some cs := by
  have hq := quoteFor_eq cs
  rw [encode, List.cons_append, read?, if_pos hq, readBody?_flatMap hq]

theorem isPrintable_of_mem_encode {cs : List Char} {c : Char} (h : c ∈ encode cs) :
    isPrintable c = true := by
  have hq := quoteFor_eq cs
  have quote : isPrintable (quoteFor cs) = true := by rcases hq with hq | hq <;> rw [hq] <;> decide
  simp only [encode, List.cons_append, List.mem_cons, List.mem_append, List.mem_flatMap,
    List.not_mem_nil, or_false] at h
  obtain rfl | ⟨d, -, inside⟩ | rfl := h
  · exact quote
  · exact (escape_tells hq d).isPrintable c inside
  · exact quote

end ScriptLexer.Text.Quoted

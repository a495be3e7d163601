import ScriptLexer.Proofs.QuotedText
import ScriptLexer.Proofs.Rendering
import Std.Data.String.ToInt

/-!
The lines of a token listing. Main statements: the text of a token stays on one line, and it tells the
kind, value, line and column of the token. The kind is read from the front of a line and the place from
its back, because the value between them may hold any of the signs that part them.
-/

namespace ScriptLexer

/-- A text is cut before its last `c` in one way only. -/
theorem Text.eq_of_append_cons_eq {c : Char} {front front' back back' : List Char} (h : c ∉ back)
    (h' : c ∉ back') (same : front ++ c :: back = front' ++ c :: back') :
    front = front' ∧ back = back' := by
  have run {ds : List Char} (hd : c ∉ ds) (rest : List Char) :
      LongestRun (· ≠ c) ds.reverse (c :: rest) := by
    refine .cons_right (fun d mem => decide_eq_true ?_) (by simp)
    rintro rfl
    exact hd (List.mem_reverse.mp mem)
  have reversed := congrArg List.reverse same
  simp only [List.reverse_append, List.reverse_cons, List.append_assoc, List.singleton_append]
    at reversed
  obtain ⟨backs, fronts⟩ := (run h _).unique (run h' _) reversed
  exact ⟨List.reverse_injective (List.cons.inj fronts).2, List.reverse_injective backs⟩

theorem mem_toString_int {i : Int} {c : Char} (h : c ∈ (toString i).toList) :
    c.isDigit = true ∨ c = '-' := by
  have digits {n : Nat} (mem : c ∈ n.repr.toList) : c.isDigit = true := by
    rw [Nat.toList_repr] at mem
    exact Nat.isDigit_of_mem_toDigits (by decide) (le_refl 10) mem
  rw [Int.toString_eq_repr, Int.repr_eq_if] at h
  split at h
  · exact .inl (digits h)
  · rcases List.mem_append.mp (String.toList_append ▸ h) with sign | mem
    · exact .inr (by simpa using sign)
    · exact .inl (digits mem)

theorem notMem_toString_int {c : Char} (digit : c.isDigit = false) (minus : c ≠ '-') (i : Int) :
    c ∉ (toString i).toList := by
  intro mem
  rcases mem_toString_int mem with h | h
  · rw [digit] at h
    cases h
  · exact minus h

/-- The characters that the texts of numbers are made of. -/
def isNumeral (c : Char) : Bool := c.isDigit || "+-.aefin".toList.contains c

theorem isNumeral_of_isDigit {c : Char} (h : c.isDigit = true) : isNumeral c = true := by
  rw [isNumeral, h, Bool.true_or]

theorem isUpper_eq_false_of_isNumeral {c : Char} (h : isNumeral c = true) : c.isUpper = false := by
  rcases Bool.or_eq_true_iff.mp h with digit | sign
  · have nine : '9'.val.toNat = 57 := rfl
    have first_capital : 'A'.val.toNat = 65 := rfl
    rw [Bool.eq_false_iff]
    intro capital
    have low : 'A'.val ≤ c.val ∧ c.val ≤ 'Z'.val := of_decide_eq_true capital
    have high : c.val ≤ '9'.val := of_decide_eq_true (Bool.and_eq_true_iff.mp digit).2
    rw [UInt32.le_iff_toNat_le] at low high
    omega
  · have all : "+-.aefin".toList.all (!·.isUpper) = true := by decide
    simpa using List.all_eq_true.mp all c (List.contains_iff_mem.mp sign)

theorem Decimal.Writes.all_isNumeral {y : ℚ} {e : Int} {text : List Char} (h : Writes y e text) :
    ∀ c ∈ text, isNumeral c = true := by
  have exponent_sign (negative : Prop) [Decidable negative] :
      isNumeral (if negative then '-' else '+') = true := by
    split <;> decide
  intro c hc
  cases h with
  | positional _ _ h =>
      rcases List.mem_append.mp hc with whole | fraction
      · exact isNumeral_of_isDigit (h.digits c (List.mem_append_left _ whole))
      · rcases List.mem_cons.mp fraction with rfl | fraction
        · decide
        · exact isNumeral_of_isDigit (h.digits c (List.mem_append_right _ fraction))
  | @scientific first more power _ h =>
      have digits : c ∈ first :: more → isNumeral c = true :=
        fun mem => isNumeral_of_isDigit (h.digits c mem)
      have power_digits : c ∈ power → isNumeral c = true :=
        fun mem => isNumeral_of_isDigit (h.power_digits c mem)
      rcases List.mem_append.mp hc with mantissa | exponent
      · rcases List.mem_cons.mp mantissa with rfl | fraction
        · exact digits List.mem_cons_self
        · split at fraction
          · cases fraction
          · rcases List.mem_cons.mp fraction with rfl | fraction
            · decide
            · exact digits (List.mem_cons_of_mem _ fraction)
      · rcases List.mem_cons.mp exponent with rfl | exponent
        · decide
        · rcases List.mem_cons.mp exponent with rfl | exponent
          · exact exponent_sign _
          · exact power_digits exponent

namespace Binary64

theorem isNumeral_of_mem_render {x : Binary64} {c : Char} (h : c ∈ x.render) :
    isNumeral c = true := by
  have fixed {cs : List Char} (all : cs.all isNumeral = true) (mem : c ∈ cs) : isNumeral c = true :=
    List.all_eq_true.mp all c mem
  have minus (negative : Bool) : (if negative then ['-'] else []).all isNumeral = true := by
    cases negative <;> decide
  cases x with
  | nan => exact fixed (show nan.render.all isNumeral = true by decide) h
  | infinity negative =>
      rcases List.mem_append.mp h with sign | word
      · exact fixed (minus negative) sign
      · exact fixed (show "inf".toList.all isNumeral = true by decide) word
  | finite negative rank =>
      obtain ⟨text, x, spells, -, render⟩ := exists_text rank
      rw [render] at h
      rcases List.mem_append.mp h with sign | digits
      · exact fixed (minus negative) sign
      · by_cases zero : rank.val = 0
        · rw [spells.zero zero] at digits
          exact fixed (by decide) digits
        · obtain ⟨count, e, -, -, -, writes⟩ := spells.shortest zero
          exact writes.all_isNumeral c digits

theorem exists_render_cons (x : Binary64) :
    ∃ c cs, x.render = c :: cs ∧ isNumeral c = true := by
  have ne : x.render ≠ [] := by
    intro empty
    have read := x.read?_render
    rw [empty] at read
    cases read
  obtain ⟨c, cs, text⟩ := List.exists_cons_of_ne_nil ne
  exact ⟨c, cs, text, isNumeral_of_mem_render (x := x) (text ▸ List.mem_cons_self)⟩

end Binary64

theorem Keyword.exists_name_cons (k : Keyword) :
    ∃ c cs, k.name.toList = c :: cs ∧ c.isUpper = true := by
  cases k <;> exact ⟨_, _, rfl, by decide⟩

/-- A text that does not start with a capital letter is no name of a keyword. -/
theorem Keyword.ofName?_eq_none {c : Char} {cs : List Char} (h : c.isUpper = false) :
    ofName? (String.ofList (c :: cs)) = none := by
  refine Option.eq_none_iff_forall_ne_some.mpr fun k found => ?_
  have same : k.name = String.ofList (c :: cs) := by simpa using List.find?_some found
  obtain ⟨d, ds, name, upper⟩ := k.exists_name_cons
  rw [same, String.toList_ofList] at name
  cases name
  rw [h] at upper
  cases upper

namespace Value

/-- The value that a listing shows: the name of a keyword, a quoted text or a number. -/
def read? (cs : List Char) : Option Value :=
  match Keyword.ofName? (String.ofList cs), Text.Quoted.read? cs with
  | some k, _ => some (.keyword k)
  | none, some inside => some (.text (String.ofList inside))
  | none, none => (Binary64.read? cs).map .number

theorem read?_render {v : Value} {shown : String} (h : v.render? = some shown) :
    read? shown.toList = some v := by
  cases v with
  | absent => cases h
  | keyword k =>
      obtain rfl : k.name = shown := Option.some.inj h
      have name : Keyword.ofName? k.name = some k := by cases k <;> decide
      rw [read?, String.ofList_toList, name]
  | text s =>
      obtain rfl : Text.quoted s = shown := Option.some.inj h
      have quote : (Text.Quoted.quoteFor s.toList).isUpper = false := by
        rcases Text.Quoted.quoteFor_eq s.toList with hq | hq <;> rw [hq] <;> decide
      have no_name : Keyword.ofName? (Text.quoted s) = none := Keyword.ofName?_eq_none quote
      rw [read?, String.ofList_toList, no_name, Text.quoted, String.toList_ofList,
        Text.Quoted.read?_encode]
      simp only [String.ofList_toList]
  | number x =>
      obtain rfl : String.ofList x.render = shown := Option.some.inj h
      obtain ⟨c, cs, render, numeral⟩ := x.exists_render_cons
      have unquoted : Text.Quoted.read? x.render = none := by
        rw [render, Text.Quoted.read?, if_neg]
        rintro (rfl | rfl) <;> exact absurd numeral (by decide)
      have no_name : Keyword.ofName? (String.ofList x.render) = none :=
        render ▸ Keyword.ofName?_eq_none (isUpper_eq_false_of_isNumeral numeral)
      rw [read?, String.toList_ofList, no_name, unquoted]
      simp only [Binary64.read?_render, Option.map_some]

theorem render?_injective : Function.Injective render? := by
  intro v w same
  cases hv : v.render? with
  | none =>
      rw [hv] at same
      cases v <;> cases hv
      cases w <;> cases same
      rfl
  | some shown =>
      have read := read?_render hv
      rw [hv] at same
      rw [read?_render same.symm] at read
      exact (Option.some.inj read).symm

/-- What stands between the kind and the place. -/
def field (v : Value) : List Char :=
  match v.render? with
  | none => []
  | some shown => ',' :: ' ' :: shown.toList

theorem field_injective : Function.Injective field := by
  intro v w same
  apply render?_injective
  rw [field, field] at same
  cases hv : v.render? with
  | none =>
      cases hw : w.render? with
      | none => rfl
      | some shown => simp [hv, hw] at same
  | some shown =>
      cases hw : w.render? with
      | none => simp [hv, hw] at same
      | some other =>
          simp only [hv, hw, List.cons.injEq, true_and] at same
          rw [String.toList_inj.mp same]

theorem newline_notMem_render? {v : Value} {shown : String} (h : v.render? = some shown) :
    '\n' ∉ shown.toList := by
  cases v with
  | absent => cases h
  | keyword k =>
      obtain rfl : k.name = shown := Option.some.inj h
      cases k <;> decide
  | text s =>
      obtain rfl : Text.quoted s = shown := Option.some.inj h
      rw [Text.quoted, String.toList_ofList]
      intro mem
      exact absurd (Text.Quoted.isPrintable_of_mem_encode mem) (by decide)
  | number x =>
      obtain rfl : String.ofList x.render = shown := Option.some.inj h
      rw [String.toList_ofList]
      intro mem
      exact absurd (Binary64.isNumeral_of_mem_render mem) (by decide)

theorem newline_notMem_field (v : Value) : '\n' ∉ v.field := by
  rw [field]
  split
  · exact List.not_mem_nil
  · next shown hv => simpa using newline_notMem_render? hv

end Value

namespace Token

theorem toList_render (t : Token) :
    t.render.toList = "Token(".toList ++ ((t.kind.name.toList ++ (t.value.field ++ [',']) ++
      ' ' :: (toString t.line).toList) ++ ':' :: (toString t.column).toList ++ [')']) := by
  rw [render, Value.field]
  cases t.value.render? with
  | none => simp
  | some shown => simp

/-- A token stays on its line, whatever characters it holds. -/
theorem newline_notMem_render (t : Token) : '\n' ∉ t.render.toList := by
  have kind : '\n' ∉ t.kind.name.toList := by cases t.kind <;> decide
  have place (i : Int) : '\n' ∉ i.repr.toList :=
    Int.toString_eq_repr ▸ notMem_toString_int rfl (by decide) i
  rw [toList_render]
  simp [kind, place, t.value.newline_notMem_field]

/-- The line of a token tells all of it but the span and the file. -/
theorem of_render_eq {t u : Token} (same : t.render = u.render) :
    t.kind = u.kind ∧ t.value = u.value ∧ t.line = u.line ∧ t.column = u.column := by
  have colon (i : Int) : ':' ∉ (toString i).toList := notMem_toString_int rfl (by decide) i
  have space (i : Int) : ' ' ∉ (toString i).toList := notMem_toString_int rfl (by decide) i
  have kind_run (t : Token) :
      Text.LongestRun (· ≠ ',') t.kind.name.toList (t.value.field ++ [',']) := by
    constructor
    · have all : t.kind.name.toList.all (· ≠ ',') = true := by cases t.kind <;> decide
      exact List.all_eq_true.mp all
    · rw [Value.field]
      split <;> simp
  have characters := congrArg String.toList same
  rw [toList_render, toList_render, List.append_cancel_left_eq, List.append_cancel_right_eq]
    at characters
  obtain ⟨front, column⟩ :=
    Text.eq_of_append_cons_eq (colon t.column) (colon u.column) characters
  obtain ⟨front, line⟩ := Text.eq_of_append_cons_eq (space t.line) (space u.line) front
  obtain ⟨kind, value⟩ := (kind_run t).unique (kind_run u) front
  refine ⟨?_, Value.field_injective (List.append_cancel_right value), ?_, ?_⟩
  · have name := congrArg Kind.ofName? (String.toList_inj.mp kind)
    rw [Kind.ofName?_name, Kind.ofName?_name] at name
    exact Option.some.inj name
  · exact Int.repr_inj.mp (String.toList_inj.mp line)
  · exact Int.repr_inj.mp (String.toList_inj.mp column)

end Token

/-- The sign; zeros have one, too. -/
def Binary64.sign? : Binary64 → Option Bool
  | .nan => none
  | .infinity negative | .finite negative _ => some negative

/-- The same case with the same content. Numbers are numerically equal and have the same sign, or both
are none. -/
inductive Value.Agrees : Value → Value → Prop where
  | absent : Agrees .absent .absent
  | keyword (k : Keyword) : Agrees (.keyword k) (.keyword k)
  | text (s : String) : Agrees (.text s) (.text s)
  | notNumber : Agrees (.number .nan) (.number .nan)
  | number {x y : Binary64} : x.equals y = true → x.sign? = y.sign? →
      Agrees (.number x) (.number y)

/-- Numerical equality takes the two zeros for one, and the sign parts them again. -/
theorem Binary64.eq_of_equals {x y : Binary64} (h : x.equals y = true) (sign : x.sign? = y.sign?) :
    x = y := by
  cases x with
  | nan => cases h
  | infinity s =>
      cases y with
      | infinity t => rw [Option.some.inj sign]
      | nan | finite _ _ => cases h
  | finite s m =>
      cases y with
      | finite t n =>
          have rank : m = n := by
            simp only [equals, Bool.and_eq_true, beq_iff_eq] at h
            exact h.1
          rw [rank, Option.some.inj sign]
      | nan | infinity _ => cases h

theorem Value.agrees_iff_eq {v w : Value} : v.Agrees w ↔ v = w := by
  constructor
  · intro h
    cases h with
    | absent | keyword k | text s | notNumber => rfl
    | number same sign => rw [Binary64.eq_of_equals same sign]
  · rintro rfl
    cases v with
    | absent => exact .absent
    | keyword k => exact .keyword k
    | text s => exact .text s
    | number x =>
        cases x with
        | nan => exact .notNumber
        | infinity _ | finite _ _ => exact .number (by simp [Binary64.equals]) rfl

/-- Tokens of any content and at any place are listed alike exactly if they have the same kind, agree in
their values and have the same line and column. -/
theorem Token.render_eq_iff (t u : Token) :
    t.render = u.render ↔
      t.kind = u.kind ∧ t.value.Agrees u.value ∧ t.line = u.line ∧ t.column = u.column := by
  rw [Value.agrees_iff_eq]
  constructor
  · exact Token.of_render_eq
  · rintro ⟨kind, value, line, column⟩
    rw [render, render, kind, value, line, column]

/-- A text that looks like the end of a line and the start of another. -/
example :
    Token.render ⟨.identifier, .text "', 1:2)\nToken(OP", 0, 1, -3, 4, ""⟩ =
      "Token(IDENT, \"', 1:2)\\nToken(OP\", -3:4)" := by
  decide +kernel

end ScriptLexer

import ScriptLexer.Command
import ScriptLexer.Proofs.ByteSequences

/-!
Strict decoding of whole files. Main statement: the command line reads a file exactly if its bytes are
well-formed sequences one behind the other, and then the text that it reads is the one with these bytes;
otherwise it prints nothing and tells where the longest well-formed front ends and what stands there.
-/

namespace ScriptLexer

namespace Text.Utf8

/-- Well-formed sequences one behind the other. -/
inductive IsText : List UInt8 → Prop where
  | nil : IsText []
  | cons {bytes rest : List UInt8} : IsSequence bytes → IsText rest → IsText (bytes ++ rest)

/-- The bytes of a text. -/
def encode (cs : List Char) : List UInt8 := cs.flatMap String.utf8EncodeChar

theorem isText_iff {bytes : List UInt8} : IsText bytes ↔ ∃ cs, encode cs = bytes := by
  constructor
  · intro h
    induction h with
    | nil => exact ⟨[], rfl⟩
    | cons sequence _ ih =>
        obtain ⟨cs, rfl⟩ := ih
        obtain ⟨c, rfl⟩ := exists_encode sequence
        exact ⟨c :: cs, List.flatMap_cons⟩
  · rintro ⟨cs, rfl⟩
    induction cs with
    | nil => exact .nil
    | cons c cs ih =>
        rw [encode, List.flatMap_cons]
        exact .cons (isSequence_encode c) ih

theorem decodeFrom_of_complete {lead : UInt8} {bytes rest : List UInt8} {code length : Nat}
    (h : Sequence.read lead bytes = .complete code length rest) (position : Nat) :
    decodeFrom position (lead :: bytes) =
      (decodeFrom (position + length) rest).map (Char.ofNat code :: ·) := by
  rw [decodeFrom]
  split
  · next h' => cases h.symm.trans h'
  · next h' =>
      cases h.symm.trans h'
      rfl

theorem decodeFrom_of_broken {lead : UInt8} {bytes span : List UInt8} {reason : Reason}
    (h : Sequence.read lead bytes = .broken span reason) (position : Nat) :
    decodeFrom position (lead :: bytes) = .error ⟨position, span, reason⟩ := by
  rw [decodeFrom]
  split
  · next h' =>
      cases h.symm.trans h'
      rfl
  · next h' => cases h.symm.trans h'

theorem decodeFrom_encodeChar (position : Nat) (c : Char) (rest : List UInt8) :
    decodeFrom position (String.utf8EncodeChar c ++ rest) =
      (decodeFrom (position + (String.utf8EncodeChar c).length) rest).map (c :: ·) := by
  have sequence := isSequence_encode c
  have code := codePoint_encode c
  obtain ⟨lead, more, bytes⟩ := List.exists_cons_of_ne_nil (String.utf8EncodeChar_ne_nil (c := c))
  rw [bytes] at sequence code ⊢
  rw [List.cons_append, decodeFrom_of_complete (read_of_isSequence sequence rest), code,
    Char.ofNat_toNat]

theorem decodeFrom_encode (position : Nat) (cs : List Char) (rest : List UInt8) :
    decodeFrom position (encode cs ++ rest) =
      (decodeFrom (position + (encode cs).length) rest).map (cs ++ ·) := by
  induction cs generalizing position with
  | nil =>
      change decodeFrom position rest = (decodeFrom position rest).map id
      cases decodeFrom position rest <;> rfl
  | cons c cs ih =>
      rw [encode, List.flatMap_cons, List.append_assoc, decodeFrom_encodeChar, ← encode, ih,
        List.length_append, Nat.add_assoc]
      generalize decodeFrom (position + ((String.utf8EncodeChar c).length + _)) rest = later
      cases later <;> rfl

/-- Decoding gives back the text that was encoded. -/
theorem decode_encode (cs : List Char) : decode (encode cs) = .ok cs := by
  have whole := decodeFrom_encode 0 cs []
  rw [List.append_nil] at whole
  rw [decode, whole, decodeFrom, Except.map, List.append_nil]

/-- A byte order mark is a character like any other. -/
example : decode [0xef, 0xbb, 0xbf, 0x61] = .ok ['\ufeff', 'a'] := by decide +kernel

/-- Decoding gives the text that has these bytes, or the fault behind the text that is in front. -/
theorem decodeFrom_cases (position : Nat) (bytes : List UInt8) :
    (∃ cs, encode cs = bytes ∧ decodeFrom position bytes = .ok cs) ∨
      ∃ cs rest span reason, encode cs ++ rest = bytes ∧ Breaks rest span reason ∧
        decodeFrom position bytes = .error ⟨position + (encode cs).length, span, reason⟩ := by
  induction position, bytes using decodeFrom.induct with
  | case1 position => exact .inl ⟨[], rfl, by rw [decodeFrom]⟩
  | case2 position lead bytes span reason read =>
      have met := meets_read lead bytes
      rw [read] at met
      exact .inr ⟨[], lead :: bytes, span, reason, rfl, met, decodeFrom_of_broken read position⟩
  | case3 position lead bytes code length rest read _ ih =>
      have met := meets_read lead bytes
      rw [read] at met
      obtain ⟨s, same, sequence, -, rfl⟩ := met
      obtain ⟨c, rfl⟩ := exists_encode sequence
      rw [same, decodeFrom_encodeChar]
      obtain ⟨cs, rfl, decoded⟩ | ⟨cs, left, span, reason, rfl, breaks, decoded⟩ := ih
      · refine .inl ⟨c :: cs, List.flatMap_cons, ?_⟩
        rw [decoded]
        rfl
      · refine .inr ⟨c :: cs, left, span, reason, ?_, breaks, ?_⟩
        · rw [encode, encode, List.flatMap_cons, List.append_assoc]
        · rw [decoded, encode, encode, List.flatMap_cons, List.length_append, Nat.add_assoc]
          rfl

theorem decode_eq_ok_iff {bytes : List UInt8} {cs : List Char} :
    decode bytes = .ok cs ↔ encode cs = bytes := by
  constructor
  · intro h
    obtain ⟨ds, rfl, decoded⟩ | ⟨ds, rest, span, reason, -, -, decoded⟩ := decodeFrom_cases 0 bytes
    · cases h.symm.trans decoded
      rfl
    · cases h.symm.trans decoded
  · rintro rfl
    exact decode_encode cs

theorem position_le {position : Nat} {bytes : List UInt8} {e : DecodeError}
    (h : decodeFrom position bytes = .error e) : position ≤ e.position := by
  obtain ⟨cs, -, decoded⟩ | ⟨cs, rest, span, reason, -, -, decoded⟩ :=
    decodeFrom_cases position bytes
  · cases h.symm.trans decoded
  · cases h.symm.trans decoded
    exact Nat.le_add_right _ _

/-- No text in front of the bytes is longer than the one before the fault. -/
theorem length_le_position {bytes : List UInt8} {e : DecodeError} (h : decode bytes = .error e)
    {n : Nat} (inside : n ≤ bytes.length) (text : IsText (bytes.take n)) : n ≤ e.position := by
  obtain ⟨cs, same⟩ := isText_iff.mp text
  have length : (encode cs).length = n := by rw [same, List.length_take, Nat.min_eq_left inside]
  rw [decode, ← List.take_append_drop n bytes, ← same, decodeFrom_encode, length] at h
  cases later : decodeFrom (0 + n) (bytes.drop n) with
  | ok ds =>
      rw [later] at h
      cases h
  | error e' =>
      rw [later] at h
      cases h
      exact Nat.zero_add n ▸ position_le later

/-- The longest stretch in front of the bytes that some sequence starts with. -/
structure LongestBeginning (bytes span : List UInt8) : Prop where
  ne_nil : span ≠ []
  front : span <+: bytes
  begins : Begins span
  longest : ∀ longer, longer <+: bytes → Begins longer → longer <+: span

/-- What is told of bytes that start with no sequence. -/
inductive Tells (bytes : List UInt8) : List UInt8 → Reason → Prop where
  | invalidStart {lead : UInt8} :
      bytes.head? = some lead → ¬ Begins [lead] → Tells bytes [lead] .invalidStart
  | unexpectedEnd : LongestBeginning bytes bytes → Tells bytes bytes .unexpectedEnd
  | invalidContinuation {span : List UInt8} :
      LongestBeginning bytes span → span ≠ bytes → Tells bytes span .invalidContinuation

/-- The fault stands behind the longest front that is a text. -/
structure DecodeError.At (e : DecodeError) (bytes : List UInt8) : Prop where
  front : IsText (bytes.take e.position)
  longest : ∀ n ≤ bytes.length, IsText (bytes.take n) → n ≤ e.position
  tells : Tells (bytes.drop e.position) e.bytes e.reason

theorem Breaks.length_le {bytes span : List UInt8} {reason : Reason} (h : Breaks bytes span reason) :
    span.length ≤ 3 := by
  cases h with
  | start _ => exact Nat.le_add_left 1 2
  | continuation _ begins broken _ => exact begins.length_le broken
  | finish _ begins broken => exact begins.length_le broken

theorem Breaks.tells {bytes span : List UInt8} {reason : Reason} (h : Breaks bytes span reason) :
    Tells bytes span reason := by
  cases h with
  | start no_start => exact .invalidStart rfl no_start
  | finish ne begins _ =>
      exact .unexpectedEnd ⟨ne, List.prefix_rfl, begins, fun _ front _ => front⟩
  | @continuation _ rest byte ne begins _ ends =>
      refine .invalidContinuation ⟨ne, List.prefix_append _ _, begins, ?_⟩ (by simp)
      intro longer front more
      obtain long | short := Nat.lt_or_ge span.length longer.length
      · have reach : span ++ [byte] <+: longer := by
          refine List.prefix_of_prefix_length_le ⟨rest, by simp⟩ front ?_
          rw [List.length_append, List.length_singleton]
          exact long
        exact absurd (more.of_isPrefix reach) ends
      · exact List.prefix_of_prefix_length_le front (List.prefix_append _ _) short

theorem LongestBeginning.unique {bytes span span' : List UInt8} (h : LongestBeginning bytes span)
    (h' : LongestBeginning bytes span') : span = span' :=
  (h'.longest span h.front h.begins).eq_of_length_le
    (h.longest span' h'.front h'.begins).length_le

theorem LongestBeginning.starts {bytes span : List UInt8} (h : LongestBeginning bytes span)
    {lead : UInt8} (first : bytes.head? = some lead) : Begins [lead] := by
  obtain ⟨a, more, rfl⟩ := List.exists_cons_of_ne_nil h.ne_nil
  obtain ⟨rest, rfl⟩ := h.front
  obtain rfl : a = lead := by simpa using first
  exact h.begins.of_isPrefix ⟨more, rfl⟩

theorem Tells.unique {bytes span span' : List UInt8} {reason reason' : Reason}
    (h : Tells bytes span reason) (h' : Tells bytes span' reason') :
    span = span' ∧ reason = reason' := by
  cases h with
  | invalidStart first no_start =>
      cases h' with
      | invalidStart first' _ => simpa using first.symm.trans first'
      | unexpectedEnd longest => exact absurd (longest.starts first) no_start
      | invalidContinuation longest _ => exact absurd (longest.starts first) no_start
  | unexpectedEnd longest =>
      cases h' with
      | invalidStart first no_start => exact absurd (longest.starts first) no_start
      | unexpectedEnd _ => exact ⟨rfl, rfl⟩
      | invalidContinuation longest' ne => exact absurd (longest'.unique longest) ne
  | invalidContinuation longest ne =>
      cases h' with
      | invalidStart first no_start => exact absurd (longest.starts first) no_start
      | unexpectedEnd longest' => exact absurd (longest.unique longest') ne
      | invalidContinuation longest' _ => exact ⟨longest.unique longest', rfl⟩

theorem Tells.ne_nil {bytes span : List UInt8} {reason : Reason} (h : Tells bytes span reason) :
    bytes ≠ [] := by
  rintro rfl
  cases h with
  | invalidStart first _ => cases first
  | unexpectedEnd longest => exact longest.ne_nil rfl
  | invalidContinuation longest _ => exact longest.ne_nil (List.prefix_nil.mp longest.front)

theorem DecodeError.At.position_lt {bytes : List UInt8} {e : DecodeError} (h : e.At bytes) :
    e.position < bytes.length := by
  have left := h.tells.ne_nil
  rwa [Ne, List.drop_eq_nil_iff, Nat.not_le] at left

theorem DecodeError.At.unique {bytes : List UInt8} {e e' : DecodeError} (h : e.At bytes)
    (h' : e'.At bytes) : e = e' := by
  obtain ⟨position, span, reason⟩ := e
  obtain ⟨position', span', reason'⟩ := e'
  obtain rfl : position = position' :=
    Nat.le_antisymm (h'.longest _ (Nat.le_of_lt h.position_lt) h.front)
      (h.longest _ (Nat.le_of_lt h'.position_lt) h'.front)
  obtain ⟨rfl, rfl⟩ := h.tells.unique h'.tells
  rfl

theorem at_of_decode {bytes : List UInt8} {e : DecodeError} (h : decode bytes = .error e) :
    e.At bytes ∧ e.bytes.length ≤ 3 := by
  obtain ⟨cs, -, decoded⟩ | ⟨cs, rest, span, reason, rfl, breaks, decoded⟩ :=
    decodeFrom_cases 0 bytes
  · cases h.symm.trans decoded
  · have length := fun n => length_le_position h (n := n)
    cases h.symm.trans decoded
    rw [Nat.zero_add] at length ⊢
    refine ⟨⟨?_, length, ?_⟩, breaks.length_le⟩
    · rw [List.take_left]
      exact isText_iff.mpr ⟨cs, rfl⟩
    · rw [List.drop_left]
      exact breaks.tells

/-- The fault that decoding tells is the one there is. -/
theorem decode_eq_error_iff {bytes : List UInt8} {e : DecodeError} :
    decode bytes = .error e ↔ e.At bytes := by
  refine ⟨fun h => (at_of_decode h).1, fun h => ?_⟩
  cases decoded : decode bytes with
  | ok cs =>
      have text : IsText (bytes.take bytes.length) := by
        rw [List.take_length]
        exact isText_iff.mpr ⟨cs, decode_eq_ok_iff.mp decoded⟩
      exact absurd (h.longest _ (Nat.le_refl _) text) (Nat.not_le.mpr h.position_lt)
  | error e' => rw [h.unique (at_of_decode decoded).1]

theorem exists_fault {bytes : List UInt8} (h : ¬ IsText bytes) :
    ∃ e : DecodeError, e.At bytes ∧ e.bytes.length ≤ 3 := by
  cases decoded : decode bytes with
  | ok cs => exact absurd (isText_iff.mpr ⟨cs, decode_eq_ok_iff.mp decoded⟩) h
  | error e => exact ⟨e, at_of_decode decoded⟩

theorem encode_injective {cs ds : List Char} (h : encode cs = encode ds) : cs = ds := by
  have decoded := decode_encode ds
  rw [← h, decode_encode, Except.ok.injEq] at decoded
  exact decoded

theorem toList_toUTF8 (cs : List Char) : (String.ofList cs).toUTF8.data.toList = encode cs := by
  rw [String.toUTF8_eq_toByteArray, String.toByteArray_ofList, List.utf8Encode,
    List.data_toByteArray, encode]

end Text.Utf8

namespace Command

open Text.Utf8

theorem exists_ending_printTokens (source file : String) :
    ∃ code, (printTokens source file).ending = .exit code := by
  rw [printTokens]
  cases (tokenize source file).answer.error with
  | none => exact ⟨0, rfl⟩
  | some e => exact ⟨1, rfl⟩

variable {find : Path → Found} {arguments : List String} {path : Path} {bytes : List UInt8}

theorem run_of_found (asked : Invocation.ofArguments arguments = .tokenize path)
    (found : find path = .file bytes) (time : String) :
    let o := run find time arguments
    let effect := printFound path.render (.file bytes)
    o.stdout = printed effect.lines ∧ o.ending = effect.ending := by
  rw [run, asked, Invocation.perform, found]
  exact ⟨rfl, rfl⟩

theorem run_of_text (asked : Invocation.ofArguments arguments = .tokenize path) {cs : List Char}
    (found : find path = .file (encode cs)) (time : String) :
    let o := run find time arguments
    let effect := printTokens (String.ofList (Text.normalizeNewlines cs)) path.render
    o.stdout = printed effect.lines ∧ o.ending = effect.ending := by
  have shown := run_of_found asked found time
  simp only [printFound, decode_encode] at shown
  exact shown

theorem run_of_fault (asked : Invocation.ofArguments arguments = .tokenize path)
    (found : find path = .file bytes) {e : DecodeError} (fault : e.At bytes) (time : String) :
    let o := run find time arguments
    o.stdout = "" ∧ o.ending = .unread (.notUtf8 e) := by
  have shown := run_of_found asked found time
  simp only [printFound, decode_eq_error_iff.mpr fault] at shown
  exact shown

/-- The command line reads a file exactly if its bytes are well-formed sequences. Then there is one
text with these bytes, and its tokens are printed. If they are not, nothing is printed, and the fault is
the one behind the longest front that is a text. -/
theorem run_decodes_strictly (asked : Invocation.ofArguments arguments = .tokenize path)
    (found : find path = .file bytes) (time : String) :
    let o := run find time arguments
    ((∃ code, o.ending = .exit code) ↔ IsText bytes) ∧
      (IsText bytes → ∃! cs, (String.ofList cs).toUTF8.data.toList = bytes) ∧
      (∀ cs, decode bytes = .ok cs ↔ (String.ofList cs).toUTF8.data.toList = bytes) ∧
      (∀ cs, (String.ofList cs).toUTF8.data.toList = bytes →
        let effect := printTokens (String.ofList (Text.normalizeNewlines cs)) path.render
        o.stdout = printed effect.lines ∧ o.ending = effect.ending) ∧
      (∀ e, o.ending = .unread e ↔ ∃ fault : DecodeError, e = .notUtf8 fault ∧ fault.At bytes) ∧
      (¬ IsText bytes → o.stdout = "" ∧ ∃ fault : DecodeError,
        o.ending = .unread (.notUtf8 fault) ∧ fault.At bytes ∧ fault.bytes.length ≤ 3) := by
  intro o
  simp only [toList_toUTF8]
  refine ⟨⟨?_, ?_⟩, ?_, fun cs => decode_eq_ok_iff, ?_, fun e => ⟨?_, ?_⟩, ?_⟩
  · rintro ⟨code, exits⟩
    by_contra broken
    obtain ⟨e, fault, -⟩ := exists_fault broken
    cases (run_of_fault asked found fault time).2.symm.trans exits
  · intro text
    obtain ⟨cs, rfl⟩ := isText_iff.mp text
    obtain ⟨code, exits⟩ := exists_ending_printTokens _ _
    exact ⟨code, (run_of_text asked found time).2.trans exits⟩
  · intro text
    obtain ⟨cs, rfl⟩ := isText_iff.mp text
    exact ⟨cs, rfl, fun ds same => encode_injective same⟩
  · rintro cs rfl
    exact run_of_text asked found time
  · intro unread
    by_cases text : IsText bytes
    · obtain ⟨cs, rfl⟩ := isText_iff.mp text
      obtain ⟨code, exits⟩ := exists_ending_printTokens _ _
      cases ((run_of_text asked found time).2.trans exits).symm.trans unread
    · obtain ⟨fault, stands, -⟩ := exists_fault text
      cases (run_of_fault asked found stands time).2.symm.trans unread
      exact ⟨fault, rfl, stands⟩
  · rintro ⟨fault, rfl, stands⟩
    exact (run_of_fault asked found stands time).2
  · intro broken
    obtain ⟨fault, stands, short⟩ := exists_fault broken
    obtain ⟨stdout, ending⟩ := run_of_fault asked found stands time
    exact ⟨stdout, fault, ending, stands, short⟩

/-- A byte order mark and a letter stand in front of a sequence that a line feed cuts off. -/
theorem cut_off_sequence :
    let bytes : List UInt8 := [0xef, 0xbb, 0xbf, 0xc3, 0xa9, 0xf0, 0x9f, 0x98, 0x0a]
    let find := (FileTree.ofPaths [] [(Path.parse "a", bytes)]).lookup
    let arguments := ["tokenize", "-v", "./a"]
    let fault : DecodeError := ⟨5, [0xf0, 0x9f, 0x98], .invalidContinuation⟩
    Invocation.ofArguments arguments = .tokenize (Path.parse "a") ∧
      find (Path.parse "a") = .file bytes ∧ fault.At bytes ∧
      (run find "" arguments).ending = .unread (.notUtf8 fault) := by
  intro bytes find arguments fault
  have asked : Invocation.ofArguments arguments = .tokenize (Path.parse "a") := by decide +kernel
  have found : find (Path.parse "a") = .file bytes := by decide +kernel
  have ending : (run find "" arguments).ending = .unread (.notUtf8 fault) := by decide +kernel
  obtain ⟨-, -, -, -, unread, -⟩ := run_decodes_strictly asked found ""
  obtain ⟨told, same, stands⟩ := (unread _).mp ending
  cases same
  exact ⟨asked, found, stands, ending⟩

end Command
end ScriptLexer

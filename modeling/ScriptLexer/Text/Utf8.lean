/-!
Strict UTF-8. Decoding either gives the whole text or says where the first ill-formed sequence
stands, how long its well-formed beginning is, and what is wrong with it.
-/

namespace ScriptLexer.Text.Utf8

/-- Bounds of a byte, both included. -/
structure Bounds where
  least : UInt8
  greatest : UInt8

def Bounds.contains (b : Bounds) (byte : UInt8) : Bool :=
  decide (b.least ≤ byte) && decide (byte ≤ b.greatest)

/-- A byte that continues a sequence, where no narrower bounds hold. -/
def continuation : Bounds := ⟨0x80, 0xbf⟩

/-- The bytes that have to follow a lead byte, and nothing where the byte starts no sequence. The
narrower bounds shut out overlong forms, surrogates and what lies above the last code point. -/
def following (lead : UInt8) : Option (List Bounds) :=
  if lead < 0x80 then some []
  else if lead < 0xc2 then none
  else if lead < 0xe0 then some [continuation]
  else if lead = 0xe0 then some [⟨0xa0, 0xbf⟩, continuation]
  else if lead = 0xed then some [⟨0x80, 0x9f⟩, continuation]
  else if lead < 0xf0 then some [continuation, continuation]
  else if lead = 0xf0 then some [⟨0x90, 0xbf⟩, continuation, continuation]
  else if lead < 0xf4 then some [continuation, continuation, continuation]
  else if lead = 0xf4 then some [⟨0x80, 0x8f⟩, continuation, continuation]
  else none

/-- The bits of a code point that a lead byte carries, where `count` bytes follow it. -/
def leadBits (lead : UInt8) (count : Nat) : Nat :=
  if count = 0 then lead.toNat else lead.toNat % (1 <<< (6 - count))

inductive Reason where
  | invalidStart
  | invalidContinuation
  | unexpectedEnd
deriving Repr, DecidableEq

def Reason.message : Reason → String
  | .invalidStart => "invalid start byte"
  | .invalidContinuation => "invalid continuation byte"
  | .unexpectedEnd => "unexpected end of data"

/-- An ill-formed sequence: its position in the bytes, its bytes up to the fault, and the fault. -/
structure DecodeError where
  position : Nat
  bytes : List UInt8
  reason : Reason
deriving Repr, DecidableEq

/-- One byte is named by its value, several by where they stand. -/
def DecodeError.message (e : DecodeError) : String :=
  let place := match e.bytes with
    | [byte] =>
      let digits := Nat.toDigits 16 byte.toNat
      "byte 0x" ++ String.ofList (List.replicate (2 - digits.length) '0' ++ digits) ++
        " in position " ++ toString e.position
    | bytes =>
      "bytes in position " ++ toString e.position ++ "-" ++
        toString (e.position + bytes.length - 1)
  "'utf-8' codec can't decode " ++ place ++ ": " ++ e.reason.message

/-- The start of a text: a code point, the length of its sequence and the bytes behind it, or the
well-formed beginning of a sequence and what ends it. -/
inductive Sequence where
  | complete (code length : Nat) (rest : List UInt8)
  | broken (bytes : List UInt8) (reason : Reason)

/-- Reads the bytes that follow a lead byte. `seen` are the bytes of the sequence so far. -/
def Sequence.extend (seen : List UInt8) (code : Nat) : List Bounds → List UInt8 → Sequence
  | [], rest => .complete code seen.length rest
  | _ :: _, [] => .broken seen .unexpectedEnd
  | b :: bs, byte :: rest =>
    if b.contains byte then
      Sequence.extend (seen ++ [byte]) (code * 64 + byte.toNat % 64) bs rest
    else .broken seen .invalidContinuation

def Sequence.read (lead : UInt8) (rest : List UInt8) : Sequence :=
  match following lead with
  | none => .broken [lead] .invalidStart
  | some bounds => .extend [lead] (leadBits lead bounds.length) bounds rest

theorem Sequence.extend_eq_complete {seen : List UInt8} {code : Nat} {bounds : List Bounds}
    {bytes : List UInt8} {found length : Nat} {rest : List UInt8}
    (h : Sequence.extend seen code bounds bytes = .complete found length rest) :
    length + rest.length = seen.length + bytes.length ∧ length = seen.length + bounds.length := by
  induction bounds generalizing seen code bytes with
  | nil =>
      simp only [Sequence.extend, Sequence.complete.injEq] at h
      obtain ⟨-, rfl, rfl⟩ := h
      simp
  | cons b bs ih =>
      cases bytes with
      | nil => simp [Sequence.extend] at h
      | cons byte bytes =>
          simp only [Sequence.extend] at h
          split at h
          · have := ih h
            simp only [List.length_append, List.length_cons, List.length_nil] at this ⊢
            omega
          · cases h

theorem Sequence.read_complete_length {lead : UInt8} {bytes : List UInt8} {code length : Nat}
    {rest : List UInt8} (h : Sequence.read lead bytes = .complete code length rest) :
    0 < length ∧ length + rest.length = bytes.length + 1 := by
  unfold Sequence.read at h
  split at h
  · cases h
  · have := Sequence.extend_eq_complete h
    simp only [List.length_cons, List.length_nil] at this
    omega

/-- Decodes bytes that start at the given position of a file. -/
def decodeFrom (position : Nat) : List UInt8 → Except DecodeError (List Char)
  | [] => .ok []
  | lead :: bytes =>
    match h : Sequence.read lead bytes with
    | .broken seen reason => .error ⟨position, seen, reason⟩
    | .complete code length rest =>
      have := Sequence.read_complete_length h
      (decodeFrom (position + length) rest).map (Char.ofNat code :: ·)
termination_by bytes => bytes.length
decreasing_by simp_wf; omega

def decode (bytes : List UInt8) : Except DecodeError (List Char) := decodeFrom 0 bytes

end ScriptLexer.Text.Utf8

/-!
# UTF-8

Bytes are decoded one at a time. A run of bytes ends between characters, inside a character whose
remaining bytes may follow in the next run, or at a fault. A sequence is faulty as soon as its
bytes so far begin no character: overlong forms, surrogates and code points past the last one
count as faults of their second byte. Only a surrogate cut off behind its second byte is left for
the next run to find.
-/

namespace SetLisp.Text

inductive Utf8Cause where
  | invalidStart
  | invalidContinuation
  | unexpectedEnd
deriving DecidableEq, Repr

def Utf8Cause.text : Utf8Cause → String
  | .invalidStart => "invalid start byte"
  | .invalidContinuation => "invalid continuation byte"
  | .unexpectedEnd => "unexpected end of data"

/-- Bytes that begin no character, with the place of the first of them. -/
structure Utf8Fault where
  position : Nat
  bytes : List UInt8
  cause : Utf8Cause
deriving DecidableEq, Repr

def hexByte (byte : UInt8) : String :=
  let digits := Nat.toDigits 16 byte.toNat
  String.ofList (List.replicate (2 - digits.length) '0' ++ digits)

def Utf8Fault.message (fault : Utf8Fault) : String :=
  let place :=
    match fault.bytes with
    | [byte] => "byte 0x" ++ hexByte byte ++ " in position " ++ toString fault.position
    | bytes =>
        "bytes in position " ++ toString fault.position ++ "-" ++
          toString (fault.position + bytes.length - 1)
  "'utf-8' codec can't decode " ++ place ++ ": " ++ fault.cause.text

/-- A character whose first bytes are read: the bits gathered so far, how many bytes are owed and
the range the next one must lie in. -/
structure Utf8Partial where
  bytes : List UInt8
  code : Nat
  owed : Nat
  low : Nat
  high : Nat
deriving DecidableEq, Repr

/-- The sequence a leading byte of a longer character opens. -/
def Utf8Partial.opened? (byte : UInt8) : Option Utf8Partial :=
  let b := byte.toNat
  if 0xC2 ≤ b ∧ b ≤ 0xDF then some ⟨[byte], b - 0xC0, 1, 0x80, 0xBF⟩
  else if b = 0xE0 then some ⟨[byte], 0, 2, 0xA0, 0xBF⟩
  else if b = 0xED then some ⟨[byte], 0xD, 2, 0x80, 0x9F⟩
  else if 0xE1 ≤ b ∧ b ≤ 0xEF then some ⟨[byte], b - 0xE0, 2, 0x80, 0xBF⟩
  else if b = 0xF0 then some ⟨[byte], 0, 3, 0x90, 0xBF⟩
  else if 0xF1 ≤ b ∧ b ≤ 0xF3 then some ⟨[byte], b - 0xF0, 3, 0x80, 0xBF⟩
  else if b = 0xF4 then some ⟨[byte], 4, 3, 0x80, 0x8F⟩
  else none

def Utf8Partial.accepts (sequence : Utf8Partial) (byte : UInt8) : Bool :=
  sequence.low ≤ byte.toNat && byte.toNat ≤ sequence.high

def Utf8Partial.extend (sequence : Utf8Partial) (byte : UInt8) : Utf8Partial :=
  { bytes := sequence.bytes ++ [byte]
    code := sequence.code * 64 + (byte.toNat - 0x80)
    owed := sequence.owed - 1
    low := 0x80
    high := 0xBF }

/-- Whether the two bytes begin a surrogate. -/
def Utf8Partial.opensSurrogate (sequence : Utf8Partial) (byte : UInt8) : Bool :=
  sequence.bytes == [0xED] && 0xA0 ≤ byte.toNat && byte.toNat ≤ 0xBF

/-- How a run of bytes ends. -/
inductive Utf8Ending where
  | whole
  | unfinished (sequence : Utf8Partial)
  | cutSurrogate
  | faulty (fault : Utf8Fault)
deriving DecidableEq, Repr

/-- The characters of a run of bytes and its ending. The run starts inside `pending`, if that is
given, and its next byte stands at `position`. -/
def decodeRun (position : Nat) : Option Utf8Partial → List UInt8 → List Char × Utf8Ending
  | none, [] => ([], .whole)
  | some sequence, [] => ([], .unfinished sequence)
  | none, byte :: rest =>
      if byte.toNat < 0x80 then
        let (text, ending) := decodeRun (position + 1) none rest
        (Char.ofNat byte.toNat :: text, ending)
      else
        match Utf8Partial.opened? byte with
        | some sequence => decodeRun (position + 1) (some sequence) rest
        | none => ([], .faulty ⟨position, [byte], .invalidStart⟩)
  | some sequence, byte :: rest =>
      if sequence.accepts byte then
        let sequence := sequence.extend byte
        if sequence.owed = 0 then
          let (text, ending) := decodeRun (position + 1) none rest
          (Char.ofNat sequence.code :: text, ending)
        else decodeRun (position + 1) (some sequence) rest
      else if sequence.opensSurrogate byte && rest.isEmpty then ([], .cutSurrogate)
      else
        ([], .faulty ⟨position - sequence.bytes.length, sequence.bytes, .invalidContinuation⟩)

end SetLisp.Text

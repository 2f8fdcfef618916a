import LoxLexis.Text.Basic

/-!
# Strict UTF-8

Bytes are decoded without replacement characters.  Bytes that are not well formed are refused with
the first ill-formed sequence: where it starts, its bytes, and what is wrong with it.

## Main definitions

* `Utf8.Lead` — what a first byte announces: payload bits and the bytes that may follow
* `Utf8.Fault` — the first ill-formed sequence
* `Utf8.decode` — the text of a byte sequence, or its first fault
* `Utf8.encode`, `Utf8.byteCount` — the bytes of a text and their number

## Design notes

A first byte fixes the range of every byte after it.  Only the second byte's range ever differs
from `80–BF`; the four narrower ranges exclude overlong forms, surrogates and what lies beyond
U+10FFFF, so a completed sequence is always a character.  The ill-formed sequence consists of the
bytes that were still acceptable; the byte that was not begins a sequence of its own.
-/

namespace LoxLexis.Utf8

/-- An inclusive range of bytes. -/
structure ByteRange where
  least : UInt8
  greatest : UInt8
  deriving DecidableEq

def ByteRange.holds (r : ByteRange) (b : UInt8) : Bool := r.least ≤ b && b ≤ r.greatest

/-- The bytes `80–BF`, which continue a sequence. -/
def continuation : ByteRange := ⟨0x80, 0xBF⟩

/-- What the first byte of a sequence announces. -/
structure Lead where
  /-- The bits the first byte contributes to the code point. -/
  payload : Nat
  /-- The ranges of the bytes that have to follow. -/
  expected : List ByteRange

/-- The announcement of a first byte; `none` for a byte that begins no character. -/
def Lead.ofByte? (b : UInt8) : Option Lead :=
  if b < 0x80 then some ⟨b.toNat, []⟩
  else if b < 0xC2 then none
  else if b < 0xE0 then some ⟨b.toNat - 0xC0, [continuation]⟩
  else if b < 0xF0 then
    let second : ByteRange :=
      if b = 0xE0 then ⟨0xA0, 0xBF⟩ else if b = 0xED then ⟨0x80, 0x9F⟩ else continuation
    some ⟨b.toNat - 0xE0, [second, continuation]⟩
  else if b < 0xF5 then
    let second : ByteRange :=
      if b = 0xF0 then ⟨0x90, 0xBF⟩ else if b = 0xF4 then ⟨0x80, 0x8F⟩ else continuation
    some ⟨b.toNat - 0xF0, [second, continuation, continuation]⟩
  else none

/-- What is wrong with an ill-formed sequence. -/
inductive Reason
  /-- Its first byte begins no character. -/
  | invalidStart
  /-- The byte after it does not continue it. -/
  | invalidContinuation
  /-- The bytes end before it is complete. -/
  | unexpectedEnd
  deriving DecidableEq

def Reason.text : Reason → String
  | .invalidStart => "invalid start byte"
  | .invalidContinuation => "invalid continuation byte"
  | .unexpectedEnd => "unexpected end of data"

/-- The first ill-formed sequence of some bytes. -/
structure Fault where
  /-- The number of bytes before it. -/
  position : Nat
  first : UInt8
  /-- The number of bytes after the first one that belong to it. -/
  further : Nat
  /-- What is wrong with it. -/
  reason : Reason
  deriving DecidableEq

/-- A fault in words; one byte is named by its value, several by their positions. -/
def Fault.message (f : Fault) : Text :=
  let place :=
    if f.further = 0 then
      "byte 0x".toList ++ Text.hexadecimal 2 f.first.toNat ++ " in position ".toList ++
        Text.ofNat f.position
    else
      "bytes in position ".toList ++ Text.ofNat f.position ++ '-' ::
        Text.ofNat (f.position + f.further)
  "'utf-8' codec can't decode ".toList ++ place ++ ": ".toList ++ f.reason.text.toList

/-- A sequence of which some bytes are still to come. -/
structure Partial where
  /-- The number of bytes before the sequence. -/
  position : Nat
  first : UInt8
  /-- The number of bytes met after the first one. -/
  further : Nat
  /-- The bits gathered so far. -/
  payload : Nat
  /-- The range of the next byte. -/
  next : ByteRange
  /-- The ranges of the bytes after the next one. -/
  later : List ByteRange

/-- A partial sequence that is not continued as it has to be. -/
def Partial.fault (p : Partial) (reason : Reason) : Fault where
  position := p.position
  first := p.first
  further := p.further
  reason := reason

/-- A decoder between two bytes. -/
structure Progress where
  /-- The number of bytes met. -/
  position : Nat
  /-- The characters completed, the latest first. -/
  reversed : Text
  /-- The sequence that is not complete yet. -/
  pending : Option Partial

namespace Progress

/-- A decoder before the first byte. -/
def start : Progress := ⟨0, [], none⟩

/-- One more byte, at the start of a sequence. -/
def begin (p : Progress) (b : UInt8) : Except Fault Progress :=
  match Lead.ofByte? b with
  | none => .error { position := p.position, first := b, further := 0, reason := .invalidStart }
  | some ⟨payload, []⟩ =>
    .ok { p with position := p.position + 1, reversed := Char.ofNat payload :: p.reversed }
  | some ⟨payload, next :: later⟩ =>
    .ok { p with
          position := p.position + 1
          pending := some { position := p.position, first := b, further := 0, payload, next, later } }

/-- One more byte, inside a sequence. -/
def extend (p : Progress) (s : Partial) (b : UInt8) : Except Fault Progress :=
  if s.next.holds b then
    -- A byte that continues a sequence contributes its lowest six bits.
    let payload := s.payload * 64 + b.toNat % 64
    match s.later with
    | [] =>
      .ok { position := p.position + 1
            reversed := Char.ofNat payload :: p.reversed
            pending := none }
    | next :: later =>
      .ok { p with
            position := p.position + 1
            pending := some { s with further := s.further + 1, payload, next, later } }
  else .error (s.fault .invalidContinuation)

/-- One more byte. -/
def step (p : Progress) (b : UInt8) : Except Fault Progress :=
  match p.pending with
  | none => p.begin b
  | some s => p.extend s b

/-- The text of the bytes met, if they end here. -/
def finish (p : Progress) : Except Fault Text :=
  match p.pending with
  | none => .ok p.reversed.reverse
  | some s => .error (s.fault .unexpectedEnd)

end Progress

/-- The text of a byte sequence, or its first ill-formed sequence. -/
def decode (bytes : List UInt8) : Except Fault Text := do
  (← bytes.foldlM Progress.step .start).finish

/-- The bytes of a text. -/
def encode (t : Text) : List UInt8 := t.flatMap String.utf8EncodeChar

/-- The number of bytes of a text. -/
def byteCount (t : Text) : Nat := (encode t).length

end LoxLexis.Utf8

import LoxLexis.Text.Utf8
import Mathlib.Data.List.Forall2

/-!
# Text from its own bytes

The bytes of a text are well formed and are decoded to that text again.  The decoder goes from byte
to byte and knows of no character until it is complete; so the argument is made for one character
first.  Its first byte announces the ranges of the bytes to follow, each of them lies in its range,
and the bits they contribute make up the code point.

## Main definitions

* `Utf8.Follow` — bytes that lie in the ranges announced for them
* `Utf8.gathered` — the bits that a payload and further bytes make up
* `Utf8.Sequence` — the bytes of one code point

## Main statements

* `Utf8.sequence_utf8EncodeChar` — a character is encoded as such a sequence
* `Utf8.Sequence.foldlM_step` — such a sequence is decoded as one character
* `Utf8.decode_encode` — a text is decoded from its bytes
-/

namespace LoxLexis.Utf8

/-- Bytes that lie in the ranges announced for them. -/
def Follow : List ByteRange → List UInt8 → Prop := List.Forall₂ fun r b => r.holds b = true

/-- The bits that a payload and further bytes make up. -/
def gathered (payload : Nat) (bytes : List UInt8) : Nat :=
  bytes.foldl (fun bits b => bits * 64 + b.toNat % 64) payload

/-- Bytes of which the first announces the others, and which make up a code point. -/
inductive Sequence (code : Nat) : List UInt8 → Prop
  | mk {first : UInt8} {further : List UInt8} {lead : Lead} (h : Lead.ofByte? first = some lead)
      (follow : Follow lead.expected further) (bits : gathered lead.payload further = code) :
      Sequence code (first :: further)

/-! ### Decoding one sequence -/

/-- Bytes that continue a partial sequence as announced complete it. -/
theorem foldlM_extend {p : Progress} {s : Partial} {bytes : List UInt8}
    (pending : p.pending = some s) (follow : Follow (s.next :: s.later) bytes) :
    bytes.foldlM Progress.step p =
      .ok { position := p.position + bytes.length
            reversed := Char.ofNat (gathered s.payload bytes) :: p.reversed
            pending := none } := by
  induction bytes generalizing p s with
  | nil => cases follow
  | cons b bytes ih =>
      obtain ⟨holds, follow⟩ := List.forall₂_cons.mp follow
      obtain ⟨position, first, further, payload, next, later⟩ := s
      rw [List.foldlM_cons, Progress.step, pending]
      simp only [Progress.extend, holds, if_true]
      cases later with
      | nil =>
          obtain rfl := List.forall₂_nil_left_iff.mp follow
          rfl
      | cons next later =>
          have rest := ih (p := ⟨p.position + 1, p.reversed, some _⟩)
            (s := ⟨position, first, further + 1, payload * 64 + b.toNat % 64, next, later⟩)
            rfl follow
          refine rest.trans ?_
          rw [List.length_cons, Nat.add_assoc, Nat.add_comm 1]
          rfl

/-- **A sequence is decoded as one character.** -/
theorem Sequence.foldlM_step {code : Nat} {bytes : List UInt8} (h : Sequence code bytes)
    {p : Progress} (pending : p.pending = none) :
    bytes.foldlM Progress.step p =
      .ok { position := p.position + bytes.length
            reversed := Char.ofNat code :: p.reversed
            pending := none } := by
  cases h with
  | @mk first further lead h follow bits =>
      subst bits
      obtain ⟨payload, expected⟩ := lead
      obtain ⟨position, reversed, _⟩ := p
      cases pending
      rw [List.foldlM_cons, Progress.step]
      simp only [Progress.begin, h]
      cases expected with
      | nil =>
          obtain rfl := List.forall₂_nil_left_iff.mp follow
          rfl
      | cons next later =>
          refine (foldlM_extend rfl follow).trans ?_
          rw [List.length_cons, Nat.add_assoc, Nat.add_comm 1]

/-! ### What first bytes announce -/

theorem holds_iff {r : ByteRange} {b : UInt8} :
    r.holds b = true ↔ r.least.toNat ≤ b.toNat ∧ b.toNat ≤ r.greatest.toNat := by
  simp [ByteRange.holds, UInt8.le_iff_toNat_le]

theorem continuation_holds_iff {b : UInt8} :
    continuation.holds b = true ↔ 0x80 ≤ b.toNat ∧ b.toNat ≤ 0xBF := holds_iff

/-- The second byte of a sequence has a range of its own after two of the first bytes, one of
which bounds it from below and one from above. -/
theorem second_holds {b lowest highest least greatest x : UInt8} (low : 0x80 ≤ x.toNat)
    (high : x.toNat ≤ 0xBF) (short : b = lowest → least.toNat ≤ x.toNat)
    (large : b = highest → x.toNat ≤ greatest.toNat) :
    (if b = lowest then (⟨least, 0xBF⟩ : ByteRange)
      else if b = highest then ⟨0x80, greatest⟩ else continuation).holds x = true := by
  rw [holds_iff]
  split
  · next h => exact ⟨short h, high⟩
  · split
    · next h => exact ⟨low, large h⟩
    · exact ⟨low, high⟩

namespace Lead

variable {b : UInt8}

theorem ofByte?_one (high : b.toNat < 0x80) : ofByte? b = some ⟨b.toNat, []⟩ := by
  simp only [ofByte?, UInt8.lt_iff_toNat_lt, UInt8.reduceToNat]
  rw [if_pos high]

theorem ofByte?_two (low : 0xC2 ≤ b.toNat) (high : b.toNat < 0xE0) :
    ofByte? b = some ⟨b.toNat - 0xC0, [continuation]⟩ := by
  simp only [ofByte?, UInt8.lt_iff_toNat_lt, UInt8.reduceToNat]
  rw [if_neg (by omega), if_neg (by omega), if_pos high]

/-- The second of three bytes is bounded where a shorter form or a surrogate would come out. -/
theorem ofByte?_three (low : 0xE0 ≤ b.toNat) (high : b.toNat < 0xF0) :
    ∃ second, ofByte? b = some ⟨b.toNat - 0xE0, [second, continuation]⟩ ∧
      ∀ x : UInt8, 0x80 ≤ x.toNat → x.toNat ≤ 0xBF → (b.toNat = 0xE0 → 0xA0 ≤ x.toNat) →
        (b.toNat = 0xED → x.toNat ≤ 0x9F) → second.holds x = true := by
  refine ⟨if b = 0xE0 then ⟨0xA0, 0xBF⟩ else if b = 0xED then ⟨0x80, 0x9F⟩ else continuation,
    ?_, fun x least greatest short surrogate => ?_⟩
  · simp only [ofByte?, UInt8.lt_iff_toNat_lt, UInt8.reduceToNat]
    rw [if_neg (by omega), if_neg (by omega), if_neg (by omega), if_pos high]
  · exact second_holds least greatest (fun h => short (congrArg UInt8.toNat h))
      fun h => surrogate (congrArg UInt8.toNat h)

/-- The second of four bytes is bounded where a shorter form or too large a code would come out. -/
theorem ofByte?_four (low : 0xF0 ≤ b.toNat) (high : b.toNat < 0xF5) :
    ∃ second, ofByte? b = some ⟨b.toNat - 0xF0, [second, continuation, continuation]⟩ ∧
      ∀ x : UInt8, 0x80 ≤ x.toNat → x.toNat ≤ 0xBF → (b.toNat = 0xF0 → 0x90 ≤ x.toNat) →
        (b.toNat = 0xF4 → x.toNat ≤ 0x8F) → second.holds x = true := by
  refine ⟨if b = 0xF0 then ⟨0x90, 0xBF⟩ else if b = 0xF4 then ⟨0x80, 0x8F⟩ else continuation,
    ?_, fun x least greatest short large => ?_⟩
  · simp only [ofByte?, UInt8.lt_iff_toNat_lt, UInt8.reduceToNat]
    rw [if_neg (by omega), if_neg (by omega), if_neg (by omega), if_neg (by omega), if_pos high]
  · exact second_holds least greatest (fun h => short (congrArg UInt8.toNat h))
      fun h => large (congrArg UInt8.toNat h)

end Lead

/-! ### The bytes of characters -/

section Encoding

variable {code : Nat}

theorem toNat_byte {n : Nat} (h : n < 256) : (UInt8.ofNat n).toNat = n := UInt8.toNat_ofNat_of_lt' h

/-- The byte that continues a sequence with the lowest six bits of a number. -/
theorem toNat_continuing (n : Nat) : (UInt8.ofNat (n % 64 + 128)).toNat = n % 64 + 128 :=
  toNat_byte (by omega)

theorem continuation_holds (n : Nat) :
    continuation.holds (UInt8.ofNat (n % 64 + 128)) = true := by
  rw [continuation_holds_iff, toNat_continuing]
  omega

theorem sequence_one (high : code ≤ 0x7F) : Sequence code [UInt8.ofNat code] := by
  have first := toNat_byte (n := code) (by omega)
  exact .mk (Lead.ofByte?_one (by omega)) .nil first

theorem sequence_two (low : 0x80 ≤ code) (high : code ≤ 0x7FF) :
    Sequence code [UInt8.ofNat (code / 64 % 32 + 192), UInt8.ofNat (code % 64 + 128)] := by
  have first := toNat_byte (n := code / 64 % 32 + 192) (by omega)
  refine .mk (Lead.ofByte?_two (by omega) (by omega)) (.cons (continuation_holds code) .nil) ?_
  simp only [gathered, List.foldl_cons, List.foldl_nil, first, toNat_continuing]
  omega

theorem sequence_three (low : 0x800 ≤ code) (high : code ≤ 0xFFFF)
    (scalar : code < 0xD800 ∨ 0xDFFF < code) :
    Sequence code [UInt8.ofNat (code / 4096 % 16 + 224), UInt8.ofNat (code / 64 % 64 + 128),
      UInt8.ofNat (code % 64 + 128)] := by
  have first := toNat_byte (n := code / 4096 % 16 + 224) (by omega)
  have second := toNat_continuing (code / 64)
  obtain ⟨range, lead, holds⟩ := Lead.ofByte?_three (b := UInt8.ofNat (code / 4096 % 16 + 224))
    (by omega) (by omega)
  have held : range.holds (UInt8.ofNat (code / 64 % 64 + 128)) = true :=
    holds _ (by omega) (by omega) (by omega) (by omega)
  refine .mk lead (.cons held (.cons (continuation_holds code) .nil)) ?_
  simp only [gathered, List.foldl_cons, List.foldl_nil, first, toNat_continuing]
  omega

theorem sequence_four (low : 0x10000 ≤ code) (high : code < 0x110000) :
    Sequence code [UInt8.ofNat (code / 262144 % 8 + 240), UInt8.ofNat (code / 4096 % 64 + 128),
      UInt8.ofNat (code / 64 % 64 + 128), UInt8.ofNat (code % 64 + 128)] := by
  have first := toNat_byte (n := code / 262144 % 8 + 240) (by omega)
  have second := toNat_continuing (code / 4096)
  obtain ⟨range, lead, holds⟩ := Lead.ofByte?_four (b := UInt8.ofNat (code / 262144 % 8 + 240))
    (by omega) (by omega)
  have held : range.holds (UInt8.ofNat (code / 4096 % 64 + 128)) = true :=
    holds _ (by omega) (by omega) (by omega) (by omega)
  refine .mk lead
    (.cons held (.cons (continuation_holds (code / 64)) (.cons (continuation_holds code) .nil))) ?_
  simp only [gathered, List.foldl_cons, List.foldl_nil, first, toNat_continuing]
  omega

end Encoding

/-- **A character is encoded as a sequence that makes up its code point.** -/
theorem sequence_utf8EncodeChar (c : Char) : Sequence c.toNat (String.utf8EncodeChar c) := by
  have scalar : c.toNat < 0xD800 ∨ (0xDFFF < c.toNat ∧ c.toNat < 0x110000) := c.valid
  unfold String.utf8EncodeChar
  have code : c.val.toNat = c.toNat := rfl
  simp only [code]
  split
  · exact sequence_one (by omega)
  · split
    · exact sequence_two (by omega) (by omega)
    · split
      · exact sequence_three (by omega) (by omega) (by omega)
      · exact sequence_four (by omega) (by omega)

/-! ### Whole texts -/

theorem foldlM_step_encode (t : Text) {p : Progress} (pending : p.pending = none) :
    (encode t).foldlM Progress.step p =
      .ok { position := p.position + byteCount t
            reversed := t.reverse ++ p.reversed
            pending := none } := by
  induction t generalizing p with
  | nil =>
      obtain ⟨position, reversed, _⟩ := p
      cases pending
      rfl
  | cons c t ih =>
      have first := (sequence_utf8EncodeChar c).foldlM_step pending
      rw [encode, List.flatMap_cons, List.foldlM_append, first]
      refine (ih rfl).trans ?_
      rw [Char.ofNat_toNat, List.reverse_cons, List.append_assoc]
      simp [byteCount, encode, Nat.add_assoc]

/-- **A text is decoded from its bytes.** -/
theorem decode_encode (t : Text) : decode (encode t) = .ok t := by
  have pending : Progress.start.pending = none := rfl
  rw [decode, foldlM_step_encode t pending]
  show Except.ok (t.reverse ++ []).reverse = _
  rw [List.append_nil, List.reverse_reverse]

end LoxLexis.Utf8

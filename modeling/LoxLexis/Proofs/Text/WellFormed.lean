import LoxLexis.Proofs.Text.Utf8

/-!
# Well-formed bytes

Bytes are well formed when they are those of some text, and then the text is unique and it is what
they are decoded to.  That a text is decoded from its bytes is known; here it is shown that nothing
else is decoded.  The invariant is that the bytes met so far are those of the characters completed,
followed by the front of a sequence if one is pending.  A sequence that is completed is the encoding
of the character it makes up, because the ranges announced by its first byte leave out the longer
forms of lower code points, the surrogates, and all that lies beyond U+10FFFF.

## Main definitions

* `Utf8.Pending` — bytes that a partial sequence has met
* `Utf8.Met` — bytes that a decoder has met

## Main statements

* `Utf8.Sequence.eq_encode` — a sequence is the encoding of the character it makes up
* `Utf8.Met.foldlM` — a decoder that goes on has met what it goes through
* `Utf8.decode_eq_ok_iff` — bytes are decoded as a text when they are the bytes of that text
-/

namespace LoxLexis.Utf8

/-! ### What a first byte has to be -/

namespace ByteRange

variable {b lowest highest least greatest x : UInt8}

/-- The second byte of a sequence lies in the range of all continuing bytes, and in the narrower
one after two of the first bytes. -/
theorem bounds_of_second_holds (hl : 0x80 ≤ least.toNat) (hg : greatest.toNat ≤ 0xBF)
    (h : (if b = lowest then (⟨least, 0xBF⟩ : ByteRange)
      else if b = highest then ⟨0x80, greatest⟩ else continuation).holds x = true) :
    0x80 ≤ x.toNat ∧ x.toNat ≤ 0xBF ∧ (b = lowest → least.toNat ≤ x.toNat) ∧
      (b ≠ lowest → b = highest → x.toNat ≤ greatest.toNat) := by
  rw [holds_iff] at h
  split at h
  · next hb => exact ⟨Nat.le_trans hl h.1, h.2, fun _ => h.1, fun ne => absurd hb ne⟩
  · next hb =>
    split at h
    · exact ⟨h.1, Nat.le_trans h.2 hg, fun e => absurd e hb, fun _ _ => h.2⟩
    · next hb' => exact ⟨h.1, h.2, fun e => absurd e hb, fun _ e => absurd e hb'⟩

end ByteRange

/-- What a first byte can announce, by the number of bytes that follow it. -/
inductive Lead.Announced (b : UInt8) : Lead → Prop
  | one (high : b.toNat < 0x80) : Announced b ⟨b.toNat, []⟩
  | two (low : 0xC2 ≤ b.toNat) (high : b.toNat < 0xE0) :
    Announced b ⟨b.toNat - 0xC0, [continuation]⟩
  /-- The second of three bytes leaves out shorter forms and surrogates. -/
  | three {second : ByteRange} (low : 0xE0 ≤ b.toNat) (high : b.toNat < 0xF0)
    (bounds : ∀ x : UInt8, second.holds x = true → 0x80 ≤ x.toNat ∧ x.toNat ≤ 0xBF ∧
      (b.toNat = 0xE0 → 0xA0 ≤ x.toNat) ∧ (b.toNat = 0xED → x.toNat ≤ 0x9F)) :
    Announced b ⟨b.toNat - 0xE0, [second, continuation]⟩
  /-- The second of four bytes leaves out shorter forms and codes that are too large. -/
  | four {second : ByteRange} (low : 0xF0 ≤ b.toNat) (high : b.toNat < 0xF5)
    (bounds : ∀ x : UInt8, second.holds x = true → 0x80 ≤ x.toNat ∧ x.toNat ≤ 0xBF ∧
      (b.toNat = 0xF0 → 0x90 ≤ x.toNat) ∧ (b.toNat = 0xF4 → x.toNat ≤ 0x8F)) :
    Announced b ⟨b.toNat - 0xF0, [second, continuation, continuation]⟩

theorem Lead.announced_of_ofByte? {b : UInt8} {lead : Lead} (h : Lead.ofByte? b = some lead) :
    Lead.Announced b lead := by
  simp only [Lead.ofByte?, UInt8.lt_iff_toNat_lt, UInt8.reduceToNat] at h
  split at h
  · next high =>
    obtain rfl := Option.some.inj h
    exact .one high
  split at h
  · cases h
  split at h
  · next low high =>
    obtain rfl := Option.some.inj h
    exact .two (by omega) high
  split at h
  · next low high =>
    obtain rfl := Option.some.inj h
    refine .three (by omega) high fun x held => ?_
    obtain ⟨least, greatest, short, surrogate⟩ :=
      ByteRange.bounds_of_second_holds (by decide) (by decide) held
    refine ⟨least, greatest, fun e => short (UInt8.toNat_inj.mp e), fun e => ?_⟩
    exact surrogate (fun e' => by simp [e'] at e) (UInt8.toNat_inj.mp e)
  split at h
  · next low high =>
    obtain rfl := Option.some.inj h
    refine .four (by omega) high fun x held => ?_
    obtain ⟨least, greatest, short, large⟩ :=
      ByteRange.bounds_of_second_holds (by decide) (by decide) held
    refine ⟨least, greatest, fun e => short (UInt8.toNat_inj.mp e), fun e => ?_⟩
    exact large (fun e' => by simp [e'] at e) (UInt8.toNat_inj.mp e)
  · cases h

/-! ### Sequences are encodings -/

theorem toNat_ofNat_of_valid {code : Nat} (valid : code.isValidChar) :
    (Char.ofNat code).toNat = code := by
  rw [Char.ofNat, dif_pos valid]
  rfl

theorem eq_ofNat_of_toNat {b : UInt8} {n : Nat} (h : b.toNat = n) : b = UInt8.ofNat n := by
  rw [← h, UInt8.ofNat_toNat]

theorem utf8EncodeChar_ofNat {code : Nat} (valid : code.isValidChar) :
    String.utf8EncodeChar (Char.ofNat code) =
      if code ≤ 0x7F then [UInt8.ofNat code]
      else if code ≤ 0x7FF then
        [UInt8.ofNat (code / 64 % 32 + 192), UInt8.ofNat (code % 64 + 128)]
      else if code ≤ 0xFFFF then
        [UInt8.ofNat (code / 4096 % 16 + 224), UInt8.ofNat (code / 64 % 64 + 128),
          UInt8.ofNat (code % 64 + 128)]
      else
        [UInt8.ofNat (code / 262144 % 8 + 240), UInt8.ofNat (code / 4096 % 64 + 128),
          UInt8.ofNat (code / 64 % 64 + 128), UInt8.ofNat (code % 64 + 128)] := by
  have value : (Char.ofNat code).val.toNat = code := toNat_ofNat_of_valid valid
  simp only [String.utf8EncodeChar, value]

/-- **A sequence is the encoding of the character that it makes up.** -/
theorem Sequence.eq_encode {code : Nat} {bytes : List UInt8} (h : Sequence code bytes) :
    String.utf8EncodeChar (Char.ofNat code) = bytes := by
  cases h with
  | @mk first further lead announced follow bits =>
      cases Lead.announced_of_ofByte? announced with
      | one high =>
          obtain rfl := List.forall₂_nil_left_iff.mp follow
          have bits : first.toNat = code := bits
          rw [utf8EncodeChar_ofNat (.inl (by omega)), if_pos (by omega), ← bits, UInt8.ofNat_toNat]
      | two low high =>
          obtain ⟨x, _, hx, none, rfl⟩ := List.forall₂_cons_left_iff.mp follow
          obtain rfl := List.forall₂_nil_left_iff.mp none
          have x_bounds := continuation_holds_iff.mp hx
          have bits : (first.toNat - 0xC0) * 64 + x.toNat % 64 = code := bits
          rw [utf8EncodeChar_ofNat (.inl (by omega)), if_neg (by omega), if_pos (by omega),
            eq_ofNat_of_toNat (b := first) (n := code / 64 % 32 + 192) (by omega),
            eq_ofNat_of_toNat (b := x) (n := code % 64 + 128) (by omega)]
      | three low high bounds =>
          obtain ⟨x, _, hx, later, rfl⟩ := List.forall₂_cons_left_iff.mp follow
          obtain ⟨y, _, hy, none, rfl⟩ := List.forall₂_cons_left_iff.mp later
          obtain rfl := List.forall₂_nil_left_iff.mp none
          obtain ⟨x_low, x_high, short, surrogate⟩ := bounds x hx
          have y_bounds := continuation_holds_iff.mp hy
          have bits : ((first.toNat - 0xE0) * 64 + x.toNat % 64) * 64 + y.toNat % 64 = code := bits
          have valid : code.isValidChar := by
            show code < 0xD800 ∨ 0xDFFF < code ∧ code < 0x110000
            omega
          rw [utf8EncodeChar_ofNat valid, if_neg (by omega), if_neg (by omega), if_pos (by omega),
            eq_ofNat_of_toNat (b := first) (n := code / 4096 % 16 + 224) (by omega),
            eq_ofNat_of_toNat (b := x) (n := code / 64 % 64 + 128) (by omega),
            eq_ofNat_of_toNat (b := y) (n := code % 64 + 128) (by omega)]
      | four low high bounds =>
          obtain ⟨x, _, hx, later, rfl⟩ := List.forall₂_cons_left_iff.mp follow
          obtain ⟨y, _, hy, last, rfl⟩ := List.forall₂_cons_left_iff.mp later
          obtain ⟨z, _, hz, none, rfl⟩ := List.forall₂_cons_left_iff.mp last
          obtain rfl := List.forall₂_nil_left_iff.mp none
          obtain ⟨x_low, x_high, short, large⟩ := bounds x hx
          have y_bounds := continuation_holds_iff.mp hy
          have z_bounds := continuation_holds_iff.mp hz
          have bits : (((first.toNat - 0xF0) * 64 + x.toNat % 64) * 64 + y.toNat % 64) * 64 +
            z.toNat % 64 = code := bits
          rw [utf8EncodeChar_ofNat (.inr (by omega)), if_neg (by omega), if_neg (by omega),
            if_neg (by omega),
            eq_ofNat_of_toNat (b := first) (n := code / 262144 % 8 + 240) (by omega),
            eq_ofNat_of_toNat (b := x) (n := code / 4096 % 64 + 128) (by omega),
            eq_ofNat_of_toNat (b := y) (n := code / 64 % 64 + 128) (by omega),
            eq_ofNat_of_toNat (b := z) (n := code % 64 + 128) (by omega)]

/-! ### What a decoder has met -/

/-- The bytes that a partial sequence has met. -/
inductive Pending (s : Partial) : List UInt8 → Prop
  | mk {further : List UInt8} {lead : Lead} {done : List ByteRange}
    (announced : Lead.ofByte? s.first = some lead)
    (expected : lead.expected = done ++ s.next :: s.later) (follow : Follow done further)
    (bits : s.payload = gathered lead.payload further) : Pending s (s.first :: further)

/-- The bytes that a decoder has met: those of its characters, and the ones of the sequence that is
not complete. -/
inductive Met (p : Progress) : List UInt8 → Prop
  | between (h : p.pending = none) : Met p (encode p.reversed.reverse)
  | inside {s : Partial} {bytes : List UInt8} (h : p.pending = some s) (pending : Pending s bytes) :
    Met p (encode p.reversed.reverse ++ bytes)

theorem encode_concat (t : Text) (c : Char) :
    encode (t ++ [c]) = encode t ++ String.utf8EncodeChar c := by
  simp [encode]

theorem follow_concat {done : List ByteRange} {further : List UInt8} {r : ByteRange} {b : UInt8}
    (follow : Follow done further) (holds : r.holds b = true) :
    Follow (done ++ [r]) (further ++ [b]) :=
  List.rel_append follow (.cons holds .nil)

theorem gathered_concat (payload : Nat) (bytes : List UInt8) (b : UInt8) :
    gathered payload (bytes ++ [b]) = gathered payload bytes * 64 + b.toNat % 64 := by
  simp [gathered]

/-- A decoder at the start of a sequence has met the byte it goes on with. -/
theorem Met.begin {p q : Progress} {b : UInt8} (h : p.pending = none) (step : p.begin b = .ok q) :
    Met q (encode p.reversed.reverse ++ [b]) := by
  unfold Progress.begin at step
  split at step
  · cases step
  · next payload announced =>
    cases step
    have whole : Sequence payload [b] := .mk announced .nil rfl
    have met : Met { p with position := p.position + 1, reversed := Char.ofNat payload :: p.reversed }
      _ := .between h
    rwa [List.reverse_cons, encode_concat, whole.eq_encode] at met
  · next payload next later announced =>
    cases step
    have started : Pending _ [b] := @Pending.mk ⟨p.position, b, 0, payload, next, later⟩ [] _ []
      announced rfl .nil rfl
    exact .inside rfl started

/-- A decoder inside a sequence has met the byte it goes on with. -/
theorem Met.extend {p q : Progress} {s : Partial} {bytes : List UInt8} {b : UInt8}
    (pending : Pending s bytes) (step : p.extend s b = .ok q) :
    Met q (encode p.reversed.reverse ++ (bytes ++ [b])) := by
  cases pending with
  | @mk further lead done announced expected follow bits =>
      unfold Progress.extend at step
      split at step
      · next holds =>
        split at step
        · next last =>
          cases step
          rw [last] at expected
          have whole : Sequence (s.payload * 64 + b.toNat % 64) (s.first :: (further ++ [b])) :=
            .mk announced (by rw [expected]; exact follow_concat follow holds)
              (by rw [gathered_concat, bits])
          have met : Met ⟨p.position + 1, Char.ofNat (s.payload * 64 + b.toNat % 64) :: p.reversed,
            none⟩ _ := .between rfl
          rwa [List.reverse_cons, encode_concat, whole.eq_encode] at met
        · next next later more =>
          cases step
          rw [more] at expected
          refine .inside rfl (@Pending.mk _ (further ++ [b]) lead (done ++ [s.next]) announced ?_ ?_ ?_)
          · rw [expected, List.append_assoc]
            rfl
          · exact follow_concat follow holds
          · show s.payload * 64 + b.toNat % 64 = gathered lead.payload (further ++ [b])
            rw [gathered_concat, bits]
      · cases step

/-- A decoder has met the byte it goes on with. -/
theorem Met.step {p q : Progress} {bytes : List UInt8} {b : UInt8} (met : Met p bytes)
    (step : p.step b = .ok q) : Met q (bytes ++ [b]) := by
  rw [Progress.step] at step
  cases met with
  | between h =>
      rw [h] at step
      exact .begin h step
  | inside h pending =>
      rw [h] at step
      rw [List.append_assoc]
      exact .extend pending step

/-- **A decoder that goes on has met what it goes through.** -/
theorem Met.foldlM {p q : Progress} {bytes more : List UInt8} (met : Met p bytes)
    (run : more.foldlM Progress.step p = .ok q) : Met q (bytes ++ more) := by
  induction more generalizing p bytes with
  | nil =>
      cases run
      rwa [List.append_nil]
  | cons b more ih =>
      rw [List.foldlM_cons] at run
      cases first : p.step b with
      | error fault =>
          rw [first] at run
          cases run
      | ok next =>
          rw [first] at run
          rw [List.append_cons]
          exact ih (met.step first) run

theorem Met.finish {p : Progress} {bytes : List UInt8} {t : Text} (met : Met p bytes)
    (finish : p.finish = .ok t) : encode t = bytes := by
  rw [Progress.finish] at finish
  cases met with
  | between h =>
      rw [h] at finish
      rw [Except.ok.inj finish]
  | inside h _ =>
      rw [h] at finish
      cases finish

/-- **Bytes are decoded as a text exactly when they are the bytes of that text.** -/
theorem decode_eq_ok_iff {bytes : List UInt8} {t : Text} :
    decode bytes = .ok t ↔ encode t = bytes := by
  constructor
  · intro decoded
    rw [decode] at decoded
    cases run : bytes.foldlM Progress.step .start with
    | error fault =>
        rw [run] at decoded
        cases decoded
    | ok p =>
        rw [run] at decoded
        have start : Met .start [] := .between rfl
        exact (start.foldlM run).finish decoded
  · rintro rfl
    exact decode_encode t

/-- Bytes that are those of no text are refused. -/
theorem exists_fault {bytes : List UInt8} (illFormed : ∀ t, encode t ≠ bytes) :
    ∃ fault, decode bytes = .error fault := by
  cases decoded : decode bytes with
  | error fault => exact ⟨fault, rfl⟩
  | ok t => exact absurd (decode_eq_ok_iff.mp decoded) (illFormed t)

end LoxLexis.Utf8

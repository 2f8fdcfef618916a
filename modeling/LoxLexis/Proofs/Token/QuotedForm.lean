import LoxLexis.Proofs.Number.ReadBack
import LoxLexis.Proofs.Scan.Dump
import LoxLexis.Proofs.Text.Quoted

/-!
# Quoted forms and equality

A token in its quoted form has all its fields, one after the other, and can be told from every other
token by it.  Texts are quoted and so end where they seem to end; numbers have no comma in them, nor
has the line, so the commas after them are those that part the fields.  A missing literal is no
exception: what comes then is the line, and there is no comma any more.

Equality of tokens is another thing, for it compares numbers as numbers: a token whose literal is
not a number is not even equal to itself, and two tokens that differ by the sign of a zero are equal.
No scan emits such tokens.  A number of a source has no sign and is a number or too large for one, so
on the tokens of scans equality is identity, and the kind and the lexeme determine the literal.

## Main definitions

* `Token.Emitted` — a token of some scan

## Main statements

* `Token.quotedForm_injective` — tokens are told apart by their quoted forms
* `Token.Emitted.agree_iff_eq` — tokens of scans are equal only if they are the same
* `quotedForm_matches_equality` — quoted forms agree with equality, for tokens and for reports
-/

namespace LoxLexis

/-! ### Fields -/

theorem Kind.comma_notMem_name (k : Kind) : ',' ∉ k.name := by
  cases k <;> decide

/-- An integer is written with digits and a minus sign only. -/
theorem Text.notMem_ofInt {c : Char} (noDigit : c.isDigit = false) (noMinus : c ≠ '-') (n : Int) :
    c ∉ Text.ofInt n := by
  intro h
  rcases Text.mem_ofInt h with digit | minus
  · rw [noDigit] at digit
    cases digit
  · exact noMinus minus

theorem Text.comma_notMem_ofInt (n : Int) : ',' ∉ Text.ofInt n :=
  Text.notMem_ofInt (by decide) (by decide) n

theorem Text.bracket_notMem_ofInt (n : Int) : ']' ∉ Text.ofInt n :=
  Text.notMem_ofInt (by decide) (by decide) n

/-- Texts are told apart in front of a separator whose first character does not occur in them. -/
theorem eq_of_append_separator {separator : Text} {c : Char} (first : separator.head? = some c)
    {t u x y : Text} (ht : c ∉ t) (hu : c ∉ u) (h : t ++ (separator ++ x) = u ++ (separator ++ y)) :
    t = u ∧ x = y := by
  obtain ⟨rest, rfl⟩ := List.head?_eq_some_iff.mp first
  obtain ⟨texts, after⟩ := eq_of_append_cons_eq ht hu h
  exact ⟨texts, List.append_cancel_left after⟩

/-- A displayed number has neither a comma nor a quotation mark. -/
theorem Binary64.notMem_display (b : Binary64) {c : Char}
    (h : c ∈ [',', Text.apostrophe, Text.doubleQuote]) : c ∉ b.display := by
  have others : c.isDigit = false ∧ c ∉ ['.', 'e', '+', '-'] ∧ c ∉ "infa".toList := by
    simp only [List.mem_cons, List.not_mem_nil, or_false] at h
    rcases h with rfl | rfl | rfl
    all_goals decide
  obtain ⟨noDigit, noMark, noLetter⟩ := others
  intro shown
  rcases Binary64.mem_display shown with (digit | mark) | letter
  · rw [noDigit] at digit
    cases digit
  · exact noMark mark
  · exact noLetter letter

/-! ### Literals -/

namespace Literal

/-- A number is not written like a text that is quoted. -/
theorem display_append_ne_quoted {b : Binary64} {separator : Text} (comma : separator.head? = some ',')
    {t x y : Text} : b.display ++ (separator ++ x) ≠ Text.quoted t ++ y := by
  intro h
  have marks : Text.mark t ∈ [',', Text.apostrophe, Text.doubleQuote] ∧ Text.mark t ≠ ',' := by
    rcases Text.mark_cases t with mark | mark
    · rw [mark]
      decide
    · rw [mark]
      decide
  have first : (b.display ++ (separator ++ x)).head? = some (Text.mark t) := by
    rw [h]
    rfl
  cases shown : b.display with
  | nil =>
      rw [shown, List.nil_append, List.head?_append, comma] at first
      exact marks.2 (Option.some.inj first).symm
  | cons c rest =>
      rw [shown] at first
      have mark : c = Text.mark t := Option.some.inj first
      have there : Text.mark t ∈ b.display := by
        rw [shown, mark]
        exact List.mem_cons_self
      exact b.notMem_display marks.1 there

/-- **Literals are told apart in front of a comma.** -/
theorem eq_of_quotedForm_append {l m : Literal} {separator x y : Text}
    (comma : separator.head? = some ',')
    (h : l.quotedForm ++ (separator ++ x) = m.quotedForm ++ (separator ++ y)) : l = m ∧ x = y := by
  cases l with
  | number v =>
      cases m with
      | number w =>
          have free (b : Binary64) : ',' ∉ b.display := b.notMem_display List.mem_cons_self
          obtain ⟨displays, rest⟩ := eq_of_append_separator comma (free v) (free w) h
          exact ⟨congrArg Literal.number (Binary64.display_injective displays), rest⟩
      | text t => exact absurd h (display_append_ne_quoted comma)
  | text s =>
      cases m with
      | number w => exact absurd h.symm (display_append_ne_quoted comma)
      | text t =>
          obtain ⟨texts, rest⟩ := Text.eq_of_quoted_append h
          exact ⟨congrArg Literal.text texts, List.append_cancel_left rest⟩

end Literal

/-! ### Tokens -/

namespace Token

/-- What the quoted form of a token has after the lexeme. -/
def quotedEnd (literal : Option Literal) (line : Int) : Text :=
  literal.elim [] (fun l => ", ".toList ++ l.quotedForm) ++ ", ".toList ++ Text.ofInt line ++
    ")".toList

theorem quotedForm_eq (t : Token) :
    t.quotedForm = "Token(".toList ++ (t.kind.name ++ (", ".toList ++
      (Text.quoted t.lexeme ++ quotedEnd t.literal t.line))) := by
  unfold quotedForm quotedEnd
  simp only [List.append_assoc]

theorem quotedEnd_none (line : Int) :
    quotedEnd none line = ", ".toList ++ (Text.ofInt line ++ ")".toList) := by
  simp only [quotedEnd, Option.elim_none, List.nil_append, List.append_assoc]

theorem quotedEnd_some (l : Literal) (line : Int) :
    quotedEnd (some l) line =
      ", ".toList ++ (l.quotedForm ++ (", ".toList ++ (Text.ofInt line ++ ")".toList))) := by
  simp only [quotedEnd, Option.elim_some, List.append_assoc]

/-- A line is told apart from others in front of the bracket. -/
theorem eq_of_ofInt_append {m n : Int} {x : Text} (h : Text.ofInt m ++ x = Text.ofInt n ++ x) :
    m = n := Text.ofInt_injective (List.append_cancel_right h)

theorem head?_comma : ", ".toList.head? = some ',' := by decide

/-- After a line there is no comma, as there is after a literal. -/
theorem quotedEnd_none_ne_some {l : Literal} {m n : Int} :
    quotedEnd none m ≠ quotedEnd (some l) n := by
  intro h
  rw [quotedEnd_none, quotedEnd_some] at h
  have rest := List.append_cancel_left h
  have comma : ',' ∈ Text.ofInt m ++ ")".toList := by
    rw [rest]
    refine List.mem_append_right _ (List.mem_append_left _ ?_)
    exact List.mem_of_head? head?_comma
  rcases List.mem_append.mp comma with line | bracket
  · exact Text.comma_notMem_ofInt m line
  · exact absurd bracket (by decide)

theorem quotedEnd_injective {l m : Option Literal} {line line' : Int}
    (h : quotedEnd l line = quotedEnd m line') : l = m ∧ line = line' := by
  cases l with
  | none =>
      cases m with
      | none =>
          rw [quotedEnd_none, quotedEnd_none] at h
          exact ⟨rfl, eq_of_ofInt_append (List.append_cancel_left h)⟩
      | some m => exact absurd h quotedEnd_none_ne_some
  | some l =>
      cases m with
      | none => exact absurd h.symm quotedEnd_none_ne_some
      | some m =>
          rw [quotedEnd_some, quotedEnd_some] at h
          obtain ⟨literals, rest⟩ :=
            Literal.eq_of_quotedForm_append head?_comma (List.append_cancel_left h)
          exact ⟨congrArg some literals, eq_of_ofInt_append rest⟩

/-- **Tokens are told apart by their quoted forms.** -/
theorem quotedForm_injective {a b : Token} (h : a.quotedForm = b.quotedForm) : a = b := by
  rw [quotedForm_eq, quotedForm_eq] at h
  obtain ⟨names, rest⟩ := eq_of_append_separator head?_comma a.kind.comma_notMem_name
    b.kind.comma_notMem_name (List.append_cancel_left h)
  obtain ⟨lexemes, ends⟩ := Text.eq_of_quoted_append rest
  obtain ⟨literals, lines⟩ := quotedEnd_injective ends
  exact Token.ext (Kind.name_injective names) lexemes literals lines

end Token

namespace Report

/-- Reports are told apart as they are printed. -/
theorem display_injective {r s : Report} (h : r.display = s.display) : r = s := by
  have parted (r : Report) : r.display =
      "[line ".toList ++ (Text.ofInt r.line ++ ("] Error: ".toList ++ r.message)) := by
    unfold display
    simp only [List.append_assoc]
  have bracket : "] Error: ".toList.head? = some ']' := by decide
  rw [parted, parted] at h
  obtain ⟨lines, messages⟩ := eq_of_append_separator bracket (Text.bracket_notMem_ofInt r.line)
    (Text.bracket_notMem_ofInt s.line) (List.append_cancel_left h)
  exact Report.ext (Text.ofInt_injective lines) messages

/-- Reports are told apart by their quoted forms. -/
theorem quotedForm_injective {r s : Report} (h : r.quotedForm = s.quotedForm) : r = s := by
  have parted (r : Report) : r.quotedForm = "LexError(line=".toList ++
      (Text.ofInt r.line ++ (", message=".toList ++ (Text.quoted r.message ++ ")".toList))) := by
    unfold quotedForm
    simp only [List.append_assoc]
  have comma : ", message=".toList.head? = some ',' := by decide
  rw [parted, parted] at h
  obtain ⟨lines, rest⟩ := eq_of_append_separator comma (Text.comma_notMem_ofInt r.line)
    (Text.comma_notMem_ofInt s.line) (List.append_cancel_left h)
  exact Report.ext (Text.ofInt_injective lines) (Text.eq_of_quoted_append rest).1

end Report

/-! ### Tokens of scans -/

/-- A token of some scan, be the scan complete or ended by an objection of its reporter. -/
inductive Token.Emitted : Token → Prop
  | mk {σ ε : Type} (reporter : Reporter σ ε) (s : Scanner) (sink : σ) {t : Token}
    (h : t ∈ (s.scan reporter sink).scanner.tokens) : Emitted t

/-- Whatever a reporter does, a scan has no other tokens than those of its source. -/
theorem Scanner.mem_tokens_of_scan {σ ε : Type} (reporter : Reporter σ ε) (s : Scanner) (sink : σ)
    {t : Token} (h : t ∈ (s.scan reporter sink).scanner.tokens) : t ∈ (Scan.of s.source).tokens := by
  rw [Scan.of_eq]
  rcases reporter.accepts_or_objects sink (reportsFrom 1 (segments s.source)) with
    accepts | ⟨before, r, later, objection, split, accepts, objects⟩
  · rw [scan_of_accepts accepts, closed, past_tokens, past_line, joined_segments] at h
    exact h
  · -- The scan has stopped past one of the segments, with the tokens of those before it.
    obtain ⟨done, seg, after, hsegs, rfl, hr⟩ := gather_eq_append_cons _ split
    have ran := run_of_objection (s := s.restarted) (by rw [s.rest_restarted, hsegs]) accepts hr
      objects
    rw [scan, ran] at h
    have tokens : (s.restarted.past (done ++ [seg])).tokens = tokensFrom 1 (done ++ [seg]) :=
      past_tokens s.restarted (done ++ [seg])
    have mem : t ∈ tokensFrom 1 (done ++ [seg]) := tokens ▸ h
    have whole : segments s.source = (done ++ [seg]) ++ after :=
      hsegs.trans (List.append_cons done seg after)
    rw [whole, tokensFrom_append]
    exact List.mem_append_left _ (List.mem_append_left _ mem)

/-- The numbers that scans find are numbers, or too large for one, and have no sign. -/
theorem Content.Found.exists_magnitude {c : Content} (found : c.Found) {b : Binary64}
    (hb : c.literal = some (.number b)) : ∃ m, b = .ofMagnitude? false m := by
  cases found with
  | word w =>
      have denoted : w.segment.literal? = some (.number b) := hb
      unfold Segment.literal? at denoted
      split at denoted
      · cases denoted
      · exact ⟨_, (Literal.number.inj (Option.some.inj denoted)).symm⟩
      · cases denoted
  | endOfFile => cases hb

/-- A number without a sign is equal to itself. -/
theorem Binary64.numericallyEqual_self (m : Option Magnitude) :
    (ofMagnitude? false m).numericallyEqual (ofMagnitude? false m) = true := by
  cases m with
  | none => rfl
  | some m =>
      show (decide (m = m) && (false == false || m.units == 0)) = true
      rw [decide_eq_true rfl]
      rfl

namespace Token.Emitted

variable {a b : Token}

theorem found (h : a.Emitted) : a.content.Found := by
  obtain ⟨reporter, s, sink, h⟩ := h
  obtain ⟨ws, hws⟩ := Scan.exists_words s.source
  have mem : a.content ∈ (Scan.of s.source).contents :=
    List.mem_map_of_mem (s.mem_tokens_of_scan reporter sink h)
  rw [hws] at mem
  rcases List.mem_append.mp mem with word | last
  · obtain ⟨w, -, content⟩ := List.mem_map.mp word
    exact content ▸ .word w
  · exact List.mem_singleton.mp last ▸ .endOfFile

/-- A token of a scan is equal to itself. -/
theorem agree_self (h : a.Emitted) : a.agree a = true := by
  rw [agree, Bool.and_eq_true]
  refine ⟨by simp, ?_⟩
  cases denoted : a.literal with
  | none => rfl
  | some l =>
      cases l with
      | number v =>
          obtain ⟨m, rfl⟩ := h.found.exists_magnitude denoted
          exact Binary64.numericallyEqual_self m
      | text t => exact decide_eq_true rfl

/-- Equality compares the kind, the lexeme and the line at least. -/
theorem fields_of_agree (h : a.agree b = true) :
    a.kind = b.kind ∧ a.lexeme = b.lexeme ∧ a.line = b.line := by
  rw [agree] at h
  simp only [Bool.and_eq_true, decide_eq_true_eq] at h
  exact ⟨h.1.1.1, h.1.1.2, h.1.2⟩

/-- The kind, the lexeme and the line of a token of a scan determine it. -/
theorem eq_of_fields (ha : a.Emitted) (hb : b.Emitted)
    (fields : a.kind = b.kind ∧ a.lexeme = b.lexeme ∧ a.line = b.line) : a = b := by
  obtain ⟨kind, lexeme, line⟩ := fields
  have contents : a.content = b.content := ha.found.eq_of_lexeme hb.found kind lexeme
  exact Token.ext kind lexeme (congrArg Content.literal contents) line

/-- **Tokens of scans are equal only if they are the same.** -/
theorem agree_iff_eq (ha : a.Emitted) (hb : b.Emitted) : a.agree b = true ↔ a = b := by
  constructor
  · intro h
    exact ha.eq_of_fields hb (fields_of_agree h)
  · rintro rfl
    exact ha.agree_self

end Token.Emitted

/-- **Quoted forms agree with equality**: those of all tokens with identity, field by field, those of
the tokens of scans with equality, which is decided by kind, lexeme and line, and those of reports
with equality of reports. -/
theorem quotedForm_matches_equality :
    (∀ a b : Token, a.quotedForm = b.quotedForm ↔
      a.kind = b.kind ∧ a.lexeme = b.lexeme ∧ a.line = b.line ∧ a.literal = b.literal) ∧
    (∀ a b : { t : Token // t.Emitted },
      (a.1.agree b.1 = true ↔ a.1.quotedForm = b.1.quotedForm) ∧
      (a.1.agree b.1 = true ↔
        a.1.kind = b.1.kind ∧ a.1.lexeme = b.1.lexeme ∧ a.1.line = b.1.line)) ∧
    Equivalence (fun a b : { t : Token // t.Emitted } => a.1.agree b.1 = true) ∧
    ∀ r s : Report, (r.display = s.display ↔ r = s) ∧ (r.quotedForm = s.quotedForm ↔ r = s) := by
  refine ⟨fun a b => ⟨fun h => ?_, ?_⟩, fun ⟨a, ha⟩ ⟨b, hb⟩ => ⟨?_, ?_, ?_⟩, ⟨?_, ?_, ?_⟩,
    fun r s => ⟨⟨Report.display_injective, ?_⟩, ⟨Report.quotedForm_injective, ?_⟩⟩⟩
  · obtain rfl := Token.quotedForm_injective h
    exact ⟨rfl, rfl, rfl, rfl⟩
  · rintro ⟨kind, lexeme, line, literal⟩
    exact congrArg Token.quotedForm (Token.ext kind lexeme literal line)
  · rw [ha.agree_iff_eq hb]
    exact ⟨congrArg Token.quotedForm, Token.quotedForm_injective⟩
  · exact Token.Emitted.fields_of_agree
  · intro fields
    exact (ha.agree_iff_eq hb).mpr (ha.eq_of_fields hb fields)
  · intro ⟨a, ha⟩
    exact ha.agree_self
  · intro ⟨a, ha⟩ ⟨b, hb⟩ h
    obtain rfl := (ha.agree_iff_eq hb).mp h
    exact h
  · intro ⟨a, ha⟩ ⟨b, hb⟩ ⟨c, hc⟩ h h'
    obtain rfl := (ha.agree_iff_eq hb).mp h
    exact h'
  · rintro rfl
    rfl
  · rintro rfl
    rfl

/-- Beyond the tokens of scans equality is not even reflexive. -/
example :
    let t : Token := { kind := .number, lexeme := ['0'], literal := some (.number .nan), line := 1 }
    t.agree t = false := by decide

end LoxLexis

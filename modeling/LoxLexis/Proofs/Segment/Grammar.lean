import LoxLexis.Segment

/-!
# The lexical grammar

`Segment.first` finds the segment a text begins with by going through its characters from the left.
This module says apart from it what the segments are.  `Lexeme` is the grammar, with one
constructor for each form, and `Segment.Shape` adds the two sorts of text that have no form.
Whether a segment ends where it does is then a question about the text after it, and
`Segment.continues` answers it from two characters of that text.

## Main definitions

* `Kind.punctuation`, `Kind.operators` — the characters of tokens with fixed texts
* `Lexeme` — the texts of each form of the grammar
* `Segment.Shape` — a segment of one of the forms, or a piece of text in error
* `Segment.continues` — a text goes on with the segment that stands before it

## Design notes

`Segment.continues` is made for segments that have a shape, and its laws are stated one for each
shape.  The end of the source continues nothing.
-/

namespace LoxLexis

namespace Kind

/-- The characters that are always a token by themselves. -/
def punctuation : List (Char × Kind) :=
  [('(', leftParen), (')', rightParen), ('\x7b', leftBrace), ('\x7d', rightBrace), (',', comma),
    ('.', dot), ('-', minus), ('+', plus), (';', semicolon), ('*', star)]

/-- The operators, with their kinds without and with an equals sign after them. -/
def operators : List (Char × Kind × Kind) :=
  [('!', bang, bangEqual), ('=', equal, equalEqual), ('<', less, lessEqual),
    ('>', greater, greaterEqual)]

/-- The kinds that an equals sign after them turns into another kind. -/
def takesEquals : Kind → Bool
  | bang | equal | less | greater => true
  | _ => false

theorem mem_punctuation_iff {c : Char} {kind : Kind} :
    (c, kind) ∈ punctuation ↔ single? c = some kind := by
  constructor
  · intro h
    simp only [punctuation, List.mem_cons, Prod.mk.injEq, List.not_mem_nil, or_false] at h
    rcases h with ⟨rfl, rfl⟩ | ⟨rfl, rfl⟩ | ⟨rfl, rfl⟩ | ⟨rfl, rfl⟩ | ⟨rfl, rfl⟩ | ⟨rfl, rfl⟩ |
      ⟨rfl, rfl⟩ | ⟨rfl, rfl⟩ | ⟨rfl, rfl⟩ | ⟨rfl, rfl⟩ <;> rfl
  · intro h
    unfold single? at h
    split at h <;> cases h <;> simp [punctuation]

theorem mem_operators_iff {c : Char} {kinds : Kind × Kind} :
    (c, kinds) ∈ operators ↔ operator? c = some kinds := by
  constructor
  · intro h
    simp only [operators, List.mem_cons, Prod.mk.injEq, List.not_mem_nil, or_false] at h
    rcases h with ⟨rfl, rfl⟩ | ⟨rfl, rfl⟩ | ⟨rfl, rfl⟩ | ⟨rfl, rfl⟩ <;> rfl
  · intro h
    unfold operator? at h
    split at h <;> cases h <;> simp [operators]

/-- The kinds whose tokens denote a value. -/
def isLiteral : Kind → Bool
  | string | number => true
  | _ => false

theorem isLiteral_eq_false {kind : Kind} (string : kind ≠ .string) (number : kind ≠ .number) :
    kind.isLiteral = false := by
  cases kind with
  | string => exact absurd rfl string
  | number => exact absurd rfl number
  | _ => rfl

theorem ne_of_mem_punctuation {c : Char} {kind literal : Kind} (h : (c, kind) ∈ punctuation)
    (hl : literal.isLiteral = true) : kind ≠ literal := by
  have fixed : ∀ entry ∈ punctuation, entry.2.isLiteral = false := by decide
  rintro rfl
  exact absurd hl (Bool.eq_false_iff.mp (fixed _ h))

theorem ne_of_mem_operators {c : Char} {kinds : Kind × Kind} {literal : Kind}
    (h : (c, kinds) ∈ operators) (hl : literal.isLiteral = true) :
    kinds.1 ≠ literal ∧ kinds.2 ≠ literal := by
  have fixed : ∀ entry ∈ operators, entry.2.1.isLiteral = false ∧ entry.2.2.isLiteral = false := by
    decide
  obtain ⟨alone, equals⟩ := fixed _ h
  constructor
  · rintro rfl
    exact absurd hl (Bool.eq_false_iff.mp alone)
  · rintro rfl
    exact absurd hl (Bool.eq_false_iff.mp equals)

end Kind

/-- One or more digits. -/
structure Digits (t : Text) : Prop where
  ne_nil : t ≠ []
  isDigit : ∀ c ∈ t, c.isDigit = true

theorem Digits.point_notMem {ds : Text} (h : Digits ds) : '.' ∉ ds := by
  intro hp
  have := h.isDigit '.' hp
  simp at this

theorem Digits.exists_cons {ds : Text} (h : Digits ds) :
    ∃ d rest, ds = d :: rest ∧ d.isDigit = true ∧ ∀ c ∈ rest, c.isDigit = true := by
  obtain ⟨d, rest, rfl⟩ := List.exists_cons_of_ne_nil h.ne_nil
  exact ⟨d, rest, rfl, List.forall_mem_cons.mp h.isDigit⟩

/-- The texts of each form of the grammar. -/
inductive Lexeme : Form → Text → Prop
  /-- A character that is always a token by itself. -/
  | single {c : Char} {kind : Kind} (h : (c, kind) ∈ Kind.punctuation) : Lexeme (.token kind) [c]
  /-- An operator by itself. -/
  | operator {c : Char} {kinds : Kind × Kind} (h : (c, kinds) ∈ Kind.operators) :
      Lexeme (.token kinds.1) [c]
  /-- An operator with an equals sign after it. -/
  | compound {c : Char} {kinds : Kind × Kind} (h : (c, kinds) ∈ Kind.operators) :
      Lexeme (.token kinds.2) [c, '=']
  | slash : Lexeme (.token .slash) ['/']
  /-- Two slashes and text without a line feed. -/
  | comment {t : Text} (h : '\n' ∉ t) : Lexeme .layout ('/' :: '/' :: t)
  | blank {c : Char} (h : isLayout c = true) : Lexeme .layout [c]
  /-- Text without a double quote, between two of them. -/
  | string {t : Text} (h : Text.doubleQuote ∉ t) :
      Lexeme (.token .string) (Text.doubleQuote :: (t ++ [Text.doubleQuote]))
  | whole {ds : Text} (h : Digits ds) : Lexeme (.token .number) ds
  /-- Digits on both sides of a point. -/
  | decimal {ds es : Text} (h : Digits ds) (h' : Digits es) :
      Lexeme (.token .number) (ds ++ '.' :: es)

theorem Lexeme.number_cases {t : Text} (h : Lexeme (.token .number) t) :
    Digits t ∨ ∃ ds es, Digits ds ∧ Digits es ∧ t = ds ++ '.' :: es := by
  generalize hf : Form.token .number = f at h
  cases h with
  | single h => exact absurd (Form.token.inj hf).symm (Kind.ne_of_mem_punctuation h rfl)
  | operator h => exact absurd (Form.token.inj hf).symm (Kind.ne_of_mem_operators h rfl).1
  | compound h => exact absurd (Form.token.inj hf).symm (Kind.ne_of_mem_operators h rfl).2
  | whole h => exact .inl h
  | decimal h h' => exact .inr ⟨_, _, h, h', rfl⟩
  | _ => cases hf

theorem Lexeme.string_cases {t : Text} (h : Lexeme (.token .string) t) :
    ∃ u, Text.doubleQuote ∉ u ∧ t = Text.doubleQuote :: (u ++ [Text.doubleQuote]) := by
  -- The tokens with fixed texts are of other kinds, but only the tables of characters say so.
  generalize hf : Form.token .string = f at h
  cases h with
  | single h => exact absurd (Form.token.inj hf).symm (Kind.ne_of_mem_punctuation h rfl)
  | operator h => exact absurd (Form.token.inj hf).symm (Kind.ne_of_mem_operators h rfl).1
  | compound h => exact absurd (Form.token.inj hf).symm (Kind.ne_of_mem_operators h rfl).2
  | string h => exact ⟨_, h, rfl⟩
  | _ => cases hf

/-- A character that begins no form of the grammar. -/
structure BeginsNothing (c : Char) : Prop where
  single : Kind.single? c = none
  operator : Kind.operator? c = none
  slash : c ≠ '/'
  layout : isLayout c = false
  quote : c ≠ Text.doubleQuote
  digit : c.isDigit = false

/-- A text begins with a point that a digit follows. -/
def beginsFraction (t : Text) : Bool := t.head? == some '.' && t.tail.head?.any Char.isDigit

namespace Segment

/-- The segments that are in the grammar, and the text that is in error: a double quote that is
not closed with all that follows it, or a character that begins nothing. -/
inductive Shape : Segment → Prop
  | lexeme {f : Form} {t : Text} (h : Lexeme f t) : Shape { text := t, form := f }
  | unterminated {t : Text} (h : Text.doubleQuote ∉ t) :
      Shape { text := Text.doubleQuote :: t, form := .unterminated }
  | unexpected {c : Char} (h : BeginsNothing c) : Shape { text := [c], form := .unexpected }

theorem Shape.lexeme_of_token {s : Segment} {kind : Kind} (shape : s.Shape)
    (h : s.form = .token kind) : Lexeme (.token kind) s.text := by
  cases shape with
  | lexeme hl => exact h ▸ hl
  | unterminated _ => cases h
  | unexpected _ => cases h

/-- A text goes on with the segment that stands before it. -/
def continues (s : Segment) (after : Text) : Bool :=
  match s.form with
  | .token .number =>
    -- A number that has a point already does not take another one.
    after.head?.any Char.isDigit || (!s.text.contains '.' && beginsFraction after)
  | .token .slash => after.head? == some '/'
  | .token kind => kind.takesEquals && after.head? == some '='
  -- Only a comment goes on, and it is the layout that begins with a slash.
  | .layout => s.text.head? == some '/' && after.head?.any (· ≠ '\n')
  | .unterminated => !after.isEmpty
  | .unexpected => false

/-! ### What continues a segment of each shape -/

section Continues

variable {c : Char} {kind : Kind} {kinds : Kind × Kind} {t : Text} (after : Text)

theorem continues_single (h : (c, kind) ∈ Kind.punctuation) :
    continues { text := [c], form := .token kind } after = false := by
  have hc := Kind.mem_punctuation_iff.mp h
  unfold Kind.single? at hc
  split at hc <;> cases hc <;> rfl

theorem continues_operator (h : (c, kinds) ∈ Kind.operators) :
    continues { text := [c], form := .token kinds.1 } after = (after.head? == some '=') := by
  have hc := Kind.mem_operators_iff.mp h
  unfold Kind.operator? at hc
  split at hc <;> cases hc <;> rfl

theorem continues_compound (h : (c, kinds) ∈ Kind.operators) :
    continues { text := [c, '='], form := .token kinds.2 } after = false := by
  have hc := Kind.mem_operators_iff.mp h
  unfold Kind.operator? at hc
  split at hc <;> cases hc <;> rfl

theorem continues_slash :
    continues { text := ['/'], form := .token .slash } after = (after.head? == some '/') := rfl

theorem continues_comment :
    continues { text := '/' :: '/' :: t, form := .layout } after =
      after.head?.any (· ≠ '\n') := by
  simp [continues]

theorem continues_blank (h : isLayout c = true) :
    continues { text := [c], form := .layout } after = false := by
  have hc : c ≠ '/' := by
    rintro rfl
    simp [isLayout] at h
  simp [continues, hc]

theorem continues_string :
    continues { text := t, form := .token .string } after = false := rfl

theorem continues_whole (h : Digits t) :
    continues { text := t, form := .token .number } after =
      (after.head?.any Char.isDigit || beginsFraction after) := by
  simp [continues, h.point_notMem]

theorem continues_decimal {ds es : Text} :
    continues { text := ds ++ '.' :: es, form := .token .number } after =
      after.head?.any Char.isDigit := by
  simp [continues]

theorem continues_unterminated :
    continues { text := t, form := .unterminated } after = !after.isEmpty := rfl

theorem continues_unexpected :
    continues { text := t, form := .unexpected } after = false := rfl

end Continues

end Segment

end LoxLexis

import LoxLexis.Proofs.Segment.Grammar
import LoxLexis.Proofs.Text.Runs

/-!
# The front of a text

A text begins with exactly one segment that is not continued by what comes after it, and that is
the one `Segment.first` finds.  The two halves of this are `first_eq_of_shape` and `exists_shape`;
both go through the shapes one by one, the first computing `Segment.first` and the second finding
the shape from the first characters of the text.  Nothing after this module looks into
`Segment.first` again.

## Main statements

* `Segment.first_eq_of_shape` — a segment that is not continued is the first one of its text
* `Segment.exists_shape` — every text begins with a segment that is not continued
* `Segment.first_shape` — the first segment of a text has a shape and is not continued
-/

namespace LoxLexis

/-! ### Tails -/

theorem stringTail_append {t : Text} (h : Text.doubleQuote ∉ t) (after : Text) :
    stringTail (t ++ Text.doubleQuote :: after) =
      { text := t ++ [Text.doubleQuote], form := .token .string } := by
  have stop : (Text.doubleQuote :: after).head?.any (· ≠ Text.doubleQuote) = false := by simp
  rw [stringTail, takeWhile_append_of_head (forall_ne_of_notMem h) stop,
    dropWhile_append_of_head (forall_ne_of_notMem h) stop]

theorem stringTail_of_notMem {t : Text} (h : Text.doubleQuote ∉ t) :
    stringTail t = { text := t, form := .unterminated } := by
  rw [stringTail, takeWhile_of_forall (forall_ne_of_notMem h),
    dropWhile_of_forall (forall_ne_of_notMem h)]

theorem commentTail_append {t after : Text} (h : '\n' ∉ t)
    (stop : after.head?.any (· ≠ '\n') = false) : commentTail (t ++ after) = t :=
  takeWhile_append_of_head (forall_ne_of_notMem h) stop

theorem numberTail_append {ds after : Text} (h : ∀ c ∈ ds, c.isDigit = true)
    (stop : after.head?.any Char.isDigit = false) (point : beginsFraction after = false) :
    numberTail (ds ++ after) = ds := by
  rw [numberTail, takeWhile_append_of_head h stop, dropWhile_append_of_head h stop]
  split
  · next d more =>
      have hd : d.isDigit = false := by simpa [beginsFraction] using point
      simp [hd]
  · rfl

theorem numberTail_append_fraction {ds es after : Text} (h : ∀ c ∈ ds, c.isDigit = true)
    (h' : Digits es) (stop : after.head?.any Char.isDigit = false) :
    numberTail (ds ++ '.' :: (es ++ after)) = ds ++ '.' :: es := by
  obtain ⟨e, es, rfl, he, hes⟩ := h'.exists_cons
  have point : ('.' :: (e :: es ++ after)).head?.any Char.isDigit = false := by simp
  rw [numberTail, takeWhile_append_of_head h point, dropWhile_append_of_head h point]
  simp [he, takeWhile_append_of_head hes stop]

namespace Segment

variable {c : Char}

/-! ### The first segment by its first character -/

theorem first_of_single {kind : Kind} (h : (c, kind) ∈ Kind.punctuation) (rest : Text) :
    first c rest = { text := [c], form := .token kind } := by
  simp [first, Kind.mem_punctuation_iff.mp h]

theorem first_of_operator {kinds : Kind × Kind} (h : (c, kinds) ∈ Kind.operators) (rest : Text) :
    first c rest = operator c kinds rest := by
  simp only [Kind.operators, List.mem_cons, Prod.mk.injEq, List.not_mem_nil, or_false] at h
  rcases h with ⟨rfl, rfl⟩ | ⟨rfl, rfl⟩ | ⟨rfl, rfl⟩ | ⟨rfl, rfl⟩ <;> rfl

theorem first_slash (rest : Text) : first '/' rest = slash rest := rfl

theorem eq_of_isLayout (h : isLayout c = true) : c = ' ' ∨ c = '\r' ∨ c = '\t' ∨ c = '\n' := by
  simpa [isLayout, or_assoc] using h

theorem first_of_layout (h : isLayout c = true) (rest : Text) :
    first c rest = { text := [c], form := .layout } := by
  rcases eq_of_isLayout h with rfl | rfl | rfl | rfl <;> rfl

theorem first_quote (rest : Text) :
    first Text.doubleQuote rest =
      { text := Text.doubleQuote :: (stringTail rest).text, form := (stringTail rest).form } := rfl

/-- A digit is none of the characters that begin the other forms. -/
theorem first_of_digit (h : c.isDigit = true) (rest : Text) :
    first c rest = { text := c :: numberTail rest, form := .token .number } := by
  have single : Kind.single? c = none := by
    unfold Kind.single?
    split <;> simp_all
  have operator : Kind.operator? c = none := by
    unfold Kind.operator?
    split <;> simp_all
  have slash : c ≠ '/' := by
    rintro rfl
    simp at h
  have layout : isLayout c = false := by
    refine Bool.eq_false_iff.mpr fun hl => ?_
    rcases eq_of_isLayout hl with rfl | rfl | rfl | rfl <;> simp at h
  have quote : c ≠ Text.doubleQuote := by
    rintro rfl
    simp [Text.doubleQuote] at h
  simp [first, plain, single, operator, slash, layout, quote, h]

theorem first_of_beginsNothing (h : BeginsNothing c) (rest : Text) :
    first c rest = { text := [c], form := .unexpected } := by
  simp [first, plain, h.single, h.operator, h.slash, h.layout, h.quote, h.digit]

theorem operator_of_head_ne {kinds : Kind × Kind} {rest : Text} (h : rest.head? ≠ some '=') :
    operator c kinds rest = { text := [c], form := .token kinds.1 } := by
  unfold operator
  split
  · exact absurd rfl h
  · rfl

theorem slash_of_head_ne {rest : Text} (h : rest.head? ≠ some '/') :
    slash rest = { text := ['/'], form := .token .slash } := by
  unfold slash
  split
  · exact absurd rfl h
  · rfl

/-! ### A segment that is not continued is the first -/

theorem first_eq_of_lexeme {f : Form} {t after rest : Text} (h : Lexeme f t)
    (stop : continues { text := t, form := f } after = false) (hc : t ++ after = c :: rest) :
    first c rest = { text := t, form := f } := by
  cases h with
  | single h =>
      obtain ⟨rfl, rfl⟩ := List.cons.inj hc
      exact first_of_single h _
  | operator h =>
      obtain ⟨rfl, rfl⟩ := List.cons.inj hc
      rw [continues_operator after h, beq_eq_false_iff_ne] at stop
      exact (first_of_operator h _).trans (operator_of_head_ne stop)
  | compound h =>
      obtain ⟨rfl, rfl⟩ := List.cons.inj hc
      exact first_of_operator h _
  | slash =>
      obtain ⟨rfl, rfl⟩ := List.cons.inj hc
      rw [continues_slash, beq_eq_false_iff_ne] at stop
      exact (first_slash _).trans (slash_of_head_ne stop)
  | @comment t h =>
      rw [List.cons_append, List.cons_append] at hc
      obtain ⟨rfl, rfl⟩ := List.cons.inj hc
      rw [continues_comment] at stop
      rw [first_slash, slash, commentTail_append h stop]
  | blank h =>
      obtain ⟨rfl, rfl⟩ := List.cons.inj hc
      exact first_of_layout h _
  | @string t h =>
      rw [List.cons_append, List.append_assoc, List.singleton_append] at hc
      obtain ⟨rfl, rfl⟩ := List.cons.inj hc
      rw [first_quote, stringTail_append h]
  | whole h =>
      rw [continues_whole after h, Bool.or_eq_false_iff] at stop
      obtain ⟨d, ds, rfl, hd, hds⟩ := h.exists_cons
      rw [List.cons_append] at hc
      obtain ⟨rfl, rfl⟩ := List.cons.inj hc
      rw [first_of_digit hd, numberTail_append hds stop.1 stop.2]
  | @decimal ds es h h' =>
      rw [continues_decimal] at stop
      obtain ⟨d, ds, rfl, hd, hds⟩ := h.exists_cons
      rw [List.append_assoc, List.cons_append, List.cons_append] at hc
      obtain ⟨rfl, rfl⟩ := List.cons.inj hc
      rw [first_of_digit hd, numberTail_append_fraction hds h' stop, List.cons_append]

/-- **A segment that is not continued is the first one of its text.** -/
theorem first_eq_of_shape {s : Segment} {after rest : Text} (shape : s.Shape)
    (stop : s.continues after = false) (hc : s.text ++ after = c :: rest) :
    first c rest = s := by
  cases shape with
  | lexeme h => exact first_eq_of_lexeme h stop hc
  | unterminated h =>
      -- Everything continues a string that is not closed, so it goes to the end.
      have nothing : after = [] := by simpa [continues_unterminated] using stop
      rw [nothing, List.append_nil] at hc
      obtain ⟨rfl, rfl⟩ := List.cons.inj hc
      rw [first_quote, stringTail_of_notMem h]
  | unexpected h =>
      obtain ⟨rfl, rfl⟩ := List.cons.inj hc
      exact first_of_beginsNothing h _

/-! ### Every text begins with such a segment -/

theorem beginsFraction_eq_true {t : Text} (h : beginsFraction t = true) :
    ∃ d rest, t = '.' :: d :: rest ∧ d.isDigit = true := by
  obtain ⟨point, digit⟩ := Bool.and_eq_true_iff.mp h
  obtain ⟨tail, rfl⟩ := List.head?_eq_some_iff.mp (beq_iff_eq.mp point)
  cases tail with
  | nil => simp at digit
  | cons d rest => exact ⟨d, rest, rfl, digit⟩

theorem exists_number (hc : c.isDigit = true) (rest : Text) :
    ∃ s after, Shape s ∧ s.continues after = false ∧ s.text ++ after = c :: rest := by
  -- The digits after a point are looked for only where one of them follows it directly.
  obtain ⟨ds, more, rfl, hds, stop⟩ := exists_run Char.isDigit rest
  have whole : Digits (c :: ds) := ⟨List.cons_ne_nil _ _, by simpa [hc] using hds⟩
  by_cases point : beginsFraction more = true
  · obtain ⟨d, later, rfl, hd⟩ := beginsFraction_eq_true point
    obtain ⟨es, after, rfl, hes, stop'⟩ := exists_run Char.isDigit later
    have fraction : Digits (d :: es) := ⟨List.cons_ne_nil _ _, by simpa [hd] using hes⟩
    refine ⟨_, after, .lexeme (.decimal whole fraction), ?_, by simp⟩
    rw [continues_decimal, stop']
  · refine ⟨_, more, .lexeme (.whole whole), ?_, by simp⟩
    rw [continues_whole more whole, stop, Bool.eq_false_iff.mpr point, Bool.or_self]

theorem exists_string (rest : Text) :
    ∃ s after, Shape s ∧ s.continues after = false ∧
      s.text ++ after = Text.doubleQuote :: rest := by
  by_cases closed : Text.doubleQuote ∈ rest
  · obtain ⟨t, after, rfl, ht⟩ := List.eq_append_cons_of_mem closed
    exact ⟨_, after, .lexeme (.string ht), continues_string after, by simp⟩
  · exact ⟨_, [], .unterminated closed, rfl, by simp⟩

theorem exists_operator {kinds : Kind × Kind} (h : (c, kinds) ∈ Kind.operators) (rest : Text) :
    ∃ s after, Shape s ∧ s.continues after = false ∧ s.text ++ after = c :: rest := by
  by_cases equals : rest.head? = some '='
  · obtain ⟨after, rfl⟩ := List.head?_eq_some_iff.mp equals
    exact ⟨_, after, .lexeme (.compound h), continues_compound after h, rfl⟩
  · refine ⟨_, rest, .lexeme (.operator h), ?_, rfl⟩
    rw [continues_operator rest h, beq_eq_false_iff_ne]
    exact equals

theorem exists_slash (rest : Text) :
    ∃ s after, Shape s ∧ s.continues after = false ∧ s.text ++ after = '/' :: rest := by
  by_cases second : rest.head? = some '/'
  · obtain ⟨more, rfl⟩ := List.head?_eq_some_iff.mp second
    obtain ⟨t, after, rfl, ht, stop⟩ := exists_run (· ≠ '\n') more
    have line : '\n' ∉ t := fun h => by simpa using ht _ h
    refine ⟨_, after, .lexeme (.comment line), ?_, by simp⟩
    rw [continues_comment, stop]
  · refine ⟨_, rest, .lexeme .slash, ?_, rfl⟩
    rw [continues_slash, beq_eq_false_iff_ne]
    exact second

/-- **Every text begins with a segment that is not continued.** -/
theorem exists_shape (c : Char) (rest : Text) :
    ∃ s after, Shape s ∧ s.continues after = false ∧ s.text ++ after = c :: rest := by
  -- The cases are those of `first`, in its order.
  cases single : Kind.single? c with
  | some kind =>
      have h := Kind.mem_punctuation_iff.mpr single
      exact ⟨_, rest, .lexeme (.single h), continues_single rest h, rfl⟩
  | none =>
      cases operator : Kind.operator? c with
      | some kinds => exact exists_operator (Kind.mem_operators_iff.mpr operator) rest
      | none =>
          by_cases slash : c = '/'
          · exact slash ▸ exists_slash rest
          by_cases layout : isLayout c = true
          · exact ⟨_, rest, .lexeme (.blank layout), continues_blank rest layout, rfl⟩
          by_cases quote : c = Text.doubleQuote
          · exact quote ▸ exists_string rest
          by_cases digit : c.isDigit = true
          · exact exists_number digit rest
          have nothing : BeginsNothing c :=
            ⟨single, operator, slash, Bool.eq_false_iff.mpr layout, quote,
              Bool.eq_false_iff.mpr digit⟩
          exact ⟨_, rest, .unexpected nothing, continues_unexpected rest, rfl⟩

/-- The first segment of a text has a shape, and what comes after it does not continue it. -/
theorem first_shape (c : Char) (rest : Text) :
    (first c rest).Shape ∧
      (first c rest).continues ((c :: rest).drop (first c rest).text.length) = false := by
  obtain ⟨s, after, shape, stop, hc⟩ := exists_shape c rest
  have hs : first c rest = s := first_eq_of_shape shape stop hc
  rw [hs, ← hc, List.drop_left]
  exact ⟨shape, stop⟩

end Segment

end LoxLexis

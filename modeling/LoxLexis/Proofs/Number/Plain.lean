import LoxLexis.Proofs.Number.Numeric

/-!
# Plain numerals

The numbers of a source have neither a sign nor an exponent: they are digits, with at most one point
among them.  Reading such a numeral always succeeds, and it is no more than parting the digits at
the point and rounding the number they denote.

## Main definitions

* `Numeral.plain` — the numeral made of digits and at most one point
* `Binary64.ofPlain` — the double it denotes

## Main statements

* `Binary64.ofText?_of_lexeme` — every number of a source is read, and as that double
-/

namespace LoxLexis

/-- The numeral that digits make, with the digits after a point as its fraction. -/
def Numeral.plain (t : Text) : Numeral where
  whole := t.takeWhile Char.isDigit
  fraction := (t.dropWhile Char.isDigit).drop 1
  exponent := 0

/-- The double nearest to a plain numeral. -/
def Binary64.ofPlain (t : Text) : Binary64 := .ofMagnitude? false (Numeral.plain t).magnitude?

/-! ### The characters of a plain numeral -/

namespace Lexeme

variable {t : Text}

theorem isDigit_or_point (h : Lexeme (.token .number) t) : ∀ c ∈ t, c.isDigit = true ∨ c = '.' := by
  intro c hc
  rcases h.number_cases with h | ⟨ds, es, hds, hes, rfl⟩
  · exact .inl (h.isDigit c hc)
  · rcases List.mem_append.mp hc with hc | hc
    · exact .inl (hds.isDigit c hc)
    · rcases List.mem_cons.mp hc with rfl | hc
      · exact .inr rfl
      · exact .inl (hes.isDigit c hc)

theorem numeric (h : Lexeme (.token .number) t) : Numeric t := by
  rcases h.number_cases with h | ⟨ds, es, hds, hes, rfl⟩
  · exact h.numeric
  · exact hds.numeric.append_point hes.numeric

theorem exists_digit_cons (h : Lexeme (.token .number) t) :
    ∃ d rest, t = d :: rest ∧ d.isDigit = true := h.numeric.first

end Lexeme

/-! ### Reading -/

/-- The parts of a number are its digits before and after the point. -/
theorem Numeral.ofText?_of_lexeme {t : Text} (h : Lexeme (.token .number) t) :
    Numeral.ofText? t = some (Numeral.plain t) := by
  rcases h.number_cases with whole | ⟨ds, es, hds, hes, rfl⟩
  · have read := ofText?_bare (x := []) whole rfl rfl rfl
    rw [List.append_nil] at read
    rw [read, plain, takeWhile_of_forall whole.isDigit, dropWhile_of_forall whole.isDigit]
    rfl
  · have read := ofText?_point (x := []) hds hes rfl rfl
    have point : ('.' :: es).head?.any Char.isDigit = false := rfl
    rw [List.append_nil] at read
    rw [read, plain, takeWhile_append_of_head hds.isDigit point,
      dropWhile_append_of_head hds.isDigit point]
    rfl

/-- **Every number of a source is read, as the double nearest to it.** -/
theorem Binary64.ofText?_of_lexeme {t : Text} (h : Lexeme (.token .number) t) :
    Binary64.ofText? t = some (Binary64.ofPlain t) :=
  Binary64.ofText?_signed h.numeric (Numeral.ofText?_of_lexeme h) false

end LoxLexis

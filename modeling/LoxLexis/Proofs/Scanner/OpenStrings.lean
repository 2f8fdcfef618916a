import LoxLexis.Proofs.Scanner.Indexed
import LoxLexis.Scanner.Operation

/-!
# Going on with a string

A scanner may be asked to go on with a string wherever it stands, also beyond the end of its source,
and whatever its start is.  It looks for the first double quote from its position on.  Nothing but that
quote decides what becomes of the string, and so everything can be said by indices into the source:
where the quote is, or that there is none.

The piece of source that is moved over has no double quote in it.  This is what carries over from the
text that a scanner has in front of it to the indices, in both cases.

## Main definitions

* `FirstQuote` — the first double quote of a source from a position on
* `Scanner.AfterString` — what is left of a scanner that has gone on with a string, and what it says

## Main statements

* `Scanner.exists_afterString` — a scanner goes on with a string as far as the first double quote, or
  to the end
* `scanString_from_anywhere` — it does so from any position, by characters and as a whole
-/

namespace LoxLexis

/-- The first double quote of a source from a position on. -/
structure FirstQuote (source : Text) (p q : Nat) : Prop where
  ge : p ≤ q
  quote : source[q]? = some Text.doubleQuote
  first : ∀ i, p ≤ i → i < q → source[i]? ≠ some Text.doubleQuote

/-- A character from a position on is one of the text there. -/
theorem mem_drop_of_getElem? {source : Text} {p i : Nat} {c : Char} (ge : p ≤ i)
    (found : source[i]? = some c) : c ∈ source.drop p := by
  obtain ⟨k, rfl⟩ := Nat.exists_eq_add_of_le ge
  rw [← List.getElem?_drop] at found
  exact List.mem_of_getElem? found

/-- The first double quote of a text comes after a piece that has none. -/
theorem firstQuote_of_drop {source inner after : Text} {p : Nat}
    (split : source.drop p = inner ++ Text.doubleQuote :: after)
    (unquoted : Text.doubleQuote ∉ inner) : FirstQuote source p (p + inner.length) where
  ge := Nat.le_add_right _ _
  quote := by
    rw [← List.getElem?_drop, split, List.getElem?_append_right (Nat.le_refl _), Nat.sub_self]
    rfl
  first := by
    intro i ge lt found
    obtain ⟨k, rfl⟩ := Nat.exists_eq_add_of_le ge
    rw [← List.getElem?_drop, split, List.getElem?_append_left (Nat.lt_of_add_lt_add_left lt)] at found
    exact unquoted (List.mem_of_getElem? found)

namespace Scanner

/-- What is left of a scanner that has gone on with a string, and what it says. -/
inductive AfterString (s : Scanner) : Scanner → Signal → Prop
  /-- The string is closed, and its token has the line of the double quote that closes it. -/
  | closed {q : Nat} (quote : FirstQuote s.source s.current q) :
      AfterString s
        { s with
          current := q + 1
          line := s.line + Text.lineFeeds (Text.slice s.source s.current q)
          tokens := s.tokens ++
            [{ kind := .string
               lexeme := Text.slice s.source s.start (q + 1)
               literal := some (.text (Text.slice s.source (s.start + 1) q))
               line := s.line + Text.lineFeeds (Text.slice s.source s.current q) }] }
        .done
  /-- There is no double quote from the position on, so the rest of the source is moved over. -/
  | unclosed (none : ∀ i, s.current ≤ i → s.source[i]? ≠ some Text.doubleQuote) :
      AfterString s
        { s with
          current := max s.current s.source.length
          line := s.line + Text.lineFeeds (s.source.drop s.current) }
        (.report
          { line := s.line + Text.lineFeeds (s.source.drop s.current)
            message := "Unterminated string.".toList })

variable {s : Scanner}

/-- A string with a closing quote is moved over together with the quote. -/
theorem scanString_of_quote {inner after : Text} (split : s.rest = inner ++ Text.doubleQuote :: after)
    (unquoted : Text.doubleQuote ∉ inner) :
    s.scanString =
      ((s.absorb (inner ++ [Text.doubleQuote])).addToken .string
        (some (.text (s.absorb (inner ++ [Text.doubleQuote])).unquoted)), .done) := by
  rw [scanString, split, stringTail_append unquoted]
  rfl

/-- Without a closing quote the rest of the source is moved over and reported. -/
theorem scanString_of_notMem (unquoted : Text.doubleQuote ∉ s.rest) :
    s.scanString =
      (s.absorb s.rest, .report ((s.absorb s.rest).report unterminatedString)) := by
  rw [scanString, stringTail_of_notMem unquoted]
  rfl

/-- To move over the rest of the source is to move to its end, if that is not behind. -/
theorem absorb_rest (s : Scanner) :
    s.absorb s.rest =
      { s with
        current := max s.current s.source.length
        line := s.line + Text.lineFeeds (s.source.drop s.current) } := by
  have length : s.current + s.rest.length = max s.current s.source.length := by
    rw [rest, List.length_drop]
    omega
  rw [absorb, length]
  rfl

/-- **A scanner goes on with a string as far as the first double quote, or to the end.** -/
theorem exists_afterString (s : Scanner) :
    ∃ left signal, s.AfterString left signal ∧ s.scanString = (left, signal) := by
  by_cases closed : Text.doubleQuote ∈ s.rest
  · obtain ⟨inner, after, split, unquoted⟩ := List.eq_append_cons_of_mem closed
    have moved : Text.slice s.source s.current (s.current + inner.length) = inner :=
      slice_of_drop_eq split
    have lines : Text.lineFeeds (inner ++ [Text.doubleQuote]) = Text.lineFeeds inner := by
      rw [Text.lineFeeds_append, Text.lineFeeds_singleton_of_ne (by decide), Nat.add_zero]
    refine ⟨_, _, .closed (firstQuote_of_drop split unquoted), ?_⟩
    rw [scanString_of_quote split unquoted, moved]
    simp only [absorb, addToken, lexeme, Scanner.unquoted, lines, List.length_append,
      List.length_singleton]
    rfl
  · refine ⟨_, _, .unclosed (fun i ge found => closed (mem_drop_of_getElem? ge found)), ?_⟩
    rw [scanString_of_notMem closed, absorb_rest]
    rfl

/-- A reporter that never objects has nothing against what there is to say of a string. -/
theorem AfterString.hear_eq_none {σ ε : Type} {left : Scanner} {signal : Signal}
    (after : s.AfterString left signal) {reporter : Reporter σ ε} (quiet : reporter.Quiet)
    (sink : σ) : (reporter.hear sink signal).2 = none := by
  cases after with
  | closed => rfl
  | unclosed =>
      simp only [Reporter.hear, quiet sink _]
      rfl

end Scanner

/-- **A scanner goes on with a string from any position**, as far as the first double quote or to the
end of the source, and it makes a report only in the latter case. -/
theorem scanString_from_anywhere {σ ε : Type} (reporter : Reporter σ ε) (quiet : reporter.Quiet)
    (s : Scanner) (sink : σ) :
    ∃ left signal, s.AfterString left signal ∧
      Scanner.Indexed.scanString s = .ok (left, signal) ∧
      Operation.scanString.perform reporter s sink =
        { scanner := left, sink := (reporter.hear sink signal).1, result := .ok .nothing } := by
  obtain ⟨left, signal, after, scanned⟩ := s.exists_afterString
  refine ⟨left, signal, after, ?_, ?_⟩
  · rw [Scanner.Indexed.scanString_eq, scanned]
  · show Operation.signalled reporter sink s.scanString = _
    rw [scanned]
    simp only [Operation.signalled, after.hear_eq_none quiet sink]
    rfl

/-- The start is behind the position, and the position is in front of a string that goes over two
lines; the line is not one of the source. -/
theorem scanString_from_anywhere_detached :
    let s := { Scanner.new "1 a\nb\" c".toList with start := 7, current := 2, line := -5 }
    Reporter.keep.Quiet ∧
      ∃ left signal, s.AfterString left signal ∧
        Scanner.Indexed.scanString s = .ok (left, signal) ∧
        Operation.scanString.perform Reporter.keep s [] =
          { scanner := left
            sink := (Reporter.keep.hear [] signal).1
            result := .ok .nothing } := by
  intro s
  exact ⟨Reporter.keep_quiet, scanString_from_anywhere Reporter.keep Reporter.keep_quiet s []⟩

end LoxLexis

import LoxLexis.Proofs.Scanner.Heads
import LoxLexis.Scanner.Operation

/-!
# What an operation can do to a scanner

An operation that is neither a complete scan nor an assignment does two things at most, and in this
order.  It moves the scanner: the start may be put at the position, the position goes forward over a
piece of the source, and the line grows by no more line feeds than that piece has.  Then it may
append one token with the lexeme and the line that the scanner has by now, and if it does it
completes.  So whatever makes it fail finds no token appended.

This is all that invariants of a scanner need to know of an operation.  A complete scan is such steps
one after the other, from a scanner put back to the beginning, with a token for the end of the source
behind them if nothing fails.

## Main definitions

* `Scanner.Moves` — a scanner moved forward
* `Operation.isStep` — an operation that is neither a complete scan nor an assignment
* `Scanner.Outcome` — what a step leaves, and how it ends

## Main statements

* `Operation.outcome` — what a step can do
* `Scanner.run_preserves`, `Scanner.scan_preserves` — what single steps preserve, runs and complete
  scans preserve
-/

namespace LoxLexis

variable {σ ε : Type}

/-- A scanner moved forward: no more than start, position and line may differ. -/
structure Scanner.Moves (s t : Scanner) : Prop where
  frame : t = { s with start := t.start, current := t.current, line := t.line }
  /-- The start is where it was, or where the position was. -/
  start : t.start = s.start ∨ t.start = s.current
  forward : s.current ≤ t.current
  /-- A position within the source stays within it, and one beyond the end stays where it is. -/
  within : t.current ≤ max s.current s.source.length
  line : s.line ≤ t.line
  /-- Not every line feed that the position goes over is counted, but no other one is. -/
  lineFeeds : t.line ≤ s.line + Text.lineFeeds (Text.slice s.source s.current t.current)

namespace Scanner

theorem Moves.source {s t : Scanner} (h : Moves s t) : t.source = s.source := by rw [h.frame]

theorem Moves.tokens {s t : Scanner} (h : Moves s t) : t.tokens = s.tokens := by rw [h.frame]

theorem Moves.refl (s : Scanner) : Moves s s where
  frame := rfl
  start := .inl rfl
  forward := Nat.le_refl _
  within := Nat.le_max_left _ _
  line := Int.le_refl _
  lineFeeds := by omega

/-- A piece of the source from the position on. -/
theorem slice_of_rest {s : Scanner} {t : Text} (h : t <+: s.rest) :
    Text.slice s.source s.current (s.current + t.length) = t := by
  obtain ⟨after, h⟩ := h
  exact slice_of_drop_eq h.symm

theorem length_le_of_rest {s : Scanner} {t : Text} (h : t <+: s.rest) :
    s.current + t.length ≤ max s.current s.source.length := by
  have := h.length_le
  simp only [rest, List.length_drop] at this
  omega

theorem moves_absorb {s : Scanner} {t : Text} (h : t <+: s.rest) : Moves s (s.absorb t) where
  frame := rfl
  start := .inl rfl
  forward := Nat.le_add_right _ _
  within := length_le_of_rest h
  line := by simp only [absorb_line]; omega
  lineFeeds := by
    rw [absorb_current, slice_of_rest h]
    exact Int.le_refl _

/-- Moving over a character without counting line feeds. -/
theorem moves_advance {s : Scanner} (h : s.current < s.source.length) :
    Moves s { s with current := s.current + 1 } where
  frame := rfl
  start := .inl rfl
  forward := Nat.le_succ _
  within := by simp only; omega
  line := Int.le_refl _
  lineFeeds := by simp only; omega

/-- A lexeme begun at the position moves no further than without beginning one. -/
theorem Moves.of_begun {s t : Scanner} (h : Moves { s with start := s.current } t) : Moves s t where
  frame := h.frame
  start := h.start.elim .inr .inr
  forward := h.forward
  within := h.within
  line := h.line
  lineFeeds := h.lineFeeds

/-- Delivering appends a token and says nothing, or it appends none. -/
theorem deliver_cases (s : Scanner) (f : Form) :
    (s.deliver f).1 = s ∨ ∃ kind literal, s.deliver f = (s.addToken kind literal, .done) := by
  unfold deliver
  split
  · exact .inr ⟨_, _, rfl⟩
  · split
    · exact .inr ⟨_, _, rfl⟩
    · exact .inl rfl
  · exact .inr ⟨_, _, rfl⟩
  · exact .inl rfl
  · exact .inl rfl
  · exact .inl rfl

end Scanner

/-- What a step leaves, and how it ends: a token is the last thing, and the step completes then. -/
inductive Scanner.Outcome (s : Scanner) : Scanner → Except (Failure ε) Answer → Prop
  | moved {t : Scanner} (h : s.Moves t) (result : Except (Failure ε) Answer) :
      Scanner.Outcome s t result
  | token {t : Scanner} (h : s.Moves t) (kind : Kind) (literal : Option Literal) :
      Scanner.Outcome s (t.addToken kind literal) (.ok .nothing)

/-- A lexeme begun at the position makes no other outcome possible. -/
theorem Scanner.Outcome.of_begun {s t : Scanner} {result : Except (Failure ε) Answer}
    (h : Scanner.Outcome { s with start := s.current } t result) : s.Outcome t result := by
  cases h with
  | moved h => exact .moved h.of_begun _
  | token h => exact .token h.of_begun _ _

namespace Operation

/-- An operation that is neither a complete scan nor an assignment. -/
def isStep : Operation → Bool
  | scan | assign .. => false
  | _ => true

variable (reporter : Reporter σ ε) (s : Scanner) (sink : σ)

theorem outcome_deliver {s t : Scanner} (h : s.Moves t) (f : Form) :
    s.Outcome (signalled reporter sink (t.deliver f)).scanner
      (signalled reporter sink (t.deliver f)).result := by
  rcases t.deliver_cases f with same | ⟨kind, literal, token⟩
  · show s.Outcome (t.deliver f).1 _
    rw [same]
    exact .moved h _
  · rw [token]
    exact .token h kind literal

theorem outcome_scanToken :
    s.Outcome (signalled reporter sink s.scanToken).scanner
      (signalled reporter sink s.scanToken).result := by
  unfold Scanner.scanToken
  split
  · exact .moved (.refl s) _
  · next c rest hrest =>
      have front : (Segment.first c rest).text <+: s.rest := by
        rw [hrest]
        exact Segment.first_prefix_cons c rest
      exact outcome_deliver reporter sink (Scanner.moves_absorb front) _

theorem outcome_next :
    s.Outcome (signalled reporter sink s.next).scanner (signalled reporter sink s.next).result :=
  (outcome_scanToken reporter { s with start := s.current } sink).of_begun

theorem moves_accept (expected : Text) : s.Moves (s.accept expected).2 := by
  unfold Scanner.accept
  split
  · next found =>
      cases peeked : s.peek with
      | none =>
          rw [peeked] at found
          cases found
      | some c => exact Scanner.moves_advance (List.getElem?_eq_some_iff.mp peeked).1
  · exact Scanner.Moves.refl s

/-- **What a step can do.** -/
theorem outcome {operation : Operation} (h : operation.isStep = true) :
    s.Outcome (operation.perform reporter s sink).scanner
      (operation.perform reporter s sink).result := by
  cases operation with
  | scan => cases h
  | assign => cases h
  | next => exact outcome_next reporter s sink
  | scanToken => exact outcome_scanToken reporter s sink
  | scanString =>
      exact outcome_deliver reporter sink (Scanner.moves_absorb (stringTail_prefix_rest s.rest)) _
  | scanNumber =>
      exact outcome_deliver reporter sink (Scanner.moves_absorb (numberTail_prefix_rest s.rest)) _
  | advance =>
      simp only [perform]
      unfold Scanner.advance
      cases hrest : s.rest with
      | nil => exact .moved (.refl s) _
      | cons c rest =>
          have before : s.current < s.source.length :=
            Scanner.rest_ne_nil_iff.mp (by rw [hrest]; exact List.cons_ne_nil c rest)
          exact .moved (Scanner.moves_advance before) _
  | peek => exact .moved (.refl s) _
  | peekNext => exact .moved (.refl s) _
  | atEnd => exact .moved (.refl s) _
  | accept expected => exact .moved (moves_accept s expected) _
  | addToken kind literal => exact .token (.refl s) kind literal
  | error message => exact .moved (.refl s) _

end Operation

namespace Scanner

variable {P : Scanner → Prop} (step : ∀ s, P s → P s.next.1)
include step

/-- What single steps preserve, a run preserves, whether it comes to the end or not. -/
theorem run_preserves (reporter : Reporter σ ε) (s : Scanner) (sink : σ) (h : P s) :
    P (s.run reporter sink).scanner := by
  fun_induction run reporter s sink with
  | case1 s sink before => exact step s h
  | case2 s sink before taken heard completes ih => exact ih (step s h)
  | case3 => exact h

/-- A complete scan preserves it as well, if the restart and the token for the end do. -/
theorem scan_preserves (close : ∀ s, P s → P s.closed) (reporter : Reporter σ ε) (s : Scanner)
    (sink : σ) (h : P s.restarted) : P (s.scan reporter sink).scanner := by
  have ran := run_preserves step reporter s.restarted sink h
  simp only [scan]
  split
  · exact close _ ran
  · exact ran

end Scanner

end LoxLexis

import LoxLexis.Proofs.Scanner.History
import LoxLexis.Proofs.Scanner.Outcome

/-!
# A scanner in order

Whatever is done to a new scanner with its own operations, in whatever order, and whether they
complete or fail, it stays in order: start and position are within the source and the start is not
behind the position, the line is no further down than the line feeds in front of the position
permit, and the tokens have their lexemes from the source and go down the lines.

The line is bounded only from above, for there are operations that move over a line feed without
counting it.  That the lines of the tokens never go back needs one thing more, which every operation
keeps as well: none of them is below the present line.

## Main definitions

* `Operation.assigns` — the only operation that may put a scanner out of order
* `Scanner.InOrder` — a scanner in order

## Main statements

* `Scanner.InOrder.moves`, `Scanner.InOrder.addToken` — the two things a step is made of keep the order
* `inOrder_performAll` — a new scanner stays in order
-/

namespace LoxLexis

variable {σ ε : Type}

/-- Start, position, line or source are put at will. -/
def Operation.assigns : Operation → Bool
  | assign .. => true
  | _ => false

/-- The text in front of a position is that in front of an earlier one and what is between. -/
theorem Text.lineFeeds_take (source : Text) {p q : Nat} (h : p ≤ q) :
    lineFeeds (source.take q) = lineFeeds (source.take p) + lineFeeds (slice source p q) := by
  rw [← lineFeeds_append, slice, ← List.take_add, Nat.add_sub_cancel' h]

namespace Scanner

/-- A scanner in order on a source. -/
structure InOrder (source : Text) (s : Scanner) : Prop where
  reads : s.source = source
  start : s.start ≤ s.current
  current : s.current ≤ source.length
  first : 1 ≤ s.line
  /-- No line feed is counted that is not in front of the position. -/
  line : s.line ≤ 1 + Text.lineFeeds (source.take s.current)
  /-- Every lexeme is a piece of the source. -/
  lexemes : ∀ t ∈ s.tokens, ∃ first past, first ≤ past ∧ past ≤ source.length ∧
    t.lexeme = Text.slice source first past
  /-- The lines of the tokens never go back. -/
  sorted : s.tokens.Pairwise fun a b => a.line ≤ b.line
  /-- None of the tokens is below the present line. -/
  above : ∀ t ∈ s.tokens, t.line ≤ s.line

namespace InOrder

variable {source : Text} {s t : Scanner}

/-- A scanner at the beginning is in order. -/
theorem new (source : Text) : InOrder source (Scanner.new source) where
  reads := rfl
  start := Nat.le_refl _
  current := Nat.zero_le _
  first := Int.le_refl _
  line := by simp [Scanner.new]
  lexemes := by simp [Scanner.new]
  sorted := List.Pairwise.nil
  above := by simp [Scanner.new]

theorem restarted (h : s.source = source) : InOrder source s.restarted := by
  subst h
  exact { new s.source with }

/-- **A scanner that moves forward stays in order.** -/
theorem moves (h : InOrder source s) (moves : s.Moves t) : InOrder source t := by
  have tokens := moves.tokens
  exact {
    reads := moves.source.trans h.reads
    start := by
      have := moves.forward
      have := h.start
      rcases moves.start with e | e <;> omega
    current := by
      have := moves.within
      have := h.current
      rw [h.reads] at *
      omega
    first := Int.le_trans h.first moves.line
    line := by
      have := moves.lineFeeds
      have := h.line
      rw [Text.lineFeeds_take source moves.forward]
      rw [h.reads] at *
      omega
    lexemes := by rw [tokens]; exact h.lexemes
    sorted := by rw [tokens]; exact h.sorted
    above := by
      rw [tokens]
      exact fun tok mem => Int.le_trans (h.above tok mem) moves.line }

/-- A scanner in order with one more token, whose lexeme is a piece of the source and whose line is the
present one. -/
theorem append (h : InOrder source s) {tok : Token} (line : tok.line = s.line) {first past : Nat}
    (le : first ≤ past) (within : past ≤ source.length)
    (lexeme : tok.lexeme = Text.slice source first past) (lent : Bool) :
    InOrder source { s with tokens := s.tokens ++ [tok], lent := lent } := by
  exact { h with
    lexemes := by
      intro t mem
      rcases List.mem_append.mp mem with mem | mem
      · exact h.lexemes t mem
      · obtain rfl := List.mem_singleton.mp mem
        exact ⟨first, past, le, within, lexeme⟩
    sorted := by
      refine List.pairwise_append.mpr ⟨h.sorted, List.pairwise_singleton _ _, fun a ha b hb => ?_⟩
      obtain rfl := List.mem_singleton.mp hb
      rw [line]
      exact h.above a ha
    above := by
      intro t mem
      rcases List.mem_append.mp mem with mem | mem
      · exact h.above t mem
      · obtain rfl := List.mem_singleton.mp mem
        exact Int.le_of_eq line }

theorem addToken (h : InOrder source s) (kind : Kind) (literal : Option Literal) :
    InOrder source (s.addToken kind literal) :=
  h.append rfl h.start h.current (by rw [← h.reads]; rfl) s.lent

theorem closed (h : InOrder source s) : InOrder source s.closed :=
  h.append rfl (Nat.le_refl 0) (Nat.zero_le _) rfl true

theorem outcome {result : Except (Failure ε) Answer} (h : InOrder source s)
    (outcome : s.Outcome t result) : InOrder source t := by
  cases outcome with
  | moved moves => exact h.moves moves
  | token moves kind literal => exact (h.moves moves).addToken kind literal

/-- **Every operation but an assignment leaves a scanner in order, whether it completes or fails.** -/
theorem perform (reporter : Reporter σ ε) (h : InOrder source s) (sink : σ) {operation : Operation}
    (own : operation.assigns = false) :
    InOrder source (operation.perform reporter s sink).scanner := by
  have step (t : Scanner) (ht : InOrder source t) : InOrder source t.next.1 :=
    ht.outcome (Operation.outcome_next Reporter.keep t [])
  cases operation with
  | scan => exact scan_preserves step (fun _ ht => ht.closed) reporter s sink (restarted h.reads)
  | assign => cases own
  | _ => exact h.outcome (Operation.outcome reporter s sink rfl)

end InOrder

end Scanner

/-- **A new scanner stays in order**, whatever is done with its own operations and whatever its
reporter objects to. -/
theorem inOrder_performAll (reporter : Reporter σ ε) (source : Text) (sink : σ)
    (history : List Operation) (own : ∀ operation ∈ history, operation.assigns = false) :
    (Operation.performAll reporter (Scanner.new source) sink history).1.InOrder source := by
  suffices ∀ s k, Scanner.InOrder source s →
      (Operation.performAll reporter s k history).1.InOrder source from
    this _ _ (.new source)
  induction history with
  | nil => exact fun _ _ h => h
  | cons operation history ih =>
      obtain ⟨first, later⟩ := List.forall_mem_cons.mp own
      exact fun s k h => ih later _ _ (h.perform reporter k first)

/-- The history has a scan that an objection stops, a number that is none, line feeds that are moved
over without being counted, and steps at the end of the source. -/
theorem inOrder_performAll_failing :
    (∀ operation ∈ ([.scan, .advance, .scanNumber, .error "a".toList, .accept ['\n'], .scan,
        .scanString, .addToken .comma none, .next, .advance, .scanToken] : List Operation),
      operation.assigns = false) ∧
    Scanner.InOrder "a\n\n@\"b\n".toList
      (Operation.performAll Sink.receive (Scanner.new "a\n\n@\"b\n".toList) (Sink.empty (.fuse 0))
        [.scan, .advance, .scanNumber, .error "a".toList, .accept ['\n'], .scan,
          .scanString, .addToken .comma none, .next, .advance, .scanToken]).1 :=
  ⟨by decide, inOrder_performAll Sink.receive _ _ _ (by decide)⟩

end LoxLexis

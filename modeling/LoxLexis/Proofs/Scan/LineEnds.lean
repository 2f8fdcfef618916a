import LoxLexis.Proofs.Scan.Layout
import LoxLexis.Proofs.Text.LineEnds

/-!
# Carriage returns in front of line feeds

With a carriage return put in front of every line feed a source has the same tokens on the same
lines, and the same errors.  Only strings notice: they keep the carriage returns that come to stand
between their quotes.

The carriage return lands in three sorts of places.  Inside a string, closed or not, it is text like
any other, and it closes nothing.  Behind a comment it is taken in by the comment, which goes on
until the line feed.  Anywhere else it is layout at a seam.  The last two need no distinction: both
are layout put in where a segment ends, and that is irrelevant whether or not the segment takes it
in.

## Main definitions

* `Text.returned` — a text with a carriage return put in front of every line feed
* `Literal.returned`, `Segment.returned`, `Token.returned` — the same for the texts of these

## Main statements

* `Segment.Shape.lineFeed_cases` — a line feed is inside a string, or a segment of its own
* `Scan.of_first_returned` — the first segment, and a scan of the rest, with carriage returns put in
* `scan_returned` — carriage returns in front of line feeds show in strings only
-/

namespace LoxLexis

/-- A text with a carriage return put in front of every line feed. -/
def Text.returned (t : Text) : Text := endedBy ['\r', '\n'] t

/-- A number is the same, a text has its carriage returns put in. -/
def Literal.returned : Literal → Literal
  | .number value => .number value
  | .text value => .text value.returned

/-- A token with carriage returns put in its lexeme and its literal. -/
def Token.returned (t : Token) : Token :=
  { t with lexeme := Text.returned t.lexeme, literal := t.literal.map Literal.returned }

/-! ### Texts -/

namespace Text

theorem returned_cons_lineFeed (t : Text) : returned ('\n' :: t) = '\r' :: '\n' :: returned t := rfl

theorem returned_cons_other {c : Char} (hc : c ≠ '\n') (t : Text) :
    returned (c :: t) = c :: returned t := endedBy_cons_other hc _ t

theorem returned_append (t u : Text) : returned (t ++ u) = returned t ++ returned u :=
  List.flatMap_append

theorem returned_of_notMem {t : Text} (h : '\n' ∉ t) : returned t = t := by
  induction t with
  | nil => rfl
  | cons c t ih =>
      obtain ⟨hc, later⟩ := not_or.mp (mt List.mem_cons.mpr h)
      rw [returned_cons_other (Ne.symm hc), ih later]

/-- No other character comes in. -/
theorem notMem_returned {c : Char} {t : Text} (h : c ∉ t) (hc : c ≠ '\r') : c ∉ returned t := by
  induction t with
  | nil => exact h
  | cons d t ih =>
      obtain ⟨hd, later⟩ := not_or.mp (mt List.mem_cons.mpr h)
      by_cases feed : d = '\n'
      · subst feed
        simpa [returned_cons_lineFeed, hc, hd] using ih later
      · simpa [returned_cons_other feed, hd] using ih later

theorem lineFeeds_returned (t : Text) : lineFeeds (returned t) = lineFeeds t := by
  induction t with
  | nil => rfl
  | cons c t ih =>
      have first : c :: t = [c] ++ t := rfl
      rw [first, returned_append, lineFeeds_append, lineFeeds_append, ih]
      by_cases feed : c = '\n'
      · subst feed
        rfl
      · rw [returned_cons_other feed]
        rfl

/-- A carriage return is no digit, and no more is the line feed that it is put in front of. -/
theorem isDigit_head?_returned (t : Text) :
    (returned t).head?.any Char.isDigit = t.head?.any Char.isDigit := by
  cases t with
  | nil => rfl
  | cons c t =>
      by_cases feed : c = '\n'
      · subst feed
        rfl
      · rw [returned_cons_other feed]
        rfl

end Text

/-! ### Segments -/

namespace Segment

variable {s : Segment}

/-- A segment with carriage returns put in its text. -/
def returned (s : Segment) : Segment := { s with text := Text.returned s.text }

/-- **A line feed is inside a string, or a segment of its own.** -/
theorem Shape.lineFeed_cases (shape : s.Shape) :
    s = lineFeedSegment ∨ '\n' ∉ s.text ∨
      (∃ u, Text.doubleQuote ∉ u ∧
        s = { text := Text.doubleQuote :: (u ++ [Text.doubleQuote]), form := .token .string }) ∨
      ∃ u, Text.doubleQuote ∉ u ∧ s = { text := Text.doubleQuote :: u, form := .unterminated } := by
  cases shape with
  | unterminated h => exact .inr (.inr (.inr ⟨_, h, rfl⟩))
  | unexpected h =>
      refine .inr (.inl fun feed => ?_)
      obtain rfl := List.mem_singleton.mp feed
      cases h.layout
  | @lexeme f t h =>
      cases f with
      | unterminated => nomatch h
      | unexpected => nomatch h
      | token kind =>
          by_cases string : kind = .string
          · subst string
            obtain ⟨u, hu, rfl⟩ := h.string_cases
            exact .inr (.inr (.inl ⟨u, hu, rfl⟩))
          · exact .inr (.inl (h.lineFeed_notMem string))
      | layout =>
          cases h with
          | comment h => exact .inr (.inl (by simp [h]))
          | @blank c h =>
              by_cases feed : c = '\n'
              · exact .inl (by rw [feed]; rfl)
              · exact .inr (.inl (by simpa using Ne.symm feed))

theorem returned_of_notMem (h : '\n' ∉ s.text) : s.returned = s := by
  rw [returned, Text.returned_of_notMem h]

theorem returned_string (u : Text) :
    returned { text := Text.doubleQuote :: (u ++ [Text.doubleQuote]), form := .token .string } =
      { text := Text.doubleQuote :: (Text.returned u ++ [Text.doubleQuote])
        form := .token .string } := by
  rw [returned, Text.returned_cons_other (by decide), Text.returned_append]
  rfl

theorem returned_unterminated (u : Text) :
    returned { text := Text.doubleQuote :: u, form := .unterminated } =
      { text := Text.doubleQuote :: Text.returned u, form := .unterminated } := by
  rw [returned, Text.returned_cons_other (by decide)]

/-- A segment keeps its shape, unless it is a line feed. -/
theorem Shape.returned (shape : s.Shape) (h : s ≠ lineFeedSegment) : s.returned.Shape := by
  have quote : Text.doubleQuote ≠ '\r' := by decide
  rcases shape.lineFeed_cases with feed | none | ⟨u, hu, rfl⟩ | ⟨u, hu, rfl⟩
  · exact absurd feed h
  · rwa [returned_of_notMem none]
  · rw [returned_string]
    exact .lexeme (.string (Text.notMem_returned hu quote))
  · rw [returned_unterminated]
    exact .unterminated (Text.notMem_returned hu quote)

/-- What continues a segment does not depend on the line feeds inside it. -/
theorem Shape.continues_returned (shape : s.Shape) (h : s ≠ lineFeedSegment) (after : Text) :
    s.returned.continues after = s.continues after := by
  rcases shape.lineFeed_cases with feed | none | ⟨u, -, rfl⟩ | ⟨u, -, rfl⟩
  · exact absurd feed h
  · rw [returned_of_notMem none]
  · rfl
  · rfl

theorem literal?_of_notMem (h : '\n' ∉ s.text) : s.literal?.map Literal.returned = s.literal? := by
  unfold literal?
  split
  · have inner : '\n' ∉ s.text.tail.dropLast :=
      fun feed => h (List.mem_of_mem_tail ((List.dropLast_sublist _).subset feed))
    rw [Option.map_some, Literal.returned, Text.returned_of_notMem inner]
  · rfl
  · rfl

/-- A segment is read as the same token, but for the carriage returns in a string. -/
theorem Shape.token?_returned (shape : s.Shape) (line : Int) :
    s.returned.token? line = (s.token? line).map Token.returned := by
  rcases shape.lineFeed_cases with rfl | none | ⟨u, -, rfl⟩ | ⟨u, -, rfl⟩
  · rfl
  · rw [returned_of_notMem none]
    unfold token?
    split
    · rw [Option.map_some, Token.returned, Text.returned_of_notMem none, literal?_of_notMem none]
    · rfl
  · have text : Text.returned (Text.doubleQuote :: (u ++ [Text.doubleQuote])) =
        Text.doubleQuote :: (Text.returned u ++ [Text.doubleQuote]) :=
      congrArg Segment.text (returned_string u)
    rw [returned_string]
    simp [token?, literal?, Token.returned, Literal.returned, text]
  · rfl

theorem report?_returned (s : Segment) (line : Int) : s.returned.report? line = s.report? line := rfl

/-- What comes after a segment ends it as before, if that is not the end of a line. -/
theorem continues_cons_returned (s : Segment) (c : Char) (t : Text) :
    s.continues (c :: Text.returned t) = s.continues (c :: t) := by
  have fraction : beginsFraction (c :: Text.returned t) = beginsFraction (c :: t) :=
    congrArg (_ && ·) (Text.isDigit_head?_returned t)
  unfold continues
  rw [fraction]
  rfl

end Segment

/-! ### Scans -/

/-- A carriage return in front of a line feed that begins a text. -/
theorem Scan.of_return_lineFeed (after : Text) :
    Scan.of ('\r' :: '\n' :: after) = Scan.of ('\n' :: after) := by
  have layout : Text.IsLayout ['\r', '\n'] := by
    intro c hc
    rcases List.mem_cons.mp hc with rfl | hc
    · rfl
    · rw [List.mem_singleton.mp hc]
      rfl
  have both : Tiles after (blanks ['\r', '\n']) := tiles_blanks layout after
  have feed : Tiles after (blanks ['\n']) := tiles_blanks (fun c hc => layout c (.tail _ hc)) after
  exact Scan.of_readAlike feed both ⟨fun line => by simp, fun line => by simp, rfl⟩

/-- A scan of a text is that of its first segment, and of the rest further down. -/
theorem Scan.of_first {s : Segment} {after : Text} (shape : s.Shape)
    (stop : s.continues after = false) :
    Scan.of (s.text ++ after) =
      { tokens := (s.token? (1 + Text.lineFeeds s.text)).toList ++
          (Scan.of after).tokens.map (Token.lowered (Text.lineFeeds s.text))
        reports := (s.report? (1 + Text.lineFeeds s.text)).toList ++
          (Scan.of after).reports.map (Report.lowered (Text.lineFeeds s.text)) } := by
  have tiles : Tiles after [s] := ⟨shape, stop, trivial⟩
  have parted := Scan.of_append tiles
  simpa [tokensFrom_cons, reportsFrom_cons] using parted

/-- The same in front of a line feed that a carriage return is put in front of: the carriage return
is layout behind the segment, which may take it in. -/
theorem Scan.of_first_return {s : Segment} {after : Text} (shape : s.Shape)
    (stop : s.continues ('\n' :: after) = false) :
    Scan.of (s.text ++ '\r' :: '\n' :: after) =
      { tokens := (s.token? (1 + Text.lineFeeds s.text)).toList ++
          (Scan.of ('\r' :: '\n' :: after)).tokens.map (Token.lowered (Text.lineFeeds s.text))
        reports := (s.report? (1 + Text.lineFeeds s.text)).toList ++
          (Scan.of ('\r' :: '\n' :: after)).reports.map
            (Report.lowered (Text.lineFeeds s.text)) } := by
  have tiles : Tiles ('\n' :: after) [s] := ⟨shape, stop, trivial⟩
  have layout : Text.IsLayout ['\r'] := fun c hc => by rw [List.mem_singleton.mp hc]; rfl
  have put := Scan.of_insert_layout tiles layout (.inl (by decide))
  have none : Text.lineFeeds ['\r'] = 0 := rfl
  rw [Scan.of_return_lineFeed]
  simpa [tokensFrom_cons, reportsFrom_cons, none] using put

/-- **The first segment, and a scan of the rest, with carriage returns put in.** -/
theorem Scan.of_first_returned {s : Segment} {after : Text} (shape : s.Shape)
    (stop : s.continues after = false) :
    Scan.of (Text.returned (s.text ++ after)) =
      { tokens := ((s.token? (1 + Text.lineFeeds s.text)).map Token.returned).toList ++
          (Scan.of (Text.returned after)).tokens.map (Token.lowered (Text.lineFeeds s.text))
        reports := (s.report? (1 + Text.lineFeeds s.text)).toList ++
          (Scan.of (Text.returned after)).reports.map (Report.lowered (Text.lineFeeds s.text)) } := by
  by_cases feed : s = lineFeedSegment
  · subst feed
    show Scan.of ('\r' :: '\n' :: Text.returned after) = _
    rw [Scan.of_return_lineFeed]
    have stop' : lineFeedSegment.continues (Text.returned after) = false := rfl
    exact Scan.of_first shape stop'
  have shape' := shape.returned feed
  have lines : Text.lineFeeds s.returned.text = Text.lineFeeds s.text :=
    Text.lineFeeds_returned s.text
  rw [← shape.continues_returned feed] at stop
  rw [← shape.token?_returned, ← s.report?_returned, ← lines, Text.returned_append]
  show Scan.of (s.returned.text ++ Text.returned after) = _
  cases after with
  | nil => exact Scan.of_first shape' stop
  | cons c after =>
      rw [← s.returned.continues_cons_returned] at stop
      by_cases line : c = '\n'
      · subst line
        exact Scan.of_first_return shape' stop
      · rw [Text.returned_cons_other line]
        exact Scan.of_first shape' stop

/-- **Carriage returns in front of line feeds show in strings only.** -/
theorem scan_returned (source : Text) :
    Scan.of (Text.returned source) =
      { tokens := (Scan.of source).tokens.map Token.returned
        reports := (Scan.of source).reports } := by
  -- Each segment of the source is followed by a scan of the rest, with and without the returns.
  have tiles := tiles_segments source
  have whole := joined_segments source
  generalize segments source = segs at tiles whole
  subst whole
  induction segs with
  | nil =>
      rw [joined_nil]
      show Scan.of [] = _
      rw [Scan.of_eq, segments_nil]
      rfl
  | cons s segs ih =>
      obtain ⟨shape, stop, later⟩ := tiles_cons.mp tiles
      rw [List.append_nil] at stop
      rw [joined_cons, Scan.of_first_returned shape stop, Scan.of_first shape stop, ih later,
        List.map_append, List.map_map, List.map_map, Option.toList_map]
      rfl

end LoxLexis

import LoxLexis.Proofs.Scan.Lines
import LoxLexis.Proofs.Scan.Seams
import LoxLexis.Proofs.Scan.Spread

/-!
# Layout and comments

What is found in a source does not depend on the layout between its segments, nor on what its
comments say.  Layout put in at a head becomes segments of its own in most cases, and parts the
segments before it from those after it as the seam did before.  There are two segments that layout
can continue: a comment takes it in up to the next line feed, and a string that is never closed
takes in all of it.  Either segment is then longer and still read as before, as long as no line feed
gets into the string.

So in every case the pieces in front of the head are *read alike* afterwards, and what comes after
it is only lowered by the lines put in.

## Main definitions

* `ReadAlike` — segments with the same tokens, reports and number of line feeds
* `Widened` — segments in front of layout that have taken in a piece of it
* `IgnoresLayout` — a scan takes no notice of layout put in at a head, nor of the comment there

## Main statements

* `exists_widened` — segments in front of layout, the last of them widened by it if it goes on
* `Scan.of_insert_layout` — a scan of a text with layout put in where a tiling ends
* `Scan.of_replace_comment` — a comment in a source may say anything else
* `scan_ignores_layout` — layout and the text of comments are irrelevant
-/

namespace LoxLexis

/-! ### Segments that are read alike -/

/-- Segments that have the same tokens, the same reports and the same number of line feeds. -/
structure ReadAlike (segs segs' : List Segment) : Prop where
  tokens : ∀ line, tokensFrom line segs' = tokensFrom line segs
  reports : ∀ line, reportsFrom line segs' = reportsFrom line segs
  lineFeeds : Text.lineFeeds (joined segs') = Text.lineFeeds (joined segs)

namespace ReadAlike

theorem refl (segs : List Segment) : ReadAlike segs segs := ⟨fun _ => rfl, fun _ => rfl, rfl⟩

/-- Segments are read alike when only what is behind the same segments differs. -/
theorem append (done : List Segment) {segs segs' : List Segment} (h : ReadAlike segs segs') :
    ReadAlike (done ++ segs) (done ++ segs') := by
  refine ⟨fun line => ?_, fun line => ?_, ?_⟩
  · rw [tokensFrom_append, tokensFrom_append, h.tokens]
  · rw [reportsFrom_append, reportsFrom_append, h.reports]
  · rw [joined_append, joined_append, Text.lineFeeds_append, Text.lineFeeds_append, h.lineFeeds]

/-- A segment that is no token is read alike with more or less text on its lines. -/
theorem of_form {s s' : Segment} (form : s'.form = s.form) (none : ∀ kind, s.form ≠ .token kind)
    (lines : Text.lineFeeds s'.text = Text.lineFeeds s.text) : ReadAlike [s] [s'] := by
  have token (line : Int) : s'.token? line = s.token? line := by
    unfold Segment.token?
    rw [form]
    cases h : s.form with
    | token kind => exact absurd h (none kind)
    | _ => rfl
  have report (line : Int) : s'.report? line = s.report? line := by
    unfold Segment.report?
    rw [form]
  refine ⟨fun line => ?_, fun line => ?_, by simpa using lines⟩
  · rw [tokensFrom_cons, tokensFrom_cons, lines, token]
  · rw [reportsFrom_cons, reportsFrom_cons, lines, report]

end ReadAlike

/-- Nothing is read from layout. -/
theorem gather_blanks {α : Type} {read : Segment → Int → Option α}
    (nothing : ∀ s line, s.form = .layout → read s line = none) (line : Int) (t : Text) :
    gather read line (blanks t) = [] := by
  induction t generalizing line with
  | nil => rfl
  | cons c t ih =>
      show gather read line ({ text := [c], form := .layout } :: blanks t) = []
      rw [gather_cons, nothing _ _ rfl, ih]
      rfl

@[simp] theorem tokensFrom_blanks (line : Int) (t : Text) : tokensFrom line (blanks t) = [] := by
  refine gather_blanks (fun s line layout => ?_) line t
  rw [Segment.token?, layout]

@[simp] theorem reportsFrom_blanks (line : Int) (t : Text) : reportsFrom line (blanks t) = [] := by
  refine gather_blanks (fun s line layout => ?_) line t
  rw [Segment.report?, layout]

/-! ### Segments in front of layout -/

theorem Text.IsLayout.quote_notMem {w : Text} (layout : w.IsLayout) : Text.doubleQuote ∉ w := by
  intro h
  have := layout _ h
  simp [isLayout, Text.doubleQuote] at this

theorem Text.lineFeeds_eq_zero_iff {t : Text} : t.lineFeeds = 0 ↔ '\n' ∉ t := List.count_eq_zero

/-- What layout continues is no token. -/
theorem Segment.form_ne_token_of_continues {s : Segment} {c : Char} {after : Text}
    (hc : isLayout c = true) (goes : s.continues (c :: after) = true) (kind : Kind) :
    s.form ≠ .token kind := by
  rcases (continues_layout_iff hc after).mp goes with form | ⟨form, -, -⟩ <;> simp [form]

/-- A segment that layout continues takes it in, up to the next line feed. -/
theorem Segment.Shape.widened {s : Segment} (shape : s.Shape) {c : Char} {after : Text}
    (hc : isLayout c = true) (goes : s.continues (c :: after) = true) {u : Text}
    (layout : u.IsLayout) (line : '\n' ∉ u) : Segment.Shape { s with text := s.text ++ u } := by
  have noToken := form_ne_token_of_continues hc goes
  cases shape with
  | unterminated h =>
      refine .unterminated fun quote => ?_
      rcases List.mem_append.mp quote with quote | quote
      · exact h quote
      · exact layout.quote_notMem quote
  | lexeme h =>
      cases h with
      | comment h =>
          refine .lexeme (.comment fun feed => ?_)
          rcases List.mem_append.mp feed with feed | feed
          · exact h feed
          · exact line feed
      | blank h =>
          rw [continues_blank _ h] at goes
          cases goes
      | _ => exact absurd rfl (noToken _)
  | unexpected _ => cases goes

/-- More text in a segment that is no token does not change what continues it. -/
theorem Segment.continues_widened {s : Segment} (noToken : ∀ kind, s.form ≠ .token kind)
    (text : s.text ≠ []) (u after : Text) :
    continues { s with text := s.text ++ u } after = s.continues after := by
  have head : (s.text ++ u).head? = s.text.head? := by
    obtain ⟨c, t, ht⟩ := List.exists_cons_of_ne_nil text
    rw [ht]
    rfl
  unfold continues
  cases form : s.form with
  | token kind => exact absurd form (noToken kind)
  | layout => simp only [head]
  | unterminated => rfl
  | unexpected => rfl

/-- Segments in front of layout that have taken in a piece of it, and what is left of it. -/
structure Widened (done : List Segment) (w after : Text) (done' : List Segment) (w' : Text) :
    Prop where
  text : joined done' ++ w' = joined done ++ w
  layout : w'.IsLayout
  tiles : Tiles (w' ++ after) done'
  alike : ReadAlike done done'
  lineFeeds : w'.lineFeeds = w.lineFeeds

/-- A last segment that goes on is widened by the layout after it. -/
theorem exists_widened_last {init : List Segment} {s : Segment} {c : Char} {w after : Text}
    (tiles : Tiles after (init ++ [s])) (layout : Text.IsLayout (c :: w))
    (kept : '\n' ∉ c :: w ∨ s.form ≠ .unterminated)
    (goes : s.continues (c :: (w ++ after)) = true) :
    ∃ s' w', Widened (init ++ [s]) (c :: w) after (init ++ [s']) w' := by
  have hc := layout c List.mem_cons_self
  have noToken := Segment.form_ne_token_of_continues hc goes
  obtain ⟨front, shape, stop, -⟩ := tiles_append.mp tiles
  -- It takes in what comes before the first line feed, which is all if it is a string.
  obtain ⟨u, w', hw, hu, line⟩ := exists_run (· ≠ '\n') (c :: w)
  have whole : c :: (w ++ after) = u ++ (w' ++ after) := by
    rw [← List.cons_append, hw, List.append_assoc]
  rw [hw] at layout kept
  obtain ⟨front_layout, back_layout⟩ := List.forall_mem_append.mp layout
  have noFeed : '\n' ∉ u := fun feed => by simpa using hu _ feed
  have stop' : Segment.continues { s with text := s.text ++ u } (w' ++ after) = false := by
    rw [Segment.continues_widened noToken shape.ne_nil]
    cases w' with
    | nil => exact stop
    | cons d w' =>
        obtain rfl : d = '\n' := by simpa using line
        refine Bool.eq_false_iff.mpr fun goes' => ?_
        rcases (Segment.continues_layout_iff rfl _).mp goes' with unclosed | ⟨-, -, differs⟩
        · exact kept.elim (fun none => none (by simp)) (fun closed => closed unclosed)
        · exact differs rfl
  have front' : Tiles (joined [s] ++ c :: (w ++ after)) init :=
    front.of_append.append_layout (by simpa using shape.ne_nil) hc _
  have text : joined [s] ++ c :: (w ++ after) =
      joined [{ s with text := s.text ++ u }] ++ (w' ++ after) := by
    simp [whole]
  have feeds : Text.lineFeeds u = 0 := Text.lineFeeds_eq_zero_iff.mpr noFeed
  rw [text] at front'
  refine ⟨{ s with text := s.text ++ u }, w', ?_⟩
  exact {
    text := by simp [hw]
    layout := back_layout
    tiles := tiles_append.mpr ⟨front', shape.widened hc goes front_layout noFeed, stop', trivial⟩
    alike := .append init <| .of_form rfl noToken <| by
      rw [Text.lineFeeds_append, feeds, Nat.add_zero]
    lineFeeds := by rw [hw, Text.lineFeeds_append, feeds, Nat.zero_add] }

/-- **Segments in front of layout, the last of them widened by it if it goes on.** -/
theorem exists_widened {done : List Segment} {after w : Text} (tiles : Tiles after done)
    (layout : w.IsLayout) (kept : '\n' ∉ w ∨ ∀ s ∈ done, s.form ≠ .unterminated) :
    ∃ done' w', Widened done w after done' w' := by
  cases w with
  | nil => exact ⟨done, [], ⟨rfl, layout, tiles, .refl done, rfl⟩⟩
  | cons c w =>
      by_cases goes : ∃ s ∈ done.getLast?, s.continues (c :: (w ++ after)) = true
      · obtain ⟨s, last, goes⟩ := goes
        obtain ⟨init, rfl⟩ := List.getLast?_eq_some_iff.mp last
        obtain ⟨s', w', h⟩ :=
          exists_widened_last tiles layout (kept.imp_right fun closed => closed s (by simp)) goes
        exact ⟨init ++ [s'], w', h⟩
      · -- Nothing is taken in, and all of the layout is left.
        have front : Tiles [] done := @Tiles.of_append [] after done tiles
        refine ⟨done, c :: w, ⟨rfl, layout, ?_, .refl done, rfl⟩⟩
        refine front.before_layout (layout c List.mem_cons_self) fun s hs => ?_
        exact Bool.eq_false_iff.mpr fun h => goes ⟨s, hs, h⟩

/-! ### Scans of texts that are read alike -/

/-- A scan of a text depends on the segments in front only by what is read from them. -/
theorem Scan.of_readAlike {done done' : List Segment} {after : Text} (tiles : Tiles after done)
    (tiles' : Tiles after done') (alike : ReadAlike done done') :
    Scan.of (joined done' ++ after) = Scan.of (joined done ++ after) := by
  rw [Scan.of_append tiles, Scan.of_append tiles', alike.tokens, alike.reports, alike.lineFeeds]

/-- **A scan of a text with layout put in where a tiling ends.** -/
theorem Scan.of_insert_layout {done : List Segment} {after w : Text} (tiles : Tiles after done)
    (layout : w.IsLayout) (kept : '\n' ∉ w ∨ ∀ s ∈ done, s.form ≠ .unterminated) :
    Scan.of (joined done ++ (w ++ after)) =
      { tokens := tokensFrom 1 done ++ (Scan.of after).tokens.map
          (Token.lowered (Text.lineFeeds (joined done) + Text.lineFeeds w))
        reports := reportsFrom 1 done ++ (Scan.of after).reports.map
          (Report.lowered (Text.lineFeeds (joined done) + Text.lineFeeds w)) } := by
  obtain ⟨done', w', widened⟩ := exists_widened tiles layout kept
  have front : Tiles (joined (blanks w') ++ after) done' := by
    rw [joined_blanks]
    exact widened.tiles
  have parted : Tiles after (done' ++ blanks w') :=
    tiles_append.mpr ⟨front, tiles_blanks widened.layout after⟩
  have whole : joined done ++ (w ++ after) = joined (done' ++ blanks w') ++ after := by
    rw [joined_append, joined_blanks, widened.text, List.append_assoc]
  have lines : (Text.lineFeeds (joined (done' ++ blanks w')) : Int) =
      Text.lineFeeds (joined done) + Text.lineFeeds w := by
    rw [joined_append, joined_blanks, Text.lineFeeds_append, widened.alike.lineFeeds,
      widened.lineFeeds, Int.natCast_add]
  rw [whole, Scan.of_append parted, lines, tokensFrom_append, reportsFrom_append,
    widened.alike.tokens, widened.alike.reports, tokensFrom_blanks, reportsFrom_blanks,
    List.append_nil, List.append_nil]

/-! ### Layout at the heads of a scan -/

/-- A source ends in a string that is never closed: there is no other place for one. -/
def EndsUnclosed (source : Text) : Prop :=
  ∃ r ∈ (Scan.of source).reports, r.message = unterminatedString

/-- A scan takes no notice of layout put in at one of its heads, nor of what a comment there
says. -/
structure IgnoresLayout (source : Text) (a : Scanner) (k : List Report) : Prop where
  /-- Blanks put in change nothing. -/
  blanks : ∀ w : Text, (∀ c ∈ w, c = ' ' ∨ c = '\t' ∨ c = '\r') →
    Scan.of (source.take a.current ++ w ++ source.drop a.current) = Scan.of source
  /-- With line feeds put in, what is found before stays and what is found later is lowered; they
  must not get into a string that is never closed. -/
  lineFeeds : ∀ w : Text, w.IsLayout → ¬(a.current = source.length ∧ EndsUnclosed source) →
    ∃ tokens reports,
      Scan.of source = { tokens := a.tokens ++ tokens, reports := k ++ reports } ∧
      Scan.of (source.take a.current ++ w ++ source.drop a.current) =
        { tokens := a.tokens ++ tokens.map (Token.lowered (Text.lineFeeds w))
          reports := k ++ reports.map (Report.lowered (Text.lineFeeds w)) }
  /-- A comment that comes next may say anything else on its line. -/
  comment : ∀ t v : Text, a.rest = '/' :: '/' :: t → '\n' ∉ v →
    Scan.of (source.take a.current ++ '/' :: '/' :: v ++ source.drop a.next.1.current) =
      Scan.of source

/-- A string that is never closed is in front of the end of its source only. -/
theorem closed_of_not_endsUnclosed {source : Text} {done later : List Segment}
    (h : segments source = done ++ later)
    (inside : ¬((joined done).length = source.length ∧ EndsUnclosed source)) :
    ∀ s ∈ done, s.form ≠ .unterminated := by
  intro s hs form
  have mem : s ∈ segments source := by rw [h]; exact List.mem_append_left _ hs
  have unclosed : EndsUnclosed source := Classical.byContradiction fun closed =>
    closed_of_reports (fun r hr hm => closed ⟨r, hr, hm⟩) s mem form
  obtain ⟨before, between, rfl⟩ := List.append_of_mem hs
  have split : segments source = before ++ s :: (between ++ later) := by rw [h]; simp
  have front := joined_eq_of_unterminated split form
  have whole : source = joined (before ++ s :: between) ++ joined later := by
    rw [← joined_append, ← h, joined_segments]
  refine inside ⟨?_, unclosed⟩
  have short := congrArg List.length front
  have long := congrArg List.length whole
  simp only [joined_append, joined_cons, joined_nil, List.length_append, List.length_nil]
    at short long ⊢
  omega

/-- The segment of a comment, given the text after its slashes. -/
def commentSegment (t : Text) : Segment where
  text := '/' :: '/' :: t
  form := .layout

/-- Where two slashes come next, the next segment is a comment. -/
theorem exists_eq_commentSegment {s : Segment} {after t : Text} (shape : s.Shape)
    (stop : s.continues after = false) (h : s.text ++ after = '/' :: '/' :: t) :
    ∃ u, '\n' ∉ u ∧ s = commentSegment u := by
  refine ⟨commentTail t, fun feed => ?_, (Segment.first_eq_of_shape shape stop h).symm⟩
  simpa using List.all_eq_true.mp List.all_takeWhile _ feed

/-- **A comment in a source may say anything else on its line.** -/
theorem Scan.of_replace_comment {source : Text} {done later : List Segment} {u v : Text}
    (h : segments source = done ++ commentSegment u :: later) (line : '\n' ∉ u) (line' : '\n' ∉ v) :
    Scan.of (joined done ++ '/' :: '/' :: v ++ joined later) = Scan.of source := by
  obtain ⟨front, -, -⟩ := tiles_of_segments_eq_append h
  obtain ⟨shape, stop, whole⟩ := shape_of_segments_eq_append h
  have stop' : (commentSegment v).continues (joined later) = false := by
    rw [commentSegment, Segment.continues_comment] at stop ⊢
    exact stop
  -- What stands before the comment sees its two slashes and no more.
  have slashes : (joined (commentSegment u :: later)).take 2 =
      (joined [commentSegment v] ++ joined later).take 2 := rfl
  have front' := front.congr slashes
  have tiles : Tiles (joined later) (done ++ [commentSegment u]) :=
    tiles_append.mpr ⟨by simpa using front, shape, stop, trivial⟩
  have tiles' : Tiles (joined later) (done ++ [commentSegment v]) :=
    tiles_append.mpr ⟨front', .lexeme (.comment line'), stop', trivial⟩
  have alike : ReadAlike (done ++ [commentSegment u]) (done ++ [commentSegment v]) := by
    refine .append done (.of_form rfl (fun kind => by simp [commentSegment]) ?_)
    have noFeed (t : Text) (ht : '\n' ∉ t) : Text.lineFeeds (commentSegment t).text = 0 :=
      Text.lineFeeds_eq_zero_iff.mpr (by simp [commentSegment, ht])
    rw [noFeed u line, noFeed v line']
  have same := Scan.of_readAlike tiles tiles' alike
  simp only [joined_append, joined_cons, joined_nil, List.append_nil, List.append_assoc] at same
  rw [← whole] at same
  rw [List.append_assoc]
  exact same

/-- **Layout and the text of comments are irrelevant.** -/
theorem scan_ignores_layout (source : Text) (a : Scanner) (k : List Report)
    (head : Scan.Head Reporter.keep source [] a k) : IgnoresLayout source a k := by
  obtain ⟨done, later, hsegs, rfl, rfl⟩ := (Scan.head_iff Reporter.keep_quiet).mp head
  obtain ⟨tiles, -, whole⟩ := tiles_of_segments_eq_append hsegs
  have parted := Scan.of_append tiles
  rw [← whole] at parted
  refine ⟨fun w hw => ?_, fun w layout inside => ?_, fun t v slashes line => ?_⟩
  · have layout : w.IsLayout := fun c hc => by rcases hw c hc with rfl | rfl | rfl <;> rfl
    have none : '\n' ∉ w := fun feed => by simpa using hw _ feed
    rw [take_past hsegs, drop_past hsegs, List.append_assoc,
      Scan.of_insert_layout tiles layout (.inl none), Text.lineFeeds_eq_zero_iff.mpr none]
    simpa using parted.symm
  · rw [Scanner.new_past_current] at inside
    have closed := closed_of_not_endsUnclosed hsegs inside
    rw [take_past hsegs, drop_past hsegs, List.append_assoc,
      Scan.of_insert_layout tiles layout (.inr closed), Scanner.past_tokens, Reporter.after_keep]
    refine ⟨_, _, parted, ?_⟩
    rw [List.map_map, List.map_map, Token.lowered_comp, Report.lowered_comp]
    rfl
  · have rest : joined later = '/' :: '/' :: t :=
      (Scanner.rest_past (s := Scanner.new source) whole).symm.trans slashes
    cases later with
    | nil => cases rest
    | cons s later =>
        obtain ⟨shape, stop, -⟩ := shape_of_segments_eq_append hsegs
        obtain ⟨u, line', rfl⟩ := exists_eq_commentSegment shape stop rest
        have next : segments source = (done ++ [commentSegment u]) ++ later :=
          hsegs.trans (List.append_cons done _ later)
        rw [take_past hsegs, next_past hsegs, drop_past next]
        exact Scan.of_replace_comment hsegs line' line

/-- The number stops before the point, and the point before the comment. -/
theorem scan_ignores_layout_comment :
    ∃ a k, (Scan.Head Reporter.keep "12.// a\n\"".toList [] a k ∧
        a.rest = '/' :: '/' :: " a\n\"".toList ∧
        ¬(a.current = "12.// a\n\"".toList.length ∧ EndsUnclosed "12.// a\n\"".toList)) ∧
      IgnoresLayout "12.// a\n\"".toList a k := by
  have number : Scan.Head Reporter.keep "12.// a\n\"".toList []
      (Scanner.new "12.// a\n\"".toList).restarted.next.1 [] :=
    .next .here (by decide +kernel) (by decide +kernel)
  have point : Scan.Head Reporter.keep "12.// a\n\"".toList []
      (Scanner.new "12.// a\n\"".toList).restarted.next.1.next.1 [] :=
    .next number (by decide +kernel) (by decide +kernel)
  refine ⟨_, _, ⟨point, by decide +kernel, fun inside => ?_⟩,
    scan_ignores_layout "12.// a\n\"".toList _ _ point⟩
  exact absurd inside.1 (by decide +kernel)

end LoxLexis

import LoxLexis.Proofs.Token.Word
import LoxLexis.Session.Sink
import LoxLexis.Scanner.Operation
import Mathlib.Data.List.Infix

/-!
# Scans by single steps

A reporter that objects ends a complete scan where it stands.  Nothing is lost by that: the text in
error is behind the scanner by then, and the scanner is at a head.  So whoever drives the scanner by
single steps, and goes on after every objection, comes by the same scanners as a complete scan that
meets none, makes the same reports and finds the same tokens; and a scan that was stopped can be
taken to its end in this way.

## One course for both

A *course* lists the scanners from the beginning of a source to its end, each with the reports made
by then.  `Scanner.course` reads it off the segments, and `walk_eq` shows that a walk by single
steps takes it whatever the reporter does.  An objection cuts a course between two neighbours, and
`course_append_cons` says what is on either side of the cut.

## Main definitions

* `Scanner.walk` — single steps to the end of the source, objections set aside
* `Scanner.course` — the scanners past each piece of some segments, with the reports made by then
* `StopsBetween` — a complete scan stopped by an objection
* `TakesCourse` — what a walk and a complete scan have in common

## Main statements

* `Scanner.walk_eq` — a walk takes the course of the segments, and no fault ends it
* `walk_retraces_scan` — a walk goes where a complete scan goes, and a stopped scan goes on there
-/

namespace LoxLexis

variable {σ ε τ δ : Type}

/-- What a scanner goes through that is driven by single steps. -/
structure Walk (σ : Type) where
  /-- The scanner before each step and after the last one, with the state of the reporter. -/
  stops : List (Scanner × σ)
  /-- What ends the walk before the end of the source, if anything does. -/
  fault : Option Fault

namespace Scanner

/-- Take segments by single steps up to the end of the source, whatever the reporter objects. -/
def walk (reporter : Reporter σ ε) (s : Scanner) (sink : σ) : Walk σ :=
  if _ : s.atEnd then { stops := [(s, sink)], fault := none }
  else
    let step := Operation.next.perform reporter s sink
    match step.result with
    | .error (.fault fault) =>
      { stops := [(s, sink), (step.scanner, step.sink)], fault := some fault }
    -- An objection is caught, and the next step is taken all the same.
    | _ =>
      let walked := walk reporter step.scanner step.sink
      { walked with stops := (s, sink) :: walked.stops }
termination_by s.source.length - s.current
decreasing_by
  have before : s.current < s.source.length := by simp_all [atEnd]
  have := lt_next_current before
  show s.next.1.source.length - s.next.1.current < _
  rw [next_source]
  omega

theorem walk_of_atEnd (reporter : Reporter σ ε) {s : Scanner} (sink : σ) (h : s.rest = []) :
    s.walk reporter sink = { stops := [(s, sink)], fault := none } := by
  have ended : s.atEnd = true := by simpa [atEnd, rest] using h
  rw [walk, dif_pos ended]

/-- A single step past a segment, with what the reporter makes of it. -/
theorem perform_next (reporter : Reporter σ ε) {s : Scanner} (sink : σ) {seg : Segment}
    {after : Text} (shape : seg.Shape) (stop : seg.continues after = false)
    (h : s.rest = seg.text ++ after) :
    Operation.next.perform reporter s sink =
      { scanner := s.pastOne seg
        sink := reporter.after sink (seg.report? (s.line + Text.lineFeeds seg.text)).toList
        result := (((seg.report? (s.line + Text.lineFeeds seg.text)).bind
          fun r => (reporter sink r).2).map Failure.objection).elim (.ok .nothing) .error } := by
  show Operation.signalled reporter sink s.next = _
  rw [next_eq shape stop h, Operation.signalled, reporter.hear_signal]

/-- A walk goes on past every segment. -/
theorem walk_of_rest (reporter : Reporter σ ε) {s : Scanner} (sink : σ) {seg : Segment}
    {after : Text} (shape : seg.Shape) (stop : seg.continues after = false)
    (h : s.rest = seg.text ++ after) :
    s.walk reporter sink =
      { (s.pastOne seg).walk reporter
          (reporter.after sink (seg.report? (s.line + Text.lineFeeds seg.text)).toList) with
        stops := (s, sink) :: ((s.pastOne seg).walk reporter
          (reporter.after sink (seg.report? (s.line + Text.lineFeeds seg.text)).toList)).stops } := by
  have before : ¬ s.atEnd = true := by
    simpa [atEnd] using current_lt_of_rest shape h
  rw [walk, dif_neg before, perform_next reporter sink shape stop h]
  -- What the reporter says to the step is nothing or an objection, and both are passed over.
  cases ((seg.report? (s.line + Text.lineFeeds seg.text)).bind fun r => (reporter sink r).2) with
  | none => rfl
  | some objection => rfl

/-! ### Courses -/

/-- The scanners past each piece of some segments, with the reports made by then. -/
def course (s : Scanner) (segs : List Segment) : List (Scanner × List Report) :=
  segs.inits.map fun done => (s.past done, reportsFrom s.line done)

theorem mem_course_iff {s t : Scanner} {segs : List Segment} {reports : List Report} :
    (t, reports) ∈ s.course segs ↔
      ∃ done later, segs = done ++ later ∧ t = s.past done ∧ reports = reportsFrom s.line done := by
  constructor
  · intro h
    obtain ⟨done, hdone, hstop⟩ := List.mem_map.mp h
    obtain ⟨later, rfl⟩ := (List.mem_inits done segs).mp hdone
    obtain ⟨rfl, rfl⟩ := Prod.mk.inj hstop
    exact ⟨done, later, rfl, rfl, rfl⟩
  · rintro ⟨done, later, rfl, rfl, rfl⟩
    exact List.mem_map.mpr ⟨done, (List.mem_inits done _).mpr (List.prefix_append _ _), rfl⟩

/-- A course begins where its scanner is and goes on past the first segment. -/
theorem course_cons (s : Scanner) (seg : Segment) (segs : List Segment) :
    s.course (seg :: segs) =
      (s, []) :: ((s.pastOne seg).course segs).map fun stop =>
        (stop.1, (seg.report? (s.line + Text.lineFeeds seg.text)).toList ++ stop.2) := by
  rw [course, List.inits_cons, List.map_cons, List.map_map, course, List.map_map]
  rfl

/-- **A course parted at a segment.** -/
theorem course_append_cons (s : Scanner) (done : List Segment) (seg : Segment)
    (later : List Segment) :
    ∃ earlier, s.course (done ++ seg :: later) =
      earlier ++ (s.past done, reportsFrom s.line done) ::
        ((s.past (done ++ [seg])).course later).map fun stop =>
          (stop.1, reportsFrom s.line (done ++ [seg]) ++ stop.2) := by
  induction done generalizing s with
  | nil =>
      refine ⟨[], ?_⟩
      simp only [List.nil_append, course_cons, reportsFrom_cons, reportsFrom_nil, List.append_nil]
      rfl
  | cons first done ih =>
      obtain ⟨earlier, h⟩ := ih (s.pastOne first)
      refine ⟨(s, []) :: earlier.map fun stop =>
        (stop.1, (first.report? (s.line + Text.lineFeeds first.text)).toList ++ stop.2), ?_⟩
      rw [List.cons_append, course_cons, h, List.map_append, List.map_cons, List.map_map]
      simp only [Function.comp_def, ← List.append_assoc]
      rfl

/-- A course ends past all segments, with all reports made. -/
theorem exists_course_eq_concat (s : Scanner) (segs : List Segment) :
    ∃ earlier, s.course segs = earlier ++ [(s.past segs, reportsFrom s.line segs)] := by
  induction segs generalizing s with
  | nil => exact ⟨[], rfl⟩
  | cons seg segs ih =>
      obtain ⟨earlier, h⟩ := ih (s.pastOne seg)
      refine ⟨(s, []) :: earlier.map fun stop =>
        (stop.1, (seg.report? (s.line + Text.lineFeeds seg.text)).toList ++ stop.2), ?_⟩
      rw [course_cons, h, List.map_append]
      rfl

/-- The position grows along a course. -/
theorem course_forward {s : Scanner} {segs : List Segment} (shapes : ∀ seg ∈ segs, seg.Shape) :
    (s.course segs).Pairwise fun a b => a.1.current < b.1.current := by
  induction segs generalizing s with
  | nil => exact List.pairwise_singleton _ _
  | cons seg segs ih =>
      obtain ⟨shape, shapes⟩ := List.forall_mem_cons.mp shapes
      have one : 0 < seg.text.length := List.length_pos_iff.mpr shape.ne_nil
      rw [course_cons]
      refine List.pairwise_cons.mpr ⟨?_, List.pairwise_map.mpr (ih shapes)⟩
      intro stop hstop
      obtain ⟨⟨t, reports⟩, ht, rfl⟩ := List.mem_map.mp hstop
      obtain ⟨done, later, -, rfl, -⟩ := mem_course_iff.mp ht
      show s.current < ((s.pastOne seg).past done).current
      have first : (s.pastOne seg).current = s.current + seg.text.length := rfl
      rw [past_current, first]
      omega

/-- **A walk takes the course of the segments, and no fault ends it.** -/
theorem walk_eq (reporter : Reporter σ ε) (s : Scanner) (sink : σ) :
    s.walk reporter sink =
      { stops := (s.course (segments s.rest)).map fun stop => (stop.1, reporter.after sink stop.2)
        fault := none } := by
  -- The induction is on the segments: each is one step of the walk, and the rest tile the rest.
  have tiles := tiles_segments s.rest
  have whole := (joined_segments s.rest).symm
  generalize segments s.rest = segs at tiles whole ⊢
  induction segs generalizing s sink with
  | nil => exact walk_of_atEnd reporter sink whole
  | cons seg segs ih =>
      obtain ⟨shape, stop, tiles⟩ := tiles_cons.mp tiles
      rw [List.append_nil] at stop
      rw [joined_cons] at whole
      rw [walk_of_rest reporter sink shape stop whole, ih _ _ tiles (rest_pastOne whole),
        course_cons, List.map_cons, List.map_map]
      simp only [Function.comp_def, reporter.after_append]
      rfl

end Scanner

/-! ### Complete scans and walks -/

/-- No segment is the end of the file. -/
theorem kind_ne_endOfFile_of_mem_tokensFrom {line : Int} {segs : List Segment}
    (shapes : ∀ seg ∈ segs, seg.Shape) : ∀ tok ∈ tokensFrom line segs, tok.kind ≠ .endOfFile := by
  intro tok htok
  obtain ⟨before, after, h⟩ := List.append_of_mem htok
  obtain ⟨done, seg, later, rfl, -, hit⟩ := gather_eq_append_cons _ h
  obtain ⟨form, -, -⟩ := Segment.token?_eq_some hit
  have lexeme := (shapes seg (by simp)).lexeme_of_token form
  exact (Word.mk tok.kind seg.text lexeme).kind_ne_endOfFile

/-- A segment that gives rise to a report is no token. -/
theorem Segment.token?_of_report? {s : Segment} {line line' : Int} {r : Report}
    (h : s.report? line = some r) : s.token? line' = none := by
  unfold Segment.report? at h
  unfold Segment.token?
  split at h
  · next hf => rw [hf]
  · next hf => rw [hf]
  · cases h

/-- The reports up to a segment that gives rise to one. -/
theorem reportsFrom_concat {line : Int} {done : List Segment} {seg : Segment} {r : Report}
    (hr : seg.report? (line + Text.lineFeeds (joined (done ++ [seg]))) = some r) :
    reportsFrom line (done ++ [seg]) = reportsFrom line done ++ [r] := by
  have ends : line + Text.lineFeeds (joined done) + Text.lineFeeds seg.text =
      line + Text.lineFeeds (joined (done ++ [seg])) := by
    simp [Int.add_assoc]
  rw [reportsFrom_append, reportsFrom_cons, ends, hr]
  rfl

/-- A complete scan stopped by an objection between two neighbours of its course. -/
structure StopsBetween (reporter : Reporter σ ε) (s : Scanner) (sink : σ) (before : List Report)
    (r : Report) (objection : ε) (t t' : Scanner) (rest : List (Scanner × List Report)) :
    Prop where
  /-- The step from the one to the other makes the report. -/
  step : t.next = (t', .report r)
  /-- The scan answers the objection, and leaves the scanner past the text in error and the
  reporter after the reports up to this one. -/
  stopped : s.scan reporter sink =
    { scanner := t'
      sink := reporter.after sink (before ++ [r])
      result := .error (.objection objection) }
  /-- The scanner holds the tokens in front of the text in error, and none for the end. -/
  tokens : t'.tokens = t.tokens ∧ ∀ tok ∈ t'.tokens, tok.kind ≠ .endOfFile
  /-- The text in error lies between start and position, and the report has the line. -/
  place : t'.start = t.current ∧ t.current < t'.current ∧ t'.line = r.line
  /-- Single steps take the rest of the course from there, whatever reporter hears of it. -/
  resumed : ∀ {τ δ : Type} (other : Reporter τ δ) (k : τ),
    t'.walk other k =
      { stops := rest.map fun stop => (stop.1, other.after k stop.2), fault := none }

/-- A walk by single steps from the beginning of a source, whose reporter may object, and a
complete scan, whose reporter does not, take the same course.  A new scanner needs no restart: it is
its own. -/
structure TakesCourse (reporter : Reporter σ ε) (quiet : Reporter τ δ) (s : Scanner) (sink : σ)
    (sink' : τ) (course : List (Scanner × List Report)) : Prop where
  /-- The walk stops at the scanners of the course, and no fault ends it. -/
  walk : s.restarted.walk reporter sink =
    { stops := course.map fun stop => (stop.1, reporter.after sink stop.2), fault := none }
  /-- They are the heads of the complete scan, with the same reports made by then. -/
  heads : ∀ t k, Scanner.Head quiet s.restarted sink' t k ↔
    ∃ reports, (t, reports) ∈ course ∧ k = quiet.after sink' reports
  /-- Both go through them from the front to the back. -/
  forward : course.Pairwise fun a b => a.1.current < b.1.current
  /-- At the end of the course the complete scan adds a token for the end of the file. -/
  closed : ∃ earlier t, course = earlier ++ [(t, (Scan.of s.source).reports)] ∧
    s.scan quiet sink' =
      { scanner := t.closed
        sink := quiet.after sink' (Scan.of s.source).reports
        result := .ok (t.tokens ++ [Token.endOfFile t.line]) }
  /-- A complete scan whose reporter objects first to some report stops in the course. -/
  objection : ∀ before r later objection, (Scan.of s.source).reports = before ++ r :: later →
    reporter.Accepts sink before → (reporter (reporter.after sink before) r).2 = some objection →
    ∃ earlier t t' rest,
      course = earlier ++ (t, before) :: rest.map (fun stop => (stop.1, before ++ r :: stop.2)) ∧
      StopsBetween reporter s sink before r objection t t' rest

/-- A scan stopped by an objection to the report of a segment. -/
theorem stopsBetween_of_segment {reporter : Reporter σ ε} {s : Scanner} {sink : σ} {r : Report}
    {objection : ε} {done later : List Segment} {seg : Segment}
    (hsegs : segments s.source = done ++ seg :: later)
    (hr : seg.report? (1 + Text.lineFeeds (joined (done ++ [seg]))) = some r)
    (accepts : reporter.Accepts sink (reportsFrom 1 done))
    (objects : (reporter (reporter.after sink (reportsFrom 1 done)) r).2 = some objection) :
    StopsBetween reporter s sink (reportsFrom 1 done) r objection (s.restarted.past done)
      (s.restarted.past (done ++ [seg])) ((s.restarted.past (done ++ [seg])).course later) := by
  obtain ⟨shape, stop, whole⟩ := shape_of_segments_eq_append hsegs
  have shapes := (tiles_segments s.source).shape
  have hsegs' : segments s.source = (done ++ [seg]) ++ later :=
    hsegs.trans (List.append_cons done seg later)
  obtain ⟨-, back, whole'⟩ := tiles_of_segments_eq_append hsegs'
  have hpast : (s.restarted.past done).rest = seg.text ++ joined later :=
    Scanner.rest_past ((s.rest_restarted).trans whole)
  have hpast' : (s.restarted.past (done ++ [seg])).rest = joined later :=
    Scanner.rest_past ((s.rest_restarted).trans whole')
  have line : (s.restarted.past done).line + Text.lineFeeds seg.text =
      1 + Text.lineFeeds (joined (done ++ [seg])) := by
    simp [Scanner.restarted, Int.add_assoc]
  have hnext : (s.restarted.past done).next = (s.restarted.past (done ++ [seg]), .report r) := by
    rw [Scanner.next_eq shape stop hpast, line, Segment.signal, hr, Scanner.past_append]
    rfl
  refine ⟨hnext, ?_, ⟨?_, ?_⟩, ⟨?_, ?_, ?_⟩, fun other k => ?_⟩
  · have ran := Scanner.run_of_objection (s := s.restarted) (by rw [s.rest_restarted, hsegs])
      accepts hr objects
    rw [Scanner.scan, ran]
    rfl
  · rw [Scanner.past_append, Scanner.past_cons, Scanner.past_nil, Scanner.pastOne,
      Segment.token?_of_report? hr]
    exact List.append_nil _
  · rw [Scanner.past_tokens]
    refine kind_ne_endOfFile_of_mem_tokensFrom fun seg' h => shapes seg' ?_
    rw [hsegs']
    exact List.mem_append_left later h
  · rw [Scanner.past_append]
    rfl
  · have one : 0 < seg.text.length := List.length_pos_iff.mpr shape.ne_nil
    rw [Scanner.past_current, Scanner.past_current, joined_append, List.length_append, joined_cons,
      joined_nil, List.append_nil]
    omega
  · rw [(Segment.report?_eq_some hr).1, Scanner.past_line]
    rfl
  · rw [Scanner.walk_eq, hpast', back]

/-- **A walk by single steps retraces a complete scan, and a scan stopped by an objection goes on
there.** -/
theorem walk_retraces_scan (reporter : Reporter σ ε) (quiet : Reporter τ δ)
    (never : quiet.Quiet) (s : Scanner) (sink : σ) (sink' : τ) :
    ∃ course, TakesCourse reporter quiet s sink sink' course := by
  have reports : (Scan.of s.source).reports = reportsFrom 1 (segments s.source) := by
    rw [Scan.of_eq]
  refine ⟨s.restarted.course (segments s.source), ?_, fun t k => ?_, ?_, ?_, ?_⟩
  · rw [Scanner.walk_eq, s.rest_restarted]
  · rw [Scanner.head_iff never, s.rest_restarted]
    constructor
    · rintro ⟨done, later, hsegs, rfl, rfl⟩
      exact ⟨_, Scanner.mem_course_iff.mpr ⟨done, later, hsegs, rfl, rfl⟩, rfl⟩
    · rintro ⟨reports, hstop, rfl⟩
      obtain ⟨done, later, hsegs, rfl, rfl⟩ := Scanner.mem_course_iff.mp hstop
      exact ⟨done, later, hsegs, rfl, rfl⟩
  · exact Scanner.course_forward (tiles_segments s.source).shape
  · obtain ⟨earlier, last⟩ := s.restarted.exists_course_eq_concat (segments s.source)
    refine ⟨earlier, s.restarted.past (segments s.source), ?_, ?_⟩
    · rw [last, reports]
      rfl
    · rw [Scanner.scan_eq never, reports, Scanner.past_tokens, Scanner.past_line, joined_segments]
      rfl
  · intro before r later objection split accepts objects
    rw [reports] at split
    obtain ⟨done, seg, after, hsegs, rfl, hr⟩ := gather_eq_append_cons _ split
    obtain ⟨earlier, parted⟩ := s.restarted.course_append_cons done seg after
    have made : reportsFrom s.restarted.line (done ++ [seg]) = reportsFrom 1 done ++ [r] :=
      reportsFrom_concat hr
    refine ⟨earlier, _, _, _, ?_, stopsBetween_of_segment hsegs hr accepts objects⟩
    rw [hsegs, parted, made]
    simp only [List.append_assoc, List.singleton_append]
    rfl

/-- A fuse for one report objects to the second of three, which is made on the second line; the
third is made of a string over two lines that is never closed. -/
theorem walk_retraces_scan_fuse :
    Reporter.keep.Quiet ∧
      ∃ course, TakesCourse Sink.receive Reporter.keep (Scanner.new "1@\n+ # 2\"a\nb".toList)
          (Sink.empty (.fuse 1)) [] course ∧
        ∃ earlier t t' rest,
          course = earlier ++ (t, [⟨1, unexpectedCharacter⟩]) :: rest.map (fun stop =>
            (stop.1, [⟨1, unexpectedCharacter⟩] ++ ⟨2, unexpectedCharacter⟩ :: stop.2)) ∧
          StopsBetween Sink.receive (Scanner.new "1@\n+ # 2\"a\nb".toList) (Sink.empty (.fuse 1))
            [⟨1, unexpectedCharacter⟩] ⟨2, unexpectedCharacter⟩ ⟨⟨2, unexpectedCharacter⟩⟩ t t'
            rest := by
  have made : (Scan.of "1@\n+ # 2\"a\nb".toList).reports =
      [⟨1, unexpectedCharacter⟩] ++ ⟨2, unexpectedCharacter⟩ :: [⟨3, unterminatedString⟩] := by
    decide +kernel
  obtain ⟨course, takes⟩ := walk_retraces_scan Sink.receive Reporter.keep Reporter.keep_quiet
    (Scanner.new "1@\n+ # 2\"a\nb".toList) (Sink.empty (.fuse 1)) []
  exact ⟨Reporter.keep_quiet, course, takes,
    takes.objection _ _ _ ⟨⟨2, unexpectedCharacter⟩⟩ made ⟨rfl, trivial⟩ rfl⟩

end LoxLexis

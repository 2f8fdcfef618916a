import LoxLexis.Proofs.Segment.Reading
import LoxLexis.Scanner.Scan

/-!
# Runs and their heads

A run looks for the next segment again and again; the scanners at which it does so are its heads.
They are not defined by running the scanner segment after segment a second time: `Scanner.past`
computes a head from the segments behind it, and `head_iff` shows that the heads of a run are what
it computes from the pieces its segments can be parted into.  With the segments of a text known,
nothing about a run is left to be found out by going through it.

## Main definitions

* `Reporter.Quiet` — a reporter that never objects
* `Reporter.Accepts` — a reporter that does not object to some reports, heard one after the other
* `Reporter.after` — the state of a reporter that has heard some reports
* `Scanner.past` — a scanner that has taken some segments
* `Scanner.Head` — the scanners at which a run looks for the next segment, each with the state the
  reporter is in by then

## Main statements

* `Scanner.next_eq` — the next segment moves the scanner past itself
* `Scanner.run_of_accepts` — a run that meets no objection takes the segments up to the end
* `Scanner.run_of_objection` — a run that meets one stops past the segment in question
* `Scanner.head_iff` — the heads of such a run are the scanners past a piece of its segments
* `Scanner.Head.run_eq` — from a head on a run goes its way
-/

namespace LoxLexis

variable {σ ε : Type}

/-- A reporter that never objects. -/
def Reporter.Quiet (reporter : Reporter σ ε) : Prop := ∀ sink r, (reporter sink r).2 = none

/-- A reporter that objects to none of some reports when it hears them one after the other. -/
def Reporter.Accepts (reporter : Reporter σ ε) : σ → List Report → Prop
  | _, [] => True
  | sink, r :: reports => (reporter sink r).2 = none ∧ reporter.Accepts (reporter sink r).1 reports

/-- The state of a reporter that has heard some reports. -/
def Reporter.after (reporter : Reporter σ ε) (sink : σ) (reports : List Report) : σ :=
  reports.foldl (fun sink r => (reporter sink r).1) sink

theorem Reporter.keep_quiet : Reporter.keep.Quiet := fun _ _ => rfl

@[simp] theorem Reporter.after_nil (reporter : Reporter σ ε) (sink : σ) :
    reporter.after sink [] = sink := rfl

theorem Reporter.after_append (reporter : Reporter σ ε) (sink : σ) (reports reports' : List Report) :
    reporter.after sink (reports ++ reports') = reporter.after (reporter.after sink reports) reports' :=
  List.foldl_append

/-- The reporter that keeps every report holds what it has heard. -/
@[simp] theorem Reporter.after_keep (sink reports : List Report) :
    Reporter.keep.after sink reports = sink ++ reports := by
  induction reports generalizing sink with
  | nil => simp
  | cons r reports ih =>
      show Reporter.keep.after (sink ++ [r]) reports = _
      rw [ih, List.append_assoc, List.singleton_append]

@[simp] theorem Reporter.accepts_nil (reporter : Reporter σ ε) (sink : σ) :
    reporter.Accepts sink [] := trivial

theorem Reporter.accepts_cons {reporter : Reporter σ ε} {sink : σ} {r : Report}
    {reports : List Report} :
    reporter.Accepts sink (r :: reports) ↔
      (reporter sink r).2 = none ∧ reporter.Accepts (reporter sink r).1 reports := Iff.rfl

theorem Reporter.accepts_append {reporter : Reporter σ ε} {sink : σ}
    {reports reports' : List Report} :
    reporter.Accepts sink (reports ++ reports') ↔
      reporter.Accepts sink reports ∧ reporter.Accepts (reporter.after sink reports) reports' := by
  induction reports generalizing sink with
  | nil => simp
  | cons r reports ih =>
      rw [List.cons_append, accepts_cons, accepts_cons, ih, and_assoc]
      rfl

theorem Reporter.Quiet.accepts {reporter : Reporter σ ε} (quiet : reporter.Quiet) (sink : σ)
    (reports : List Report) : reporter.Accepts sink reports := by
  induction reports generalizing sink with
  | nil => trivial
  | cons r reports ih => exact ⟨quiet sink r, ih _⟩

/-- **A reporter objects to none of some reports, or there is a first one that it objects to.** -/
theorem Reporter.accepts_or_objects (reporter : Reporter σ ε) (sink : σ) (reports : List Report) :
    reporter.Accepts sink reports ∨
      ∃ before r later objection, reports = before ++ r :: later ∧ reporter.Accepts sink before ∧
        (reporter (reporter.after sink before) r).2 = some objection := by
  induction reports generalizing sink with
  | nil => exact .inl trivial
  | cons r reports ih =>
      cases heard : (reporter sink r).2 with
      | some objection => exact .inr ⟨[], r, reports, objection, rfl, trivial, heard⟩
      | none =>
          rcases ih (reporter sink r).1 with accepts | ⟨before, r', later, objection, rfl, accepts, h⟩
          · exact .inl ⟨heard, accepts⟩
          · exact .inr ⟨r :: before, r', later, objection, rfl, ⟨heard, accepts⟩, h⟩

/-- What a reporter makes of the signal of a segment. -/
theorem Reporter.hear_signal (reporter : Reporter σ ε) (sink : σ) (s : Segment) (line : Int) :
    reporter.hear sink (s.signal line) =
      (reporter.after sink (s.report? line).toList,
        ((s.report? line).bind fun r => (reporter sink r).2).map .objection) := by
  unfold Segment.signal
  cases s.report? line <;> rfl

theorem Reporter.Accepts.hear_signal {reporter : Reporter σ ε} {sink : σ} {s : Segment} {line : Int}
    (accepts : reporter.Accepts sink (s.report? line).toList) :
    reporter.hear sink (s.signal line) = (reporter.after sink (s.report? line).toList, none) := by
  rw [Reporter.hear_signal]
  cases h : s.report? line with
  | none => rfl
  | some r =>
      rw [h] at accepts
      rw [Option.bind_some, accepts.1]
      rfl

namespace Scanner

def pastOne (s : Scanner) (seg : Segment) : Scanner :=
  { s with
    start := s.current
    current := s.current + seg.text.length
    line := s.line + Text.lineFeeds seg.text
    tokens := s.tokens ++ (seg.token? (s.line + Text.lineFeeds seg.text)).toList }

/-- A scanner that has taken some segments. -/
def past (s : Scanner) (segs : List Segment) : Scanner := segs.foldl pastOne s

section Past

variable (s : Scanner) (seg : Segment) (segs segs' : List Segment)

@[simp] theorem past_nil : s.past [] = s := rfl

theorem past_cons : s.past (seg :: segs) = (s.pastOne seg).past segs := rfl

theorem past_append : s.past (segs ++ segs') = (s.past segs).past segs' := List.foldl_append

@[simp] theorem past_source : (s.past segs).source = s.source := by
  induction segs generalizing s with
  | nil => rfl
  | cons seg segs ih => exact ih _

@[simp] theorem past_current : (s.past segs).current = s.current + (joined segs).length := by
  induction segs generalizing s with
  | nil => rfl
  | cons seg segs ih =>
      rw [past_cons, ih, joined_cons, List.length_append, ← Nat.add_assoc]
      rfl

theorem new_past_current (source : Text) :
    ((new source).past segs).current = (joined segs).length :=
  (past_current _ _).trans (Nat.zero_add _)

@[simp] theorem past_line : (s.past segs).line = s.line + Text.lineFeeds (joined segs) := by
  induction segs generalizing s with
  | nil => simp
  | cons seg segs ih =>
      rw [past_cons, ih, joined_cons, Text.lineFeeds_append, Int.natCast_add, ← Int.add_assoc]
      rfl

@[simp] theorem past_tokens : (s.past segs).tokens = s.tokens ++ tokensFrom s.line segs := by
  induction segs generalizing s with
  | nil => simp [tokensFrom]
  | cons seg segs ih =>
      rw [past_cons, ih, tokensFrom_cons, ← List.append_assoc]
      rfl

end Past

theorem rest_pastOne {s : Scanner} {seg : Segment} {after : Text}
    (h : s.rest = seg.text ++ after) : (s.pastOne seg).rest = after := by
  have hrest : (s.pastOne seg).rest = s.rest.drop seg.text.length := List.drop_drop.symm
  rw [hrest, h, List.drop_left]

theorem rest_past {s : Scanner} {segs : List Segment} {after : Text}
    (h : s.rest = joined segs ++ after) : (s.past segs).rest = after := by
  induction segs generalizing s with
  | nil => exact h
  | cons seg segs ih =>
      rw [joined_cons, List.append_assoc] at h
      exact ih (rest_pastOne h)

/-! ### One segment -/

/-- A slice that begins where a piece of the source stands is that piece. -/
theorem slice_of_drop_eq {source t after : Text} {first : Nat}
    (h : source.drop first = t ++ after) : Text.slice source first (first + t.length) = t := by
  rw [Text.slice, h, Nat.add_sub_cancel_left, List.take_left]

theorem deliver_of_not_isLiteral (s : Scanner) {kind : Kind} (h : kind.isLiteral = false) :
    s.deliver (.token kind) = (s.addToken kind none, .done) := by
  cases kind with
  | string => cases h
  | number => cases h
  | _ => rfl

/-- A segment that stands between start and position is delivered as it is read. -/
theorem deliver_of_shape {s : Scanner} {seg : Segment} {after : Text} (shape : seg.Shape)
    (h : s.source.drop s.start = seg.text ++ after)
    (hc : s.current = s.start + seg.text.length) :
    s.deliver seg.form =
      ({ s with tokens := s.tokens ++ (seg.token? s.line).toList }, seg.signal s.line) := by
  have hlex : s.lexeme = seg.text := by
    rw [lexeme, hc]
    exact slice_of_drop_eq h
  cases shape with
  | unterminated _ => simp [deliver, Segment.token?, Segment.signal, Segment.report?, report]
  | unexpected _ => simp [deliver, Segment.token?, Segment.signal, Segment.report?, report]
  | @lexeme f t hf =>
      cases f with
      | unterminated => nomatch hf
      | unexpected => nomatch hf
      | layout => simp [deliver, Segment.token?, Segment.signal, Segment.report?]
      | token kind =>
          -- Only strings and numbers denote a value, and theirs is read off the source.
          by_cases string : kind = .string
          · subst string
            obtain ⟨u, -, rfl⟩ := hf.string_cases
            have hun : s.unquoted = u := by
              have hdrop : s.source.drop (s.start + 1) = u ++ Text.doubleQuote :: after := by
                rw [← List.drop_drop, h]
                simp
              have hend : s.current - 1 = s.start + 1 + u.length := by
                rw [hc]
                simp only [List.length_cons, List.length_append, List.length_nil]
                omega
              rw [unquoted, hend]
              exact slice_of_drop_eq hdrop
            simp [deliver, addToken, hlex, hun, Segment.token?, Segment.literal?, Segment.signal,
              Segment.report?]
          by_cases number : kind = .number
          · subst number
            simp [deliver, addToken, hlex, Binary64.ofText?_of_lexeme hf, Segment.token?,
              Segment.literal?, Segment.signal, Segment.report?]
          · have plain := Kind.isLiteral_eq_false string number
            rw [deliver_of_not_isLiteral s plain, addToken, hlex]
            simp [Segment.token?, Segment.literal?_eq_none plain, Segment.signal, Segment.report?]

/-- **The next segment moves the scanner past itself.** -/
theorem next_eq {s : Scanner} {seg : Segment} {after : Text} (shape : seg.Shape)
    (stop : seg.continues after = false) (h : s.rest = seg.text ++ after) :
    s.next = (s.pastOne seg, seg.signal (s.line + Text.lineFeeds seg.text)) := by
  obtain ⟨c, tail, hseg⟩ := List.exists_cons_of_ne_nil shape.ne_nil
  have whole : seg.text ++ after = c :: (tail ++ after) := by rw [hseg, List.cons_append]
  have first : Segment.first c (tail ++ after) = seg := Segment.first_eq_of_shape shape stop whole
  have begun : ({ s with start := s.current } : Scanner).rest = c :: (tail ++ after) :=
    h.trans whole
  have stands : ({ s with start := s.current }.absorb seg.text : Scanner).source.drop s.current =
      seg.text ++ after := h
  rw [next, scanToken, begun]
  show ({ s with start := s.current }.absorb (Segment.first c (tail ++ after)).text).deliver
    (Segment.first c (tail ++ after)).form = _
  rw [first]
  exact deliver_of_shape shape stands rfl

/-! ### Heads -/

theorem current_lt_of_rest {s : Scanner} {seg : Segment} {after : Text} (shape : seg.Shape)
    (h : s.rest = seg.text ++ after) : s.current < s.source.length := by
  refine rest_ne_nil_iff.mp fun hnil => shape.ne_nil ?_
  exact (List.append_eq_nil_iff.mp (h.symm.trans hnil)).1

/-- The scanners at which a run looks for the next segment, each with the state the reporter is in
by then. -/
inductive Head (reporter : Reporter σ ε) (s : Scanner) (sink : σ) : Scanner → σ → Prop
  /-- The run begins. -/
  | here : Head reporter s sink s sink
  /-- Before the end the run takes the next segment, and nothing fails. -/
  | next {t : Scanner} {k : σ} (h : Head reporter s sink t k)
      (before : t.current < t.source.length) (heard : (reporter.hear k t.next.2).2 = none) :
      Head reporter s sink t.next.1 (reporter.hear k t.next.2).1

/-- **From a head on a run goes its way.** -/
theorem Head.run_eq {reporter : Reporter σ ε} {s t : Scanner} {sink k : σ}
    (h : Head reporter s sink t k) : s.run reporter sink = t.run reporter k := by
  induction h with
  | here => rfl
  | @next t k _ before heard ih => rw [ih, run_of_lt reporter k before, heard]

theorem Head.trans {reporter : Reporter σ ε} {s t u : Scanner} {sink k l : σ}
    (h : Head reporter s sink t k) (h' : Head reporter t k u l) : Head reporter s sink u l := by
  induction h' with
  | here => exact h
  | next _ before heard ih => exact .next ih before heard

theorem head_pastOne {reporter : Reporter σ ε} {s : Scanner} {sink : σ} {seg : Segment}
    {after : Text} (shape : seg.Shape) (stop : seg.continues after = false)
    (h : s.rest = seg.text ++ after)
    (accepts : reporter.Accepts sink (seg.report? (s.line + Text.lineFeeds seg.text)).toList) :
    Head reporter s sink (s.pastOne seg)
      (reporter.after sink (seg.report? (s.line + Text.lineFeeds seg.text)).toList) := by
  have step := next_eq shape stop h
  have heard := accepts.hear_signal
  have head := Head.next (.here : Head reporter s sink s sink) (current_lt_of_rest shape h)
    (by rw [step, heard])
  rw [step, heard] at head
  exact head

/-- Past segments in front of a text the run is at a head, if it meets no objection before. -/
theorem head_past_of_accepts {reporter : Reporter σ ε} {s : Scanner} {sink : σ}
    {segs : List Segment} {after : Text} (tiles : Tiles after segs)
    (h : s.rest = joined segs ++ after)
    (accepts : reporter.Accepts sink (reportsFrom s.line segs)) :
    Head reporter s sink (s.past segs) (reporter.after sink (reportsFrom s.line segs)) := by
  induction segs generalizing s sink with
  | nil => exact .here
  | cons seg segs ih =>
      obtain ⟨shape, stop, tiles⟩ := tiles_cons.mp tiles
      rw [joined_cons, List.append_assoc] at h
      rw [reportsFrom_cons] at accepts
      obtain ⟨first, accepts⟩ := Reporter.accepts_append.mp accepts
      rw [past_cons, reportsFrom_cons, reporter.after_append]
      exact (head_pastOne shape stop h first).trans (ih tiles (rest_pastOne h) accepts)

theorem head_past {reporter : Reporter σ ε} (quiet : reporter.Quiet) {s : Scanner} (sink : σ)
    {segs : List Segment} {after : Text} (tiles : Tiles after segs)
    (h : s.rest = joined segs ++ after) :
    Head reporter s sink (s.past segs) (reporter.after sink (reportsFrom s.line segs)) :=
  head_past_of_accepts tiles h (quiet.accepts sink _)

/-! ### Runs -/

/-- **A run that meets no objection takes the segments up to the end.** -/
theorem run_of_accepts {reporter : Reporter σ ε} {s : Scanner} {sink : σ}
    (accepts : reporter.Accepts sink (reportsFrom s.line (segments s.rest))) :
    s.run reporter sink =
      { scanner := s.past (segments s.rest)
        sink := reporter.after sink (reportsFrom s.line (segments s.rest))
        result := .ok () } := by
  have whole : s.rest = joined (segments s.rest) ++ [] := by simp
  have ended : (s.past (segments s.rest)).source.length ≤ (s.past (segments s.rest)).current :=
    Nat.le_of_not_lt fun before => rest_ne_nil_iff.mpr before (rest_past whole)
  rw [(head_past_of_accepts (tiles_segments s.rest) whole accepts).run_eq, run_of_le _ _ ended]

/-- **A run that meets an objection stops past the segment that the objection is to.** -/
theorem run_of_objection {reporter : Reporter σ ε} {s : Scanner} {sink : σ}
    {done later : List Segment} {seg : Segment} {r : Report} {objection : ε}
    (hsegs : segments s.rest = done ++ seg :: later)
    (accepts : reporter.Accepts sink (reportsFrom s.line done))
    (hr : seg.report? (s.line + Text.lineFeeds (joined (done ++ [seg]))) = some r)
    (objects : (reporter (reporter.after sink (reportsFrom s.line done)) r).2 = some objection) :
    s.run reporter sink =
      { scanner := s.past (done ++ [seg])
        sink := reporter.after sink (reportsFrom s.line done ++ [r])
        result := .error (.objection objection) } := by
  obtain ⟨front, -, whole⟩ := tiles_of_segments_eq_append hsegs
  obtain ⟨shape, stop, -⟩ := shape_of_segments_eq_append hsegs
  have hpast : (s.past done).rest = seg.text ++ joined later := rest_past whole
  have line : (s.past done).line + Text.lineFeeds seg.text =
      s.line + Text.lineFeeds (joined (done ++ [seg])) := by
    simp [Int.add_assoc]
  have heard : reporter.hear (reporter.after sink (reportsFrom s.line done)) (s.past done).next.2 =
      (reporter.after sink (reportsFrom s.line done ++ [r]), some (.objection objection)) := by
    rw [next_eq shape stop hpast, reporter.hear_signal, line, hr, Option.bind_some, objects,
      reporter.after_append]
    rfl
  rw [(head_past_of_accepts front whole accepts).run_eq,
    run_of_lt _ _ (current_lt_of_rest shape hpast), heard, next_eq shape stop hpast, past_append]
  rfl

/-! ### The heads of a quiet run -/

/-- **The heads of a run that meets no objection are the scanners past a piece of its segments.** -/
theorem head_iff {reporter : Reporter σ ε} (quiet : reporter.Quiet) {s t : Scanner} {sink k : σ} :
    Head reporter s sink t k ↔
      ∃ done later, segments s.rest = done ++ later ∧ t = s.past done ∧
        k = reporter.after sink (reportsFrom s.line done) := by
  constructor
  · intro h
    induction h with
    | here => exact ⟨[], segments s.rest, rfl, rfl, rfl⟩
    | @next t k _ before heard ih =>
        obtain ⟨done, later, hsegs, rfl, rfl⟩ := ih
        cases later with
        | nil =>
            have ended := rest_past (tiles_of_segments_eq_append hsegs).2.2
            exact absurd ended (rest_ne_nil_iff.mpr before)
        | cons seg later =>
            obtain ⟨shape, stop, hrest⟩ := shape_of_segments_eq_append hsegs
            have hpast : (s.past done).rest = seg.text ++ joined later := rest_past hrest
            refine ⟨done ++ [seg], later, hsegs.trans (List.append_cons done seg later), ?_, ?_⟩
            · rw [next_eq shape stop hpast, past_append]
              rfl
            · rw [next_eq shape stop hpast, (quiet.accepts _ _).hear_signal, past_line,
                reportsFrom_append, reporter.after_append, reportsFrom_cons, reportsFrom_nil, List.append_nil]
  · rintro ⟨done, later, hsegs, rfl, rfl⟩
    obtain ⟨front, -, hrest⟩ := tiles_of_segments_eq_append hsegs
    exact head_past quiet sink front hrest

end Scanner

end LoxLexis

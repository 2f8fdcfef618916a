import LoxLexis.Proofs.Scanner.Unopposed
import LoxLexis.Session.Sink

/-!
# Histories of a scanner

A history is a list of operations performed on one scanner, one after the other; those that fail
leave what they have done.  A complete scan begins by putting back every part of the scanner that it
reads, so no history shows in what it finds: it finds what the first scan of a new scanner on the
same source finds.  Only the reporter remembers, and so it hears the reports of a source once more
with every scan.

## Main definitions

* `Operation.performAll` — what a history leaves of a scanner and its reporter
* `Operation.aloneAll` — what it leaves of a scanner that nobody objects to
* `ScansAfresh` — a complete scan finds what the first one of a new scanner finds

## Main statements

* `Operation.performAll_of_quiet` — no reporter shows in the scanner unless it objects
* `Scanner.restarted_eq` — a restarted scanner is a new one, but for the lists given away before
* `Sink.after_of_accepts` — a sink that does not object holds what it hears
* `scan_forgets_history` — no history shows in a complete scan that meets no objection
-/

namespace LoxLexis

variable {σ ε : Type}

/-- What a history of operations leaves of a scanner and of the state of its reporter. -/
def Operation.performAll (reporter : Reporter σ ε) (s : Scanner) (sink : σ) :
    List Operation → Scanner × σ
  | [] => (s, sink)
  | operation :: history =>
    -- Whether the operation completes or fails, the next one takes what it leaves.
    performAll reporter (operation.perform reporter s sink).scanner
      (operation.perform reporter s sink).sink history

/-- A scanner that nobody objects to, when it has performed a history. -/
def Operation.aloneAll (s : Scanner) (history : List Operation) : Scanner :=
  history.foldl (fun s operation => (operation.alone s).scanner) s

/-- Of some events one after the other, those that are operations on a scanner move it. -/
theorem Operation.aloneAll_filterMap_cons {β : Type} (own? : β → Option Operation) (s : Scanner)
    (event : β) (events : List β) :
    aloneAll s ((event :: events).filterMap own?) =
      aloneAll (aloneAll s (own? event).toList) (events.filterMap own?) := by
  cases own : own? event with
  | none => rw [List.filterMap_cons_none own]; rfl
  | some operation => rw [List.filterMap_cons_some own]; rfl

/-- **A history leaves the same scanner with every reporter that never objects.** -/
theorem Operation.performAll_of_quiet {reporter : Reporter σ ε} (quiet : reporter.Quiet)
    (s : Scanner) (sink : σ) (history : List Operation) :
    (performAll reporter s sink history).1 = aloneAll s history := by
  induction history generalizing s sink with
  | nil => rfl
  | cons operation history ih =>
      show (performAll reporter (operation.perform reporter s sink).scanner _ history).1 = _
      rw [ih, perform_of_unopposed (unopposed_of_quiet quiet operation)]
      rfl

namespace Scanner

/-- A restarted scanner is a new one, but for the lists given away before. -/
theorem restarted_eq (s : Scanner) : s.restarted = { new s.source with earlier := s.held } := rfl

/-- The lists given away before have no part in taking segments. -/
theorem past_earlier (s : Scanner) (lists : List (List Token)) (segs : List Segment) :
    ({ s with earlier := lists } : Scanner).past segs =
      { s.past segs with earlier := lists } := by
  induction segs generalizing s with
  | nil => rfl
  | cons seg segs ih => exact ih (s.pastOne seg)

end Scanner

/-- A complete scan of a scanner finds what the first scan of a new one on the same source finds. -/
structure ScansAfresh (reporter : Reporter σ ε) (s : Scanner) (sink : σ) : Prop where
  /-- Both answer the same tokens. -/
  answer : ∃ tokens, ((Scanner.new s.source).scan Reporter.keep []).result = .ok tokens ∧
    (s.scan reporter sink).result = .ok tokens
  start : (s.scan reporter sink).scanner.start =
    ((Scanner.new s.source).scan Reporter.keep []).scanner.start
  current : (s.scan reporter sink).scanner.current =
    ((Scanner.new s.source).scan Reporter.keep []).scanner.current
  line : (s.scan reporter sink).scanner.line =
    ((Scanner.new s.source).scan Reporter.keep []).scanner.line
  /-- The reporter hears the reports of the new scanner, in their order and nothing else. -/
  heard : (s.scan reporter sink).sink =
    reporter.after sink ((Scanner.new s.source).scan Reporter.keep []).sink

theorem scansAfresh_of_unopposed {reporter : Reporter σ ε} {s : Scanner} {sink : σ}
    (h : (s.scan reporter sink).Unopposed) : ScansAfresh reporter s sink := by
  have again := Scanner.scan_of_accepts (Scanner.accepts_of_unopposed h)
  have first := Scanner.scan_eq Reporter.keep_quiet (Scanner.new s.source) []
  rw [s.restarted_eq, Scanner.past_earlier] at again
  refine ⟨⟨_, by rw [first], by rw [again]; rfl⟩, ?_, ?_, ?_, ?_⟩
  · rw [again, first]
    rfl
  · rw [again, first]
    rfl
  · rw [again, first]
    rfl
  · rw [again, first, Reporter.after_keep, List.nil_append]
    rfl

/-! ### Sinks that do not object -/

/-- A sink holds a report that it does not object to. -/
theorem Sink.receive_of_accepted {sink : Sink} {r : Report} (h : (sink.receive r).2 = none) :
    (sink.receive r).1 = sink.hold r := by
  revert h
  unfold Sink.receive
  cases sink.policy with
  | record => exact fun _ => rfl
  | acknowledge => exact fun _ => rfl
  | fuse limit =>
      dsimp only
      split
      · exact fun h => nomatch h
      · exact fun _ => rfl

/-- **A sink that does not object holds what it hears after what it holds already.** -/
theorem Sink.after_of_accepts {sink : Sink} {reports : List Report}
    (accepts : Sink.receive.Accepts sink reports) :
    Reporter.after Sink.receive sink reports =
      { sink with reports := sink.reports ++ reports } := by
  induction reports generalizing sink with
  | nil => simp
  | cons r reports ih =>
      obtain ⟨first, accepts⟩ := accepts
      rw [Sink.receive_of_accepted first] at accepts
      show Reporter.after Sink.receive (Sink.receive sink r).1 reports = _
      rw [Sink.receive_of_accepted first, ih accepts, Sink.hold, List.append_assoc,
        List.singleton_append]

/-- A sink that is no fuse takes every report. -/
theorem Sink.accepts_of_not_fuse {sink : Sink} (h : ∀ limit, sink.policy ≠ .fuse limit)
    (reports : List Report) : Sink.receive.Accepts sink reports := by
  induction reports generalizing sink with
  | nil => trivial
  | cons r reports ih =>
      have first : sink.receive r = (sink.hold r, none) := by
        unfold Sink.receive
        split
        · next limit fuse => exact absurd fuse (h limit)
        · rfl
      rw [Reporter.accepts_cons, first]
      exact ⟨rfl, ih h⟩

/-- Each of some scans adds the reports of the source once more to what a recording sink holds. -/
theorem performAll_replicate_scan (n : Nat) (s : Scanner) {sink : Sink}
    (h : sink.policy = .record) :
    (Operation.performAll Sink.receive s sink (List.replicate n .scan)).2 =
      { sink with
        reports := sink.reports ++ (List.replicate n (Scan.of s.source).reports).flatten } := by
  induction n generalizing s sink with
  | zero => simp [Operation.performAll]
  | succ n ih =>
      have noFuse : ∀ limit, sink.policy ≠ .fuse limit := fun limit => by simp [h]
      have accepts := Sink.accepts_of_not_fuse noFuse
      have once := Scanner.scan_of_accepts (s := s) (accepts _)
      have source : (s.scan Sink.receive sink).scanner.source = s.source := by
        rw [once]
        exact Scanner.past_source _ _
      have held : (s.scan Sink.receive sink).sink =
          { sink with reports := sink.reports ++ (Scan.of s.source).reports } := by
        rw [once, Scan.of_eq]
        exact Sink.after_of_accepts (accepts _)
      show (Operation.performAll Sink.receive (s.scan Sink.receive sink).scanner
        (s.scan Sink.receive sink).sink (List.replicate n .scan)).2 = _
      rw [ih _ (by rw [held]; exact h), source, held, List.replicate_succ, List.flatten_cons,
        List.append_assoc]

/-- **No history of a scanner shows in a complete scan that meets no objection; only a sink that
keeps its reports holds them once for each scan.** -/
theorem scan_forgets_history (reporter : Reporter σ ε) (s : Scanner) (sink : σ)
    (history : List Operation) :
    let left := Operation.performAll reporter s sink history
    (left.1.scan reporter left.2).Unopposed →
      ScansAfresh reporter left.1 left.2 ∧
        ∀ errors : Sink, errors.policy = .record → ∀ n,
          (Operation.performAll Sink.receive left.1 errors (List.replicate n .scan)).2.reports =
            errors.reports ++ (List.replicate n
              ((Scanner.new left.1.source).scan Reporter.keep []).sink).flatten := by
  intro left unopposed
  refine ⟨scansAfresh_of_unopposed unopposed, fun errors record n => ?_⟩
  rw [performAll_replicate_scan n _ record]
  rfl

/-- A reporter that keeps reports, and objects to those of characters that begin nothing. -/
def Reporter.fussy : Reporter (List Report) Report := fun held r =>
  if r.message = unexpectedCharacter then (held, some r) else (held ++ [r], none)

/-- The history has a scan that an objection stops, steps that fail and a cursor beyond the end;
the scan after it makes a report that is accepted. -/
theorem scan_forgets_history_fussy :
    let left := Operation.performAll Reporter.fussy (Scanner.new "1 \"a\n".toList) []
      [.scan, .assign (some "+@".toList) none none none, .scan, .next, .advance, .scanNumber,
        .assign (some "- \"\n".toList) (some 9) (some 7) (some (-3)), .scanString]
    (left.1.scan Reporter.fussy left.2).Unopposed ∧
      ScansAfresh Reporter.fussy left.1 left.2 ∧
        ∀ errors : Sink, errors.policy = .record → ∀ n,
          (Operation.performAll Sink.receive left.1 errors (List.replicate n .scan)).2.reports =
            errors.reports ++ (List.replicate n
              ((Scanner.new left.1.source).scan Reporter.keep []).sink).flatten := by
  intro left
  have unopposed : (left.1.scan Reporter.fussy left.2).Unopposed := by
    intro objection opposed
    have completed : (left.1.scan Reporter.fussy left.2).result.toOption.isSome = true := by
      decide +kernel
    rw [opposed] at completed
    cases completed
  exact ⟨unopposed, scan_forgets_history Reporter.fussy _ _ _ unopposed⟩

end LoxLexis

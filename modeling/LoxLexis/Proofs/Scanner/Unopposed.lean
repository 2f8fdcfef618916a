import LoxLexis.Proofs.Scan.LongestPieces
import LoxLexis.Scanner.Operation

/-!
# Operations that meet no objection

A scanner takes no notice of its reporter unless the reporter objects.  So an operation that meets
no objection comes to the same with every reporter: it leaves the same scanner, gives the same
answer or fails for the same fault, and makes the same reports.  What that is can be read off one
reporter, the one that keeps everything, and `Operation.alone` is the operation performed with it.

Only the reports that are made matter.  A reporter that would object to others, or has done so
before, is as good as one that never does.

## Main definitions

* `Performed.Unopposed` — no objection ends an operation
* `Operation.alone` — an operation with the reports that it makes kept
* `Failure.widen` — a failure that is no objection, beside a reporter that may object

## Main statements

* `Scanner.accepts_of_unopposed` — a scan is unopposed when its reports are accepted
* `Operation.unopposed_iff` — an operation is unopposed when its reports are accepted
* `Operation.perform_of_unopposed` — an unopposed operation does what it does alone
-/

namespace LoxLexis

variable {σ ε α : Type}

/-- No objection ends an operation; it may still fail by itself. -/
def Performed.Unopposed (p : Performed σ ε α) : Prop :=
  ∀ objection, p.result ≠ .error (.objection objection)

/-- A failure beside a reporter that never objects, as one beside any reporter. -/
def Failure.widen : Failure Empty → Failure ε
  | .fault f => .fault f

/-- **A complete scan meets no objection when its reports are accepted, and only then.** -/
theorem Scanner.accepts_of_unopposed {reporter : Reporter σ ε} {s : Scanner} {sink : σ}
    (h : (s.scan reporter sink).Unopposed) :
    reporter.Accepts sink (reportsFrom 1 (segments s.source)) := by
  rcases reporter.accepts_or_objects sink (reportsFrom 1 (segments s.source)) with
    accepts | ⟨before, r, later, objection, split, accepts, objects⟩
  · exact accepts
  · exfalso
    obtain ⟨done, seg, after, hsegs, rfl, hr⟩ := gather_eq_append_cons _ split
    have ran := Scanner.run_of_objection (s := s.restarted) (by rw [s.rest_restarted, hsegs])
      accepts hr objects
    apply h objection
    rw [Scanner.scan, ran]

namespace Operation

/-- An operation that nobody objects to, its reports kept. -/
def alone (operation : Operation) (s : Scanner) : Performed (List Report) Empty Answer :=
  operation.perform Reporter.keep s []

section Unopposed

variable {reporter : Reporter σ ε} {s : Scanner} {sink : σ}

/-! ### When an operation meets no objection -/

theorem unopposed_scan_iff :
    (scan.perform reporter s sink).Unopposed ↔ (s.scan reporter sink).Unopposed := by
  show (∀ objection, (s.scan reporter sink).result.map Answer.tokens ≠ _) ↔ _
  unfold Performed.Unopposed
  cases (s.scan reporter sink).result <;> simp [Except.map]

theorem alone_scan_sink (s : Scanner) :
    (scan.alone s).sink = reportsFrom 1 (segments s.source) := by
  show (s.scan Reporter.keep []).sink = _
  rw [Scanner.scan_eq Reporter.keep_quiet, Reporter.after_keep, List.nil_append]

theorem signalled_unopposed_iff {left : Scanner × Signal} :
    (signalled reporter sink left).Unopposed ↔
      reporter.Accepts sink (signalled Reporter.keep [] left).sink := by
  obtain ⟨left, signal⟩ := left
  cases signal with
  | done => exact iff_of_true (fun _ opposed => by cases opposed) trivial
  | fault fault => exact iff_of_true (fun _ opposed => by cases opposed) trivial
  | report r =>
      show _ ↔ (reporter sink r).2 = none ∧ True
      cases heard : (reporter sink r).2 with
      | none => simp [Performed.Unopposed, signalled, Reporter.hear, heard]
      | some objection => simp [Performed.Unopposed, signalled, Reporter.hear, heard]

/-- **An operation meets no objection when the reports that it makes alone are accepted, and only
then.** -/
theorem unopposed_iff {operation : Operation} :
    (operation.perform reporter s sink).Unopposed ↔
      reporter.Accepts sink (operation.alone s).sink := by
  have quietly (left : Scanner) (answer : Answer) :
      (silent sink left answer : Performed σ ε Answer).Unopposed ↔ reporter.Accepts sink [] :=
    iff_of_true (fun _ opposed => by cases opposed) trivial
  cases operation with
  | scan =>
      rw [unopposed_scan_iff, alone_scan_sink]
      refine ⟨Scanner.accepts_of_unopposed, fun accepts objection opposed => ?_⟩
      rw [Scanner.scan_of_accepts accepts] at opposed
      cases opposed
  | next => exact signalled_unopposed_iff
  | scanToken => exact signalled_unopposed_iff
  | scanString => exact signalled_unopposed_iff
  | scanNumber => exact signalled_unopposed_iff
  | error message => exact signalled_unopposed_iff
  | advance =>
      simp only [alone, perform]
      cases s.advance with
      | ok moved => exact quietly _ _
      | error fault => exact signalled_unopposed_iff
  | _ => exact quietly _ _

theorem unopposed_of_quiet (quiet : reporter.Quiet) (operation : Operation) :
    (operation.perform reporter s sink).Unopposed := unopposed_iff.mpr (quiet.accepts sink _)

/-! ### What it does then -/

/-- A signal is heard alike by every reporter that does not object to it. -/
theorem signalled_of_unopposed {left : Scanner × Signal}
    (h : (signalled reporter sink left).Unopposed) :
    signalled reporter sink left =
      { scanner := (signalled Reporter.keep [] left).scanner
        sink := reporter.after sink (signalled Reporter.keep [] left).sink
        result := (signalled Reporter.keep [] left).result.mapError Failure.widen } := by
  obtain ⟨left, signal⟩ := left
  cases signal with
  | done => rfl
  | fault fault => rfl
  | report r =>
      cases heard : (reporter sink r).2 with
      | none =>
          simp only [signalled, Reporter.hear, Reporter.keep, Reporter.after, heard]
          rfl
      | some objection => exact absurd (by simp [signalled, Reporter.hear, heard]) (h objection)

theorem scan_of_unopposed (h : (s.scan reporter sink).Unopposed) :
    s.scan reporter sink =
      { scanner := (s.scan Reporter.keep []).scanner
        sink := reporter.after sink (s.scan Reporter.keep []).sink
        result := (s.scan Reporter.keep []).result.mapError Failure.widen } := by
  rw [Scanner.scan_of_accepts (Scanner.accepts_of_unopposed h), Scanner.scan_eq Reporter.keep_quiet,
    Reporter.after_keep, List.nil_append]
  rfl

/-- **An operation that meets no objection does what it does alone, and makes the same reports.** -/
theorem perform_of_unopposed {operation : Operation}
    (h : (operation.perform reporter s sink).Unopposed) :
    operation.perform reporter s sink =
      { scanner := (operation.alone s).scanner
        sink := reporter.after sink (operation.alone s).sink
        result := (operation.alone s).result.mapError Failure.widen } := by
  cases operation with
  | scan =>
      show ({ s.scan reporter sink with result := _ } : Performed σ ε Answer) = _
      rw [scan_of_unopposed (unopposed_scan_iff.mp h)]
      simp only [alone, perform]
      cases (s.scan Reporter.keep []).result <;> rfl
  | next => exact signalled_of_unopposed h
  | scanToken => exact signalled_of_unopposed h
  | scanString => exact signalled_of_unopposed h
  | scanNumber => exact signalled_of_unopposed h
  | error message => exact signalled_of_unopposed h
  | advance =>
      simp only [alone, perform] at h ⊢
      cases s.advance with
      | ok moved => rfl
      | error fault => rfl
  | _ => rfl

/-- An operation leaves the same scanner and comes to the same result with every two reporters that
do not object. -/
theorem perform_congr {τ : Type} {reporter' : Reporter τ ε} {sink' : τ} {operation : Operation}
    (h : (operation.perform reporter s sink).Unopposed)
    (h' : (operation.perform reporter' s sink').Unopposed) :
    (operation.perform reporter s sink).scanner = (operation.perform reporter' s sink').scanner ∧
      (operation.perform reporter s sink).result =
        (operation.perform reporter' s sink').result := by
  rw [perform_of_unopposed h, perform_of_unopposed h']
  exact ⟨rfl, rfl⟩

end Unopposed

end Operation

end LoxLexis

import LoxLexis.Scanner.Basic

/-!
# Complete scans

A scan takes segment after segment up to the end of the source and closes the tokens with one for
the end.  Its reports go to a reporter, which keeps what it likes and may object; an objection ends
the scan where it stands.

## Main definitions

* `Reporter` — what becomes of a report
* `Failure` — why an operation does not complete: a fault of its own, or an objection
* `Performed` — what an operation leaves behind, and its result
* `Scanner.run` — take segments up to the end of the source
* `Scanner.scan` — a complete scan, from the beginning and with a new list of tokens
* `Scan`, `Scan.of` — the tokens and reports of a source
-/

namespace LoxLexis

/-- What becomes of a report: a reporter with state `σ` takes note of it and may raise an
objection. -/
abbrev Reporter (σ ε : Type) := σ → Report → σ × Option ε

/-- Why an operation does not complete. -/
inductive Failure (ε : Type)
  | fault (fault : Fault)
  /-- The reporter objects to its report. -/
  | objection (objection : ε)
  deriving DecidableEq

/-- What an operation leaves behind, and its result. -/
structure Performed (σ ε α : Type) where
  scanner : Scanner
  sink : σ
  /-- What the operation answers, or why it does not complete. -/
  result : Except (Failure ε) α

/-- The signal of an operation made known to a reporter. -/
def Reporter.hear {σ ε : Type} (reporter : Reporter σ ε) (sink : σ) :
    Signal → σ × Option (Failure ε)
  | .done => (sink, none)
  | .report r => ((reporter sink r).1, (reporter sink r).2.map .objection)
  | .fault f => (sink, some (.fault f))

/-- The reporter that keeps every report, in order, and never objects. -/
def Reporter.keep : Reporter (List Report) Empty := fun reports r => (reports ++ [r], none)

namespace Scanner

variable {σ ε : Type}

/-- Take segments from the position to the end of the source, or until something fails. -/
def run (reporter : Reporter σ ε) (s : Scanner) (sink : σ) : Performed σ ε Unit :=
  if _ : s.current < s.source.length then
    let step := s.next
    let heard := reporter.hear sink step.2
    match heard.2 with
    -- The segment has been taken by then, and it stays taken.
    | some failure => { scanner := step.1, sink := heard.1, result := .error failure }
    | none => run reporter step.1 heard.1
  else { scanner := s, sink := sink, result := .ok () }
termination_by s.source.length - s.current
decreasing_by
  have := lt_next_current (s := s) ‹_›
  simp only [next_source]
  omega

/-- At the end of the source a run is over. -/
theorem run_of_le (reporter : Reporter σ ε) {s : Scanner} (sink : σ)
    (h : s.source.length ≤ s.current) :
    s.run reporter sink = { scanner := s, sink := sink, result := .ok () } := by
  rw [run, dif_neg (by omega)]

/-- Before the end a run takes the next segment, and goes on if nothing fails. -/
theorem run_of_lt (reporter : Reporter σ ε) {s : Scanner} (sink : σ)
    (h : s.current < s.source.length) :
    s.run reporter sink =
      match (reporter.hear sink s.next.2).2 with
      | some failure =>
        { scanner := s.next.1
          sink := (reporter.hear sink s.next.2).1
          result := .error failure }
      | none => s.next.1.run reporter (reporter.hear sink s.next.2).1 := by
  rw [run, dif_pos h]

/-- The scanner with the token for the end of the source, its list given away. -/
def closed (s : Scanner) : Scanner :=
  { s with tokens := s.tokens ++ [Token.endOfFile s.line], lent := true }

/-- A complete scan: from the beginning of the source, with a new list of tokens, to the end.  The
list is given away if nothing fails, and else the scanner stays where the failure left it. -/
def scan (reporter : Reporter σ ε) (s : Scanner) (sink : σ) : Performed σ ε (List Token) :=
  let ran := s.restarted.run reporter sink
  match ran.result with
  | .ok () =>
    { scanner := ran.scanner.closed, sink := ran.sink, result := .ok ran.scanner.closed.tokens }
  | .error failure => { scanner := ran.scanner, sink := ran.sink, result := .error failure }

end Scanner

/-- What a complete scan of a source finds. -/
structure Scan where
  /-- The tokens, the last of which is for the end of the source. -/
  tokens : List Token
  reports : List Report
  deriving DecidableEq

/-- The tokens and reports of a source. -/
def Scan.of (source : Text) : Scan :=
  let performed := (Scanner.new source).scan Reporter.keep []
  { tokens := performed.scanner.tokens, reports := performed.sink }

namespace Scan

/-- The token dump: each token on a line. -/
def dump (s : Scan) : Text := Text.ofLines (s.tokens.map Token.display)

def hadError (s : Scan) : Bool := !s.reports.isEmpty

end Scan

end LoxLexis

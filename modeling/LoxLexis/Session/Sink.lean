import LoxLexis.Scanner.Scan

/-!
# Sinks of reports

A sink holds the reports made to it.  Its policy says how it answers, and whether it takes a
report at all.

## Main definitions

* `Policy` — how a sink treats a report
* `Sink` — a policy and the reports held
* `Sink.receive` — a report made to a sink, as a reporter
* `Sink.reset` — forget the reports held
-/

namespace LoxLexis

/-- How a sink treats a report. -/
inductive Policy
  | record
  /-- Hold it, and answer no. -/
  | acknowledge
  /-- Hold it unless as many reports as the limit are held already, and object to it then. -/
  | fuse (limit : Nat)
  deriving DecidableEq

/-- A holder of reports. -/
structure Sink where
  policy : Policy
  /-- The reports held, in the order in which they were made. -/
  reports : List Report
  deriving DecidableEq

/-- The objection of a fuse to a report. -/
structure Trip where
  report : Report
  deriving DecidableEq

def Trip.message (t : Trip) : Text :=
  Text.ofInt t.report.line ++ ": ".toList ++ t.report.message

namespace Sink

def empty (policy : Policy) : Sink where
  policy := policy
  reports := []

/-- A sink with one more report. -/
def hold (s : Sink) (r : Report) : Sink := { s with reports := s.reports ++ [r] }

/-- A report made to a sink. -/
def receive : Reporter Sink Trip := fun s r =>
  match s.policy with
  | .fuse limit => if limit ≤ s.reports.length then (s, some ⟨r⟩) else (s.hold r, none)
  | _ => (s.hold r, none)

/-- Forget the reports held. -/
def reset (s : Sink) : Sink := { s with reports := [] }

def hadError (s : Sink) : Bool := !s.reports.isEmpty

end Sink

end LoxLexis

import LoxLexis.Scanner.Operation
import LoxLexis.Session.Sink

/-!
# Sessions with several scanners

A session has scanners and sinks, each under a name.  Several scanners may report to one sink; a
scanner opened without a sink gets one of its own, under the name of the scanner.

## Main definitions

* `Directory` — values under names
* `Session` — the scanners and sinks that are open
* `Session.Request` — a step of a session, asked of the scanner or sink of some name
* `Session.Record` — what a step answers, and what it shows of the scanner or sink
* `Session.perform` — take one step

## Design notes

A scanner keeps the place of its sink, not the sink's name.  Opening another sink under a name
therefore takes nothing away from the scanners that report to the sink which had the name before.
-/

namespace LoxLexis

/-- Values under names. -/
abbrev Directory (α : Type) := List (Text × α)

namespace Directory

variable {α : Type}

def find? (d : Directory α) (name : Text) : Option α := List.lookup name d

/-- Put a value under a name, in place of the one that is there. -/
def put (d : Directory α) (name : Text) (value : α) : Directory α :=
  (name, value) :: d.filter fun entry => entry.1 ≠ name

@[simp] theorem find?_put_self (d : Directory α) (name : Text) (value : α) :
    (d.put name value).find? name = some value := by
  simp [find?, put]

end Directory

/-- A scanner with the place of the sink it reports to. -/
structure Station where
  scanner : Scanner
  /-- The place of its sink among all sinks. -/
  sink : Nat
  deriving DecidableEq

/-- The scanners and sinks that are open. -/
structure Session where
  /-- The scanners by name. -/
  stations : Directory Station
  /-- The places of the sinks by name. -/
  places : Directory Nat
  /-- All sinks, in the order in which they were opened. -/
  sinks : List Sink
  deriving DecidableEq

namespace Session

def empty : Session where
  stations := []
  places := []
  sinks := []

/-- What can be asked of a name. -/
inductive Step
  /-- Open a sink. -/
  | openSink (policy : Policy)
  /-- Open a scanner on a source, reporting to the sink of a name or to one of its own. -/
  | openScanner (source : Text) (sink : Option Text)
  /-- Make a report to a sink. -/
  | report (report : Report)
  | reset
  | hadError
  /-- The reports of a sink as they are printed. -/
  | errorLines
  | errors
  /-- Perform an operation on a scanner. -/
  | operate (operation : Operation)
  /-- The lengths of the lists a scanner has given away. -/
  | held
  /-- The present list of a scanner. -/
  | tokens
  deriving DecidableEq

/-- A step, and the name it is asked of. -/
structure Request where
  name : Text
  step : Step
  deriving DecidableEq

/-- What a step answers. -/
inductive Reply
  /-- The answer of an operation. -/
  | answer (answer : Answer)
  | reports (reports : List Report)
  | texts (texts : List Text)
  | lengths (lengths : List Nat)
  deriving DecidableEq

/-- What a step answers, and what it shows afterwards. -/
structure Record where
  /-- The answer, or why there is none. -/
  result : Except (Failure Trip) Reply
  /-- The scanner of the name, if there is one. -/
  scanner : Option Scanner
  /-- How many reports the sink of that scanner holds, or else the sink of the name. -/
  errors : Option Nat

/-! ### Scanners and sinks by name -/

/-- Open a sink at a new place, under a name. -/
def openSink (s : Session) (name : Text) (policy : Policy) : Session :=
  { s with
    places := s.places.put name s.sinks.length
    sinks := s.sinks ++ [Sink.empty policy] }

/-- Open a scanner under a name, reporting to a place. -/
def openScanner (s : Session) (name source : Text) (sink : Nat) : Session :=
  { s with stations := s.stations.put name { scanner := Scanner.new source, sink } }

/-- The sink at the place of a name, with the place. -/
def sink? (s : Session) (name : Text) : Option (Nat × Sink) :=
  (s.places.find? name).bind fun place => s.sinks[place]?.map fun sink => (place, sink)

/-- Put a sink in place of another. -/
def setSink (s : Session) (place : Nat) (sink : Sink) : Session :=
  { s with sinks := s.sinks.set place sink }

/-- The reports held at a place. -/
def reportsAt (s : Session) (place : Nat) : Option (List Report) :=
  s.sinks[place]?.map Sink.reports

/-- What a session shows of a name after a step. -/
def showing (s : Session) (name : Text) (result : Except (Failure Trip) Reply) : Session × Record :=
  match s.stations.find? name with
  | some station =>
    (s, { result, scanner := some station.scanner
          errors := (s.reportsAt station.sink).map List.length })
  | none =>
    (s, { result, scanner := none
          errors := (s.sink? name).map fun entry => entry.2.reports.length })

/-! ### Steps -/

/-- What a sink answers to a report that it takes. -/
def acknowledgement : Policy → Answer
  | .acknowledge => .flag false
  | _ => .nothing

/-- Make a report to the sink of a name. -/
def report (s : Session) (name : Text) (r : Report) : Option (Session × Record) :=
  (s.sink? name).map fun (place, sink) =>
    let received := sink.receive r
    let result :=
      match received.2 with
      | none => .ok (.answer (acknowledgement sink.policy))
      | some trip => .error (.objection trip)
    (s.setSink place received.1).showing name result

/-- Perform an operation on the scanner of a name. -/
def operate (s : Session) (name : Text) (operation : Operation) : Option (Session × Record) := do
  let station ← s.stations.find? name
  let sink ← s.sinks[station.sink]?
  let performed := operation.perform Sink.receive station.scanner sink
  let s := { s with stations := s.stations.put name { station with scanner := performed.scanner } }
  return (s.setSink station.sink performed.sink).showing name (performed.result.map .answer)

/-- Take one step; `none` when nothing of the right sort is open under a name. -/
def perform (s : Session) (request : Request) : Option (Session × Record) :=
  let name := request.name
  match request.step with
  | .openSink policy =>
    some ((s.openSink name policy).showing name (.ok (.answer .nothing)))
  -- A scanner without a sink to report to gets a new one, which then has the scanner's name too.
  | .openScanner source none =>
    let opened := (s.openSink name .record).openScanner name source s.sinks.length
    some (opened.showing name (.ok (.answer .nothing)))
  | .openScanner source (some sink) =>
    (s.places.find? sink).map fun place =>
      (s.openScanner name source place).showing name (.ok (.answer .nothing))
  | .report r => s.report name r
  | .reset =>
    (s.sink? name).map fun (place, sink) =>
      (s.setSink place sink.reset).showing name (.ok (.answer .nothing))
  | .hadError =>
    (s.sink? name).map fun (_, sink) => s.showing name (.ok (.answer (.flag sink.hadError)))
  | .errorLines =>
    (s.sink? name).map fun (_, sink) =>
      s.showing name (.ok (.texts (sink.reports.map Report.display)))
  | .errors => (s.sink? name).map fun (_, sink) => s.showing name (.ok (.reports sink.reports))
  | .operate operation => s.operate name operation
  | .held =>
    (s.stations.find? name).map fun station =>
      s.showing name (.ok (.lengths (station.scanner.held.map List.length)))
  | .tokens =>
    (s.stations.find? name).map fun station =>
      s.showing name (.ok (.answer (.tokens station.scanner.tokens)))

end Session

end LoxLexis

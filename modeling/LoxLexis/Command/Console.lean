import LoxLexis.Command.Notice
import LoxLexis.Session.Sink

/-!
# The console of a run

A run scans one text after the other, and all its scans report to one sink.  What it writes are
token dumps on the one hand and notices on the other.  A report is logged when it is made, where a
log is wanted, and it is given notice of once its scan is complete.

## Main definitions

* `Console` — the sink of a run, and what the run has written
* `Console.receive` — a report made at a console, as a reporter
* `Console.dump` — scan a text and write out what is found
* `Console.answer` — prompt for a line and dump it
* `Console.turn` — dump a line that has been prompted for, what was written before being let go

## Design notes

A dump gives notice of all reports that the sink holds by then, whichever scan made them.  So the
sink is emptied after each line of a conversation, or else the reports of a line would come again
with every line after it.
-/

namespace LoxLexis

/-- The sink of a run, and what the run has written. -/
structure Console where
  /-- A log is wanted. -/
  verbose : Bool
  sink : Sink
  stdout : Text
  /-- The lines written to standard error. -/
  notices : List Notice

/-- What is written at the front of a line that is waited for. -/
def promptMark : Text := "> ".toList

namespace Console

/-- A console at the beginning of a run. -/
def new (verbose : Bool) : Console where
  verbose := verbose
  sink := .empty .record
  stdout := []
  notices := []

def print (c : Console) (t : Text) : Console := { c with stdout := c.stdout ++ t }

def notify (c : Console) (notices : List Notice) : Console :=
  { c with notices := c.notices ++ notices }

/-- Write an entry to the log, where one is wanted. -/
def log (c : Console) (entry : LogEntry) : Console := if c.verbose then c.notify [.log entry] else c

/-- A report made at a console is logged before the sink holds it. -/
def receive : Reporter Console Trip := fun c r =>
  let received := c.sink.receive r
  ({ c.log (.reported r) with sink := received.1 }, received.2)

/-- Scan a text, then write out its tokens and give notice of the reports the sink holds. -/
def dump (c : Console) (source : Text) : Console :=
  let performed := (Scanner.new source).scan receive c
  let scanner := performed.scanner
  let logged := performed.sink.log (.scanned scanner.tokens.length scanner.line)
  let printed := logged.print (Text.ofLines (scanner.tokens.map Token.display))
  printed.notify (printed.sink.reports.map .error)

/-- A console whose sink has been emptied. -/
def emptied (c : Console) : Console := { c with sink := c.sink.reset }

/-- Prompt for a line and dump the one that comes in. -/
def answer (c : Console) (line : Text) : Console := ((c.print promptMark).dump line).emptied

/-- A console with the same sink that has written nothing yet. -/
def released (c : Console) : Console := { c with stdout := [], notices := [] }

/-- Dump a line that has come in after the prompt.  What the console has is what this line adds. -/
def turn (c : Console) (line : Text) : Console := (c.released.dump line).emptied

/-- The console at the prompt that comes after some lines. -/
def atPrompt (verbose : Bool) (lines : List Text) : Console := lines.foldl answer (new verbose)

end Console

end LoxLexis

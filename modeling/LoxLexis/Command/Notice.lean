import LoxLexis.Command.Path
import LoxLexis.Report

/-!
# Notices

Beside the token dump a run gives notices: the reports, and a log of its work where one is wanted.

## Main definitions

* `LogEntry` — what a run logs
* `Notice` — a report, or an entry of the log
* `Notice.display` — a notice as it is printed
-/

namespace LoxLexis

/-- What a run logs. -/
inductive LogEntry
  | scanning (path : Path)
  | reported (report : Report)
  /-- A scan is complete, with so many tokens and ending on some line. -/
  | scanned (tokens : Nat) (line : Int)
  deriving DecidableEq

namespace LogEntry

def message : LogEntry → Text
  | .scanning path => "Scanning ".toList ++ path.display
  | .reported report => "Reported ".toList ++ report.display
  | .scanned tokens line =>
    "Scanned ".toList ++ Text.ofNat tokens ++ " token(s) over ".toList ++ Text.ofInt line ++
      " line(s)".toList

/-- The channel of an entry; the run itself writes to the channel given. -/
def channel (run : Text) : LogEntry → Text
  | .scanning _ => run
  | _ => "lox.lexer.scanner".toList

end LogEntry

/-- A line that is not part of the token dump. -/
inductive Notice
  | log (entry : LogEntry)
  | error (report : Report)
  deriving DecidableEq

/-- A notice as it is printed, where the run itself logs to the channel given. -/
def Notice.display (run : Text) : Notice → Text
  | .log entry => "DEBUG:".toList ++ entry.channel run ++ ':' :: entry.message
  | .error report => report.display

end LoxLexis

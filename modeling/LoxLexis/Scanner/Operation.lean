import LoxLexis.Scanner.Scan

/-!
# Operations on a scanner

Everything that can be asked of a scanner is an operation, performed with a reporter.  A list of
operations is the history of a scanner.

## Main definitions

* `Operation` — what can be asked of a scanner
* `Answer` — what an operation answers
* `Operation.perform` — perform one operation
-/

namespace LoxLexis

/-- What can be asked of a scanner. -/
inductive Operation
  | scan
  /-- Begin a lexeme and take the segment there. -/
  | next
  /-- Take the segment at the position, the start left alone. -/
  | scanToken
  /-- Go on with an open string. -/
  | scanString
  | scanNumber
  /-- Move over one character and answer it. -/
  | advance
  /-- The character at the position, not moving. -/
  | peek
  /-- The character after that, not moving. -/
  | peekNext
  | atEnd
  /-- Move over the character at the position if it is the expected text. -/
  | accept (expected : Text)
  /-- Append a token with the present lexeme. -/
  | addToken (kind : Kind) (literal : Option Literal)
  /-- Report a message at the present line. -/
  | error (message : Text)
  /-- Change those of source, start, position and line that are given. -/
  | assign (source : Option Text) (start current : Option Nat) (line : Option Int)
  deriving DecidableEq

/-- What an operation answers. -/
inductive Answer
  | nothing
  | character (c : Option Char)
  | flag (b : Bool)
  | tokens (tokens : List Token)
  deriving DecidableEq

namespace Operation

variable {σ ε : Type}

/-- An operation that leaves a scanner and a signal, its signal made known to the reporter. -/
def signalled (reporter : Reporter σ ε) (sink : σ) (left : Scanner × Signal) :
    Performed σ ε Answer :=
  let heard := reporter.hear sink left.2
  { scanner := left.1, sink := heard.1, result := heard.2.elim (.ok .nothing) .error }

/-- An operation that completes without a word to the reporter. -/
def silent (sink : σ) (s : Scanner) (answer : Answer) : Performed σ ε Answer where
  scanner := s
  sink := sink
  result := .ok answer

/-- Perform an operation on a scanner whose reports go to a reporter. -/
def perform (reporter : Reporter σ ε) (s : Scanner) (sink : σ) :
    Operation → Performed σ ε Answer
  | scan =>
    let performed := s.scan reporter sink
    { performed with result := performed.result.map .tokens }
  | next => signalled reporter sink s.next
  | scanToken => signalled reporter sink s.scanToken
  | scanString => signalled reporter sink s.scanString
  | scanNumber => signalled reporter sink s.scanNumber
  | advance =>
    match s.advance with
    | .ok (c, moved) => silent sink moved (.character (some c))
    | .error fault => signalled reporter sink (s, .fault fault)
  | peek => silent sink s (.character s.peek)
  | peekNext => silent sink s (.character s.peekNext)
  | atEnd => silent sink s (.flag s.atEnd)
  | accept expected => silent sink (s.accept expected).2 (.flag (s.accept expected).1)
  | addToken kind literal => silent sink (s.addToken kind literal) .nothing
  | error message => signalled reporter sink (s, .report (s.report message))
  | assign source start current line =>
    let assigned :=
      { s with
        source := source.getD s.source
        start := start.getD s.start
        current := current.getD s.current
        line := line.getD s.line }
    silent sink assigned .nothing

end Operation

end LoxLexis

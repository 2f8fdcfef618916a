import LoxLexis.Number.Numeral
import LoxLexis.Report
import LoxLexis.Segment
import LoxLexis.Token.Basic

/-!
# The scanner

A scanner is a cursor over one source together with the tokens found so far.  It can be driven a
segment at a time, or a character at a time, from any position, also from one beyond the end.

## Main definitions

* `Scanner` — source, position, line and tokens
* `Scanner.absorb` — move over a piece of text and count its line feeds
* `Scanner.deliver` — turn the text between start and position into what its form says
* `Scanner.scanString`, `Scanner.scanNumber` — go on with a string or number already begun
* `Scanner.scanToken`, `Scanner.next` — take the segment at the position
* `Signal` — what an operation has to say besides the scanner it leaves

## Design notes

An operation says at most one thing, and says it last: either it makes a report or it fails.  So an
operation returns the scanner it leaves and a signal, and what becomes of a report is no concern of
the scanner.  The lexeme and the literal are cut out between `start` and `current`, wherever an
operation found them; only where a segment was taken as a whole are they the text of the segment.

The list of tokens that a completed scan gives away is the one the scanner goes on with until the
next scan starts a new list.  `lent` marks such a list, and `earlier` keeps the ones before it.
-/

namespace LoxLexis

/-- Why an operation of a scanner fails by itself. -/
inductive Fault
  /-- There is no character at the position. -/
  | pastEnd
  /-- The text between start and position is no numeral. -/
  | malformedNumeral (text : Text)
  deriving DecidableEq

def Fault.message : Fault → Text
  | .pastEnd => "string index out of range".toList
  | .malformedNumeral text => "could not convert string to float: ".toList ++ Text.quoted text

/-- What an operation of a scanner has to say in the end. -/
inductive Signal
  | done
  /-- The text it went over is no token. -/
  | report (report : Report)
  /-- It cannot do what it is asked to. -/
  | fault (fault : Fault)
  deriving DecidableEq

/-- What is reported of a string without a closing quote. -/
def unterminatedString : Text := "Unterminated string.".toList

/-- What is reported of a character that begins nothing. -/
def unexpectedCharacter : Text := "Unexpected character.".toList

/-- A cursor over a source, and the tokens found. -/
structure Scanner where
  source : Text
  /-- The position where the present lexeme begins. -/
  start : Nat
  /-- The position of the next character. -/
  current : Nat
  /-- The line of the position, counted from one. -/
  line : Int
  /-- The tokens of the present list. -/
  tokens : List Token
  /-- The present list was given away by a completed scan. -/
  lent : Bool
  /-- The lists given away before the present one was begun. -/
  earlier : List (List Token)
  deriving DecidableEq

namespace Scanner

/-- A scanner at the beginning of a source. -/
def new (source : Text) : Scanner where
  source := source
  start := 0
  current := 0
  line := 1
  tokens := []
  lent := false
  earlier := []

/-! ### What a scanner shows -/

/-- The text from the position on. -/
def rest (s : Scanner) : Text := s.source.drop s.current

def atEnd (s : Scanner) : Bool := s.source.length ≤ s.current

/-- The text between the start and the position. -/
def lexeme (s : Scanner) : Text := Text.slice s.source s.start s.current

/-- The lexeme without its first and its last character. -/
def unquoted (s : Scanner) : Text := Text.slice s.source (s.start + 1) (s.current - 1)

/-- The character at the position. -/
def peek (s : Scanner) : Option Char := s.source[s.current]?

/-- The character after the one at the position. -/
def peekNext (s : Scanner) : Option Char := s.source[s.current + 1]?

/-- All lists of tokens given away by completed scans, as they are now. -/
def held (s : Scanner) : List (List Token) :=
  s.earlier ++ if s.lent then [s.tokens] else []

/-! ### How a scanner moves -/

/-- Move over a piece of text, counting its line feeds. -/
def absorb (s : Scanner) (t : Text) : Scanner :=
  { s with current := s.current + t.length, line := s.line + Text.lineFeeds t }

/-- Append a token with the present lexeme and line. -/
def addToken (s : Scanner) (kind : Kind) (literal : Option Literal) : Scanner :=
  { s with tokens := s.tokens ++ [{ kind, lexeme := s.lexeme, literal, line := s.line }] }

/-- The report of a message at the present line. -/
def report (s : Scanner) (message : Text) : Report where
  line := s.line
  message := message

/-- Make of the present lexeme what its form says: a token, nothing, or a report.  A number is
refused when its lexeme is no numeral. -/
def deliver (s : Scanner) : Form → Scanner × Signal
  | .token .string => (s.addToken .string (some (.text s.unquoted)), .done)
  | .token .number =>
    match Binary64.ofText? s.lexeme with
    | some value => (s.addToken .number (some (.number value)), .done)
    | none => (s, .fault (.malformedNumeral s.lexeme))
  | .token kind => (s.addToken kind none, .done)
  | .layout => (s, .done)
  | .unterminated => (s, .report (s.report unterminatedString))
  | .unexpected => (s, .report (s.report unexpectedCharacter))

/-- Go on from the position with a string that is already open. -/
def scanString (s : Scanner) : Scanner × Signal :=
  (s.absorb (stringTail s.rest).text).deliver (stringTail s.rest).form

/-- Go on from the position with a number that is already begun. -/
def scanNumber (s : Scanner) : Scanner × Signal :=
  (s.absorb (numberTail s.rest)).deliver (.token .number)

/-- Take the segment at the position.  The start is left where it is. -/
def scanToken (s : Scanner) : Scanner × Signal :=
  match s.rest with
  | [] => (s, .fault .pastEnd)
  | c :: rest => (s.absorb (Segment.first c rest).text).deliver (Segment.first c rest).form

/-- Begin a lexeme at the position and take the segment there. -/
def next (s : Scanner) : Scanner × Signal := { s with start := s.current }.scanToken

/-- Move over one character without counting line feeds. -/
def advance (s : Scanner) : Except Fault (Char × Scanner) :=
  match s.rest with
  | [] => .error .pastEnd
  | c :: _ => .ok (c, { s with current := s.current + 1 })

/-- Move over the character at the position if it is all of the expected text. -/
def accept (s : Scanner) (expected : Text) : Bool × Scanner :=
  if s.peek.any fun c => [c] = expected then (true, { s with current := s.current + 1 })
  else (false, s)

/-- Back to the beginning of the source, with a new list of tokens. -/
def restarted (s : Scanner) : Scanner where
  source := s.source
  start := 0
  current := 0
  line := 1
  tokens := []
  lent := false
  earlier := s.held

/-! ### What stays as it is -/

@[simp] theorem absorb_source (s : Scanner) (t : Text) : (s.absorb t).source = s.source := rfl

@[simp] theorem absorb_start (s : Scanner) (t : Text) : (s.absorb t).start = s.start := rfl

@[simp] theorem absorb_current (s : Scanner) (t : Text) :
    (s.absorb t).current = s.current + t.length := rfl

@[simp] theorem absorb_line (s : Scanner) (t : Text) :
    (s.absorb t).line = s.line + Text.lineFeeds t := rfl

@[simp] theorem absorb_tokens (s : Scanner) (t : Text) : (s.absorb t).tokens = s.tokens := rfl

/-- Delivering changes nothing but the list of tokens. -/
theorem deliver_eq (s : Scanner) (f : Form) :
    ∃ new, (s.deliver f).1 = { s with tokens := s.tokens ++ new } := by
  unfold deliver
  split
  · exact ⟨_, rfl⟩
  · split
    · exact ⟨_, rfl⟩
    · exact ⟨[], by simp⟩
  · exact ⟨_, rfl⟩
  · exact ⟨[], by simp⟩
  · exact ⟨[], by simp⟩
  · exact ⟨[], by simp⟩

@[simp] theorem deliver_source (s : Scanner) (f : Form) : (s.deliver f).1.source = s.source := by
  obtain ⟨new, h⟩ := s.deliver_eq f
  rw [h]

@[simp] theorem deliver_start (s : Scanner) (f : Form) : (s.deliver f).1.start = s.start := by
  obtain ⟨new, h⟩ := s.deliver_eq f
  rw [h]

@[simp] theorem deliver_current (s : Scanner) (f : Form) :
    (s.deliver f).1.current = s.current := by
  obtain ⟨new, h⟩ := s.deliver_eq f
  rw [h]

@[simp] theorem deliver_line (s : Scanner) (f : Form) : (s.deliver f).1.line = s.line := by
  obtain ⟨new, h⟩ := s.deliver_eq f
  rw [h]

@[simp] theorem scanToken_source (s : Scanner) : s.scanToken.1.source = s.source := by
  unfold scanToken
  split <;> simp

@[simp] theorem next_source (s : Scanner) : s.next.1.source = s.source := by
  simp [next]

theorem rest_ne_nil_iff {s : Scanner} : s.rest ≠ [] ↔ s.current < s.source.length := by
  simp [rest]

/-- Before the end, taking a segment moves the position on. -/
theorem lt_scanToken_current {s : Scanner} (h : s.current < s.source.length) :
    s.current < s.scanToken.1.current := by
  unfold scanToken
  split
  · next hr => exact absurd hr (rest_ne_nil_iff.mpr h)
  · next c rest _ =>
    have := Segment.length_first_pos c rest
    simp only [deliver_current, absorb_current]
    omega

/-- Before the end, the next segment moves the position on. -/
theorem lt_next_current {s : Scanner} (h : s.current < s.source.length) :
    s.current < s.next.1.current :=
  lt_scanToken_current (s := { s with start := s.current }) h

end Scanner

end LoxLexis

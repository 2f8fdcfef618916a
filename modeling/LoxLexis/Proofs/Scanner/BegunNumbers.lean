import LoxLexis.Proofs.Scan.Numbers
import LoxLexis.Proofs.Scanner.Failing
import LoxLexis.Proofs.Segment.Longest

/-!
# Going on with a number

A scanner may be asked to go on with a number wherever it stands, also where no number has been begun
and beyond the end of its source.  What it moves over is the longest piece in front of it that can go
on a number: digits, and a point if digits follow it.  That is the rule of the longest piece once more,
since a text can go on a number if it makes a number after a digit.

The lexeme is another matter, as it begins at the start, wherever that is.  If it is a number by then, it
is read and appended as a token; if it is not, it may be refused, but never before the scanner has been
moved.

## Main definitions

* `GoesOnNumber` — the texts that can go on a number
* `LongestGoingOn` — the longest such piece at the front of a text
* `AfterNumber` — what is left when a scanner has gone on with a number

## Main statements

* `lexeme_cons_iff` — a text can go on a number if it makes a number after a digit
* `longestGoingOn_numberTail` — a number goes on by the longest piece
* `scanNumber_from_anywhere` — a scanner goes on with a number from any position
-/

namespace LoxLexis

/-- Digits, if there are any, and possibly a point with digits after it. -/
inductive GoesOnNumber : Text → Prop
  | whole {ds : Text} (digits : ∀ c ∈ ds, c.isDigit = true) : GoesOnNumber ds
  | fraction {ds es : Text} (digits : ∀ c ∈ ds, c.isDigit = true) (places : Digits es) :
      GoesOnNumber (ds ++ '.' :: es)

/-- The longest piece at the front of a text that can go on a number. -/
structure LongestGoingOn (t u : Text) : Prop where
  goesOn : GoesOnNumber u
  front : u <+: t
  longest : ∀ v, GoesOnNumber v → v <+: t → v.length ≤ u.length

/-! ### The longest piece -/

section

variable {d : Char} (hd : d.isDigit = true)
include hd

theorem digits_cons {ds : Text} (digits : ∀ c ∈ ds, c.isDigit = true) : Digits (d :: ds) :=
  ⟨List.cons_ne_nil d ds, List.forall_mem_cons.mpr ⟨hd, digits⟩⟩

/-- **A text can go on a number if it makes a number after a digit.** -/
theorem lexeme_cons_iff {t : Text} : Lexeme (.token .number) (d :: t) ↔ GoesOnNumber t := by
  constructor
  · intro number
    rcases number.number_cases with whole | ⟨ds, es, hds, hes, split⟩
    · exact .whole (List.forall_mem_cons.mp whole.isDigit).2
    · -- The point is not the first character, since that is a digit.
      obtain ⟨e, ds, rfl, -, digits⟩ := hds.exists_cons
      obtain ⟨rfl, rfl⟩ := List.cons.inj split
      exact .fraction digits hes
  · intro goesOn
    cases goesOn with
    | whole digits => exact .whole (digits_cons hd digits)
    | fraction digits places => exact .decimal (digits_cons hd digits) places

end

/-- **A number goes on by the longest piece that can go on a number.** -/
theorem longestGoingOn_numberTail (t : Text) : LongestGoingOn t (numberTail t) := by
  have zero : ('0').isDigit = true := rfl
  have first := Segment.first_of_digit zero t
  have number : Lexeme (.token .number) ('0' :: numberTail t) := by
    have shape := (Segment.first_shape '0' t).1
    rw [first] at shape
    exact shape.lexeme_of_token rfl
  refine ⟨(lexeme_cons_iff zero).mp number, numberTail_prefix_rest t, ?_⟩
  intro v goesOn front
  have piece : Lexeme (.token .number) ('0' :: v) := (lexeme_cons_iff zero).mpr goesOn
  have short := (piece.first_of_prefix ((List.prefix_cons_inj '0').mpr front)).1
  rw [first] at short
  exact Nat.le_of_succ_le_succ short

/-- A number may go on with a point at once, but not with a point at the end. -/
example : numberTail ".5.6".toList = ".5".toList ∧ numberTail "7.".toList = "7".toList := by decide

/-! ### From any position -/

namespace Scanner

/-- The scanner that has moved over what goes on a number at its position. -/
def pastNumber (s : Scanner) : Scanner :=
  { s with current := s.current + (numberTail s.rest).length }

/-- What goes on a number has no line feeds, so nothing but the position moves. -/
theorem absorb_numberTail (s : Scanner) : s.absorb (numberTail s.rest) = s.pastNumber := by
  rw [absorb, lineFeeds_numberTail, Int.natCast_zero, Int.add_zero, pastNumber]

/-- Beyond the end of the source there is nothing to go on with. -/
theorem numberTail_of_beyond {s : Scanner} (h : s.source.length ≤ s.current) :
    numberTail s.rest = [] := by
  rw [rest, List.drop_eq_nil_iff.mpr h]
  rfl

end Scanner

variable {σ ε : Type}

/-- A lexeme has been read as a number and appended as a token at the line of a scanner. -/
structure AppendsNumber (s : Scanner) (lexeme : Text) (value : Binary64)
    (p : Performed σ ε Answer) : Prop where
  result : p.result = .ok .nothing
  tokens : p.scanner.tokens =
    s.tokens ++ [{ kind := .number, lexeme, literal := some (.number value), line := s.line }]

/-- A lexeme has been refused, and no token has been appended. -/
structure RefusesNumber (s : Scanner) (lexeme : Text) (p : Performed σ ε Answer) : Prop where
  result : p.result = .error (.fault (.malformedNumeral lexeme))
  tokens : p.scanner.tokens = s.tokens

/-- What is left when a scanner has gone on with a number over a piece of its source. -/
structure AfterNumber (s : Scanner) (sink : σ) (moved lexeme : Text) (p : Performed σ ε Answer) :
    Prop where
  longest : LongestGoingOn (s.source.drop s.current) moved
  /-- At the end and beyond it there is nothing to move over. -/
  beyond : s.source.length ≤ s.current → moved = []
  cut : lexeme = Text.slice s.source s.start (s.current + moved.length)
  /-- Nothing but the position and the tokens may differ. -/
  frame : p.scanner =
    { s with current := s.current + moved.length, tokens := p.scanner.tokens }
  /-- The reporter hears nothing. -/
  silent : p.sink = sink
  /-- A lexeme that is a number is appended with the double nearest to it. -/
  number : Lexeme (.token .number) lexeme →
    ∃ value, Binary64.Rounds lexeme.toRat value ∧ AppendsNumber s lexeme value p
  /-- Any other lexeme may be read as a number all the same, or it is refused. -/
  ends : (∃ value, AppendsNumber s lexeme value p) ∨ RefusesNumber s lexeme p
  /-- By characters, too, the piece is moved over, and only then a number has to be read. -/
  characters : ∀ read, Scanner.Indexed.scanNumber read s =
    Scanner.Indexed.deliverBy read { s with current := s.current + moved.length } (.token .number)

/-- What is read of the lexeme decides how a number ends, and the reporter is not asked. -/
theorem perform_scanNumber (reporter : Reporter σ ε) (s : Scanner) (sink : σ) :
    (∃ value, Binary64.ofText? s.pastNumber.lexeme = some value ∧
      Operation.scanNumber.perform reporter s sink =
        { scanner := s.pastNumber.addToken .number (some (.number value))
          sink := sink
          result := .ok .nothing }) ∨
    Binary64.ofText? s.pastNumber.lexeme = none ∧
      Operation.scanNumber.perform reporter s sink =
        { scanner := s.pastNumber
          sink := sink
          result := .error (.fault (.malformedNumeral s.pastNumber.lexeme)) } := by
  have performed : Operation.scanNumber.perform reporter s sink =
      Operation.signalled reporter sink (s.pastNumber.deliver (.token .number)) := by
    rw [← Scanner.absorb_numberTail]
    rfl
  rw [performed, Scanner.deliver]
  cases read : Binary64.ofText? s.pastNumber.lexeme with
  | some value => exact .inl ⟨value, rfl, rfl⟩
  | none => exact .inr ⟨rfl, rfl⟩

/-- A lexeme that is a number is read as the double nearest to it. -/
theorem rounds_of_lexeme {t : Text} {value : Binary64} (number : Lexeme (.token .number) t)
    (read : Binary64.ofText? t = some value) : Binary64.Rounds t.toRat value := by
  rw [Binary64.ofText?_of_lexeme number] at read
  obtain rfl := Option.some.inj read
  rw [← Numeral.toRat_plain]
  exact Decimal.rounds_magnitude? _

/-- What is moved over, and where the lexeme is cut, do not depend on how it ends. -/
theorem afterNumber_of {s : Scanner} {sink : σ} {p : Performed σ ε Answer}
    (frame : p.scanner = { s.pastNumber with tokens := p.scanner.tokens }) (silent : p.sink = sink)
    (number : Lexeme (.token .number) s.pastNumber.lexeme → ∃ value,
      Binary64.Rounds s.pastNumber.lexeme.toRat value ∧ AppendsNumber s s.pastNumber.lexeme value p)
    (ends : (∃ value, AppendsNumber s s.pastNumber.lexeme value p) ∨
      RefusesNumber s s.pastNumber.lexeme p) :
    AfterNumber s sink (numberTail s.rest) s.pastNumber.lexeme p where
  longest := longestGoingOn_numberTail s.rest
  beyond := Scanner.numberTail_of_beyond
  cut := rfl
  frame := frame
  silent := silent
  number := number
  ends := ends
  characters := by
    intro read
    rw [Scanner.Indexed.scanNumber_eq, Scanner.absorb_numberTail]
    rfl

/-- **A scanner goes on with a number from any position**, over the longest piece that can go on one,
and appends what its lexeme is as a number. -/
theorem scanNumber_from_anywhere (reporter : Reporter σ ε) (s : Scanner) (sink : σ) :
    ∃ moved lexeme,
      AfterNumber s sink moved lexeme (Operation.scanNumber.perform reporter s sink) := by
  refine ⟨numberTail s.rest, s.pastNumber.lexeme, ?_⟩
  rcases perform_scanNumber reporter s sink with ⟨value, read, performed⟩ | ⟨none, performed⟩
  · rw [performed]
    have appends : AppendsNumber s s.pastNumber.lexeme value
        { scanner := s.pastNumber.addToken .number (some (.number value))
          sink := sink
          result := (.ok .nothing : Except (Failure ε) Answer) } := ⟨rfl, rfl⟩
    refine afterNumber_of rfl rfl (fun number => ?_) (.inl ⟨value, appends⟩)
    exact ⟨value, rounds_of_lexeme number read, appends⟩
  · rw [performed]
    refine afterNumber_of rfl rfl (fun number => ?_) (.inr ⟨rfl, rfl⟩)
    -- A lexeme that is a number is always read.
    rw [Binary64.ofText?_of_lexeme number] at none
    cases none

end LoxLexis

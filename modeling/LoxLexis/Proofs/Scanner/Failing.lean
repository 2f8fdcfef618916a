import LoxLexis.Proofs.Scan.Lines
import LoxLexis.Proofs.Scanner.Indexed
import LoxLexis.Proofs.Scanner.Outcome

/-!
# What a failing step leaves behind

A step fails in one of three ways, and each has its place.  There may be no character to take, and
then nothing has been done.  The text between start and position may be no number, and then the
scanner has been moved but has no token yet.  Or the reporter objects to what it is told; that is the
last thing that a step does, and it adds no token then.  So of every failure one can say what the
scanner would be like without it, and it is like that.

What would have been is said in two ways.  Another reporter takes the place of the one that objects.
And `Operation.byCharacters` takes a step by looking at characters, with any function to read
numbers: it is the step itself when the function is the one that reads them here.

## Main definitions

* `Operation.taken` — what a step leaves and says
* `Operation.byCharacters` — the same by characters, with a function to read numbers
* `FailsCleanly` — what a step leaves when it fails, and when it fails

## Main statements

* `Operation.heard_perform` — the scanner that a step leaves is no matter of its reporter, and how
  the step ends is a matter of what the reporter makes of what is said
* `Operation.byCharacters_eq` — a step by characters is the step
* `failsCleanly` — steps fail cleanly from every position
-/

namespace LoxLexis

variable {σ ε : Type}

namespace Operation

/-- What a step leaves and says. -/
def taken (s : Scanner) : Operation → Scanner × Signal
  | next => s.next
  | scanToken => s.scanToken
  | scanString => s.scanString
  | scanNumber => s.scanNumber
  | advance =>
    match s.advance with
    | .ok (_, moved) => (moved, .done)
    | .error fault => (s, .fault fault)
  | accept expected => ((s.accept expected).2, .done)
  | addToken kind literal => (s.addToken kind literal, .done)
  | error message => (s, .report (s.report message))
  | _ => (s, .done)

open Scanner in
/-- A step taken by looking at characters.  Numbers are read by a function that need not make sense
of every text. -/
def byCharacters (read : Text → Option Binary64) (s : Scanner) :
    Operation → Except Fault (Scanner × Signal)
  | next => Indexed.scanToken read { s with start := s.current }
  | scanToken => Indexed.scanToken read s
  | scanString => Indexed.scanString s
  | scanNumber => Indexed.scanNumber read s
  | advance => do
    let (_, moved) ← Indexed.advance s
    return (moved, .done)
  | peek => do
    let _ ← Indexed.peek s
    return (s, .done)
  | peekNext => do
    let _ ← Indexed.peekNext s
    return (s, .done)
  | accept [expected] => do
    let (_, moved) ← Indexed.accept s expected
    return (moved, .done)
  | addToken kind literal => .ok (s.addToken kind literal, .done)
  | error message => .ok (s, .report (s.report message))
  | _ => .ok (s, .done)

/-- The steps that take a character or fail. -/
def takesCharacter : Operation → Bool
  | next | scanToken | advance => true
  | _ => false

/-- The steps that never fail. -/
def neverFails : Operation → Bool
  | accept .. | peek | peekNext | atEnd | addToken .. => true
  | _ => false

/-- The scanner when a step has begun: only the start may have been put at the position. -/
def begun (s : Scanner) : Operation → Scanner
  | next => { s with start := s.current }
  | _ => s

end Operation

/-- What is left and said, or the fault if that is what is said. -/
def Signal.completed : Scanner × Signal → Except Fault (Scanner × Signal)
  | (_, .fault f) => .error f
  | left => .ok left

/-- When a step fails, and what it leaves then. -/
structure FailsCleanly (reporter : Reporter σ ε) (s : Scanner) (sink : σ) (operation : Operation) :
    Prop where
  /-- A failure leaves the source and the tokens as they were. -/
  kept : ∀ failure, (operation.perform reporter s sink).result = .error failure →
    (operation.perform reporter s sink).scanner.source = s.source ∧
      (operation.perform reporter s sink).scanner.tokens = s.tokens
  /-- There is no character to take at or beyond the end, and only there. -/
  pastEnd : (operation.perform reporter s sink).result = .error (.fault .pastEnd) ↔
    operation.takesCharacter = true ∧ s.source.length ≤ s.current
  /-- Nothing has been done then. -/
  untouched : (operation.perform reporter s sink).result = .error (.fault .pastEnd) →
    (operation.perform reporter s sink).scanner = operation.begun s ∧
      (operation.perform reporter s sink).sink = sink
  /-- An objection leaves the scanner that a reporter that never objects would have left. -/
  objection : ∀ objection,
    (operation.perform reporter s sink).result = .error (.objection objection) →
      ∀ {τ δ : Type} (other : Reporter τ δ) (k : τ), other.Quiet →
        (∃ answer, (operation.perform other s k).result = .ok answer) ∧
          (operation.perform other s k).scanner = (operation.perform reporter s sink).scanner
  /-- A text that is no number leaves the scanner that a number would have been appended to. -/
  malformed : ∀ text,
    (operation.perform reporter s sink).result = .error (.fault (.malformedNumeral text)) →
      (operation = .scanNumber ∨ operation = .scanToken) ∧
        (operation.perform reporter s sink).scanner.start = s.start ∧
        (operation.perform reporter s sink).scanner.line = s.line ∧
        ∀ read value, read text = some value →
          operation.byCharacters read s =
            .ok ((operation.perform reporter s sink).scanner.addToken .number
              (some (.number value)), .done)
  /-- By characters, too, only these steps look for one that is not there. -/
  indexed : ∀ read, operation.byCharacters read s = .error .pastEnd ↔
    operation.takesCharacter = true ∧ s.source.length ≤ s.current
  /-- Otherwise, too, a step is what it is by characters, with what it says heard by the reporter. -/
  characters : ∀ left, operation.byCharacters Binary64.ofText? s = .ok left →
    (operation.perform reporter s sink).scanner = left.1 ∧
      (operation.perform reporter s sink).sink = (reporter.hear sink left.2).1
  complete : operation.neverFails = true →
    (∃ answer, (operation.perform reporter s sink).result = .ok answer) ∧
      ∀ read, ∃ left, operation.byCharacters read s = .ok left

/-! ### Steps and their reporters -/

/-- Something performed leaves a scanner, and what there is to say has been heard by a reporter. -/
structure Performed.Heard (reporter : Reporter σ ε) (sink : σ) (left : Scanner × Signal)
    (p : Performed σ ε Answer) : Prop where
  scanner : p.scanner = left.1
  /-- It fails if the reporter makes a failure of what is said, and only then. -/
  failed : ∀ {failure}, p.result = .error failure ↔
    (reporter.hear sink left.2).2 = some failure
  sink : p.sink = (reporter.hear sink left.2).1

/-- It completes if the reporter makes no failure of what is said. -/
theorem Performed.Heard.exists_ok {reporter : Reporter σ ε} {sink : σ} {left : Scanner × Signal}
    {p : Performed σ ε Answer} (heard : p.Heard reporter sink left)
    (accepted : (reporter.hear sink left.2).2 = none) : ∃ answer, p.result = .ok answer := by
  cases result : p.result with
  | ok answer => exact ⟨answer, rfl⟩
  | error failure =>
      have objected := heard.failed.mp result
      rw [accepted] at objected
      cases objected

namespace Operation

variable {reporter : Reporter σ ε} {s : Scanner} {sink : σ} {operation : Operation}

theorem heard_signalled (left : Scanner × Signal) :
    (signalled reporter sink left).Heard reporter sink left where
  scanner := rfl
  failed := by
    intro failure
    simp only [signalled]
    cases (reporter.hear sink left.2).2 with
    | none => exact ⟨nofun, nofun⟩
    | some failure' => simp
  sink := rfl

theorem heard_silent (left : Scanner) (answer : Answer) :
    (silent sink left answer : Performed σ ε Answer).Heard reporter sink (left, .done) where
  scanner := rfl
  failed := ⟨nofun, nofun⟩
  sink := rfl

/-- **A step leaves the same scanner with every reporter, and its reporter hears what it says.** -/
theorem heard_perform (h : operation.isStep = true) :
    (operation.perform reporter s sink).Heard reporter sink (operation.taken s) := by
  cases operation with
  | scan => cases h
  | assign => cases h
  | next => exact heard_signalled _
  | scanToken => exact heard_signalled _
  | scanString => exact heard_signalled _
  | scanNumber => exact heard_signalled _
  | error message => exact heard_signalled _
  | advance =>
      simp only [perform, taken]
      cases s.advance with
      | ok moved => exact heard_silent _ _
      | error fault => exact heard_signalled _
  | _ => exact heard_silent _ _

end Operation

/-- A fault is passed on as it is, whoever hears of it. -/
theorem Reporter.hear_eq_fault_iff {reporter : Reporter σ ε} {sink : σ} {signal : Signal}
    {f : Fault} : (reporter.hear sink signal).2 = some (.fault f) ↔ signal = .fault f := by
  cases signal with
  | done => exact ⟨nofun, nofun⟩
  | fault f' => simp [Reporter.hear]
  | report r =>
      simp only [Reporter.hear]
      cases (reporter sink r).2 with
      | none => exact ⟨nofun, nofun⟩
      | some objection => exact ⟨nofun, nofun⟩

/-- What is objected to is a report, and a reporter that never objects takes it. -/
theorem Reporter.hear_of_objection {τ δ : Type} {reporter : Reporter σ ε} {sink : σ}
    {signal : Signal} {objection : ε}
    (h : (reporter.hear sink signal).2 = some (.objection objection)) {other : Reporter τ δ}
    (quiet : other.Quiet) (k : τ) : (other.hear k signal).2 = none := by
  cases signal with
  | done => cases h
  | fault f => cases h
  | report r =>
      simp only [Reporter.hear, quiet k r]
      rfl

/-! ### Steps by characters -/

theorem Signal.completed_eq_error_iff {left : Scanner × Signal} {f : Fault} :
    completed left = .error f ↔ left.2 = .fault f := by
  obtain ⟨left, signal⟩ := left
  cases signal with
  | fault f' => simp [completed]
  | done => exact ⟨nofun, nofun⟩
  | report r => exact ⟨nofun, nofun⟩

theorem Signal.eq_of_completed {left left' : Scanner × Signal} (h : completed left = .ok left') :
    left = left' := by
  obtain ⟨left, signal⟩ := left
  cases signal with
  | fault f => cases h
  | done => exact Except.ok.inj h
  | report r => exact Except.ok.inj h

theorem Signal.completed_of_ne {left : Scanner × Signal} (h : ∀ f, left.2 ≠ .fault f) :
    completed left = .ok left := by
  obtain ⟨left, signal⟩ := left
  cases signal with
  | fault f => exact absurd rfl (h f)
  | done => rfl
  | report r => rfl

namespace Scanner

/-- Delivering fails only for a number, and then it does nothing. -/
theorem deliver_of_fault {s : Scanner} {form : Form} {f : Fault}
    (h : (s.deliver form).2 = .fault f) :
    form = .token .number ∧ (s.deliver form).1 = s ∧ f = .malformedNumeral s.lexeme := by
  unfold deliver at h ⊢
  split at h
  · cases h
  · split at h
    · cases h
    · exact ⟨rfl, rfl, (Signal.fault.inj h).symm⟩
  · cases h
  · cases h
  · cases h
  · cases h

namespace Indexed

variable {s : Scanner} {read : Text → Option Binary64}

theorem deliverBy_ofText? (s : Scanner) (form : Form) :
    deliverBy Binary64.ofText? s form = Signal.completed (s.deliver form) := by
  by_cases number : form = .token .number
  · subst number
    unfold deliverBy deliver
    cases Binary64.ofText? s.lexeme <;> rfl
  · rw [deliverBy_of_ne number, Signal.completed_of_ne]
    exact fun f fault => number (deliver_of_fault fault).1

theorem deliverBy_ne_pastEnd (read : Text → Option Binary64) (s : Scanner) (form : Form) :
    deliverBy read s form ≠ .error .pastEnd := by
  unfold deliverBy
  split
  · split
    · exact nofun
    · exact nofun
  · exact nofun

/-- A number that can be read is appended as a token. -/
theorem deliverBy_of_read {value : Binary64} (h : read s.lexeme = some value) :
    deliverBy read s (.token .number) = .ok (s.addToken .number (some (.number value)), .done) := by
  unfold deliverBy
  rw [h]

theorem advance_of_nil (h : s.rest = []) : advance s = .error .pastEnd := by
  have none : s.source[s.current]? = none :=
    List.getElem?_eq_none (List.drop_eq_nil_iff.mp h)
  rw [advance, charAt, none]
  rfl

theorem scanToken_of_nil (h : s.rest = []) : scanToken read s = .error .pastEnd := by
  rw [scanToken, advance_of_nil h]
  rfl

theorem beyond_iff : s.source.length ≤ s.current ↔ s.rest = [] := List.drop_eq_nil_iff.symm

theorem scanToken_eq_pastEnd_iff :
    scanToken read s = .error .pastEnd ↔ s.source.length ≤ s.current := by
  rw [beyond_iff]
  cases hrest : s.rest with
  | nil => exact iff_of_true (scanToken_of_nil hrest) rfl
  | cons c rest =>
      rw [scanToken_eq_deliverBy read hrest]
      exact iff_of_false (deliverBy_ne_pastEnd read _ _) (List.cons_ne_nil c rest)

theorem scanToken_completed (s : Scanner) :
    scanToken Binary64.ofText? s = Signal.completed s.scanToken := by
  cases hrest : s.rest with
  | nil =>
      rw [scanToken_of_nil hrest, Scanner.scanToken, hrest]
      rfl
  | cons c rest =>
      rw [scanToken_eq_deliverBy _ hrest, deliverBy_ofText?, Scanner.scanToken, hrest]

theorem advance_eq (s : Scanner) : advance s = s.advance := by
  cases hrest : s.rest with
  | nil => rw [advance_of_nil hrest, Scanner.advance, hrest]
  | cons c rest => rw [advance_of_rest hrest, Scanner.advance, hrest]

theorem accept_singleton (s : Scanner) (expected : Char) :
    accept s expected = .ok (s.accept [expected]) := by
  have peeked : s.peek = s.rest.head? := List.head?_drop.symm
  rw [accept_eq, Scanner.accept, peeked]
  cases s.rest.head? with
  | none => rfl
  | some c => simp

theorem deliverBy_stringTail (read : Text → Option Binary64) (s : Scanner) :
    .ok s.scanString =
      deliverBy read (s.absorb (stringTail s.rest).text) (stringTail s.rest).form :=
  (deliverBy_of_ne (form_stringTail_ne s.rest) read _).symm

end Indexed

/-- A text that is not one character is never moved over. -/
theorem accept_of_length_ne {s : Scanner} {expected : Text} (h : expected.length ≠ 1) :
    s.accept expected = (false, s) := by
  have differs (c : Char) : [c] ≠ expected := by
    rintro rfl
    exact h rfl
  rw [accept, if_neg]
  cases s.peek with
  | none => simp
  | some c => simpa using differs c

end Scanner

namespace Operation

variable {s : Scanner} {operation : Operation}

/-- Steps that never fail do not depend on how numbers are read, either. -/
theorem byCharacters_of_neverFails (never : operation.neverFails = true)
    (read : Text → Option Binary64) : operation.byCharacters read s = .ok (operation.taken s) := by
  cases operation with
  | accept expected =>
      -- By characters, only one character can be expected.
      rcases expected with - | ⟨c, - | ⟨d, t⟩⟩
      · rw [taken, Scanner.accept_of_length_ne (by simp)]
        rfl
      · simp only [byCharacters, taken, Scanner.Indexed.accept_singleton]
        rfl
      · rw [taken, Scanner.accept_of_length_ne (by simp)]
        rfl
  | peek =>
      simp only [byCharacters, Scanner.Indexed.peek_eq]
      rfl
  | peekNext =>
      simp only [byCharacters, Scanner.Indexed.peekNext_eq]
      rfl
  | atEnd => rfl
  | addToken kind literal => rfl
  | _ => cases never

open Scanner in
/-- **A step by characters is the step, if it reads numbers as they are read.** -/
theorem byCharacters_eq (h : operation.isStep = true) :
    operation.byCharacters Binary64.ofText? s = Signal.completed (operation.taken s) := by
  cases operation with
  | scan => cases h
  | assign => cases h
  | next => exact Indexed.scanToken_completed _
  | scanToken => exact Indexed.scanToken_completed s
  | scanString =>
      show Indexed.scanString s = _
      rw [Indexed.scanString_eq, Indexed.deliverBy_stringTail Binary64.ofText?,
        Indexed.deliverBy_ofText?]
      rfl
  | scanNumber =>
      show Indexed.scanNumber Binary64.ofText? s = _
      rw [Indexed.scanNumber_eq, Indexed.deliverBy_ofText?]
      rfl
  | advance =>
      simp only [byCharacters, taken, Indexed.advance_eq]
      cases s.advance <;> rfl
  | error message => rfl
  | _ => exact byCharacters_of_neverFails rfl _

open Scanner in
/-- No step looks for a character beyond the end, but for those that have to take one there. -/
theorem byCharacters_eq_pastEnd_iff (read : Text → Option Binary64) :
    operation.byCharacters read s = .error .pastEnd ↔
      operation.takesCharacter = true ∧ s.source.length ≤ s.current := by
  cases operation with
  | next => exact Indexed.scanToken_eq_pastEnd_iff.trans (and_iff_right rfl).symm
  | scanToken => exact Indexed.scanToken_eq_pastEnd_iff.trans (and_iff_right rfl).symm
  | advance =>
      refine Iff.trans ?_ (and_iff_right rfl).symm
      rw [Indexed.beyond_iff]
      simp only [byCharacters]
      cases hrest : s.rest with
      | nil =>
          rw [Indexed.advance_of_nil hrest]
          exact iff_of_true rfl rfl
      | cons c rest =>
          rw [Indexed.advance_of_rest hrest]
          exact iff_of_false nofun (List.cons_ne_nil c rest)
  | scanString =>
      refine iff_of_false ?_ nofun
      show Indexed.scanString s ≠ _
      rw [Indexed.scanString_eq]
      exact nofun
  | scanNumber =>
      refine iff_of_false ?_ nofun
      show Indexed.scanNumber read s ≠ _
      rw [Indexed.scanNumber_eq]
      exact Indexed.deliverBy_ne_pastEnd read _ _
  | scan => exact iff_of_false nofun nofun
  | assign => exact iff_of_false nofun nofun
  | error message => exact iff_of_false nofun nofun
  | _ =>
      rw [byCharacters_of_neverFails rfl]
      exact iff_of_false nofun nofun

end Operation

/-! ### The three failures -/

section

variable {reporter : Reporter σ ε} {s : Scanner} {sink : σ} {operation : Operation}

/-- A step that fails has moved the scanner and appended no token. -/
theorem moves_of_error (h : operation.isStep = true) {failure : Failure ε}
    (failed : (operation.perform reporter s sink).result = .error failure) :
    s.Moves (operation.perform reporter s sink).scanner := by
  have outcome := Operation.outcome reporter s sink h
  rw [failed] at outcome
  generalize (operation.perform reporter s sink).scanner = t at outcome
  cases outcome with
  | moved moves => exact moves

/-- It fails by itself as it fails by characters. -/
theorem perform_eq_fault_iff (h : operation.isStep = true) {f : Fault} :
    (operation.perform reporter s sink).result = .error (.fault f) ↔
      operation.byCharacters Binary64.ofText? s = .error f := by
  rw [(Operation.heard_perform h).failed, Reporter.hear_eq_fault_iff, Operation.byCharacters_eq h,
    Signal.completed_eq_error_iff]

theorem perform_eq_pastEnd_iff (h : operation.isStep = true) :
    (operation.perform reporter s sink).result = .error (.fault .pastEnd) ↔
      operation.takesCharacter = true ∧ s.source.length ≤ s.current :=
  (perform_eq_fault_iff h).trans (Operation.byCharacters_eq_pastEnd_iff _)

theorem Operation.taken_of_beyond (takes : operation.takesCharacter = true)
    (beyond : s.source.length ≤ s.current) :
    operation.taken s = (operation.begun s, .fault .pastEnd) := by
  have none : s.rest = [] := List.drop_eq_nil_iff.mpr beyond
  cases operation with
  | next =>
      have begun : ({ s with start := s.current } : Scanner).rest = [] := none
      simp only [taken, Scanner.next, Scanner.scanToken, begun]
      rfl
  | scanToken =>
      simp only [taken, Scanner.scanToken, none]
      rfl
  | advance =>
      simp only [taken, Scanner.advance, none]
      rfl
  | _ => cases takes

/-- What goes on a number stays on its line. -/
theorem lineFeeds_numberTail (rest : Text) : Text.lineFeeds (numberTail rest) = 0 := by
  have digit : ('0').isDigit = true := rfl
  have first := Segment.first_of_digit digit rest
  have number : Lexeme (.token .number) ('0' :: numberTail rest) := by
    have shape := (Segment.first_shape '0' rest).1
    rw [first] at shape
    exact shape.lexeme_of_token rfl
  have none : Text.lineFeeds (['0'] ++ numberTail rest) = 0 := number.lineFeeds_eq_zero (by decide)
  rw [Text.lineFeeds_append] at none
  exact (Nat.add_eq_zero_iff.mp none).2

/-- A text that is no number has been moved over without a line feed, and a number would have been
appended then. -/
theorem Operation.taken_of_malformed (step : operation.isStep = true) {text : Text}
    (h : (operation.taken s).2 = .fault (.malformedNumeral text)) :
    (operation = .scanNumber ∨ operation = .scanToken) ∧
      ∃ t, (operation.taken s).1 = s.absorb t ∧ Text.lineFeeds t = 0 ∧ (s.absorb t).lexeme = text ∧
        ∀ read, operation.byCharacters read s =
          Scanner.Indexed.deliverBy read (s.absorb t) (.token .number) := by
  cases operation with
  | scanNumber =>
      obtain ⟨-, left, f⟩ := Scanner.deliver_of_fault h
      exact ⟨.inl rfl, numberTail s.rest, left, lineFeeds_numberTail _,
        (Fault.malformedNumeral.inj f).symm, fun read => Scanner.Indexed.scanNumber_eq read s⟩
  | scanToken =>
      cases hrest : s.rest with
      | nil =>
          rw [taken, Scanner.scanToken, hrest] at h
          cases h
      | cons c rest =>
          have whole : (scanToken).taken s =
              (s.absorb (Segment.first c rest).text).deliver (Segment.first c rest).form := by
            rw [taken, Scanner.scanToken, hrest]
          rw [whole] at h ⊢
          obtain ⟨form, left, f⟩ := Scanner.deliver_of_fault h
          have number := (Segment.first_shape c rest).1.lexeme_of_token form
          refine ⟨.inr rfl, _, left, number.lineFeeds_eq_zero (by decide),
            (Fault.malformedNumeral.inj f).symm, fun read => ?_⟩
          rw [← form]
          exact Scanner.Indexed.scanToken_eq_deliverBy read hrest
  | next =>
      -- The lexeme begins with the segment then, and a segment that is a number can be read.
      have failed := Signal.completed_eq_error_iff.mpr h
      rw [← byCharacters_eq rfl] at failed
      rcases Nat.lt_or_ge s.current s.source.length with before | beyond
      · have reads : ReadsNumerals Binary64.ofText? := ⟨fun _ _ => rfl, fun _ _ _ _ => rfl⟩
        have completes : next.byCharacters Binary64.ofText? s = _ :=
          Scanner.Indexed.scanToken_eq (s := { s with start := s.current }) reads before rfl
        rw [completes] at failed
        cases failed
      · rw [taken_of_beyond rfl beyond] at h
        cases h
  | scanString =>
      exact absurd (Scanner.deliver_of_fault h).1 (Scanner.Indexed.form_stringTail_ne s.rest)
  | advance =>
      rw [taken, Scanner.advance] at h
      cases hrest : s.rest with
      | nil =>
          rw [hrest] at h
          cases h
      | cons c rest =>
          rw [hrest] at h
          cases h
  | _ => cases h

theorem Operation.exists_perform_eq_ok (never : operation.neverFails = true) :
    ∃ answer, (operation.perform reporter s sink).result = .ok answer := by
  cases operation with
  | accept expected => exact ⟨_, rfl⟩
  | peek => exact ⟨_, rfl⟩
  | peekNext => exact ⟨_, rfl⟩
  | atEnd => exact ⟨_, rfl⟩
  | addToken kind literal => exact ⟨_, rfl⟩
  | _ => cases never

end

/-- **Steps fail cleanly from every position.** -/
theorem failsCleanly (reporter : Reporter σ ε) (s : Scanner) (sink : σ) (operation : Operation)
    (step : operation.isStep = true) : FailsCleanly reporter s sink operation := by
  have heard {τ δ : Type} (other : Reporter τ δ) (k : τ) :
      (operation.perform other s k).Heard other k (operation.taken s) := Operation.heard_perform step
  exact {
    kept := fun failure failed => by
      have moves := moves_of_error step failed
      exact ⟨moves.source, moves.tokens⟩
    pastEnd := perform_eq_pastEnd_iff step
    untouched := fun failed => by
      obtain ⟨takes, beyond⟩ := (perform_eq_pastEnd_iff step).mp failed
      rw [(heard reporter sink).scanner, (heard reporter sink).sink,
        Operation.taken_of_beyond takes beyond]
      exact ⟨rfl, rfl⟩
    objection := fun objection failed τ δ other k quiet => by
      have accepted := Reporter.hear_of_objection ((heard reporter sink).failed.mp failed) quiet k
      exact ⟨(heard other k).exists_ok accepted,
        (heard other k).scanner.trans (heard reporter sink).scanner.symm⟩
    malformed := fun text failed => by
      have said := Reporter.hear_eq_fault_iff.mp ((heard reporter sink).failed.mp failed)
      obtain ⟨which, t, left, line, rfl, characters⟩ := Operation.taken_of_malformed step said
      rw [(heard reporter sink).scanner, left]
      refine ⟨which, rfl, ?_, fun read value reads => ?_⟩
      · rw [Scanner.absorb_line, line]
        exact Int.add_zero _
      · rw [characters, Scanner.Indexed.deliverBy_of_read reads]
    indexed := Operation.byCharacters_eq_pastEnd_iff
    characters := fun left h => by
      rw [Operation.byCharacters_eq step] at h
      obtain rfl := Signal.eq_of_completed h
      exact ⟨(heard reporter sink).scanner, (heard reporter sink).sink⟩
    complete := fun never =>
      ⟨Operation.exists_perform_eq_ok never,
        fun read => ⟨_, Operation.byCharacters_of_neverFails never read⟩⟩ }

/-- A number begun within a text that is none: the digit is taken, the text is refused. -/
theorem failsCleanly_bracket :
    Operation.scanToken.isStep = true ∧
      (Operation.scanToken.perform Reporter.keep
          { Scanner.new "(1;".toList with current := 1 } []).result =
        .error (.fault (.malformedNumeral "(1".toList)) ∧
      FailsCleanly Reporter.keep { Scanner.new "(1;".toList with current := 1 } [] .scanToken :=
  ⟨rfl, rfl, failsCleanly Reporter.keep _ _ _ rfl⟩

end LoxLexis

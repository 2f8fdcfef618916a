import LoxLexis.Proofs.Scanner.Heads

/-!
# Segments character by character

A scanner takes a segment as a whole.  Here a segment is taken by looking at characters and moving on
to the next one.  A character is looked at by its index, which fails beyond the end of the source, and
a number is read by a function that need not make sense of every text.  None of this ever fails, and
the outcome is the same: whoever moves on has looked at the character, whoever looks at the next one
has made sure that there is one, and what is read as a number is one.

## Main definitions

* `Scanner.Indexed.charAt` — the character at an index, if there is one
* `Scanner.Indexed.moveWhile` — a loop over the characters at the position
* `Scanner.Indexed.scanToken` — a segment taken by characters
* `Scanner.Indexed.deliverBy` — what is made of a lexeme when numbers are read by a function
* `ReadsNumerals` — a function reads numbers as they are read

## Main statements

* `Scanner.Indexed.moveWhile_eq` — a loop moves over the run of characters at the position
* `Scanner.Indexed.scanToken_eq_deliverBy` — from any position before the end a segment taken by
  characters is moved over without fail
* `Scanner.Indexed.scanToken_eq` — and it is the segment taken as a whole, if the lexeme begins with it
-/

namespace LoxLexis

namespace Scanner.Indexed

/-- The character at an index, which has to lie within the source. -/
def charAt (s : Scanner) (i : Nat) : Except Fault Char :=
  match s.source[i]? with
  | some c => .ok c
  | none => .error .pastEnd

/-- Move over the character at the position. -/
def advance (s : Scanner) : Except Fault (Char × Scanner) := do
  let c ← charAt s s.current
  return (c, { s with current := s.current + 1 })

/-- The character at the position, if the source goes so far. -/
def peek (s : Scanner) : Except Fault (Option Char) :=
  if s.atEnd then .ok none else (charAt s s.current).map some

/-- The character after that, if the source goes so far. -/
def peekNext (s : Scanner) : Except Fault (Option Char) :=
  if s.source.length ≤ s.current + 1 then .ok none else (charAt s (s.current + 1)).map some

/-- Move over the character at the position if it is the expected one. -/
def accept (s : Scanner) (expected : Char) : Except Fault (Bool × Scanner) :=
  if s.atEnd then .ok (false, s)
  else do
    let c ← charAt s s.current
    return if c = expected then (true, { s with current := s.current + 1 }) else (false, s)

theorem charAt_eq_ok {s : Scanner} {i : Nat} {c : Char} (h : charAt s i = .ok c) :
    i < s.source.length := by
  unfold charAt at h
  split at h
  · next found => exact (List.getElem?_eq_some_iff.mp found).1
  · cases h

theorem advance_eq_ok {s t : Scanner} {c : Char} (h : advance s = .ok (c, t)) :
    s.current < s.source.length ∧ t = { s with current := s.current + 1 } := by
  unfold advance at h
  cases found : charAt s s.current with
  | error fault =>
      rw [found] at h
      cases h
  | ok d =>
      rw [found] at h
      obtain ⟨-, rfl⟩ := Prod.mk.inj (Except.ok.inj h)
      exact ⟨charAt_eq_ok found, rfl⟩

/-- Move over the characters at the position as long as they are of one sort, with the number of lines
that each of them ends. -/
def moveWhile (p : Char → Bool) (lines : Char → Nat) (s : Scanner) : Except Fault Scanner :=
  match peek s with
  | .error fault => .error fault
  | .ok none => .ok s
  | .ok (some c) =>
    if p c then
      match _ : advance s with
      | .error fault => .error fault
      | .ok (_, moved) => moveWhile p lines { moved with line := moved.line + lines c }
    else .ok s
termination_by s.source.length - s.current
decreasing_by
  obtain ⟨before, rfl⟩ := advance_eq_ok ‹_›
  simp only
  omega

/-- Go on with a string that is already open. -/
def scanString (s : Scanner) : Except Fault (Scanner × Signal) := do
  let inner ← moveWhile (· ≠ Text.doubleQuote) (fun c => if c = '\n' then 1 else 0) s
  if inner.atEnd then
    return (inner, .report (inner.report unterminatedString))
  let (_, closed) ← advance inner
  return (closed.addToken .string (some (.text closed.unquoted)), .done)

/-- Whether there is a point at the position with a digit after it. -/
def fractionFollows (s : Scanner) : Except Fault Bool := do
  let point ← peek s
  if point = some '.' then return (← peekNext s).any Char.isDigit else return false

/-- Move over a point and the digits after it, if a digit follows the point. -/
def moveFraction (s : Scanner) : Except Fault Scanner := do
  if ← fractionFollows s then
    let (_, moved) ← advance s
    moveWhile Char.isDigit (fun _ => 0) moved
  else return s

/-- Go on with a number that is already begun, and read it. -/
def scanNumber (read : Text → Option Binary64) (s : Scanner) : Except Fault (Scanner × Signal) := do
  let whole ← moveWhile Char.isDigit (fun _ => 0) s
  let number ← moveFraction whole
  match read number.lexeme with
  | some value => return (number.addToken .number (some (.number value)), .done)
  | none => .error (.malformedNumeral number.lexeme)

/-- Go on after a slash: with the comment that another one begins, if there is one. -/
def scanSlash (s : Scanner) : Except Fault (Scanner × Signal) := do
  let (comment, moved) ← accept s '/'
  if comment then
    let ended ← moveWhile (· ≠ '\n') (fun _ => 0) moved
    return (ended, .done)
  else return (moved.addToken .slash none, .done)

/-- Go on after a character that is no operator and no token by itself. -/
def scanPlain (read : Text → Option Binary64) (c : Char) (s : Scanner) :
    Except Fault (Scanner × Signal) :=
  if c = '/' then scanSlash s
  else if c = ' ' ∨ c = '\r' ∨ c = '\t' then .ok (s, .done)
  else if c = '\n' then .ok ({ s with line := s.line + 1 }, .done)
  else if c = Text.doubleQuote then scanString s
  else if c.isDigit then scanNumber read s
  else .ok (s, .report (s.report unexpectedCharacter))

/-- Take the segment at the position. -/
def scanToken (read : Text → Option Binary64) (s : Scanner) : Except Fault (Scanner × Signal) := do
  let (c, begun) ← advance s
  match Kind.single? c with
  | some kind => return (begun.addToken kind none, .done)
  | none =>
    match Kind.operator? c with
    | some (alone, compound) =>
      let (equals, moved) ← accept begun '='
      return (moved.addToken (if equals then compound else alone) none, .done)
    | none => scanPlain read c begun

/-! ### Characters at the position -/

section

variable {s : Scanner} {c : Char} {rest : Text}

theorem atEnd_eq (s : Scanner) : s.atEnd = s.rest.isEmpty := by
  rw [atEnd, rest, Bool.eq_iff_iff, decide_eq_true_eq, List.isEmpty_iff, List.drop_eq_nil_iff]

theorem charAt_of_rest (h : s.rest = c :: rest) : charAt s s.current = .ok c := by
  have found : s.source[s.current]? = some c := by
    rw [← List.head?_drop]
    exact congrArg List.head? h
  rw [charAt, found]

theorem charAt_next_of_rest {d : Char} (h : s.rest = c :: d :: rest) :
    charAt s (s.current + 1) = .ok d := by
  have found : s.source[s.current + 1]? = some d := by
    rw [← List.head?_drop, ← List.drop_drop]
    exact congrArg (fun t => (List.drop 1 t).head?) h
  rw [charAt, found]

theorem advance_of_rest (h : s.rest = c :: rest) :
    advance s = .ok (c, { s with current := s.current + 1 }) := by
  rw [advance, charAt_of_rest h]
  rfl

/-- Looking at the character at the position does not fail. -/
theorem peek_eq (s : Scanner) : peek s = .ok s.rest.head? := by
  rw [peek, atEnd_eq]
  cases h : s.rest with
  | nil => rfl
  | cons c rest =>
      rw [charAt_of_rest h]
      rfl

theorem length_le_iff_tail (s : Scanner) : s.source.length ≤ s.current + 1 ↔ s.rest.tail = [] := by
  rw [rest, List.tail_drop, List.drop_eq_nil_iff]

/-- Looking at the character after that does not fail. -/
theorem peekNext_eq (s : Scanner) : peekNext s = .ok s.rest.tail.head? := by
  simp only [peekNext, length_le_iff_tail]
  match h : s.rest with
  | [] => rfl
  | [c] => rfl
  | c :: d :: rest =>
    rw [charAt_next_of_rest h]
    rfl

/-- Moving over an expected character does not fail. -/
theorem accept_eq (s : Scanner) (expected : Char) :
    accept s expected =
      .ok (if s.rest.head? = some expected then (true, { s with current := s.current + 1 })
        else (false, s)) := by
  rw [accept, atEnd_eq]
  cases h : s.rest with
  | nil => rfl
  | cons c rest =>
      rw [charAt_of_rest h]
      simp only [List.head?_cons, Option.some.injEq]
      rfl

end

/-! ### Loops -/

theorem absorb_append (s : Scanner) (t u : Text) : s.absorb (t ++ u) = (s.absorb t).absorb u := by
  simp only [absorb, List.length_append, Text.lineFeeds_append, Nat.add_assoc, Int.natCast_add,
    Int.add_assoc]

theorem rest_absorb {s : Scanner} {t after : Text} (h : s.rest = t ++ after) :
    (s.absorb t).rest = after := by
  have hrest : (s.absorb t).rest = s.rest.drop t.length := List.drop_drop.symm
  rw [hrest, h, List.drop_left]

theorem absorb_nil (s : Scanner) : s.absorb [] = s := by
  simp [absorb]

/-- One character that does not end a line. -/
theorem absorb_one {c : Char} (h : c ≠ '\n') (s : Scanner) :
    s.absorb [c] = { s with current := s.current + 1 } := by
  simp only [absorb, Text.lineFeeds_singleton_of_ne h, List.length_singleton, Int.natCast_zero,
    Int.add_zero]

/-- **A loop moves over the run of characters at the position.** -/
theorem moveWhile_eq {p : Char → Bool} {lines : Char → Nat}
    (counts : ∀ c, p c = true → lines c = Text.lineFeeds [c]) (s : Scanner) :
    moveWhile p lines s = .ok (s.absorb (s.rest.takeWhile p)) := by
  generalize hrest : s.rest = t
  induction t generalizing s with
  | nil =>
      rw [moveWhile, peek_eq, hrest, List.takeWhile_nil, absorb_nil]
      rfl
  | cons c t ih =>
      rw [moveWhile, peek_eq, hrest]
      simp only [List.head?_cons]
      split
      · next sort =>
          have moved : (s.absorb [c]).rest = t := rest_absorb hrest
          have step := ih (s.absorb [c]) moved
          rw [List.takeWhile_cons_of_pos sort, ← List.singleton_append, absorb_append, ← step]
          split
          · next failed =>
              rw [advance_of_rest hrest] at failed
              cases failed
          · next found =>
              rw [advance_of_rest hrest] at found
              obtain ⟨-, rfl⟩ := Prod.mk.inj (Except.ok.inj found)
              rw [counts c sort]
              rfl
      · next sort =>
          rw [List.takeWhile_cons_of_neg sort, absorb_nil]

theorem lineFeeds_singleton (c : Char) : (if c = '\n' then 1 else 0) = Text.lineFeeds [c] := by
  rw [Text.lineFeeds, List.count_singleton]
  simp only [beq_iff_eq]

theorem ne_lineFeed_of_isDigit {c : Char} (h : c.isDigit = true) : c ≠ '\n' := by
  rintro rfl
  cases h

/-! ### Strings and numbers -/

/-- A string is gone on with without fail, whatever is in it. -/
theorem scanString_eq (s : Scanner) : scanString s = .ok s.scanString := by
  obtain ⟨inner, after, hrest, hinner, stop⟩ := exists_run (· ≠ Text.doubleQuote) s.rest
  have unquoted : Text.doubleQuote ∉ inner := fun h => by simpa using hinner _ h
  have run : s.rest.takeWhile (· ≠ Text.doubleQuote) = inner := by
    rw [hrest]
    exact takeWhile_append_of_head hinner stop
  have rest : (s.absorb inner).rest = after := rest_absorb hrest
  rw [scanString, moveWhile_eq (fun c _ => lineFeeds_singleton c), run, Scanner.scanString]
  show (if (s.absorb inner).atEnd = true then _ else _) = _
  rw [atEnd_eq, rest]
  cases after with
  | nil =>
      rw [List.append_nil] at hrest
      rw [hrest, stringTail_of_notMem unquoted]
      rfl
  | cons c more =>
      obtain rfl : c = Text.doubleQuote := by simpa using stop
      rw [hrest, stringTail_append unquoted, absorb_append, absorb_one (by decide),
        advance_of_rest rest]
      rfl

theorem moveDigits_eq {s : Scanner} {ds after : Text} (h : s.rest = ds ++ after)
    (digits : ∀ c ∈ ds, c.isDigit = true) (stop : after.head?.any Char.isDigit = false) :
    moveWhile Char.isDigit (fun _ => 0) s = .ok (s.absorb ds) := by
  have counts : ∀ c, c.isDigit = true → 0 = Text.lineFeeds [c] :=
    fun c hc => (Text.lineFeeds_singleton_of_ne (ne_lineFeed_of_isDigit hc)).symm
  rw [moveWhile_eq counts, h, takeWhile_append_of_head digits stop]

/-- The character after a point is looked for only where there is a point. -/
theorem fractionFollows_eq (s : Scanner) : fractionFollows s = .ok (beginsFraction s.rest) := by
  rw [fractionFollows, peek_eq, beginsFraction]
  show (if s.rest.head? = some '.' then (peekNext s).bind _ else _) = _
  split
  · next point =>
      rw [peekNext_eq, point, beq_self_eq_true, Bool.true_and]
      rfl
  · next point =>
      rw [beq_eq_false_iff_ne.mpr point, Bool.false_and]
      rfl

theorem moveFraction_of_point {s : Scanner} {es after : Text} (h : s.rest = '.' :: (es ++ after))
    (digits : Digits es) (stop : after.head?.any Char.isDigit = false) :
    moveFraction s = .ok (s.absorb ('.' :: es)) := by
  have follows : beginsFraction s.rest = true := by
    obtain ⟨d, es, rfl, hd, -⟩ := digits.exists_cons
    rw [h, beginsFraction]
    exact hd
  have point : '.' ≠ '\n' := by decide
  have next : (s.absorb ['.']).rest = es ++ after := rest_absorb h
  rw [moveFraction, fractionFollows_eq, follows]
  show (advance s).bind _ = _
  rw [advance_of_rest h, ← absorb_one point, show '.' :: es = ['.'] ++ es from rfl, absorb_append]
  exact moveDigits_eq next digits.isDigit stop

theorem moveFraction_of_not {s : Scanner} (h : beginsFraction s.rest = false) :
    moveFraction s = .ok s := by
  rw [moveFraction, fractionFollows_eq, h]
  rfl

/-- After the digits before the point, moving over the fraction completes the number. -/
theorem moveFraction_eq {s : Scanner} {ds after : Text} (hrest : s.rest = ds ++ after)
    (digits : ∀ c ∈ ds, c.isDigit = true) (stop : after.head?.any Char.isDigit = false) :
    moveFraction (s.absorb ds) = .ok (s.absorb (numberTail s.rest)) := by
  have rest : (s.absorb ds).rest = after := rest_absorb hrest
  by_cases point : beginsFraction after = true
  · obtain ⟨d, later, rfl, hd⟩ := Segment.beginsFraction_eq_true point
    obtain ⟨es, after, rfl, hes, stop'⟩ := exists_run Char.isDigit later
    have fraction : Digits (d :: es) := ⟨List.cons_ne_nil _ _, List.forall_mem_cons.mpr ⟨hd, hes⟩⟩
    have tail : numberTail s.rest = ds ++ ('.' :: d :: es) := by
      rw [hrest]
      exact numberTail_append_fraction digits fraction stop'
    rw [tail, absorb_append]
    exact moveFraction_of_point rest fraction stop'
  · have none : beginsFraction after = false := Bool.eq_false_iff.mpr point
    have tail : numberTail s.rest = ds := by
      rw [hrest]
      exact numberTail_append digits stop none
    rw [tail]
    exact moveFraction_of_not (rest ▸ none)

/-- Make of the present lexeme what its form says, a number being read by a function. -/
def deliverBy (read : Text → Option Binary64) (s : Scanner) : Form → Except Fault (Scanner × Signal)
  | .token .number =>
    match read s.lexeme with
    | some value => .ok (s.addToken .number (some (.number value)), .done)
    | none => .error (.malformedNumeral s.lexeme)
  | form => .ok (s.deliver form)

/-- The function has no part in what is no number. -/
theorem deliverBy_of_ne {f : Form} (h : f ≠ .token .number) (read : Text → Option Binary64)
    (s : Scanner) : deliverBy read s f = .ok (s.deliver f) := by
  unfold deliverBy
  split
  · exact absurd rfl h
  · rfl

/-- A number is moved over without fail, and then what it is has to be read. -/
theorem scanNumber_eq (read : Text → Option Binary64) (s : Scanner) :
    scanNumber read s = deliverBy read (s.absorb (numberTail s.rest)) (.token .number) := by
  obtain ⟨ds, after, hrest, hds, stop⟩ := exists_run Char.isDigit s.rest
  rw [scanNumber, moveDigits_eq hrest hds stop]
  show ((moveFraction (s.absorb ds)).bind _) = _
  rw [moveFraction_eq hrest hds stop]
  rfl

end Scanner.Indexed

/-- A function reads the numbers of sources as they are read, whatever it makes of other texts. -/
structure ReadsNumerals (read : Text → Option Binary64) : Prop where
  whole : ∀ ds, Digits ds → read ds = Binary64.ofText? ds
  decimal : ∀ ds es, Digits ds → Digits es →
    read (ds ++ '.' :: es) = Binary64.ofText? (ds ++ '.' :: es)

theorem ReadsNumerals.of_lexeme {read : Text → Option Binary64} (h : ReadsNumerals read) {t : Text}
    (number : Lexeme (.token .number) t) : read t = Binary64.ofText? t := by
  rcases number.number_cases with whole | ⟨ds, es, hds, hes, rfl⟩
  · exact h.whole t whole
  · exact h.decimal ds es hds hes

namespace Scanner.Indexed

/-! ### Segments -/

theorem ne_lineFeed_of_mem_punctuation {c : Char} {kind : Kind} (h : (c, kind) ∈ Kind.punctuation) :
    c ≠ '\n' := by
  have fixed : ∀ entry ∈ Kind.punctuation, entry.1 ≠ '\n' := by decide
  exact fixed _ h

theorem ne_lineFeed_of_mem_operators {c : Char} {kinds : Kind × Kind}
    (h : (c, kinds) ∈ Kind.operators) : c ≠ '\n' := by
  have fixed : ∀ entry ∈ Kind.operators, entry.1 ≠ '\n' := by decide
  exact fixed _ h

section

variable {s : Scanner} {c : Char} {rest : Text}

/-- An operator is taken with the equals sign after it, if there is one. -/
theorem accept_equals_eq {kinds : Kind × Kind} (h : (c, kinds) ∈ Kind.operators)
    (after : (s.absorb [c]).rest = rest) :
    ((accept (s.absorb [c]) '=').bind fun accepted =>
        .ok (accepted.2.addToken (if accepted.1 then kinds.2 else kinds.1) none, Signal.done)) =
      .ok ((s.absorb (Segment.operator c kinds rest).text).deliver
        (Segment.operator c kinds rest).form) := by
  have fixed : ∀ entry ∈ Kind.operators,
      entry.2.1.isLiteral = false ∧ entry.2.2.isLiteral = false := by decide
  obtain ⟨alone, compound⟩ := fixed _ h
  have equals : '=' ≠ '\n' := by decide
  rw [accept_eq, after]
  by_cases head : rest.head? = some '='
  · obtain ⟨more, rfl⟩ := List.head?_eq_some_iff.mp head
    rw [if_pos head, ← absorb_one equals, ← absorb_append]
    exact congrArg Except.ok (deliver_of_not_isLiteral _ compound).symm
  · rw [if_neg head, Segment.operator_of_head_ne head]
    exact congrArg Except.ok (deliver_of_not_isLiteral _ alone).symm

theorem scanSlash_eq (after : (s.absorb ['/']).rest = rest) :
    scanSlash (s.absorb ['/']) =
      .ok ((s.absorb (Segment.slash rest).text).deliver (Segment.slash rest).form) := by
  have slash : '/' ≠ '\n' := by decide
  rw [scanSlash, accept_eq, after]
  by_cases head : rest.head? = some '/'
  · obtain ⟨more, rfl⟩ := List.head?_eq_some_iff.mp head
    have line (c : Char) (h : decide (c ≠ '\n') = true) : 0 = Text.lineFeeds [c] :=
      (Text.lineFeeds_singleton_of_ne (of_decide_eq_true h)).symm
    have rest : ((s.absorb ['/']).absorb ['/']).rest = more := rest_absorb after
    have loop := moveWhile_eq line ((s.absorb ['/']).absorb ['/'])
    rw [rest, ← absorb_append, ← absorb_append] at loop
    rw [if_pos head, ← absorb_one slash, ← absorb_append]
    show (moveWhile (· ≠ '\n') (fun _ => 0) (s.absorb (['/'] ++ ['/']))).bind _ = _
    rw [loop]
    rfl
  · rw [if_neg head, Segment.slash_of_head_ne head]
    rfl

theorem form_operator_ne {kinds : Kind × Kind} (h : (c, kinds) ∈ Kind.operators) :
    (Segment.operator c kinds rest).form ≠ .token .number := by
  have literal : Kind.number.isLiteral = true := rfl
  obtain ⟨alone, compound⟩ := Kind.ne_of_mem_operators h literal
  unfold Segment.operator
  split
  · exact fun same => compound (Form.token.inj same)
  · exact fun same => alone (Form.token.inj same)

theorem form_slash_ne (rest : Text) : (Segment.slash rest).form ≠ .token .number := by
  unfold Segment.slash
  split
  · exact nofun
  · exact nofun

theorem form_stringTail_ne (rest : Text) : (stringTail rest).form ≠ .token .number := by
  unfold stringTail
  dsimp only
  split
  · exact nofun
  · exact nofun

theorem scanPlain_eq (read : Text → Option Binary64) (hrest : s.rest = c :: rest) :
    scanPlain read c { s with current := s.current + 1 } =
      deliverBy read (s.absorb (Segment.plain c rest).text) (Segment.plain c rest).form := by
  have after : (s.absorb [c]).rest = rest := rest_absorb hrest
  by_cases line : c = '\n'
  · subst line
    rfl
  rw [← absorb_one line]
  by_cases slash : c = '/'
  · subst slash
    exact (scanSlash_eq after).trans (deliverBy_of_ne (form_slash_ne rest) read _).symm
  by_cases blank : c = ' ' ∨ c = '\r' ∨ c = '\t'
  · have layout : isLayout c = true := by
      rcases blank with rfl | rfl | rfl
      all_goals rfl
    rw [scanPlain, if_neg slash, if_pos blank, Segment.plain, if_neg slash, if_pos layout]
    rfl
  have layout : ¬ isLayout c = true := by
    intro h
    rcases Segment.eq_of_isLayout h with rfl | rfl | rfl | rfl
    all_goals simp at blank line
  rw [scanPlain, if_neg slash, if_neg blank, if_neg line, Segment.plain, if_neg slash, if_neg layout]
  by_cases quote : c = Text.doubleQuote
  · rw [if_pos quote, if_pos quote, scanString_eq, Scanner.scanString, after, ← absorb_append,
      deliverBy_of_ne (form_stringTail_ne rest)]
    rfl
  rw [if_neg quote, if_neg quote]
  by_cases digit : c.isDigit = true
  · rw [if_pos digit, if_pos digit, scanNumber_eq, after, ← absorb_append]
    rfl
  · rw [if_neg digit, if_neg digit]
    rfl

/-- **A segment taken by characters is moved over without fail from any position before the end**, and
then a number has to be read. -/
theorem scanToken_eq_deliverBy (read : Text → Option Binary64) (hrest : s.rest = c :: rest) :
    scanToken read s =
      deliverBy read (s.absorb (Segment.first c rest).text) (Segment.first c rest).form := by
  have after : (s.absorb [c]).rest = rest := rest_absorb hrest
  rw [scanToken, advance_of_rest hrest]
  show (match Kind.single? c with | some kind => _ | none => _) = _
  rw [Segment.first]
  cases single : Kind.single? c with
  | some kind =>
      have h := Kind.mem_punctuation_iff.mpr single
      have plain : kind.isLiteral = false := by
        have fixed : ∀ entry ∈ Kind.punctuation, entry.2.isLiteral = false := by decide
        exact fixed _ h
      have number : Form.token kind ≠ .token .number := fun same =>
        Kind.ne_of_mem_punctuation h rfl (Form.token.inj same)
      show _ = deliverBy read (s.absorb [c]) (.token kind)
      rw [deliverBy_of_ne number, deliver_of_not_isLiteral _ plain,
        ← absorb_one (ne_lineFeed_of_mem_punctuation h)]
      rfl
  | none =>
      cases operator : Kind.operator? c with
      | some kinds =>
          have h := Kind.mem_operators_iff.mpr operator
          show _ = deliverBy read (s.absorb (Segment.operator c kinds rest).text)
            (Segment.operator c kinds rest).form
          rw [deliverBy_of_ne (form_operator_ne h), ← absorb_one (ne_lineFeed_of_mem_operators h)]
          exact accept_equals_eq h after
      | none => exact scanPlain_eq read hrest

/-- What is moved over from the start on is the lexeme. -/
theorem lexeme_absorb {t after : Text} (h : s.rest = t ++ after) (begins : s.start = s.current) :
    (s.absorb t).lexeme = t := by
  rw [lexeme, absorb_start, absorb_current, absorb_source, begins]
  exact slice_of_drop_eq h

/-- **A segment taken by characters is the segment taken as a whole**, if the lexeme begins with it:
nothing is read as a number that is none. -/
theorem scanToken_eq {read : Text → Option Binary64} (reads : ReadsNumerals read)
    (before : s.current < s.source.length) (begins : s.start = s.current) :
    scanToken read s = .ok s.scanToken := by
  obtain ⟨c, rest, hrest⟩ := List.exists_cons_of_ne_nil (rest_ne_nil_iff.mpr before)
  have whole : s.scanToken =
      (s.absorb (Segment.first c rest).text).deliver (Segment.first c rest).form := by
    rw [Scanner.scanToken, hrest]
  rw [scanToken_eq_deliverBy read hrest, whole]
  by_cases form : (Segment.first c rest).form = .token .number
  · have number := (Segment.first_shape c rest).1.lexeme_of_token form
    have stands : s.rest = (Segment.first c rest).text ++ _ :=
      hrest.trans (Segment.first_append_drop c rest).symm
    have lexeme := lexeme_absorb stands begins
    have agrees := Binary64.ofText?_of_lexeme number
    have same := (reads.of_lexeme number).trans agrees
    rw [form, deliverBy, deliver, lexeme, same, agrees]
  · exact deliverBy_of_ne form read _

end

end Scanner.Indexed

end LoxLexis

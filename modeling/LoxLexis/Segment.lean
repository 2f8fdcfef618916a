import LoxLexis.Token.Kind

/-!
# Segments of a source

A source falls into segments, one after the other without gap: tokens, layout, and text that is
neither.  Each segment is the longest piece at its place that has one of the forms, and its first
two characters and the ones it goes through decide where it ends.

## Main definitions

* `Form` — what a segment is
* `Segment` — a piece of source text and its form
* `stringTail`, `numberTail` — what belongs to a string or number after its first character
* `Segment.first` — the segment a text begins with
* `segments` — all segments of a text

## Main statements

* `Segment.first_append_drop` — taking the first segment off a text loses nothing

## Design notes

A string goes on to the next double quote, over any lines between; without one, the whole rest of
the source is an unterminated string.  A point belongs to a number only where a digit follows it.
A comment leaves the line feed that ends it to a segment of its own.
-/

namespace LoxLexis

/-- What a segment of a source is. -/
inductive Form
  | token (kind : Kind)
  /-- A blank, a line feed or a comment. -/
  | layout
  /-- A double quote that is never closed, and all that follows it. -/
  | unterminated
  /-- A character that begins none of the other forms. -/
  | unexpected
  deriving DecidableEq

/-- A piece of source text and what it is. -/
structure Segment where
  text : Text
  form : Form
  deriving DecidableEq

/-- What belongs to a string after its opening quote, and whether that closes it. -/
def stringTail (rest : Text) : Segment :=
  let inner := rest.takeWhile (· ≠ Text.doubleQuote)
  match rest.dropWhile (· ≠ Text.doubleQuote) with
  | [] => { text := inner, form := .unterminated }
  | quote :: _ => { text := inner ++ [quote], form := .token .string }

/-- What belongs to a number after its first digit: digits, and a point if digits follow it. -/
def numberTail (rest : Text) : Text :=
  let whole := rest.takeWhile Char.isDigit
  match rest.dropWhile Char.isDigit with
  -- Two characters are looked at before the point is known to belong to the number.
  | '.' :: d :: more =>
    if d.isDigit then whole ++ '.' :: d :: more.takeWhile Char.isDigit else whole
  | _ => whole

/-- What belongs to a comment after its two slashes: all up to the end of the line. -/
def commentTail (rest : Text) : Text := rest.takeWhile (· ≠ '\n')

/-- The characters that separate tokens and have no other meaning. -/
def isLayout (c : Char) : Bool := c = ' ' || c = '\r' || c = '\t' || c = '\n'

/-- The tail of a string is a piece of what follows its opening quote. -/
theorem stringTail_prefix_rest (rest : Text) : (stringTail rest).text <+: rest := by
  have h := List.takeWhile_append_dropWhile (p := fun c => decide (c ≠ Text.doubleQuote)) (l := rest)
  simp only [stringTail]
  split
  · next hd =>
    rw [hd] at h
    exact ⟨[], h⟩
  · next quote more hd =>
    rw [hd] at h
    exact ⟨more, (List.append_assoc _ _ _).trans h⟩

/-- The tail of a number is a piece of what follows its first digit. -/
theorem numberTail_prefix_rest (rest : Text) : numberTail rest <+: rest := by
  have h := List.takeWhile_append_dropWhile (p := Char.isDigit) (l := rest)
  simp only [numberTail]
  split
  · next d more hd =>
    split
    · have hm := List.takeWhile_append_dropWhile (p := Char.isDigit) (l := more)
      refine ⟨more.dropWhile Char.isDigit, ?_⟩
      rw [hd] at h
      rw [List.append_assoc, List.cons_append, List.cons_append, hm]
      exact h
    · exact List.takeWhile_prefix _
  · exact List.takeWhile_prefix _

namespace Segment

/-- The operator a text begins with, given its kinds without and with an equals sign. -/
def operator (c : Char) (kinds : Kind × Kind) : Text → Segment
  | '=' :: _ => { text := [c, '='], form := .token kinds.2 }
  | _ => { text := [c], form := .token kinds.1 }

/-- The comment or slash that a text after a slash continues. -/
def slash : Text → Segment
  | '/' :: rest => { text := '/' :: '/' :: commentTail rest, form := .layout }
  | _ => { text := ['/'], form := .token .slash }

/-- The segment of a text that begins with a character that is no operator. -/
def plain (c : Char) (rest : Text) : Segment :=
  if c = '/' then slash rest
  else if isLayout c then { text := [c], form := .layout }
  else if c = Text.doubleQuote then
    { text := c :: (stringTail rest).text, form := (stringTail rest).form }
  else if c.isDigit then { text := c :: numberTail rest, form := .token .number }
  else { text := [c], form := .unexpected }

/-- The segment a text begins with, given its first character and the others. -/
def first (c : Char) (rest : Text) : Segment :=
  match Kind.single? c with
  | some kind => { text := [c], form := .token kind }
  | none =>
    match Kind.operator? c with
    | some kinds => operator c kinds rest
    | none => plain c rest

/-- Every segment begins with the first character of its text. -/
theorem first_text (c : Char) (rest : Text) : ∃ tail, (first c rest).text = c :: tail := by
  simp only [first]
  split
  · exact ⟨_, rfl⟩
  · split
    · simp only [operator]
      split <;> exact ⟨_, rfl⟩
    · simp only [plain]
      split
      · subst c
        simp only [slash]
        split <;> exact ⟨_, rfl⟩
      · split
        · exact ⟨_, rfl⟩
        · split
          · exact ⟨_, rfl⟩
          · split <;> exact ⟨_, rfl⟩

/-- The first segment of a text is a piece of its front. -/
theorem first_prefix_cons (c : Char) (rest : Text) : (first c rest).text <+: c :: rest := by
  simp only [first]
  split
  · simp
  · split
    · simp only [operator]
      split <;> simp
    · simp only [plain]
      split
      · subst c
        simp only [slash]
        split
        · simpa [commentTail] using List.takeWhile_prefix _
        · simp
      · split
        · simp
        · split
          · simpa using stringTail_prefix_rest rest
          · split
            · simpa using numberTail_prefix_rest rest
            · simp

/-- The first segment and what comes after it are the whole text. -/
theorem first_append_drop (c : Char) (rest : Text) :
    (first c rest).text ++ (c :: rest).drop (first c rest).text.length = c :: rest :=
  List.prefix_iff_eq_append.mp (first_prefix_cons c rest)

theorem length_first_pos (c : Char) (rest : Text) : 0 < (first c rest).text.length := by
  obtain ⟨tail, h⟩ := first_text c rest
  simp [h]

end Segment

/-- The segments of a text, in order. -/
def segments : Text → List Segment
  | [] => []
  | c :: rest =>
    let s := Segment.first c rest
    s :: segments ((c :: rest).drop s.text.length)
termination_by t => t.length
decreasing_by
  have := Segment.length_first_pos c rest
  simp only [List.length_drop, List.length_cons]
  omega

@[simp] theorem segments_nil : segments [] = [] := by rw [segments]

theorem segments_cons (c : Char) (rest : Text) :
    segments (c :: rest) =
      Segment.first c rest ::
        segments ((c :: rest).drop (Segment.first c rest).text.length) := by
  rw [segments]

end LoxLexis

import LoxLexis.Text.Basic

/-!
# Line ends

Text from outside ends its lines with a line feed, a carriage return, or the two together.  Inside
the library the line feed alone ends a line.

## Main definitions

* `Text.withLineFeeds` — each of the three line ends replaced by a line feed
* `Text.splitLines` — the lines of a text, without their line feeds
-/

namespace LoxLexis

namespace Text

/-- A carriage return becomes a line feed, a line feed directly after a carriage return goes, and
every other character is kept. -/
def withLineFeeds (t : Text) : Text :=
  -- Each character goes with the one before it; the first has none and gets a line feed for it.
  (List.zip ('\n' :: t) t).filterMap fun (before, c) =>
    if c = '\r' then some '\n'
    else if before = '\r' ∧ c = '\n' then none
    else some c

@[simp] theorem withLineFeeds_nil : withLineFeeds [] = [] := rfl

/-- A text without carriage returns is left as it is. -/
theorem withLineFeeds_of_not_mem {t : Text} (h : '\r' ∉ t) : withLineFeeds t = t := by
  suffices ∀ before, before ≠ '\r' →
      ((List.zip (before :: t) t).filterMap fun (before, c) =>
        if c = '\r' then some '\n'
        else if before = '\r' ∧ c = '\n' then none
        else some c) = t from
    this '\n' (by decide)
  induction t with
  | nil => simp
  | cons c rest ih =>
    intro before hb
    have hc : c ≠ '\r' := fun e => h (e ▸ List.mem_cons_self)
    have := ih (fun hr => h (List.mem_cons_of_mem _ hr)) c hc
    simp_all

/-- One more character in front of the lines of a text: a line feed opens a new first line, any
other character joins the first line. -/
def consLines (c : Char) (ls : List Text) : List Text :=
  if c = '\n' then [] :: ls
  else
    match ls with
    | [] => [[c]]
    | l :: ls => (c :: l) :: ls

/-- The lines of a text without their line feeds.  A last line without a line feed counts, and a
line feed at the end starts no further line. -/
def splitLines (t : Text) : List Text := t.foldr consLines []

@[simp] theorem splitLines_nil : splitLines [] = [] := rfl

theorem splitLines_cons (c : Char) (t : Text) :
    splitLines (c :: t) = consLines c (splitLines t) := rfl

end Text

end LoxLexis

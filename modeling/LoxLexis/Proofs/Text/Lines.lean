import LoxLexis.Text.Lines

/-!
# The lines of a text

`Text.splitLines` builds the lines of a text from its last character on.  What the lines are can be
said from the front as well: a line feed ends the line before it, and what comes after the last line
feed is a line if it is anything.  This relation has one constructor for each way a text can go on,
and proofs about lines are by induction on it.

## Main definitions

* `Text.Lines` — a text and its lines
* `Text.Ended` — a text after which a new line begins

## Main statements

* `Text.splitLines_eq_iff` — a text is split into its lines
* `Text.Lines.append` — lines that have ended stay as they are when more text comes
-/

namespace LoxLexis.Text

/-- A text and its lines. -/
inductive Lines : Text → List Text → Prop
  | nil : Lines [] []
  /-- A last line without a line feed. -/
  | last {l : Text} (h : '\n' ∉ l) (ne_nil : l ≠ []) : Lines l [l]
  /-- A line, the line feed that ends it, and a text with further lines. -/
  | cons {l t : Text} {ls : List Text} (h : '\n' ∉ l) (later : Lines t ls) :
      Lines (l ++ '\n' :: t) (l :: ls)

theorem Lines.lineFeed_notMem {t : Text} {ls : List Text} (h : Lines t ls) :
    ∀ l ∈ ls, '\n' ∉ l := by
  induction h with
  | nil => simp
  | last h _ => simpa using h
  | cons h _ ih => exact List.forall_mem_cons.mpr ⟨h, ih⟩

/-- A line and its line feed are split off as the first line. -/
theorem splitLines_append {l : Text} (h : '\n' ∉ l) (t : Text) :
    splitLines (l ++ '\n' :: t) = l :: splitLines t := by
  induction l with
  | nil => rfl
  | cons c l ih =>
      obtain ⟨hc, hl⟩ := not_or.mp (mt List.mem_cons.mpr h)
      rw [List.cons_append, splitLines_cons, ih hl, consLines, if_neg (Ne.symm hc)]

theorem splitLines_of_notMem {l : Text} (h : '\n' ∉ l) (ne_nil : l ≠ []) : splitLines l = [l] := by
  induction l with
  | nil => exact absurd rfl ne_nil
  | cons c l ih =>
      obtain ⟨hc, hl⟩ := not_or.mp (mt List.mem_cons.mpr h)
      cases l with
      | nil => rw [splitLines_cons, splitLines_nil, consLines, if_neg (Ne.symm hc)]
      | cons d l =>
          rw [splitLines_cons, ih hl (List.cons_ne_nil d l), consLines, if_neg (Ne.symm hc)]

theorem Lines.splitLines_eq {t : Text} {ls : List Text} (h : Lines t ls) : splitLines t = ls := by
  induction h with
  | nil => rfl
  | last h ne_nil => exact splitLines_of_notMem h ne_nil
  | cons h _ ih => rw [splitLines_append h, ih]

theorem lines_consLines {c : Char} {t : Text} {ls : List Text} (h : Lines t ls) :
    Lines (c :: t) (consLines c ls) := by
  unfold consLines
  split
  · next hc =>
      subst hc
      exact .cons (l := []) List.not_mem_nil h
  · next hc =>
      have front {l : Text} (hl : '\n' ∉ l) : '\n' ∉ c :: l := by
        simp [hl, Ne.symm hc]
      cases h with
      | nil => exact .last (front List.not_mem_nil) (List.cons_ne_nil c [])
      | last h _ => exact .last (front h) (List.cons_ne_nil c _)
      | cons h later => exact .cons (front h) later

/-- **A text is split into its lines.** -/
theorem splitLines_eq_iff {t : Text} {ls : List Text} : splitLines t = ls ↔ Lines t ls := by
  constructor
  · rintro rfl
    induction t with
    | nil => exact .nil
    | cons c t ih =>
        rw [splitLines_cons]
        exact lines_consLines ih
  · exact Lines.splitLines_eq

/-- A text that ends with a line feed, if it has an end. -/
def Ended (t : Text) : Prop := ∀ c ∈ t.getLast?, c = '\n'

theorem Ended.of_append {t u : Text} (h : Ended (t ++ u)) : Ended u := by
  intro c hc
  refine h c ?_
  rw [List.getLast?_append, Option.mem_def.mp hc]
  rfl

theorem Ended.cons {c : Char} {t : Text} (later : Ended t) (h : t = [] → c = '\n') :
    Ended (c :: t) := by
  intro d hd
  cases t with
  | nil =>
      obtain rfl := Option.some.inj hd
      exact h rfl
  | cons e t =>
      rw [List.getLast?_cons_cons] at hd
      exact later d hd

/-- **Lines that have ended stay as they are when more text comes.** -/
theorem Lines.append {t u : Text} {ls ms : List Text} (h : Lines t ls) (ended : Ended t)
    (later : Lines u ms) : Lines (t ++ u) (ls ++ ms) := by
  induction h with
  | nil => exact later
  | @last l h ne_nil =>
      -- A line without a line feed has not ended.
      have feed := ended (l.getLast ne_nil) (List.getLast?_eq_some_getLast ne_nil)
      exact absurd (feed ▸ List.getLast_mem ne_nil) h
  | @cons l t ls h _ ih =>
      rw [List.append_assoc, List.cons_append]
      have rest : Ended (['\n'] ++ t) := ended.of_append
      exact .cons h (ih rest.of_append)

end LoxLexis.Text

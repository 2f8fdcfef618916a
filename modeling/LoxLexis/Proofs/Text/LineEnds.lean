import LoxLexis.Proofs.Text.Lines

/-!
# Line ends made alike

A line ends with a line feed, a carriage return, or the two together, and `Text.withLineFeeds` makes
a line feed of each by looking at every character with the one before it.  What it does can be said
by the line ends themselves, from the front of the text on, with one rule for each of the three.
A text without carriage returns is the same again after its line ends have been written in any one
of the three ways.

## Main definitions

* `Text.Unified` — a text, and the same with every line end made a line feed
* `Text.lineEnds` — the three line ends
* `Text.endedBy` — a text whose lines end in a given way

## Main statements

* `Text.withLineFeeds_eq_iff` — line ends become line feeds, and nothing else changes
* `Text.unified_endedBy` — the way in which lines end does not matter
* `Text.Unified.append` — texts are made alike one after the other
-/

namespace LoxLexis.Text

/-- A text, and the same with every line end made a line feed. -/
inductive Unified : Text → Text → Prop
  | nil : Unified [] []
  /-- A carriage return and the line feed after it end one line. -/
  | both {t u : Text} (later : Unified t u) : Unified ('\r' :: '\n' :: t) ('\n' :: u)
  | carriageReturn {t u : Text} (h : t.head? ≠ some '\n') (later : Unified t u) :
    Unified ('\r' :: t) ('\n' :: u)
  /-- Every other character is kept, a line feed among them. -/
  | other {c : Char} {t u : Text} (h : c ≠ '\r') (later : Unified t u) : Unified (c :: t) (c :: u)

/-! ### One character after another -/

/-- The line feeds and other characters that a text becomes after a character. -/
def feedsAfter (before : Char) (t : Text) : Text :=
  (List.zip (before :: t) t).filterMap fun (before, c) =>
    if c = '\r' then some '\n'
    else if before = '\r' ∧ c = '\n' then none
    else some c

theorem withLineFeeds_eq_feedsAfter (t : Text) : withLineFeeds t = feedsAfter '\n' t := rfl

section

variable {before : Char} {t : Text}

theorem feedsAfter_carriageReturn : feedsAfter before ('\r' :: t) = '\n' :: feedsAfter '\r' t := rfl

theorem feedsAfter_lineFeed : feedsAfter '\r' ('\n' :: t) = feedsAfter '\n' t := rfl

theorem feedsAfter_other {c : Char} (hc : c ≠ '\r') (h : before ≠ '\r' ∨ c ≠ '\n') :
    feedsAfter before (c :: t) = c :: feedsAfter c t := by
  have kept : ¬ (before = '\r' ∧ c = '\n') := by
    rintro ⟨hb, hf⟩
    rcases h with h | h
    · exact h hb
    · exact h hf
  simp [feedsAfter, hc, kept]

/-- The character before matters only if it may be half of a line end. -/
theorem feedsAfter_eq (h : before ≠ '\r' ∨ t.head? ≠ some '\n') :
    feedsAfter before t = withLineFeeds t := by
  rw [withLineFeeds_eq_feedsAfter]
  cases t with
  | nil => rfl
  | cons c t =>
      by_cases hc : c = '\r'
      · subst hc
        rfl
      · have free : before ≠ '\r' ∨ c ≠ '\n' := by simpa using h
        rw [feedsAfter_other hc free, feedsAfter_other hc (.inl (by decide))]

end

/-! ### Whole texts -/

theorem Unified.withLineFeeds_eq {t u : Text} (h : Unified t u) : withLineFeeds t = u := by
  induction h with
  | nil => rfl
  | both _ ih =>
      rw [withLineFeeds_eq_feedsAfter, feedsAfter_carriageReturn, feedsAfter_lineFeed,
        ← withLineFeeds_eq_feedsAfter, ih]
  | carriageReturn h _ ih =>
      rw [withLineFeeds_eq_feedsAfter, feedsAfter_carriageReturn, feedsAfter_eq (.inr h), ih]
  | other h _ ih =>
      rw [withLineFeeds_eq_feedsAfter, feedsAfter_other h (.inl (by decide)),
        feedsAfter_eq (.inl h), ih]

/-- Every text has its line ends made alike in some way. -/
theorem exists_unified : ∀ t : Text, ∃ u, Unified t u
  | [] => ⟨[], .nil⟩
  | [c] => by
      by_cases hc : c = '\r'
      · subst hc
        exact ⟨['\n'], .carriageReturn (by simp) .nil⟩
      · exact ⟨[c], .other hc .nil⟩
  | c :: d :: t => by
      obtain ⟨u, later⟩ := exists_unified t
      obtain ⟨v, here⟩ := exists_unified (d :: t)
      by_cases hc : c = '\r'
      · subst hc
        by_cases hd : d = '\n'
        · subst hd
          exact ⟨'\n' :: u, .both later⟩
        · exact ⟨'\n' :: v, .carriageReturn (by simpa using hd) here⟩
      · exact ⟨c :: v, .other hc here⟩

/-- **Line ends become line feeds, and nothing else changes.** -/
theorem withLineFeeds_eq_iff {t u : Text} : withLineFeeds t = u ↔ Unified t u := by
  constructor
  · rintro rfl
    obtain ⟨u, h⟩ := exists_unified t
    rwa [h.withLineFeeds_eq]
  · exact Unified.withLineFeeds_eq

/-! ### Texts put together -/

/-- **Texts are made alike one after the other**, unless a line end goes over the seam. -/
theorem Unified.append {t u s v : Text} (h : Unified t u) (later : Unified s v)
    (seam : t.getLast? ≠ some '\r' ∨ s.head? ≠ some '\n') : Unified (t ++ s) (u ++ v) := by
  have tail {c : Char} {t : Text} (seam : (c :: t).getLast? ≠ some '\r' ∨ s.head? ≠ some '\n') :
      t.getLast? ≠ some '\r' ∨ s.head? ≠ some '\n' := by
    refine seam.imp_left fun last same => last ?_
    rw [List.getLast?_cons, same]
    rfl
  induction h with
  | nil => exact later
  | both _ ih => exact .both (ih (tail (tail seam)))
  | @carriageReturn t u h _ ih =>
      refine .carriageReturn ?_ (ih (tail seam))
      cases t with
      | nil => exact seam.resolve_left (not_not_intro rfl)
      | cons c t => exact h
  | other h _ ih => exact .other h (ih (tail seam))

/-- A text that ends with a line feed still does when its line ends have been made alike. -/
theorem Unified.ended {t u : Text} (h : Unified t u) (ended : Ended t) : Ended u := by
  induction h with
  | nil => exact ended
  | @both t u _ ih =>
      have rest : Ended (['\r', '\n'] ++ t) := ended
      exact (ih rest.of_append).cons fun _ => rfl
  | @carriageReturn t u _ _ ih =>
      have rest : Ended (['\r'] ++ t) := ended
      exact (ih rest.of_append).cons fun _ => rfl
  | @other c t u _ later ih =>
      have rest : Ended ([c] ++ t) := ended
      refine (ih rest.of_append).cons ?_
      rintro rfl
      cases later with
      | nil => exact ended c rfl

/-! ### The way lines end -/

/-- The three line ends. -/
def lineEnds : List Text := [['\n'], ['\r', '\n'], ['\r']]

/-- A text whose lines end in a given way. -/
def endedBy (lineEnd t : Text) : Text := t.flatMap fun c => if c = '\n' then lineEnd else [c]

theorem endedBy_cons_lineFeed (lineEnd t : Text) :
    endedBy lineEnd ('\n' :: t) = lineEnd ++ endedBy lineEnd t := rfl

theorem endedBy_cons_other {c : Char} (hc : c ≠ '\n') (lineEnd t : Text) :
    endedBy lineEnd (c :: t) = c :: endedBy lineEnd t := by
  rw [endedBy, List.flatMap_cons, if_neg hc]
  rfl

/-- With carriage returns alone there is no line feed left for one of them to go with. -/
theorem head?_endedBy_ne (t : Text) : (endedBy ['\r'] t).head? ≠ some '\n' := by
  cases t with
  | nil => exact nofun
  | cons c t =>
      by_cases hc : c = '\n'
      · subst hc
        rw [endedBy_cons_lineFeed]
        simp
      · rw [endedBy_cons_other hc]
        simpa using hc

theorem unified_append_endedBy {lineEnd : Text} (h : lineEnd ∈ lineEnds) {t : Text}
    (later : Unified (endedBy lineEnd t) t) :
    Unified (lineEnd ++ endedBy lineEnd t) ('\n' :: t) := by
  simp only [lineEnds, List.mem_cons, List.not_mem_nil, or_false] at h
  rcases h with rfl | rfl | rfl
  · exact .other (by decide) later
  · exact .both later
  · exact .carriageReturn (head?_endedBy_ne t) later

/-- **The way in which lines end does not matter.** -/
theorem unified_endedBy {lineEnd : Text} (h : lineEnd ∈ lineEnds) {t : Text} (ht : '\r' ∉ t) :
    Unified (endedBy lineEnd t) t := by
  induction t with
  | nil => exact .nil
  | cons c t ih =>
      obtain ⟨hc, later⟩ := not_or.mp (mt List.mem_cons.mpr ht)
      by_cases feed : c = '\n'
      · subst feed
        rw [endedBy_cons_lineFeed]
        exact unified_append_endedBy h (ih later)
      · rw [endedBy_cons_other feed]
        exact .other (Ne.symm hc) (ih later)

end LoxLexis.Text

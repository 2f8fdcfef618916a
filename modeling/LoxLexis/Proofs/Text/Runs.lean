import LoxLexis.Text.Basic

/-!
# Runs of characters and texts told apart

A text is read from the front: a run of characters of one sort ends at the first character that is
of another, and the text in front of a mark is told apart from others if the mark does not occur in
it.  A list is told apart from others by the texts of its members, put together, if each member is
told apart by what its text begins with and a last member ends the list.

## Main statements

* `exists_run` — every text is a run of characters of one sort and what does not go on with it
* `eq_of_append_cons_eq` — texts are told apart by a mark behind them
* `eq_of_flatMap_prefix` — lists are told apart by the texts of their members
-/

namespace LoxLexis

/-! ### Runs of characters -/

/-- A run of characters of one sort stops before the first one that is of another. -/
theorem takeWhile_append_of_head {p : Char → Bool} {t after : Text} (ht : ∀ c ∈ t, p c = true)
    (stop : after.head?.any p = false) : (t ++ after).takeWhile p = t := by
  rw [List.takeWhile_append_of_pos ht]
  cases after with
  | nil => simp
  | cons c rest =>
      have hc : p c = false := stop
      simp [hc]

theorem dropWhile_append_of_head {α : Type} {p : α → Bool} {t after : List α}
    (ht : ∀ c ∈ t, p c = true) (stop : after.head?.any p = false) :
    (t ++ after).dropWhile p = after := by
  rw [List.dropWhile_append_of_pos ht]
  cases after with
  | nil => rfl
  | cons c rest =>
      have hc : p c = false := stop
      simp [hc]

theorem takeWhile_of_forall {p : Char → Bool} {t : Text} (ht : ∀ c ∈ t, p c = true) :
    t.takeWhile p = t := by
  have nothing : ([] : Text).head?.any p = false := rfl
  simpa using takeWhile_append_of_head ht nothing

theorem dropWhile_of_forall {p : Char → Bool} {t : Text} (ht : ∀ c ∈ t, p c = true) :
    t.dropWhile p = [] := by
  have nothing : ([] : Text).head?.any p = false := rfl
  simpa using dropWhile_append_of_head ht nothing

/-- Every text is a run of characters of one sort and a text that does not go on with it. -/
theorem exists_run (p : Char → Bool) (t : Text) :
    ∃ run after, t = run ++ after ∧ (∀ c ∈ run, p c = true) ∧ after.head?.any p = false := by
  refine ⟨t.takeWhile p, t.dropWhile p, List.takeWhile_append_dropWhile.symm, ?_, ?_⟩
  · exact List.all_eq_true.mp List.all_takeWhile
  · have := List.head?_dropWhile_not p t
    cases h : (t.dropWhile p).head? with
    | none => rfl
    | some c =>
        rw [h] at this
        exact this

theorem forall_ne_of_notMem {c : Char} {t : Text} (h : c ∉ t) :
    ∀ d ∈ t, decide (d ≠ c) = true := by
  intro d hd
  refine decide_eq_true ?_
  rintro rfl
  exact h hd

/-! ### Texts told apart -/

/-- Texts that are marked off by their first character of one sort are told apart. -/
theorem eq_of_append_cons_eq {c : Char} {t u x y : Text} (ht : c ∉ t) (hu : c ∉ u)
    (h : t ++ c :: x = u ++ c :: y) : t = u ∧ x = y := by
  have stop (z : Text) : (c :: z).head?.any (· ≠ c) = false := by simp
  have front : t = u := by
    rw [← takeWhile_append_of_head (forall_ne_of_notMem ht) (stop x), h,
      takeWhile_append_of_head (forall_ne_of_notMem hu) (stop y)]
  subst front
  exact ⟨rfl, (List.cons.inj (List.append_cancel_left h)).2⟩

/-- Lists that end with the same thing, found nowhere else in them, are told apart by what their
codes begin with, if that tells apart the things in them. -/
theorem eq_of_flatMap_prefix {α : Type} {code : α → Text} {P : α → Prop}
    (free : ∀ {a b : α}, P a → P b → ∀ {x y : Text}, code a ++ x = code b ++ y → a = b)
    {last : α} (hlast : P last) {as bs : List α} (has : ∀ a ∈ as, P a ∧ a ≠ last)
    (hbs : ∀ b ∈ bs, P b ∧ b ≠ last)
    (h : (as ++ [last]).flatMap code <+: (bs ++ [last]).flatMap code) : as = bs := by
  induction as generalizing bs with
  | nil =>
      cases bs with
      | nil => rfl
      | cons b bs =>
          obtain ⟨hb, ne⟩ := hbs b List.mem_cons_self
          obtain ⟨z, h⟩ := h
          simp only [List.nil_append, List.cons_append, List.flatMap_cons, List.flatMap_nil,
            List.append_nil] at h
          exact absurd (free hlast hb h).symm ne
  | cons a as ih =>
      obtain ⟨⟨ha, ne⟩, has⟩ := List.forall_mem_cons.mp has
      cases bs with
      | nil =>
          obtain ⟨z, h⟩ := h
          simp only [List.nil_append, List.cons_append, List.flatMap_cons, List.flatMap_nil,
            List.append_assoc] at h
          exact absurd (free ha hlast h) ne
      | cons b bs =>
          obtain ⟨⟨hb, -⟩, later⟩ := List.forall_mem_cons.mp hbs
          simp only [List.cons_append, List.flatMap_cons] at h
          have first : a = b := by
            obtain ⟨z, h⟩ := h
            rw [List.append_assoc] at h
            exact free ha hb h
          rw [first, List.prefix_append_right_inj] at h
          rw [first, ih has later h]

end LoxLexis

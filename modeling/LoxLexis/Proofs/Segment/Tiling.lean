import LoxLexis.Proofs.Segment.Front

/-!
# Segments side by side

A list of segments tiles a text when each has a shape and is not continued by what comes after it.
A text has exactly one tiling, its `segments`, so a question about the segments of a text put
together from others is a question about where the seams continue what stands before them.  A seam
is decided by the two characters after it.

## Main definitions

* `joined` — the text that segments make up
* `Tiles` — segments that tile a text in front of another

## Main statements

* `segments_eq_iff` — the segments of a text are its only tiling
* `segments_joined_append` — a tiling in front of a text is kept, whatever that text is cut into
* `Tiles.congr` — a tiling sees two characters of what comes after it
* `Tiles.before_layout` — a tiling is kept in front of layout that does not continue its last
  segment
-/

namespace LoxLexis

/-- The text that segments make up. -/
def joined (segs : List Segment) : Text := segs.flatMap Segment.text

@[simp] theorem joined_nil : joined [] = [] := rfl

@[simp] theorem joined_cons (s : Segment) (segs : List Segment) :
    joined (s :: segs) = s.text ++ joined segs := rfl

@[simp] theorem joined_append (segs segs' : List Segment) :
    joined (segs ++ segs') = joined segs ++ joined segs' := by
  simp [joined]

/-- Segments that stand side by side in front of a text: each has a shape and is not continued. -/
def Tiles (after : Text) : List Segment → Prop
  | [] => True
  | s :: segs => s.Shape ∧ s.continues (joined segs ++ after) = false ∧ Tiles after segs

@[simp] theorem tiles_nil (after : Text) : Tiles after [] := trivial

theorem tiles_cons {after : Text} {s : Segment} {segs : List Segment} :
    Tiles after (s :: segs) ↔
      s.Shape ∧ s.continues (joined segs ++ after) = false ∧ Tiles after segs := Iff.rfl

theorem tiles_append {after : Text} {segs segs' : List Segment} :
    Tiles after (segs ++ segs') ↔ Tiles (joined segs' ++ after) segs ∧ Tiles after segs' := by
  induction segs with
  | nil => simp
  | cons s segs ih => simp [tiles_cons, ih, and_assoc]

theorem Tiles.shape {after : Text} {segs : List Segment} (tiles : Tiles after segs) :
    ∀ s ∈ segs, s.Shape := by
  induction segs with
  | nil => simp
  | cons s segs ih =>
      obtain ⟨shape, -, tiles⟩ := tiles_cons.mp tiles
      exact List.forall_mem_cons.mpr ⟨shape, ih tiles⟩

/-! ### Texts have one tiling -/

theorem Lexeme.ne_nil {f : Form} {t : Text} (h : Lexeme f t) : t ≠ [] := by
  cases h with
  | whole h => exact h.ne_nil
  | _ => simp

theorem Segment.Shape.ne_nil {s : Segment} (h : s.Shape) : s.text ≠ [] := by
  cases h with
  | lexeme h => exact h.ne_nil
  | _ => simp

/-- A tiling in front of a text is what the segments of the whole begin with. -/
theorem segments_joined_append {after : Text} {segs : List Segment} (h : Tiles after segs) :
    segments (joined segs ++ after) = segs ++ segments after := by
  induction segs with
  | nil => rfl
  | cons s segs ih =>
      obtain ⟨shape, stop, tiles⟩ := tiles_cons.mp h
      obtain ⟨c, tail, hs⟩ := List.exists_cons_of_ne_nil shape.ne_nil
      have whole : s.text ++ (joined segs ++ after) = c :: (tail ++ (joined segs ++ after)) := by
        rw [hs, List.cons_append]
      have first := Segment.first_eq_of_shape shape stop whole
      rw [joined_cons, List.append_assoc, whole, segments_cons, first, ← whole, List.drop_left,
        ih tiles, List.cons_append]

@[simp] theorem joined_segments (t : Text) : joined (segments t) = t := by
  induction t using segments.induct with
  | case1 => rw [segments_nil, joined_nil]
  | case2 c rest s ih => rw [segments_cons, joined_cons, ih, Segment.first_append_drop]

theorem tiles_segments (t : Text) : Tiles [] (segments t) := by
  induction t using segments.induct with
  | case1 => rw [segments_nil]; exact tiles_nil _
  | case2 c rest s ih =>
      obtain ⟨shape, stop⟩ := Segment.first_shape c rest
      rw [segments_cons]
      refine ⟨shape, ?_, ih⟩
      rw [joined_segments, List.append_nil]
      exact stop

/-- **The segments of a text are its only tiling.** -/
theorem segments_eq_iff {t : Text} {segs : List Segment} :
    segments t = segs ↔ joined segs = t ∧ Tiles [] segs := by
  constructor
  · rintro rfl
    exact ⟨joined_segments t, tiles_segments t⟩
  · rintro ⟨rfl, tiles⟩
    simpa using segments_joined_append tiles

/-- Where the segments of a text are parted, the front tiles and the rest are segments again. -/
theorem tiles_of_segments_eq_append {t : Text} {done later : List Segment}
    (h : segments t = done ++ later) :
    Tiles (joined later) done ∧ segments (joined later) = later ∧ t = joined done ++ joined later := by
  obtain ⟨ht, tiles⟩ := segments_eq_iff.mp h
  obtain ⟨front, back⟩ := tiles_append.mp tiles
  rw [List.append_nil] at front
  exact ⟨front, segments_eq_iff.mpr ⟨rfl, back⟩, by rw [← ht, joined_append]⟩

/-- Where a segment of a text stands, it has a shape and is not continued. -/
theorem shape_of_segments_eq_append {t : Text} {done later : List Segment} {s : Segment}
    (h : segments t = done ++ s :: later) :
    s.Shape ∧ s.continues (joined later) = false ∧
      t = joined done ++ (s.text ++ joined later) := by
  obtain ⟨-, back, ht⟩ := tiles_of_segments_eq_append h
  obtain ⟨shape, stop, -⟩ := tiles_cons.mp (segments_eq_iff.mp back).2
  rw [List.append_nil] at stop
  exact ⟨shape, stop, ht⟩

theorem eq_nil_of_length_joined {segs : List Segment} (nonempty : ∀ s ∈ segs, s.text ≠ [])
    (h : (joined segs).length = 0) : segs = [] := by
  cases segs with
  | nil => rfl
  | cons s segs =>
      have hs := (List.append_eq_nil_iff.mp (List.eq_nil_of_length_eq_zero h)).1
      exact absurd hs (nonempty s List.mem_cons_self)

/-- A list of segments is parted in one way into two that make up texts of given lengths. -/
theorem eq_of_append_eq_append {done done' later later' : List Segment}
    (nonempty : ∀ s ∈ done ++ later, s.text ≠ []) (h : done ++ later = done' ++ later')
    (length : (joined done).length = (joined done').length) : done = done' := by
  rcases List.append_eq_append_iff.mp h with ⟨between, rfl, rfl⟩ | ⟨between, rfl, -⟩
  · rw [joined_append, List.length_append] at length
    have none : between = [] :=
      eq_nil_of_length_joined (fun s hs => nonempty s (by simp [hs])) (by omega)
    rw [none, List.append_nil]
  · rw [joined_append, List.length_append] at length
    have none : between = [] :=
      eq_nil_of_length_joined (fun s hs => nonempty s (by simp [hs])) (by omega)
    rw [none, List.append_nil]

/-! ### What a seam depends on -/

theorem beginsFraction_take_two (t : Text) : beginsFraction (t.take 2) = beginsFraction t := by
  cases t with
  | nil => rfl
  | cons c rest => cases rest <;> rfl

/-- Two characters decide whether a text continues a segment. -/
theorem Segment.continues_take_two (s : Segment) (after : Text) :
    s.continues (after.take 2) = s.continues after := by
  have head : (after.take 2).head? = after.head? := by simp [List.head?_take]
  have empty : (after.take 2).isEmpty = after.isEmpty := by cases after <;> rfl
  unfold Segment.continues
  rw [head, beginsFraction_take_two, empty]

/-- **A tiling sees two characters of what comes after it.** -/
theorem Tiles.congr {after after' : Text} (h : after.take 2 = after'.take 2)
    {segs : List Segment} (tiles : Tiles after segs) : Tiles after' segs := by
  induction segs with
  | nil => trivial
  | cons s segs ih =>
      obtain ⟨shape, stop, tiles⟩ := tiles_cons.mp tiles
      refine ⟨shape, ?_, ih tiles⟩
      -- The two characters may lie in the segments between, beyond them, or on both sides.
      have past : after'.take (2 - (joined segs).length) = after.take (2 - (joined segs).length) := by
        have := congrArg (List.take (2 - (joined segs).length)) h
        rw [List.take_take, List.take_take, Nat.min_eq_left (Nat.sub_le ..)] at this
        exact this.symm
      have seam : (joined segs ++ after').take 2 = (joined segs ++ after).take 2 := by
        rw [List.take_append, List.take_append, past]
      rw [← Segment.continues_take_two, seam, Segment.continues_take_two]
      exact stop

/-! ### Seams in front of layout -/

theorem Segment.continues_nil (s : Segment) : s.continues [] = false := by
  unfold Segment.continues
  split <;> simp [beginsFraction]

/-- What continues a segment does so whatever comes after it. -/
theorem Segment.continues_append {s : Segment} {t : Text} (h : s.continues t = true)
    (after : Text) : s.continues (t ++ after) = true := by
  cases t with
  | nil =>
      rw [s.continues_nil] at h
      cases h
  | cons c rest =>
      have fraction (hf : beginsFraction (c :: rest) = true) :
          beginsFraction (c :: (rest ++ after)) = true := by
        obtain ⟨d, more, htail, hd⟩ := Segment.beginsFraction_eq_true hf
        obtain ⟨rfl, rfl⟩ := List.cons.inj htail
        simp [beginsFraction, hd]
      -- All but a number and an open string ask for the first character only.
      unfold Segment.continues at h ⊢
      rw [List.cons_append]
      split
      · next hf =>
          rw [hf] at h
          simp only [Bool.or_eq_true, Bool.and_eq_true] at h ⊢
          exact h.imp id fun point => ⟨point.1, fraction point.2⟩
      all_goals simp_all

/-- A tiling in front of a text is one in front of any piece of its front. -/
theorem Tiles.of_append {before after : Text} {segs : List Segment}
    (tiles : Tiles (before ++ after) segs) : Tiles before segs := by
  induction segs with
  | nil => trivial
  | cons s segs ih =>
      obtain ⟨shape, stop, tiles⟩ := tiles_cons.mp tiles
      refine ⟨shape, Bool.eq_false_iff.mpr fun goes => ?_, ih tiles⟩
      rw [← List.append_assoc, Segment.continues_append goes] at stop
      cases stop

theorem isDigit_of_isLayout {c : Char} (h : isLayout c = true) : c.isDigit = false := by
  rcases Segment.eq_of_isLayout h with rfl | rfl | rfl | rfl <;> rfl

/-- Layout continues only a string that is not closed and, until the line ends, a comment. -/
theorem Segment.continues_layout_iff {s : Segment} {c : Char} (hc : isLayout c = true)
    (after : Text) :
    s.continues (c :: after) = true ↔
      s.form = .unterminated ∨ s.form = .layout ∧ s.text.head? = some '/' ∧ c ≠ '\n' := by
  have digit := isDigit_of_isLayout hc
  have other : c ≠ '.' ∧ c ≠ '/' ∧ c ≠ '=' := by
    rcases Segment.eq_of_isLayout hc with rfl | rfl | rfl | rfl <;> decide
  unfold Segment.continues
  split <;> simp_all [beginsFraction]

/-- Layout behind some text hides what comes after it. -/
theorem Segment.continues_append_layout (s : Segment) {t : Text} (ht : t ≠ []) {c : Char}
    (hc : isLayout c = true) (after : Text) : s.continues (t ++ c :: after) = s.continues t := by
  obtain ⟨d, rest, rfl⟩ := List.exists_cons_of_ne_nil ht
  have next : (rest ++ c :: after).head?.any Char.isDigit = rest.head?.any Char.isDigit := by
    cases rest with
    | nil => exact isDigit_of_isLayout hc
    | cons e rest => rfl
  have fraction : beginsFraction (d :: (rest ++ c :: after)) = beginsFraction (d :: rest) :=
    congrArg (_ && ·) next
  unfold Segment.continues
  rw [List.cons_append, fraction]
  rfl

/-- A tiling in front of some text is kept when layout comes behind that text. -/
theorem Tiles.append_layout {segs : List Segment} {t : Text} (ht : t ≠ []) (tiles : Tiles t segs)
    {c : Char} (hc : isLayout c = true) (after : Text) : Tiles (t ++ c :: after) segs := by
  induction segs with
  | nil => trivial
  | cons s segs ih =>
      obtain ⟨shape, stop, tiles⟩ := tiles_cons.mp tiles
      have whole : joined segs ++ t ≠ [] := List.append_ne_nil_of_right_ne_nil _ ht
      refine ⟨shape, ?_, ih tiles⟩
      rw [← List.append_assoc, s.continues_append_layout whole hc]
      exact stop

/-- **A tiling is kept in front of layout that does not continue its last segment.** -/
theorem Tiles.before_layout {segs : List Segment} (tiles : Tiles [] segs) {c : Char}
    (hc : isLayout c = true) {after : Text}
    (last : ∀ s ∈ segs.getLast?, s.continues (c :: after) = false) : Tiles (c :: after) segs := by
  rcases List.eq_nil_or_concat segs with rfl | ⟨init, s, rfl⟩
  · trivial
  · rw [List.concat_eq_append] at tiles last ⊢
    obtain ⟨front, shape, -, -⟩ := tiles_append.mp tiles
    rw [List.append_nil] at front
    have text : joined [s] ≠ [] := by simpa using shape.ne_nil
    exact tiles_append.mpr ⟨front.append_layout text hc after, shape, last s (by simp), trivial⟩

/-- A tiling without a string that is not closed is kept in front of a line feed. -/
theorem Tiles.before_lineFeed {segs : List Segment} (tiles : Tiles [] segs)
    (closed : ∀ s ∈ segs, s.form ≠ .unterminated) (after : Text) : Tiles ('\n' :: after) segs := by
  refine tiles.before_layout rfl fun s hs => Bool.eq_false_iff.mpr fun goes => ?_
  rcases (Segment.continues_layout_iff rfl after).mp goes with unclosed | ⟨-, -, differs⟩
  · exact closed s (List.mem_of_getLast? hs) unclosed
  · exact differs rfl

end LoxLexis

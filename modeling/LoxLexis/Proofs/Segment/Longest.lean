import LoxLexis.Proofs.Segment.Tiling

/-!
# Longest pieces

The segments of a text are what the rule of the longest piece makes of it: at each place the longest
text that has one of the forms of the grammar, and where no form fits, the whole rest after a
double quote and a single character otherwise.  The rule is stated with `Lexeme` alone, and it
leaves no choice.

## Main definitions

* `LongestFront` — a segment that the rule permits at the front of a text
* `Cuts` — a text cut up by the rule

## Main statements

* `longestFront_iff` — the rule permits the first segment and no other
* `cuts_iff` — the rule cuts a text into its segments and nothing else
-/

namespace LoxLexis

/-- The longest piece of one of the forms at the front of a text, or the piece in error there if
no form fits. -/
inductive LongestFront : Text → Segment → Prop
  /-- No piece of any form is longer. -/
  | lexeme {t u : Text} {f : Form} (h : Lexeme f u) (front : u <+: t)
      (longest : ∀ g v, Lexeme g v → v <+: t → v.length ≤ u.length) :
      LongestFront t { text := u, form := f }
  /-- No form fits, and the text begins with a double quote. -/
  | unterminated {t : Text} (none : ∀ g v, Lexeme g v → ¬ v <+: Text.doubleQuote :: t) :
      LongestFront (Text.doubleQuote :: t)
        { text := Text.doubleQuote :: t, form := .unterminated }
  /-- No form fits, and the text begins with another character. -/
  | unexpected {c : Char} {t : Text} (quote : c ≠ Text.doubleQuote)
      (none : ∀ g v, Lexeme g v → ¬ v <+: c :: t) :
      LongestFront (c :: t) { text := [c], form := .unexpected }

/-- A text cut up into longest pieces. -/
inductive Cuts : Text → List Segment → Prop
  | nil : Cuts [] []
  | cons {s : Segment} {rest : Text} {segs : List Segment} (h : LongestFront (s.text ++ rest) s)
      (later : Cuts rest segs) : Cuts (s.text ++ rest) (s :: segs)

/-! ### No piece is longer than the first segment -/

/-- The digits a text begins with belong to the number. -/
theorem takeWhile_prefix_numberTail (t : Text) : t.takeWhile Char.isDigit <+: numberTail t := by
  unfold numberTail
  split
  · split
    · exact List.prefix_append _ _
    · exact List.prefix_rfl
  · exact List.prefix_rfl

theorem length_le_numberTail {ds : Text} (h : ∀ c ∈ ds, c.isDigit = true) (after : Text) :
    ds.length ≤ (numberTail (ds ++ after)).length := by
  refine Nat.le_trans ?_ (takeWhile_prefix_numberTail _).length_le
  rw [List.takeWhile_append_of_pos h, List.length_append]
  exact Nat.le_add_right _ _

theorem length_le_numberTail_fraction {ds es : Text} (h : ∀ c ∈ ds, c.isDigit = true)
    (h' : Digits es) (after : Text) :
    (ds ++ '.' :: es).length ≤ (numberTail (ds ++ '.' :: (es ++ after))).length := by
  -- More digits may follow, and then the number is longer than the piece.
  obtain ⟨more, later, rfl, hmore, stop⟩ := exists_run Char.isDigit after
  have digits : Digits (es ++ more) := by
    refine ⟨fun e => h'.ne_nil (List.append_eq_nil_iff.mp e).1, fun c hc => ?_⟩
    rcases List.mem_append.mp hc with hc | hc
    · exact h'.isDigit c hc
    · exact hmore c hc
  rw [← List.append_assoc es, numberTail_append_fraction h digits stop]
  simp only [List.length_append, List.length_cons]
  omega

def Form.isError : Form → Bool
  | .unterminated | .unexpected => true
  | _ => false

/-- **Where some form fits, the first segment has one, and no piece of any form is longer.** -/
theorem Lexeme.first_of_prefix {f : Form} {u : Text} (h : Lexeme f u) {c : Char} {rest : Text}
    (front : u <+: c :: rest) :
    u.length ≤ (Segment.first c rest).text.length ∧ (Segment.first c rest).form.isError = false := by
  have one := Segment.length_first_pos c rest
  obtain ⟨after, hu⟩ := front
  cases h with
  | single h =>
      obtain ⟨rfl, rfl⟩ := List.cons.inj hu
      refine ⟨one, ?_⟩
      rw [Segment.first_of_single h]
      rfl
  | operator h =>
      rw [List.singleton_append] at hu
      obtain ⟨rfl, rfl⟩ := List.cons.inj hu
      refine ⟨one, ?_⟩
      rw [Segment.first_of_operator h, Segment.operator.eq_def]
      split <;> rfl
  | compound h =>
      obtain ⟨rfl, rfl⟩ := List.cons.inj hu
      rw [Segment.first_of_operator h]
      exact ⟨Nat.le_refl 2, rfl⟩
  | slash =>
      rw [List.singleton_append] at hu
      obtain ⟨rfl, rfl⟩ := List.cons.inj hu
      refine ⟨one, ?_⟩
      rw [Segment.first_slash, Segment.slash.eq_def]
      split <;> rfl
  | @comment t h =>
      rw [List.cons_append, List.cons_append] at hu
      obtain ⟨rfl, rfl⟩ := List.cons.inj hu
      have line : (commentTail (t ++ after)).length = (t ++ commentTail after).length :=
        congrArg _ (List.takeWhile_append_of_pos (forall_ne_of_notMem h))
      rw [Segment.first_slash, Segment.slash]
      simp only [List.length_cons, line, List.length_append]
      exact ⟨by omega, rfl⟩
  | blank h =>
      obtain ⟨rfl, rfl⟩ := List.cons.inj hu
      refine ⟨one, ?_⟩
      rw [Segment.first_of_layout h]
      rfl
  | @string t h =>
      rw [List.cons_append, List.append_assoc, List.singleton_append] at hu
      obtain ⟨rfl, rfl⟩ := List.cons.inj hu
      rw [Segment.first_quote, stringTail_append h]
      exact ⟨Nat.le_refl _, rfl⟩
  | whole h =>
      obtain ⟨d, ds, rfl, hd, hds⟩ := h.exists_cons
      rw [List.cons_append] at hu
      obtain ⟨rfl, rfl⟩ := List.cons.inj hu
      rw [Segment.first_of_digit hd]
      exact ⟨Nat.succ_le_succ (length_le_numberTail hds after), rfl⟩
  | @decimal ds es h h' =>
      obtain ⟨d, ds, rfl, hd, hds⟩ := h.exists_cons
      rw [List.append_assoc, List.cons_append, List.cons_append] at hu
      obtain ⟨rfl, rfl⟩ := List.cons.inj hu
      rw [Segment.first_of_digit hd]
      exact ⟨Nat.succ_le_succ (length_le_numberTail_fraction hds h' after), rfl⟩

/-- A text has one form at most. -/
theorem Lexeme.form_unique {f g : Form} {t : Text} (hf : Lexeme f t) (hg : Lexeme g t) :
    f = g := by
  -- In front of nothing both are the first segment of the text.
  obtain ⟨c, rest, rfl⟩ := List.exists_cons_of_ne_nil hf.ne_nil
  have end_of_text (k : Form) : Segment.continues { text := c :: rest, form := k } [] = false := by
    unfold Segment.continues
    split <;> simp [beginsFraction]
  have first_f := Segment.first_eq_of_lexeme hf (end_of_text f) (List.append_nil _)
  have first_g := Segment.first_eq_of_lexeme hg (end_of_text g) (List.append_nil _)
  exact congrArg Segment.form (first_f.symm.trans first_g)

/-! ### The rule at one place -/

theorem longestFront_first (c : Char) (rest : Text) :
    LongestFront (c :: rest) (Segment.first c rest) := by
  obtain ⟨shape, stop⟩ := Segment.first_shape c rest
  have front := Segment.first_prefix_cons c rest
  have none (hs : (Segment.first c rest).form.isError = true) :
      ∀ g v, Lexeme g v → ¬ v <+: c :: rest := by
    intro g v hv hfront
    rw [(hv.first_of_prefix hfront).2] at hs
    cases hs
  have longest : ∀ g v, Lexeme g v → v <+: c :: rest →
      v.length ≤ (Segment.first c rest).text.length := fun g v hv hfront =>
    (hv.first_of_prefix hfront).1
  generalize hs : Segment.first c rest = s at shape stop front none longest
  cases shape with
  | lexeme h => exact .lexeme h front longest
  | @unterminated t h =>
      rw [Segment.continues_unterminated, Bool.not_eq_false', List.isEmpty_iff] at stop
      have whole : Text.doubleQuote :: t = c :: rest := by
        have := List.prefix_iff_eq_append.mp front
        rw [stop, List.append_nil] at this
        exact this
      rw [← whole] at none ⊢
      exact .unterminated (none rfl)
  | @unexpected d h =>
      obtain ⟨tail, hd⟩ := Segment.first_text c rest
      rw [hs] at hd
      obtain ⟨rfl, -⟩ := List.cons.inj hd
      exact .unexpected h.quote (none rfl)

/-- **The rule of the longest piece permits the first segment and no other.** -/
theorem longestFront_iff {c : Char} {rest : Text} {s : Segment} :
    LongestFront (c :: rest) s ↔ s = Segment.first c rest := by
  constructor
  · intro h
    have first := longestFront_first c rest
    generalize Segment.first c rest = s' at first
    generalize c :: rest = t at h first
    -- Two pieces that are both longest are prefixes of the same length, and so the same text.
    cases h with
    | @lexeme _ u f hu front longest =>
        cases first with
        | @lexeme _ u' f' hu' front' longest' =>
            have same : u.length = u'.length :=
              Nat.le_antisymm (longest' _ _ hu front) (longest _ _ hu' front')
            obtain rfl : u = u' :=
              (List.prefix_of_prefix_length_le front front' (Nat.le_of_eq same)).eq_of_length same
            rw [hu.form_unique hu']
        | unterminated none => exact absurd front (none _ _ hu)
        | unexpected _ none => exact absurd front (none _ _ hu)
    | unterminated none =>
        cases first with
        | lexeme hu front _ => exact absurd front (none _ _ hu)
        | unterminated _ => rfl
        | unexpected quote _ => exact absurd rfl quote
    | unexpected quote none =>
        cases first with
        | lexeme hu front _ => exact absurd front (none _ _ hu)
        | unterminated _ => exact absurd rfl quote
        | unexpected _ _ => rfl
  · rintro rfl
    exact longestFront_first c rest

/-! ### The rule along a text -/

theorem LongestFront.text_ne_nil {t : Text} {s : Segment} (h : LongestFront t s) : s.text ≠ [] := by
  cases h with
  | lexeme h => exact h.ne_nil
  | _ => simp

/-- **The rule of the longest piece cuts a text into its segments and nothing else.** -/
theorem cuts_iff {t : Text} {segs : List Segment} : Cuts t segs ↔ segs = segments t := by
  constructor
  · intro h
    induction h with
    | nil => rw [segments_nil]
    | @cons s rest segs h _ ih =>
        obtain ⟨c, tail, hs⟩ := List.exists_cons_of_ne_nil h.text_ne_nil
        have whole : s.text ++ rest = c :: (tail ++ rest) := by rw [hs, List.cons_append]
        have first : s = Segment.first c (tail ++ rest) := longestFront_iff.mp (whole ▸ h)
        rw [whole, segments_cons, ← first, ← whole, List.drop_left, ih]
  · rintro rfl
    induction t using segments.induct with
    | case1 => rw [segments_nil]; exact .nil
    | case2 c rest s ih =>
        have front := longestFront_first c rest
        have whole := Segment.first_append_drop c rest
        rw [← whole] at front
        have cut := Cuts.cons front ih
        rw [whole] at cut
        rw [segments_cons]
        exact cut

end LoxLexis

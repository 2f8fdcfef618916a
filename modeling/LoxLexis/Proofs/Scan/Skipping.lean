import LoxLexis.Proofs.Scan.Lines
import Mathlib.Data.List.Forall2

/-!
# Errors are reported and skipped

A character that begins nothing is a segment by itself.  It ends the segment before it in the same
way as a space does, for neither of them is a digit, a point, an equals sign or a slash, and no
string or comment has such a segment inside.  So with spaces in place of any of these characters the
source falls into the same segments but for the ones replaced, which are layout now: the tokens are
the same, and of the reports only those of the characters replaced are missing.

## Main definitions

* `Scan.ReportsAt` — a complete scan makes a report at a position
* `PlacedReports` — the reports of a scan, each with the position it is made at
* `Text.blanked` — a text with spaces at some positions
* `Skips` — segments with spaces in place of some characters that begin nothing
* `UnexpectedAt` — an unexpected character is a segment that begins at a position

## Main statements

* `Skips.tiles` — the other segments end where they did
* `scan_skips_unexpected` — characters in error may be replaced by spaces
-/

namespace LoxLexis

/-- A complete scan makes a report by the step it takes from a position. -/
def Scan.ReportsAt (source : Text) (p : Nat) (r : Report) : Prop :=
  ∃ t k, Scan.Head Reporter.keep source [] t k ∧ t.current = p ∧ t.next.2 = .report r

/-- The reports of a complete scan, each with the position of the step it is made by. -/
structure PlacedReports (source : Text) (found : List (Nat × Report)) : Prop where
  reports : (Scan.of source).reports = found.map Prod.snd
  /-- When the scan is at the position, it has made the reports before this one. -/
  places : ∀ before p r after, found = before ++ (p, r) :: after →
    ∃ t, Scan.Head Reporter.keep source [] t (before.map Prod.snd) ∧ t.current = p ∧
      t.next.2 = .report r

/-- A text with spaces at some positions. -/
def Text.blanked (t : Text) (P : Nat → Bool) : Text := t.mapIdx fun i c => if P i then ' ' else c

theorem Text.blanked_append (t u : Text) (P : Nat → Bool) :
    blanked (t ++ u) P = blanked t P ++ blanked u fun i => P (t.length + i) := by
  rw [blanked, List.mapIdx_append]
  simp only [blanked, Nat.add_comm]

/-- A text without any of the positions stays as it is. -/
theorem Text.blanked_eq_self {t : Text} {P : Nat → Bool} (h : ∀ i, i < t.length → P i = false) :
    t.blanked P = t := by
  refine List.ext_getElem (by simp [blanked]) fun i _ hi => ?_
  simp only [blanked, List.getElem_mapIdx, h i hi, Bool.false_eq_true, if_false]

/-! ### Spaces in place of characters that begin nothing -/

/-- A character, or a space in place of one that begins nothing. -/
def Blanked (c d : Char) : Prop := d = c ∨ BeginsNothing c ∧ d = ' '

/-- A sort of characters that has neither spaces nor characters that begin nothing. -/
theorem Blanked.same {p : Char → Bool} (nothing : ∀ c, BeginsNothing c → p c = false)
    (space : p ' ' = false) {c d : Char} (h : Blanked c d) : p d = p c := by
  rcases h with rfl | ⟨hc, rfl⟩
  · rfl
  · rw [space, nothing c hc]

theorem BeginsNothing.ne {c x : Char} (h : BeginsNothing c) (hx : ¬ BeginsNothing x) : c ≠ x := by
  rintro rfl
  exact hx h

/-- Neither a space nor a character that begins nothing is a character that begins something. -/
theorem Blanked.eq_iff {x : Char} (begins : ¬ BeginsNothing x) (space : ' ' ≠ x) {c d : Char}
    (h : Blanked c d) : (d == x) = (c == x) := by
  refine h.same (p := (· == x)) (fun c hc => ?_) (beq_eq_false_iff_ne.mpr space)
  exact beq_eq_false_iff_ne.mpr (hc.ne begins)

section

variable {t u : Text} (h : List.Forall₂ Blanked t u)
include h

theorem head?_any_blanked {p : Char → Bool} (same : ∀ {c d}, Blanked c d → p d = p c) :
    u.head?.any p = t.head?.any p := by
  cases h with
  | nil => rfl
  | cons first _ => exact same first

theorem head?_eq_blanked {x : Char} (begins : ¬ BeginsNothing x) (space : ' ' ≠ x) :
    (u.head? == some x) = (t.head? == some x) := by
  cases h with
  | nil => rfl
  | cons first _ => exact first.eq_iff begins space

theorem isDigit_blanked : u.head?.any Char.isDigit = t.head?.any Char.isDigit :=
  head?_any_blanked h fun first => first.same (fun _ hc => hc.digit) rfl

theorem beginsFraction_blanked : beginsFraction u = beginsFraction t := by
  have point : ¬ BeginsNothing '.' := fun nothing => by cases nothing.single
  rw [beginsFraction, beginsFraction, head?_eq_blanked h point (by decide)]
  cases h with
  | nil => rfl
  | cons _ later => rw [List.tail_cons, List.tail_cons, isDigit_blanked later]

/-- **A space ends a segment in the same way as a character that begins nothing.** -/
theorem Segment.continues_blanked (s : Segment) : s.continues u = s.continues t := by
  have slash : ¬ BeginsNothing '/' := fun nothing => nothing.slash rfl
  have equals : ¬ BeginsNothing '=' := fun nothing => by cases nothing.operator
  have line : ¬ BeginsNothing '\n' := fun nothing => by cases nothing.layout
  have comment : u.head?.any (· ≠ '\n') = t.head?.any (· ≠ '\n') := by
    refine head?_any_blanked h fun {c d} first => ?_
    have same := first.eq_iff line (by decide)
    rw [Bool.eq_iff_iff, beq_iff_eq, beq_iff_eq] at same
    simp only [ne_eq, same]
  have empty : u.isEmpty = t.isEmpty := by
    cases h with
    | nil => rfl
    | cons _ _ => rfl
  unfold Segment.continues
  rw [isDigit_blanked h, beginsFraction_blanked h, head?_eq_blanked h slash (by decide),
    head?_eq_blanked h equals (by decide), comment, empty]

end

/-- Segments from a position on, with spaces in place of some characters that begin nothing. -/
inductive Skips (P : Nat → Bool) : Nat → List Segment → List Segment → Prop
  | nil {p : Nat} : Skips P p [] []
  | kept {p : Nat} {s : Segment} {segs segs' : List Segment}
      (kept : ∀ i, i < s.text.length → P (p + i) = false)
      (later : Skips P (p + s.text.length) segs segs') : Skips P p (s :: segs) (s :: segs')
  | skipped {p : Nat} {c : Char} {segs segs' : List Segment} (nothing : BeginsNothing c)
      (replaced : P p = true) (later : Skips P (p + 1) segs segs') :
      Skips P p ({ text := [c], form := .unexpected } :: segs)
        ({ text := [' '], form := .layout } :: segs')

/-- The reports that segments from a position and a line on give rise to, with their positions. -/
def placedReports : Nat → Int → List Segment → List (Nat × Report)
  | _, _, [] => []
  | p, line, s :: segs =>
    (s.report? (line + Text.lineFeeds s.text)).toList.map (fun r => (p, r)) ++
      placedReports (p + s.text.length) (line + Text.lineFeeds s.text) segs

theorem BeginsNothing.lineFeeds {c : Char} (h : BeginsNothing c) : Text.lineFeeds [c] = 0 := by
  refine Text.lineFeeds_singleton_of_ne ?_
  rintro rfl
  cases h.layout

namespace Skips

variable {P : Nat → Bool} {p : Nat} {segs segs' : List Segment}

theorem joined_blanked (h : Skips P p segs segs') :
    List.Forall₂ Blanked (joined segs) (joined segs') := by
  induction h with
  | nil => exact .nil
  | kept _ _ ih => exact List.rel_append (List.forall₂_same.mpr fun _ _ => .inl rfl) ih
  | skipped nothing _ _ ih => exact .cons (.inr ⟨nothing, rfl⟩) ih

/-- **The other segments end where they did.** -/
theorem tiles (h : Skips P p segs segs') (tiles : Tiles [] segs) : Tiles [] segs' := by
  induction h with
  | nil => trivial
  | kept _ later ih =>
      obtain ⟨shape, stop, tiles⟩ := tiles_cons.mp tiles
      refine tiles_cons.mpr ⟨shape, ?_, ih tiles⟩
      rw [List.append_nil] at stop ⊢
      rw [Segment.continues_blanked later.joined_blanked, stop]
  | skipped _ _ _ ih =>
      exact tiles_cons.mpr ⟨.lexeme (.blank rfl), Segment.continues_blank _ rfl, ih tiles.2.2⟩

theorem joined_eq (h : Skips P p segs segs') :
    joined segs' = (joined segs).blanked fun i => P (p + i) := by
  induction h with
  | nil => rfl
  | kept kept _ ih =>
      rw [joined_cons, joined_cons, ih, Text.blanked_append, Text.blanked_eq_self kept]
      simp only [Nat.add_assoc]
  | skipped _ replaced _ ih =>
      rw [joined_cons, joined_cons, ih, Text.blanked_append]
      simp only [Text.blanked, List.mapIdx_singleton, Nat.add_zero, replaced, if_true,
        List.length_singleton, Nat.add_assoc]

theorem lineFeeds_eq (h : Skips P p segs segs') :
    Text.lineFeeds (joined segs') = Text.lineFeeds (joined segs) := by
  induction h with
  | nil => rfl
  | kept _ _ ih => rw [joined_cons, joined_cons, Text.lineFeeds_append, Text.lineFeeds_append, ih]
  | skipped nothing _ _ ih =>
      rw [joined_cons, joined_cons, Text.lineFeeds_append, Text.lineFeeds_append, ih,
        nothing.lineFeeds]
      rfl

theorem tokensFrom_eq (h : Skips P p segs segs') (line : Int) :
    tokensFrom line segs' = tokensFrom line segs := by
  induction h generalizing line with
  | nil => rfl
  | kept _ _ ih => rw [tokensFrom_cons, tokensFrom_cons, ih]
  | skipped nothing _ _ ih =>
      rw [tokensFrom_cons, tokensFrom_cons, ih, nothing.lineFeeds]
      rfl

/-- The reports of the characters replaced are missing. -/
theorem reportsFrom_eq (h : Skips P p segs segs') (shapes : ∀ s ∈ segs, s.Shape) (line : Int) :
    reportsFrom line segs' =
      ((placedReports p line segs).filter fun found => !P found.1).map Prod.snd := by
  induction h generalizing line with
  | nil => rfl
  | @kept p s segs segs' kept later ih =>
      obtain ⟨shape, shapes⟩ := List.forall_mem_cons.mp shapes
      have here : P p = false := kept 0 (List.length_pos_iff.mpr shape.ne_nil)
      rw [reportsFrom_cons, placedReports, List.filter_append, List.map_append, ih shapes]
      congr 1
      cases s.report? (line + Text.lineFeeds s.text) with
      | none => rfl
      | some r => simp [here]
  | skipped nothing replaced _ ih =>
      have space : Text.lineFeeds [' '] = 0 := rfl
      rw [reportsFrom_cons, placedReports, List.filter_append, List.map_append,
        ih fun s hs => shapes s (List.mem_cons_of_mem _ hs), nothing.lineFeeds, space]
      simp [Segment.report?, replaced]

end Skips

/-- A segment that is an unexpected character begins after so many characters. -/
def UnexpectedAt (segs : List Segment) (i : Nat) : Prop :=
  ∃ done s later, segs = done ++ s :: later ∧ i = (joined done).length ∧ s.form = .unexpected

/-- It is the first segment, or it is one behind this. -/
theorem UnexpectedAt.of_cons {s : Segment} {segs : List Segment} {i : Nat}
    (h : UnexpectedAt (s :: segs) i) :
    i = 0 ∧ s.form = .unexpected ∨ ∃ j, i = s.text.length + j ∧ UnexpectedAt segs j := by
  obtain ⟨done, s', later, hsegs, rfl, form⟩ := h
  cases done with
  | nil =>
      obtain ⟨rfl, -⟩ := List.cons.inj hsegs
      exact .inl ⟨rfl, form⟩
  | cons d done =>
      obtain ⟨rfl, rfl⟩ := List.cons.inj hsegs
      rw [joined_cons, List.length_append]
      exact .inr ⟨_, rfl, done, s', later, rfl, rfl, form⟩

theorem Segment.Shape.exists_unexpected {s : Segment} (h : s.Shape) (form : s.form = .unexpected) :
    ∃ c, BeginsNothing c ∧ s = { text := [c], form := .unexpected } := by
  cases h with
  | lexeme lexeme =>
      cases lexeme
      all_goals cases form
  | unterminated _ => cases form
  | unexpected nothing => exact ⟨_, nothing, rfl⟩

/-- Where spaces are only put in place of unexpected characters, nothing else changes. -/
theorem exists_skips {P : Nat → Bool} {segs : List Segment} (shapes : ∀ s ∈ segs, s.Shape) {p : Nat}
    (unexpected : ∀ i, P (p + i) = true → UnexpectedAt segs i) : ∃ segs', Skips P p segs segs' := by
  induction segs generalizing p with
  | nil => exact ⟨[], .nil⟩
  | cons s segs ih =>
      obtain ⟨shape, shapes⟩ := List.forall_mem_cons.mp shapes
      have nonempty : 0 < s.text.length := List.length_pos_iff.mpr shape.ne_nil
      obtain ⟨segs', later⟩ := ih shapes (p := p + s.text.length) fun i h => by
        rw [Nat.add_assoc] at h
        obtain ⟨zero, -⟩ | ⟨j, hj, behind⟩ := (unexpected _ h).of_cons
        · omega
        · obtain rfl : i = j := by omega
          exact behind
      cases here : P p with
      | true =>
          obtain ⟨-, form⟩ | ⟨j, hj, -⟩ := (unexpected 0 here).of_cons
          · obtain ⟨c, nothing, rfl⟩ := shape.exists_unexpected form
            exact ⟨_, .skipped nothing here later⟩
          · omega
      | false =>
          refine ⟨s :: segs', .kept (fun i hi => ?_) later⟩
          by_contra replaced
          rw [Bool.not_eq_false] at replaced
          -- Only the first character of a segment may be unexpected, and this one is not replaced.
          obtain ⟨rfl, -⟩ | ⟨j, hj, -⟩ := (unexpected i replaced).of_cons
          · rw [Nat.add_zero, here] at replaced
            cases replaced
          · omega

/-! ### Reports and their positions -/

theorem map_snd_placedReports (p : Nat) (line : Int) (segs : List Segment) :
    (placedReports p line segs).map Prod.snd = reportsFrom line segs := by
  induction segs generalizing p line with
  | nil => rfl
  | cons s segs ih =>
      rw [placedReports, List.map_append, ih, reportsFrom_cons, List.map_map]
      exact congrArg (· ++ _) (List.map_id _)

/-- A report with its position parts the segments. -/
theorem placedReports_eq_append_cons {p q : Nat} {line : Int} {segs : List Segment} {r : Report}
    {before after : List (Nat × Report)}
    (h : placedReports p line segs = before ++ (q, r) :: after) :
    ∃ done s later, segs = done ++ s :: later ∧ q = p + (joined done).length ∧
      before.map Prod.snd = reportsFrom line done ∧
      s.report? (line + Text.lineFeeds (joined (done ++ [s]))) = some r := by
  induction segs generalizing p line before with
  | nil => exact absurd h.symm (List.append_ne_nil_of_right_ne_nil _ (List.cons_ne_nil _ _))
  | cons s segs ih =>
      rw [placedReports, ← Option.toList_map] at h
      obtain ⟨rfl, here⟩ | ⟨before', rfl, h'⟩ := toList_append_eq_append_cons h
      · obtain ⟨r', made, same⟩ := Option.map_eq_some_iff.mp here
        obtain ⟨rfl, rfl⟩ := Prod.mk.inj same
        refine ⟨[], s, segs, rfl, rfl, rfl, ?_⟩
        rwa [List.nil_append, joined_cons, joined_nil, List.append_nil]
      · obtain ⟨done, s', later, rfl, rfl, reports, made⟩ := ih h'
        refine ⟨s :: done, s', later, rfl, ?_, ?_, ?_⟩
        · rw [joined_cons, List.length_append, Nat.add_assoc]
        · rw [List.map_append, reports, reportsFrom_cons, Option.toList_map, List.map_map]
          exact congrArg (· ++ _) (List.map_id _)
        · rw [List.cons_append, joined_cons, Text.lineFeeds_append, Int.natCast_add, ← Int.add_assoc]
          exact made

namespace Segment

theorem signal_eq_report_iff {s : Segment} {line : Int} {r : Report} :
    s.signal line = .report r ↔ s.report? line = some r := by
  unfold signal
  cases s.report? line with
  | none => exact ⟨nofun, nofun⟩
  | some r' =>
      show Signal.report r' = .report r ↔ some r' = some r
      rw [Signal.report.injEq, Option.some.injEq]

theorem form_eq_unexpected {s : Segment} {line : Int} {r : Report} (made : s.report? line = some r)
    (message : r.message = unexpectedCharacter) : s.form = .unexpected := by
  have differ : unterminatedString ≠ unexpectedCharacter := by decide
  unfold report? at made
  split at made
  · cases made
    exact absurd message differ
  · next form => exact form
  · cases made

end Segment

namespace Scan

/-- A report of an unexpected character is made at the beginning of a segment of that form. -/
theorem ReportsAt.unexpectedAt {source : Text} {p : Nat} {r : Report} (h : ReportsAt source p r)
    (message : r.message = unexpectedCharacter) : UnexpectedAt (segments source) p := by
  obtain ⟨t, k, head, rfl, step⟩ := h
  obtain ⟨done, later, hsegs, rfl, -⟩ := (head_iff Reporter.keep_quiet).mp head
  cases later with
  | nil =>
      -- At the end of the source a step is a fault.
      have rest : ((Scanner.new source).past done).rest = [] :=
        Scanner.rest_past (tiles_of_segments_eq_append hsegs).2.2
      have begun : ({ (Scanner.new source).past done with
          start := ((Scanner.new source).past done).current } : Scanner).rest = [] := rest
      rw [Scanner.next, Scanner.scanToken, begun] at step
      cases step
  | cons s later =>
      rw [next_past hsegs] at step
      have form := Segment.form_eq_unexpected (Segment.signal_eq_report_iff.mp step) message
      exact ⟨done, s, later, hsegs, Scanner.new_past_current _ _, form⟩

/-- The reports of a source, each with the position of the segment that gives rise to it. -/
theorem placedReports_of (source : Text) :
    PlacedReports source (placedReports 0 1 (segments source)) where
  reports := by rw [map_snd_placedReports, of_eq]
  places := by
    intro before p r after h
    obtain ⟨done, s, later, hsegs, hp, reports, made⟩ := placedReports_eq_append_cons h
    refine ⟨(Scanner.new source).past done, ?_, ?_, ?_⟩
    · refine (head_iff Reporter.keep_quiet).mpr ⟨done, s :: later, hsegs, rfl, ?_⟩
      rw [Reporter.after_keep, List.nil_append, reports]
    · rw [Scanner.new_past_current, hp, Nat.zero_add]
    · rw [next_past hsegs]
      exact Segment.signal_eq_report_iff.mpr made

end Scan

/-- **Errors are reported and skipped.**  With spaces in place of any characters that are reported as
unexpected, a complete scan finds the same tokens and makes the other reports. -/
theorem scan_skips_unexpected (source : Text) (P : Nat → Bool)
    (unexpected : ∀ p, P p = true →
      ∃ r, Scan.ReportsAt source p r ∧ r.message = unexpectedCharacter) :
    ∃ found, PlacedReports source found ∧
      (Scan.of (source.blanked P)).tokens = (Scan.of source).tokens ∧
      (Scan.of (source.blanked P)).reports =
        (found.filter fun report => !P report.1).map Prod.snd := by
  have tiles := tiles_segments source
  obtain ⟨segs, skips⟩ := exists_skips (p := 0) tiles.shape fun i h => by
    rw [Nat.zero_add] at h
    obtain ⟨r, reported, message⟩ := unexpected i h
    exact reported.unexpectedAt message
  have text : joined segs = source.blanked P := by
    rw [skips.joined_eq, joined_segments]
    simp only [Nat.zero_add]
  have replaced : segments (source.blanked P) = segs :=
    segments_eq_iff.mpr ⟨text, skips.tiles tiles⟩
  have lines : Text.lineFeeds (source.blanked P) = Text.lineFeeds source := by
    rw [← text, skips.lineFeeds_eq, joined_segments]
  refine ⟨_, Scan.placedReports_of source, ?_, ?_⟩
  · rw [Scan.of_eq, Scan.of_eq, replaced, skips.tokensFrom_eq, lines]
  · rw [Scan.of_eq, replaced, skips.reportsFrom_eq tiles.shape]

/-- A character in error parts a number from a point, and so does the space in its place; the one at
the end is left, and so is the string that is not closed. -/
theorem scan_skips_unexpected_point :
    let source : Text := "1@.5 #\"".toList
    ∃ found, PlacedReports source found ∧
      (Scan.of (source.blanked (· == 1))).tokens = (Scan.of source).tokens ∧
      (Scan.of (source.blanked (· == 1))).reports =
        (found.filter fun report => !(report.1 == 1)).map Prod.snd := by
  refine scan_skips_unexpected "1@.5 #\"".toList (· == 1) fun p h => ?_
  obtain rfl : p = 1 := beq_iff_eq.mp h
  have head : Scan.Head Reporter.keep "1@.5 #\"".toList [] _ _ :=
    .next .here (by decide) (by decide +kernel)
  exact ⟨⟨1, unexpectedCharacter⟩, ⟨_, _, head, by decide +kernel, by decide +kernel⟩, rfl⟩

end LoxLexis

import LoxLexis.Proofs.Token.Word

/-!
# Words with layout between them

Layout continues no word.  So words that are written down with layout between them are found again
as they are, whatever the layout: each word is a segment, and so is every character between.  In
particular the words of any source, set apart by single spaces, are a source with the same words.

## Main definitions

* `Text.IsLayout` — a text that is nothing but layout
* `Spread` — words, each with layout after it
* `ScansTo` — a scan finds some contents and makes no report

## Main statements

* `Spread.segments_text` — the segments of spread words are the words and the layout
* `scan_spread` — spread words are found again, and the words of a source can be spread
-/

namespace LoxLexis

/-- A text that is nothing but layout. -/
def Text.IsLayout (t : Text) : Prop := ∀ c ∈ t, isLayout c = true

/-- A scan finds some contents and makes no report. -/
structure ScansTo (source : Text) (contents : List Content) : Prop where
  contents : (Scan.of source).contents = contents
  reports : (Scan.of source).reports = []

/-! ### Layout -/

/-- Layout as segments, each character by itself. -/
def blanks (t : Text) : List Segment := t.map fun c => { text := [c], form := .layout }

@[simp] theorem joined_blanks (t : Text) : joined (blanks t) = t := by
  induction t with
  | nil => rfl
  | cons c t ih => exact congrArg (c :: ·) ih

theorem tiles_blanks {t : Text} (h : t.IsLayout) (after : Text) : Tiles after (blanks t) := by
  induction t with
  | nil => trivial
  | cons c t ih =>
      obtain ⟨hc, ht⟩ := List.forall_mem_cons.mp h
      exact ⟨.lexeme (.blank hc), Segment.continues_blank _ hc, ih ht⟩

theorem form_of_mem_blanks {t : Text} {s : Segment} (h : s ∈ blanks t) : s.form = .layout := by
  obtain ⟨c, -, rfl⟩ := List.mem_map.mp h
  rfl

@[simp] theorem filterMap_blanks (t : Text) : (blanks t).filterMap Segment.content? = [] := by
  refine List.filterMap_eq_nil_iff.mpr fun s hs => ?_
  rw [Segment.content?, form_of_mem_blanks hs]

/-- **Neither layout nor the end of the source continues a word.** -/
theorem Word.continues_of_layout (w : Word) {after : Text}
    (h : ∀ c ∈ after.head?, isLayout c = true) : w.segment.continues after = false := by
  -- What continues some word begins with a digit, a point, a slash or an equals sign.
  have begins : after.head?.any Char.isDigit = false ∧ beginsFraction after = false ∧
      after.head? ≠ some '/' ∧ after.head? ≠ some '=' := by
    cases after with
    | nil => simp [beginsFraction]
    | cons c rest =>
        rcases Segment.eq_of_isLayout (h c rfl) with rfl | rfl | rfl | rfl <;>
          simp [beginsFraction]
  obtain ⟨digit, point, slash, equals⟩ := begins
  unfold Segment.continues Word.segment
  split <;> simp_all

/-! ### Spread words -/

/-- Words written down one after the other with layout between them. -/
structure Spread where
  /-- The layout in front of the words. -/
  front : Text
  /-- The words, each with the layout after it. -/
  pieces : List (Word × Text)
  front_layout : front.IsLayout
  gap_layout : ∀ piece ∈ pieces, piece.2.IsLayout
  /-- Only the last word may have nothing after it. -/
  apart : ∀ piece ∈ pieces.dropLast, piece.2 ≠ []

namespace Spread

def words (p : Spread) : List Word := p.pieces.map Prod.fst

def text (p : Spread) : Text := p.front ++ p.pieces.flatMap fun piece => piece.1.lexeme ++ piece.2

/-- The segments of some words with layout after each of them. -/
def pieceSegments (pieces : List (Word × Text)) : List Segment :=
  pieces.flatMap fun piece => piece.1.segment :: blanks piece.2

theorem pieceSegments_cons (piece : Word × Text) (pieces : List (Word × Text)) :
    pieceSegments (piece :: pieces) =
      piece.1.segment :: (blanks piece.2 ++ pieceSegments pieces) := rfl

theorem joined_pieceSegments (pieces : List (Word × Text)) :
    joined (pieceSegments pieces) = pieces.flatMap fun piece => piece.1.lexeme ++ piece.2 := by
  induction pieces with
  | nil => rfl
  | cons piece pieces ih =>
      rw [pieceSegments_cons, joined_cons, joined_append, joined_blanks, ih, List.flatMap_cons,
        List.append_assoc]
      rfl

theorem filterMap_pieceSegments (pieces : List (Word × Text)) :
    (pieceSegments pieces).filterMap Segment.content? =
      pieces.map fun piece => piece.1.content := by
  induction pieces with
  | nil => rfl
  | cons piece pieces ih =>
      rw [pieceSegments_cons, List.filterMap_cons, Word.content?_segment, List.filterMap_append,
        filterMap_blanks, List.nil_append, ih]
      rfl

theorem isError_of_mem_pieceSegments {pieces : List (Word × Text)} {s : Segment}
    (h : s ∈ pieceSegments pieces) : s.form.isError = false := by
  obtain ⟨piece, -, hs⟩ := List.mem_flatMap.mp h
  rcases List.mem_cons.mp hs with rfl | hs
  · rfl
  · rw [form_of_mem_blanks hs]
    rfl

theorem tiles_pieceSegments {pieces : List (Word × Text)}
    (layout : ∀ piece ∈ pieces, piece.2.IsLayout)
    (apart : ∀ piece ∈ pieces.dropLast, piece.2 ≠ []) : Tiles [] (pieceSegments pieces) := by
  induction pieces with
  | nil => trivial
  | cons piece pieces ih =>
      obtain ⟨gap, layout⟩ := List.forall_mem_cons.mp layout
      have later : ∀ piece ∈ pieces.dropLast, piece.2 ≠ [] := by
        cases pieces with
        | nil => simp
        | cons next pieces => exact (List.forall_mem_cons.mp apart).2
      rw [pieceSegments_cons]
      refine ⟨piece.1.shape, piece.1.continues_of_layout ?_,
        tiles_append.mpr ⟨tiles_blanks gap _, ih layout later⟩⟩
      -- After the word comes its layout, or nothing when it is the last word and has none.
      rw [joined_append, joined_blanks, List.append_nil]
      intro c hc
      cases hgap : piece.2 with
      | cons d rest =>
          rw [hgap] at hc gap
          obtain rfl : d = c := Option.some.inj hc
          exact gap d List.mem_cons_self
      | nil =>
          cases pieces with
          | nil =>
              rw [hgap] at hc
              cases hc
          | cons next pieces => exact absurd hgap (apart piece List.mem_cons_self)

/-- **The segments of spread words are the words and the layout.** -/
theorem segments_text (p : Spread) :
    segments p.text = blanks p.front ++ pieceSegments p.pieces := by
  refine segments_eq_iff.mpr ⟨?_, ?_⟩
  · rw [joined_append, joined_blanks, joined_pieceSegments]
    rfl
  · exact tiles_append.mpr
      ⟨tiles_blanks p.front_layout _, tiles_pieceSegments p.gap_layout p.apart⟩

theorem scansTo (p : Spread) :
    ScansTo p.text (p.words.map Word.content ++ [Content.endOfFile]) := by
  refine ⟨?_, ?_⟩
  · rw [Scan.contents_of, segments_text, List.filterMap_append, filterMap_blanks, List.nil_append,
      filterMap_pieceSegments, words, List.map_map]
    rfl
  · refine (Scan.reports_of_eq_nil_iff _).mpr fun s hs => ?_
    rw [segments_text] at hs
    rcases List.mem_append.mp hs with hs | hs
    · rw [form_of_mem_blanks hs]
      rfl
    · exact isError_of_mem_pieceSegments hs

end Spread

/-! ### Words set apart by single spaces -/

theorem intercalate_concat {α : Type} (gap : List α) (ls : List (List α)) (l : List α) :
    gap.intercalate (ls ++ [l]) = ls.flatMap (· ++ gap) ++ l := by
  induction ls with
  | nil => exact List.intercalate_singleton
  | cons l' ls ih =>
      have split : gap.intercalate (l' :: (ls ++ [l])) =
          l' ++ gap ++ gap.intercalate (ls ++ [l]) := by
        cases ls <;> exact List.intercalate_cons_cons
      rw [List.cons_append, split, ih, List.flatMap_cons, List.append_assoc (l' ++ gap)]

/-- An empty text at the end adds a gap, unless it stands alone. -/
theorem intercalate_concat_nil {α : Type} (gap : List α) (ls : List (List α)) :
    gap.intercalate (ls ++ [[]]) = gap.intercalate ls ++ if ls = [] then [] else gap := by
  rcases List.eq_nil_or_concat ls with rfl | ⟨init, last, rfl⟩
  · rfl
  · rw [List.concat_eq_append, intercalate_concat, intercalate_concat, if_neg (by simp)]
    simp

/-- Words set apart by single spaces are spread, whatever layout comes after them. -/
theorem exists_spread (ws : List Word) {after : Text} (h : after.IsLayout) :
    ∃ p : Spread, p.words = ws ∧ p.text = [' '].intercalate (ws.map Word.lexeme) ++ after := by
  rcases List.eq_nil_or_concat ws with rfl | ⟨init, last, rfl⟩
  · exact ⟨⟨after, [], h, by simp, by simp⟩, rfl, List.append_nil _⟩
  · rw [List.concat_eq_append]
    let pieces := init.map fun w => (w, [' '])
    refine ⟨⟨[], pieces ++ [(last, after)], by simp [Text.IsLayout], ?_, ?_⟩, ?_, ?_⟩
    · intro piece hp
      rcases List.mem_append.mp hp with hp | hp
      · obtain ⟨w, -, rfl⟩ := List.mem_map.mp hp
        simp [Text.IsLayout, isLayout]
      · obtain rfl := List.mem_singleton.mp hp
        exact h
    · rw [List.dropLast_concat]
      intro piece hp
      obtain ⟨w, -, rfl⟩ := List.mem_map.mp hp
      simp
    · rw [Spread.words, List.map_append, List.map_map]
      exact congrArg (· ++ [last]) (List.map_id init)
    · rw [List.map_append, List.map_singleton, intercalate_concat]
      simp [Spread.text, pieces, List.flatMap_map]

/-- **Words with layout between them are found again, each with the value its text denotes; and the
words of any source, set apart by single spaces, are a source with the same words.** -/
theorem scan_spread :
    (∀ p : Spread, ScansTo p.text (p.words.map Word.content ++ [Content.endOfFile])) ∧
      ∀ source,
        ScansTo ([' '].intercalate ((Scan.of source).tokens.map Token.lexeme))
            (Scan.of source).contents ∧
          ScansTo ([' '].intercalate ((Scan.of source).tokens.dropLast.map Token.lexeme))
            (Scan.of source).contents := by
  refine ⟨Spread.scansTo, fun source => ?_⟩
  obtain ⟨ws, hws⟩ := Scan.exists_words source
  have lexemes : (Scan.of source).tokens.map Token.lexeme = ws.map Word.lexeme ++ [[]] :=
    Scan.map_tokens hws Content.lexeme
  have spread {after : Text} (h : after.IsLayout) :
      ScansTo ([' '].intercalate (ws.map Word.lexeme) ++ after) (Scan.of source).contents := by
    obtain ⟨p, rfl, hp⟩ := exists_spread ws h
    rw [← hp, hws]
    exact p.scansTo
  have nothing : Text.IsLayout [] := by simp [Text.IsLayout]
  have space : Text.IsLayout [' '] := by simp [Text.IsLayout, isLayout]
  refine ⟨?_, ?_⟩
  · -- The end of the file has an empty lexeme, which leaves one more space at the end.
    rw [lexemes, intercalate_concat_nil]
    refine spread ?_
    split
    · exact nothing
    · exact space
  · rw [List.map_dropLast, lexemes, List.dropLast_concat]
    simpa using spread nothing

/-- Layout of every sort keeps apart what would merge without it. -/
example : (Scan.of "/\r/\n1 . 2\t= =".toList).tokens.map Token.kind =
    [.slash, .slash, .number, .dot, .number, .equal, .equal, .endOfFile] := by
  decide +kernel

end LoxLexis

import LoxLexis.Proofs.Token.Word

/-!
# Words without anything between them

Words written down without anything between them are found again unless some of them merge.  A word
is continued by the next one in four cases only, and which case it is can be told by the kinds: only
a number begins with a digit, and of the other characters that continue a word each begins words of
one or two kinds.  A text has one tiling, so once two words merge no later coincidence can give the
same words again.

## Main definitions

* `Merges` — words of which the first is continued by the next

## Main statements

* `Word.continues_iff_merges` — what follows a word continues it exactly in these cases
* `FoundAgain.segments_eq` — words that are found again are all the segments of their text
* `scan_adjacent_iff` — words are found again exactly when none of them merge
-/

namespace LoxLexis

/-- Words of which the first is continued by the next when nothing stands between them. -/
inductive Merges : List Word → Prop
  /-- An operator takes the equals sign that the next one begins with. -/
  | equals {a b : Word} {later : List Word} (h : a.kind.takesEquals = true)
      (h' : b.kind = .equal ∨ b.kind = .equalEqual) : Merges (a :: b :: later)
  /-- Two slashes begin a comment. -/
  | slashes {a b : Word} {later : List Word} (h : a.kind = .slash) (h' : b.kind = .slash) :
      Merges (a :: b :: later)
  /-- The digits of two numbers run together. -/
  | numbers {a b : Word} {later : List Word} (h : a.kind = .number) (h' : b.kind = .number) :
      Merges (a :: b :: later)
  /-- A point between two numbers begins the fraction of the first, unless it has one. -/
  | fraction {a b c : Word} {later : List Word} (h : a.kind = .number) (whole : '.' ∉ a.lexeme)
      (h' : b.kind = .dot) (h'' : c.kind = .number) : Merges (a :: b :: c :: later)

/-! ### What words begin with -/

namespace Word

theorem head?_flatMap_lexeme (w : Word) (ws : List Word) :
    ((w :: ws).flatMap lexeme).head? = w.lexeme.head? := by
  obtain ⟨c, rest, hw⟩ := List.exists_cons_of_ne_nil w.lexeme_ne_nil
  rw [List.flatMap_cons, hw]
  rfl

/-- A word begins like the fixed text of its kind, or with a double quote, or with a digit. -/
theorem head?_cases (w : Word) :
    w.kind.spelling? = some w.lexeme ∨
      (w.kind = .string ∧ w.lexeme.head? = some Text.doubleQuote) ∨
        (w.kind = .number ∧ w.lexeme.head?.any Char.isDigit = true) := by
  have hw := w.wellFormed
  rcases hw.token_cases with fixed | string | number
  · exact .inl fixed
  · rw [string] at hw
    obtain ⟨u, -, hu⟩ := hw.string_cases
    exact .inr (.inl ⟨string, by rw [hu]; rfl⟩)
  · rw [number] at hw
    obtain ⟨d, rest, hd, digit⟩ := hw.exists_digit_cons
    exact .inr (.inr ⟨number, by rw [hd]; exact digit⟩)

/-- A character that is no digit and no quote begins the words whose fixed text it begins. -/
theorem head?_eq_some_iff (w : Word) {c : Char} (digit : c.isDigit = false)
    (quote : c ≠ Text.doubleQuote) :
    w.lexeme.head? = some c ↔ w.kind.spelling?.bind List.head? = some c := by
  rcases w.head?_cases with fixed | ⟨string, first⟩ | ⟨number, first⟩
  · rw [fixed]
    rfl
  · rw [string, first]
    simp [Kind.spelling?, quote.symm]
  · have other : w.lexeme.head? ≠ some c := by
      intro h
      rw [h, Option.any_some, digit] at first
      cases first
    rw [number]
    simp [Kind.spelling?, other]

theorem head?_eq_equals_iff (w : Word) :
    w.lexeme.head? = some '=' ↔ w.kind = .equal ∨ w.kind = .equalEqual := by
  rw [w.head?_eq_some_iff (by decide) (by decide)]
  cases w.kind <;> decide

theorem head?_eq_slash_iff (w : Word) : w.lexeme.head? = some '/' ↔ w.kind = .slash := by
  rw [w.head?_eq_some_iff (by decide) (by decide)]
  cases w.kind <;> decide

theorem head?_eq_point_iff (w : Word) : w.lexeme.head? = some '.' ↔ w.kind = .dot := by
  rw [w.head?_eq_some_iff (by decide) (by decide)]
  cases w.kind <;> decide

theorem lexeme_of_dot {w : Word} (h : w.kind = .dot) : w.lexeme = ['.'] := by
  have fixed := w.wellFormed.spelling?_eq (by rw [h]; rfl)
  rw [h] at fixed
  exact (Option.some.inj fixed).symm

/-- Numbers and nothing else begin with a digit. -/
theorem head?_isDigit_iff (w : Word) :
    w.lexeme.head?.any Char.isDigit = true ↔ w.kind = .number := by
  have fixed_none : (w.kind.spelling?.bind List.head?).any Char.isDigit = false := by
    cases w.kind <;> rfl
  rcases w.head?_cases with fixed | ⟨string, first⟩ | ⟨number, first⟩
  · rw [fixed, Option.bind_some] at fixed_none
    refine iff_of_false (Bool.eq_false_iff.mp fixed_none) fun number => ?_
    rw [number] at fixed
    cases fixed
  · rw [string, first]
    decide
  · exact iff_of_true first number

/-! ### What continues a word -/

/-- A fraction begins where a point and a number stand. -/
theorem beginsFraction_flatMap_lexeme {ws : List Word} :
    beginsFraction (ws.flatMap lexeme) = true ↔
      ∃ b c later, ws = b :: c :: later ∧ b.kind = .dot ∧ c.kind = .number := by
  constructor
  · intro h
    obtain ⟨point, digit⟩ := Bool.and_eq_true_iff.mp h
    cases ws with
    | nil => cases point
    | cons b rest =>
        rw [beq_iff_eq, head?_flatMap_lexeme, head?_eq_point_iff] at point
        rw [List.flatMap_cons, lexeme_of_dot point] at digit
        cases rest with
        | nil => cases digit
        | cons c later =>
            have number : ((c :: later).flatMap lexeme).head?.any Char.isDigit = true := digit
            rw [head?_flatMap_lexeme, head?_isDigit_iff] at number
            exact ⟨b, c, later, rfl, point, number⟩
  · rintro ⟨b, c, later, rfl, point, number⟩
    have digit : ((c :: later).flatMap lexeme).head?.any Char.isDigit = true := by
      rw [head?_flatMap_lexeme, head?_isDigit_iff]
      exact number
    rw [List.flatMap_cons, lexeme_of_dot point]
    exact digit

theorem continues_of_number {w : Word} (h : w.kind = .number) (after : Text) :
    w.segment.continues after =
      (after.head?.any Char.isDigit || (!w.lexeme.contains '.' && beginsFraction after)) := by
  rw [segment, h]
  rfl

theorem continues_of_slash {w : Word} (h : w.kind = .slash) (after : Text) :
    w.segment.continues after = (after.head? == some '/') := by
  rw [segment, h]
  rfl

theorem continues_of_other {w : Word} (number : w.kind ≠ .number) (slash : w.kind ≠ .slash)
    (after : Text) :
    w.segment.continues after = (w.kind.takesEquals && after.head? == some '=') := by
  unfold Segment.continues segment
  split <;> simp_all

/-- **What follows a word continues it exactly when the two merge.** -/
theorem continues_iff_merges (w : Word) (ws : List Word) :
    w.segment.continues (ws.flatMap lexeme) = true ↔ Merges (w :: ws) := by
  constructor
  · intro h
    by_cases number : w.kind = .number
    · rw [continues_of_number number, Bool.or_eq_true] at h
      rcases h with digit | fraction
      · cases ws with
        | nil => cases digit
        | cons b later =>
            rw [head?_flatMap_lexeme, head?_isDigit_iff] at digit
            exact .numbers number digit
      · obtain ⟨whole, point⟩ := Bool.and_eq_true_iff.mp fraction
        obtain ⟨b, c, later, rfl, dot, digit⟩ := beginsFraction_flatMap_lexeme.mp point
        exact .fraction number (by simpa using whole) dot digit
    by_cases slash : w.kind = .slash
    · rw [continues_of_slash slash, beq_iff_eq] at h
      cases ws with
      | nil => cases h
      | cons b later =>
          rw [head?_flatMap_lexeme, head?_eq_slash_iff] at h
          exact .slashes slash h
    · rw [continues_of_other number slash, Bool.and_eq_true, beq_iff_eq] at h
      cases ws with
      | nil => cases h.2
      | cons b later =>
          rw [head?_flatMap_lexeme, head?_eq_equals_iff] at h
          exact .equals h.1 h.2
  · intro h
    cases h with
    | @equals _ b later takes equals =>
        have number : w.kind ≠ .number := fun e => by simp [e, Kind.takesEquals] at takes
        have slash : w.kind ≠ .slash := fun e => by simp [e, Kind.takesEquals] at takes
        rw [continues_of_other number slash, takes, head?_flatMap_lexeme,
          b.head?_eq_equals_iff.mpr equals]
        rfl
    | @slashes _ b later slash slash' =>
        rw [continues_of_slash slash, head?_flatMap_lexeme, b.head?_eq_slash_iff.mpr slash']
        rfl
    | @numbers _ b later number number' =>
        rw [continues_of_number number, head?_flatMap_lexeme, b.head?_isDigit_iff.mpr number']
        rfl
    | @fraction _ b c later number whole dot number' =>
        rw [continues_of_number number,
          beginsFraction_flatMap_lexeme.mpr ⟨b, c, later, rfl, dot, number'⟩]
        simp [whole]

end Word

theorem tiles_words_iff {ws : List Word} :
    Tiles [] (ws.map Word.segment) ↔ ∀ later, later <:+ ws → ¬ Merges later := by
  induction ws with
  | nil =>
      refine iff_of_true trivial fun later h => ?_
      rw [List.suffix_nil.mp h]
      nofun
  | cons w ws ih =>
      rw [List.map_cons, tiles_cons, ih, List.append_nil, Word.joined_map_segment,
        ← Bool.not_eq_true, w.continues_iff_merges]
      constructor
      · rintro ⟨-, here, behind⟩ later h
        rcases List.suffix_cons_iff.mp h with rfl | h
        · exact here
        · exact behind later h
      · intro h
        refine ⟨w.shape, h _ List.suffix_rfl, fun later behind => h later ?_⟩
        exact List.suffix_cons_iff.mpr (.inr behind)

/-! ### Nothing between the words -/

/-- The segment that a token is where it stands in a source. -/
def Token.segment (t : Token) : Segment where
  text := t.lexeme
  form := .token t.kind

def Segment.isToken (s : Segment) : Bool := s.content?.isSome

/-- The tokens of segments are the segments that are tokens. -/
theorem map_segment_tokensFrom (line : Int) (segs : List Segment) :
    (tokensFrom line segs).map Token.segment = segs.filter Segment.isToken := by
  induction segs generalizing line with
  | nil => rfl
  | cons s segs ih =>
      rw [tokensFrom_cons, List.map_append, ih, List.filter_cons]
      obtain ⟨text, form⟩ := s
      cases form <;> rfl

/-- Segments that make up no more text than those of them that are chosen are all chosen. -/
theorem filter_eq_self_of_joined {segs : List Segment} {p : Segment → Bool}
    (nonempty : ∀ s ∈ segs, s.text ≠ [])
    (h : (joined segs).length ≤ (joined (segs.filter p)).length) : segs.filter p = segs := by
  have shorter (segs : List Segment) : (joined (segs.filter p)).length ≤ (joined segs).length := by
    induction segs with
    | nil => exact Nat.le_refl 0
    | cons s segs ih =>
        rw [List.filter_cons, joined_cons, List.length_append]
        split
        · rw [joined_cons, List.length_append]
          omega
        · omega
  induction segs with
  | nil => rfl
  | cons s segs ih =>
      obtain ⟨hs, nonempty⟩ := List.forall_mem_cons.mp nonempty
      rw [List.filter_cons] at h ⊢
      split at h
      · next chosen =>
          rw [if_pos chosen]
          rw [joined_cons, joined_cons, List.length_append, List.length_append] at h
          rw [ih nonempty (by omega)]
      · have := shorter segs
        have := List.length_pos_iff.mpr hs
        rw [joined_cons, List.length_append] at h
        omega

theorem map_segment_eq {ts : List Token} {ws : List Word}
    (kinds : ts.map Token.kind = ws.map Word.kind)
    (lexemes : ts.map Token.lexeme = ws.map Word.lexeme) :
    ts.map Token.segment = ws.map Word.segment := by
  induction ts generalizing ws with
  | nil =>
      rw [List.map_eq_nil_iff.mp kinds.symm]
      rfl
  | cons t ts ih =>
      cases ws with
      | nil => cases kinds
      | cons w ws =>
          obtain ⟨kind, kinds⟩ := List.cons.inj kinds
          obtain ⟨lexeme, lexemes⟩ := List.cons.inj lexemes
          rw [List.map_cons, List.map_cons, ih kinds lexemes, Token.segment, kind, lexeme]
          rfl

/-- A scan of words written together finds their kinds and texts again and makes no report. -/
structure FoundAgain (ws : List Word) : Prop where
  kinds : (Scan.of (ws.flatMap Word.lexeme)).tokens.map Token.kind =
    ws.map Word.kind ++ [.endOfFile]
  lexemes : (Scan.of (ws.flatMap Word.lexeme)).tokens.map Token.lexeme =
    ws.map Word.lexeme ++ [[]]
  reports : (Scan.of (ws.flatMap Word.lexeme)).reports = []

theorem foundAgain_of_segments {ws : List Word}
    (h : segments (ws.flatMap Word.lexeme) = ws.map Word.segment) : FoundAgain ws := by
  have contents : (Scan.of (ws.flatMap Word.lexeme)).contents =
      ws.map Word.content ++ [Content.endOfFile] := by
    rw [Scan.contents_of, h, List.filterMap_map]
    exact congrArg (· ++ _) (congrFun (List.filterMap_eq_map) ws)
  refine ⟨Scan.map_tokens contents Content.kind, Scan.map_tokens contents Content.lexeme,
    (Scan.reports_of_eq_nil_iff _).mpr fun s hs => ?_⟩
  rw [h] at hs
  obtain ⟨w, -, rfl⟩ := List.mem_map.mp hs
  rfl

/-- Words that are found again are all there is in their text. -/
theorem FoundAgain.segments_eq {ws : List Word} (h : FoundAgain ws) :
    segments (ws.flatMap Word.lexeme) = ws.map Word.segment := by
  obtain ⟨kinds, lexemes, -⟩ := h
  rw [Scan.of_eq, List.map_append] at kinds lexemes
  have found := map_segment_eq (List.append_cancel_right kinds) (List.append_cancel_right lexemes)
  rw [map_segment_tokensFrom] at found
  -- The words are as long as the whole text, so no other segment has a place in it.
  rw [← found]
  refine (filter_eq_self_of_joined (fun s hs => ((tiles_segments _).shape s hs).ne_nil) ?_).symm
  have same : joined (segments (ws.flatMap Word.lexeme)) = ws.flatMap Word.lexeme :=
    joined_segments _
  exact Nat.le_of_eq (by rw [found, same, Word.joined_map_segment])

/-- **Words written down without anything between them are found again exactly when none of them
merge.** -/
theorem scan_adjacent_iff (ws : List Word) :
    FoundAgain ws ↔ ∀ later, later <:+ ws → ¬ Merges later := by
  rw [← tiles_words_iff]
  constructor
  · intro h
    exact (segments_eq_iff.mp h.segments_eq).2
  · intro tiles
    exact foundAgain_of_segments (segments_eq_iff.mpr ⟨Word.joined_map_segment ws, tiles⟩)

/-- Neighbours that do not merge, although others much like them do. -/
example : (Scan.of "1.5.2>==.5".toList).tokens.map Token.lexeme =
    ["1.5", ".", "2", ">=", "=", ".", "5", ""].map String.toList := by
  decide +kernel

end LoxLexis

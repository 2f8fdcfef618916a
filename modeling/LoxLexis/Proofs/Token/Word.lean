import LoxLexis.Proofs.Scan.LongestPieces

/-!
# Words

A word is a kind with a text of that kind.  A token is a word on a line: the value it denotes
depends on its kind and its text alone.  So what a scan finds may be said without lines, and then
it is no more than the words among the segments of the source, with the end of the file after them.

## Main definitions

* `Kind.spelling?` — the text of a kind that has only one
* `Word` — a kind with a text of that kind
* `Content` — what a token is apart from its line
* `Scan.contents` — the contents of the tokens of a scan

## Main statements

* `Lexeme.token_cases` — a word has a fixed text, or is a string, or is a number
* `Scan.contents_of` — a scan finds the words among the segments of its source
* `reports_eq_nil_iff` — it makes no report when no segment is in error
-/

namespace LoxLexis

namespace Kind

/-- The text of the tokens of a kind, for the kinds whose tokens all have the same text. -/
def spelling? : Kind → Option Text
  | leftParen => some ['(']
  | rightParen => some [')']
  | leftBrace => some ['\x7b']
  | rightBrace => some ['\x7d']
  | comma => some [',']
  | dot => some ['.']
  | minus => some ['-']
  | plus => some ['+']
  | semicolon => some [';']
  | star => some ['*']
  | slash => some ['/']
  | bang => some ['!']
  | bangEqual => some ['!', '=']
  | equal => some ['=']
  | equalEqual => some ['=', '=']
  | less => some ['<']
  | lessEqual => some ['<', '=']
  | greater => some ['>']
  | greaterEqual => some ['>', '=']
  | string | number | endOfFile => none

end Kind

/-- **A word has the fixed text of its kind, or is a string, or is a number.** -/
theorem Lexeme.token_cases {kind : Kind} {t : Text} (h : Lexeme (.token kind) t) :
    kind.spelling? = some t ∨ kind = .string ∨ kind = .number := by
  generalize hf : Form.token kind = f at h
  cases h with
  | single h =>
      have fixed : ∀ entry ∈ Kind.punctuation, entry.2.spelling? = some [entry.1] := by decide
      obtain rfl := Form.token.inj hf
      exact .inl (fixed _ h)
  | operator h =>
      have fixed : ∀ entry ∈ Kind.operators, entry.2.1.spelling? = some [entry.1] := by decide
      obtain rfl := Form.token.inj hf
      exact .inl (fixed _ h)
  | compound h =>
      have fixed : ∀ entry ∈ Kind.operators, entry.2.2.spelling? = some [entry.1, '='] := by decide
      obtain rfl := Form.token.inj hf
      exact .inl (fixed _ h)
  | slash =>
      obtain rfl := Form.token.inj hf
      exact .inl rfl
  | comment _ => cases hf
  | blank _ => cases hf
  | string _ => exact .inr (.inl (Form.token.inj hf))
  | whole _ => exact .inr (.inr (Form.token.inj hf))
  | decimal _ _ => exact .inr (.inr (Form.token.inj hf))

/-- Only strings and numbers differ from others of their kind. -/
theorem Lexeme.spelling?_eq {kind : Kind} {t : Text} (h : Lexeme (.token kind) t)
    (plain : kind.isLiteral = false) : kind.spelling? = some t := by
  rcases h.token_cases with fixed | rfl | rfl
  · exact fixed
  · cases plain
  · cases plain

/-! ### Words and contents -/

/-- What a token is apart from its line. -/
structure Content where
  kind : Kind
  lexeme : Text
  literal : Option Literal
  deriving DecidableEq

def Token.content (t : Token) : Content where
  kind := t.kind
  lexeme := t.lexeme
  literal := t.literal

/-- The content of the token that closes every completed scan. -/
def Content.endOfFile : Content where
  kind := .endOfFile
  lexeme := []
  literal := none

/-- A kind with a text of that kind. -/
structure Word where
  kind : Kind
  lexeme : Text
  /-- The grammar permits the text for the kind. -/
  wellFormed : Lexeme (.token kind) lexeme

namespace Word

/-- The segment that a word is where it stands in a source. -/
def segment (w : Word) : Segment where
  text := w.lexeme
  form := .token w.kind

/-- A word with the value that its text denotes, if it denotes one. -/
def content (w : Word) : Content where
  kind := w.kind
  lexeme := w.lexeme
  literal := w.segment.literal?

theorem shape (w : Word) : w.segment.Shape := .lexeme w.wellFormed

theorem lexeme_ne_nil (w : Word) : w.lexeme ≠ [] := w.wellFormed.ne_nil

/-- No word is the end of the file. -/
theorem kind_ne_endOfFile (w : Word) : w.kind ≠ .endOfFile := by
  intro h
  have fixed := w.wellFormed.spelling?_eq (by rw [h]; rfl)
  rw [h] at fixed
  cases fixed

@[simp] theorem joined_map_segment (ws : List Word) :
    joined (ws.map segment) = ws.flatMap lexeme := by
  rw [joined, List.flatMap_map]
  rfl

end Word

/-! ### The words among segments -/

/-- The content of the token that a segment is. -/
def Segment.content? (s : Segment) : Option Content :=
  match s.form with
  | .token kind => some { kind, lexeme := s.text, literal := s.literal? }
  | _ => none

@[simp] theorem Word.content?_segment (w : Word) : w.segment.content? = some w.content := rfl

theorem Segment.map_content_token? (s : Segment) (line : Int) :
    (s.token? line).map Token.content = s.content? := by
  unfold Segment.token? Segment.content?
  cases s.form <;> rfl

/-- The tokens of segments are, apart from their lines, the words among them. -/
theorem map_content_tokensFrom (line : Int) (segs : List Segment) :
    (tokensFrom line segs).map Token.content = segs.filterMap Segment.content? := by
  induction segs generalizing line with
  | nil => rfl
  | cons s segs ih =>
      rw [tokensFrom_cons, List.map_append, ih, List.filterMap_cons,
        ← s.map_content_token? (line + Text.lineFeeds s.text)]
      cases s.token? (line + Text.lineFeeds s.text) <;> rfl

theorem exists_words_of_shape {segs : List Segment} (shapes : ∀ s ∈ segs, s.Shape) :
    ∃ ws : List Word, segs.filterMap Segment.content? = ws.map Word.content := by
  induction segs with
  | nil => exact ⟨[], rfl⟩
  | cons s segs ih =>
      obtain ⟨shape, shapes⟩ := List.forall_mem_cons.mp shapes
      obtain ⟨ws, hws⟩ := ih shapes
      cases hf : s.form with
      | token kind =>
          let w : Word := ⟨kind, s.text, shape.lexeme_of_token hf⟩
          have hs : s = w.segment := by
            rw [Word.segment, ← hf]
          refine ⟨w :: ws, ?_⟩
          rw [hs, List.filterMap_cons, Word.content?_segment, hws, List.map_cons]
      | _ => exact ⟨ws, by simp [Segment.content?, hf, hws]⟩

/-- Segments give rise to no report when none of them is in error. -/
theorem reports_eq_nil_iff {line : Int} {segs : List Segment} :
    reportsFrom line segs = [] ↔ ∀ s ∈ segs, s.form.isError = false := by
  induction segs generalizing line with
  | nil => simp
  | cons s segs ih =>
      rw [reportsFrom_cons, List.append_eq_nil_iff, ih, List.forall_mem_cons]
      refine and_congr_left fun _ => ?_
      unfold Segment.report?
      cases s.form <;> simp [Form.isError]

namespace Scan

/-- What a scan finds, apart from the lines. -/
def contents (s : Scan) : List Content := s.tokens.map Token.content

/-- **A scan finds the words among the segments of its source.** -/
theorem contents_of (source : Text) :
    (Scan.of source).contents =
      (segments source).filterMap Segment.content? ++ [Content.endOfFile] := by
  rw [contents, of_eq, List.map_append, map_content_tokensFrom]
  rfl

theorem exists_words (source : Text) :
    ∃ ws : List Word, (Scan.of source).contents = ws.map Word.content ++ [Content.endOfFile] := by
  obtain ⟨ws, hws⟩ := exists_words_of_shape (tiles_segments source).shape
  exact ⟨ws, by rw [contents_of, hws]⟩

/-- Words that a scan finds, read in any way that does not look at lines. -/
theorem map_tokens {α : Type} {s : Scan} {ws : List Word}
    (h : s.contents = ws.map Word.content ++ [Content.endOfFile]) (read : Content → α) :
    s.tokens.map (fun t => read t.content) =
      ws.map (fun w => read w.content) ++ [read Content.endOfFile] := by
  have mapped := congrArg (List.map read) h
  rw [contents, List.map_map, List.map_append, List.map_map] at mapped
  exact mapped

theorem reports_of_eq_nil_iff (source : Text) :
    (Scan.of source).reports = [] ↔ ∀ s ∈ segments source, s.form.isError = false := by
  rw [of_eq]
  exact reports_eq_nil_iff

end Scan

end LoxLexis

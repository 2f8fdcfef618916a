import LoxLexis.Proofs.Number.Plain
import LoxLexis.Proofs.Segment.Tiling
import LoxLexis.Scanner.Basic

/-!
# Reading segments

A segment is read as a token, as a report, or as nothing; which of these depends on the segment
alone, and the line on which it ends is all that is added from its surroundings.  So the tokens and
the reports of a text are gathered from its segments by one walk that counts line feeds, and that
walk may be broken off and resumed at any segment.

## Main definitions

* `Segment.token?`, `Segment.report?` — what a segment that ends on a line is read as
* `gather` — what is read from segments, with the lines on which they end
* `tokensFrom`, `reportsFrom` — the tokens and the reports of segments

## Main statements

* `gather_append` — the walk is resumed on the line it was broken off
* `gather_add` — what is read depends on the first line by its lines only
* `gather_eq_append_cons` — everything read comes from one segment, on the line where that ends
-/

namespace LoxLexis

namespace Segment

/-- The value that a segment denotes. -/
def literal? (s : Segment) : Option Literal :=
  match s.form with
  | .token .string => some (.text s.text.tail.dropLast)
  | .token .number => some (.number (Binary64.ofPlain s.text))
  | _ => none

/-- The token that a segment is, when it ends on a line. -/
def token? (s : Segment) (line : Int) : Option Token :=
  match s.form with
  | .token kind => some { kind, lexeme := s.text, literal := s.literal?, line }
  | _ => none

/-- The report that a segment in error gives rise to, when it ends on a line. -/
def report? (s : Segment) (line : Int) : Option Report :=
  match s.form with
  | .unterminated => some { line, message := unterminatedString }
  | .unexpected => some { line, message := unexpectedCharacter }
  | _ => none

/-- What taking a segment signals. -/
def signal (s : Segment) (line : Int) : Signal := (s.report? line).elim .done .report

theorem literal?_eq_none {t : Text} {kind : Kind} (h : kind.isLiteral = false) :
    literal? { text := t, form := .token kind } = none := by
  cases kind with
  | string => cases h
  | number => cases h
  | _ => rfl

theorem token?_eq_some {s : Segment} {line : Int} {t : Token} (h : s.token? line = some t) :
    s.form = .token t.kind ∧ t.lexeme = s.text ∧ t.line = line := by
  unfold token? at h
  split at h
  · next hf =>
      cases h
      exact ⟨hf, rfl, rfl⟩
  · cases h

theorem report?_eq_some {s : Segment} {line : Int} {r : Report} (h : s.report? line = some r) :
    r.line = line ∧ (r.message = unterminatedString ↔ s.form = .unterminated) := by
  have differ : unexpectedCharacter ≠ unterminatedString := by decide
  unfold report? at h
  split at h
  · next hf =>
      cases h
      exact ⟨rfl, by simp [hf]⟩
  · next hf =>
      cases h
      exact ⟨rfl, by simp [hf, differ]⟩
  · cases h

end Segment

/-! ### Reading further down -/

def Token.lowered (n : Int) (t : Token) : Token := { t with line := t.line + n }

def Report.lowered (n : Int) (r : Report) : Report := { r with line := r.line + n }

theorem Token.lowered_comp (m n : Int) :
    Token.lowered n ∘ Token.lowered m = Token.lowered (m + n) := by
  funext t
  simp [Token.lowered, Int.add_assoc]

theorem Report.lowered_comp (m n : Int) :
    Report.lowered n ∘ Report.lowered m = Report.lowered (m + n) := by
  funext r
  simp [Report.lowered, Int.add_assoc]

theorem Segment.token?_add (s : Segment) (line n : Int) :
    s.token? (line + n) = (s.token? line).map (Token.lowered n) := by
  unfold Segment.token?
  split <;> rfl

theorem Segment.report?_add (s : Segment) (line n : Int) :
    s.report? (line + n) = (s.report? line).map (Report.lowered n) := by
  unfold Segment.report?
  split <;> rfl

section Gather

variable {α : Type} (read : Segment → Int → Option α)

/-- What is read from segments that begin on a line, each of them read on the line it ends on. -/
def gather : Int → List Segment → List α
  | _, [] => []
  | line, s :: segs =>
    (read s (line + Text.lineFeeds s.text)).toList ++
      gather (line + Text.lineFeeds s.text) segs

@[simp] theorem gather_nil (line : Int) : gather read line [] = [] := rfl

theorem gather_cons (line : Int) (s : Segment) (segs : List Segment) :
    gather read line (s :: segs) =
      (read s (line + Text.lineFeeds s.text)).toList ++
        gather read (line + Text.lineFeeds s.text) segs := rfl

/-- The walk is resumed on the line it was broken off. -/
theorem gather_append (line : Int) (segs segs' : List Segment) :
    gather read line (segs ++ segs') =
      gather read line segs ++ gather read (line + Text.lineFeeds (joined segs)) segs' := by
  induction segs generalizing line with
  | nil => simp
  | cons s segs ih => simp [gather_cons, ih, Int.add_assoc]

/-- What is read depends on the first line by its lines only. -/
theorem gather_add {lower : α → α} {n : Int}
    (h : ∀ s line, read s (line + n) = (read s line).map lower) (line : Int)
    (segs : List Segment) :
    gather read (line + n) segs = (gather read line segs).map lower := by
  induction segs generalizing line with
  | nil => rfl
  | cons s segs ih =>
      have past : line + n + Text.lineFeeds s.text = line + Text.lineFeeds s.text + n := by omega
      rw [gather_cons, gather_cons, past, h, ih, List.map_append]
      congr 1
      cases read s (line + Text.lineFeeds s.text) <;> rfl

/-- Every segment is read, on some line. -/
theorem exists_line_of_mem {s : Segment} {segs : List Segment} (hs : s ∈ segs) (line : Int) :
    ∃ line', ∀ a, read s line' = some a → a ∈ gather read line segs := by
  induction segs generalizing line with
  | nil => cases hs
  | cons s' segs ih =>
      rcases List.mem_cons.mp hs with rfl | hs
      · refine ⟨line + Text.lineFeeds s.text, fun a ha => ?_⟩
        rw [gather_cons, ha]
        exact List.mem_cons_self
      · obtain ⟨line', h⟩ := ih hs (line + Text.lineFeeds s'.text)
        exact ⟨line', fun a ha => List.mem_append_right _ (h a ha)⟩

/-- An element of a list that begins with what one segment gives is that, or it stands behind it. -/
theorem toList_append_eq_append_cons {first : Option α} {rest before after : List α} {a : α}
    (h : first.toList ++ rest = before ++ a :: after) :
    before = [] ∧ first = some a ∨
      ∃ before', before = first.toList ++ before' ∧ rest = before' ++ a :: after := by
  cases first with
  | none => exact .inr ⟨before, rfl, h⟩
  | some b =>
      cases before with
      | nil =>
          obtain ⟨rfl, -⟩ := List.cons.inj h
          exact .inl ⟨rfl, rfl⟩
      | cons b' before =>
          obtain ⟨rfl, tail⟩ := List.cons.inj h
          exact .inr ⟨before, rfl, tail⟩

/-- Everything read comes from one segment, on the line where that ends. -/
theorem gather_eq_append_cons {line : Int} {segs : List Segment} {before after : List α} {a : α}
    (h : gather read line segs = before ++ a :: after) :
    ∃ done s later, segs = done ++ s :: later ∧ gather read line done = before ∧
      read s (line + Text.lineFeeds (joined (done ++ [s]))) = some a := by
  induction segs generalizing line before with
  | nil => simp at h
  | cons s segs ih =>
      rw [gather_cons] at h
      obtain ⟨rfl, hit⟩ | ⟨before', rfl, h'⟩ := toList_append_eq_append_cons h
      · exact ⟨[], s, segs, rfl, rfl, by simpa using hit⟩
      · -- What comes from a later segment is found there, and the first one is put in front.
        obtain ⟨done, s', later, rfl, front, hit⟩ := ih h'
        refine ⟨s :: done, s', later, rfl, by rw [gather_cons, front], ?_⟩
        rw [← hit]
        congr 1
        simp [Int.add_assoc]

variable {read} {lineOf : α → Int} (hl : ∀ {s line a}, read s line = some a → lineOf a = line)
include hl

/-- What is read lies between the first and the last line. -/
theorem gather_lines {line : Int} {segs : List Segment} :
    ∀ a ∈ gather read line segs, line ≤ lineOf a ∧ lineOf a ≤ line + Text.lineFeeds (joined segs) := by
  intro a ha
  obtain ⟨before, after, h⟩ := List.append_of_mem ha
  obtain ⟨done, s, later, rfl, -, hit⟩ := gather_eq_append_cons read h
  have := hl hit
  simp only [joined_append, joined_cons, joined_nil, Text.lineFeeds_append, Text.lineFeeds_nil] at this ⊢
  omega

/-- The lines of what is read never go back. -/
theorem gather_sorted (line : Int) (segs : List Segment) :
    (gather read line segs).Pairwise fun a b => lineOf a ≤ lineOf b := by
  induction segs generalizing line with
  | nil => exact List.Pairwise.nil
  | cons s segs ih =>
      rw [gather_cons, List.pairwise_append]
      refine ⟨?_, ih _, fun a ha b hb => ?_⟩
      · cases read s (line + Text.lineFeeds s.text) with
        | none => exact List.Pairwise.nil
        | some a => exact List.pairwise_singleton _ _
      · rw [hl (Option.mem_toList.mp ha)]
        exact (gather_lines hl b hb).1

end Gather

def tokensFrom (line : Int) (segs : List Segment) : List Token := gather Segment.token? line segs

def reportsFrom (line : Int) (segs : List Segment) : List Report := gather Segment.report? line segs

section

variable (line : Int) (segs segs' : List Segment)

@[simp] theorem tokensFrom_nil : tokensFrom line [] = [] := rfl

@[simp] theorem reportsFrom_nil : reportsFrom line [] = [] := rfl

theorem tokensFrom_cons (s : Segment) :
    tokensFrom line (s :: segs) =
      (s.token? (line + Text.lineFeeds s.text)).toList ++
        tokensFrom (line + Text.lineFeeds s.text) segs := rfl

theorem reportsFrom_cons (s : Segment) :
    reportsFrom line (s :: segs) =
      (s.report? (line + Text.lineFeeds s.text)).toList ++
        reportsFrom (line + Text.lineFeeds s.text) segs := rfl

theorem tokensFrom_append :
    tokensFrom line (segs ++ segs') =
      tokensFrom line segs ++ tokensFrom (line + Text.lineFeeds (joined segs)) segs' :=
  gather_append _ line segs segs'

theorem reportsFrom_append :
    reportsFrom line (segs ++ segs') =
      reportsFrom line segs ++ reportsFrom (line + Text.lineFeeds (joined segs)) segs' :=
  gather_append _ line segs segs'

theorem tokensFrom_add (n : Int) :
    tokensFrom (line + n) segs = (tokensFrom line segs).map (Token.lowered n) :=
  gather_add _ (fun s line => s.token?_add line n) line segs

theorem reportsFrom_add (n : Int) :
    reportsFrom (line + n) segs = (reportsFrom line segs).map (Report.lowered n) :=
  gather_add _ (fun s line => s.report?_add line n) line segs

end

end LoxLexis

import LoxLexis.Proofs.Command.Console
import LoxLexis.Proofs.Text.LineEnds

/-!
# Conversations turn by turn

A conversation can be held while its input is still coming in.  The input is read in pieces, each up to
a line feed; the lines of a piece are dumped, and what a line adds is written with a prompt after it.
Nothing of that depends on what was written before, so a console need not keep it.  In the end the same
has been written as for the whole input at once.  The two facts that carry this are that no line goes
on from one piece to the next, and that the sink is empty between turns.

## Main definitions

* `Console.turns` — the consoles that the lines of a conversation leave, one after the other

## Main statements

* `Text.splitLines_flatten` — the lines of a text are those of the pieces it is read in
* `Console.Idle.turn_eq` — what a turn leaves on an idle console
* `Command.prompt_eq_turns` — a conversation is its turns with prompts between them
-/

namespace LoxLexis

namespace Text

/-- A line that has ended is the same, whatever text comes after it. -/
theorem splitLines_append_of_ended {t : Text} (ended : Ended t) (u : Text) :
    splitLines (withLineFeeds (t ++ u)) =
      splitLines (withLineFeeds t) ++ splitLines (withLineFeeds u) := by
  obtain ⟨v, first⟩ := exists_unified t
  obtain ⟨w, second⟩ := exists_unified u
  have seam : t.getLast? ≠ some '\r' ∨ u.head? ≠ some '\n' := by
    refine .inl fun last => ?_
    exact absurd (ended _ last) (by decide)
  have whole : withLineFeeds (t ++ u) = v ++ w :=
    withLineFeeds_eq_iff.mpr (first.append second seam)
  have lines : Lines (v ++ w) (splitLines v ++ splitLines w) :=
    (splitLines_eq_iff.mp rfl).append (first.ended ended) (splitLines_eq_iff.mp rfl)
  rw [whole, withLineFeeds_eq_iff.mpr first, withLineFeeds_eq_iff.mpr second]
  exact splitLines_eq_iff.mpr lines

/-- **The lines of a text are those of the pieces it is read in**, if each piece but the last ends with
a line feed. -/
theorem splitLines_flatten {pieces : List Text} (ended : ∀ p ∈ pieces.dropLast, Ended p) :
    splitLines (withLineFeeds pieces.flatten) =
      pieces.flatMap fun p => splitLines (withLineFeeds p) := by
  induction pieces with
  | nil => rfl
  | cons p pieces ih =>
      cases pieces with
      | nil => rw [List.flatten_singleton, List.flatMap_singleton]
      | cons q pieces =>
          rw [List.dropLast_cons_cons] at ended
          obtain ⟨here, later⟩ := List.forall_mem_cons.mp ended
          rw [List.flatten_cons, splitLines_append_of_ended here, ih later]
          rfl

end Text

namespace Console

/-- The consoles that the lines of a conversation leave, one after the other. -/
def turns (c : Console) : List Text → List Console
  | [] => []
  | line :: lines => c.turn line :: (c.turn line).turns lines

variable {c : Console}

/-- **A turn leaves an idle console with what the scan of its line says**, and idle again. -/
theorem Idle.turn_eq (idle : c.Idle) (line : Text) :
    c.turn line =
      { c with stdout := (Scan.of line).dump, notices := scanNotices c.verbose line } := by
  have fresh : c.released.Idle := idle
  have kept : c.sink = .empty .record := idle
  rw [turn, fresh.dump_eq]
  simp only [emptied, released, kept, List.nil_append]
  rfl

/-- On an idle console no turn depends on the turns before it. -/
theorem Idle.turns_eq (idle : c.Idle) (lines : List Text) :
    c.turns lines = lines.map fun l =>
      { c with stdout := (Scan.of l).dump, notices := scanNotices c.verbose l } := by
  induction lines generalizing c with
  | nil => rfl
  | cons l lines ih =>
      have again : (c.turn l).Idle := by
        rw [idle.turn_eq]
        exact idle
      rw [turns, ih again, idle.turn_eq]
      rfl

end Console

/-- A mark in front of each part and one at the end are one at the beginning and a mark after each
part. -/
theorem flatMap_append_mark {α : Type} (mark : Text) (f : α → Text) (as : List α) :
    as.flatMap (fun a => mark ++ f a) ++ mark = mark ++ as.flatMap fun a => f a ++ mark := by
  induction as with
  | nil => rw [List.flatMap_nil, List.flatMap_nil, List.nil_append, List.append_nil]
  | cons a as ih =>
      rw [List.flatMap_cons, List.append_assoc, ih, List.flatMap_cons]
      simp only [List.append_assoc]

/-- **A conversation is its turns with prompts between them**, in whatever pieces its input is read. -/
theorem Command.prompt_eq_turns (verbose : Bool) {pieces : List Text}
    (ended : ∀ p ∈ pieces.dropLast, Text.Ended p) :
    let lines := pieces.flatMap fun p => Text.splitLines (Text.withLineFeeds p)
    let turns := (Console.new verbose).turns lines
    prompt verbose pieces.flatten =
      { ending := .ok .success
        stdout := promptMark ++ turns.flatMap (fun c => c.stdout ++ promptMark) ++ ['\n']
        notices := turns.flatMap Console.notices } := by
  intro lines turns
  have split : Text.Lines (Text.withLineFeeds pieces.flatten) lines :=
    Text.splitLines_eq_iff.mp (Text.splitLines_flatten ended)
  have each : turns = _ := (Console.idle_new verbose).turns_eq lines
  rw [prompt_eq split, each, List.flatMap_map, List.flatMap_map, ← flatMap_append_mark,
    List.append_assoc]
  rfl

end LoxLexis

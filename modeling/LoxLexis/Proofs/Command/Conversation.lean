import LoxLexis.Proofs.Command.FileRun
import LoxLexis.Proofs.Scan.ByLine

/-!
# Conversations

A run without words answers the lines of its input one by one, all with the same console.  A line
is scanned for itself; what it leaves open does not go on in the next line, and its reports are not
held any more when the next line is waited for.  This is an invariant of the conversation: at every
prompt the sink is empty, so the reports that are printed after a line are its own.  A report ends
the run of a file with a failure; a conversation ends well in any case.

## Main definitions

* `AnswersByLine` — an outcome of a conversation that has each line answered for itself

## Main statements

* `Console.atPrompt_concat_eq` — what one more line adds, whatever the lines before it are
* `lines_answered_apart` — a conversation answers its lines independently of each other
-/

namespace LoxLexis

/-- A report on a single line has the number one. -/
theorem eq_of_mem_reports {l : Text} (h : '\n' ∉ l) :
    ∀ r ∈ (Scan.of l).reports, r = { r with line := 1 } := by
  intro r hr
  rw [← line_of_mem_reports h r hr]

namespace Console

theorem atPrompt_concat (verbose : Bool) (done : List Text) (l : Text) :
    atPrompt verbose (done ++ [l]) = (atPrompt verbose done).answer l := List.foldl_concat ..

/-- **What one more line adds to a conversation does not depend on the lines before it.** -/
theorem atPrompt_concat_eq (verbose : Bool) (done : List Text) (l : Text) :
    atPrompt verbose (done ++ [l]) =
      { atPrompt verbose done with
        stdout := (atPrompt verbose done).stdout ++ (promptMark ++ (Scan.of l).dump)
        notices := (atPrompt verbose done).notices ++ scanNotices verbose l } := by
  have kept : (atPrompt verbose done).verbose = verbose := by
    rw [atPrompt_eq]
    rfl
  rw [atPrompt_concat, (idle_atPrompt verbose done).answer_eq]
  simp only [kept]

end Console

/-- An outcome of a conversation that has each line answered for itself. -/
structure AnswersByLine (lines : List Text) (o : Outcome) : Prop where
  /-- A prompt and the tokens of the line, for each line, and a last prompt. -/
  stdout : o.stdout =
    (lines.flatMap fun l =>
      "> ".toList ++ (Scan.of l).tokens.flatMap fun t => t.display ++ ['\n']) ++ "> \n".toList
  /-- The reports of each line and nothing else, with the number one. -/
  stderr : ∀ channel, o.stderr channel =
    lines.flatMap fun l => (Scan.of l).reports.flatMap fun r => reportLine { r with line := 1 }
  first_line : ∀ l ∈ lines, ∀ r ∈ (Scan.of l).reports, r.line = 1
  exit : o.ending.map Status.code = .ok 0
  /-- The outcome is what the console has that all lines have been answered with. -/
  console : o = ((Console.atPrompt false lines).print "> \n".toList).outcome (.ok .success)
  /-- The sink is empty at every prompt. -/
  empty : ∀ done later, lines = done ++ later → (Console.atPrompt false done).sink.reports = []
  /-- Each line adds what its own scan finds, whatever the lines before have left open. -/
  apart : ∀ done l later, lines = done ++ l :: later →
    Console.atPrompt false (done ++ [l]) =
      { Console.atPrompt false done with
        stdout := (Console.atPrompt false done).stdout ++ ("> ".toList ++ (Scan.of l).dump)
        notices := (Console.atPrompt false done).notices ++ (Scan.of l).reports.map .error }

/-- **A conversation answers its lines independently of each other.** -/
theorem lines_answered_apart (files : Path → Lookup) (input text : Text) (lines : List Text)
    (unified : Text.Unified input text) (split : Text.Lines text lines) :
    AnswersByLine lines (Command.run files input []) := by
  have ran : Command.run files input [] = Command.prompt false input := rfl
  rw [← Text.withLineFeeds_eq_iff.mpr unified] at split
  have answered := Command.prompt_eq split false
  rw [ran]
  refine
    { stdout := ?stdout
      stderr := ?stderr
      first_line := fun l hl => line_of_mem_reports (split.lineFeed_notMem l hl)
      exit := rfl
      console := ?console
      empty := fun done later _ => congrArg Sink.reports (Console.idle_atPrompt false done)
      apart := fun done l later _ => Console.atPrompt_concat_eq false done l }
  case stdout =>
    rw [answered]
    show lines.flatMap (fun l => "> ".toList ++ (Scan.of l).dump) ++ _ = _
    simp only [Scan.dump_eq_flatMap]
    rfl
  case stderr =>
    intro channel
    have notices : (Command.prompt false input).notices =
        (lines.flatMap fun l => (Scan.of l).reports).map .error := by
      rw [answered, List.map_flatMap]
      rfl
    have numbered : ∀ l ∈ lines, (Scan.of l).reports.flatMap reportLine =
        (Scan.of l).reports.flatMap fun r => reportLine { r with line := 1 } := by
      intro l hl
      refine List.flatMap_congr fun r hr => ?_
      rw [← eq_of_mem_reports (split.lineFeed_notMem l hl) r hr]
    rw [stderr_of_errors notices, List.flatMap_assoc]
    exact List.flatMap_congr numbered
  case console =>
    rw [Command.prompt, Text.splitLines_eq_iff.mpr split]
    rfl

/-- A string is left open, the line after it has a report of its own, and the last line, which no
line feed ends, begins with what could close the string. -/
theorem lines_answered_apart_open :
    (Text.Unified "\"a\r\n@ 1\rb // \"\n\" $".toList "\"a\n@ 1\nb // \"\n\" $".toList ∧
      Text.Lines "\"a\n@ 1\nb // \"\n\" $".toList
        ["\"a".toList, "@ 1".toList, "b // \"".toList, "\" $".toList]) ∧
      AnswersByLine ["\"a".toList, "@ 1".toList, "b // \"".toList, "\" $".toList]
        (Command.run (fun _ => .missing) "\"a\r\n@ 1\rb // \"\n\" $".toList []) := by
  have unified : Text.Unified "\"a\r\n@ 1\rb // \"\n\" $".toList
      "\"a\n@ 1\nb // \"\n\" $".toList := Text.withLineFeeds_eq_iff.mp (by decide)
  have split : Text.Lines "\"a\n@ 1\nb // \"\n\" $".toList
      ["\"a".toList, "@ 1".toList, "b // \"".toList, "\" $".toList] :=
    Text.splitLines_eq_iff.mp (by decide)
  exact ⟨⟨unified, split⟩, lines_answered_apart _ _ _ _ unified split⟩

end LoxLexis

import LoxLexis.Command.Run
import LoxLexis.Proofs.Scan.LongestPieces
import LoxLexis.Proofs.Text.Lines

/-!
# What a console has after a dump

A dump goes through a complete scan with a reporter that logs and holds what it hears, and through
what is written when the scan is complete.  What it adds to a console is told here from the scan of
the text alone.  It adds the reports of that scan to the sink, and the notices it gives are those of
all reports held; so the two agree only while the sink is empty before each dump.  That it is empty
at every prompt is the invariant of a conversation: the first prompt has a new sink, and an answer
leaves the sink as it was before.

## Main definitions

* `logged` — the notices of entries, where a log is wanted
* `records` — the log of the scan of a text
* `scanNotices` — the notices of a dump: the log of its scan, then its reports
* `Console.Idle` — the sink records, and it is empty

## Main statements

* `Console.dump_eq` — what a dump adds to a console
* `Console.Idle.answer_eq` — what an answer adds to an idle console, which stays idle
* `Console.idle_atPrompt` — a conversation is idle at every prompt
* `Console.atPrompt_eq` — what a conversation has written by then
* `Command.prompt_eq` — what it has written in the end
-/

namespace LoxLexis

/-- The notices of entries, where a log is wanted. -/
def logged (verbose : Bool) (entries : List LogEntry) : List Notice :=
  if verbose then entries.map .log else []

@[simp] theorem logged_false (entries : List LogEntry) : logged false entries = [] := rfl

@[simp] theorem logged_nil (verbose : Bool) : logged verbose [] = [] := by
  cases verbose <;> rfl

theorem logged_append (verbose : Bool) (entries entries' : List LogEntry) :
    logged verbose (entries ++ entries') = logged verbose entries ++ logged verbose entries' := by
  cases verbose with
  | false => rfl
  | true => exact List.map_append

/-- The log of the scan of a text: its reports, and how many tokens and lines it has. -/
def records (source : Text) : List LogEntry :=
  (Scan.of source).reports.map .reported ++
    [.scanned (Scan.of source).tokens.length (1 + Text.lineFeeds source)]

/-- The notices of a dump: the log of its scan where one is wanted, then its reports. -/
def scanNotices (verbose : Bool) (source : Text) : List Notice :=
  logged verbose (records source) ++ (Scan.of source).reports.map .error

namespace Console

variable {c : Console}

theorem log_eq (c : Console) (entry : LogEntry) :
    c.log entry = c.notify (logged c.verbose [entry]) := by
  obtain ⟨verbose, sink, stdout, notices⟩ := c
  cases verbose with
  | false => simp [log, notify]
  | true => rfl

/-! ### Reports made at a console -/

/-- A console that records takes every report, and logs it where a log is wanted. -/
theorem receive_of_record (record : c.sink.policy = .record) (r : Report) :
    c.receive r = ({ c.notify (logged c.verbose [.reported r]) with sink := c.sink.hold r }, none) := by
  have taken : c.sink.receive r = (c.sink.hold r, none) := by
    rw [Sink.receive, record]
  rw [receive, taken, log_eq]

theorem accepts_of_record (record : c.sink.policy = .record) (reports : List Report) :
    Reporter.Accepts receive c reports := by
  induction reports generalizing c with
  | nil => trivial
  | cons r reports ih =>
      rw [Reporter.accepts_cons, receive_of_record record]
      exact ⟨rfl, ih record⟩

/-- **A console that records holds what it hears, and has it in its log.** -/
theorem after_receive (record : c.sink.policy = .record) (reports : List Report) :
    Reporter.after receive c reports =
      { c with
        sink := { c.sink with reports := c.sink.reports ++ reports }
        notices := c.notices ++ logged c.verbose (reports.map .reported) } := by
  induction reports generalizing c with
  | nil => simp
  | cons r reports ih =>
      have entries : logged c.verbose ((r :: reports).map .reported) =
          logged c.verbose [.reported r] ++ logged c.verbose (reports.map .reported) :=
        logged_append c.verbose [.reported r] (reports.map .reported)
      have kept : (c.receive r).1.sink.policy = .record := by
        rw [receive_of_record record]
        exact record
      show Reporter.after receive (c.receive r).1 reports = _
      rw [ih kept, receive_of_record record, entries]
      simp [notify, Sink.hold]

/-! ### Dumps -/

/-- **What a dump adds to a console that records.** -/
theorem dump_eq (record : c.sink.policy = .record) (source : Text) :
    c.dump source =
      { c with
        sink := { c.sink with reports := c.sink.reports ++ (Scan.of source).reports }
        stdout := c.stdout ++ (Scan.of source).dump
        notices := c.notices ++ logged c.verbose (records source) ++
          (c.sink.reports ++ (Scan.of source).reports).map .error } := by
  have tokens : ((Scanner.new source).restarted.past (segments source)).closed.tokens =
      (Scan.of source).tokens := by
    rw [Scan.of_eq, Scanner.closed, Scanner.past_tokens, Scanner.past_line, joined_segments]
    rfl
  have line : ((Scanner.new source).restarted.past (segments source)).closed.line =
      1 + Text.lineFeeds source := by
    rw [Scanner.closed, Scanner.past_line, joined_segments]
    rfl
  have reports : reportsFrom 1 (segments source) = (Scan.of source).reports := by
    rw [Scan.of_eq]
  have scanned := Scanner.scan_of_accepts (s := Scanner.new source) (accepts_of_record record _)
  rw [show (Scanner.new source).source = source from rfl, after_receive record, reports] at scanned
  rw [dump, scanned, tokens, line, log_eq]
  simp [notify, print, records, logged_append, Scan.dump]

/-! ### Conversations -/

/-- The sink of a console records, and it is empty. -/
def Idle (c : Console) : Prop := c.sink = .empty .record

theorem idle_new (verbose : Bool) : (new verbose).Idle := rfl

theorem Idle.dump_eq (idle : c.Idle) (source : Text) :
    c.dump source =
      { c with
        sink := { c.sink with reports := (Scan.of source).reports }
        stdout := c.stdout ++ (Scan.of source).dump
        notices := c.notices ++ scanNotices c.verbose source } := by
  have record : c.sink.policy = .record := congrArg Sink.policy idle
  have empty : c.sink.reports = [] := congrArg Sink.reports idle
  rw [Console.dump_eq record, empty, List.nil_append, List.append_assoc]
  rfl

/-- **An answer adds to an idle console what the scan of its line says, and leaves it idle.** -/
theorem Idle.answer_eq (idle : c.Idle) (line : Text) :
    c.answer line =
      { c with
        stdout := c.stdout ++ (promptMark ++ (Scan.of line).dump)
        notices := c.notices ++ scanNotices c.verbose line } := by
  have marked : (c.print promptMark).Idle := idle
  have kept : c.sink = .empty .record := idle
  obtain ⟨verbose, sink, stdout, notices⟩ := c
  cases kept
  rw [answer, marked.dump_eq]
  simp [emptied, print, Sink.reset]

theorem Idle.answer (idle : c.Idle) (line : Text) : (c.answer line).Idle := by
  rw [idle.answer_eq]
  exact idle

/-- **From an idle console on a conversation adds what its lines say, and stays idle.** -/
theorem Idle.foldl_answer (idle : c.Idle) (lines : List Text) :
    lines.foldl Console.answer c =
      { c with
        stdout := c.stdout ++ lines.flatMap (fun l => promptMark ++ (Scan.of l).dump)
        notices := c.notices ++ lines.flatMap (scanNotices c.verbose) } := by
  induction lines generalizing c with
  | nil => simp
  | cons l lines ih =>
      rw [List.foldl_cons, ih (idle.answer l), idle.answer_eq]
      simp only [List.flatMap_cons, List.append_assoc]

theorem atPrompt_eq (verbose : Bool) (lines : List Text) :
    atPrompt verbose lines =
      { new verbose with
        stdout := lines.flatMap fun l => promptMark ++ (Scan.of l).dump
        notices := lines.flatMap (scanNotices verbose) } :=
  (idle_new verbose).foldl_answer lines

/-- **A conversation is idle at every prompt.** -/
theorem idle_atPrompt (verbose : Bool) (lines : List Text) : (atPrompt verbose lines).Idle := by
  rw [atPrompt_eq]
  exact idle_new verbose

end Console

/-! ### Runs that scan -/

namespace Command

theorem dumped_dump {c : Console} (idle : c.Idle) (source : Text) :
    dumped (c.dump source) =
      { ending := .ok (if (Scan.of source).hadError then .dataError else .success)
        stdout := c.stdout ++ (Scan.of source).dump
        notices := c.notices ++ scanNotices c.verbose source } := by
  rw [idle.dump_eq]
  rfl

/-- **A conversation answers each line of its input with the dump of that line.** -/
theorem prompt_eq {input : Text} {lines : List Text}
    (split : Text.Lines (Text.withLineFeeds input) lines) (verbose : Bool) :
    prompt verbose input =
      { ending := .ok .success
        stdout := lines.flatMap (fun l => promptMark ++ (Scan.of l).dump) ++ (promptMark ++ ['\n'])
        notices := lines.flatMap (scanNotices verbose) } := by
  rw [prompt, Text.splitLines_eq_iff.mpr split, Console.atPrompt_eq]
  rfl

end Command

end LoxLexis

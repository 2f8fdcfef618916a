import LoxLexis.Proofs.Command.FileRun

/-!
# Runs with a log

Flags in front of the words of a run switch its log on and do nothing else.  What a run scans is
told by its words, by the file system and by standard input: the lines of a conversation, the text
of a file, or nothing.  Everything that is logged follows from that, and so does everything that is
written without a log.  So both runs are read off one closed form, in which the log is a parameter
that neither the ending nor standard output depends on.

## Main definitions

* `Scans` — what a run scans, and what it prints
* `LogInserted` — two outcomes differ by the log of the texts scanned

## Main statements

* `Command.exists_scans` — the closed form of a run, with the log as a parameter
* `flags_insert_log` — flags insert a log, and change nothing else

## Design notes

A file is announced in the log before it is decoded, so the log of a run whose file is refused has
that one entry.  The log of a scan comes before the reports that are printed of it, but after the
reports printed of the scans before.
-/

namespace LoxLexis

/-- What a run scans and prints: a file announced in the log, the texts scanned one after the other,
and what comes to standard output. -/
inductive Scans (files : Path → Lookup) (input : Text) :
    List Text → Option Path → List Text → Text → Prop
  /-- Without words the lines of the input are scanned, and a prompt is printed before each. -/
  | conversation {text : Text} {lines : List Text} (unified : Text.Unified input text)
    (split : Text.Lines text lines) :
    Scans files input [] none lines
      (lines.flatMap (fun l => "> ".toList ++ (Scan.of l).dump) ++ "> \n".toList)
  | file {words : List Text} {name t text : Text} (names : NamesFile words name)
    (stored : files (Path.ofText name) = .file (Utf8.encode t)) (unified : Text.Unified t text) :
    Scans files input words (some (Path.ofText name)) [text] (Scan.of text).dump
  /-- A file whose bytes are those of no text is announced, and nothing is scanned. -/
  | refused {words : List Text} {name : Text} {bytes : List UInt8} (names : NamesFile words name)
    (stored : files (Path.ofText name) = .file bytes) (illFormed : ∀ t, Utf8.encode t ≠ bytes) :
    Scans files input words (some (Path.ofText name)) [] []
  /-- Words that name no file which is there have nothing scanned, whatever they print. -/
  | nothing {words : List Text} {printed : Text} (ne_nil : words ≠ [])
    (noFile : ∀ name bytes, NamesFile words name → files (Path.ofText name) ≠ .file bytes) :
    Scans files input words none [] printed

/-- An entry of the log. -/
def Notice.isLog : Notice → Bool
  | .log _ => true
  | .error _ => false

/-- The notices of a run: a file announced in the log, then what is written of each scan. -/
def runNotices (verbose : Bool) (announced : Option Path) (texts : List Text) : List Notice :=
  logged verbose (announced.toList.map .scanning) ++ texts.flatMap (scanNotices verbose)

namespace Command

variable {files : Path → Lookup}

/-- A request that neither opens a conversation nor finds a file gives no notice, log or no log. -/
theorem exists_carryOut_eq {request : Request} (input : Text)
    (noPrompt : request ≠ .prompt)
    (noFile : ∀ path bytes, request = .dump path → files path ≠ .file bytes) :
    ∃ ending printed, ∀ verbose, carryOut files input { verbose, request } =
      { ending, stdout := printed, notices := [] } := by
  cases request with
  | prompt => exact absurd rfl noPrompt
  | usage => exact ⟨_, _, fun _ => rfl⟩
  | version => exact ⟨_, _, fun _ => rfl⟩
  | missingFile => exact ⟨_, _, fun _ => rfl⟩
  | surplus words => exact ⟨_, _, fun _ => rfl⟩
  | dump path =>
      show ∃ ending printed, ∀ verbose, dumpPath verbose path (files path) = _
      cases found : files path with
      | file bytes => exact absurd found (noFile path bytes rfl)
      | missing => exact ⟨_, _, fun _ => rfl⟩
      | tooLong => exact ⟨_, _, fun _ => rfl⟩

/-- A run that is given no words holds a conversation. -/
theorem exists_scans_nil (files : Path → Lookup) (input : Text) :
    ∃ texts printed, Scans files input [] none texts printed ∧
      ∀ verbose, prompt verbose input =
        { ending := .ok .success, stdout := printed, notices := runNotices verbose none texts } := by
  obtain ⟨text, unified⟩ := Text.exists_unified input
  have split : Text.Lines text (Text.splitLines text) := Text.splitLines_eq_iff.mp rfl
  refine ⟨Text.splitLines text, _, .conversation unified split, fun verbose => ?_⟩
  rw [← Text.withLineFeeds_eq_iff.mpr unified] at split ⊢
  rw [prompt_eq split, runNotices, Option.toList_none, List.map_nil, logged_nil]
  rfl

/-- A run that is given the name of a file scans what the file holds, if that is a text. -/
theorem exists_scans_of_names {words : List Text} {name : Text} {bytes : List UInt8}
    (input : Text) (names : NamesFile words name)
    (stored : files (Path.ofText name) = .file bytes) :
    ∃ ending texts printed, Scans files input words (some (Path.ofText name)) texts printed ∧
      ∀ verbose, dumpBytes verbose (Path.ofText name) bytes =
        { ending, stdout := printed
          notices := runNotices verbose (some (Path.ofText name)) texts } := by
  by_cases wellFormed : ∃ t, Utf8.encode t = bytes
  · obtain ⟨t, rfl⟩ := wellFormed
    obtain ⟨text, unified⟩ := Text.exists_unified t
    refine ⟨.ok (if (Scan.of text).hadError then .dataError else .success), [text], _,
      .file names stored unified, fun verbose => ?_⟩
    rw [dumpBytes_of_unified unified, runNotices, List.flatMap_singleton]
    rfl
  · have illFormed : ∀ t, Utf8.encode t ≠ bytes := fun t ht => wellFormed ⟨t, ht⟩
    obtain ⟨fault, refused⟩ := exists_fault_dumpBytes illFormed
    refine ⟨.error (.illFormed fault), [], _, .refused names stored illFormed, fun verbose => ?_⟩
    rw [refused, runNotices, List.flatMap_nil, List.append_nil]
    rfl

/-- **What a run scans decides what it writes; the log is a parameter of the notices alone.** -/
theorem exists_scans (files : Path → Lookup) (input : Text) {words : List Text}
    (hw : Unflagged words) :
    ∃ ending announced texts printed, Scans files input words announced texts printed ∧
      ∀ verbose, carryOut files input { verbose, request := Invocation.requestOf words } =
        { ending, stdout := printed, notices := runNotices verbose announced texts } := by
  by_cases empty : words = []
  · subst empty
    obtain ⟨texts, printed, scans, performed⟩ := exists_scans_nil files input
    exact ⟨.ok .success, none, texts, printed, scans, performed⟩
  by_cases file : ∃ name bytes, NamesFile words name ∧ files (Path.ofText name) = .file bytes
  · obtain ⟨name, bytes, names, stored⟩ := file
    obtain ⟨ending, texts, printed, scans, performed⟩ :=
      exists_scans_of_names input names stored
    refine ⟨ending, some (Path.ofText name), texts, printed, scans, fun verbose => ?_⟩
    rw [carryOut_of_names names stored, performed]
  · have noFile : ∀ name bytes, NamesFile words name → files (Path.ofText name) ≠ .file bytes :=
      fun name bytes names stored => file ⟨name, bytes, names, stored⟩
    have noDump : ∀ path bytes, Invocation.requestOf words = .dump path →
        files path ≠ .file bytes := by
      intro path bytes requested
      obtain ⟨name, names, rfl⟩ := (Invocation.requestOf_eq_dump_iff hw).mp requested
      exact noFile name bytes names
    obtain ⟨ending, printed, silent⟩ :=
      exists_carryOut_eq input (Invocation.requestOf_ne_prompt empty) noDump
    refine ⟨ending, none, [], printed, .nothing empty noFile, fun verbose => ?_⟩
    rw [silent, runNotices, Option.toList_none, List.map_nil, logged_nil]
    rfl

end Command

/-! ### What is written -/

/-- A record as it is printed, with the end of its line. -/
def recordLine (channel message : Text) : Text :=
  "DEBUG:".toList ++ channel ++ ':' :: message ++ ['\n']

/-- A record of the scanner as it is printed. -/
def scannerLine (message : Text) : Text := recordLine "lox.lexer.scanner".toList message

/-- The log of the scan of a text as it is printed: a record of every report, and one of the number
of tokens and of the last line. -/
def scanLog (t : Text) : Text :=
  ((Scan.of t).reports.flatMap fun r => scannerLine ("Reported ".toList ++ r.display)) ++
    scannerLine ("Scanned ".toList ++ Text.ofNat (Scan.of t).tokens.length ++
      " token(s) over ".toList ++ Text.ofInt (1 + Text.lineFeeds t) ++ " line(s)".toList)

/-- Two outcomes are those of a run that scans some texts, without a log and with one. -/
structure LogInserted (announced : Option Path) (texts : List Text) (printed : Text)
    (quiet loud : Outcome) : Prop where
  /-- The two end alike, or the same interruption cuts them short. -/
  ending : loud.ending = quiet.ending
  stdout : quiet.stdout = printed ∧ loud.stdout = printed
  /-- Without its log the one has written what the other has. -/
  inserted : loud.notices.filter (fun n => !n.isLog) = quiet.notices
  /-- Without a log there are the reports of each scan and nothing else. -/
  quiet_stderr : ∀ channel, quiet.stderr channel =
    texts.flatMap fun t => (Scan.of t).reports.flatMap reportLine
  /-- The file is announced first; then the log of each scan stands before its reports. -/
  loud_stderr : ∀ channel, loud.stderr channel =
    (announced.toList.flatMap fun path => recordLine channel ("Scanning ".toList ++ path.display)) ++
      texts.flatMap fun t => scanLog t ++ (Scan.of t).reports.flatMap reportLine
  /-- The line in the log of a scan is that of its last token, which ends the file. -/
  last_line : ∀ t ∈ texts,
    (Scan.of t).tokens.getLast? = some (Token.endOfFile (1 + Text.lineFeeds t))

section

variable {announced : Option Path} {texts : List Text}

theorem filter_logged (verbose : Bool) (entries : List LogEntry) :
    (logged verbose entries).filter (fun n => !n.isLog) = [] := by
  cases verbose with
  | false => rfl
  | true =>
      rw [logged, if_pos rfl, List.filter_map, List.filter_eq_nil_iff.mpr, List.map_nil]
      intro entry _
      exact Bool.false_ne_true

theorem filter_errors (reports : List Report) :
    (reports.map Notice.error).filter (fun n => !n.isLog) = reports.map .error := by
  rw [List.filter_map]
  exact congrArg _ (List.filter_eq_self.mpr fun _ _ => rfl)

/-- Without its log a run has the notices of the run without a log. -/
theorem filter_runNotices (announced : Option Path) (texts : List Text) :
    (runNotices true announced texts).filter (fun n => !n.isLog) =
      runNotices false announced texts := by
  have each (t : Text) : (scanNotices true t).filter (fun n => !n.isLog) = scanNotices false t := by
    rw [scanNotices, List.filter_append, filter_logged, filter_errors]
    rfl
  rw [runNotices, List.filter_append, filter_logged, List.filter_flatMap, runNotices, logged_false,
    funext each]

/-- The lines of an outcome whose notices come in two parts. -/
theorem ofLines_append (ls ms : List Text) :
    Text.ofLines (ls ++ ms) = Text.ofLines ls ++ Text.ofLines ms := List.flatMap_append

theorem ofLines_flatMap (texts : List Text) (f : Text → List Text) :
    Text.ofLines (texts.flatMap f) = texts.flatMap fun t => Text.ofLines (f t) := List.flatMap_assoc

theorem ofLines_errors (channel : Text) (reports : List Report) :
    Text.ofLines ((reports.map Notice.error).map (Notice.display channel)) =
      reports.flatMap reportLine := by
  rw [List.map_map, Text.ofLines, List.flatMap_map]
  rfl

theorem ofLines_logged (channel : Text) (entries : List LogEntry) :
    Text.ofLines ((logged true entries).map (Notice.display channel)) =
      entries.flatMap fun e => recordLine (e.channel channel) e.message := by
  rw [logged, if_pos rfl, List.map_map, Text.ofLines, List.flatMap_map]
  rfl

/-- The log of a scan is printed entry by entry. -/
theorem ofLines_records (channel t : Text) :
    Text.ofLines ((logged true (records t)).map (Notice.display channel)) = scanLog t := by
  rw [ofLines_logged, records, List.flatMap_append, List.flatMap_map, List.flatMap_singleton]
  rfl

/-- What is printed of a scan, its log first. -/
theorem ofLines_scanNotices (channel t : Text) :
    Text.ofLines ((scanNotices true t).map (Notice.display channel)) =
      scanLog t ++ (Scan.of t).reports.flatMap reportLine := by
  rw [scanNotices, List.map_append, ofLines_append, ofLines_records, ofLines_errors]

theorem ofLines_announced (channel : Text) (announced : Option Path) :
    Text.ofLines ((logged true (announced.toList.map .scanning)).map (Notice.display channel)) =
      announced.toList.flatMap fun path =>
        recordLine channel ("Scanning ".toList ++ path.display) := by
  rw [ofLines_logged, List.flatMap_map]
  rfl

/-- **The notices of a run without a log are its reports, scan by scan.** -/
theorem stderr_of_quiet {o : Outcome} (h : o.notices = runNotices false announced texts)
    (channel : Text) :
    o.stderr channel = texts.flatMap fun t => (Scan.of t).reports.flatMap reportLine := by
  rw [Outcome.stderr, h, runNotices, logged_false, List.nil_append, List.map_flatMap,
    ofLines_flatMap]
  exact congrArg (List.flatMap · texts) (funext fun t => ofLines_errors channel _)

/-- **The log of a run stands in front of the reports that it is about, scan by scan.** -/
theorem stderr_of_loud {o : Outcome} (h : o.notices = runNotices true announced texts)
    (channel : Text) :
    o.stderr channel =
      (announced.toList.flatMap fun path =>
          recordLine channel ("Scanning ".toList ++ path.display)) ++
        texts.flatMap fun t => scanLog t ++ (Scan.of t).reports.flatMap reportLine := by
  rw [Outcome.stderr, h, runNotices, List.map_append, ofLines_append, ofLines_announced,
    List.map_flatMap, ofLines_flatMap]
  exact congrArg (_ ++ List.flatMap · texts) (funext fun t => ofLines_scanNotices channel t)

end

theorem Scan.getLast?_tokens (t : Text) :
    (Scan.of t).tokens.getLast? = some (Token.endOfFile (1 + Text.lineFeeds t)) := by
  rw [Scan.of_eq, List.getLast?_concat]

/-- **Flags insert a log into what is written to standard error, and change nothing else.** -/
theorem flags_insert_log (flags words : List Text) (allFlags : ∀ f ∈ flags, f ∈ verboseFlags)
    (flagged : flags ≠ []) (unflagged : Unflagged words) (files : Path → Lookup) (input : Text) :
    ∃ announced texts printed, Scans files input words announced texts printed ∧
      LogInserted announced texts printed (Command.run files input words)
        (Command.run files input (flags ++ words)) := by
  obtain ⟨ending, announced, texts, printed, scans, performed⟩ :=
    Command.exists_scans files input unflagged
  have quiet : Command.run files input words =
      { ending, stdout := printed, notices := runNotices false announced texts } := by
    have noFlags : ∀ f ∈ ([] : List Text), f ∈ verboseFlags := nofun
    exact (Command.run_append noFlags unflagged files input).trans (performed false)
  have loud : Command.run files input (flags ++ words) =
      { ending, stdout := printed, notices := runNotices true announced texts } := by
    have switched : (!flags.isEmpty) = true := by
      rw [List.isEmpty_eq_false_iff.mpr flagged]
      rfl
    rw [Command.run_append allFlags unflagged files input, switched, performed]
  rw [quiet, loud]
  exact ⟨announced, texts, printed, scans,
    { ending := rfl
      stdout := ⟨rfl, rfl⟩
      inserted := filter_runNotices announced texts
      quiet_stderr := stderr_of_quiet rfl
      loud_stderr := stderr_of_loud rfl
      last_line := fun t _ => Scan.getLast?_tokens t }⟩

/-- The word looks like a flag and is the name of a file; of the two reports the one on the open
string is made on a later line than its quote. -/
theorem flags_insert_log_names :
    let files := FileTree.lookUp
      { files := [(["-vv".toList], Utf8.encode "@ 1.50\r\"a\n".toList)], directories := [] }
    ((∀ f ∈ ["--verbose".toList, "-v".toList], f ∈ verboseFlags) ∧
      ["--verbose".toList, "-v".toList] ≠ [] ∧ Unflagged ["-vv".toList]) ∧
      ∃ announced texts printed, Scans files [] ["-vv".toList] announced texts printed ∧
        LogInserted announced texts printed (Command.run files [] ["-vv".toList])
          (Command.run files [] (["--verbose".toList, "-v".toList] ++ ["-vv".toList])) := by
  intro files
  have allFlags : ∀ f ∈ ["--verbose".toList, "-v".toList], f ∈ verboseFlags := by decide
  have flagged : ["--verbose".toList, "-v".toList] ≠ [] := List.cons_ne_nil _ _
  have unflagged : Unflagged ["-vv".toList] := by
    intro w hw
    obtain rfl := Option.some.inj hw
    decide
  exact ⟨⟨allFlags, flagged, unflagged⟩,
    flags_insert_log _ _ allFlags flagged unflagged files []⟩

end LoxLexis

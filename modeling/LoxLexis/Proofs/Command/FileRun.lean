import LoxLexis.Command.FileTree
import LoxLexis.Proofs.Command.Console
import LoxLexis.Proofs.Command.Words
import LoxLexis.Proofs.Text.LineEnds
import LoxLexis.Proofs.Text.WellFormed

/-!
# Runs on a file

A run on a file decodes its bytes, makes its line ends alike, scans the text that comes out and
writes what the scan finds.  Bytes that are those of no text stop it before anything is scanned, so
nothing is written of the text in front of the fault.  From there on all is decided by the text: its
longest pieces give the tokens and the reports, and the exit code says whether there are reports.
The way in which the lines of the file end does not show.

## Main definitions

* `DumpsText` — an outcome that dumps a text
* `DumpsBytes` — an outcome that dumps the text of some bytes, or refuses them

## Main statements

* `Command.dumpBytes_of_unified` — a file is dumped as its text with line ends made alike
* `file_dumped_or_refused` — what a run on a file writes, and how it ends
-/

namespace LoxLexis

namespace Command

/-- **A file is dumped as its text with line ends made alike.** -/
theorem dumpBytes_of_unified {t text : Text} (unified : Text.Unified t text) (verbose : Bool)
    (path : Path) :
    dumpBytes verbose path (Utf8.encode t) =
      { ending := .ok (if (Scan.of text).hadError then .dataError else .success)
        stdout := (Scan.of text).dump
        notices := logged verbose [.scanning path] ++ scanNotices verbose text } := by
  have idle : ((Console.new verbose).notify (logged verbose [.scanning path])).Idle :=
    Console.idle_new verbose
  rw [dumpBytes, Utf8.decode_encode, Console.log_eq]
  show dumped (((Console.new verbose).notify (logged verbose [.scanning path])).dump
    (Text.withLineFeeds t)) = _
  rw [Text.withLineFeeds_eq_iff.mpr unified, dumped_dump idle]
  rfl

/-- Bytes that are those of no text stop a run with nothing written but its log. -/
theorem exists_fault_dumpBytes {bytes : List UInt8} (illFormed : ∀ t, Utf8.encode t ≠ bytes) :
    ∃ fault, ∀ verbose path, dumpBytes verbose path bytes =
      { ending := .error (.illFormed fault)
        stdout := []
        notices := logged verbose [.scanning path] } := by
  obtain ⟨fault, decoded⟩ := Utf8.exists_fault illFormed
  refine ⟨fault, fun verbose path => ?_⟩
  rw [dumpBytes, decoded, Console.log_eq]
  rfl

section

variable {words : List Text} {name : Text} {files : Path → Lookup} {bytes : List UInt8}

/-- The request of words that name a file is for a dump of its bytes. -/
theorem carryOut_of_names (names : NamesFile words name)
    (stored : files (Path.ofText name) = .file bytes) (input : Text) (verbose : Bool) :
    carryOut files input { verbose, request := Invocation.requestOf words } =
      dumpBytes verbose (Path.ofText name) bytes := by
  rw [Invocation.requestOf_of_names names]
  show dumpPath verbose (Path.ofText name) (files (Path.ofText name)) = _
  rw [stored, dumpPath]

/-- A run on a file dumps its bytes. -/
theorem run_of_names {flags : List Text} (hf : ∀ f ∈ flags, f ∈ verboseFlags)
    (names : NamesFile words name) (stored : files (Path.ofText name) = .file bytes)
    (input : Text) :
    run files input (flags ++ words) = dumpBytes (!flags.isEmpty) (Path.ofText name) bytes := by
  rw [run_append hf names.unflagged, carryOut_of_names names stored]

end

end Command

theorem Scan.dump_eq_flatMap (s : Scan) :
    s.dump = s.tokens.flatMap fun t => t.display ++ ['\n'] := by
  rw [Scan.dump, Text.ofLines, List.flatMap_map]

/-- A report as it is printed, with the end of its line. -/
def reportLine (r : Report) : Text :=
  "[line ".toList ++ Text.ofInt r.line ++ "] Error: ".toList ++ r.message ++ ['\n']

theorem stderr_of_errors {o : Outcome} {reports : List Report}
    (h : o.notices = reports.map .error) (channel : Text) :
    o.stderr channel = reports.flatMap reportLine := by
  rw [Outcome.stderr, h, List.map_map, Text.ofLines, List.flatMap_map]
  rfl

/-- An outcome that dumps a text. -/
structure DumpsText (verbose : Bool) (text : Text) (o : Outcome) : Prop where
  /-- The tokens and the reports of the text are those of its longest pieces, in order. -/
  pieces : ∃ segs, Cuts text segs ∧
    (Scan.of text).tokens = tokensFrom 1 segs ++ [Token.endOfFile (1 + Text.lineFeeds text)] ∧
    (Scan.of text).reports = reportsFrom 1 segs
  /-- Every token stands on standard output, with a line feed after it. -/
  stdout : o.stdout = (Scan.of text).tokens.flatMap fun t => t.display ++ ['\n']
  /-- Every report is printed on a line of its own; without flags there is nothing else. -/
  stderr : verbose = false → ∀ channel, o.stderr channel = (Scan.of text).reports.flatMap reportLine
  exit : o.ending.map Status.code = .ok (if (Scan.of text).reports = [] then 0 else 65)

/-- An outcome that dumps the text of some bytes, or refuses them. -/
structure DumpsBytes (verbose : Bool) (bytes : List UInt8) (o : Outcome) : Prop where
  /-- Bytes that are those of no text are refused with nothing on standard output. -/
  refused : (∀ t, Utf8.encode t ≠ bytes) →
    (∃ fault, o.ending = .error (.illFormed fault)) ∧ o.stdout = []
  /-- The bytes of a text are dumped as that text with line ends made alike. -/
  dumped : ∀ t text, Utf8.encode t = bytes → Text.Unified t text → DumpsText verbose text o

theorem dumpsText_of_unified {t text : Text} (unified : Text.Unified t text) (verbose : Bool)
    (path : Path) : DumpsText verbose text (Command.dumpBytes verbose path (Utf8.encode t)) := by
  rw [Command.dumpBytes_of_unified unified]
  refine ⟨⟨segments text, cuts_iff.mpr rfl, ?_, ?_⟩, Scan.dump_eq_flatMap _, ?_, ?_⟩
  · rw [Scan.of_eq]
  · rw [Scan.of_eq]
  · rintro rfl channel
    exact stderr_of_errors rfl channel
  · show Except.ok (Status.code _) = _
    by_cases clean : (Scan.of text).reports = []
    · rw [if_pos clean, Scan.hadError, clean]
      rfl
    · rw [if_neg clean, Scan.hadError, if_pos (by simpa using clean)]
      rfl

/-- **A run on a file dumps its text or refuses its bytes, whichever way its lines end.** -/
theorem file_dumped_or_refused (flags words : List Text) (name : Text)
    (allFlags : ∀ f ∈ flags, f ∈ verboseFlags) (names : NamesFile words name)
    (files : Path → Lookup) (input : Text) (bytes : List UInt8)
    (stored : files (Path.ofText name) = .file bytes) :
    DumpsBytes (!flags.isEmpty) bytes (Command.run files input (flags ++ words)) ∧
      ∀ t, '\r' ∉ t → ∀ lineEnd ∈ Text.lineEnds, Utf8.encode (Text.endedBy lineEnd t) = bytes →
        ∀ files' input', files' (Path.ofText name) = .file (Utf8.encode t) →
          Command.run files' input' (flags ++ words) = Command.run files input (flags ++ words) := by
  have ran := Command.run_of_names allFlags names stored input
  refine ⟨⟨fun illFormed => ?_, ?_⟩, ?_⟩
  · obtain ⟨fault, refused⟩ := Command.exists_fault_dumpBytes illFormed
    rw [ran, refused]
    exact ⟨⟨fault, rfl⟩, rfl⟩
  · rintro t text rfl unified
    rw [ran]
    exact dumpsText_of_unified unified _ _
  · rintro t free lineEnd hl rfl files' input' stored'
    have plain : Text.Unified t t := by
      rw [← Text.withLineFeeds_eq_iff]
      exact Text.withLineFeeds_of_not_mem free
    rw [ran, Command.run_of_names allFlags names stored' input',
      Command.dumpBytes_of_unified plain,
      Command.dumpBytes_of_unified (Text.unified_endedBy hl free)]

/-- The file has characters of two and of four bytes, a carriage return in a string and one that
ends a line without a line feed, and a character that begins nothing. -/
theorem file_dumped_or_refused_returns :
    let bytes := Utf8.encode "\"é\r\n😀\" 1.5\r@\r\n".toList
    let files := FileTree.lookUp { files := [(["src".toList, "a.lox".toList], bytes)], directories := [] }
    ((∀ f ∈ [], f ∈ verboseFlags) ∧
      NamesFile ["tokenize".toList, "src/./a.lox".toList] "src/./a.lox".toList ∧
      files (Path.ofText "src/./a.lox".toList) = .file bytes) ∧
      DumpsBytes false bytes (Command.run files [] ([] ++ ["tokenize".toList, "src/./a.lox".toList])) ∧
      ∀ t, '\r' ∉ t → ∀ lineEnd ∈ Text.lineEnds, Utf8.encode (Text.endedBy lineEnd t) = bytes →
        ∀ files' input', files' (Path.ofText "src/./a.lox".toList) = .file (Utf8.encode t) →
          Command.run files' input' ([] ++ ["tokenize".toList, "src/./a.lox".toList]) =
            Command.run files [] ([] ++ ["tokenize".toList, "src/./a.lox".toList]) := by
  intro bytes files
  have allFlags : ∀ f ∈ [], f ∈ verboseFlags := nofun
  have names : NamesFile ["tokenize".toList, "src/./a.lox".toList] "src/./a.lox".toList :=
    .afterDump _
  have stored : files (Path.ofText "src/./a.lox".toList) = .file bytes := by decide +kernel
  exact ⟨⟨allFlags, names, stored⟩, file_dumped_or_refused [] _ _ allFlags names files [] bytes stored⟩

end LoxLexis

import LoxLexis.Proofs.Command.FileRun
import LoxLexis.Proofs.Command.FileSystem

/-!
# What the words of a run decide

The words of a run are read from the left.  Flags for the log come first; then the first word may ask
for help or for the version, whatever comes after it; and else the words request a dump, with the word
for that in front of them or without it.  One file can be dumped.  More of them, or none, are refused
before any file is looked at.

What becomes of the one file is for the file system to say, and nothing is supposed of its answers.
A path that denotes no regular file has an exit code of its own.  There is an exception to that: a path
that the file system refuses for its length denotes no file either, but the refusal is not taken for an
answer, and it cuts the run short.

## Main definitions

* `afterFlags`, `operands` — the words after the flags, and the files that they name
* `RequestsDump` — words that ask neither for help nor for the version
* `EndsOn` — how a run ends that is to dump some files
* `DecidedByWords` — an outcome that the words of a run decide

## Main statements

* `Invocation.requestOf_of_requestsDump` — words that request a dump have their files dumped
* `Invocation.ofWords_dumpWord_cons` — the word for a token dump may be left out
* `Command.endsOn_carryOut` — how a run ends that is to dump some files
* `words_decide_run` — the words of a run decide its outcome, whatever the file system answers
* `long_name_interrupts` — a path that denotes no file need not lead to the exit code for that
* `FileSystem.exits_noInput_iff` — which paths lead to that code in a file system
-/

namespace LoxLexis

/-- The flags in front of words. -/
def leadingFlags (words : List Text) : List Text := words.takeWhile (· ∈ verboseFlags)

/-- The words after the flags in front. -/
def afterFlags (words : List Text) : List Text := words.dropWhile (· ∈ verboseFlags)

/-- Words without the word for a token dump, where it is the first. -/
def operands : List Text → List Text
  | [] => []
  | w :: words => if w = "tokenize".toList then words else w :: words

/-- The words that ask for help or for the version. -/
def askingWords : List Text := ["-h".toList, "--help".toList, "--version".toList]

/-- Words the first of which asks neither for help nor for the version.  How many files they name is
left open. -/
def RequestsDump (words : List Text) : Prop := ∃ w rest, words = w :: rest ∧ w ∉ askingWords

/-- A run that is not cut short ends with a code. -/
def Outcome.Exits (o : Outcome) (code : Nat) : Prop := o.ending.map Status.code = .ok code

/-! ### The words after the flags -/

theorem leadingFlags_append_afterFlags (words : List Text) :
    leadingFlags words ++ afterFlags words = words := List.takeWhile_append_dropWhile

theorem mem_verboseFlags_of_mem_leadingFlags (words : List Text) :
    ∀ f ∈ leadingFlags words, f ∈ verboseFlags := by
  intro f hf
  exact of_decide_eq_true (List.all_eq_true.mp List.all_takeWhile f hf)

theorem unflagged_afterFlags (words : List Text) : Unflagged (afterFlags words) := by
  intro w hw flag
  have stop := List.head?_dropWhile_not (fun w => decide (w ∈ verboseFlags)) words
  rw [show List.dropWhile (fun w => decide (w ∈ verboseFlags)) words = afterFlags words from rfl,
    Option.mem_def.mp hw] at stop
  exact of_decide_eq_false stop flag

/-- A first word that is no flag has no flags in front of it. -/
theorem afterFlags_cons {w : Text} (h : w ∉ verboseFlags) (words : List Text) :
    leadingFlags (w :: words) = [] ∧ afterFlags (w :: words) = w :: words := by
  have notFlag : ¬ decide (w ∈ verboseFlags) = true := fun flag => h (of_decide_eq_true flag)
  exact ⟨List.takeWhile_cons_of_neg notFlag, List.dropWhile_cons_of_neg notFlag⟩

namespace Invocation

/-- **Words that request a dump have their files dumped.** -/
theorem requestOf_of_requestsDump {words : List Text} (dump : RequestsDump words)
    (unflagged : Unflagged words) : requestOf words = dumpRequest (operands words) := by
  obtain ⟨w, rest, rfl, free⟩ := dump
  by_cases marked : w = "tokenize".toList
  · rw [operands, if_pos marked, marked]
    rfl
  · have unreserved : w ∉ reservedWords := by
      intro reserved
      have flag : w ∉ verboseFlags := unflagged w rfl
      rw [show reservedWords = verboseFlags ++ (askingWords ++ ["tokenize".toList]) from rfl,
        List.mem_append, List.mem_append, List.mem_singleton] at reserved
      rcases reserved with reserved | reserved | reserved
      · exact flag reserved
      · exact free reserved
      · exact marked reserved
    rw [operands, if_neg marked, requestOf_of_notMem unreserved]

/-- Flags switch the log on, and the words after them make the request. -/
theorem ofWords_eq (words : List Text) :
    ofWords words =
      { verbose := !(leadingFlags words).isEmpty, request := requestOf (afterFlags words) } := by
  have split := ofWords_append (mem_verboseFlags_of_mem_leadingFlags words)
    (unflagged_afterFlags words)
  rwa [leadingFlags_append_afterFlags] at split

/-- **The word for a token dump may be left out** in front of a word without a meaning of its own. -/
theorem ofWords_dumpWord_cons {w : Text} (h : w ∉ reservedWords) (rest : List Text) :
    ofWords ("tokenize".toList :: w :: rest) = ofWords (w :: rest) := by
  have notFlag : w ∉ verboseFlags := fun flag => h (List.mem_append_left _ flag)
  have dumpWord : "tokenize".toList ∉ verboseFlags := by decide
  obtain ⟨none, all⟩ := afterFlags_cons notFlag rest
  obtain ⟨none', all'⟩ := afterFlags_cons dumpWord (w :: rest)
  rw [ofWords_eq, ofWords_eq, none, all, none', all', requestOf_of_notMem h]
  rfl

end Invocation

/-! ### How runs on files end -/

theorem Status.eq_of_code {s t : Status} (h : s.code = t.code) : s = t := by
  cases s <;> cases t <;> cases h <;> rfl

theorem Outcome.exits_iff {o : Outcome} {status : Status} :
    o.Exits status.code ↔ o.ending = .ok status := by
  rw [Exits]
  cases o.ending with
  | error interruption => exact iff_of_false (by rintro ⟨⟩) (by rintro ⟨⟩)
  | ok other =>
      constructor
      · intro same
        exact congrArg Except.ok (Status.eq_of_code (Except.ok.inj same))
      · rintro ⟨⟩
        rfl

/-- How a run ends that is to dump the files of some names. -/
inductive EndsOn (files : Path → Lookup) : List Text → Except Interruption Status → Prop
  | refused {names : List Text} (h : names.length ≠ 1) : EndsOn files names (.ok .usage)
  | missing {name : Text} (h : files (Path.ofText name) = .missing) :
      EndsOn files [name] (.ok .noInput)
  | tooLong {name : Text} (h : files (Path.ofText name) = .tooLong) :
      EndsOn files [name] (.error (.pathTooLong (Path.ofText name)))
  /-- The file is scanned, and it has no lexical error or has some. -/
  | scanned {name : Text} {bytes : List UInt8} (h : files (Path.ofText name) = .file bytes)
      (hadError : Bool) : EndsOn files [name] (.ok (if hadError then .dataError else .success))
  | illFormed {name : Text} {bytes : List UInt8} (h : files (Path.ofText name) = .file bytes)
      (fault : Utf8.Fault) : EndsOn files [name] (.error (.illFormed fault))

namespace EndsOn

variable {files : Path → Lookup} {names : List Text} {ending : Except Interruption Status}

theorem usage_iff (h : EndsOn files names ending) : ending = .ok .usage ↔ names.length ≠ 1 := by
  cases h with
  | refused h => exact iff_of_true rfl h
  | missing => exact iff_of_false (by rintro ⟨⟩) (absurd rfl)
  | tooLong => exact iff_of_false (by rintro ⟨⟩) (absurd rfl)
  | scanned h hadError =>
      refine iff_of_false (fun same => ?_) (absurd rfl)
      cases hadError <;> cases same
  | illFormed => exact iff_of_false (by rintro ⟨⟩) (absurd rfl)

theorem noInput_iff (h : EndsOn files names ending) :
    ending = .ok .noInput ↔ ∃ name, names = [name] ∧ files (Path.ofText name) = .missing := by
  constructor
  · rintro rfl
    generalize same : Except.ok Status.noInput = ending at h
    cases h with
    | missing h => exact ⟨_, rfl, h⟩
    | refused => cases same
    | tooLong => cases same
    | scanned h hadError => cases hadError <;> cases same
    | illFormed => cases same
  · rintro ⟨name, rfl, found⟩
    cases h with
    | missing => rfl
    | refused h => exact absurd rfl h
    | tooLong h => cases found.symm.trans h
    | scanned h => cases found.symm.trans h
    | illFormed h => cases found.symm.trans h

theorem pathTooLong_iff (h : EndsOn files names ending) {path : Path} :
    ending = .error (.pathTooLong path) ↔
      ∃ name, names = [name] ∧ path = Path.ofText name ∧ files path = .tooLong := by
  constructor
  · rintro rfl
    cases h with
    | tooLong h => exact ⟨_, rfl, rfl, h⟩
  · rintro ⟨name, rfl, rfl, found⟩
    cases h with
    | tooLong => rfl
    | refused h => exact absurd rfl h
    | missing h => cases found.symm.trans h
    | scanned h => cases found.symm.trans h
    | illFormed h => cases found.symm.trans h

/-- A file that is there is scanned to the end, or its bytes are those of no text. -/
theorem of_file {name : Text} {bytes : List UInt8} (h : EndsOn files [name] ending)
    (stored : files (Path.ofText name) = .file bytes) :
    ending = .ok .success ∨ ending = .ok .dataError ∨ ∃ fault, ending = .error (.illFormed fault) := by
  cases h with
  | scanned h hadError =>
      cases hadError with
      | false => exact .inl rfl
      | true => exact .inr (.inl rfl)
  | illFormed h fault => exact .inr (.inr ⟨fault, rfl⟩)
  | refused h => exact absurd rfl h
  | missing h => cases stored.symm.trans h
  | tooLong h => cases stored.symm.trans h

end EndsOn

namespace Command

variable {words : List Text}

/-- A run carries out the request of the words after its flags. -/
theorem run_eq (files : Path → Lookup) (input : Text) (words : List Text) :
    run files input words =
      carryOut files input
        { verbose := !(leadingFlags words).isEmpty
          request := Invocation.requestOf (afterFlags words) } := by
  rw [run, Invocation.ofWords_eq]

theorem run_of_requestsDump (dump : RequestsDump (afterFlags words)) (files : Path → Lookup)
    (input : Text) :
    run files input words =
      carryOut files input
        { verbose := !(leadingFlags words).isEmpty
          request := Invocation.dumpRequest (operands (afterFlags words)) } := by
  rw [run_eq, Invocation.requestOf_of_requestsDump dump (unflagged_afterFlags words)]

/-- A first word that asks for help is answered with the usage, whatever comes after it. -/
theorem run_of_help {w : Text} {rest : List Text} (first : afterFlags words = w :: rest)
    (asks : w ∈ ["-h".toList, "--help".toList]) (files : Path → Lookup) (input : Text) :
    run files input words = saying .success usage := by
  have help : Invocation.isHelpFlag w = true := by
    rw [Invocation.isHelpFlag_iff]
    simpa using asks
  rw [run_eq, first, Invocation.requestOf, if_pos help]
  rfl

theorem run_of_version {rest : List Text} (first : afterFlags words = "--version".toList :: rest)
    (files : Path → Lookup) (input : Text) :
    run files input words = saying .success ["lox ".toList ++ version] := by
  rw [run_eq, first]
  rfl

/-- A file that is there is dumped. -/
theorem run_of_file {files : Path → Lookup} {name : Text} {bytes : List UInt8}
    (dump : RequestsDump (afterFlags words)) (one : operands (afterFlags words) = [name])
    (stored : files (Path.ofText name) = .file bytes) (input : Text) :
    run files input words =
      dumpBytes (!(leadingFlags words).isEmpty) (Path.ofText name) bytes := by
  rw [run_of_requestsDump dump, one]
  show dumpPath _ (Path.ofText name) (files (Path.ofText name)) = _
  rw [stored]
  rfl

/-- Words that do not name one file are refused, whichever files there are. -/
theorem exists_saying {names : List Text} (h : names.length ≠ 1) :
    ∃ lines, ∀ files input verbose,
      carryOut files input { verbose, request := Invocation.dumpRequest names } =
        saying .usage lines := by
  cases names with
  | nil => exact ⟨_, fun _ _ _ => rfl⟩
  | cons name more =>
      cases more with
      | nil => exact absurd rfl h
      | cons second more => exact ⟨_, fun _ _ _ => rfl⟩

theorem endsOn_dumpBytes {files : Path → Lookup} {name : Text} {bytes : List UInt8}
    (stored : files (Path.ofText name) = .file bytes) (verbose : Bool) :
    EndsOn files [name] (dumpBytes verbose (Path.ofText name) bytes).ending := by
  rw [dumpBytes]
  cases Utf8.decode bytes with
  | error fault => exact .illFormed stored fault
  | ok text => exact .scanned stored _

/-- **How a run ends that is to dump the files of some names.** -/
theorem endsOn_carryOut (files : Path → Lookup) (input : Text) (verbose : Bool) (names : List Text) :
    EndsOn files names
      (carryOut files input { verbose, request := Invocation.dumpRequest names }).ending := by
  by_cases one : names.length = 1
  · obtain ⟨name, rfl⟩ := List.length_eq_one_iff.mp one
    show EndsOn files [name] (dumpPath verbose (Path.ofText name) (files (Path.ofText name))).ending
    cases found : files (Path.ofText name) with
    | file bytes => exact endsOn_dumpBytes found verbose
    | missing => exact .missing found
    | tooLong => exact .tooLong found
  · obtain ⟨lines, refused⟩ := exists_saying one
    rw [refused]
    exact .refused one

theorem endsOn_run (dump : RequestsDump (afterFlags words)) (files : Path → Lookup) (input : Text) :
    EndsOn files (operands (afterFlags words)) (run files input words).ending := by
  rw [run_of_requestsDump dump]
  exact endsOn_carryOut files input _ _

theorem dumpsBytes_dumpBytes (verbose : Bool) (path : Path) (bytes : List UInt8) :
    DumpsBytes verbose bytes (dumpBytes verbose path bytes) where
  refused := by
    intro illFormed
    obtain ⟨fault, refused⟩ := exists_fault_dumpBytes illFormed
    rw [refused]
    exact ⟨⟨fault, rfl⟩, rfl⟩
  dumped := by
    rintro t text rfl unified
    exact dumpsText_of_unified unified verbose path

end Command

/-! ### What the words decide -/

/-- An outcome that the words of a run decide, given what the file system answers. -/
structure DecidedByWords (files : Path → Lookup) (input : Text) (words : List Text) (o : Outcome) :
    Prop where
  /-- Without words after the flags there is a conversation. -/
  conversation : afterFlags words = [] →
    o = Command.prompt (!(leadingFlags words).isEmpty) input
  /-- Help is given whatever follows. -/
  usage : ∀ w rest, afterFlags words = w :: rest → w ∈ ["-h".toList, "--help".toList] →
    o.Exits 0 ∧ o.stdout = Text.ofLines Command.usage ∧ o.notices = []
  version : ∀ rest, afterFlags words = "--version".toList :: rest →
    o.Exits 0 ∧ o.stdout = "lox 0.1.0\n".toList ∧ o.notices = []
  /-- Exactly one file can be dumped. -/
  refused : RequestsDump (afterFlags words) →
    (o.Exits 64 ↔ (operands (afterFlags words)).length ≠ 1)
  /-- The refusal has nothing to do with files or input, and nothing is scanned. -/
  unseen : RequestsDump (afterFlags words) → (operands (afterFlags words)).length ≠ 1 →
    ∃ lines, ∀ files' input', Command.run files' input' words = Command.saying .usage lines
  /-- The path denotes no regular file, and it is not refused for its length. -/
  noInput : RequestsDump (afterFlags words) →
    (o.Exits 66 ↔ ∃ name, operands (afterFlags words) = [name] ∧
      (∀ bytes, files (Path.ofText name) ≠ .file bytes) ∧ files (Path.ofText name) ≠ .tooLong)
  /-- A path that is refused for its length cuts the run short. -/
  tooLong : RequestsDump (afterFlags words) → ∀ path,
    (o.ending = .error (.pathTooLong path) ↔
      ∃ name, operands (afterFlags words) = [name] ∧ path = Path.ofText name ∧
        files path = .tooLong)
  /-- A regular file is scanned, or its bytes are those of no text. -/
  scanned : RequestsDump (afterFlags words) → ∀ name bytes,
    operands (afterFlags words) = [name] → files (Path.ofText name) = .file bytes →
      DumpsBytes (!(leadingFlags words).isEmpty) bytes o ∧
        (o.Exits 0 ∨ o.Exits 65 ∨ ∃ fault, o.ending = .error (.illFormed fault))
  /-- The word for a token dump may be left out: the same is asked for, and so the runs are alike in
  whatever environment. -/
  dumpWord : ∀ w rest, words = w :: rest → w ∉ reservedWords →
    Invocation.ofWords ("tokenize".toList :: words) = Invocation.ofWords words ∧
      ∀ files' input',
        Command.run files' input' ("tokenize".toList :: words) = Command.run files' input' words

/-- **The words of a run decide its outcome**, whatever the file system answers to the one path that it
may be asked for. -/
theorem words_decide_run (files : Path → Lookup) (input : Text) (words : List Text) :
    DecidedByWords files input words (Command.run files input words) := by
  have ends (dump : RequestsDump (afterFlags words)) :
      EndsOn files (operands (afterFlags words)) (Command.run files input words).ending :=
    Command.endsOn_run dump files input
  refine
    { conversation := ?conversation
      usage := ?usage
      version := ?version
      refused := fun dump => Outcome.exits_iff.trans (ends dump).usage_iff
      unseen := ?unseen
      noInput := ?noInput
      tooLong := fun dump path => (ends dump).pathTooLong_iff
      scanned := ?scanned
      dumpWord := ?dumpWord }
  case conversation =>
    intro nothing
    rw [Command.run_eq, nothing]
    rfl
  case usage =>
    intro w rest first asks
    rw [Command.run_of_help first asks]
    exact ⟨rfl, rfl, rfl⟩
  case version =>
    intro rest first
    rw [Command.run_of_version first]
    exact ⟨rfl, rfl, rfl⟩
  case unseen =>
    intro dump h
    obtain ⟨lines, refused⟩ := Command.exists_saying h
    refine ⟨lines, fun files' input' => ?_⟩
    rw [Command.run_of_requestsDump dump, refused]
  case noInput =>
    intro dump
    refine Outcome.exits_iff.trans ((ends dump).noInput_iff.trans ?_)
    simp only [Lookup.eq_missing_iff]
  case scanned =>
    intro dump name bytes one stored
    rw [Command.run_of_file dump one stored]
    refine ⟨Command.dumpsBytes_dumpBytes _ _ _, ?_⟩
    rcases (Command.endsOn_dumpBytes stored _).of_file stored with success | dataError | illFormed
    · exact .inl (Outcome.exits_iff.mpr success)
    · exact .inr (.inl (Outcome.exits_iff.mpr dataError))
    · exact .inr (.inr illFormed)
  case dumpWord =>
    rintro w rest rfl free
    have same := Invocation.ofWords_dumpWord_cons free rest
    exact ⟨same, fun files' input' => congrArg (Command.carryOut files' input') same⟩

/-- A name of 256 letters denotes no file where there are none, but the run on it does not end with
the exit code for that. -/
theorem long_name_interrupts :
    let t : FileTree := { files := [], directories := [] }
    let name := List.replicate 256 'a'
    RequestsDump (afterFlags [name]) ∧ operands (afterFlags [name]) = [name] ∧
      (∀ bytes, ¬ t.system.Denotes (Path.ofText name) bytes) ∧
      ¬ (Command.run t.lookUp [] [name]).Exits 66 ∧
      (Command.run t.lookUp [] [name]).ending = .error (.pathTooLong (Path.ofText name)) := by
  intro t name
  have plain : name ∉ verboseFlags ∧ name ∉ askingWords ∧ name ≠ "tokenize".toList := by
    decide +kernel
  have found : t.lookUp (Path.ofText name) = .tooLong := by decide +kernel
  have words : afterFlags [name] = [name] := (afterFlags_cons plain.1 []).2
  have dump : RequestsDump (afterFlags [name]) := ⟨name, [], words, plain.2.1⟩
  have one : operands (afterFlags [name]) = [name] := by
    rw [words, operands, if_neg plain.2.2]
  have ending : (Command.run t.lookUp [] [name]).ending =
      .error (.pathTooLong (Path.ofText name)) :=
    (Command.endsOn_run dump t.lookUp []).pathTooLong_iff.mpr ⟨name, one, rfl, found⟩
  refine ⟨dump, one, fun bytes denotes => ?_, fun exits => ?_, ending⟩
  · have stored : t.lookUp (Path.ofText name) = .file bytes :=
      FileSystem.lookUp_eq_file_iff.mpr denotes
    rw [stored] at found
    cases found
  · rw [Outcome.Exits, ending] at exits
    cases exits

/-- **In a file system the exit code for missing input tells that a path denotes nothing**, unless the
path is refused for its length. -/
theorem FileSystem.exits_noInput_iff (s : FileSystem) {words : List Text}
    (dump : RequestsDump (afterFlags words)) (input : Text) :
    (Command.run s.lookUp input words).Exits 66 ↔
      ∃ name, operands (afterFlags words) = [name] ∧
        (∀ bytes, ¬ s.Denotes (Path.ofText name) bytes) ∧ ¬ s.Refuses (Path.ofText name) := by
  refine Outcome.exits_iff.trans ((Command.endsOn_run dump s.lookUp input).noInput_iff.trans ?_)
  simp only [FileSystem.lookUp_eq_missing_iff]

end LoxLexis

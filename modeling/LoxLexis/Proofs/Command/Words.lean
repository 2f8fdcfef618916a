import LoxLexis.Command.Run
import LoxLexis.Proofs.Segment.Front

/-!
# The words of a run

The flags in front of a command line switch the log on, and the words after them make the request.
A file is requested by its name alone or after the word for a token dump; alone it must not be one of
the words that have a meaning of their own.

## Main definitions

* `verboseFlags`, `reservedWords` — the words with a meaning of their own
* `Unflagged` — words that do not begin with a flag for the log
* `NamesFile` — words that name one file

## Main statements

* `Invocation.ofWords_append` — flags add a log and nothing else to what words ask for
* `Invocation.requestOf_eq_dump_iff` — a dump is requested by words that name a file
-/

namespace LoxLexis

/-- The flags that switch the log on. -/
def verboseFlags : List Text := ["-v".toList, "--verbose".toList]

/-- The words that have another meaning than a file when they come first. -/
def reservedWords : List Text :=
  verboseFlags ++ ["-h".toList, "--help".toList, "--version".toList, "tokenize".toList]

/-- Words that do not begin with a flag for the log. -/
def Unflagged (words : List Text) : Prop := ∀ w ∈ words.head?, w ∉ verboseFlags

/-- Words that name one file. -/
inductive NamesFile : List Text → Text → Prop
  | alone {name : Text} (h : name ∉ reservedWords) : NamesFile [name] name
  | afterDump (name : Text) : NamesFile ["tokenize".toList, name] name

theorem NamesFile.unflagged {words : List Text} {name : Text} (h : NamesFile words name) :
    Unflagged words := by
  intro w hw
  cases h with
  | alone free =>
      obtain rfl := Option.some.inj hw
      exact fun flag => free (List.mem_append_left _ flag)
  | afterDump name =>
      obtain rfl := Option.some.inj hw
      decide

namespace Invocation

theorem isVerboseFlag_iff {w : Text} : isVerboseFlag w = true ↔ w ∈ verboseFlags := by
  rw [isVerboseFlag, Bool.or_eq_true, decide_eq_true_iff, decide_eq_true_iff]
  simp only [verboseFlags, List.mem_cons, List.not_mem_nil, or_false]

theorem isHelpFlag_iff {w : Text} : isHelpFlag w = true ↔ w = "-h".toList ∨ w = "--help".toList := by
  rw [isHelpFlag, Bool.or_eq_true, decide_eq_true_iff, decide_eq_true_iff]

theorem head?_any_of_unflagged {words : List Text} (h : Unflagged words) :
    words.head?.any isVerboseFlag = false := by
  cases words with
  | nil => rfl
  | cons w words =>
      have free : w ∉ verboseFlags := h w rfl
      exact Bool.eq_false_iff.mpr fun flag => free (isVerboseFlag_iff.mp flag)

/-- **Flags add a log and nothing else to what words ask for.** -/
theorem ofWords_append {flags words : List Text} (hf : ∀ f ∈ flags, f ∈ verboseFlags)
    (hw : Unflagged words) :
    ofWords (flags ++ words) = { verbose := !flags.isEmpty, request := requestOf words } := by
  have stop := head?_any_of_unflagged hw
  have skipped : (flags ++ words).dropWhile isVerboseFlag = words :=
    dropWhile_append_of_head (fun f h => isVerboseFlag_iff.mpr (hf f h)) stop
  have first : (flags ++ words).head?.any isVerboseFlag = !flags.isEmpty := by
    cases flags with
    | nil => exact stop
    | cons f flags => exact isVerboseFlag_iff.mpr (hf f List.mem_cons_self)
  rw [ofWords, skipped, first]

/-- A request is made by the first word, if that is reserved, and else by all words. -/
theorem requestOf_of_notMem {w : Text} (h : w ∉ reservedWords) (words : List Text) :
    requestOf (w :: words) = dumpRequest (w :: words) := by
  simp only [reservedWords, List.mem_append, List.mem_cons, List.not_mem_nil, or_false,
    not_or] at h
  obtain ⟨-, short, long, version, dump⟩ := h
  have help : ¬ isHelpFlag w = true := by
    rw [isHelpFlag_iff]
    rintro (rfl | rfl)
    · exact short rfl
    · exact long rfl
  have version : ¬ w = versionFlag := version
  have dump : ¬ w = dumpWord := dump
  rw [requestOf, if_neg help, if_neg version, if_neg dump]

theorem requestOf_of_names {words : List Text} {name : Text} (h : NamesFile words name) :
    requestOf words = .dump (Path.ofText name) := by
  cases h with
  | alone free => exact requestOf_of_notMem free []
  | afterDump name => rfl

/-- **A dump is requested by words that name a file, and by no others.** -/
theorem requestOf_eq_dump_iff {words : List Text} (hw : Unflagged words) {path : Path} :
    requestOf words = .dump path ↔ ∃ name, NamesFile words name ∧ path = Path.ofText name := by
  constructor
  · intro requested
    cases words with
    | nil => cases requested
    | cons w words =>
        by_cases reserved : w ∈ reservedWords
        · have flag : w ∉ verboseFlags := hw w rfl
          simp only [reservedWords, List.mem_append, List.mem_cons, List.not_mem_nil,
            or_false] at reserved
          rcases reserved with reserved | rfl | rfl | rfl | rfl
          · exact absurd reserved flag
          · cases requested
          · cases requested
          · cases requested
          · -- After the word for a token dump exactly one word has to follow.
            match words with
            | [] => cases requested
            | [name] => exact ⟨name, .afterDump name, (Request.dump.inj requested).symm⟩
            | _ :: _ :: _ => cases requested
        · rw [requestOf_of_notMem reserved] at requested
          cases words with
          | nil => exact ⟨w, .alone reserved, (Request.dump.inj requested).symm⟩
          | cons _ _ => cases requested
  · rintro ⟨name, names, rfl⟩
    exact requestOf_of_names names

theorem requestOf_ne_prompt {words : List Text} (h : words ≠ []) : requestOf words ≠ .prompt := by
  have dump (words : List Text) : dumpRequest words ≠ .prompt := by
    match words with
    | [] => exact nofun
    | [_] => exact nofun
    | _ :: _ :: _ => exact nofun
  cases words with
  | nil => exact absurd rfl h
  | cons w words =>
      rw [requestOf]
      split
      · exact nofun
      · split
        · exact nofun
        · split
          · exact dump _
          · exact dump _

end Invocation

namespace Command

/-- A run with flags carries out the request of the words after them. -/
theorem run_append {flags words : List Text} (hf : ∀ f ∈ flags, f ∈ verboseFlags)
    (hw : Unflagged words) (files : Path → Lookup) (input : Text) :
    run files input (flags ++ words) =
      carryOut files input
        { verbose := !flags.isEmpty, request := Invocation.requestOf words } := by
  rw [run, Invocation.ofWords_append hf hw]

end Command

end LoxLexis

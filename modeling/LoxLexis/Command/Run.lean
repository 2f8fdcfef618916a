import LoxLexis.Command.Console
import LoxLexis.Command.Invocation
import LoxLexis.Text.Lines
import LoxLexis.Text.Utf8

/-!
# Runs of the command

A run carries out what its words ask for, given what the file system answers and the text on
standard input, and leaves an outcome.

## Main definitions

* `Status` — how a run ends
* `Interruption` — what cuts a run short
* `Outcome` — the end of a run and what it has written
* `Command.dumpBytes` — dump the tokens of a file with given bytes
* `Command.dumpPath` — dump the tokens of what a path denotes
* `Command.prompt` — dump the tokens of each line of a text
* `Command.run` — a run of the command

## Design notes

Line ends become line feeds before anything is scanned, in files and at the prompt alike.  The
bytes of a file are decoded as a whole before its scan begins, so a file that is not well formed
shows no token.  A run has one console from its beginning to its end, and a conversation answers
all its lines with it.

Paths that are too long are the one refusal of a file system that a run passes on.  For any other
failure of it there is no `Lookup`, and so no outcome.
-/

namespace LoxLexis

/-- How a run ends that is not cut short. -/
inductive Status
  | success
  /-- The words make no request. -/
  | usage
  /-- The file has lexical errors. -/
  | dataError
  | noInput
  deriving DecidableEq

def Status.code : Status → Nat
  | .success => 0
  | .usage => 64
  | .dataError => 65
  | .noInput => 66

/-- What cuts a run short. -/
inductive Interruption
  /-- The bytes of the file are not well formed. -/
  | illFormed (fault : Utf8.Fault)
  /-- The file system refuses the path for its length. -/
  | pathTooLong (path : Path)
  deriving DecidableEq

def Interruption.message : Interruption → Text
  | .illFormed fault => fault.message
  | .pathTooLong path => "[Errno 36] File name too long: ".toList ++ Text.quoted path.display

/-- The end of a run and what it has written. -/
structure Outcome where
  /-- How the run ends, or what cuts it short. -/
  ending : Except Interruption Status
  stdout : Text
  /-- The lines written to standard error. -/
  notices : List Notice

/-- The outcome of a run that ends with a console. -/
def Console.outcome (c : Console) (ending : Except Interruption Status) : Outcome where
  ending := ending
  stdout := c.stdout
  notices := c.notices

/-- What is written to standard error, where the run itself logs to the channel given. -/
def Outcome.stderr (channel : Text) (o : Outcome) : Text :=
  Text.ofLines (o.notices.map (Notice.display channel))

namespace Command

def version : Text := "0.1.0".toList

def usage : List Text :=
  [ "Lox scanner CLI entry point.".toList,
    [],
    "Usage:".toList,
    "    lox                          Start an interactive prompt".toList,
    "    lox <file.lox>               Display the token stream of a file".toList,
    "    lox tokenize <file.lox>      Same as above".toList,
    "    lox -v ...                   Enable debug logging".toList ]

def spaced (words : List Text) : Text := (words.intersperse [' ']).flatten

/-- A run that ends with lines on standard output only. -/
def saying (status : Status) (lines : List Text) : Outcome where
  ending := .ok status
  stdout := Text.ofLines lines
  notices := []

/-- The outcome of a run whose last dump has left a console. -/
def dumped (c : Console) : Outcome :=
  c.outcome (.ok (if c.sink.hadError then .dataError else .success))

/-- Dump the tokens of a file with the given bytes. -/
def dumpBytes (verbose : Bool) (path : Path) (bytes : List UInt8) : Outcome :=
  -- The file is named in the log before its bytes are looked into.
  let opened := (Console.new verbose).log (.scanning path)
  match Utf8.decode bytes with
  | .error fault => opened.outcome (.error (.illFormed fault))
  | .ok text => dumped (opened.dump (Text.withLineFeeds text))

/-- Dump the tokens of each line of a text, with a prompt before each line and one more at the
end. -/
def prompt (verbose : Bool) (input : Text) : Outcome :=
  let lines := Text.splitLines (Text.withLineFeeds input)
  -- A report does not end the conversation, and the end of the input is answered by an empty line.
  ((Console.atPrompt verbose lines).print (promptMark ++ ['\n'])).outcome (.ok .success)

/-- Dump the tokens of what a path denotes. -/
def dumpPath (verbose : Bool) (path : Path) : Lookup → Outcome
  | .file bytes => dumpBytes verbose path bytes
  | .missing => saying .noInput ["Error: file not found: ".toList ++ path.display]
  | .tooLong => { ending := .error (.pathTooLong path), stdout := [], notices := [] }

/-- Carry out an invocation, given what the file system answers and the text on standard input. -/
def carryOut (lookUp : Path → Lookup) (input : Text) (i : Invocation) : Outcome :=
  match i.request with
  | .prompt => prompt i.verbose input
  | .usage => saying .success usage
  | .version => saying .success ["lox ".toList ++ version]
  | .missingFile =>
    saying .usage
      ["Error: command '".toList ++ Invocation.dumpWord ++ "' requires a file argument".toList]
  | .surplus words =>
    saying .usage (("Error: unexpected arguments: ".toList ++ spaced words) :: usage)
  | .dump path => dumpPath i.verbose path (lookUp path)

/-- A run of the command with some words. -/
def run (lookUp : Path → Lookup) (input : Text) (words : List Text) : Outcome :=
  carryOut lookUp input (Invocation.ofWords words)

end Command

end LoxLexis

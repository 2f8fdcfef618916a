import LoxLexis.Command.Run

/-!
# The command

The outer layer of the program: it reads the words of the command line, the file they name or the
lines of standard input, and writes the outcome of the run.

## Main definitions

* `main` — the program

## Design notes

A run looks up at most one path, so that is done before the run and the run is given the answer.  Where
the file system fails to answer, since access is denied or a device breaks down, the program ends with
the error of the file system.  What can be read counts as a regular file.

At the prompt each line is answered as soon as it has come in, a turn of `Console.turn` for each.  The
turns and the prompts between them are what `Command.prompt` writes for the whole input; that is
`Command.prompt_eq_turns`.
-/

namespace LoxLexis.Command

def channel : Text := "lox.cli".toList

/-- The error number of a file system that refuses a path for its length, which may come negated. -/
def isTooLongNumber (number : UInt32) : Bool := number = 36 || number = 0 - 36

/-- The error numbers of what is no file and of links that lead nowhere, which may come negated. -/
def isMissingNumber (number : UInt32) : Bool :=
  number = 9 || number = 0 - 9 || number = 40 || number = 0 - 40

/-- What the file system answers to a path. -/
def lookUp (path : Path) : IO Lookup := do
  if path.holdsNull then return .missing
  try
    let bytes ← IO.FS.readBinFile (String.ofList path.display)
    return .file bytes.toList
  catch
    | .noFileOrDirectory _ _ _ => return .missing
    -- A directory, or a path that goes on after a file.
    | .inappropriateType _ _ _ => return .missing
    | .invalidArgument file number details =>
      if isTooLongNumber number then return .tooLong
      else if isMissingNumber number then return .missing
      else throw (.invalidArgument file number details)
    | refusal => throw refusal

def write (o : Outcome) : IO Unit := do
  IO.print (String.ofList o.stdout)
  IO.eprint (String.ofList (o.stderr channel))

def writeMark : IO Unit := do
  IO.print (String.ofList promptMark)
  (← IO.getStdout).flush

/-- Answer the lines of standard input as they come in, the first prompt being written. -/
partial def converse (console : Console) (input : IO.FS.Stream) : IO Unit := do
  let read ← input.getLine
  if read.isEmpty then IO.println ""
  else
    let mut console := console
    for line in Text.splitLines (Text.withLineFeeds read.toList) do
      console := console.turn line
      write (console.outcome (.ok .success))
      writeMark
    converse console input

/-- Write the outcome of a run and answer its exit code. -/
def finish (o : Outcome) : IO UInt32 := do
  write o
  match o.ending with
  | .ok status => return UInt32.ofNat status.code
  | .error interruption =>
    IO.eprintln (String.ofList interruption.message)
    return 1

/-- The program, given the words of its command line. -/
def start (words : List Text) : IO UInt32 := do
  let invocation := Invocation.ofWords words
  match invocation.request with
  | .prompt =>
    writeMark
    converse (Console.new invocation.verbose) (← IO.getStdin)
    return UInt32.ofNat Status.success.code
  | .dump path =>
    let found ← lookUp path
    finish (run (fun _ => found) [] words)
  | _ => finish (run (fun _ => .missing) [] words)

end LoxLexis.Command

def main (arguments : List String) : IO UInt32 :=
  LoxLexis.Command.start (arguments.map String.toList)

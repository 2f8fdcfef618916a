import LoxLexis.Command.Path

/-!
# Invocations

The words of a command line say what is to be done, and whether a log of it is wanted.

## Main definitions

* `Request` — what is to be done
* `Invocation` — a request, with or without a log
* `Invocation.ofWords` — what the words of a command line ask for

## Design notes

Only words in front of the request switch the log on.  A request for help or for the version
disregards the words after it; the word for a token dump may be left out, and then the first word
is the file, however it looks.
-/

namespace LoxLexis

/-- What is to be done. -/
inductive Request
  /-- Prompt for lines and dump the tokens of each. -/
  | prompt
  | usage
  | version
  /-- Dump the tokens of a file. -/
  | dump (path : Path)
  /-- Nothing, since no file is named. -/
  | missingFile
  /-- Nothing, since more than one file is named. -/
  | surplus (words : List Text)
  deriving DecidableEq

/-- A request, with or without a log. -/
structure Invocation where
  verbose : Bool
  request : Request
  deriving DecidableEq

namespace Invocation

def isVerboseFlag (word : Text) : Bool := word = "-v".toList || word = "--verbose".toList

def isHelpFlag (word : Text) : Bool := word = "-h".toList || word = "--help".toList

def versionFlag : Text := "--version".toList

def dumpWord : Text := "tokenize".toList

def dumpRequest : List Text → Request
  | [] => .missingFile
  | [file] => .dump (Path.ofText file)
  | _ :: surplus => .surplus surplus

/-- The request of the words after the flags for the log. -/
def requestOf : List Text → Request
  | [] => .prompt
  | word :: words =>
    if isHelpFlag word then .usage
    else if word = versionFlag then .version
    else if word = dumpWord then dumpRequest words
    else dumpRequest (word :: words)

/-- What the words of a command line ask for. -/
def ofWords (words : List Text) : Invocation where
  verbose := words.head?.any isVerboseFlag
  request := requestOf (words.dropWhile isVerboseFlag)

end Invocation

end LoxLexis

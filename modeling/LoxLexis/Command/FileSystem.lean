import LoxLexis.Command.Path

/-!
# File systems

A file system has a directory at its root, and every other entry stands in a directory.  An entry is
found at a place, which is the list of the names that lead to it from the root.  A program runs in one
of the directories, and that is where relative paths begin.

## Main definitions

* `FileSystem.Entry` — a directory, or a regular file with its bytes
* `FileSystem` — what stands at which place, and where a program runs
* `FileSystem.lookUp` — what a path denotes in a file system

## Design notes

That there is one entry at a place, that it stands in a directory and has a name that a directory can
hold goes into the type.  A path is followed from directory to directory, and every component has to
be looked up in one, also a component that a double dot leaves again.  The directory above the root is
the root itself.

There are no links and no entries besides files and directories, and nothing is refused for want of
permission.
-/

namespace LoxLexis

/-- A name that a directory can hold.  The dots stand for the directory itself and the one above. -/
def Path.isName (name : Text) : Bool :=
  name ≠ [] && name ≠ ['.'] && name ≠ ['.', '.'] && !name.contains '/' && !name.contains Path.null &&
    !Path.nameIsTooLong name

/-- What stands at a place. -/
inductive FileSystem.Entry
  | directory
  | file (bytes : List UInt8)
  deriving DecidableEq

/-- What stands at which place, and where a program runs. -/
structure FileSystem where
  entry : List Text → Option FileSystem.Entry
  /-- The place of the directory that a program runs in. -/
  home : List Text
  home_directory : entry home = some .directory
  /-- Every entry but the root stands in a directory. -/
  held : ∀ place name, (entry (place ++ [name])).isSome → entry place = some .directory
  named : ∀ place name, (entry (place ++ [name])).isSome → Path.isName name = true

namespace FileSystem

def isDirectory (s : FileSystem) (place : List Text) : Bool := s.entry place = some .directory

/-- Where a path begins. -/
def start (s : FileSystem) : Anchor → List Text
  | .relative => s.home
  | .root => []
  | .doubleRoot => []

/-- The place that a component leads to from a directory. -/
def toward (place : List Text) (name : Text) : List Text :=
  if name = ['.', '.'] then place.dropLast else place ++ [name]

/-- What stands at a place, as it is answered to a path. -/
def answer (s : FileSystem) (place : List Text) : Lookup :=
  match s.entry place with
  | some (.file bytes) => .file bytes
  | _ => .missing

/-- What the components of a path lead to from a place. -/
def follow (s : FileSystem) (place : List Text) : List Text → Lookup
  | [] => s.answer place
  | name :: names =>
    if !s.isDirectory place then .missing
    else if Path.nameIsTooLong name then .tooLong
    else s.follow (toward place name) names

/-- What a path denotes. -/
def lookUp (s : FileSystem) (p : Path) : Lookup :=
  if p.holdsNull then .missing
  else if p.isTooLong then .tooLong
  else s.follow (s.start p.anchor) p.components

end FileSystem

end LoxLexis

import LoxLexis.Text.Utf8

/-!
# Paths

A path is read without looking at any file: empty and dot components are dropped, so that
trailing and repeated slashes do not matter, while a double dot stays for the file tree to resolve.

## Main definitions

* `Path` — where a path begins, and its components
* `Path.ofText` — the path a text denotes
* `Path.display` — a path in normal form
* `Path.isTooLong`, `Path.nameIsTooLong` — what a file system refuses for its length
* `Lookup` — what a file system answers to a path

## Design notes

A file system counts bytes.  A path is refused as a whole before any of it is looked up, and so is
one with the null character, which no file name holds.  A component is refused only when it is
looked up in a directory, so one that comes after a missing directory does no harm.

Only what a file system can answer is a `Lookup`.  It may also fail to answer, since access is denied or
a device breaks down.  A run does not go on from such a failure, and what it leaves then is not told
here.
-/

namespace LoxLexis

/-- The pieces of a text between separators; there is one more piece than separators. -/
def Text.splitBy (separator : Char) (t : Text) : List Text :=
  -- The pieces are built from the end of the text, and a character joins the latest of them.
  t.foldr
    (fun c pieces =>
      if c = separator then [] :: pieces
      else
        match pieces with
        | [] => [[c]]
        | piece :: pieces => (c :: piece) :: pieces)
    [[]]

/-- Where a path begins. -/
inductive Anchor
  | relative
  | root
  /-- At the root written with exactly two slashes, which are kept. -/
  | doubleRoot
  deriving DecidableEq

/-- The anchor of a path, by the slashes at its front. -/
def Anchor.ofText : Text → Anchor
  | '/' :: '/' :: '/' :: _ => .root
  | '/' :: '/' :: _ => .doubleRoot
  | '/' :: _ => .root
  | _ => .relative

def Anchor.display : Anchor → Text
  | .relative => []
  | .root => ['/']
  | .doubleRoot => ['/', '/']

/-- A path in normal form. -/
structure Path where
  anchor : Anchor
  /-- Its components, none of them empty or a single dot. -/
  components : List Text
  deriving DecidableEq

namespace Path

/-- The path a text denotes. -/
def ofText (t : Text) : Path where
  anchor := Anchor.ofText t
  components := (Text.splitBy '/' t).filter fun component => component ≠ [] ∧ component ≠ ['.']

/-- A path in normal form; the path of the present directory is a dot. -/
def display (p : Path) : Text :=
  let components := (p.components.intersperse ['/']).flatten
  if p.anchor = .relative ∧ components = [] then ['.'] else p.anchor.display ++ components

/-- The null character, which ends a path for a file system. -/
def null : Char := '\x00'

/-- A path that holds the null character denotes no file. -/
def holdsNull (p : Path) : Bool := p.components.any fun component => component.contains null

/-- A path has to fit into 4096 bytes together with the null character that ends it. -/
def isTooLong (p : Path) : Bool := 4096 ≤ Utf8.byteCount p.display

def nameIsTooLong (name : Text) : Bool := 255 < Utf8.byteCount name

end Path

/-- What a file system answers to a path. -/
inductive Lookup
  /-- The path denotes a regular file with these bytes. -/
  | file (bytes : List UInt8)
  /-- The path denotes no regular file. -/
  | missing
  /-- The path, or a component that has to be looked up, is too long. -/
  | tooLong
  deriving DecidableEq

theorem Lookup.eq_missing_iff {found : Lookup} :
    found = .missing ↔ (∀ bytes, found ≠ .file bytes) ∧ found ≠ .tooLong := by
  cases found with
  | missing => exact iff_of_true rfl ⟨by rintro bytes ⟨⟩, by rintro ⟨⟩⟩
  | file bytes => exact iff_of_false (by rintro ⟨⟩) fun h => h.1 bytes rfl
  | tooLong => exact iff_of_false (by rintro ⟨⟩) fun h => h.2 rfl

end LoxLexis

import LoxLexis.Command.FileSystem

/-!
# File trees

A file tree lists what has been put into a fresh directory for a program to run in.  The file system
around it holds the tree, the directories that lead to it, and nothing else.

## Main definitions

* `FileTree` — a list of files with their bytes, and one of directories
* `FileTree.system` — the file system that holds a tree
* `FileTree.lookUp` — what a path denotes in it

## Design notes

Any two lists make a tree.  A place that holds another is a directory, and so is one that is listed as
a directory; a file that is listed at such a place is not there.  Neither is what is listed below a
name that no directory can hold.
-/

namespace LoxLexis

/-- The files and directories put into a directory, by their places below it. -/
structure FileTree where
  files : List (List Text × List UInt8)
  /-- The directories that need not hold a file. -/
  directories : List (List Text)
  deriving DecidableEq

namespace FileTree

variable (t : FileTree)

/-- A place below the fresh directory is a directory: it is the top, or it is listed, or it holds a
listed directory or a file. -/
def isDirectory (names : List Text) : Bool :=
  names.isEmpty ||
    t.directories.any (fun d => names.isPrefixOf d) ||
    t.files.any fun f => names.isPrefixOf f.1 && names.length < f.1.length

/-- What stands at a place below the fresh directory. -/
def below (names : List Text) : Option FileSystem.Entry :=
  if !names.all Path.isName then none
  else if t.isDirectory names then some .directory
  else (t.files.lookup names).map .file

/-- The place of the fresh directory. -/
def top : List Text := ["tmp".toList, "run".toList]

/-- What stands at a place of the file system that holds the tree. -/
def entry (place : List Text) : Option FileSystem.Entry :=
  if place.isPrefixOf top then some .directory
  else if top.isPrefixOf place then t.below (place.drop top.length)
  else none

variable {t} {names : List Text} {name : Text}

theorem isDirectory_iff :
    t.isDirectory names = true ↔
      names = [] ∨ (∃ d ∈ t.directories, names <+: d) ∨
        ∃ f ∈ t.files, names <+: f.1 ∧ names.length < f.1.length := by
  simp only [isDirectory, Bool.or_eq_true, List.isEmpty_iff, List.any_eq_true, Bool.and_eq_true,
    List.isPrefixOf_iff_prefix, decide_eq_true_eq, or_assoc]

/-- What holds a directory is a directory. -/
theorem isDirectory_of_concat (h : t.isDirectory (names ++ [name]) = true) :
    t.isDirectory names = true := by
  have front : names <+: names ++ [name] := List.prefix_append names [name]
  rw [isDirectory_iff] at h ⊢
  rcases h with none | ⟨d, hd, inside⟩ | ⟨f, hf, inside, shorter⟩
  · exact absurd none (List.append_ne_nil_of_right_ne_nil names (List.cons_ne_nil name []))
  · exact .inr (.inl ⟨d, hd, front.trans inside⟩)
  · refine .inr (.inr ⟨f, hf, front.trans inside, ?_⟩)
    rw [List.length_append] at shorter
    exact Nat.lt_of_le_of_lt (Nat.le_add_right _ _) shorter

/-- What holds a file is a directory. -/
theorem isDirectory_of_lookup (h : (t.files.lookup (names ++ [name])).isSome = true) :
    t.isDirectory names = true := by
  obtain ⟨bytes, found⟩ := Option.isSome_iff_exists.mp h
  have listed : (names ++ [name], bytes) ∈ t.files := by
    obtain ⟨before, after, split, -⟩ := List.lookup_eq_some_iff.mp found
    rw [split]
    exact List.mem_append_right before List.mem_cons_self
  rw [isDirectory_iff]
  refine .inr (.inr ⟨_, listed, List.prefix_append names [name], ?_⟩)
  rw [List.length_append]
  exact Nat.lt_succ_self names.length

/-- What stands below the fresh directory has a name, and stands in a directory. -/
theorem below_concat (h : (t.below (names ++ [name])).isSome = true) :
    Path.isName name = true ∧ t.below names = some .directory := by
  rw [below, List.all_append, List.all_cons, List.all_nil, Bool.and_true] at h
  cases valid : names.all Path.isName && Path.isName name with
  | false =>
      rw [valid] at h
      cases h
  | true =>
      obtain ⟨others, last⟩ := Bool.and_eq_true_iff.mp valid
      have directory : t.isDirectory names = true := by
        cases inside : t.isDirectory (names ++ [name]) with
        | true => exact isDirectory_of_concat inside
        | false =>
            rw [valid, inside] at h
            exact isDirectory_of_lookup (by simpa using h)
      rw [below, others, directory]
      exact ⟨last, rfl⟩

theorem entry_of_prefix {place : List Text} (h : place <+: top) :
    t.entry place = some .directory := by
  rw [entry, if_pos (List.isPrefixOf_iff_prefix.mpr h)]

theorem entry_top_append (t : FileTree) (names : List Text) :
    t.entry (top ++ names) = t.below names := by
  cases names with
  | nil => rfl
  | cons name names =>
      have longer : ¬ (top ++ name :: names).isPrefixOf top = true := by
        intro h
        have short := (List.isPrefixOf_iff_prefix.mp h).length_le
        rw [List.length_append, List.length_cons] at short
        omega
      have inside : top.isPrefixOf (top ++ name :: names) = true :=
        List.isPrefixOf_iff_prefix.mpr (List.prefix_append top _)
      rw [entry, if_neg longer, if_pos inside, List.drop_left]

/-- An entry has a name, and stands in a directory. -/
theorem entry_concat {place : List Text} (h : (t.entry (place ++ [name])).isSome = true) :
    Path.isName name = true ∧ t.entry place = some .directory := by
  by_cases above : place ++ [name] <+: top
  · have named : ∀ n ∈ top, Path.isName n = true := by decide +kernel
    have last : name ∈ place ++ [name] := List.mem_append_right place List.mem_cons_self
    exact ⟨named name (above.subset last),
      entry_of_prefix ((List.prefix_append place [name]).trans above)⟩
  · by_cases inside : top <+: place ++ [name]
    · -- The fresh directory holds the entry, and not the other way round.
      have holds : top <+: place := by
        rcases List.prefix_concat_iff.mp inside with same | holds
        · exact absurd (same ▸ List.prefix_refl top) above
        · exact holds
      obtain ⟨names, rfl⟩ := holds
      rw [List.append_assoc, entry_top_append] at h
      rw [entry_top_append]
      exact below_concat h
    · rw [entry, if_neg (mt List.isPrefixOf_iff_prefix.mp above),
        if_neg (mt List.isPrefixOf_iff_prefix.mp inside)] at h
      cases h

/-- The file system that holds a tree, for a program that runs in its fresh directory. -/
def system (t : FileTree) : FileSystem where
  entry := t.entry
  home := top
  home_directory := entry_of_prefix (List.prefix_refl top)
  held := fun _ _ h => (entry_concat h).2
  named := fun _ _ h => (entry_concat h).1

/-- What a path denotes in the file system that holds a tree. -/
def lookUp (t : FileTree) (p : Path) : Lookup := t.system.lookUp p

end FileTree

end LoxLexis

import LoxLexis.Command.FileSystem

/-!
# Walks through a file system

Looking a path up is a walk from directory to directory.  Each component takes the walk one place
further, and it may do so only from a directory; where the walk ends there has to be a file.  A walk
comes to a stop at a component that is too long to be looked up, but only if it gets there: after a
missing directory no component is looked at any more.

Without double dots a walk goes down only.  Then there is nothing to follow: since entries stand in
directories and have names that are short enough, the walk gets to whatever stands at its end.

## Main definitions

* `FileSystem.Walks` — the components of a path lead from one place to another
* `FileSystem.Denotes` — a path denotes a regular file with some bytes
* `FileSystem.Refuses` — a path is refused for its length

## Main statements

* `FileSystem.lookUp_eq_file_iff` — a file is found where a path denotes one
* `FileSystem.lookUp_eq_tooLong_iff` — a path is found too long where it is refused
* `FileSystem.lookUp_eq_missing_iff` — nothing is found where a path neither denotes a file nor is refused
* `FileSystem.denotes_iff_of_descends` — without double dots a path denotes what stands at its place
-/

namespace LoxLexis

namespace FileSystem

variable {s : FileSystem} {place : List Text} {name : Text} {names : List Text}

/-- The components of a path lead from one place to another. -/
inductive Walks (s : FileSystem) : List Text → List Text → List Text → Prop
  | here (place : List Text) : Walks s place [] place
  | onward {place target names : List Text} {name : Text}
    (directory : s.isDirectory place = true) (short : Path.nameIsTooLong name = false)
    (later : Walks s (toward place name) names target) : Walks s place (name :: names) target

/-- The components of a path lead to a directory, and the next one is too long to be looked up. -/
def Stops (s : FileSystem) (place names : List Text) : Prop :=
  ∃ before name after target, names = before ++ name :: after ∧ s.Walks place before target ∧
    s.isDirectory target = true ∧ Path.nameIsTooLong name = true

/-- A path denotes a regular file with some bytes. -/
structure Denotes (s : FileSystem) (p : Path) (bytes : List UInt8) : Prop where
  nameable : p.holdsNull = false
  short : p.isTooLong = false
  /-- There is a file where the components lead. -/
  found : ∃ place, s.Walks (s.start p.anchor) p.components place ∧
    s.entry place = some (.file bytes)

/-- A path is refused for its length, as a whole or for one of its components. -/
structure Refuses (s : FileSystem) (p : Path) : Prop where
  nameable : p.holdsNull = false
  long : p.isTooLong = true ∨ s.Stops (s.start p.anchor) p.components

/-! ### Places and what stands there -/

theorem isDirectory_iff : s.isDirectory place = true ↔ s.entry place = some .directory := by
  rw [isDirectory, decide_eq_true_iff]

theorem answer_eq_file_iff {bytes : List UInt8} :
    s.answer place = .file bytes ↔ s.entry place = some (.file bytes) := by
  rw [answer]
  split
  · next other found =>
      rw [found, Lookup.file.injEq, Option.some.injEq, Entry.file.injEq]
  · next none =>
      exact iff_of_false (by rintro ⟨⟩) (none bytes)

theorem answer_ne_tooLong (s : FileSystem) (place : List Text) : s.answer place ≠ .tooLong := by
  intro refused
  rw [answer] at refused
  split at refused
  · cases refused
  · cases refused

/-- Every place on the way to an entry is a directory. -/
theorem entry_of_append (h : (s.entry (place ++ name :: names)).isSome = true) :
    s.entry place = some .directory := by
  induction names generalizing place name with
  | nil => exact s.held place name h
  | cons next names ih =>
      have onward : (s.entry ((place ++ [name]) ++ next :: names)).isSome = true := by
        rwa [List.append_assoc]
      exact s.held place name (Option.isSome_iff_exists.mpr ⟨_, ih onward⟩)

/-! ### Steps of a walk -/

theorem follow_of_not_directory (h : s.isDirectory place = false) :
    s.follow place (name :: names) = .missing := by
  rw [follow, h]
  rfl

theorem follow_of_long (directory : s.isDirectory place = true)
    (long : Path.nameIsTooLong name = true) : s.follow place (name :: names) = .tooLong := by
  rw [follow, directory, long]
  rfl

theorem follow_of_short (directory : s.isDirectory place = true)
    (short : Path.nameIsTooLong name = false) :
    s.follow place (name :: names) = s.follow (toward place name) names := by
  rw [follow, directory, short]
  rfl

/-! ### Walks -/

/-- Along a walk the look-up goes on from the place that is reached. -/
theorem Walks.follow_append {target before : List Text} (walk : s.Walks place before target)
    (after : List Text) : s.follow place (before ++ after) = s.follow target after := by
  induction walk with
  | here place => rfl
  | onward directory short later ih => rw [List.cons_append, follow_of_short directory short, ih]

theorem Walks.follow_eq {target : List Text} (walk : s.Walks place names target) :
    s.follow place names = s.answer target := by
  have followed := walk.follow_append []
  rw [List.append_nil] at followed
  exact followed

theorem Stops.follow_eq (stops : s.Stops place names) : s.follow place names = .tooLong := by
  obtain ⟨before, name, after, target, rfl, walk, directory, long⟩ := stops
  rw [walk.follow_append, follow_of_long directory long]

/-- Components lead somewhere, or come to a directory that is missing, or to a component that is too
long. -/
theorem walks_or_stops (s : FileSystem) (place names : List Text) :
    (∃ target, s.Walks place names target) ∨ s.Stops place names ∨
      s.follow place names = .missing := by
  induction names generalizing place with
  | nil => exact .inl ⟨place, .here place⟩
  | cons name names ih =>
      cases directory : s.isDirectory place with
      | false => exact .inr (.inr (follow_of_not_directory directory))
      | true =>
          cases short : Path.nameIsTooLong name with
          | true => exact .inr (.inl ⟨[], name, names, place, rfl, .here place, directory, short⟩)
          | false =>
              rcases ih (toward place name) with ⟨target, walk⟩ | stops | missing
              · exact .inl ⟨target, .onward directory short walk⟩
              · obtain ⟨before, long, after, target, rfl, walk, last, tooLong⟩ := stops
                exact .inr (.inl ⟨name :: before, long, after, target, rfl,
                  .onward directory short walk, last, tooLong⟩)
              · refine .inr (.inr ?_)
                rw [follow_of_short directory short]
                exact missing

theorem follow_eq_file_iff {bytes : List UInt8} :
    s.follow place names = .file bytes ↔
      ∃ target, s.Walks place names target ∧ s.entry target = some (.file bytes) := by
  constructor
  · intro found
    rcases walks_or_stops s place names with ⟨target, walk⟩ | stops | missing
    · exact ⟨target, walk, answer_eq_file_iff.mp (walk.follow_eq.symm.trans found)⟩
    · rw [stops.follow_eq] at found
      cases found
    · rw [missing] at found
      cases found
  · rintro ⟨target, walk, found⟩
    exact walk.follow_eq.trans (answer_eq_file_iff.mpr found)

theorem follow_eq_tooLong_iff : s.follow place names = .tooLong ↔ s.Stops place names := by
  constructor
  · intro refused
    rcases walks_or_stops s place names with ⟨target, walk⟩ | stops | missing
    · exact absurd (walk.follow_eq.symm.trans refused) (s.answer_ne_tooLong target)
    · exact stops
    · rw [missing] at refused
      cases refused
  · exact Stops.follow_eq

/-! ### Paths -/

theorem lookUp_of_nameable {p : Path} (nameable : p.holdsNull = false) (short : p.isTooLong = false) :
    s.lookUp p = s.follow (s.start p.anchor) p.components := by
  rw [lookUp, nameable, short]
  rfl

/-- **A file is found where a path denotes one.** -/
theorem lookUp_eq_file_iff {p : Path} {bytes : List UInt8} :
    s.lookUp p = .file bytes ↔ s.Denotes p bytes := by
  constructor
  · intro found
    cases null : p.holdsNull with
    | true =>
        rw [lookUp, null] at found
        cases found
    | false =>
        cases long : p.isTooLong with
        | true =>
            rw [lookUp, null, long] at found
            cases found
        | false =>
            rw [lookUp_of_nameable null long] at found
            exact ⟨null, long, follow_eq_file_iff.mp found⟩
  · intro denotes
    rw [lookUp_of_nameable denotes.nameable denotes.short]
    exact follow_eq_file_iff.mpr denotes.found

/-- **A path is found too long where it is refused.** -/
theorem lookUp_eq_tooLong_iff {p : Path} : s.lookUp p = .tooLong ↔ s.Refuses p := by
  cases null : p.holdsNull with
  | true =>
      refine iff_of_false (fun found => ?_) fun refuses => ?_
      · rw [lookUp, null] at found
        cases found
      · exact Bool.false_ne_true (refuses.nameable.symm.trans null)
  | false =>
      cases long : p.isTooLong with
      | true =>
          refine iff_of_true ?_ ⟨null, .inl long⟩
          rw [lookUp, null, long]
          rfl
      | false =>
          rw [lookUp_of_nameable null long, follow_eq_tooLong_iff]
          refine ⟨fun stops => ⟨null, .inr stops⟩, fun refuses => ?_⟩
          exact refuses.long.resolve_left (by rw [long]; exact Bool.false_ne_true)

/-- **Nothing is found where a path neither denotes a file nor is refused.** -/
theorem lookUp_eq_missing_iff {p : Path} :
    s.lookUp p = .missing ↔ (∀ bytes, ¬ s.Denotes p bytes) ∧ ¬ s.Refuses p := by
  rw [Lookup.eq_missing_iff]
  simp only [ne_eq, lookUp_eq_file_iff, lookUp_eq_tooLong_iff]

/-! ### Going down -/

/-- What leads to an entry is made of names. -/
theorem isName_of_entry (h : (s.entry (place ++ names)).isSome = true) :
    ∀ name ∈ names, Path.isName name = true := by
  intro name hname
  obtain ⟨before, after, rfl⟩ := List.append_of_mem hname
  apply s.named (place ++ before) name
  cases after with
  | nil => rwa [List.append_assoc]
  | cons next after =>
      have onward : (s.entry ((place ++ before ++ [name]) ++ next :: after)).isSome = true := by
        simpa only [List.append_assoc, List.cons_append, List.nil_append] using h
      rw [entry_of_append onward]
      rfl

theorem nameIsTooLong_of_isName (h : Path.isName name = true) : Path.nameIsTooLong name = false := by
  rw [Path.isName, Bool.and_eq_true_iff] at h
  exact Bool.not_eq_true' _ ▸ h.2

theorem contains_null_of_isName (h : Path.isName name = true) : name.contains Path.null = false := by
  rw [Path.isName, Bool.and_eq_true_iff, Bool.and_eq_true_iff] at h
  exact Bool.not_eq_true' _ ▸ h.1.2

/-- Going down to what stands below a directory takes one step after another. -/
theorem follow_of_entry (descends : ∀ name ∈ names, name ≠ ['.', '.'])
    (h : (s.entry (place ++ names)).isSome = true) :
    s.follow place names = s.answer (place ++ names) := by
  induction names generalizing place with
  | nil => rw [List.append_nil, follow]
  | cons name names ih =>
      obtain ⟨down, later⟩ := List.forall_mem_cons.mp descends
      have onward : toward place name ++ names = place ++ name :: names := by
        rw [toward, if_neg down, List.append_assoc]
        rfl
      have directory : s.isDirectory place = true := isDirectory_iff.mpr (entry_of_append h)
      have short := nameIsTooLong_of_isName (isName_of_entry h name List.mem_cons_self)
      rw [← onward] at h ⊢
      rw [follow_of_short directory short, ih later h]

/-- Going down, a walk ends at the place that the components make. -/
theorem Walks.eq_append {target : List Text} (walk : s.Walks place names target)
    (descends : ∀ name ∈ names, name ≠ ['.', '.']) : target = place ++ names := by
  induction walk with
  | here place => exact (List.append_nil place).symm
  | onward directory short later ih =>
      obtain ⟨down, others⟩ := List.forall_mem_cons.mp descends
      rw [ih others, toward, if_neg down, List.append_assoc]
      rfl

/-- **Without double dots a path denotes the file that stands at its place.** -/
theorem denotes_iff_of_descends {p : Path} {bytes : List UInt8}
    (descends : ∀ name ∈ p.components, name ≠ ['.', '.']) :
    s.Denotes p bytes ↔
      p.isTooLong = false ∧ s.entry (s.start p.anchor ++ p.components) = some (.file bytes) := by
  constructor
  · intro denotes
    obtain ⟨target, walk, found⟩ := denotes.found
    rw [walk.eq_append descends] at found
    exact ⟨denotes.short, found⟩
  · rintro ⟨short, found⟩
    have stands : (s.entry (s.start p.anchor ++ p.components)).isSome = true := by
      rw [found]
      rfl
    have nameable : p.holdsNull = false := by
      rw [Path.holdsNull, List.any_eq_false]
      intro name hname
      rw [contains_null_of_isName (isName_of_entry stands name hname)]
      exact Bool.false_ne_true
    refine ⟨nameable, short, follow_eq_file_iff.mp ?_⟩
    rw [follow_of_entry descends stands]
    exact answer_eq_file_iff.mpr found

end FileSystem

end LoxLexis

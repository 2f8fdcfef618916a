import LoxLexis.Proofs.Token.Word

/-!
# Reading a token dump back

A dump does not fall into lines of its own: a string is shown as it stands, and its line feeds and
spaces, and text in it that looks like other lines of a dump, are shown with it.  All the same a
dump can be read from the front in one way only.  The name of a kind ends at the first space; the
kind then tells where the lexeme ends, because a string has no double quote inside and a number has
no space; and the literal is the one that the lexeme denotes.  So what begins with the entry of one
content begins with the entry of no other, and since the end of the file stands last and nowhere
else, no dump is the beginning of another.

## Main definitions

* `Content.Found` — the contents that scans find
* `Content.entry` — a content as a dump shows it

## Main statements

* `Lexeme.eq_of_space` — a kind tells where a lexeme of that kind ends
* `Content.Found.eq_of_entry` — entries are told apart by their beginnings
* `scan_dump_prefix_iff` — a dump loses nothing but lines, and no dump is the beginning of another
-/

namespace LoxLexis

/-! ### Names of kinds -/

namespace Kind

/-- The kind with the name of a kind is that kind. -/
theorem ofName_name (k : Kind) : ofName k.name = .ok k := by
  cases k <;> rfl

theorem name_injective {k k' : Kind} (h : k.name = k'.name) : k = k' := by
  have same := ofName_name k
  rw [h, ofName_name] at same
  exact (Except.ok.inj same).symm

theorem space_notMem_name (k : Kind) : ' ' ∉ k.name := by
  cases k <;> decide

end Kind

/-! ### Where lexemes end -/

theorem Lexeme.space_notMem {t : Text} (h : Lexeme (.token .number) t) : ' ' ∉ t := by
  intro hs
  rcases h.isDigit_or_point ' ' hs with digit | point
  · simp at digit
  · simp at point

/-- **The kind of a word tells where its text ends in front of a space.** -/
theorem Lexeme.eq_of_space {kind : Kind} {t u x y : Text} (ht : Lexeme (.token kind) t)
    (hu : Lexeme (.token kind) u) (h : t ++ ' ' :: x = u ++ ' ' :: y) : t = u := by
  by_cases string : kind = .string
  · subst string
    -- The double quotes mark the text off, whatever spaces there are in it.
    obtain ⟨a, ha, rfl⟩ := ht.string_cases
    obtain ⟨b, hb, rfl⟩ := hu.string_cases
    simp only [List.cons_append, List.append_assoc, List.nil_append] at h
    rw [(eq_of_append_cons_eq ha hb (List.cons.inj h).2).1]
  by_cases number : kind = .number
  · subst number
    exact (eq_of_append_cons_eq ht.space_notMem hu.space_notMem h).1
  · have plain := Kind.isLiteral_eq_false string number
    exact Option.some.inj ((ht.spelling?_eq plain).symm.trans (hu.spelling?_eq plain))

/-! ### Entries -/

namespace Content

/-- The contents that scans find. -/
inductive Found : Content → Prop
  | word (w : Word) : Found w.content
  | endOfFile : Found Content.endOfFile

/-- A content as a dump shows it: kind, lexeme and literal between single spaces, on a line. -/
def entry (c : Content) : Text :=
  c.kind.name ++ ' ' ::
    (c.lexeme ++ ' ' :: (c.literal.elim "null".toList Literal.display ++ ['\n']))

/-- The literal of a content is the one that its kind and lexeme determine. -/
theorem Found.eq_of_lexeme {c d : Content} (hc : c.Found) (hd : d.Found) (kind : c.kind = d.kind)
    (lexeme : c.lexeme = d.lexeme) : c = d := by
  cases hc with
  | word w =>
      cases hd with
      | word w' =>
          have segment : w.segment = w'.segment := by
            rw [Word.segment, Word.segment]
            congr 1
            exact congrArg Form.token kind
          rw [← Option.some.injEq, ← Word.content?_segment, ← Word.content?_segment, segment]
      | endOfFile => exact absurd kind w.kind_ne_endOfFile
  | endOfFile =>
      cases hd with
      | word w => exact absurd kind.symm w.kind_ne_endOfFile
      | endOfFile => rfl

/-- **Entries are told apart by their beginnings.** -/
theorem Found.eq_of_entry {c d : Content} (hc : c.Found) (hd : d.Found) {x y : Text}
    (h : c.entry ++ x = d.entry ++ y) : c = d := by
  simp only [entry, List.append_assoc, List.cons_append] at h
  obtain ⟨name, after⟩ :=
    eq_of_append_cons_eq c.kind.space_notMem_name d.kind.space_notMem_name h
  have kind := Kind.name_injective name
  refine hc.eq_of_lexeme hd kind ?_
  cases hc with
  | word w =>
      cases hd with
      | word w' =>
          have wellFormed : Lexeme (.token w.kind) w'.lexeme := by
            rw [show w.kind = w'.kind from kind]
            exact w'.wellFormed
          exact w.wellFormed.eq_of_space wellFormed after
      | endOfFile => exact absurd kind w.kind_ne_endOfFile
  | endOfFile =>
      cases hd with
      | word w => exact absurd kind.symm w.kind_ne_endOfFile
      | endOfFile => rfl

end Content

/-! ### Whole dumps -/

namespace Scan

theorem dump_eq_entries (s : Scan) : s.dump = s.contents.flatMap Content.entry := by
  rw [dump, contents, Text.ofLines, List.flatMap_map, List.flatMap_map]
  refine congrArg (fun f => s.tokens.flatMap f) (funext fun t => ?_)
  simp [Token.display, Content.entry, Token.content]

/-- A dump that another one begins with is of the same contents. -/
theorem contents_eq_of_dump_prefix {s t : Text} (h : (Scan.of s).dump <+: (Scan.of t).dump) :
    (Scan.of s).contents = (Scan.of t).contents := by
  obtain ⟨ws, hws⟩ := exists_words s
  obtain ⟨ws', hws'⟩ := exists_words t
  rw [dump_eq_entries, dump_eq_entries, hws, hws'] at h
  have words (ws : List Word) :
      ∀ c ∈ ws.map Word.content, c.Found ∧ c ≠ Content.endOfFile := by
    intro c hc
    obtain ⟨w, -, rfl⟩ := List.mem_map.mp hc
    exact ⟨.word w, fun e => w.kind_ne_endOfFile (congrArg Content.kind e)⟩
  rw [hws, hws', eq_of_flatMap_prefix (fun ha hb _ _ => ha.eq_of_entry hb) .endOfFile (words ws)
    (words ws') h]

end Scan

/-- **A dump loses nothing but lines, and no dump is the beginning of another.** -/
theorem scan_dump_prefix_iff (s t : Text) :
    ((Scan.of s).dump = (Scan.of t).dump ↔ (Scan.of s).contents = (Scan.of t).contents) ∧
      ((Scan.of s).dump <+: (Scan.of t).dump ↔ (Scan.of s).dump = (Scan.of t).dump) := by
  have same_dump (h : (Scan.of s).contents = (Scan.of t).contents) :
      (Scan.of s).dump = (Scan.of t).dump := by
    rw [Scan.dump_eq_entries, Scan.dump_eq_entries, h]
  have whole (h : (Scan.of s).dump = (Scan.of t).dump) :
      (Scan.of s).dump <+: (Scan.of t).dump := ⟨[], by rw [List.append_nil, h]⟩
  refine ⟨⟨fun h => ?_, same_dump⟩, ⟨fun h => ?_, whole⟩⟩
  · exact Scan.contents_eq_of_dump_prefix (whole h)
  · exact same_dump (Scan.contents_eq_of_dump_prefix h)

end LoxLexis

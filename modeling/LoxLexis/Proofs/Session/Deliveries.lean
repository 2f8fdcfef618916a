import LoxLexis.Proofs.Session.Steps
import Mathlib.Data.List.DropRight

/-!
# What the sinks of a session hold

The deliveries of a session are its *log*: the reports that its sinks hear, from scanners or made
directly, and when sinks are emptied, all in the order in which it happens.  Each sink holds what
the log says it has heard since it was last emptied.  The other sinks have no part in that, so this is
an invariant of the effects of requests, once it is known that nothing has happened at a place
before a sink is opened at it.

## Main definitions

* `Entry` — what happens to a sink
* `heldAt` — what a sink has heard since it was last emptied
* `Session.log` — what requests let happen to sinks
* `Session.Holds` — the sinks of a session hold what a log says

## Main statements

* `Session.Holds.of_effect` — a request keeps the sinks in step with what happens to them
* `Session.Holds.run` — so do requests one after the other
-/

namespace LoxLexis

/-- What happens to a sink. -/
inductive Entry
  | heard (place : Nat) (report : Report)
  | emptied (place : Nat)
  deriving DecidableEq

namespace Entry

/-- The place of the sink that something happens to. -/
def place : Entry → Nat
  | heard place _ => place
  | emptied place => place

/-- The report that the sink at a place hears. -/
def heardAt? (place : Nat) : Entry → Option Report
  | heard other report => if other = place then some report else none
  | emptied _ => none

end Entry

/-- What the sink at a place has heard since it was last emptied. -/
def heldAt (place : Nat) (log : List Entry) : List Report :=
  (log.rtakeWhile fun entry => entry ≠ .emptied place).filterMap (Entry.heardAt? place)

@[simp] theorem heldAt_nil (place : Nat) : heldAt place [] = [] := rfl

theorem heldAt_concat (place : Nat) (log : List Entry) (entry : Entry) :
    heldAt place (log ++ [entry]) =
      if entry = .emptied place then [] else heldAt place log ++ (entry.heardAt? place).toList := by
  unfold heldAt
  rw [List.rtakeWhile_concat]
  by_cases emptied : entry = .emptied place
  · simp [emptied]
  · cases heard : entry.heardAt? place <;> simp [emptied, heard]

/-- What happens to other sinks changes nothing. -/
theorem heldAt_append_of_elsewhere {place : Nat} (log : List Entry) {entries : List Entry}
    (elsewhere : ∀ entry ∈ entries, entry.place ≠ place) :
    heldAt place (log ++ entries) = heldAt place log := by
  induction entries using List.reverseRecOn with
  | nil => rw [List.append_nil]
  | append_singleton entries entry ih =>
      have other := elsewhere entry (by simp)
      have kept : entry ≠ .emptied place := by
        rintro rfl
        exact other rfl
      have nothing : entry.heardAt? place = none := by
        cases entry with
        | heard _ r => exact if_neg other
        | emptied _ => rfl
      rw [← List.append_assoc, heldAt_concat, if_neg kept, nothing,
        ih fun entry h => elsewhere entry (List.mem_append_left _ h)]
      exact List.append_nil _

theorem heldAt_append_heard (place : Nat) (log : List Entry) (reports : List Report) :
    heldAt place (log ++ reports.map (.heard place)) = heldAt place log ++ reports := by
  induction reports using List.reverseRecOn with
  | nil => simp
  | append_singleton reports r ih =>
      have heard : (Entry.heard place r).heardAt? place = some r := if_pos rfl
      rw [List.map_append, List.map_singleton, ← List.append_assoc, heldAt_concat,
        if_neg Entry.noConfusion, heard, ih, List.append_assoc]
      rfl

theorem heldAt_append_emptied (place : Nat) (log : List Entry) :
    heldAt place (log ++ [.emptied place]) = [] := by
  rw [heldAt_concat, if_pos rfl]

namespace Session

/-- What a request lets happen to sinks: an operation delivers the reports that it makes alone. -/
def entries (s : Session) (request : Request) : List Entry :=
  match request.step with
  | .report r => (s.places.find? request.name).toList.map fun place => .heard place r
  | .reset => (s.places.find? request.name).toList.map .emptied
  | .operate operation =>
    (s.stations.find? request.name).toList.flatMap fun station =>
      (operation.alone station.scanner).sink.map (.heard station.sink)
  | _ => []

/-- What some requests let happen to sinks, in order. -/
def log : Session → List Request → List Entry
  | _, [] => []
  | s, request :: history => s.entries request ++ (s.after request).log history

theorem entries_operate {s : Session} {name : Text} {station : Station}
    (h : s.stations.find? name = some station) (operation : Operation) :
    s.entries { name, step := .operate operation } =
      (operation.alone station.scanner).sink.map (.heard station.sink) := by
  show (s.stations.find? name).toList.flatMap _ = _
  rw [h]
  exact List.append_nil _

/-- Nothing happens to sinks when a request is refused. -/
theorem entries_of_refused {s : Session} (placed : s.Placed) {request : Request}
    (refused : s.perform request = none) : s.entries request = [] := by
  obtain ⟨name, step⟩ := request
  -- What is under the name, if anything, is there.
  have unnamed (h : s.sink? name = none) : s.places.find? name = none := by
    cases named : s.places.find? name with
    | none => rfl
    | some place =>
        have there := List.getElem?_eq_getElem (placed.places name place named)
        rw [sink?_eq_some_iff.mpr ⟨named, there⟩] at h
        cases h
  cases step with
  | report r => rw [entries, unnamed (Option.map_eq_none_iff.mp refused)]; rfl
  | reset => rw [entries, unnamed (Option.map_eq_none_iff.mp refused)]; rfl
  | operate operation =>
      cases found : s.stations.find? name with
      | none => rw [entries, found]; rfl
      | some station => exact absurd refused (placed.perform_operate_ne_none found operation)
  | _ => rfl

/-- The sinks of a session hold what they have heard since they were last emptied. -/
structure Holds (s : Session) (log : List Entry) : Prop where
  /-- Nothing has happened to sinks that are not there yet. -/
  places : ∀ entry ∈ log, entry.place < s.sinks.length
  sinks : ∀ place sink, s.sinks[place]? = some sink → sink.reports = heldAt place log

theorem holds_empty : empty.Holds [] where
  places _ h := nomatch h
  sinks _ _ h := nomatch h

section Holds

variable {s : Session} {log : List Entry} (holds : s.Holds log)
include holds

theorem Holds.openSink (name : Text) (policy : Policy) : (s.openSink name policy).Holds log := by
  have longer : s.sinks.length < (s.sinks ++ [Sink.empty policy]).length := by simp
  refine ⟨fun entry h => (holds.places entry h).trans longer, fun place sink h => ?_⟩
  replace h : (s.sinks ++ [Sink.empty policy])[place]? = some sink := h
  by_cases old : place < s.sinks.length
  · rw [List.getElem?_append_left old] at h
    exact holds.sinks place sink h
  · -- Nothing has happened at the new place.
    obtain ⟨here, -⟩ := List.getElem?_eq_some_iff.mp h
    obtain rfl : place = s.sinks.length := by
      simp only [List.length_append, List.length_singleton] at here
      omega
    rw [List.getElem?_concat_length] at h
    obtain rfl := Option.some.inj h
    exact (heldAt_append_of_elsewhere [] fun entry h => (holds.places entry h).ne).symm

/-- Something happens to one of the sinks. -/
theorem Holds.setSink {place : Nat} {sink : Sink} {entries : List Entry}
    (there : place < s.sinks.length) (here : ∀ entry ∈ entries, entry.place = place)
    (held : sink.reports = heldAt place (log ++ entries)) :
    (s.setSink place sink).Holds (log ++ entries) := by
  have same : (s.setSink place sink).sinks.length = s.sinks.length := List.length_set
  refine ⟨fun entry h => ?_, fun other found h => ?_⟩
  · rw [same]
    rcases List.mem_append.mp h with h | h
    · exact holds.places entry h
    · rw [here entry h]
      exact there
  · replace h : (s.sinks.set place sink)[other]? = some found := h
    by_cases own : place = other
    · subst own
      rw [List.getElem?_set_self there] at h
      obtain rfl := Option.some.inj h
      exact held
    · rw [List.getElem?_set_ne own] at h
      rw [heldAt_append_of_elsewhere log fun entry h => (here entry h).trans_ne own]
      exact holds.sinks other found h

/-- A sink takes some reports. -/
theorem Holds.hear {place : Nat} {sink : Sink} (there : s.sinks[place]? = some sink)
    (reports : List Report) :
    (s.setSink place { sink with reports := sink.reports ++ reports }).Holds
      (log ++ reports.map (.heard place)) := by
  refine holds.setSink (List.getElem?_eq_some_iff.mp there).1 (fun entry h => ?_) ?_
  · obtain ⟨r, -, rfl⟩ := List.mem_map.mp h
    rfl
  · rw [heldAt_append_heard, holds.sinks place sink there]

theorem Holds.reset {place : Nat} {sink : Sink} (there : s.sinks[place]? = some sink) :
    (s.setSink place sink.reset).Holds (log ++ [.emptied place]) := by
  refine holds.setSink (List.getElem?_eq_some_iff.mp there).1 (fun entry h => ?_) ?_
  · rw [List.mem_singleton.mp h]
    rfl
  · rw [heldAt_append_emptied]
    rfl

/-- Scanners are of no concern to sinks. -/
theorem Holds.putStation (name : Text) (station : Station) :
    Holds { s with stations := s.stations.put name station } log := ⟨holds.places, holds.sinks⟩

/-- **Requests keep the sinks in step with what happens to them.** -/
theorem Holds.of_effect {s' : Session} {request : Request} (placed : s.Placed)
    (effect : s.Effect request s') : s'.Holds (log ++ s.entries request) := by
  cases effect with
  | refused refused =>
      rw [entries_of_refused placed refused, List.append_nil]
      exact holds
  | @looked _ step looks =>
      have nothing (name : Text) : s.entries { name, step } = [] := by
        cases step with
        | report _ => exact looks.elim
        | reset => exact looks.elim
        | operate _ => exact looks.elim
        | _ => rfl
      rw [nothing, List.append_nil]
      exact holds
  | sinkOpened name policy => exact (List.append_nil log).symm ▸ holds.openSink name policy
  | scannerOpened _ name source => exact (List.append_nil log).symm ▸ holds.putStation name _
  | bothOpened name source =>
      exact (List.append_nil log).symm ▸ (holds.openSink name .record).putStation name _
  | reported found r =>
      obtain ⟨named, there⟩ := sink?_eq_some_iff.mp found
      rw [entries, named]
      exact holds.hear there [r]
  | reset found =>
      obtain ⟨named, there⟩ := sink?_eq_some_iff.mp found
      rw [entries, named]
      exact holds.reset there
  | operated found there operation =>
      rw [entries_operate found]
      exact (holds.putStation _ _).hear there _

theorem Holds.run {history : List Request} (placed : s.Placed)
    (unopposed : s.Unopposed history) : (s.run history).Holds (log ++ s.log history) := by
  induction history generalizing s log with
  | nil => exact (List.append_nil log).symm ▸ holds
  | cons request history ih =>
      obtain ⟨accepted, unopposed⟩ := unopposed_cons.mp unopposed
      have effect := effect_after accepted
      have next := ih (holds.of_effect placed effect) (placed.of_effect effect) unopposed
      rw [List.append_assoc] at next
      exact next

end Holds

end Session

end LoxLexis

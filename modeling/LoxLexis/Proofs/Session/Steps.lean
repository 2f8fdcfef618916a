import LoxLexis.Proofs.Scanner.History
import LoxLexis.Session.Basic

/-!
# Steps of a session

A session answers requests one after the other.  What a request does to the session is one of a few
things, and `Session.Effect` is the list of them; a request that meets no objection has one of these
effects, so everything that a session keeps is shown by going through the list once.

## Main definitions

* `Session.run` — the session after some requests
* `Session.records` — what some requests are answered
* `Session.Unopposed` — no request meets an objection
* `Session.Effect` — what a request does to a session
* `Session.Placed` — the sinks of all scanners and names are there
* `Session.Fuseless` — no sink is a fuse

## Main statements

* `Session.effect_after` — a request that meets no objection has one of the effects
* `Session.Placed.run` — requests leave the sinks of all scanners and names there
* `Session.Fuseless.unopposed` — without fuses no request meets an objection
-/

namespace LoxLexis

namespace Directory

variable {α : Type}

/-- Taking the entry of a name out leaves the other names alone. -/
theorem lookup_filter_of_ne (d : Directory α) {name other : Text} (h : other ≠ name) :
    List.lookup other (d.filter fun entry => entry.1 ≠ name) = List.lookup other d := by
  induction d with
  | nil => rfl
  | cons entry d ih =>
      by_cases taken : entry.1 = name
      · have skipped : (other == entry.1) = false := by rw [taken]; exact beq_eq_false_iff_ne.mpr h
        rw [List.filter_cons_of_neg (by simpa using taken), ih, List.lookup_cons, skipped]
      · rw [List.filter_cons_of_pos (by simpa using taken), List.lookup_cons, List.lookup_cons, ih]

/-- Putting a value under a name leaves the other names alone. -/
theorem find?_put_of_ne (d : Directory α) {name other : Text} (h : other ≠ name) (value : α) :
    (d.put name value).find? other = d.find? other := by
  have skipped : (other == name) = false := beq_eq_false_iff_ne.mpr h
  rw [find?, put, List.lookup_cons, skipped, lookup_filter_of_ne d h]
  rfl

theorem find?_put {d : Directory α} {name other : Text} {value found : α}
    (h : (d.put name value).find? other = some found) :
    other = name ∧ found = value ∨ d.find? other = some found := by
  by_cases same : other = name
  · subst same
    rw [find?_put_self] at h
    exact .inl ⟨rfl, (Option.some.inj h).symm⟩
  · rw [find?_put_of_ne d same] at h
    exact .inr h

end Directory

namespace Session

/-- The session after a request.  One that cannot be met changes nothing. -/
def after (s : Session) (request : Request) : Session :=
  ((s.perform request).map Prod.fst).getD s

/-- The session after some requests. -/
def run (s : Session) (history : List Request) : Session := history.foldl after s

/-- What some requests are answered, but for those that cannot be met. -/
def records : Session → List Request → List Record
  | _, [] => []
  | s, request :: history =>
    ((s.perform request).map Prod.snd).toList ++ (s.after request).records history

/-- A request does not end in an objection; it may still fail otherwise. -/
def Record.Unopposed (record : Record) : Prop :=
  ∀ trip, record.result ≠ .error (.objection trip)

/-- None of some requests ends in an objection. -/
def Unopposed (s : Session) (history : List Request) : Prop :=
  ∀ record ∈ s.records history, record.Unopposed

/-! ### What a session shows -/

section Showing

variable (s : Session) (name : Text) (result : Except (Failure Trip) Reply)

@[simp] theorem showing_session : (s.showing name result).1 = s := by
  unfold showing
  split <;> rfl

@[simp] theorem showing_result : (s.showing name result).2.result = result := by
  unfold showing
  split <;> rfl

@[simp] theorem showing_scanner :
    (s.showing name result).2.scanner = (s.stations.find? name).map Station.scanner := by
  unfold showing
  split <;> simp [*]

/-- Showing changes nothing. -/
theorem eq_of_showing {s s' : Session} {name : Text} {result : Except (Failure Trip) Reply}
    {record : Record} (h : s.showing name result = (s', record)) :
    s = s' ∧ record.result = result ∧
      record.scanner = (s.stations.find? name).map Station.scanner := by
  have shown := s.showing_session name result
  have answered := s.showing_result name result
  have displayed := s.showing_scanner name result
  rw [h] at shown answered displayed
  exact ⟨shown.symm, answered, displayed⟩

end Showing

/-! ### What a request does -/

/-- The steps that only look at a scanner or sink. -/
def Step.Looks : Step → Prop
  | .hadError | .errorLines | .errors | .held | .tokens => True
  | _ => False

/-- A session with what an operation leaves on a scanner that nobody objects to: the scanner under
its name, and the reports it makes at the place of its sink. -/
def operated (s : Session) (name : Text) (station : Station) (sink : Sink) (operation : Operation) :
    Session :=
  let moved := { station with scanner := (operation.alone station.scanner).scanner }
  { s with stations := s.stations.put name moved }.setSink station.sink
    { sink with reports := sink.reports ++ (operation.alone station.scanner).sink }

theorem sink?_eq_some_iff {s : Session} {name : Text} {place : Nat} {sink : Sink} :
    s.sink? name = some (place, sink) ↔
      s.places.find? name = some place ∧ s.sinks[place]? = some sink := by
  simp only [sink?, Option.bind_eq_some_iff, Option.map_eq_some_iff, Prod.mk.injEq]
  constructor
  · rintro ⟨_, found, _, there, rfl, rfl⟩
    exact ⟨found, there⟩
  · rintro ⟨found, there⟩
    exact ⟨place, found, sink, there, rfl, rfl⟩

/-- What a request that meets no objection does to a session. -/
inductive Effect (s : Session) : Request → Session → Prop
  | refused {request : Request} (h : s.perform request = none) : Effect s request s
  | looked {name : Text} {step : Step} (h : step.Looks) : Effect s { name, step } s
  | sinkOpened (name : Text) (policy : Policy) :
      Effect s { name, step := .openSink policy } (s.openSink name policy)
  | scannerOpened {sink : Text} {place : Nat} (h : s.places.find? sink = some place)
      (name source : Text) :
      Effect s { name, step := .openScanner source (some sink) } (s.openScanner name source place)
  /-- The scanner gets a sink of its own. -/
  | bothOpened (name source : Text) :
      Effect s { name, step := .openScanner source none }
        ((s.openSink name .record).openScanner name source s.sinks.length)
  | reported {name : Text} {place : Nat} {sink : Sink} (h : s.sink? name = some (place, sink))
      (r : Report) : Effect s { name, step := .report r } (s.setSink place (sink.hold r))
  | reset {name : Text} {place : Nat} {sink : Sink} (h : s.sink? name = some (place, sink)) :
      Effect s { name, step := .reset } (s.setSink place sink.reset)
  | operated {name : Text} {station : Station} {sink : Sink}
      (h : s.stations.find? name = some station) (h' : s.sinks[station.sink]? = some sink)
      (operation : Operation) :
      Effect s { name, step := .operate operation } (s.operated name station sink operation)

/-- An operation on a scanner is met when the sink of the scanner is there. -/
theorem exists_operate {s : Session} {name : Text} {station : Station} {sink : Sink}
    (h : s.stations.find? name = some station) (h' : s.sinks[station.sink]? = some sink)
    (operation : Operation) :
    ∃ s' record, s.perform { name, step := .operate operation } = some (s', record) ∧
      record.result =
        (operation.perform Sink.receive station.scanner sink).result.map .answer ∧
      record.scanner = some (operation.perform Sink.receive station.scanner sink).scanner := by
  have answered : ∃ shown, s.operate name operation = some shown := by
    rw [operate, h]
    show ∃ shown, (s.sinks[station.sink]?).bind _ = some shown
    rw [h']
    exact ⟨_, rfl⟩
  obtain ⟨⟨s', record⟩, answered⟩ := answered
  obtain ⟨station', found, rest⟩ := Option.bind_eq_some_iff.mp answered
  obtain ⟨sink', there, rest⟩ := Option.bind_eq_some_iff.mp rest
  obtain rfl : station = station' := Option.some.inj (h.symm.trans found)
  obtain rfl : sink = sink' := Option.some.inj (h'.symm.trans there)
  obtain ⟨-, result, scanner⟩ := eq_of_showing (Option.some.inj rest)
  refine ⟨s', record, answered, result, scanner.trans ?_⟩
  exact congrArg (Option.map Station.scanner) (Directory.find?_put_self _ _ _)

/-- The answer of an operation is an objection when its record says so. -/
theorem Record.unopposed_iff_of_answer {record : Record} {p : Performed Sink Trip Answer}
    (h : record.result = p.result.map .answer) : record.Unopposed ↔ p.Unopposed := by
  unfold Record.Unopposed Performed.Unopposed
  rw [h]
  cases p.result <;> simp [Except.map]

theorem effect_of_report {s s' : Session} {name : Text} {r : Report} {record : Record}
    (h : s.report name r = some (s', record)) (unopposed : record.Unopposed) :
    s.Effect { name, step := .report r } s' := by
  obtain ⟨⟨place, sink⟩, found, h⟩ := Option.map_eq_some_iff.mp h
  obtain ⟨rfl, result, -⟩ := eq_of_showing h
  have accepted : (sink.receive r).2 = none := by
    cases received : (sink.receive r).2 with
    | none => rfl
    | some trip =>
        rw [received] at result
        exact absurd result (unopposed trip)
  rw [Sink.receive_of_accepted accepted]
  exact .reported found r

theorem effect_of_operate {s s' : Session} {name : Text} {operation : Operation} {record : Record}
    (h : s.operate name operation = some (s', record)) (unopposed : record.Unopposed) :
    s.Effect { name, step := .operate operation } s' := by
  obtain ⟨station, found, h⟩ := Option.bind_eq_some_iff.mp h
  obtain ⟨sink, there, h⟩ := Option.bind_eq_some_iff.mp h
  obtain ⟨rfl, result, -⟩ := eq_of_showing (Option.some.inj h)
  have alone := (Record.unopposed_iff_of_answer result).mp unopposed
  have held := Sink.after_of_accepts (Operation.unopposed_iff.mp alone)
  rw [Operation.perform_of_unopposed alone, held]
  exact .operated found there operation

/-- **A request that meets no objection has one of the effects.** -/
theorem effect_of_perform {s s' : Session} {request : Request} {record : Record}
    (h : s.perform request = some (s', record)) (unopposed : record.Unopposed) :
    s.Effect request s' := by
  obtain ⟨name, step⟩ := request
  cases step with
  | openSink policy =>
      obtain ⟨rfl, -, -⟩ := eq_of_showing (Option.some.inj h)
      exact .sinkOpened name policy
  | openScanner source sink =>
      cases sink with
      | none =>
          obtain ⟨rfl, -, -⟩ := eq_of_showing (Option.some.inj h)
          exact .bothOpened name source
      | some sink =>
          obtain ⟨place, found, h⟩ := Option.map_eq_some_iff.mp h
          obtain ⟨rfl, -, -⟩ := eq_of_showing h
          exact .scannerOpened found name source
  | report r => exact effect_of_report h unopposed
  | reset =>
      obtain ⟨⟨place, sink⟩, found, h⟩ := Option.map_eq_some_iff.mp h
      obtain ⟨rfl, -, -⟩ := eq_of_showing h
      exact .reset found
  | operate operation => exact effect_of_operate h unopposed
  | _ =>
      obtain ⟨_, -, h⟩ := Option.map_eq_some_iff.mp h
      obtain ⟨rfl, -, -⟩ := eq_of_showing h
      exact .looked trivial

/-- **The session after a request is by one of the effects, if that meets no objection.** -/
theorem effect_after {s : Session} {request : Request}
    (unopposed : ∀ s' record, s.perform request = some (s', record) → record.Unopposed) :
    s.Effect request (s.after request) := by
  unfold after
  cases met : s.perform request with
  | none => exact .refused met
  | some next => exact effect_of_perform met (unopposed _ _ met)

theorem unopposed_cons {s : Session} {request : Request} {history : List Request} :
    s.Unopposed (request :: history) ↔
      (∀ s' record, s.perform request = some (s', record) → record.Unopposed) ∧
        (s.after request).Unopposed history := by
  unfold Unopposed
  rw [records, List.forall_mem_append]
  refine and_congr_left fun _ => ?_
  cases s.perform request with
  | none => simp
  | some next => simp [Prod.ext_iff]

theorem records_append (s : Session) (history later : List Request) :
    s.records (history ++ later) = s.records history ++ (s.run history).records later := by
  induction history generalizing s with
  | nil => rfl
  | cons request history ih =>
      show _ ++ (s.after request).records (history ++ later) = _
      rw [ih, ← List.append_assoc]
      rfl

theorem unopposed_append {s : Session} {history later : List Request} :
    s.Unopposed (history ++ later) ↔ s.Unopposed history ∧ (s.run history).Unopposed later := by
  unfold Unopposed
  rw [records_append]
  exact List.forall_mem_append

/-! ### Sinks that are there -/

/-- The sinks of all scanners and names are there. -/
structure Placed (s : Session) : Prop where
  stations : ∀ name station, s.stations.find? name = some station → station.sink < s.sinks.length
  places : ∀ name place, s.places.find? name = some place → place < s.sinks.length

theorem placed_empty : empty.Placed where
  stations _ _ h := nomatch h
  places _ _ h := nomatch h

section Placed

variable {s : Session} (placed : s.Placed)
include placed

theorem Placed.openSink (name : Text) (policy : Policy) : (s.openSink name policy).Placed := by
  have longer : s.sinks.length < (s.sinks ++ [Sink.empty policy]).length := by simp
  refine ⟨fun other station h => Nat.lt_trans (placed.stations other station h) longer,
    fun other place h => ?_⟩
  rcases Directory.find?_put h with ⟨-, rfl⟩ | h
  · exact longer
  · exact Nat.lt_trans (placed.places other place h) longer

theorem Placed.putStation (name : Text) (station : Station)
    (there : station.sink < s.sinks.length) :
    Placed { s with stations := s.stations.put name station } := by
  refine ⟨fun other found h => ?_, placed.places⟩
  rcases Directory.find?_put h with ⟨-, rfl⟩ | h
  · exact there
  · exact placed.stations other found h

theorem Placed.setSink (place : Nat) (sink : Sink) : (s.setSink place sink).Placed := by
  have same : (s.setSink place sink).sinks.length = s.sinks.length := List.length_set
  refine ⟨fun other station h => ?_, fun other found h => ?_⟩
  · rw [same]
    exact placed.stations other station h
  · rw [same]
    exact placed.places other found h

/-- **Requests leave the sinks of all scanners and names there.** -/
theorem Placed.of_effect {s' : Session} {request : Request} (effect : s.Effect request s') :
    s'.Placed := by
  cases effect with
  | refused _ => exact placed
  | looked _ => exact placed
  | sinkOpened name policy => exact placed.openSink name policy
  | scannerOpened found name source => exact placed.putStation name _ (placed.places _ _ found)
  | bothOpened name source =>
      exact (placed.openSink name .record).putStation name _ (by simp [Session.openSink])
  | reported _ r => exact placed.setSink _ _
  | reset _ => exact placed.setSink _ _
  | operated found _ operation =>
      -- The scanner that is put back still reports to its sink.
      have there := placed.stations _ _ found
      refine (placed.putStation _ _ ?_).setSink _ _
      exact there

theorem Placed.run {history : List Request} (unopposed : s.Unopposed history) :
    (s.run history).Placed := by
  induction history generalizing s with
  | nil => exact placed
  | cons request history ih =>
      obtain ⟨first, unopposed⟩ := unopposed_cons.mp unopposed
      exact ih (placed.of_effect (effect_after first)) unopposed

/-- An operation on a scanner is never refused. -/
theorem Placed.perform_operate_ne_none {name : Text} {station : Station}
    (h : s.stations.find? name = some station) (operation : Operation) :
    s.perform { name, step := .operate operation } ≠ none := by
  have there := List.getElem?_eq_getElem (placed.stations name station h)
  obtain ⟨_, _, met, -⟩ := exists_operate h there operation
  rw [met]
  exact Option.some_ne_none _

end Placed

/-! ### Sessions without fuses -/

/-- None of the sinks of a session is a fuse. -/
def Fuseless (s : Session) : Prop := ∀ sink ∈ s.sinks, ∀ limit, sink.policy ≠ .fuse limit

theorem fuseless_empty : empty.Fuseless := fun _ h => nomatch h

section Fuseless

variable {s : Session} (fuseless : s.Fuseless)
include fuseless

/-- A sink is put in place of one that is no fuse. -/
theorem Fuseless.setSink {place : Nat} {old sink : Sink} (there : s.sinks[place]? = some old)
    (same : sink.policy = old.policy) : (s.setSink place sink).Fuseless := by
  intro found mem
  rcases List.mem_or_eq_of_mem_set mem with kept | rfl
  · exact fuseless found kept
  · rw [same]
    exact fuseless old (List.mem_of_getElem? there)

theorem Fuseless.openSink (name : Text) {policy : Policy} (h : ∀ limit, policy ≠ .fuse limit) :
    (s.openSink name policy).Fuseless := by
  intro sink mem
  rcases List.mem_append.mp mem with old | new
  · exact fuseless sink old
  · rw [List.mem_singleton.mp new]
    exact h

/-- Where no sink is a fuse a request meets no objection. -/
theorem Fuseless.record_unopposed {s' : Session} {request : Request} {record : Record}
    (h : s.perform request = some (s', record)) : record.Unopposed := by
  obtain ⟨name, step⟩ := request
  have completed {reply : Reply} (h : record.result = .ok reply) : record.Unopposed := by
    intro trip opposed
    rw [h] at opposed
    cases opposed
  cases step with
  | openSink policy => exact completed (eq_of_showing (Option.some.inj h)).2.1
  | openScanner source sink =>
      cases sink with
      | none => exact completed (eq_of_showing (Option.some.inj h)).2.1
      | some sink =>
          obtain ⟨place, -, h⟩ := Option.map_eq_some_iff.mp h
          exact completed (eq_of_showing h).2.1
  | report r =>
      obtain ⟨⟨place, sink⟩, found, h⟩ := Option.map_eq_some_iff.mp h
      obtain ⟨-, result, -⟩ := eq_of_showing h
      have there := List.mem_of_getElem? (sink?_eq_some_iff.mp found).2
      obtain ⟨accepted, -⟩ := Sink.accepts_of_not_fuse (fuseless sink there) [r]
      rw [accepted] at result
      exact completed result
  | operate operation =>
      obtain ⟨station, -, h⟩ := Option.bind_eq_some_iff.mp h
      obtain ⟨sink, there, h⟩ := Option.bind_eq_some_iff.mp h
      obtain ⟨-, result, -⟩ := eq_of_showing (Option.some.inj h)
      have accepts := Sink.accepts_of_not_fuse (fuseless sink (List.mem_of_getElem? there))
      exact (Record.unopposed_iff_of_answer result).mpr (Operation.unopposed_iff.mpr (accepts _))
  | _ =>
      obtain ⟨_, -, h⟩ := Option.map_eq_some_iff.mp h
      exact completed (eq_of_showing h).2.1

theorem Fuseless.of_effect {s' : Session} {request : Request}
    (h : ∀ limit, request.step ≠ .openSink (.fuse limit)) (effect : s.Effect request s') :
    s'.Fuseless := by
  cases effect with
  | refused _ => exact fuseless
  | looked _ => exact fuseless
  | sinkOpened name policy => exact fuseless.openSink name fun limit fuse => h limit (by rw [fuse])
  | scannerOpened _ name source => exact fuseless
  | bothOpened name source => exact fuseless.openSink name fun limit fuse => nomatch fuse
  | reported found r => exact fuseless.setSink (sink?_eq_some_iff.mp found).2 rfl
  | reset found => exact fuseless.setSink (sink?_eq_some_iff.mp found).2 rfl
  | operated _ there operation => exact fuseless.setSink there rfl

/-- **Without fuses nothing objects.** -/
theorem Fuseless.unopposed {history : List Request}
    (h : ∀ request ∈ history, ∀ limit, request.step ≠ .openSink (.fuse limit)) :
    s.Unopposed history := by
  induction history generalizing s with
  | nil => exact fun _ mem => nomatch mem
  | cons request history ih =>
      obtain ⟨first, rest⟩ := List.forall_mem_cons.mp h
      have accepted : ∀ s' record, s.perform request = some (s', record) → record.Unopposed :=
        fun _ _ met => fuseless.record_unopposed met
      have next := fuseless.of_effect first (effect_after accepted)
      exact unopposed_cons.mpr ⟨accepted, ih next rest⟩

end Fuseless

end Session

end LoxLexis

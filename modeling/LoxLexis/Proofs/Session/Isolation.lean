import LoxLexis.Proofs.Scanner.Shared
import LoxLexis.Proofs.Session.Deliveries

/-!
# Scanners of a session go their own ways

What several scanners do in a session, together with reports made directly and sinks emptied in
between, comes apart in two ways.  By scanners: each of them goes the way it goes alone with its own
operations, since a scanner takes nothing from its sink but objections.  And by sinks: each of them
holds what its users have delivered since it was last emptied, in the order in which that happened
in the session.

## Main definitions

* `Request.own?` — the operation that a request is on the scanner of a name
* `Session.GoesAlone` — the scanner of a name is where its own operations bring it alone
* `Session.Isolated` — scanners go their own ways, and sinks hold what was delivered to them

## Main statements

* `Session.station_run` — requests move a scanner by its own operations
* `scanners_do_not_interfere` — neither in a shared world nor in a session do scanners interfere
-/

namespace LoxLexis

namespace Session

/-! ### The way of a scanner -/

/-- The operation that a request is on the scanner of a name. -/
def Request.own? (name : Text) (request : Request) : Option Operation :=
  match request.step with
  | .operate operation => if request.name = name then some operation else none
  | _ => none

/-- A request opens a scanner under a name. -/
def Request.opens (name : Text) (request : Request) : Bool :=
  match request.step with
  | .openScanner _ _ => request.name = name
  | _ => false

theorem Request.own?_operate (name other : Text) (operation : Operation) :
    own? name { name := other, step := .operate operation } =
      if other = name then some operation else none := rfl

theorem Request.eq_of_own? {name : Text} {request : Request} {operation : Operation}
    (h : request.own? name = some operation) : request = { name, step := .operate operation } := by
  obtain ⟨other, step⟩ := request
  cases step with
  | operate performed =>
      rw [own?_operate] at h
      split at h
      · next named => rw [named, Option.some.inj h]
      · cases h
  | _ => cases h

theorem Request.ne_of_opens {name other source : Text} {sink : Option Text}
    (h : opens name { name := other, step := .openScanner source sink } = false) :
    name ≠ other := by
  rintro rfl
  simp [opens] at h

/-- **A request moves a scanner if it is an operation on it, and then as it moves alone.** -/
theorem station_of_effect {s s' : Session} {request : Request} {name : Text} {station : Station}
    (placed : s.Placed) (h : s.stations.find? name = some station)
    (kept : request.opens name = false) (effect : s.Effect request s') :
    s'.stations.find? name = some { station with
      scanner := Operation.aloneAll station.scanner (request.own? name).toList } := by
  cases effect with
  | refused refused =>
      -- An operation on the scanner would not have been refused.
      cases own : request.own? name with
      | none => exact h
      | some operation =>
          obtain rfl := Request.eq_of_own? own
          exact absurd refused (placed.perform_operate_ne_none h operation)
  | @looked _ step looks =>
      cases step with
      | operate operation => exact looks.elim
      | _ => exact h
  | sinkOpened other policy => exact h
  | scannerOpened _ other source =>
      exact (Directory.find?_put_of_ne _ (Request.ne_of_opens kept) _).trans h
  | bothOpened other source =>
      exact (Directory.find?_put_of_ne _ (Request.ne_of_opens kept) _).trans h
  | reported _ r => exact h
  | reset _ => exact h
  | @operated other station' _ found _ operation =>
      show (s.stations.put other _).find? name = _
      by_cases named : other = name
      · subst named
        obtain rfl : station' = station := Option.some.inj (found.symm.trans h)
        rw [Directory.find?_put_self, Request.own?_operate, if_pos rfl]
        rfl
      · rw [Directory.find?_put_of_ne _ (Ne.symm named), Request.own?_operate, if_neg named]
        exact h

/-- **Requests move a scanner by its own operations, as it moves alone.** -/
theorem station_run {s : Session} {history : List Request} {name : Text} {station : Station}
    (placed : s.Placed) (unopposed : s.Unopposed history)
    (h : s.stations.find? name = some station)
    (kept : ∀ request ∈ history, request.opens name = false) :
    (s.run history).stations.find? name = some { station with
      scanner := Operation.aloneAll station.scanner (history.filterMap (Request.own? name)) } := by
  induction history generalizing s station with
  | nil => exact h
  | cons request history ih =>
      obtain ⟨accepted, unopposed⟩ := unopposed_cons.mp unopposed
      obtain ⟨first, kept⟩ := List.forall_mem_cons.mp kept
      have effect := effect_after accepted
      have next := ih (placed.of_effect effect) unopposed
        (station_of_effect placed h first effect) kept
      show ((s.after request).run history).stations.find? name = _
      rw [next, Operation.aloneAll_filterMap_cons]

/-! ### Sessions from their beginning -/

/-- A scanner that has just been opened is a new one. -/
theorem station_of_opened {s s' : Session} {name source : Text} {sink : Option Text}
    {record : Record}
    (h : s.perform { name, step := .openScanner source sink } = some (s', record)) :
    ∃ place, s'.stations.find? name = some { scanner := Scanner.new source, sink := place } := by
  cases sink with
  | none =>
      obtain ⟨rfl, -, -⟩ := eq_of_showing (Option.some.inj h)
      exact ⟨_, Directory.find?_put_self _ _ _⟩
  | some sink =>
      obtain ⟨place, -, h⟩ := Option.map_eq_some_iff.mp h
      obtain ⟨rfl, -, -⟩ := eq_of_showing h
      exact ⟨_, Directory.find?_put_self _ _ _⟩

/-- The scanner of a name is where its own operations bring a new one that is alone, with any
reporter that never objects, and so is what its next operation does. -/
def GoesAlone (s : Session) (name source : Text) (own : List Operation) : Prop :=
  ∀ (σ : Type) (reporter : Reporter σ Trip) (sink : σ), reporter.Quiet →
    let alone := Operation.performAll reporter (Scanner.new source) sink own
    (∃ place, s.stations.find? name = some { scanner := alone.1, sink := place }) ∧
      ∀ operation, ∃ s' record, s.perform { name, step := .operate operation } = some (s', record) ∧
        (record.Unopposed →
          record.result = (operation.perform reporter alone.1 alone.2).result.map .answer ∧
            record.scanner = some (operation.perform reporter alone.1 alone.2).scanner)

theorem goesAlone_of_station {s : Session} {name source : Text} {own : List Operation} {place : Nat}
    (placed : s.Placed)
    (h : s.stations.find? name =
      some { scanner := Operation.aloneAll (Scanner.new source) own, sink := place }) :
    s.GoesAlone name source own := by
  intro σ reporter sink quiet
  rw [← Operation.performAll_of_quiet quiet _ sink] at h
  refine ⟨⟨place, h⟩, fun operation => ?_⟩
  have there := List.getElem?_eq_getElem (placed.stations name _ h)
  obtain ⟨s', record, met, result, scanner⟩ := exists_operate h there operation
  refine ⟨s', record, met, fun unopposed => ?_⟩
  have met' := (Record.unopposed_iff_of_answer result).mp unopposed
  obtain ⟨left, came⟩ := Operation.perform_congr met'
    (@Operation.unopposed_of_quiet _ _ reporter _ _ quiet operation)
  rw [result, scanner, left, came]
  exact ⟨rfl, rfl⟩

/-- After some requests each scanner has gone its own way since it was opened, and each sink holds
what it has heard since it was last emptied. -/
structure Isolated (history : List Request) : Prop where
  scanners : ∀ name source sink before later,
    history = before ++ { name, step := .openScanner source sink } :: later →
    ((empty.run before).perform { name, step := .openScanner source sink }).isSome = true →
    (∀ request ∈ later, request.opens name = false) →
    (empty.run history).GoesAlone name source (later.filterMap (Request.own? name))
  sinks : ∀ place sink, (empty.run history).sinks[place]? = some sink →
    sink.reports = heldAt place (empty.log history) ∧
      (sink.hadError = true ↔ heldAt place (empty.log history) ≠ [])

theorem isolated_of_unopposed {history : List Request} (unopposed : empty.Unopposed history) :
    Isolated history := by
  refine ⟨fun name source sink before later split opened kept => ?_, fun place sink there => ?_⟩
  · subst split
    obtain ⟨front, back⟩ := unopposed_append.mp unopposed
    obtain ⟨accepted, course⟩ := unopposed_cons.mp back
    obtain ⟨⟨s', record⟩, met⟩ := Option.isSome_iff_exists.mp opened
    obtain ⟨place, new⟩ := station_of_opened met
    have next : (empty.run before).after { name, step := .openScanner source sink } = s' := by
      rw [after, met]
      rfl
    have placed := (placed_empty.run front).of_effect (effect_after accepted)
    rw [next] at placed course
    have run : empty.run (before ++ { name, step := .openScanner source sink } :: later) =
        s'.run later := by
      rw [← next]
      exact List.foldl_append
    rw [run]
    exact goesAlone_of_station (placed.run course) (station_run placed course new kept)
  · have held := (holds_empty.run placed_empty unopposed).sinks place sink there
    rw [List.nil_append] at held
    rw [← held]
    exact ⟨rfl, by simp [Sink.hadError]⟩

end Session

/-- **Scanners do not interfere: neither in a world that their reporters share, whoever acts on it,
nor in a session with its sinks.** -/
theorem scanners_do_not_interfere {ι ω ε : Type} [DecidableEq ι] (reporters : ι → Reporter ω ε)
    (quiet : ∀ i, (reporters i).Quiet) (shared : Shared ι ω) (events : List (Shared.Event ι ω))
    (history : List Session.Request) (unopposed : Session.empty.Unopposed history) :
    (∀ i, shared.GoesAlone reporters events i) ∧ Session.Isolated history :=
  ⟨Shared.goesAlone_of_quiet quiet shared events, Session.isolated_of_unopposed unopposed⟩

/-- Two scanners report to one sink, to which a report is made directly and which is emptied while
one of them is halfway; a third has a sink of its own.  One operation fails. -/
theorem scanners_do_not_interfere_one_sink :
    let shared : Shared Bool (List Report) :=
      { scanners := fun first => Scanner.new (if first then "1 @\n\"a" else "?\n?").toList
        world := [] }
    let events : List (Shared.Event Bool (List Report)) :=
      [.operate true .next, .operate false .scan, .outside fun _ => [], .operate true .scan,
        .operate true .advance]
    let history : List Session.Request :=
      [⟨"e".toList, .openSink .record⟩,
        ⟨"a".toList, .openScanner "1 @\n\"a".toList (some "e".toList)⟩,
        ⟨"b".toList, .openScanner "?\n?".toList (some "e".toList)⟩,
        ⟨"a".toList, .operate .next⟩, ⟨"b".toList, .operate .scan⟩,
        ⟨"e".toList, .report ⟨7, unexpectedCharacter⟩⟩, ⟨"e".toList, .reset⟩,
        ⟨"c".toList, .openScanner "@".toList none⟩, ⟨"c".toList, .operate .next⟩,
        ⟨"a".toList, .operate .scan⟩, ⟨"a".toList, .operate .advance⟩]
    ((∀ _ : Bool, Reporter.keep.Quiet) ∧ Session.empty.Unopposed history) ∧
      (∀ i, shared.GoesAlone (fun _ => Reporter.keep) events i) ∧ Session.Isolated history := by
  intro shared events history
  have unopposed : Session.empty.Unopposed history :=
    Session.fuseless_empty.unopposed (by simp [history])
  exact ⟨⟨fun _ => Reporter.keep_quiet, unopposed⟩,
    scanners_do_not_interfere _ (fun _ => Reporter.keep_quiet) shared events history unopposed⟩

end LoxLexis

import LoxLexis.Proofs.Scanner.History
import Mathlib.Logic.Function.Basic

/-!
# Scanners that share a world

Reporters of several scanners may act on one world, and others may act on it too: they make reports
of their own, or empty a reporter.  As long as nobody objects, a scanner takes nothing from that
world.  So in any interleaving each scanner goes the way it goes alone, where it performs its own
operations in their order and nothing else happens.

## Main definitions

* `Shared` — scanners and the world that their reporters share
* `Shared.Event` — an operation on one of the scanners, or something done to the world
* `Shared.GoesAlone` — among events a scanner goes the way it goes alone

## Main statements

* `Shared.goesAlone_of_quiet` — scanners whose reporters never object go their own ways
-/

namespace LoxLexis

/-- Scanners, and the world that their reporters share. -/
structure Shared (ι ω : Type) where
  scanners : ι → Scanner
  world : ω

namespace Shared

/-- What happens among scanners that share a world. -/
inductive Event (ι ω : Type)
  | operate (i : ι) (operation : Operation)
  /-- Something is done to the world from outside. -/
  | outside (change : ω → ω)

variable {ι ω ε : Type} [DecidableEq ι]

/-- The operation that an event is for a scanner. -/
def Event.own? (i : ι) : Event ι ω → Option Operation
  | .operate j operation => if j = i then some operation else none
  | .outside _ => none

variable (reporters : ι → Reporter ω ε)

/-- An operation on one of the scanners, its reports going to the reporter of that scanner. -/
def perform (shared : Shared ι ω) (i : ι) (operation : Operation) : Performed ω ε Answer :=
  operation.perform (reporters i) (shared.scanners i) shared.world

/-- What is left after an event. -/
def after (shared : Shared ι ω) : Event ι ω → Shared ι ω
  | .operate i operation =>
    { scanners := Function.update shared.scanners i (shared.perform reporters i operation).scanner
      world := (shared.perform reporters i operation).sink }
  | .outside change => { shared with world := change shared.world }

/-- What is left after some events, one after the other. -/
def run (shared : Shared ι ω) (events : List (Event ι ω)) : Shared ι ω :=
  events.foldl (after reporters) shared

/-- Among events a scanner goes the way it goes alone, with any reporter that never objects: it
stands where it would, and its next operation does what it would. -/
def GoesAlone (shared : Shared ι ω) (events : List (Event ι ω)) (i : ι) : Prop :=
  ∀ (σ : Type) (reporter : Reporter σ ε) (sink : σ), reporter.Quiet →
    let alone := Operation.performAll reporter (shared.scanners i) sink
      (events.filterMap (Event.own? i))
    (shared.run reporters events).scanners i = alone.1 ∧
      ∀ operation,
        ((shared.run reporters events).perform reporters i operation).scanner =
            (operation.perform reporter alone.1 alone.2).scanner ∧
          ((shared.run reporters events).perform reporters i operation).result =
            (operation.perform reporter alone.1 alone.2).result

variable {reporters}

/-- One event moves a scanner if it is an operation on it, and then as it moves alone. -/
theorem scanners_after (quiet : ∀ i, (reporters i).Quiet) (shared : Shared ι ω)
    (event : Event ι ω) (i : ι) :
    (shared.after reporters event).scanners i =
      Operation.aloneAll (shared.scanners i) (event.own? i).toList := by
  cases event with
  | outside change => rfl
  | operate j operation =>
      have unopposed : (shared.perform reporters j operation).Unopposed :=
        Operation.unopposed_of_quiet (quiet j) operation
      by_cases own : j = i
      · subst own
        simp only [after, Event.own?, if_pos, Function.update_self]
        rw [perform, Operation.perform_of_unopposed unopposed]
        rfl
      · simp only [after, Event.own?, if_neg own]
        exact Function.update_of_ne (Ne.symm own) _ _

theorem scanners_run (quiet : ∀ i, (reporters i).Quiet) (shared : Shared ι ω)
    (events : List (Event ι ω)) (i : ι) :
    (shared.run reporters events).scanners i =
      Operation.aloneAll (shared.scanners i) (events.filterMap (Event.own? i)) := by
  induction events generalizing shared with
  | nil => rfl
  | cons event events ih =>
      show ((shared.after reporters event).run reporters events).scanners i = _
      rw [ih, scanners_after quiet, Operation.aloneAll_filterMap_cons]

/-- **Scanners that share a world go their own ways, if no reporter ever objects.** -/
theorem goesAlone_of_quiet (quiet : ∀ i, (reporters i).Quiet) (shared : Shared ι ω)
    (events : List (Event ι ω)) (i : ι) : shared.GoesAlone reporters events i := by
  intro σ reporter sink quiet'
  have stands : (shared.run reporters events).scanners i = _ := scanners_run quiet shared events i
  rw [← Operation.performAll_of_quiet quiet' _ sink] at stands
  refine ⟨stands, fun operation => ?_⟩
  rw [perform, stands]
  exact Operation.perform_congr (Operation.unopposed_of_quiet (quiet i) operation)
    (Operation.unopposed_of_quiet quiet' operation)

end Shared

end LoxLexis

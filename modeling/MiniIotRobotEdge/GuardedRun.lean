import Mathlib.Logic.Relation

/-!
# Runs of a system that records events

A system is a partial step function which also reports what happened.  `Traced`
keeps the reports of a run beside the state, newest first.  Every step of a run
is made under a condition on the state before it; a list of actions that is
executed under a decidable test of that condition is such a run.
-/

namespace MiniIotRobotEdge

namespace GuardedRun

open Relation

/-- A state together with the events that led to it. -/
structure Traced (State Event : Type*) where
  state : State
  trace : List Event

variable {State Action Event : Type*} (exec : Nat → State → Action → Option (State × List Event))
  (allowed : State → Action → Prop)

/-- One step under a condition on the state before it; the number is the fuel
of the loops in the step. -/
def Step (before after : Traced State Event) : Prop :=
  ∃ fuel action events, allowed before.state action ∧
    exec fuel before.state action = some (after.state, events) ∧
    after.trace = events ++ before.trace

/-- The states of all runs from `initial` whose steps are allowed. -/
def Reachable (initial : State) (current : Traced State Event) : Prop :=
  ReflTransGen (Step exec allowed) ⟨initial, []⟩ current

variable {exec allowed} {initial : State} {current : Traced State Event}

/-- What holds at the start and is kept by every allowed step holds along all
runs. -/
theorem Reachable.invariant (property : Traced State Event → Prop)
    (base : property ⟨initial, []⟩)
    (kept : ∀ fuel before action after events, property before →
      allowed before.state action → exec fuel before.state action = some (after, events) →
      property ⟨after, events ++ before.trace⟩)
    (run : Reachable exec allowed initial current) : property current := by
  induction run with
  | refl => exact base
  | @tail before after _ step ih =>
      obtain ⟨fuel, action, events, permitted, stepped, traced⟩ := step
      have next := kept fuel before action after.state events ih permitted stepped
      rw [← traced] at next
      exact next

/-- Execute a list of actions, each under a decidable guard. -/
def execAll (exec : Nat → State → Action → Option (State × List Event))
    (guard : State → Action → Bool) (fuel : Nat) :
    List Action → Traced State Event → Option (Traced State Event)
  | [], current => some current
  | action :: rest, current =>
      if guard current.state action then
        (exec fuel current.state action).bind fun (state, events) =>
          execAll exec guard fuel rest ⟨state, events ++ current.trace⟩
      else none

theorem execAll_run {guard : State → Action → Bool}
    (sound : ∀ state action, guard state action = true → allowed state action)
    {fuel : Nat} {actions : List Action} {first last : Traced State Event}
    (executed : execAll exec guard fuel actions first = some last) :
    ReflTransGen (Step exec allowed) first last := by
  induction actions generalizing first with
  | nil =>
      obtain rfl : first = last := by simpa [execAll] using executed
      exact .refl
  | cons action rest ih =>
      rw [execAll] at executed
      split at executed
      case isFalse => simp at executed
      case isTrue guarded =>
        obtain ⟨⟨state, events⟩, stepped, remaining⟩ :=
          Option.bind_eq_some_iff.mp executed
        have step : Step exec allowed first ⟨state, events ++ first.trace⟩ :=
          ⟨fuel, action, events, sound _ _ guarded, stepped, rfl⟩
        exact .head step (ih remaining)

/-- A list of guarded actions leads to a reachable state with a decidable
property. -/
theorem exists_reachable (exec : Nat → State → Action → Option (State × List Event))
    (initial : State) {guard : State → Action → Bool}
    (sound : ∀ state action, guard state action = true → allowed state action)
    (fuel : Nat) (actions : List Action) (property : Traced State Event → Prop)
    [DecidablePred property]
    (passed : (execAll exec guard fuel actions ⟨initial, []⟩).any
      (fun current => decide (property current)) = true) :
    ∃ current, Reachable exec allowed initial current ∧ property current := by
  obtain ⟨current, executed, holds⟩ := (Option.any_eq_true _ _).mp passed
  exact ⟨current, execAll_run sound executed, by simpa using holds⟩

/-- The same where the guard is only sound in the states that the run passes. -/
theorem execAll_run_within {guard : State → Action → Bool} {inside : State → Prop}
    (kept : ∀ fuel state action after events, inside state → guard state action = true →
      exec fuel state action = some (after, events) → inside after)
    (sound : ∀ state action, inside state → guard state action = true → allowed state action)
    {fuel : Nat} {actions : List Action} {first last : Traced State Event}
    (start : inside first.state) (executed : execAll exec guard fuel actions first = some last) :
    ReflTransGen (Step exec allowed) first last ∧ inside last.state := by
  induction actions generalizing first with
  | nil =>
      obtain rfl : first = last := by simpa [execAll] using executed
      exact ⟨.refl, start⟩
  | cons action rest ih =>
      rw [execAll] at executed
      split at executed
      case isFalse => simp at executed
      case isTrue guarded =>
        obtain ⟨⟨state, events⟩, stepped, remaining⟩ :=
          Option.bind_eq_some_iff.mp executed
        have step : Step exec allowed first ⟨state, events ++ first.trace⟩ :=
          ⟨fuel, action, events, sound _ _ start guarded, stepped, rfl⟩
        obtain ⟨run, ended⟩ := ih (kept _ _ _ _ _ start guarded stepped) remaining
        exact ⟨.head step run, ended⟩

/-- The condition of an unrestricted run. -/
def AnyStep (_ : State) (_ : Action) : Prop := True

theorem exists_anyStep (exec : Nat → State → Action → Option (State × List Event))
    (initial : State) (fuel : Nat) (actions : List Action)
    (property : Traced State Event → Prop) [DecidablePred property]
    (passed : (execAll exec (fun _ _ => true) fuel actions ⟨initial, []⟩).any
      (fun current => decide (property current)) = true) :
    ∃ current, Reachable exec AnyStep initial current ∧ property current :=
  exists_reachable exec initial (fun _ _ _ => trivial) fuel actions property passed

end GuardedRun

end MiniIotRobotEdge

import Mathlib.Data.List.Infix
import Mathlib.Tactic.Basic
import Mathlib.Tactic.Common

/-!
# Runs of a deterministic component

A component is a total step function over the calls made to it.  `after` is the
state that a list of calls leads to.  A property of single steps, and a
condition on the state before a step, are both asked `Throughout` a run; a
property of states is asked `Always`.
-/

namespace MiniIotRobotEdge

namespace StepRuns

variable {State Action : Type*} (step : State → Action → State)

/-- The state after a list of calls. -/
def after (initial : State) (actions : List Action) : State :=
  actions.foldl step initial

/-- Every step of the run satisfies the condition. -/
def Throughout (condition : State → Action → Prop) : State → List Action → Prop
  | _, [] => True
  | state, action :: rest =>
      condition state action ∧ Throughout condition (step state action) rest

/-- The property holds in every state of the run, the first and the last one
included. -/
def Always (property : State → Prop) (initial : State) (actions : List Action) : Prop :=
  ∀ before, before <+: actions → property (after step initial before)

@[simp] theorem after_cons (initial : State) (action : Action) (rest : List Action) :
    after step initial (action :: rest) = after step (step initial action) rest :=
  rfl

variable {step} {initial : State} {actions : List Action}

theorem always_cons_iff {property : State → Prop} {action : Action} {rest : List Action} :
    Always step property initial (action :: rest) ↔
      property initial ∧ Always step property (step initial action) rest := by
  constructor
  · intro always
    refine ⟨always [] List.nil_prefix, fun before isPrefix => ?_⟩
    exact always (action :: before) ((List.prefix_cons_inj action).mpr isPrefix)
  · rintro ⟨first, later⟩ before isPrefix
    cases before with
    | nil => exact first
    | cons head tail =>
        obtain ⟨rfl, isTail⟩ := List.cons_prefix_cons.mp isPrefix
        exact later tail isTail

theorem Always.last {property : State → Prop} (always : Always step property initial actions) :
    property (after step initial actions) :=
  always actions List.prefix_rfl

theorem Always.imp {first second : State → Prop} (implies : ∀ state, first state → second state)
    (always : Always step first initial actions) : Always step second initial actions :=
  fun before isPrefix => implies _ (always before isPrefix)

/-- What holds at the start and is kept by every step holds in every state. -/
theorem always_of_kept {invariant : State → Prop}
    (kept : ∀ state action, invariant state → invariant (step state action))
    (base : invariant initial) : Always step invariant initial actions := by
  induction actions generalizing initial with
  | nil =>
      intro before isPrefix
      rw [List.prefix_nil.mp isPrefix]
      exact base
  | cons action rest ih =>
      exact always_cons_iff.mpr ⟨base, ih (kept initial action base)⟩

/-- Two conditions on steps that agree under an invariant agree on runs. -/
theorem throughout_iff {first second : State → Action → Prop} {invariant : State → Prop}
    (kept : ∀ state action, invariant state → first state action → second state action →
      invariant (step state action))
    (same : ∀ state action, invariant state → (first state action ↔ second state action))
    (base : invariant initial) :
    Throughout step first initial actions ↔ Throughout step second initial actions := by
  induction actions generalizing initial with
  | nil => exact Iff.rfl
  | cons action rest ih =>
      have agree := same initial action base
      constructor
      · rintro ⟨holds, later⟩
        have next := kept initial action base holds (agree.mp holds)
        exact ⟨agree.mp holds, (ih next).mp later⟩
      · rintro ⟨holds, later⟩
        have next := kept initial action base (agree.mpr holds) holds
        exact ⟨agree.mpr holds, (ih next).mpr later⟩

theorem throughout_of_forall {condition : State → Action → Prop}
    (holds : ∀ state action, condition state action) :
    Throughout step condition initial actions := by
  induction actions generalizing initial with
  | nil => trivial
  | cons action rest ih => exact ⟨holds initial action, ih⟩

theorem throughout_congr {first second : State → Action → Prop}
    (same : ∀ state action, first state action ↔ second state action) :
    Throughout step first initial actions ↔ Throughout step second initial actions := by
  have equal : first = second := by
    ext state action
    exact same state action
  rw [equal]

/-- A step property that the condition implies under an invariant holds
throughout every run under the condition. -/
theorem Throughout.imp {first second : State → Action → Prop} {invariant : State → Prop}
    (kept : ∀ state action, invariant state → first state action →
      invariant (step state action))
    (implies : ∀ state action, invariant state → first state action → second state action)
    (base : invariant initial) (run : Throughout step first initial actions) :
    Throughout step second initial actions := by
  induction actions generalizing initial with
  | nil => trivial
  | cons action rest ih =>
      exact ⟨implies initial action base run.1, ih (kept initial action base run.1) run.2⟩

theorem Throughout.of_prefix {condition : State → Action → Prop} {before : List Action}
    (run : Throughout step condition initial actions) (isPrefix : before <+: actions) :
    Throughout step condition initial before := by
  induction before generalizing initial actions with
  | nil => trivial
  | cons action rest ih =>
      obtain ⟨later, rfl⟩ := isPrefix
      exact ⟨run.1, ih run.2 (List.prefix_append rest later)⟩

/-- A property of states holds all along a run of allowed calls exactly when
every step meets the condition that decides whether the step keeps the
property. -/
theorem Throughout.always_iff {property invariant : State → Prop}
    {allowed condition : State → Action → Prop}
    (kept : ∀ state action, invariant state → allowed state action → condition state action →
      invariant (step state action))
    (decidesStep : ∀ state action, invariant state → property state → allowed state action →
      (property (step state action) ↔ condition state action))
    (base : invariant initial) (holds : property initial)
    (run : Throughout step allowed initial actions) :
    Always step property initial actions ↔ Throughout step condition initial actions := by
  induction actions generalizing initial with
  | nil =>
      refine ⟨fun _ => trivial, fun _ before isPrefix => ?_⟩
      rw [List.prefix_nil.mp isPrefix]
      exact holds
  | cons action rest ih =>
      have decides := decidesStep initial action base holds run.1
      rw [always_cons_iff]
      constructor
      · rintro ⟨_, later⟩
        have next : property (step initial action) := later [] List.nil_prefix
        have met := decides.mp next
        exact ⟨met, (ih (kept initial action base run.1 met) next run.2).mp later⟩
      · rintro ⟨met, later⟩
        have next := decides.mpr met
        exact ⟨holds, (ih (kept initial action base run.1 met) next run.2).mpr later⟩

/-- The same for a component that allows every call. -/
theorem always_iff_throughout {property invariant : State → Prop}
    {condition : State → Action → Prop}
    (kept : ∀ state action, invariant state → invariant (step state action))
    (decidesStep : ∀ state action, invariant state → property state →
      (property (step state action) ↔ condition state action))
    (base : invariant initial) (holds : property initial) :
    Always step property initial actions ↔ Throughout step condition initial actions := by
  have run : Throughout step (fun _ _ => True) initial actions :=
    throughout_of_forall fun _ _ => trivial
  apply run.always_iff _ _ base holds
  · exact fun state action before _ _ => kept state action before
  · exact fun state action before now _ => decidesStep state action before now

theorem throughout_and_iff {first second : State → Action → Prop} :
    Throughout step (fun state action => first state action ∧ second state action) initial
        actions ↔
      Throughout step first initial actions ∧ Throughout step second initial actions := by
  induction actions generalizing initial with
  | nil => exact ⟨fun _ => ⟨trivial, trivial⟩, fun _ => trivial⟩
  | cons action rest ih =>
      simp only [Throughout]
      rw [ih]
      exact and_and_and_comm

/-- A property of states is one of the steps into them. -/
theorem always_iff_throughout_next {property : State → Prop} :
    Always step property initial actions ↔
      property initial ∧
        Throughout step (fun state action => property (step state action)) initial actions := by
  induction actions generalizing initial with
  | nil =>
      constructor
      · exact fun always => ⟨always [] List.nil_prefix, trivial⟩
      · rintro ⟨holds, _⟩ before isPrefix
        rw [List.prefix_nil.mp isPrefix]
        exact holds
  | cons action rest ih => rw [always_cons_iff, ih, Throughout]

end StepRuns

/-!
## Components that answer

A component takes calls one after the other and answers each of them.  An
abstract component says what a call may be answered and what it leaves.  When
every step of the component is one that the abstract component allows, all the
answers of a run are.
-/

namespace AnsweredRuns

variable {State Abstract Action Answer : Type*}

/-- The state after a list of calls, and the answers. -/
def run (step : State → Action → State × Answer) : State → List Action → State × List Answer
  | state, [] => (state, [])
  | state, action :: rest =>
      let later := run step (step state action).1 rest
      (later.1, (step state action).2 :: later.2)

/-- The abstract component may give these answers, and is left in the last state. -/
inductive Permits (allows : Abstract → Action → Answer → Abstract → Prop) :
    Abstract → List Action → List Answer → Abstract → Prop
  | nil (state : Abstract) : Permits allows state [] [] state
  | cons {state next last : Abstract} {action : Action} {answer : Answer} {rest : List Action}
      {answers : List Answer} (allowed : allows state action answer next)
      (later : Permits allows next rest answers last) :
      Permits allows state (action :: rest) (answer :: answers) last

/-- Every step is one that the abstract component allows. -/
def Simulates (step : State → Action → State × Answer)
    (allows : Abstract → Action → Answer → Abstract → Prop)
    (relates : State → Abstract → Prop) : Prop :=
  ∀ state abstract action, relates state abstract →
    ∃ next, allows abstract action (step state action).2 next ∧ relates (step state action).1 next

variable {step : State → Action → State × Answer}
  {allows : Abstract → Action → Answer → Abstract → Prop} {relates : State → Abstract → Prop}

theorem Simulates.run (simulates : Simulates step allows relates) {state : State}
    {abstract : Abstract} (related : relates state abstract) (actions : List Action) :
    ∃ last, Permits allows abstract actions (run step state actions).2 last ∧
      relates (AnsweredRuns.run step state actions).1 last := by
  induction actions generalizing state abstract with
  | nil => exact ⟨abstract, .nil abstract, related⟩
  | cons action rest ih =>
      obtain ⟨next, allowed, stepped⟩ := simulates state abstract action related
      obtain ⟨last, later, ended⟩ := ih stepped
      exact ⟨last, .cons allowed later, ended⟩

/-- An abstract component that leaves nothing open gives exactly the answers of its
own run. -/
theorem permits_run {abstractStep : Abstract → Action → Abstract × Answer}
    {abstract last : Abstract} {actions : List Action} {answers : List Answer}
    (permits : Permits (fun state action answer next => abstractStep state action = (next, answer))
      abstract actions answers last) :
    AnsweredRuns.run abstractStep abstract actions = (last, answers) := by
  induction permits with
  | nil state => rfl
  | cons allowed later ih => rw [AnsweredRuns.run, allowed, ih]

end AnsweredRuns

end MiniIotRobotEdge

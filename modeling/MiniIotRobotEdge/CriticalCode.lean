import Mathlib.Data.BitVec
import Mathlib.Data.List.Basic

/-!
# Structured code with critical sections

A small imperative language with tests, actions, loops, calls and early
returns, in which code enters and leaves critical sections by hand and may
sleep.  `exec` runs it over an arbitrary interpretation of the tests and
actions.  `depthAfter` computes how many sections are open behind a piece of
code and fails where two paths disagree; code that passes is balanced in every
run.
-/

namespace MiniIotRobotEdge

namespace CriticalCode

/-- Code over names of tests and of actions. -/
inductive Code (Test Act : Type)
  | skip
  | act (action : Act)
  | enter
  | exit
  | sleep
  | ret
  | seq (first second : Code Test Act)
  | cond (test : Test) (yes no : Code Test Act)
  | loop (test : Test) (body : Code Test Act)
  | call (body : Code Test Act)

variable {Test Act σ : Type}

/-- One piece of code behind the other. -/
def Code.block : List (Code Test Act) → Code Test Act
  | [] => .skip
  | first :: rest => .seq first (Code.block rest)

/-- What the tests and the actions mean. -/
structure World (Test Act σ : Type) where
  test : Test → σ → Bool
  act : Act → σ → σ

inductive Event
  | enter
  | exit
  | sleep
  deriving DecidableEq, Repr

/-- The data, the counter of open sections, and the events with the counter
before each, the last event first. -/
structure Machine (σ : Type) where
  data : σ
  nesting : BitVec 32
  log : List (Event × BitVec 32)

/-- Whether code ran to its end, returned, or is still running. -/
inductive Outcome
  | running
  | done
  | returned
  deriving DecidableEq, Repr

def Machine.record (machine : Machine σ) (event : Event) : Machine σ :=
  { machine with log := (event, machine.nesting) :: machine.log }

/-- Run code for a number of steps. -/
def exec (world : World Test Act σ) : Nat → Code Test Act → Machine σ → Outcome × Machine σ
  | 0, _, machine => (.running, machine)
  | _ + 1, .skip, machine => (.done, machine)
  | _ + 1, .act action, machine =>
      (.done, { machine with data := world.act action machine.data })
  | _ + 1, .enter, machine =>
      (.done, { machine.record .enter with nesting := machine.nesting + 1 })
  | _ + 1, .exit, machine =>
      (.done, { machine.record .exit with nesting := machine.nesting - 1 })
  | _ + 1, .sleep, machine => (.done, machine.record .sleep)
  | _ + 1, .ret, machine => (.returned, machine)
  | fuel + 1, .seq first second, machine =>
      match exec world fuel first machine with
      | (.done, next) => exec world fuel second next
      | stopped => stopped
  | fuel + 1, .cond test yes no, machine =>
      if world.test test machine.data then exec world fuel yes machine
      else exec world fuel no machine
  | fuel + 1, .loop test body, machine =>
      if world.test test machine.data then
        match exec world fuel body machine with
        | (.done, next) => exec world fuel (.loop test body) next
        | stopped => stopped
      else (.done, machine)
  | fuel + 1, .call body, machine =>
      match exec world fuel body machine with
      | (.running, next) => (.running, next)
      | (_, next) => (.done, next)

/-- The sections that are open when both of two paths go on; `none` for a path
that does not. -/
def joinDepth : Option Nat → Option Nat → Option (Option Nat)
  | none, other => some other
  | other, none => some other
  | some first, some second => if first = second then some (some first) else none

/-- The path goes on with as many open sections as it started with, if it goes
on at all. -/
def returnsTo (depth : Nat) : Option Nat → Option (Option Nat)
  | none => some (some depth)
  | some reached => if reached = depth then some (some depth) else none

/-- The sections that are open behind `code` when `depth` are open before it.
A function that was called with `base` open sections leaves only its own and
returns with `base`; sleeping needs all of them closed. -/
def depthAfter (base : Nat) : Code Test Act → Nat → Option (Option Nat)
  | .skip, depth => some (some depth)
  | .act _, depth => some (some depth)
  | .enter, depth => some (some (depth + 1))
  | .exit, depth => if base < depth then some (some (depth - 1)) else none
  | .sleep, depth => if depth = 0 then some (some 0) else none
  | .ret, depth => if depth = base then some none else none
  | .seq first second, depth =>
      (depthAfter base first depth).bind fun reached =>
        match reached with
        | none => some none
        | some between => depthAfter base second between
  | .cond _ yes no, depth =>
      (depthAfter base yes depth).bind fun first =>
        (depthAfter base no depth).bind fun second => joinDepth first second
  | .loop _ body, depth => (depthAfter base body depth).bind (returnsTo depth)
  | .call body, depth => (depthAfter depth body depth).bind (returnsTo depth)

/-- Called without open sections, the code returns without open sections. -/
def Balanced (code : Code Test Act) : Prop :=
  depthAfter 0 (.call code) 0 = some (some 0)

instance (code : Code Test Act) : Decidable (Balanced code) :=
  inferInstanceAs (Decidable (_ = _))

/-- The rule for a statement that goes on to the next one. -/
theorem depthAfter_seq {base depth between : Nat} {first second : Code Test Act}
    {reached : Option Nat} (firstChecked : depthAfter base first depth = some (some between))
    (secondChecked : depthAfter base second between = some reached) :
    depthAfter base (.seq first second) depth = some reached := by
  rw [depthAfter, firstChecked]
  exact secondChecked

/-- The rule for a function whose last statement returns. -/
theorem balanced_of_returns {code : Code Test Act} (checked : depthAfter 0 code 0 = some none) :
    Balanced code := by
  rw [Balanced, depthAfter, checked]
  rfl

/-- The sections that the events of a log have opened and not closed. -/
def opened : List (Event × BitVec 32) → Nat
  | [] => 0
  | (.enter, _) :: log => opened log + 1
  | (.exit, _) :: log => opened log - 1
  | (.sleep, _) :: log => opened log

/-- Every exit closes a section that the log has opened, and every sleep finds
the counter as it was at the start. -/
def LogSound (entry : BitVec 32) : List (Event × BitVec 32) → Prop
  | [] => True
  | (event, counter) :: log =>
      LogSound entry log ∧ counter = entry + BitVec.ofNat 32 (opened log) ∧
        (event = .exit → 0 < opened log) ∧ (event = .sleep → counter = entry)

/-- The machine has `depth` sections open. -/
structure AtDepth (entry : BitVec 32) (depth : Nat) (machine : Machine σ) : Prop where
  nesting : machine.nesting = entry + BitVec.ofNat 32 depth
  opened : opened machine.log = depth
  log : LogSound entry machine.log

/-- What `depthAfter` promises about the end of a run. -/
structure EndsAt (entry : BitVec 32) (base : Nat) (reached : Option Nat)
    (result : Outcome × Machine σ) : Prop where
  log : LogSound entry result.2.log
  done : result.1 = .done → ∃ depth, reached = some depth ∧ AtDepth entry depth result.2
  returned : result.1 = .returned → AtDepth entry base result.2

section Soundness

variable {entry : BitVec 32} {base depth : Nat} {machine : Machine σ}

theorem EndsAt.of_done {next : Machine σ} (atDepth : AtDepth entry depth next) :
    EndsAt entry base (some depth) (.done, next) where
  log := atDepth.log
  done := fun _ => ⟨depth, rfl, atDepth⟩
  returned := fun impossible => by simp at impossible

theorem EndsAt.of_running {reached : Option Nat} {next : Machine σ}
    (log : LogSound entry next.log) : EndsAt entry base reached (.running, next) where
  log := log
  done := fun impossible => by simp at impossible
  returned := fun impossible => by simp at impossible

theorem EndsAt.of_returned {reached : Option Nat} {next : Machine σ}
    (atDepth : AtDepth entry base next) : EndsAt entry base reached (.returned, next) where
  log := atDepth.log
  done := fun impossible => by simp at impossible
  returned := fun _ => atDepth

/-- Code that ends at the depth of a part ends at that of the whole. -/
theorem EndsAt.join {part reached : Option Nat} {result : Outcome × Machine σ}
    (ends : EndsAt entry base part result)
    (joins : ∀ depth, part = some depth → reached = some depth) :
    EndsAt entry base reached result where
  log := ends.log
  done := by
    intro isDone
    obtain ⟨depth, isDepth, atDepth⟩ := ends.done isDone
    exact ⟨depth, joins depth isDepth, atDepth⟩
  returned := ends.returned

/-- Code that does not go on says nothing about what stands behind it. -/
theorem EndsAt.of_stopped {part reached : Option Nat} {result : Outcome × Machine σ}
    (ends : EndsAt entry base part result) (stopped : ∀ next, result ≠ (.done, next)) :
    EndsAt entry base reached result where
  log := ends.log
  done := by
    intro isDone
    have goesOn : result = (.done, result.2) := Prod.ext isDone rfl
    exact absurd goesOn (stopped result.2)
  returned := ends.returned

theorem AtDepth.act (atDepth : AtDepth entry depth machine) (data : σ) :
    AtDepth entry depth { machine with data := data } :=
  ⟨atDepth.nesting, atDepth.opened, atDepth.log⟩

theorem AtDepth.enter (atDepth : AtDepth entry depth machine) :
    AtDepth entry (depth + 1)
      { machine.record .enter with nesting := machine.nesting + 1 } where
  nesting := by
    change machine.nesting + 1 = _
    rw [atDepth.nesting, BitVec.add_assoc, BitVec.ofNat_add]
    rfl
  opened := congrArg (· + 1) atDepth.opened
  log := by
    refine ⟨atDepth.log, ?_, by simp, by simp⟩
    rw [atDepth.opened, atDepth.nesting]

theorem AtDepth.exit (atDepth : AtDepth entry (depth + 1) machine) :
    AtDepth entry depth
      { machine.record .exit with nesting := machine.nesting - 1 } where
  nesting := by
    change machine.nesting - 1 = _
    rw [atDepth.nesting, BitVec.ofNat_add, ← BitVec.add_assoc]
    exact BitVec.add_sub_cancel _ _
  opened := congrArg (· - 1) atDepth.opened
  log := by
    refine ⟨atDepth.log, ?_, ?_, by simp⟩
    · rw [atDepth.opened, atDepth.nesting]
    · intro _
      rw [atDepth.opened]
      omega

theorem AtDepth.sleep (atDepth : AtDepth entry 0 machine) :
    AtDepth entry 0 (machine.record .sleep) where
  nesting := atDepth.nesting
  opened := atDepth.opened
  log := by
    have counter := atDepth.nesting
    refine ⟨atDepth.log, ?_, by simp, ?_⟩
    · rw [atDepth.opened, counter]
    · intro _
      rw [counter]
      exact BitVec.add_zero entry

theorem joinDepth_left {first second reached : Option Nat}
    (joined : joinDepth first second = some reached) {depth : Nat} (goesOn : first = some depth) :
    reached = some depth := by
  subst goesOn
  cases second with
  | none => exact (Option.some.inj joined).symm
  | some other =>
      rw [joinDepth] at joined
      split at joined
      · exact (Option.some.inj joined).symm
      · simp at joined

theorem joinDepth_right {first second reached : Option Nat}
    (joined : joinDepth first second = some reached) {depth : Nat} (goesOn : second = some depth) :
    reached = some depth := by
  subst goesOn
  cases first with
  | none => exact (Option.some.inj joined).symm
  | some other =>
      rw [joinDepth] at joined
      split at joined
      case isTrue same => exact (Option.some.inj joined).symm.trans (congrArg some same)
      case isFalse => simp at joined

theorem returnsTo_eq_some {reached result : Option Nat}
    (returns : returnsTo depth reached = some result) :
    result = some depth ∧ ∀ other, reached = some other → other = depth := by
  cases reached with
  | none => exact ⟨(Option.some.inj returns).symm, by simp⟩
  | some reached =>
      rw [returnsTo] at returns
      split at returns
      case isTrue same =>
        refine ⟨(Option.some.inj returns).symm, ?_⟩
        intro other isOther
        exact (Option.some.inj isOther).symm.trans same
      case isFalse => simp at returns

/-- Code that passes the check ends with the sections it should have open. -/
theorem exec_endsAt (world : World Test Act σ) (fuel : Nat) {code : Code Test Act}
    {reached : Option Nat} (checked : depthAfter base code depth = some reached)
    (atDepth : AtDepth entry depth machine) :
    EndsAt entry base reached (exec world fuel code machine) := by
  induction fuel generalizing code base depth reached machine with
  | zero => exact EndsAt.of_running atDepth.log
  | succ fuel ih =>
      cases code with
      | skip =>
          cases checked
          exact EndsAt.of_done atDepth
      | act action =>
          cases checked
          exact EndsAt.of_done (atDepth.act _)
      | enter =>
          cases checked
          exact EndsAt.of_done atDepth.enter
      | exit =>
          rw [depthAfter] at checked
          split at checked
          case isFalse => simp at checked
          case isTrue inside =>
            cases checked
            obtain ⟨lower, rfl⟩ : ∃ lower, depth = lower + 1 := ⟨depth - 1, by omega⟩
            exact EndsAt.of_done atDepth.exit
      | sleep =>
          rw [depthAfter] at checked
          split at checked
          case isFalse => simp at checked
          case isTrue closed =>
            cases checked
            subst closed
            exact EndsAt.of_done atDepth.sleep
      | ret =>
          rw [depthAfter] at checked
          split at checked
          case isFalse => simp at checked
          case isTrue atBase =>
            subst atBase
            exact EndsAt.of_returned atDepth
      | seq first second =>
          obtain ⟨between, firstChecked, secondChecked⟩ := Option.bind_eq_some_iff.mp checked
          have firstEnds := ih firstChecked atDepth
          rw [exec]
          split
          case h_1 next isNext =>
            rw [isNext] at firstEnds
            obtain ⟨reachedFirst, rfl, atNext⟩ := firstEnds.done rfl
            exact ih secondChecked atNext
          case h_2 stopped =>
            exact firstEnds.of_stopped stopped
      | cond test yes no =>
          obtain ⟨first, yesChecked, rest⟩ := Option.bind_eq_some_iff.mp checked
          obtain ⟨second, noChecked, joined⟩ := Option.bind_eq_some_iff.mp rest
          rw [exec]
          split
          · apply (ih yesChecked atDepth).join
            intro goal isGoal
            exact joinDepth_left joined isGoal
          · apply (ih noChecked atDepth).join
            intro goal isGoal
            exact joinDepth_right joined isGoal
      | loop test body =>
          obtain ⟨bodyReached, bodyChecked, returns⟩ := Option.bind_eq_some_iff.mp checked
          obtain ⟨rfl, same⟩ := returnsTo_eq_some returns
          rw [exec]
          split
          · have bodyEnds := ih bodyChecked atDepth
            split
            case h_1 next isNext =>
              rw [isNext] at bodyEnds
              obtain ⟨goal, isGoal, atGoal⟩ := bodyEnds.done rfl
              rw [same goal isGoal] at atGoal
              exact ih checked atGoal
            case h_2 stopped =>
              exact bodyEnds.of_stopped stopped
          · exact EndsAt.of_done atDepth
      | call body =>
          obtain ⟨bodyReached, bodyChecked, returns⟩ := Option.bind_eq_some_iff.mp checked
          obtain ⟨rfl, same⟩ := returnsTo_eq_some returns
          have bodyEnds := ih bodyChecked atDepth
          rw [exec]
          split
          case h_1 next isNext =>
            rw [isNext] at bodyEnds
            exact EndsAt.of_running bodyEnds.log
          case h_2 outcome next notRunning isNext =>
            rw [isNext] at bodyEnds
            cases outcome with
            | running => exact absurd rfl (notRunning)
            | done =>
                obtain ⟨goal, isGoal, atGoal⟩ := bodyEnds.done rfl
                rw [same goal isGoal] at atGoal
                exact EndsAt.of_done atGoal
            | returned => exact EndsAt.of_done (bodyEnds.returned rfl)

/-- A balanced function leaves the counter as it found it, sleeps only there,
and never leaves a section that it has not entered. -/
theorem Balanced.exec {code : Code Test Act} (balanced : Balanced code)
    (world : World Test Act σ) (fuel : Nat) (data : σ) (entry : BitVec 32) :
    LogSound entry (exec world fuel (.call code) ⟨data, entry, []⟩).2.log ∧
      ((exec world fuel (.call code) ⟨data, entry, []⟩).1 ≠ .running →
        (exec world fuel (.call code) ⟨data, entry, []⟩).2.nesting = entry) := by
  have start : AtDepth entry 0 (⟨data, entry, []⟩ : Machine σ) :=
    ⟨(BitVec.add_zero entry).symm, rfl, trivial⟩
  have ends := exec_endsAt world fuel balanced start
  refine ⟨ends.log, fun stopped => ?_⟩
  have atEntry : AtDepth entry 0 (CriticalCode.exec world fuel (.call code)
      ⟨data, entry, []⟩).2 := by
    cases outcome : (CriticalCode.exec world fuel (.call code) ⟨data, entry, []⟩).1 with
    | running => exact absurd outcome stopped
    | done =>
        obtain ⟨goal, isGoal, atGoal⟩ := ends.done outcome
        cases isGoal
        exact atGoal
    | returned => exact ends.returned outcome
  exact atEntry.nesting.trans (BitVec.add_zero entry)

end Soundness

end CriticalCode

end MiniIotRobotEdge

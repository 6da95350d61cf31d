import MiniIotRobotEdge.GuardedRun
import MiniIotRobotEdge.RtosPriorityInheritance

/-!
# Runs with priority inheritance

A second stronger blocker overwrites the saved priority, priority zero counts as nothing
saved, and a hand-off passes the mutex on without the inheritance.  This file keeps beside
the system the priorities with which the mutexes were acquired, and proves that inheritance
works in every run that avoids these steps.
-/

namespace MiniIotRobotEdge

namespace Rtos

open GuardedRun PriorityInheritance

/-- The system, and the priority with which the owner of each mutex acquired it. -/
structure InheritSystem where
  system : SyncSystem
  base : Nat → Nat

/-- A step gives the mutex to a task. -/
def acquiredBy (before after : SyncSystem) (events : List Event) (mutex : Nat) : Bool :=
  (decide ((before.mutexes mutex).held = 0) && decide ((after.mutexes mutex).held ≠ 0)) ||
    events.any fun
      | .handedOff object _ => object = mutex
      | _ => false

def baseAfter (base : Nat → Nat) (before after : SyncSystem) (events : List Event)
    (mutex : Nat) : Nat :=
  if acquiredBy before after events mutex then
    match (after.mutexes mutex).owner with
    | none => 0
    | some owner => (after.kernel.tcb owner).priority
  else base mutex

def execInherit (fuel : Nat) (current : InheritSystem) (action : Action) :
    Option (InheritSystem × List Event) :=
  (exec fuel current.system action).map fun (after, events) =>
    (⟨after, baseAfter current.base current.system after events⟩, events)

/-- While a mutex is held, its owner is at least as urgent as every task that waits for it. -/
def OwnersDominate (system : SyncSystem) : Prop :=
  ∀ mutex owner task, (system.mutexes mutex).owner = some owner → system.WaitsFor task mutex →
    (system.kernel.tcb task).priority ≤ (system.kernel.tcb owner).priority

/-- The priority that the owner of a mutex has after its last unlock. -/
def SyncSystem.restoredPriority (system : SyncSystem) (mutex : Nat) (owner : TaskId) : Nat :=
  if 0 < (system.mutexes mutex).ownerOriginalPriority then
    (system.mutexes mutex).ownerOriginalPriority
  else (system.kernel.tcb owner).priority

/-- A step for which one saved priority for each mutex is enough. -/
structure InheritanceFits (current : InheritSystem) (action : Action) : Prop where
  /-- A blocker that is more urgent than the owner finds it at the priority with which it
  acquired the mutex. -/
  firstRaise : ∀ task mutex owner, action = .run task →
    current.system.blocksOn task = some (.mutex mutex) →
      (current.system.mutexes mutex).owner = some owner →
        (current.system.kernel.tcb owner).priority < (current.system.kernel.tcb task).priority →
          (current.system.kernel.tcb owner).priority = current.base mutex
  /-- That owner does not wait itself for a mutex of somebody less urgent. -/
  chained : ∀ task mutex owner other holder, action = .run task →
    current.system.blocksOn task = some (.mutex mutex) →
      (current.system.mutexes mutex).owner = some owner →
        (current.system.kernel.tcb owner).priority < (current.system.kernel.tcb task).priority →
          current.system.WaitsFor owner other →
            (current.system.mutexes other).owner = some holder →
              (current.system.kernel.tcb task).priority ≤
                (current.system.kernel.tcb holder).priority
  /-- A last unlock with nothing saved finds the owner at the priority with which it acquired
  the mutex. -/
  unsaved : ∀ task mutex, action = .run task → current.system.UnlocksLast task mutex →
    (current.system.mutexes mutex).ownerOriginalPriority = 0 →
      (current.system.kernel.tcb task).priority = current.base mutex
  /-- A last unlock leaves the owner urgent enough for its other mutexes. -/
  others : ∀ task mutex other waiter, action = .run task →
    current.system.UnlocksLast task mutex → other ≠ mutex →
      (current.system.mutexes other).owner = some task → current.system.WaitsFor waiter other →
        (current.system.kernel.tcb waiter).priority ≤
          current.system.restoredPriority mutex task
  /-- The task to which a mutex is handed off is the most urgent one that waits for it. -/
  handedOff : ∀ task mutex heir waiter, action = .run task →
    current.system.UnlocksLast task mutex →
      (current.system.mutexes mutex).blockedTasks = some heir →
        current.system.WaitsFor waiter mutex → (current.system.kernel.tcb waiter).priority ≤
          if heir = task then current.system.restoredPriority mutex task
          else (current.system.kernel.tcb heir).priority
  /-- The task that takes a free mutex is at least as urgent as those that wait for it. -/
  takesFree : ∀ task mutex waiter, action = .run task → current.system.TakesFree task mutex →
    waiter ≠ task → current.system.WaitsFor waiter mutex →
      (current.system.kernel.tcb waiter).priority ≤ (current.system.kernel.tcb task).priority

/-- The last unlock of a mutex gives its task the priority with which it acquired it. -/
def LastUnlocksRestore (allowed : InheritSystem → Action → Prop) (current : InheritSystem) :
    Prop :=
  ∀ fuel task mutex after events, current.system.UnlocksLast task mutex →
    allowed current (.run task) →
      execInherit fuel current (.run task) = some (after, events) →
        (after.system.kernel.tcb task).priority = current.base mutex

section Runs

variable {fuel : Nat} {before after : SyncSystem} {events : List Event} {action : Action}
  {base : Nat → Nat} {mutex : Nat}

theorem acquiredBy_eq_false (noHandOff : ∀ waiter, Event.handedOff mutex waiter ∉ events)
    (held : (after.mutexes mutex).held = (before.mutexes mutex).held) :
    acquiredBy before after events mutex = false := by
  have quiet : (events.any fun
      | .handedOff object _ => object = mutex
      | _ => false) = false := by
    rw [List.any_eq_false]
    intro event isEvent
    cases event with
    | handedOff object waiter =>
        rw [decide_eq_true_eq]
        rintro rfl
        exact noHandOff waiter isEvent
    | returned | copiedOut => simp
  rw [acquiredBy, quiet, held, Bool.or_false]
  by_cases free : (before.mutexes mutex).held = 0 <;> simp [free]

theorem baseAfter_of_quiet (noHandOff : ∀ waiter, Event.handedOff mutex waiter ∉ events)
    (held : (after.mutexes mutex).held = (before.mutexes mutex).held) :
    baseAfter base before after events mutex = base mutex := by
  rw [baseAfter, acquiredBy_eq_false noHandOff held]
  exact if_neg Bool.false_ne_true

/-- The invariant of a run in which inheritance works. -/
structure InheritKept (current : InheritSystem) : Prop where
  dominates : Dominates current.system.inheritance current.system.WaitsFor
  saves : Saves current.system.inheritance current.base
  unheld : ∀ mutex, (current.system.mutexes mutex).held = 0 →
    (current.system.mutexes mutex).owner = none

theorem InheritKept.step {current : InheritSystem} (kept : InheritKept current)
    (fits : InheritanceFits current action)
    (stepped : exec fuel current.system action = some (after, events)) :
    InheritKept ⟨after, baseAfter current.base current.system after events⟩ := by
  obtain ⟨dominates, saves, unheld⟩ := kept
  have owners : ∀ {state : State TaskId Nat}, after.inheritance = state →
      ∀ mutex, (after.mutexes mutex).owner = state.owner mutex := by
    rintro _ rfl mutex
    rfl
  cases exec_inheritanceStep stepped with
  | stay same fewer noHandOff =>
      have sameBase : baseAfter current.base current.system after events = current.base :=
        funext fun mutex => baseAfter_of_quiet (noHandOff mutex) (same.held mutex)
      refine ⟨?_, ?_, fun mutex free => ?_⟩
      · rw [same.state]
        exact fun mutex owner task owned waiting =>
          dominates mutex owner task owned (fewer task mutex waiting)
      · rw [same.state, sameBase]
        exact saves
      · rw [owners same.state]
        exact unheld mutex ((same.held mutex).symm.trans free)
  | block task mutex acting blocks state held waits noHandOff =>
      have sameBase : baseAfter current.base current.system after events = current.base :=
        funext fun other => baseAfter_of_quiet (noHandOff other) (held other)
      refine ⟨?_, ?_, fun other free => ?_⟩
      · rw [state]
        refine dominates.inherit (fun owner other holder owned stronger waiting isHolder => ?_)
          waits
        exact fits.chained task mutex owner other holder acting blocks owned stronger waiting
          isHolder
      · rw [state, sameBase]
        exact saves.inherit fun owner owned stronger =>
          fits.firstRaise task mutex owner acting blocks owned stronger
      · rw [owners state, inherit_owner]
        exact unheld other ((held other).symm.trans free)
  | acquire task mutex acting takes state held fewer noHandOff =>
      have sameBase : ∀ other, other ≠ mutex →
          baseAfter current.base current.system after events other = current.base other :=
        fun other differs =>
          baseAfter_of_quiet (noHandOff other) ((held other).trans (if_neg differs))
      refine ⟨?_, ?_, fun other free => ?_⟩
      · rw [state]
        exact dominates.acquire (fun waiter differs waiting =>
          fits.takesFree task mutex waiter acting takes differs waiting) fewer
      · rw [state]
        exact saves.acquire (unheld mutex takes.free) sameBase
      · have differs : other ≠ mutex := by
          rintro rfl
          simp [held] at free
        rw [owners state, acquire_owner_of_ne differs]
        exact unheld other (((held other).trans (if_neg differs)).symm.trans free)
  | release task mutex acting unlocks state held fewer handOff =>
      have sameBase : ∀ other, other ≠ mutex →
          baseAfter current.base current.system after events other = current.base other :=
        fun other differs => baseAfter_of_quiet
          (fun waiter isEvent => differs ((handOff other waiter).mp isEvent).1)
          ((held other).trans (if_neg differs))
      refine ⟨?_, ?_, fun other free => ?_⟩
      · rw [state]
        refine dominates.release (fun other waiting => ?_)
          (fun other waiter differs owned waiting =>
            fits.others task mutex other waiter acting unlocks differs owned waiting)
          (fun heir waiter isHeir waiting => ?_) fewer
        · obtain ⟨start, inside⟩ := unlocks.entering
          obtain ⟨timeout, waiting⟩ := waiting
          simp [inside, Pc.waiting] at waiting
        · have urgent := fits.handedOff task mutex heir waiter acting unlocks isHeir waiting
          by_cases same : heir = task
          · subst same
            rw [release_priority_self]
            rwa [if_pos rfl] at urgent
          · rw [release_priority_of_ne same]
            rwa [if_neg same] at urgent
      · rw [state]
        exact saves.release sameBase
      · by_cases same : other = mutex
        · subst same
          rw [owners state, release_owner_self]
          rw [held, if_pos rfl] at free
          split at free
          case isTrue none => exact none
          case isFalse => simp at free
        · rw [owners state, release_owner_of_ne same]
          exact unheld other (((held other).trans (if_neg same)).symm.trans free)

theorem InheritKept.restores {current : InheritSystem} (kept : InheritKept current) :
    LastUnlocksRestore InheritanceFits current := by
  rintro fuel task mutex next events unlocks fits executed
  obtain ⟨⟨after, reported⟩, stepped, isNext⟩ := Option.map_eq_some_iff.mp executed
  obtain ⟨rfl, rfl⟩ := Prod.mk.inj isNext
  obtain ⟨start, inside⟩ := unlocks.entering
  rw [exec_entering inside] at stepped
  obtain rfl : (mutexUnlock (dispatch current.system task) mutex task).1.setPc task .idle =
      after := congrArg Prod.fst (Option.some.inj stepped)
  have owned : ((dispatch current.system task).mutexes mutex).owner = some task := unlocks.owned
  have released := congrArg State.priority (mutexUnlock_inheritance owned unlocks.last).1
  have isTask := congrFun released task
  rw [release_priority_self] at isTask
  exact isTask.trans (kept.saves.restored_eq (fits.unsaved task mutex rfl unlocks))

/-- In every run in which one saved priority for each mutex is enough, owners are at least as
urgent as the tasks that wait for them, and get their own priority back. -/
theorem priorityInheritance {initial : InheritSystem} (start : initial.system.Initial)
    {current : GuardedRun.Traced InheritSystem Event}
    (run : Reachable execInherit InheritanceFits initial current) :
    OwnersDominate current.state.system ∧
      LastUnlocksRestore InheritanceFits current.state := by
  have kept : InheritKept current.state := by
    apply run.invariant (fun current => InheritKept current.state)
    · have fresh : ∀ mutex, initial.system.mutexes mutex = {} := start.mutex
      refine ⟨fun mutex owner task owned _ => ?_, ⟨fun mutex => .inl ?_, fun mutex _ => ?_⟩,
        fun mutex _ => ?_⟩
      · simp [SyncSystem.inheritance, fresh] at owned
      · simp [SyncSystem.inheritance, fresh]
      · simp [SyncSystem.inheritance, fresh]
      · simp [fresh]
    · intro fuel before action next events kept fits executed
      obtain ⟨⟨after, reported⟩, stepped, isNext⟩ := Option.map_eq_some_iff.mp executed
      obtain ⟨rfl, rfl⟩ := Prod.mk.inj isNext
      exact kept.step fits stepped
  exact ⟨kept.dominates, kept.restores⟩

end Runs

/-- Tasks 2, 3 and 4 with priorities 3, 5 and 7. -/
def threePriorities : InheritSystem where
  system :=
    { twoTasks with
      kernel :=
        let created := taskCreate (taskCreate (taskCreate
          (schedulerInit (.boot fun _ => {}) (some 1)) (some 2) 3) (some 3) 5) (some 4) 7
        (schedulerStart 4 created).getD created }
  base _ := 0

theorem threePriorities_initial : threePriorities.system.Initial :=
  ⟨fun _ => rfl, fun _ => rfl, fun _ => ⟨rfl, rfl⟩, fun _ => rfl, fun _ => rfl⟩

/-- Only the three tasks make calls. -/
def ThreeCallers (current : InheritSystem) : Prop :=
  ∀ task, task ∉ [2, 3, 4] → current.system.pc task = .idle

/-- The task waits for nothing, or for this mutex at the front of its wait list. -/
def waitsFirst (system : SyncSystem) (mutex waiter : Nat) : Bool :=
  match (system.pc waiter).waiting with
  | some (.mutexLock other _) =>
      decide (other = mutex) && decide ((system.mutexes mutex).blockedTasks = some waiter)
  | _ => true

/-- A test for `InheritanceFits` in systems with three callers. -/
def inheritanceGuard (current : InheritSystem) : Action → Bool
  | .invoke task _ => decide (task ∈ [2, 3, 4])
  | .run task =>
      (match current.system.blocksOn task with
      | some (.mutex mutex) =>
          match (current.system.mutexes mutex).owner with
          | some owner =>
              decide ((current.system.kernel.tcb owner).priority = current.base mutex) &&
                decide ((current.system.pc owner).waiting = none)
          | none => true
      | _ => true) &&
      match current.system.pc task with
      | .entering (.mutexUnlock mutex) _ =>
          decide (0 < (current.system.mutexes mutex).ownerOriginalPriority) &&
            [2, 3, 4].all (waitsFirst current.system mutex)
      | .entering (.mutexLock mutex _) _ | .retrying (.mutexLock mutex _) _ =>
          decide ((current.system.mutexes mutex).held ≠ 0) ||
            [2, 3, 4].all fun waiter => decide ((current.system.pc waiter).waiting = none)
      | _ => true
  | _ => true

section ThreeCallers

variable {current : InheritSystem} {action : Action}

theorem ThreeCallers.waits (callers : ThreeCallers current) {waiter mutex : Nat}
    (waiting : current.system.WaitsFor waiter mutex) : waiter ∈ [2, 3, 4] := by
  by_contra elsewhere
  obtain ⟨timeout, waiting⟩ := waiting
  simp [callers waiter elsewhere, Pc.waiting] at waiting

theorem waitsFirst_eq {system : SyncSystem} {mutex other waiter : Nat}
    (first : waitsFirst system mutex waiter = true) (waiting : system.WaitsFor waiter other) :
    other = mutex ∧ (system.mutexes mutex).blockedTasks = some waiter := by
  obtain ⟨timeout, waiting⟩ := waiting
  simpa [waitsFirst, waiting] using first

theorem ThreeCallers.step {fuel : Nat} {next : InheritSystem} {events : List Event}
    (callers : ThreeCallers current) (guarded : inheritanceGuard current action = true)
    (executed : execInherit fuel current action = some (next, events)) : ThreeCallers next := by
  obtain ⟨⟨after, reported⟩, stepped, isNext⟩ := Option.map_eq_some_iff.mp executed
  obtain ⟨rfl, rfl⟩ := Prod.mk.inj isNext
  intro task elsewhere
  apply exec_idle stepped (callers task elsewhere)
  rintro call rfl
  exact elsewhere (of_decide_eq_true guarded)

theorem ThreeCallers.fits (callers : ThreeCallers current)
    (guarded : inheritanceGuard current action = true) : InheritanceFits current action := by
  have found : ∀ {task}, action = .run task → inheritanceGuard current (.run task) = true := by
    rintro task rfl
    exact guarded
  have raised : ∀ {task mutex owner}, action = .run task →
      current.system.blocksOn task = some (.mutex mutex) →
        (current.system.mutexes mutex).owner = some owner →
          (current.system.kernel.tcb owner).priority = current.base mutex ∧
            (current.system.pc owner).waiting = none := by
    intro task mutex owner acting blocks owned
    have tested := (Bool.and_eq_true _ _ ▸ found acting).1
    simpa [blocks, owned] using tested
  have unlocked : ∀ {task mutex}, action = .run task → current.system.UnlocksLast task mutex →
      0 < (current.system.mutexes mutex).ownerOriginalPriority ∧
        ∀ waiter ∈ [2, 3, 4], waitsFirst current.system mutex waiter = true := by
    intro task mutex acting unlocks
    obtain ⟨start, inside⟩ := unlocks.entering
    have tested := (Bool.and_eq_true _ _ ▸ found acting).2
    rw [inside] at tested
    obtain ⟨positive, first⟩ := Bool.and_eq_true _ _ ▸ tested
    exact ⟨of_decide_eq_true positive, List.all_eq_true.mp first⟩
  constructor
  case firstRaise =>
    intro task mutex owner acting blocks owned _
    exact (raised acting blocks owned).1
  case chained =>
    rintro task mutex owner other holder acting blocks owned _ ⟨timeout, waiting⟩ _
    simp [(raised acting blocks owned).2] at waiting
  case unsaved =>
    intro task mutex acting unlocks none
    exact absurd none (unlocked acting unlocks).1.ne'
  case others =>
    intro task mutex other waiter acting unlocks differs _ waiting
    have first := (unlocked acting unlocks).2 waiter (callers.waits waiting)
    exact absurd (waitsFirst_eq first waiting).1 differs
  case handedOff =>
    intro task mutex heir waiter acting unlocks isHeir waiting
    have first := (unlocked acting unlocks).2 waiter (callers.waits waiting)
    obtain rfl : heir = waiter :=
      Option.some.inj (isHeir.symm.trans (waitsFirst_eq first waiting).2)
    rw [if_neg]
    rintro rfl
    obtain ⟨start, inside⟩ := unlocks.entering
    obtain ⟨timeout, waiting⟩ := waiting
    simp [inside, Pc.waiting] at waiting
  case takesFree =>
    rintro task mutex waiter acting ⟨⟨limit, start, inside⟩, free⟩ _ waiting
    have tested := (Bool.and_eq_true _ _ ▸ found acting).2
    obtain ⟨timeout, isWaiting⟩ := waiting
    have nobody : (current.system.pc waiter).waiting = none := by
      have isCaller := callers.waits ⟨timeout, isWaiting⟩
      rcases inside with inside | inside <;> rw [inside] at tested <;>
        simp only [free, ne_eq, not_true_eq_false, decide_false, Bool.false_or] at tested <;>
        exact of_decide_eq_true (List.all_eq_true.mp tested waiter isCaller)
    simp [nobody] at isWaiting

end ThreeCallers

/-- While task 3 waits, task 2 has its priority; the unlock gives it back its own. -/
theorem priorityInheritance_twoTasks :
    ∃ current : GuardedRun.Traced InheritSystem Event,
      (OwnersDominate current.state.system ∧
        LastUnlocksRestore InheritanceFits current.state) ∧
      (current.state.system.kernel.tcb 2).priority = 5 ∧ current.state.base 0 = 3 ∧
      current.state.system.WaitsFor 3 0 ∧ current.state.system.UnlocksLast 2 0 ∧
      InheritanceFits current.state (.run 2) := by
  let actions : List Action :=
    [.invoke 2 (.mutexLock 0 0), .run 2, .invoke 3 (.mutexLock 0 9), .run 3,
      .invoke 2 (.mutexUnlock 0)]
  let property : GuardedRun.Traced InheritSystem Event → Prop := fun current =>
    ((current.state.system.kernel.tcb 2).priority = 5 ∧ current.state.base 0 = 3 ∧
      (current.state.system.pc 3).waiting = some (.mutexLock 0 9)) ∧
    (current.state.system.pc 2 = .entering (.mutexUnlock 0) 1 ∧
      (current.state.system.mutexes 0).owner = some 2 ∧
      (current.state.system.mutexes 0).decremented = 0) ∧
    inheritanceGuard current.state (.run 2) = true
  have passed : (execAll execInherit inheritanceGuard 4 actions ⟨threePriorities, []⟩).any
      (fun current => decide (property current)) = true := by decide +kernel
  obtain ⟨current, executed, holds⟩ := (Option.any_eq_true _ _).mp passed
  obtain ⟨⟨raised, own, waiting⟩, ⟨entering, owned, last⟩, guarded⟩ := of_decide_eq_true holds
  have callers : ThreeCallers threePriorities := fun task _ => rfl
  obtain ⟨run, callers⟩ := execAll_run_within
    (fun _ _ _ _ _ callers guarded executed => callers.step guarded executed)
    (fun _ _ callers guarded => callers.fits guarded) callers executed
  exact ⟨current, priorityInheritance threePriorities_initial run, raised, own, ⟨9, waiting⟩,
    ⟨⟨1, entering⟩, owned, last⟩, callers.fits guarded⟩

/-- A second, stronger blocker overwrites the priority that was saved for task 2. -/
theorem mutexUnlock_restores_stronger :
    ∃ current : GuardedRun.Traced InheritSystem Event,
      Reachable execInherit AnyStep threePriorities current ∧
      ¬ LastUnlocksRestore AnyStep current.state := by
  let property : GuardedRun.Traced InheritSystem Event → Prop := fun current =>
    (current.state.system.pc 2 = .entering (.mutexUnlock 0) 1 ∧
      (current.state.system.mutexes 0).owner = some 2 ∧
      (current.state.system.mutexes 0).decremented = 0) ∧
    current.state.base 0 = 3 ∧
    (execInherit 4 current.state (.run 2)).any
      (fun (after, _) => decide ((after.system.kernel.tcb 2).priority = 5)) = true
  obtain ⟨current, run, ⟨entering, owned, last⟩, own, executed⟩ :=
    exists_anyStep execInherit threePriorities 4
      [.invoke 2 (.mutexLock 0 0), .run 2, .invoke 3 (.mutexLock 0 9), .run 3,
        .invoke 4 (.mutexLock 0 9), .run 4, .invoke 2 (.mutexUnlock 0)] property
      (by decide +kernel)
  refine ⟨current, run, fun restored => ?_⟩
  obtain ⟨⟨after, events⟩, executed, raised⟩ := (Option.any_eq_true _ _).mp executed
  have same := restored 4 2 0 after events ⟨⟨1, entering⟩, owned, last⟩ trivial executed
  rw [own, of_decide_eq_true raised] at same
  exact absurd same (by decide)

end Rtos

end MiniIotRobotEdge

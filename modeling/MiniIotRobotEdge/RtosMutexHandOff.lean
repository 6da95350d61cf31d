import MiniIotRobotEdge.RtosMutex

/-!
# Mutex hand-off

`mutex_unlock` makes the first task of the wait list the owner of the mutex,
but that task is still in the loop `while (m->held)` of its `mutex_lock` call
and never looks at the owner again.  A waiter can therefore own the mutex and
nevertheless block again or report a timeout.  The calls are sound exactly as
long as no unlock reaches a task that is still waiting.
-/

namespace MiniIotRobotEdge

namespace Rtos

open Relation

/-- The task is in the wait loop of a `mutex_lock` call. -/
def SyncSystem.WaitsFor (system : SyncSystem) (task : TaskId) (mutex : Nat) : Prop :=
  ∃ timeout, (system.pc task).waiting = some (.mutexLock mutex timeout)

/-- The step is not an unlock, at the last nesting level, that finds a waiting
task at the front of the wait list. -/
def HandOffFree (current : Traced) (action : Action) : Prop :=
  ∀ task mutex start waiter, action = .run task →
    current.system.pc task = .entering (.mutexUnlock mutex) start →
    (current.system.mutexes mutex).owner = some task →
    (current.system.mutexes mutex).decremented = 0 →
    (current.system.mutexes mutex).blockedTasks = some waiter →
    ¬ current.system.WaitsFor waiter mutex

/-- The promises of `mutex_lock` in one state: a call that gives up does not
leave its task the owner, and a waiter that was made the owner returns 1 from
its next section. -/
structure MutexReturnsSound (system : SyncSystem) : Prop where
  notOwner : ∀ fuel action after events task mutex timeout result,
    exec fuel system action = some (after, events) →
    Event.returned task (.mutexLock mutex timeout) result ∈ events →
    result = 0 ∨ result = -2 → (after.mutexes mutex).owner ≠ some task
  served : ∀ task mutex timeout,
    (system.pc task).waiting = some (.mutexLock mutex timeout) →
    (system.mutexes mutex).owner = some task →
    ∃ fuel after events, exec fuel system (.run task) = some (after, events) ∧
      Event.returned task (.mutexLock mutex timeout) 1 ∈ events

/-- No task in its wait loop owns the mutex it waits for. -/
def NoWaitingOwner (system : SyncSystem) : Prop :=
  ∀ task mutex, system.WaitsFor task mutex →
    (system.mutexes mutex).owner ≠ some task

theorem SyncSystem.owner_eq_of_lockState {before after : SyncSystem} {mutex : Nat}
    (same : after.lockState mutex = before.lockState mutex) :
    (after.mutexes mutex).owner = (before.mutexes mutex).owner :=
  congrArg (fun words => words.2.1) same

/-- The loop head of `mutex_lock` on a held mutex gives up or blocks. -/
theorem testLoop_held {system after : SyncSystem} {task : TaskId}
    {mutex timeout start : Nat} {loop : WaitLoop} {events : List Event}
    (found : waitLoop task (.mutexLock mutex timeout) = some loop)
    (tested : testLoop system task (.mutexLock mutex timeout) start loop =
      (after, events))
    (held : (system.mutexes mutex).held ≠ 0) :
    after.lockState mutex = system.lockState mutex ∧
      (events = [] ∨ events = [.returned task (.mutexLock mutex timeout) 0]) := by
  obtain ⟨giveUp, beforeBlock, _, _⟩ := waitLoop_lockState found system mutex
  rcases testLoop_cases tested with
    ⟨_, _, rfl, rfl⟩ | ⟨_, _, rfl, rfl⟩ | ⟨free, rfl, rfl⟩
  · exact ⟨giveUp, .inr rfl⟩
  · exact ⟨((Quiet.blockTask _ _ _).lock mutex).trans beforeBlock, .inl rfl⟩
  · obtain rfl : _ = loop := by simpa [waitLoop] using found
    simp [held] at free

/-- The first section of `mutex_lock` succeeds, or it finds the mutex owned by
somebody else. -/
theorem enterCall_mutexLock {fuel : Nat} {system after : SyncSystem} {task : TaskId}
    {mutex timeout start : Nat} {events : List Event}
    (entered : enterCall fuel system task (.mutexLock mutex timeout) start =
      some (after, events)) :
    (after.pc task = .idle ∧
      events = [.returned task (.mutexLock mutex timeout) 1]) ∨
    ((system.mutexes mutex).owner ≠ some task ∧
      after.lockState mutex = system.lockState mutex ∧
      (events = [] ∨ events = [.returned task (.mutexLock mutex timeout) 0])) := by
  rw [enterCall] at entered
  split at entered
  case isTrue =>
    obtain ⟨rfl, rfl⟩ := Prod.mk.inj (Option.some.inj entered)
    exact .inl ⟨by simp [SyncSystem.pc_setPc], rfl⟩
  case isFalse held =>
    split at entered
    case isTrue =>
      obtain ⟨rfl, rfl⟩ := Prod.mk.inj (Option.some.inj entered)
      exact .inl ⟨by simp [SyncSystem.pc_setPc], rfl⟩
    case isFalse foreign =>
      exact .inr ⟨foreign, testLoop_held rfl (Option.some.inj entered) held⟩

/-- A task in the wait loop of `mutex_lock` returns only from the loop head or
after its timeout. -/
theorem runTask_waiting {fuel : Nat} {system after : SyncSystem} {task : TaskId}
    {mutex timeout : Nat} {events : List Event}
    (waits : (system.pc task).waiting = some (.mutexLock mutex timeout))
    (ran : runTask fuel system task = some (after, events)) :
    (after.lockState mutex = system.lockState mutex ∧
      (events = [] ∨ events = [.returned task (.mutexLock mutex timeout) (-2)])) ∨
    ∃ start loop, waitLoop task (.mutexLock mutex timeout) = some loop ∧
      testLoop system task (.mutexLock mutex timeout) start loop =
        (after, events) := by
  cases runTask_cases ran with
  | entering call start inside _ => simp [inside, Pc.waiting] at waits
  | delaying call start _ _ => exact .inl ⟨rfl, .inl rfl⟩
  | sleeping call start _ _ => exact .inl ⟨rfl, .inl rfl⟩
  | retrying call start inside found tested =>
    obtain rfl : call = .mutexLock mutex timeout := by
      simpa [inside, Pc.waiting] using waits
    exact .inr ⟨start, _, found, tested⟩
  | @expiring removed _ call start inside found removal =>
    obtain rfl : call = .mutexLock mutex timeout := by
      simpa [inside, Pc.waiting] using waits
    refine .inl ⟨?_, .inr rfl⟩
    rw [SyncSystem.lockState_setPc, (waitLoop_lockState found removed mutex).1]
    exact (Quiet.removeFromList removal).lock mutex

/-- A waiter of a held mutex does not return 1. -/
theorem exec_held_waiter {fuel : Nat} {system after : SyncSystem} {task : TaskId}
    {mutex timeout : Nat} {events : List Event}
    (waits : (system.pc task).waiting = some (.mutexLock mutex timeout))
    (held : (system.mutexes mutex).held ≠ 0)
    (stepped : exec fuel system (.run task) = some (after, events)) :
    Event.returned task (.mutexLock mutex timeout) 1 ∉ events := by
  rcases runTask_waiting (by simpa using waits) stepped with
    ⟨_, rfl | rfl⟩ | ⟨start, loop, found, tested⟩
  · simp
  · simp
  · obtain ⟨_, rfl | rfl⟩ := testLoop_held found tested held
    · simp
    · simp

theorem NoWaitingOwner.notOwner {fuel : Nat} {system after : SyncSystem}
    {action : Action} {events : List Event} {task : TaskId} {mutex timeout : Nat}
    {result : Int} (invariant : NoWaitingOwner system)
    (stepped : exec fuel system action = some (after, events))
    (returned : Event.returned task (.mutexLock mutex timeout) result ∈ events)
    (gaveUp : result = 0 ∨ result = -2) :
    (after.mutexes mutex).owner ≠ some task := by
  have failed : result ≠ 1 := by omega
  rcases exec_returned stepped returned with ⟨rfl, inside⟩ | ⟨_, isRefused, _⟩
  case inr => simp [refused] at isRefused
  cases current : system.pc task with
  | idle => simp [current, Pc.pending] at inside
  | entering call start =>
      obtain rfl : call = .mutexLock mutex timeout := by
        simpa [current, Pc.pending] using inside
      rw [exec_entering current] at stepped
      rcases enterCall_mutexLock stepped with ⟨_, rfl⟩ | ⟨foreign, same, _⟩
      · simp [failed] at returned
      · rw [SyncSystem.owner_eq_of_lockState same]
        exact foreign
  | _ =>
      have waits : (system.pc task).waiting = some (.mutexLock mutex timeout) := by
        rw [current] at inside ⊢
        exact inside
      have foreign := invariant task mutex ⟨timeout, waits⟩
      rcases runTask_waiting (by simpa using waits) stepped with
        ⟨same, _⟩ | ⟨start, loop, found, tested⟩
      · rw [SyncSystem.owner_eq_of_lockState same]
        exact foreign
      · obtain ⟨giveUp, _, _, _⟩ := waitLoop_lockState found (dispatch system task) mutex
        rcases testLoop_cases tested with
          ⟨_, _, rfl, rfl⟩ | ⟨_, _, rfl, rfl⟩ | ⟨_, rfl, rfl⟩
        · rw [SyncSystem.mutexes_setPc, SyncSystem.owner_eq_of_lockState giveUp]
          exact foreign
        · simp at returned
        · obtain rfl : _ = loop := by simpa [waitLoop] using found
          simp [failed] at returned

theorem NoWaitingOwner.sound {system : SyncSystem} (invariant : NoWaitingOwner system) :
    MutexReturnsSound system where
  notOwner := fun _ _ _ _ _ _ _ _ stepped returned gaveUp =>
    invariant.notOwner stepped returned gaveUp
  served := fun task mutex timeout waits owned =>
    absurd owned (invariant task mutex ⟨timeout, waits⟩)

/-- As long as no unlock reaches a waiting task, no waiter becomes the
owner. -/
theorem NoWaitingOwner.step {before after : Traced} {fuel : Nat} {action : Action}
    {events : List Event} (invariant : NoWaitingOwner before.system)
    (allowed : HandOffFree before action)
    (stepped : exec fuel before.system action = some (after.system, events)) :
    NoWaitingOwner after.system := by
  rintro task mutex ⟨timeout, waits⟩
  rcases exec_waiting stepped waits with waited | ⟨start, rfl, inside⟩
  · have foreign := invariant task mutex ⟨timeout, waited⟩
    have words : (after.system.mutexes mutex).owner =
        (after.system.lockState mutex).2.1 := rfl
    rw [words]
    cases exec_lockStep stepped mutex with
    | keep same returns =>
        rw [same]
        exact foreign
    | take taker free taken leaves returns =>
        rw [taken]
        intro same
        obtain rfl : taker = task := Option.some.inj same
        simp [leaves, Pc.waiting] at waits
    | nest owner timeout start acting owned nested returns =>
        rw [nested, ← owned]
        exact foreign
    | unnest owner owned more unnested returns =>
        rw [unnested, ← owned]
        exact foreign
    | release owner owned last freed returns =>
        rw [freed]
        simp
    | handOff owner waiter start acting owned last first handed returns =>
        rw [handed]
        intro same
        obtain rfl : waiter = task := Option.some.inj same
        exact allowed owner mutex start waiter acting.1 acting.2 owned last first
          ⟨timeout, waited⟩
  · rw [exec_entering inside] at stepped
    rcases enterCall_mutexLock stepped with ⟨left, _⟩ | ⟨foreign, same, _⟩
    · simp [left, Pc.waiting] at waits
    · rw [SyncSystem.owner_eq_of_lockState same]
      exact foreign

theorem noWaitingOwner_of_reachable {initial : SyncSystem} (start : initial.Initial)
    {current : Traced} (run : Traced.Reachable HandOffFree initial current) :
    NoWaitingOwner current.system := by
  induction run with
  | refl =>
      rintro task mutex ⟨timeout, waits⟩
      simp [start.idle task, Pc.waiting] at waits
  | tail _ step ih =>
      obtain ⟨fuel, action, events, allowed, stepped, _⟩ := step
      exact ih.step allowed stepped

/-- An unlock that reaches a waiting task leaves that task in its loop, the
owner of the held mutex. -/
theorem handOff_waiter {fuel : Nat} {before after : SyncSystem} {events : List Event}
    {task waiter : TaskId} {mutex start : Nat}
    (inside : before.pc task = .entering (.mutexUnlock mutex) start)
    (owned : (before.mutexes mutex).owner = some task)
    (last : (before.mutexes mutex).decremented = 0)
    (first : (before.mutexes mutex).blockedTasks = some waiter)
    (waits : before.WaitsFor waiter mutex)
    (stepped : exec fuel before (.run task) = some (after, events)) :
    after.WaitsFor waiter mutex ∧ after.lockState mutex = (1, some waiter, 1) := by
  have waiterNe : waiter ≠ task := by
    rintro rfl
    obtain ⟨timeout, waiting⟩ := waits
    simp [inside, Pc.waiting] at waiting
  have unlocked : mutexUnlock (dispatch before task) mutex task = _ :=
    mutexUnlock_last owned last
  rw [show ((dispatch before task).mutexes mutex).blockedTasks = some waiter from first]
    at unlocked
  rw [exec_entering inside] at stepped
  obtain rfl : (mutexUnlock (dispatch before task) mutex task).1.setPc task .idle = after :=
    congrArg Prod.fst (Option.some.inj stepped)
  obtain ⟨timeout, waiting⟩ := waits
  refine ⟨⟨timeout, ?_⟩, ?_⟩
  · rw [SyncSystem.pc_setPc, if_neg waiterNe, mutexUnlock_pc]
    exact waiting
  · change (mutexUnlock (dispatch before task) mutex task).1.lockState mutex = _
    rw [unlocked]
    exact lockState_mutexAcquire _ _ _

/-- `mutex_lock` keeps its promises in every state of a run whose unlocks never
reach a waiting task, and it breaks them after every unlock that does. -/
theorem mutex_handOff {initial : SyncSystem} (start : initial.Initial) :
    (∀ current, Traced.Reachable HandOffFree initial current →
      MutexReturnsSound current.system) ∧
    ∀ current fuel action after events,
      Traced.Reachable Traced.AnyStep initial current →
      exec fuel current.system action = some (after, events) →
      ¬ HandOffFree current action → ¬ MutexReturnsSound after := by
  constructor
  · intro current run
    exact (noWaitingOwner_of_reachable start run).sound
  · intro current fuel action after events _ stepped handsOff sound
    simp only [HandOffFree, not_forall, not_not] at handsOff
    obtain ⟨task, mutex, begin, waiter, rfl, inside, owned, last, first, waits⟩ := handsOff
    obtain ⟨⟨timeout, waiting⟩, words⟩ :=
      handOff_waiter inside owned last first waits stepped
    have holds : (after.mutexes mutex).held = 1 := congrArg Prod.fst words
    have ownerWaits : (after.mutexes mutex).owner = some waiter :=
      congrArg (fun words => words.2.1) words
    obtain ⟨laterFuel, later, laterEvents, laterStepped, returned⟩ :=
      sound.served waiter mutex timeout waiting ownerWaits
    exact exec_held_waiter waiting (by omega) laterStepped returned

/-- Steps that enter no unlock hand nothing off. -/
def unlockFreeGuard (current : Traced) : Action → Bool
  | .run task =>
      match current.system.pc task with
      | .entering (.mutexUnlock _) _ => false
      | _ => true
  | _ => true

theorem handOffFree_of_guard (current : Traced) (action : Action)
    (guarded : unlockFreeGuard current action = true) :
    HandOffFree current action := by
  rintro task mutex start waiter rfl inside
  simp [unlockFreeGuard, inside] at guarded

/-- Task 3 times out while task 2 keeps the mutex, and task 2 unlocks while
task 3 waits. -/
theorem mutex_handOff_twoTasks :
    (∃ current, Traced.Reachable HandOffFree twoTasks current ∧
      current.system.pc 3 = .expiring (.mutexLock 0 1) 1 ∧
      MutexReturnsSound current.system) ∧
    ∃ current after events, Traced.Reachable Traced.AnyStep twoTasks current ∧
      exec 4 current.system (.run 2) = some (after, events) ∧
      (after.mutexes 0).owner = some 3 ∧ ¬ MutexReturnsSound after := by
  constructor
  · obtain ⟨current, run, expires⟩ :=
      Traced.exists_reachable handOffFree_of_guard 4
        [.invoke 2 (.mutexLock 0 0), .run 2, .invoke 3 (.mutexLock 0 1), .run 3, .run 3,
          .tick, .run 3]
        twoTasks (fun current => current.system.pc 3 = .expiring (.mutexLock 0 1) 1)
        (by decide)
    exact ⟨current, run, expires, (mutex_handOff twoTasks_initial).1 current run⟩
  · obtain ⟨current, run, inside, owned, last, first, waits, moved⟩ :=
      Traced.exists_anyStep 4
        [.invoke 2 (.mutexLock 0 0), .run 2, .invoke 3 (.mutexLock 0 1), .run 3,
          .invoke 2 (.mutexUnlock 0)]
        twoTasks
        (fun current : Traced =>
          current.system.pc 2 = .entering (.mutexUnlock 0) 1 ∧
          (current.system.mutexes 0).owner = some 2 ∧
          (current.system.mutexes 0).decremented = 0 ∧
          (current.system.mutexes 0).blockedTasks = some 3 ∧
          (current.system.pc 3).waiting = some (.mutexLock 0 1) ∧
          ((exec 4 current.system (.run 2)).map fun step => (step.1.mutexes 0).owner) =
            some (some 3))
        (by decide)
    obtain ⟨⟨after, events⟩, stepped, owner⟩ := Option.map_eq_some_iff.mp moved
    refine ⟨current, after, events, run, stepped, owner, ?_⟩
    apply (mutex_handOff twoTasks_initial).2 current 4 _ after events run stepped
    intro free
    exact free 2 0 1 3 rfl inside owned last first ⟨1, waits⟩

/-- The unlocking task makes task 3 the owner just before it reports its
timeout. -/
theorem mutex_handOff_times_out :
    ¬ ∀ current, Traced.Reachable Traced.AnyStep twoTasks current →
      MutexReturnsSound current.system := by
  intro sound
  obtain ⟨current, run, owner, timedOut⟩ :=
    Traced.exists_anyStep 4
      [.invoke 2 (.mutexLock 0 0), .run 2, .invoke 3 (.mutexLock 0 1), .run 3, .run 3,
        .tick, .invoke 2 (.mutexUnlock 0), .run 2, .run 3]
      twoTasks
      (fun current : Traced =>
        ((exec 4 current.system (.run 3)).map fun step => (step.1.mutexes 0).owner) =
          some (some 3) ∧
        ((exec 4 current.system (.run 3)).map fun step => step.2) =
          some [.returned 3 (.mutexLock 0 1) (-2)])
      (by decide)
  obtain ⟨⟨after, events⟩, stepped, rfl⟩ := Option.map_eq_some_iff.mp timedOut
  rw [stepped] at owner
  exact (sound current run).notOwner 4 _ after _ 3 0 1 (-2) stepped
    (by simp) (by simp) (by simpa using owner)

end Rtos

end MiniIotRobotEdge

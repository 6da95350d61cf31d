import MiniIotRobotEdge.RtosSyncRuns

/-!
# Mutual exclusion of the mini-rtos mutex

`mutex_lock` takes a free mutex, nests on an owned one, or waits; a waiter may
leave its loop when it finds the mutex free, but `mutex_unlock` also hands the
mutex to the first task of the wait list on that task's behalf.  Every step is
first reduced to what it does to the lock words of one mutex (`LockStep`);
exclusion and the hand-off are then invariants over these cases.
-/

namespace MiniIotRobotEdge

namespace Rtos

open Relation

/-- The event that a `mutex_lock` call of `task` returned 1. -/
def isLockReturn (task : TaskId) (mutex : Nat) : Event → Bool
  | .returned caller (.mutexLock object _) result =>
      caller = task ∧ object = mutex ∧ result = 1
  | _ => false

/-- The event that a `mutex_unlock` call of `task` returned 1. -/
def isUnlockReturn (task : TaskId) (mutex : Nat) : Event → Bool
  | .returned caller (.mutexUnlock object) result =>
      caller = task ∧ object = mutex ∧ result = 1
  | _ => false

/-- How often `mutex_lock` returned 1 to `task`. -/
def lockReturns (trace : List Event) (task : TaskId) (mutex : Nat) : Nat :=
  trace.countP (isLockReturn task mutex)

/-- How often `mutex_unlock` returned 1 to `task`. -/
def unlockReturns (trace : List Event) (task : TaskId) (mutex : Nat) : Nat :=
  trace.countP (isUnlockReturn task mutex)

/-- No event of the step is a successful lock or unlock of the mutex. -/
def NoReturns (mutex : Nat) (events : List Event) : Prop :=
  ∀ task, lockReturns events task mutex = 0 ∧ unlockReturns events task mutex = 0

/-- Exactly one successful lock, by `task`. -/
def OneLock (mutex : Nat) (task : TaskId) (events : List Event) : Prop :=
  ∀ other, lockReturns events other mutex = (if other = task then 1 else 0) ∧
    unlockReturns events other mutex = 0

/-- Exactly one successful unlock, by `task`. -/
def OneUnlock (mutex : Nat) (task : TaskId) (events : List Event) : Prop :=
  ∀ other, lockReturns events other mutex = 0 ∧
    unlockReturns events other mutex = (if other = task then 1 else 0)

/-- The value of `recursive_count` after `recursive_count--`. -/
def Mutex.decremented (mutex : Mutex) : Nat :=
  (mutex.recursiveCount + (uint32Size - 1)) % uint32Size

/-- What one step does to the lock words of a mutex. -/
inductive LockStep (mutex : Nat) (before : SyncSystem) (action : Action)
    (after : SyncSystem) (events : List Event) : Prop
  | keep (same : after.lockState mutex = before.lockState mutex)
      (returns : NoReturns mutex events)
  | take (task : TaskId) (free : (before.mutexes mutex).held = 0)
      (taken : after.lockState mutex = (1, some task, 1))
      (leaves : after.pc task = .idle)
      (returns : OneLock mutex task events)
  | nest (task : TaskId) (timeout start : Nat)
      (acting : action = .run task ∧
        before.pc task = .entering (.mutexLock mutex timeout) start)
      (owned : (before.mutexes mutex).owner = some task)
      (nested : after.lockState mutex = ((before.mutexes mutex).held, some task,
        ((before.mutexes mutex).recursiveCount + 1) % uint32Size))
      (returns : OneLock mutex task events)
  | unnest (task : TaskId)
      (owned : (before.mutexes mutex).owner = some task)
      (more : 0 < (before.mutexes mutex).decremented)
      (unnested : after.lockState mutex = ((before.mutexes mutex).held, some task,
        (before.mutexes mutex).decremented))
      (returns : OneUnlock mutex task events)
  | release (task : TaskId)
      (owned : (before.mutexes mutex).owner = some task)
      (last : (before.mutexes mutex).decremented = 0)
      (freed : after.lockState mutex = (0, none, 0))
      (returns : OneUnlock mutex task events)
  | handOff (task waiter : TaskId) (start : Nat)
      (acting : action = .run task ∧
        before.pc task = .entering (.mutexUnlock mutex) start)
      (owned : (before.mutexes mutex).owner = some task)
      (last : (before.mutexes mutex).decremented = 0)
      (first : (before.mutexes mutex).blockedTasks = some waiter)
      (handed : after.lockState mutex = (1, some waiter, 1))
      (returns : OneUnlock mutex task events)

/-- Only the mutexes and program counters before the step matter. -/
theorem LockStep.congr_before {mutex : Nat} {before other after : SyncSystem}
    {action : Action} {events : List Event}
    (step : LockStep mutex other action after events)
    (mutexes : other.mutexes = before.mutexes) (pc : other.pc = before.pc) :
    LockStep mutex before action after events := by
  cases step with
  | keep same returns =>
      refine .keep ?_ returns
      rw [same, SyncSystem.lockState, mutexes, SyncSystem.lockState]
  | take task free taken leaves returns =>
      exact .take task (mutexes ▸ free) taken leaves returns
  | nest task timeout start acting owned nested returns =>
      exact .nest task timeout start (pc ▸ acting) (mutexes ▸ owned)
        (mutexes ▸ nested) returns
  | unnest task owned more unnested returns =>
      exact .unnest task (mutexes ▸ owned) (mutexes ▸ more) (mutexes ▸ unnested)
        returns
  | release task owned last freed returns =>
      exact .release task (mutexes ▸ owned) (mutexes ▸ last) freed returns
  | handOff task waiter start acting owned last first handed returns =>
      exact .handOff task waiter start (pc ▸ acting) (mutexes ▸ owned)
        (mutexes ▸ last) (mutexes ▸ first) handed returns

section Returns

variable {mutex : Nat} {task : TaskId}

theorem noReturns_nil : NoReturns mutex [] := fun _ => ⟨rfl, rfl⟩

/-- A return that is neither a successful lock nor unlock of the mutex. -/
theorem noReturns_of_call {call : Call} {result : Int} {events : List Event}
    (notLock : ∀ timeout, call = .mutexLock mutex timeout → result ≠ 1)
    (notUnlock : call = .mutexUnlock mutex → result ≠ 1)
    (rest : NoReturns mutex events) :
    NoReturns mutex (.returned task call result :: events) := by
  intro other
  obtain ⟨restLock, restUnlock⟩ := rest other
  unfold lockReturns unlockReturns at *
  rw [List.countP_cons, List.countP_cons, restLock, restUnlock]
  cases call <;> simp_all [isLockReturn, isUnlockReturn]

theorem oneLock_return (timeout : Nat) :
    OneLock mutex task [.returned task (.mutexLock mutex timeout) 1] := by
  intro other
  by_cases same : other = task
  · simp [lockReturns, unlockReturns, isLockReturn, isUnlockReturn, same]
  · simp [lockReturns, unlockReturns, isLockReturn, isUnlockReturn, same, Ne.symm same]

theorem oneUnlock_return {events : List Event} (rest : NoReturns mutex events) :
    OneUnlock mutex task (.returned task (.mutexUnlock mutex) 1 :: events) := by
  intro other
  obtain ⟨restLock, restUnlock⟩ := rest other
  unfold lockReturns unlockReturns at *
  rw [List.countP_cons, List.countP_cons, restLock, restUnlock]
  by_cases same : other = task
  · simp [isLockReturn, isUnlockReturn, same]
  · simp [isLockReturn, isUnlockReturn, same, Ne.symm same]

end Returns

/-- The work around the wait loop of a call touches no lock words, except for
the acquisition at the end of `mutex_lock`. -/
theorem waitLoop_lockState {task : TaskId} {call : Call} {loop : WaitLoop}
    (found : waitLoop task call = some loop) (system : SyncSystem) (mutex : Nat) :
    (loop.giveUp system).lockState mutex = system.lockState mutex ∧
    (loop.beforeBlock system).lockState mutex = system.lockState mutex ∧
    ((∀ timeout, call ≠ .mutexLock mutex timeout) →
      (loop.acquire system).1.lockState mutex = system.lockState mutex) ∧
    NoReturns mutex (loop.acquire system).2 := by
  cases call <;> simp only [waitLoop, Option.some.injEq, reduceCtorEq] at found
    <;> subst found
  case semaphoreTake => exact ⟨rfl, rfl, fun _ => rfl, noReturns_nil⟩
  case queueSend queue data timeout =>
    refine ⟨rfl, rfl, fun _ => ?_, noReturns_nil⟩
    exact ((Quiet.modifyQueue _ _ _).trans (.unblockTask _ _)).lock mutex
  case queueReceive queue timeout =>
    refine ⟨rfl, rfl, fun _ => ?_, ?_⟩
    · exact ((Quiet.modifyQueue _ _ _).trans (.unblockTask _ _)).lock mutex
    · intro other
      simp [lockReturns, unlockReturns, isLockReturn, isUnlockReturn]
  case mutexLock object timeout =>
    refine ⟨rfl, (Quiet.mutexPriorityInherit _ _ _).lock mutex, fun other => ?_,
      noReturns_nil⟩
    have objectNe : mutex ≠ object := fun same => other timeout (by rw [same])
    simp [mutexAcquire, SyncSystem.lockState, SyncSystem.modifyMutex,
      Function.update_of_ne objectNe]
  case rwlockReadLock => exact ⟨rfl, rfl, fun _ => rfl, noReturns_nil⟩
  case rwlockWriteLock => exact ⟨rfl, rfl, fun _ => rfl, noReturns_nil⟩

theorem lockState_modifyMutex_of_ne (system : SyncSystem) {mutex object : Nat}
    (different : mutex ≠ object) (change : Mutex → Mutex) :
    (system.modifyMutex object change).lockState mutex = system.lockState mutex := by
  simp [SyncSystem.lockState, SyncSystem.modifyMutex,
    Function.update_of_ne different]

theorem lockState_mutexAcquire (system : SyncSystem) (mutex : Nat) (task : TaskId) :
    (mutexAcquire system mutex task).lockState mutex = (1, some task, 1) := by
  simp [mutexAcquire, SyncSystem.lockState, SyncSystem.modifyMutex]

theorem lockState_mutexDecrement (system : SyncSystem) (mutex : Nat) :
    (mutexDecrement system mutex).lockState mutex =
      ((system.mutexes mutex).held, (system.mutexes mutex).owner,
        (system.mutexes mutex).decremented) := by
  simp [mutexDecrement, SyncSystem.lockState, SyncSystem.modifyMutex,
    Mutex.decremented]

theorem lockState_mutexDecrement_of_ne (system : SyncSystem) {mutex object : Nat}
    (different : mutex ≠ object) :
    (mutexDecrement system object).lockState mutex = system.lockState mutex :=
  lockState_modifyMutex_of_ne _ different _

theorem recursiveCount_mutexDecrement (system : SyncSystem) (mutex : Nat) :
    ((mutexDecrement system mutex).mutexes mutex).recursiveCount =
      (system.mutexes mutex).decremented :=
  congrArg (fun words => words.2.2) (lockState_mutexDecrement system mutex)

theorem lockState_mutexRelease (system : SyncSystem) (mutex : Nat) :
    (mutexRelease system mutex).lockState mutex =
      (0, none, (system.mutexes mutex).recursiveCount) := by
  have restored := (Quiet.mutexPriorityRestore system mutex).lock mutex
  simp only [SyncSystem.lockState, Prod.mk.injEq] at restored
  simp [mutexRelease, SyncSystem.lockState, SyncSystem.modifyMutex, restored.2.2]

theorem lockState_mutexRelease_of_ne (system : SyncSystem) {mutex object : Nat}
    (different : mutex ≠ object) :
    (mutexRelease system object).lockState mutex = system.lockState mutex := by
  rw [mutexRelease, lockState_modifyMutex_of_ne _ different]
  exact (Quiet.mutexPriorityRestore system object).lock mutex

theorem blockedTasks_mutexRelease (system : SyncSystem) (mutex : Nat) :
    ((mutexRelease system mutex).mutexes mutex).blockedTasks =
      (system.mutexes mutex).blockedTasks := by
  rw [mutexRelease, mutexPriorityRestore]
  split
  · simp [SyncSystem.modifyMutex]
  · dsimp only
    split
    · simp [SyncSystem.modifyMutex, SyncSystem.modifyTask]
    · simp [SyncSystem.modifyMutex]

theorem lockState_mutexHandOff_of_ne (system : SyncSystem) {mutex object : Nat}
    (different : mutex ≠ object) (waiter : TaskId) :
    (mutexHandOff system object waiter).lockState mutex =
      system.lockState mutex := by
  rw [mutexHandOff, mutexAcquire, lockState_modifyMutex_of_ne _ different]
  exact ((Quiet.setHead _ _ _).trans (.modifyTask _ _ _)).lock mutex

/-- The loop head of a blocking call keeps the lock words or takes the free
mutex. -/
theorem testLoop_lockStep {mutex : Nat} {system after : SyncSystem}
    {action : Action} {task : TaskId} {call : Call} {start : Nat}
    {loop : WaitLoop} {events : List Event}
    (found : waitLoop task call = some loop)
    (tested : testLoop system task call start loop = (after, events)) :
    LockStep mutex system action after events := by
  obtain ⟨giveUp, beforeBlock, acquire, acquireEvents⟩ :=
    waitLoop_lockState found system mutex
  rcases testLoop_cases tested with
    ⟨_, _, rfl, rfl⟩ | ⟨_, _, rfl, rfl⟩ | ⟨free, rfl, rfl⟩
  · exact .keep giveUp (noReturns_of_call (by simp) (by simp) noReturns_nil)
  · exact .keep (((Quiet.blockTask _ _ _).lock mutex).trans beforeBlock) noReturns_nil
  · by_cases isLock : ∃ timeout, call = .mutexLock mutex timeout
    · obtain ⟨timeout, rfl⟩ := isLock
      obtain rfl : _ = loop := by simpa [waitLoop] using found
      refine .take task (by simpa using free) (lockState_mutexAcquire _ _ _) ?_
        (oneLock_return timeout)
      simp [SyncSystem.pc_setPc]
    · push Not at isLock
      refine .keep (acquire isLock) (noReturns_of_call ?_ ?_ acquireEvents)
      · intro timeout same
        exact absurd same (isLock timeout)
      · rintro rfl
        simp [waitLoop] at found

/-- `mutex_unlock` by the owner, at the last nesting level. -/
theorem mutexUnlock_last {system : SyncSystem} {object : Nat} {task : TaskId}
    (owned : (system.mutexes object).owner = some task)
    (last : (system.mutexes object).decremented = 0) :
    mutexUnlock system object task =
      match (system.mutexes object).blockedTasks with
      | none => (mutexRelease (mutexDecrement system object) object, 1, [])
      | some waiter =>
          (mutexHandOff (mutexRelease (mutexDecrement system object) object)
            object waiter, 1, [.handedOff object waiter]) := by
  have waiting : ((mutexRelease (mutexDecrement system object) object).mutexes
      object).blockedTasks = (system.mutexes object).blockedTasks := by
    rw [blockedTasks_mutexRelease]
    simp [mutexDecrement, SyncSystem.modifyMutex]
  have notNested : ¬0 < ((mutexDecrement system object).mutexes object).recursiveCount := by
    rw [recursiveCount_mutexDecrement, last]
    simp
  rw [mutexUnlock, if_neg (by simpa using owned)]
  cases listed : (system.mutexes object).blockedTasks with
  | none =>
      rw [listed] at waiting
      simp only [if_neg notNested, waiting]
  | some waiter =>
      rw [listed] at waiting
      simp only [if_neg notNested, waiting]

/-- The cases of `mutex_unlock`. -/
theorem mutexUnlock_lockStep (mutex object : Nat) (system : SyncSystem)
    {action : Action} {task : TaskId} {start : Nat}
    (acting : action = .run task ∧
      system.pc task = .entering (.mutexUnlock object) start) :
    LockStep mutex system action
      ((mutexUnlock system object task).1.setPc task .idle)
      (.returned task (.mutexUnlock object) (mutexUnlock system object task).2.1 ::
        (mutexUnlock system object task).2.2) := by
  have foreign : mutex ≠ object → ∀ {events}, NoReturns mutex events →
      NoReturns mutex (.returned task (.mutexUnlock object) 1 :: events) := by
    intro different events
    exact noReturns_of_call (by simp) (by simpa using Ne.symm different)
  by_cases owned : (system.mutexes object).owner = some task
  case neg =>
    have unchanged : mutexUnlock system object task = (system, -1, []) := by
      simp [mutexUnlock, owned]
    rw [unchanged]
    exact .keep rfl (noReturns_of_call (by simp) (by simp) noReturns_nil)
  by_cases last : (system.mutexes object).decremented = 0
  case neg =>
    have nested : mutexUnlock system object task =
        (mutexDecrement system object, 1, []) := by
      rw [mutexUnlock, if_neg (by simpa using owned)]
      dsimp only
      rw [if_pos (by rw [recursiveCount_mutexDecrement]; omega)]
    rw [nested]
    by_cases same : mutex = object
    · subst same
      refine .unnest task owned (Nat.pos_of_ne_zero last) ?_
        (oneUnlock_return noReturns_nil)
      rw [SyncSystem.lockState_setPc, lockState_mutexDecrement, owned]
    · exact .keep (lockState_mutexDecrement_of_ne system same)
        (foreign same noReturns_nil)
  have loweredOther : mutex ≠ object →
      (mutexRelease (mutexDecrement system object) object).lockState mutex =
        system.lockState mutex := by
    intro different
    rw [lockState_mutexRelease_of_ne _ different,
      lockState_mutexDecrement_of_ne _ different]
  rw [mutexUnlock_last owned last]
  cases waiting : (system.mutexes object).blockedTasks with
  | none =>
      by_cases same : mutex = object
      · subst same
        refine .release task owned last ?_ (oneUnlock_return noReturns_nil)
        rw [SyncSystem.lockState_setPc, lockState_mutexRelease,
          recursiveCount_mutexDecrement, last]
      · exact .keep (loweredOther same) (foreign same noReturns_nil)
  | some waiter =>
      have noEvents : NoReturns mutex [.handedOff object waiter] := by
        simp [NoReturns, lockReturns, unlockReturns, isLockReturn, isUnlockReturn]
      by_cases same : mutex = object
      · subst same
        exact .handOff task waiter start acting owned last waiting
          (lockState_mutexAcquire _ _ _) (oneUnlock_return noEvents)
      · refine .keep ?_ (foreign same noEvents)
        rw [SyncSystem.lockState_setPc, lockState_mutexHandOff_of_ne _ same]
        exact loweredOther same

/-- The first critical section of a call. -/
theorem enterCall_lockStep {mutex fuel : Nat} {system after : SyncSystem}
    {task : TaskId} {call : Call} {start : Nat} {events : List Event}
    (inside : system.pc task = .entering call start)
    (entered : enterCall fuel system task call start = some (after, events)) :
    LockStep mutex system (.run task) after events := by
  have looped : ∀ loop, waitLoop task call = some loop →
      testLoop system task call start loop = (after, events) →
      LockStep mutex system (.run task) after events :=
    fun loop found tested => testLoop_lockStep found tested
  have kept : ∀ {changed : SyncSystem} {result : Int},
      changed.lockState mutex = system.lockState mutex →
      (∀ timeout, call ≠ .mutexLock mutex timeout) → call ≠ .mutexUnlock mutex →
      finish changed task call result [] = (after, events) →
      LockStep mutex system (.run task) after events := by
    intro changed result same notLock notUnlock finished
    obtain ⟨rfl, rfl⟩ := Prod.mk.inj finished
    exact .keep same (noReturns_of_call (fun timeout equal => absurd equal (notLock timeout))
      (fun equal => absurd equal notUnlock) noReturns_nil)
  cases call with
  | semaphoreTake sem timeout =>
      exact looped _ rfl (Option.some.inj entered)
  | queueSend queue data timeout =>
      exact looped _ rfl (Option.some.inj entered)
  | queueReceive queue timeout =>
      exact looped _ rfl (Option.some.inj entered)
  | rwlockReadLock rwlock timeout =>
      exact looped _ rfl (Option.some.inj entered)
  | rwlockWriteLock rwlock timeout =>
      have stepped : LockStep mutex
          (system.modifyRwlock rwlock fun object =>
            { object with writerWaiting := 1 }) (.run task) after events :=
        testLoop_lockStep rfl (Option.some.inj entered)
      exact stepped.congr_before rfl rfl
  | semaphoreGive sem =>
      exact kept ((Quiet.semaphoreGive _ _).lock mutex) (by simp) (by simp)
        (Option.some.inj entered)
  | queueReset queue =>
      exact kept ((Quiet.modifyQueue _ _ _).lock mutex) (by simp) (by simp)
        (Option.some.inj entered)
  | queueFlush queue =>
      obtain ⟨⟨flushed, changed⟩, flush, finished⟩ := Option.map_eq_some_iff.mp entered
      exact kept ((Quiet.queueFlush flush).lock mutex) (by simp) (by simp) finished
  | rwlockReadUnlock rwlock =>
      exact kept (LocksKept.rwlockReadUnlock _ _).lockState (by simp) (by simp)
        (Option.some.inj entered)
  | rwlockWriteUnlock rwlock =>
      obtain ⟨changed, unlocked, finished⟩ := Option.map_eq_some_iff.mp entered
      exact kept (LocksKept.rwlockWriteUnlock unlocked).lockState (by simp) (by simp)
        finished
  | mutexUnlock object =>
      obtain ⟨rfl, rfl⟩ := Prod.mk.inj (Option.some.inj entered)
      exact mutexUnlock_lockStep mutex object system ⟨rfl, inside⟩
  | mutexLock object timeout =>
      have other : mutex ≠ object →
          ∀ wait, Call.mutexLock object timeout ≠ .mutexLock mutex wait := by
        intro different wait equal
        exact different (Call.mutexLock.inj equal).1.symm
      rw [enterCall] at entered
      split at entered
      case isTrue free =>
        by_cases same : mutex = object
        · subst same
          obtain ⟨rfl, rfl⟩ := Prod.mk.inj (Option.some.inj entered)
          exact .take task free (lockState_mutexAcquire _ _ _)
            (by simp [SyncSystem.pc_setPc]) (oneLock_return timeout)
        · exact kept (lockState_modifyMutex_of_ne _ same _) (other same) (by simp)
            (Option.some.inj entered)
      case isFalse busy =>
        split at entered
        case isTrue owned =>
          by_cases same : mutex = object
          · subst same
            obtain ⟨rfl, rfl⟩ := Prod.mk.inj (Option.some.inj entered)
            refine .nest task timeout start ⟨rfl, inside⟩ owned ?_
              (oneLock_return timeout)
            simp [SyncSystem.lockState, SyncSystem.modifyMutex, owned]
          · exact kept (lockState_modifyMutex_of_ne _ same _) (other same) (by simp)
              (Option.some.inj entered)
        case isFalse foreign =>
          exact looped _ rfl (Option.some.inj entered)

/-- Every step of the system is one of the cases of `LockStep`, for every
mutex. -/
theorem exec_lockStep {fuel : Nat} {before after : SyncSystem} {action : Action}
    {events : List Event}
    (stepped : exec fuel before action = some (after, events)) (mutex : Nat) :
    LockStep mutex before action after events := by
  cases exec_cases stepped with
  | refused task call _ _ =>
      exact .keep rfl (noReturns_of_call (by simp) (by simp) noReturns_nil)
  | invoke task call _ _ => exact .keep rfl noReturns_nil
  | interrupt call =>
      refine .keep ((Quiet.runIsr before call).lock mutex) ?_
      rcases runIsr_events before call with none | ⟨data, delivered⟩
      · rw [none]
        exact noReturns_nil
      · rw [delivered]
        simp [NoReturns, lockReturns, unlockReturns, isLockReturn, isUnlockReturn]
  | tick _ => exact .keep rfl noReturns_nil
  | run task ran =>
      have dispatched : ∀ {later : SyncSystem} {events : List Event},
          LockStep mutex (dispatch before task) (.run task) later events →
          LockStep mutex before (.run task) later events :=
        fun step => step.congr_before rfl rfl
      cases runTask_cases ran with
      | entering call start inside entered =>
        exact dispatched (enterCall_lockStep inside entered)
      | delaying call start _ _ => exact .keep rfl noReturns_nil
      | sleeping call start _ _ => exact .keep rfl noReturns_nil
      | retrying call start _ found tested => exact dispatched (testLoop_lockStep found tested)
      | @expiring removed _ call start _ found removal =>
        refine .keep ?_ (noReturns_of_call (by simp) (by simp) noReturns_nil)
        rw [SyncSystem.lockState_setPc, (waitLoop_lockState found removed mutex).1]
        exact (Quiet.removeFromList removal).lock mutex

section Exclusion

theorem lockReturns_append (newer older : List Event) (task : TaskId) (mutex : Nat) :
    lockReturns (newer ++ older) task mutex =
      lockReturns newer task mutex + lockReturns older task mutex :=
  List.countP_append

theorem unlockReturns_append (newer older : List Event) (task : TaskId)
    (mutex : Nat) : unlockReturns (newer ++ older) task mutex =
      unlockReturns newer task mutex + unlockReturns older task mutex :=
  List.countP_append

/-- The nesting levels that the mutex words grant to a task. -/
def grantedLevels (words : Nat × Option TaskId × Nat) (task : TaskId) : Nat :=
  if words.2.1 = some task then words.2.2 else 0

/-- Only the owner can have locked more often than it unlocked, and by no more
than `recursive_count`. -/
structure LockInvariant (words : Nat × Option TaskId × Nat) (mutex : Nat)
    (trace : List Event) : Prop where
  held_of_owner : words.2.1 ≠ none → words.1 = 1
  count_pos : words.2.1 ≠ none → 0 < words.2.2
  count_lt : words.2.2 < uint32Size
  balance : ∀ task, lockReturns trace task mutex ≤
    unlockReturns trace task mutex + grantedLevels words task

/-- A task that nests another level has room for it in `recursive_count`. -/
def NestingBounded (current : Traced) (action : Action) : Prop :=
  ∀ task mutex timeout start, action = .run task →
    current.system.pc task = .entering (.mutexLock mutex timeout) start →
    (current.system.mutexes mutex).owner = some task →
    (current.system.mutexes mutex).recursiveCount + 1 < uint32Size

theorem decremented_eq {mutex : Mutex} (positive : 0 < mutex.recursiveCount)
    (small : mutex.recursiveCount < uint32Size) :
    mutex.decremented = mutex.recursiveCount - 1 := by
  unfold Mutex.decremented uint32Size at *
  omega

/-- An unlocking that the owner returns from takes one of its levels. -/
theorem gained_of_oneUnlock {mutex : Nat} {task : TaskId} {events : List Event}
    {system : SyncSystem} {words : Nat × Option TaskId × Nat}
    (owned : (system.mutexes mutex).owner = some task) (returns : OneUnlock mutex task events)
    (level : (system.mutexes mutex).recursiveCount ≤ 1 + grantedLevels words task)
    (other : TaskId) :
    lockReturns events other mutex + grantedLevels (system.lockState mutex) other ≤
      unlockReturns events other mutex + grantedLevels words other := by
  rw [(returns other).1, (returns other).2]
  by_cases same : other = task
  · subst other
    simpa [grantedLevels, SyncSystem.lockState, owned] using level
  · simp [grantedLevels, SyncSystem.lockState, owned, same, Ne.symm same]

theorem LockInvariant.step {mutex : Nat} {before after : Traced} {action : Action}
    {events : List Event}
    (invariant : LockInvariant (before.system.lockState mutex) mutex before.trace)
    (bounded : NestingBounded before action)
    (stepped : LockStep mutex before.system action after.system events)
    (traced : after.trace = events ++ before.trace) :
    LockInvariant (after.system.lockState mutex) mutex after.trace := by
  obtain ⟨heldOwner, countPos, countLt, balance⟩ := invariant
  simp only [SyncSystem.lockState] at heldOwner countPos countLt balance
  have newBalance : ∀ {words : Nat × Option TaskId × Nat},
      (∀ task, lockReturns events task mutex +
        grantedLevels (before.system.lockState mutex) task ≤
          unlockReturns events task mutex + grantedLevels words task) →
      ∀ task, lockReturns after.trace task mutex ≤
        unlockReturns after.trace task mutex + grantedLevels words task := by
    intro words gained task
    rw [traced, lockReturns_append, unlockReturns_append]
    have old := balance task
    have new := gained task
    simp only [SyncSystem.lockState] at new
    omega
  cases stepped with
  | keep same returns =>
      rw [same]
      refine ⟨heldOwner, countPos, countLt, newBalance fun task => ?_⟩
      rw [(returns task).1, (returns task).2]
  | take task free taken leaves returns =>
      have noOwner : (before.system.mutexes mutex).owner = none := by
        by_contra owned
        have held := heldOwner owned
        omega
      rw [taken]
      refine ⟨by simp, by simp, by simp [uint32Size], newBalance fun other => ?_⟩
      rw [(returns other).1, (returns other).2]
      by_cases same : other = task
      · simp [grantedLevels, SyncSystem.lockState, noOwner, same]
      · simp [grantedLevels, SyncSystem.lockState, noOwner, same]
  | nest task timeout start acting owned nested returns =>
      have room := bounded task mutex timeout start acting.1 acting.2 owned
      rw [Nat.mod_eq_of_lt room] at nested
      rw [nested]
      refine ⟨fun _ => heldOwner (by simp [owned]), by simp, room,
        newBalance fun other => ?_⟩
      rw [(returns other).1, (returns other).2]
      by_cases same : other = task
      · simp [grantedLevels, SyncSystem.lockState, owned, same, Nat.add_comm]
      · simp [grantedLevels, SyncSystem.lockState, owned, same, Ne.symm same]
  | unnest task owned more unnested returns =>
      have positive := countPos (by simp [owned])
      rw [decremented_eq positive countLt] at more unnested
      rw [unnested]
      refine ⟨fun _ => heldOwner (by simp [owned]), fun _ => more, ?_,
        newBalance (gained_of_oneUnlock owned returns ?_)⟩
      · change (before.system.mutexes mutex).recursiveCount - 1 < uint32Size
        omega
      · simp [grantedLevels]
        omega
  | release task owned last freed returns =>
      have positive := countPos (by simp [owned])
      rw [decremented_eq positive countLt] at last
      rw [freed]
      refine ⟨by simp, by simp, by simp [uint32Size],
        newBalance (gained_of_oneUnlock owned returns ?_)⟩
      omega
  | handOff task waiter start acting owned last first handed returns =>
      have positive := countPos (by simp [owned])
      rw [decremented_eq positive countLt] at last
      rw [handed]
      refine ⟨by simp, by simp, by simp [uint32Size],
        newBalance (gained_of_oneUnlock owned returns ?_)⟩
      omega

theorem lockInvariant_of_reachable {initial : SyncSystem} (start : initial.Initial)
    {current : Traced} (run : Traced.Reachable NestingBounded initial current)
    (mutex : Nat) :
    LockInvariant (current.system.lockState mutex) mutex current.trace := by
  induction run with
  | refl =>
      have fresh := start.mutex mutex
      refine ⟨?_, ?_, ?_, ?_⟩ <;>
        simp [SyncSystem.lockState, fresh, uint32Size, lockReturns]
  | tail _ step ih =>
      obtain ⟨fuel, action, events, bounded, stepped, traced⟩ := step
      exact ih.step bounded (exec_lockStep stepped mutex) traced

/-- Mutual exclusion: whatever the interleaving of lock and unlock calls, at
most one task has more successful locks than unlocks of a mutex, and that task
is the recorded owner of the held mutex. -/
theorem mutex_exclusion {initial : SyncSystem} (start : initial.Initial)
    {current : Traced} (run : Traced.Reachable NestingBounded initial current)
    (mutex : Nat) :
    (∀ task, unlockReturns current.trace task mutex <
        lockReturns current.trace task mutex →
      (current.system.mutexes mutex).owner = some task ∧
        (current.system.mutexes mutex).held = 1) ∧
    ∀ first second,
      unlockReturns current.trace first mutex <
        lockReturns current.trace first mutex →
      unlockReturns current.trace second mutex <
        lockReturns current.trace second mutex →
      first = second := by
  have invariant := lockInvariant_of_reachable start run mutex
  have owner : ∀ task, unlockReturns current.trace task mutex <
      lockReturns current.trace task mutex →
      (current.system.mutexes mutex).owner = some task ∧
        (current.system.mutexes mutex).held = 1 := by
    intro task ahead
    have bound := invariant.balance task
    have owned : (current.system.mutexes mutex).owner = some task := by
      by_contra foreign
      simp [grantedLevels, SyncSystem.lockState, foreign] at bound
      omega
    exact ⟨owned, invariant.held_of_owner (by simp [SyncSystem.lockState, owned])⟩
  refine ⟨owner, fun first second firstAhead secondAhead => ?_⟩
  have firstOwner := (owner first firstAhead).1
  have secondOwner := (owner second secondAhead).1
  rw [firstOwner] at secondOwner
  exact Option.some.inj secondOwner

/-- A test for `NestingBounded`. -/
def nestingGuard (current : Traced) : Action → Bool
  | .run task =>
      match current.system.pc task with
      | .entering (.mutexLock mutex _) _ =>
          (current.system.mutexes mutex).recursiveCount + 1 < uint32Size
      | _ => true
  | _ => true

theorem nestingBounded_of_guard (current : Traced) (action : Action)
    (guarded : nestingGuard current action = true) :
    NestingBounded current action := by
  rintro task mutex timeout start rfl inside _
  simpa [nestingGuard, inside] using guarded

/-- Task 2 nests and unlocks once while task 3 waits: task 2 is ahead and owns
the mutex. -/
theorem mutex_exclusion_nested :
    ∃ current, Traced.Reachable NestingBounded twoTasks current ∧
      unlockReturns current.trace 2 0 < lockReturns current.trace 2 0 ∧
      (current.system.pc 3).waiting = some (.mutexLock 0 9) ∧
      (current.system.mutexes 0).owner = some 2 ∧
      (current.system.mutexes 0).held = 1 := by
  obtain ⟨current, run, ahead, waits⟩ :=
    Traced.exists_reachable nestingBounded_of_guard 4
      [.invoke 2 (.mutexLock 0 0), .run 2, .invoke 3 (.mutexLock 0 9), .run 3,
        .invoke 2 (.mutexLock 0 0), .run 2, .invoke 2 (.mutexUnlock 0), .run 2]
      twoTasks
      (fun current => unlockReturns current.trace 2 0 < lockReturns current.trace 2 0 ∧
        (current.system.pc 3).waiting = some (.mutexLock 0 9))
      (by decide)
  exact ⟨current, run, ahead, waits,
    (mutex_exclusion twoTasks_initial run 0).1 2 ahead⟩

end Exclusion

end Rtos

end MiniIotRobotEdge

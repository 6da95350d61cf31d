import MiniIotRobotEdge.PriorityInheritance
import MiniIotRobotEdge.RtosMutexHandOff
import MiniIotRobotEdge.RtosScheduling
import MiniIotRobotEdge.RtosWaitLists

/-!
# Priority inheritance of the mini-rtos mutex

`mutex_lock` raises the owner before its task blocks, and the last `mutex_unlock` restores
what was saved.  Every step of the system is a step of priority inheritance with one saved
priority for each mutex, or leaves the priorities alone.
-/

namespace MiniIotRobotEdge

namespace Rtos

open PriorityInheritance

/-- The part of the system that priority inheritance is about. -/
def SyncSystem.inheritance (system : SyncSystem) : State TaskId Nat where
  priority task := (system.kernel.tcb task).priority
  saved mutex := (system.mutexes mutex).ownerOriginalPriority
  owner mutex := (system.mutexes mutex).owner

/-- A change that leaves the priorities and the owners of all mutexes alone. -/
structure SameInheritance (before after : SyncSystem) : Prop where
  state : after.inheritance = before.inheritance
  held : ∀ mutex, (after.mutexes mutex).held = (before.mutexes mutex).held

namespace SameInheritance

variable {first second third : SyncSystem}

theorem refl (system : SyncSystem) : SameInheritance system system := ⟨rfl, fun _ => rfl⟩

theorem trans (left : SameInheritance first second) (right : SameInheritance second third) :
    SameInheritance first third :=
  ⟨right.state.trans left.state, fun mutex => (right.held mutex).trans (left.held mutex)⟩

variable (system : SyncSystem)

theorem kernel {kernel : Kernel}
    (kept : ∀ task, (kernel.tcb task).priority = (system.kernel.tcb task).priority) :
    SameInheritance system { system with kernel := kernel } := by
  refine ⟨?_, fun _ => rfl⟩
  rw [SyncSystem.inheritance, SyncSystem.inheritance, State.mk.injEq]
  exact ⟨funext kept, rfl, rfl⟩

theorem dispatch (task : TaskId) : SameInheritance system (dispatch system task) :=
  ⟨rfl, fun _ => rfl⟩

theorem setPc (task : TaskId) (pc : Pc) : SameInheritance system (system.setPc task pc) :=
  ⟨rfl, fun _ => rfl⟩

theorem modifyTask {task : TaskId} {change : Tcb → Tcb}
    (kept : ∀ tcb, (change tcb).priority = tcb.priority) :
    SameInheritance system (system.modifyTask task change) :=
  .kernel system (Kernel.field_modify Tcb.priority system.kernel task kept)

theorem modifySemaphore (sem : Nat) (change : Semaphore → Semaphore) :
    SameInheritance system (system.modifySemaphore sem change) := ⟨rfl, fun _ => rfl⟩

theorem modifyQueue (queue : Nat) (change : Queue → Queue) :
    SameInheritance system (system.modifyQueue queue change) := ⟨rfl, fun _ => rfl⟩

theorem modifyRwlock (rwlock : Nat) (change : Rwlock → Rwlock) :
    SameInheritance system (system.modifyRwlock rwlock change) := ⟨rfl, fun _ => rfl⟩

theorem modifyMutex {mutex : Nat} {change : Mutex → Mutex}
    (kept : ∀ object, (change object).held = object.held ∧
      (change object).owner = object.owner ∧
      (change object).ownerOriginalPriority = object.ownerOriginalPriority) :
    SameInheritance system (system.modifyMutex mutex change) := by
  have same : ∀ other,
      ((system.modifyMutex mutex change).mutexes other).held = (system.mutexes other).held ∧
      ((system.modifyMutex mutex change).mutexes other).owner = (system.mutexes other).owner ∧
      ((system.modifyMutex mutex change).mutexes other).ownerOriginalPriority =
        (system.mutexes other).ownerOriginalPriority := by
    intro other
    by_cases isMutex : other = mutex
    · subst isMutex
      simp [SyncSystem.modifyMutex, kept]
    · simp [SyncSystem.modifyMutex, Function.update_of_ne isMutex]
  refine ⟨?_, fun other => (same other).1⟩
  rw [SyncSystem.inheritance, SyncSystem.inheritance, State.mk.injEq]
  exact ⟨rfl, funext fun other => (same other).2.2, funext fun other => (same other).2.1⟩

theorem mutexDecrement (mutex : Nat) : SameInheritance system (mutexDecrement system mutex) := by
  rw [Rtos.mutexDecrement]
  exact .modifyMutex _ (by simp)

theorem setHead (list : WaitList) (head : Option TaskId) :
    SameInheritance system (system.setHead list head) := by
  cases list <;> simp only [SyncSystem.setHead]
  case semaphore => exact .modifySemaphore _ _ _
  case senders => exact .modifyQueue _ _ _
  case receivers => exact .modifyQueue _ _ _
  case mutex => exact .modifyMutex _ (by simp)
  case readers => exact .modifyRwlock _ _ _
  case writers => exact .modifyRwlock _ _ _

theorem blockTask (list : WaitList) (task : TaskId) :
    SameInheritance system (blockTask system list task) :=
  (SameInheritance.modifyTask _ (by simp)).trans (.setHead _ _ _)

theorem unblockTask (list : WaitList) : SameInheritance system (unblockTask system list) := by
  unfold Rtos.unblockTask
  split
  · exact .refl system
  · exact (SameInheritance.setHead _ _ _).trans (.modifyTask _ (by simp))

theorem semaphoreGive (sem : Nat) : SameInheritance system (semaphoreGive system sem) :=
  (SameInheritance.modifySemaphore _ _ _).trans (.unblockTask _ _)

theorem bypassTask (list : WaitList) (task : TaskId) (previous : Option TaskId) :
    SameInheritance system (bypassTask system list task previous) := by
  cases previous with
  | none => exact .setHead _ _ _
  | some previous => exact .modifyTask _ (by simp)

theorem removeFromList {fuel : Nat} {system after : SyncSystem} {list : WaitList}
    {task : TaskId} {clearsTask : Bool}
    (removed : removeFromList fuel system list task clearsTask = some after) :
    SameInheritance system after := by
  apply removeFromList_keeps _ _ (SameInheritance.refl system) removed
  · exact SameInheritance.bypassTask system list task
  · intro current kept
    exact kept.trans (.modifyTask _ (by simp))

theorem readyAll {fuel : Nat} {system after : SyncSystem} {cursor : Option TaskId}
    (woken : readyAll fuel system cursor = some after) : SameInheritance system after := by
  apply readyAll_keeps _ (SameInheritance.refl system) woken
  intro current task kept
  exact kept.trans (.modifyTask _ (by simp))

theorem queueFlush {fuel : Nat} {system after : SyncSystem} {queue flushed : Nat}
    (done : queueFlush fuel system queue = some (flushed, after)) :
    SameInheritance system after := by
  unfold Rtos.queueFlush at done
  dsimp only at done
  split at done
  · simp at done
  · rename_i woken
    obtain ⟨rfl, rfl⟩ : _ = flushed ∧ _ = after := by simpa using done
    exact ((SameInheritance.modifyQueue _ _ _).trans (.readyAll woken)).trans (.setHead _ _ _)

theorem rwlockUnblockOneWriter (rwlock : Nat) :
    SameInheritance system (rwlockUnblockOneWriter system rwlock) := by
  unfold Rtos.rwlockUnblockOneWriter
  split
  · exact .refl system
  · exact (SameInheritance.unblockTask _ _).trans (.modifyRwlock _ _ _)

theorem rwlockUnblockAllReaders {fuel rwlock : Nat} {system after : SyncSystem}
    (woken : rwlockUnblockAllReaders fuel system rwlock = some after) :
    SameInheritance system after := by
  apply rwlockUnblockAllReaders_keeps _ (SameInheritance.refl system) woken
  intro current kept
  exact kept.trans ((SameInheritance.unblockTask _ _).trans (.modifyRwlock _ _ _))

theorem rwlockReadUnlock (rwlock : Nat) :
    SameInheritance system (rwlockReadUnlock system rwlock) := by
  unfold Rtos.rwlockReadUnlock
  dsimp only
  split
  · exact (SameInheritance.modifyRwlock _ _ _).trans (.rwlockUnblockOneWriter _ _)
  · exact .modifyRwlock _ _ _

theorem rwlockWriteUnlock {fuel rwlock : Nat} {system after : SyncSystem}
    (unlocked : rwlockWriteUnlock fuel system rwlock = some after) :
    SameInheritance system after := by
  unfold Rtos.rwlockWriteUnlock at unlocked
  dsimp only at unlocked
  split at unlocked
  · obtain rfl := Option.some.inj unlocked
    exact (SameInheritance.modifyRwlock _ _ _).trans (.rwlockUnblockOneWriter _ _)
  · exact (SameInheritance.modifyRwlock _ _ _).trans (.rwlockUnblockAllReaders unlocked)

theorem runIsr (call : IsrCall) : SameInheritance system (runIsr system call).1 := by
  cases call with
  | semaphoreGiveFromIsr sem => exact .semaphoreGive _ _
  | queueSendFromIsr queue data =>
      unfold Rtos.runIsr
      dsimp only
      split
      · exact .refl system
      · exact (SameInheritance.modifyQueue _ _ _).trans (.unblockTask _ _)
  | queueReceiveFromIsr queue =>
      unfold Rtos.runIsr
      dsimp only
      split
      · exact .refl system
      · exact (SameInheritance.modifyQueue _ _ _).trans (.unblockTask _ _)

end SameInheritance

section Operations

variable {system : SyncSystem} {mutex : Nat} {task : TaskId}

theorem inheritance_modifyTask (change : Tcb → Tcb) :
    (system.modifyTask task change).inheritance =
      { system.inheritance with
        priority := Function.update system.inheritance.priority task
          (change (system.kernel.tcb task)).priority } := by
  rw [SyncSystem.inheritance, State.mk.injEq]
  refine ⟨funext fun other => ?_, rfl, rfl⟩
  by_cases same : other = task
  · simp [SyncSystem.modifyTask, same]
  · simp [SyncSystem.modifyTask, Kernel.tcb_modify, same, SyncSystem.inheritance]

theorem inheritance_modifyMutex (change : Mutex → Mutex) :
    (system.modifyMutex mutex change).inheritance =
      { system.inheritance with
        saved := Function.update system.inheritance.saved mutex
          (change (system.mutexes mutex)).ownerOriginalPriority
        owner := Function.update system.inheritance.owner mutex
          (change (system.mutexes mutex)).owner } := by
  rw [SyncSystem.inheritance, State.mk.injEq]
  refine ⟨rfl, funext fun other => ?_, funext fun other => ?_⟩
  · by_cases same : other = mutex
    · simp [SyncSystem.modifyMutex, same]
    · simp [SyncSystem.modifyMutex, same, SyncSystem.inheritance]
  · by_cases same : other = mutex
    · simp [SyncSystem.modifyMutex, same]
    · simp [SyncSystem.modifyMutex, same, SyncSystem.inheritance]

theorem held_modifyMutex (change : Mutex → Mutex) (other : Nat) :
    ((system.modifyMutex mutex change).mutexes other).held =
      if other = mutex then (change (system.mutexes mutex)).held
      else (system.mutexes other).held := by
  by_cases same : other = mutex
  · simp [SyncSystem.modifyMutex, same]
  · simp [SyncSystem.modifyMutex, same]

theorem mutexPriorityInherit_inheritance :
    (mutexPriorityInherit system mutex task).inheritance =
      inherit system.inheritance mutex task := by
  cases owned : (system.mutexes mutex).owner with
  | none =>
      have noOwner : system.inheritance.owner mutex = none := owned
      rw [mutexPriorityInherit, owned, inherit, noOwner]
  | some owner =>
      have isOwner : system.inheritance.owner mutex = some owner := owned
      rw [mutexPriorityInherit, owned]
      dsimp only
      by_cases stronger : (system.kernel.tcb owner).priority < (system.kernel.tcb task).priority
      · have sameOwner : Function.update system.inheritance.owner mutex
            (system.mutexes mutex).owner = system.inheritance.owner :=
          Function.update_eq_self mutex system.inheritance.owner
        rw [if_pos stronger, inherit_raised isOwner stronger, inheritance_modifyTask,
          inheritance_modifyMutex, sameOwner]
        rfl
      · rw [if_neg stronger, inherit_weaker]
        intro other isOther
        obtain rfl := Option.some.inj (isOwner.symm.trans isOther)
        exact Nat.not_lt.mp stronger

theorem mutexAcquire_inheritance :
    (mutexAcquire system mutex task).inheritance = acquire system.inheritance mutex task := by
  have sameSaved : Function.update system.inheritance.saved mutex
      (system.mutexes mutex).ownerOriginalPriority = system.inheritance.saved :=
    Function.update_eq_self mutex system.inheritance.saved
  rw [mutexAcquire, inheritance_modifyMutex, sameSaved]
  rfl

theorem held_mutexAcquire (other : Nat) :
    ((mutexAcquire system mutex task).mutexes other).held =
      if other = mutex then 1 else (system.mutexes other).held := by
  rw [mutexAcquire, held_modifyMutex]

theorem mutexRelease_inheritance (owned : (system.mutexes mutex).owner = some task) :
    (mutexRelease system mutex).inheritance = release system.inheritance mutex task none := by
  have savedIs : system.inheritance.saved mutex = (system.mutexes mutex).ownerOriginalPriority :=
    rfl
  rw [mutexRelease, inheritance_modifyMutex, mutexPriorityRestore, owned]
  dsimp only
  by_cases saved : 0 < (system.mutexes mutex).ownerOriginalPriority
  · rw [if_pos saved, inheritance_modifyMutex, inheritance_modifyTask, release, restored, savedIs,
      if_pos saved]
    simp [SyncSystem.modifyMutex]
  · rw [if_neg saved, release, restored, savedIs, if_neg saved]
    have noSaved := Nat.eq_zero_of_not_pos saved
    have samePriority : Function.update system.inheritance.priority task
        (system.inheritance.priority task) = system.inheritance.priority :=
      Function.update_eq_self task _
    rw [samePriority, noSaved]

theorem mutexHandOff_inheritance :
    (mutexHandOff system mutex task).inheritance = acquire system.inheritance mutex task ∧
      ∀ other, ((mutexHandOff system mutex task).mutexes other).held =
        if other = mutex then 1 else (system.mutexes other).held := by
  have woken : SameInheritance system
      ((system.setHead (.mutex mutex) (system.link task)).modifyTask task fun tcb =>
        { tcb with state := .ready, blockObj := none }) :=
    (SameInheritance.setHead _ _ _).trans (.modifyTask _ (by simp))
  rw [mutexHandOff]
  refine ⟨?_, fun other => ?_⟩
  · rw [mutexAcquire_inheritance, woken.state]
  · rw [held_mutexAcquire, woken.held]

/-- The last `mutex_unlock` restores the priority and passes the mutex on. -/
theorem mutexUnlock_inheritance (owned : (system.mutexes mutex).owner = some task)
    (last : (system.mutexes mutex).decremented = 0) :
    (mutexUnlock system mutex task).1.inheritance =
      release system.inheritance mutex task (system.mutexes mutex).blockedTasks ∧
    ∀ other, ((mutexUnlock system mutex task).1.mutexes other).held =
      if other = mutex then if (system.mutexes mutex).blockedTasks = none then 0 else 1
      else (system.mutexes other).held := by
  have lowered := SameInheritance.mutexDecrement system mutex
  have ownedNow : ((mutexDecrement system mutex).mutexes mutex).owner = some task := by
    have isOwner := congrFun (congrArg State.owner lowered.state) mutex
    exact isOwner.trans owned
  have released := mutexRelease_inheritance ownedNow
  have restoredWords := (Quiet.mutexPriorityRestore (mutexDecrement system mutex) mutex).lock
  have freed : ∀ other, ((mutexRelease (mutexDecrement system mutex) mutex).mutexes other).held =
      if other = mutex then 0 else (system.mutexes other).held := by
    intro other
    rw [mutexRelease, held_modifyMutex]
    by_cases same : other = mutex
    · rw [if_pos same, if_pos same]
    · rw [if_neg same, if_neg same]
      exact (congrArg Prod.fst (restoredWords other)).trans (lowered.held other)
  rw [lowered.state] at released
  rw [mutexUnlock_last owned last]
  cases waiting : (system.mutexes mutex).blockedTasks with
  | none => exact ⟨released, by simpa using freed⟩
  | some waiter =>
      refine ⟨?_, fun other => ?_⟩
      · rw [mutexHandOff_inheritance.1, released, acquire_release]
      · rw [mutexHandOff_inheritance.2, freed]
        by_cases same : other = mutex
        · simp [same]
        · simp [same]

/-- Every other `mutex_unlock` leaves the priorities and the owners alone. -/
theorem mutexUnlock_stays (notLast : (system.mutexes mutex).owner = some task →
    (system.mutexes mutex).decremented ≠ 0) :
    SameInheritance system (mutexUnlock system mutex task).1 ∧
      (mutexUnlock system mutex task).2.2 = [] := by
  unfold mutexUnlock
  split
  case isTrue => exact ⟨.refl _, rfl⟩
  case isFalse owned =>
    have more := notLast (not_not.mp owned)
    have nested : 0 < ((mutexDecrement system mutex).mutexes mutex).recursiveCount := by
      rw [recursiveCount_mutexDecrement]
      exact Nat.pos_of_ne_zero more
    rw [if_pos nested]
    exact ⟨.mutexDecrement system mutex, rfl⟩

end Operations

/-- The next section of the task is a last `mutex_unlock`. -/
structure SyncSystem.UnlocksLast (system : SyncSystem) (task : TaskId) (mutex : Nat) :
    Prop where
  entering : ∃ start, system.pc task = .entering (.mutexUnlock mutex) start
  owned : (system.mutexes mutex).owner = some task
  last : (system.mutexes mutex).decremented = 0

/-- The next section of the task takes a free mutex. -/
structure SyncSystem.TakesFree (system : SyncSystem) (task : TaskId) (mutex : Nat) :
    Prop where
  locking : ∃ timeout start, system.pc task = .entering (.mutexLock mutex timeout) start ∨
    system.pc task = .retrying (.mutexLock mutex timeout) start
  free : (system.mutexes mutex).held = 0

/-- No task begins to wait for a mutex. -/
def FewerWaits (before after : SyncSystem) : Prop :=
  ∀ waiter mutex, after.WaitsFor waiter mutex → before.WaitsFor waiter mutex

def NoHandOff (events : List Event) : Prop :=
  ∀ mutex waiter, Event.handedOff mutex waiter ∉ events

/-- What a step does to the priorities, the owners and the waits. -/
inductive InheritanceStep (before : SyncSystem) (action : Action) (after : SyncSystem)
    (events : List Event) : Prop
  | stay (same : SameInheritance before after) (fewer : FewerWaits before after)
      (noHandOff : NoHandOff events)
  | block (task : TaskId) (mutex : Nat) (acting : action = .run task)
      (blocks : before.blocksOn task = some (.mutex mutex))
      (state : after.inheritance = inherit before.inheritance mutex task)
      (held : ∀ other, (after.mutexes other).held = (before.mutexes other).held)
      (waits : ∀ waiter other, after.WaitsFor waiter other →
        before.WaitsFor waiter other ∨ waiter = task ∧ other = mutex)
      (noHandOff : NoHandOff events)
  | acquire (task : TaskId) (mutex : Nat) (acting : action = .run task)
      (takes : before.TakesFree task mutex)
      (state : after.inheritance = acquire before.inheritance mutex task)
      (held : ∀ other, (after.mutexes other).held =
        if other = mutex then 1 else (before.mutexes other).held)
      (fewer : FewerWaits before after) (noHandOff : NoHandOff events)
  | release (task : TaskId) (mutex : Nat) (acting : action = .run task)
      (unlocks : before.UnlocksLast task mutex)
      (state : after.inheritance =
        release before.inheritance mutex task (before.mutexes mutex).blockedTasks)
      (held : ∀ other, (after.mutexes other).held =
        if other = mutex then if (before.mutexes mutex).blockedTasks = none then 0 else 1
        else (before.mutexes other).held)
      (fewer : FewerWaits before after)
      (handOff : ∀ other waiter, Event.handedOff other waiter ∈ events ↔
        other = mutex ∧ (before.mutexes mutex).blockedTasks = some waiter)

section Steps

variable {fuel start : Nat} {before system after : SyncSystem} {task : TaskId} {call : Call}
  {events : List Event} {action : Action}

theorem FewerWaits.refl_of_pc (same : after.pc = before.pc) : FewerWaits before after := by
  rintro waiter mutex ⟨timeout, waiting⟩
  exact ⟨timeout, same ▸ waiting⟩

/-- Only the task that runs can begin to wait. -/
theorem FewerWaits.of_update {pc : Pc} (moved : after.pc = Function.update before.pc task pc)
    (same : ∀ mutex timeout, pc.waiting = some (.mutexLock mutex timeout) →
      (before.pc task).waiting = some (.mutexLock mutex timeout)) :
    FewerWaits before after := by
  rintro waiter mutex ⟨timeout, waiting⟩
  rw [moved] at waiting
  by_cases isTask : waiter = task
  · subst isTask
    rw [Function.update_self] at waiting
    exact ⟨timeout, same mutex timeout waiting⟩
  · rw [Function.update_of_ne isTask] at waiting
    exact ⟨timeout, waiting⟩

theorem FewerWaits.of_idle (moved : after.pc = Function.update before.pc task .idle) :
    FewerWaits before after :=
  .of_update moved (by simp [Pc.waiting])

theorem noHandOff_nil : NoHandOff [] := by simp [NoHandOff]

theorem NoHandOff.return (rest : NoHandOff events) (result : Int) :
    NoHandOff (.returned task call result :: events) := by
  intro mutex waiter isEvent
  rcases List.mem_cons.mp isEvent with isFirst | isLater
  · simp at isFirst
  · exact rest mutex waiter isLater

/-- The work around the wait loops of the other calls concerns no mutex. -/
theorem waitLoop_inheritance {loop : WaitLoop} (found : waitLoop task call = some loop)
    (notLock : ∀ mutex timeout, call ≠ .mutexLock mutex timeout) (system : SyncSystem) :
    SameInheritance system (loop.giveUp system) ∧
      SameInheritance system (loop.beforeBlock system) ∧
      SameInheritance system (loop.acquire system).1 ∧ NoHandOff (loop.acquire system).2 := by
  cases call <;> simp only [waitLoop, Option.some.injEq, reduceCtorEq] at found
    <;> subst found
  case semaphoreTake =>
    refine ⟨.refl _, .refl _, ?_, noHandOff_nil⟩
    dsimp only
    exact .modifySemaphore _ _ _
  case queueSend =>
    exact ⟨.refl _, .refl _, (SameInheritance.modifyQueue _ _ _).trans (.unblockTask _ _),
      noHandOff_nil⟩
  case queueReceive =>
    exact ⟨.refl _, .refl _, (SameInheritance.modifyQueue _ _ _).trans (.unblockTask _ _),
      by simp [NoHandOff]⟩
  case mutexLock mutex timeout => exact absurd rfl (notLock mutex timeout)
  case rwlockReadLock =>
    refine ⟨.refl _, .refl _, ?_, noHandOff_nil⟩
    dsimp only
    exact .modifyRwlock _ _ _
  case rwlockWriteLock =>
    refine ⟨?_, .refl _, ?_, noHandOff_nil⟩
    · dsimp only [rwlockStopWaiting]
      exact .modifyRwlock _ _ _
    · dsimp only
      exact .modifyRwlock _ _ _

/-- The loop heads of the other calls concern no mutex. -/
theorem testLoop_stays {loop : WaitLoop} (found : waitLoop task call = some loop)
    (notLock : ∀ mutex timeout, call ≠ .mutexLock mutex timeout)
    (tested : testLoop system task call start loop = (after, events)) :
    SameInheritance system after ∧ FewerWaits system after ∧ NoHandOff events := by
  obtain ⟨giveUp, beforeBlock, acquire, quiet⟩ := waitLoop_inheritance found notLock system
  obtain ⟨pc, moved, ended⟩ := testLoop_pc found tested
  have fewer : FewerWaits system after := by
    refine .of_update moved fun mutex timeout waiting => ?_
    rcases ended with rfl | rfl
    · simp [Pc.waiting] at waiting
    · exact absurd (Option.some.inj waiting) (notLock mutex timeout)
  rcases testLoop_cases tested with
    ⟨_, _, rfl, rfl⟩ | ⟨_, _, rfl, rfl⟩ | ⟨_, rfl, rfl⟩
  · exact ⟨giveUp.trans (.setPc _ _ _), fewer, noHandOff_nil.return 0⟩
  · exact ⟨(beforeBlock.trans (.blockTask _ _ _)).trans (.setPc _ _ _), fewer, noHandOff_nil⟩
  · exact ⟨acquire.trans (.setPc _ _ _), fewer, quiet.return 1⟩

/-- The loop head of `mutex_lock`. -/
theorem testLoop_inheritance {mutex timeout : Nat} {loop : WaitLoop}
    (inside : system.pc task = .entering (.mutexLock mutex timeout) start ∧
        (system.mutexes mutex).owner ≠ some task ∨
      system.pc task = .retrying (.mutexLock mutex timeout) start)
    (found : waitLoop task (.mutexLock mutex timeout) = some loop)
    (tested : testLoop system task (.mutexLock mutex timeout) start loop = (after, events)) :
    InheritanceStep system (.run task) after events := by
  obtain ⟨pc, moved, ended⟩ := testLoop_pc found tested
  obtain rfl : _ = loop := Option.some.inj found
  have left : ∀ {changed : SyncSystem}, changed.pc = system.pc →
      (changed.setPc task .idle).pc = Function.update system.pc task .idle := by
    intro changed same
    rw [SyncSystem.setPc, same]
  rcases testLoop_cases tested with
    ⟨_, _, rfl, rfl⟩ | ⟨busy, positive, rfl, rfl⟩ | ⟨free, rfl, rfl⟩
  · exact .stay (.setPc _ _ _) (.of_idle (left rfl)) (noHandOff_nil.return 0)
  · have blocks : system.blocksOn task = some (.mutex mutex) := by
      rcases inside with ⟨entering, foreign⟩ | retrying
      · rw [SyncSystem.blocksOn, entering]
        simp only [if_neg foreign]
        simp only [blockingList, waitLoop, Option.bind_some]
        exact if_pos ⟨busy, positive⟩
      · rw [SyncSystem.blocksOn, retrying]
        simp only [blockingList, waitLoop, Option.bind_some]
        exact if_pos ⟨busy, positive⟩
    have blocked := SameInheritance.blockTask (mutexPriorityInherit system mutex task)
      (.mutex mutex) task
    refine .block task mutex rfl blocks ?_ (fun other => ?_) ?_ noHandOff_nil
    · exact blocked.state.trans mutexPriorityInherit_inheritance
    · exact (blocked.held other).trans
        (congrArg Prod.fst ((Quiet.mutexPriorityInherit system mutex task).lock other))
    · rintro waiter other ⟨limit, waiting⟩
      rw [moved] at waiting
      by_cases isTask : waiter = task
      · subst isTask
        rw [Function.update_self] at waiting
        rcases ended with rfl | rfl
        · simp [Pc.waiting] at waiting
        · obtain ⟨rfl, _⟩ := Call.mutexLock.inj (Option.some.inj waiting)
          exact .inr ⟨rfl, rfl⟩
      · rw [Function.update_of_ne isTask] at waiting
        exact .inl ⟨limit, waiting⟩
  · refine .acquire task mutex rfl ⟨⟨timeout, start, inside.imp And.left id⟩, by simpa using free⟩
      ?_ (fun other => ?_) (.of_idle (left rfl)) (noHandOff_nil.return 1)
    · change (mutexAcquire system mutex task).inheritance = _
      exact mutexAcquire_inheritance
    · change ((mutexAcquire system mutex task).mutexes other).held = _
      exact held_mutexAcquire other

/-- The first section of `mutex_unlock`. -/
theorem mutexUnlock_inheritanceStep {mutex : Nat}
    (inside : system.pc task = .entering (.mutexUnlock mutex) start) :
    InheritanceStep system (.run task) ((mutexUnlock system mutex task).1.setPc task .idle)
      (.returned task (.mutexUnlock mutex) (mutexUnlock system mutex task).2.1 ::
        (mutexUnlock system mutex task).2.2) := by
  have moved : ((mutexUnlock system mutex task).1.setPc task .idle).pc =
      Function.update system.pc task .idle := by
    rw [SyncSystem.setPc, mutexUnlock_pc]
  have fewer := FewerWaits.of_idle moved
  by_cases last : (system.mutexes mutex).owner = some task ∧ (system.mutexes mutex).decremented = 0
  · obtain ⟨state, held⟩ := mutexUnlock_inheritance last.1 last.2
    refine .release task mutex rfl ⟨⟨start, inside⟩, last.1, last.2⟩ state held fewer
      fun other waiter => ?_
    rw [mutexUnlock_last last.1 last.2]
    cases waiting : (system.mutexes mutex).blockedTasks with
    | none => simp
    | some first =>
        rw [List.mem_cons, List.mem_singleton, Option.some.injEq]
        constructor
        · rintro (impossible | isEvent)
          · simp at impossible
          · obtain ⟨rfl, rfl⟩ := Event.handedOff.inj isEvent
            exact ⟨rfl, rfl⟩
        · rintro ⟨rfl, rfl⟩
          exact .inr rfl
  · obtain ⟨same, noEvents⟩ := mutexUnlock_stays fun owned isLast => last ⟨owned, isLast⟩
    rw [noEvents]
    exact .stay (same.trans (.setPc _ _ _)) fewer (noHandOff_nil.return _)

/-- The first section of a call. -/
theorem enterCall_inheritanceStep (inside : system.pc task = .entering call start)
    (entered : enterCall fuel system task call start = some (after, events)) :
    InheritanceStep system (.run task) after events := by
  have kept : ∀ {changed : SyncSystem} {result : Int}, SameInheritance system changed →
      changed.pc = system.pc → finish changed task call result [] = (after, events) →
      InheritanceStep system (.run task) after events := by
    intro changed result same samePc finished
    obtain ⟨rfl, rfl⟩ := Prod.mk.inj finished
    have moved : (changed.setPc task .idle).pc = Function.update system.pc task .idle := by
      rw [SyncSystem.setPc, samePc]
    exact .stay (same.trans (.setPc _ _ _)) (.of_idle moved) (noHandOff_nil.return result)
  cases call with
  | semaphoreTake | queueSend | queueReceive | rwlockReadLock =>
      obtain ⟨same, fewer, quiet⟩ := testLoop_stays rfl (by simp) (Option.some.inj entered)
      exact .stay same fewer quiet
  | rwlockWriteLock rwlock timeout =>
      have announced := SameInheritance.modifyRwlock system rwlock fun object =>
        { object with writerWaiting := 1 }
      obtain ⟨same, fewer, quiet⟩ := testLoop_stays rfl (by simp) (Option.some.inj entered)
      exact .stay (announced.trans same) fewer quiet
  | semaphoreGive sem =>
      exact kept (.semaphoreGive _ _) (Quiet.semaphoreGive _ _).pc (Option.some.inj entered)
  | queueReset queue => exact kept (.modifyQueue _ _ _) rfl (Option.some.inj entered)
  | queueFlush queue =>
      obtain ⟨⟨flushed, changed⟩, flush, finished⟩ := Option.map_eq_some_iff.mp entered
      exact kept (.queueFlush flush) (Quiet.queueFlush flush).pc finished
  | rwlockReadUnlock rwlock =>
      exact kept (.rwlockReadUnlock _ _) (LocksKept.rwlockReadUnlock _ _).pc
        (Option.some.inj entered)
  | rwlockWriteUnlock rwlock =>
      obtain ⟨changed, unlocked, finished⟩ := Option.map_eq_some_iff.mp entered
      exact kept (.rwlockWriteUnlock unlocked) (LocksKept.rwlockWriteUnlock unlocked).pc finished
  | mutexUnlock mutex =>
      obtain ⟨rfl, rfl⟩ := Prod.mk.inj (Option.some.inj entered)
      exact mutexUnlock_inheritanceStep inside
  | mutexLock mutex timeout =>
      rw [enterCall] at entered
      split at entered
      case isTrue free =>
        obtain ⟨rfl, rfl⟩ := Prod.mk.inj (Option.some.inj entered)
        have fewer : FewerWaits system ((mutexAcquire system mutex task).setPc task .idle) :=
          .of_idle rfl
        refine .acquire task mutex rfl ⟨⟨timeout, start, .inl inside⟩, free⟩ ?_ held_mutexAcquire
          fewer (noHandOff_nil.return 1)
        change (mutexAcquire system mutex task).inheritance = _
        exact mutexAcquire_inheritance
      case isFalse held =>
        split at entered
        case isTrue owned =>
          apply kept _ _ (Option.some.inj entered)
          · exact .modifyMutex _ (by simp)
          · rfl
        case isFalse foreign =>
          exact testLoop_inheritance (.inl ⟨inside, foreign⟩) rfl (Option.some.inj entered)

theorem InheritanceStep.of_dispatch
    (step : InheritanceStep (dispatch before task) (.run task) after events) :
    InheritanceStep before (.run task) after events := by
  cases step with
  | stay same fewer noHandOff =>
      exact .stay ((SameInheritance.dispatch before task).trans same) fewer noHandOff
  | block other mutex acting blocks state held waits noHandOff =>
      obtain rfl := Action.run.inj acting
      rw [blocksOn_dispatch] at blocks
      exact .block task mutex rfl blocks state held waits noHandOff
  | acquire other mutex acting takes state held fewer noHandOff =>
      exact .acquire other mutex acting ⟨takes.locking, takes.free⟩ state held fewer noHandOff
  | release other mutex acting unlocks state held fewer handOff =>
      exact .release other mutex acting ⟨unlocks.entering, unlocks.owned, unlocks.last⟩ state held
        fewer handOff

/-- A section of a task is a step of priority inheritance, or concerns no mutex. -/
theorem runTask_inheritanceStep (isCurrent : system.kernel.currentTask = some task)
    (ran : runTask fuel system task = some (after, events)) :
    InheritanceStep system (.run task) after events := by
  cases runTask_cases ran with
  | entering call start inside entered => exact enterCall_inheritanceStep inside entered
  | @delaying kernel call start inside delayed =>
    have kept : ∀ other, (kernel.tcb other).priority = (system.kernel.tcb other).priority := by
      intro other
      rw [taskDelay_field Nat.one_ne_zero isCurrent delayed Tcb.priority (fun _ _ => rfl)
        (fun _ _ => rfl) other]
      exact Kernel.field_modify Tcb.priority _ _ (by simp) other
    refine .stay ((SameInheritance.kernel _ kept).trans (.setPc _ _ _)) ?_ noHandOff_nil
    refine .of_update rfl fun mutex timeout waiting => ?_
    rw [inside]
    exact waiting
  | sleeping call start inside _ =>
    refine .stay (.setPc _ _ _) (.of_update rfl fun mutex timeout waiting => ?_) noHandOff_nil
    rw [inside]
    split at waiting <;> exact waiting
  | retrying call start inside found tested =>
    by_cases isLock : ∃ mutex timeout, call = .mutexLock mutex timeout
    · obtain ⟨mutex, timeout, rfl⟩ := isLock
      exact testLoop_inheritance (.inr inside) found tested
    · have notLock : ∀ mutex timeout, call ≠ .mutexLock mutex timeout :=
        fun mutex timeout same => isLock ⟨mutex, timeout, same⟩
      obtain ⟨same, fewer, quiet⟩ := testLoop_stays found notLock tested
      exact .stay same fewer quiet
  | @expiring removed loop call start _ found removal =>
    have gaveUp : SameInheritance removed (loop.giveUp removed) := by
      cases call <;> simp only [waitLoop, Option.some.injEq, reduceCtorEq] at found <;> subst found
      case rwlockWriteLock =>
        dsimp only [rwlockStopWaiting]
        exact .modifyRwlock _ _ _
      all_goals exact .refl _
    have moved : ((loop.giveUp removed).setPc task .idle).pc =
        Function.update system.pc task .idle := by
      rw [SyncSystem.setPc, (waitLoop_pc found removed).1, (Quiet.removeFromList removal).pc]
    exact .stay (((SameInheritance.removeFromList removal).trans gaveUp).trans (.setPc _ _ _))
      (.of_idle moved) (noHandOff_nil.return (-2))

/-- Every step is a step of priority inheritance, or concerns no mutex. -/
theorem exec_inheritanceStep (stepped : exec fuel before action = some (after, events)) :
    InheritanceStep before action after events := by
  cases exec_cases stepped with
  | refused task call _ _ =>
      exact .stay (.dispatch _ _) (.refl_of_pc rfl) (noHandOff_nil.return (-1))
  | invoke task call _ _ =>
      refine .stay ((SameInheritance.dispatch _ _).trans (.setPc _ _ _)) ?_ noHandOff_nil
      exact .of_update rfl (by simp [Pc.waiting])
  | interrupt call =>
      refine .stay (.runIsr _ _) (.refl_of_pc (Quiet.runIsr _ _).pc) ?_
      rcases runIsr_events before call with none | ⟨data, delivered⟩
      · rw [none]
        exact noHandOff_nil
      · simp [delivered, NoHandOff]
  | @tick kernel handled =>
      have kept : FieldKept Tcb.priority before.kernel kernel := by
        refine .schedulerTickHandler (fun tcb => ?_) (fun _ _ => rfl) handled
        unfold tickTcb
        split
        · split <;> rfl
        · rfl
      exact .stay (.kernel _ kept.tcb) (.refl_of_pc rfl) noHandOff_nil
  | run task ran => exact (runTask_inheritanceStep rfl ran).of_dispatch

end Steps

end Rtos

end MiniIotRobotEdge

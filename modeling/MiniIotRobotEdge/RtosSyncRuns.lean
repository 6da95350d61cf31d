import MiniIotRobotEdge.RtosSynchronization
import Mathlib.Logic.Relation

/-!
# Runs of the blocking calls

A run interleaves the critical sections of any number of tasks, interrupts and
ticks.  `Traced` keeps the events of the run beside the system, newest first,
and a run may be restricted by a condition on the state before every step.
Most sections only move tasks between wait lists; `Quiet` says that a change
left the program counters and the lock words alone.
-/

namespace MiniIotRobotEdge

namespace Rtos

open Relation

/-- A system together with the events that led to it. -/
structure Traced where
  system : SyncSystem
  trace : List Event

/-- One step under a condition on the state before it. -/
def Traced.Step (allowed : Traced → Action → Prop) (before after : Traced) : Prop :=
  ∃ fuel action events, allowed before action ∧
    exec fuel before.system action = some (after.system, events) ∧
    after.trace = events ++ before.trace

/-- The states of all runs from `initial` whose steps are allowed. -/
def Traced.Reachable (allowed : Traced → Action → Prop) (initial : SyncSystem)
    (current : Traced) : Prop :=
  ReflTransGen (Traced.Step allowed) ⟨initial, []⟩ current

/-- Execute a list of actions, each under a decidable guard. -/
def Traced.execAll (guard : Traced → Action → Bool) (fuel : Nat) :
    List Action → Traced → Option Traced
  | [], current => some current
  | action :: rest, current =>
      if guard current action then
        (exec fuel current.system action).bind fun (system, events) =>
          Traced.execAll guard fuel rest ⟨system, events ++ current.trace⟩
      else none

theorem Traced.execAll_run {allowed : Traced → Action → Prop}
    {guard : Traced → Action → Bool}
    (sound : ∀ current action, guard current action = true →
      allowed current action)
    {fuel : Nat} {actions : List Action} {first last : Traced}
    (executed : Traced.execAll guard fuel actions first = some last) :
    ReflTransGen (Traced.Step allowed) first last := by
  induction actions generalizing first with
  | nil =>
      obtain rfl : first = last := by simpa [execAll] using executed
      exact .refl
  | cons action rest ih =>
      rw [execAll] at executed
      split at executed
      case isFalse => simp at executed
      case isTrue guarded =>
        obtain ⟨⟨system, events⟩, stepped, remaining⟩ :=
          Option.bind_eq_some_iff.mp executed
        refine .head ⟨fuel, action, events, sound _ _ guarded, ?_, rfl⟩ (ih remaining)
        exact stepped

/-- The state with a decidable property that a list of actions ends in. -/
theorem Traced.exists_executed (guard : Traced → Action → Bool)
    (fuel : Nat) (actions : List Action) (initial : SyncSystem)
    (property : Traced → Prop) [DecidablePred property]
    (passed : (Traced.execAll guard fuel actions ⟨initial, []⟩).any
      (fun current => decide (property current)) = true) :
    ∃ current, Traced.execAll guard fuel actions ⟨initial, []⟩ = some current ∧
      property current := by
  obtain ⟨current, executed, holds⟩ := (Option.any_eq_true _ _).mp passed
  exact ⟨current, executed, by simpa using holds⟩

theorem Traced.exists_reachable {allowed : Traced → Action → Prop}
    {guard : Traced → Action → Bool}
    (sound : ∀ current action, guard current action = true →
      allowed current action)
    (fuel : Nat) (actions : List Action) (initial : SyncSystem)
    (property : Traced → Prop) [DecidablePred property]
    (passed : (Traced.execAll guard fuel actions ⟨initial, []⟩).any
      (fun current => decide (property current)) = true) :
    ∃ current, Traced.Reachable allowed initial current ∧ property current := by
  obtain ⟨current, executed, holds⟩ :=
    Traced.exists_executed guard fuel actions initial property passed
  exact ⟨current, Traced.execAll_run sound executed, holds⟩

/-- The condition of an unrestricted run. -/
def Traced.AnyStep (_ : Traced) (_ : Action) : Prop := True

theorem Traced.exists_anyStep (fuel : Nat) (actions : List Action) (initial : SyncSystem)
    (property : Traced → Prop) [DecidablePred property]
    (passed : (Traced.execAll (fun _ _ => true) fuel actions ⟨initial, []⟩).any
      (fun current => decide (property current)) = true) :
    ∃ current, Traced.Reachable Traced.AnyStep initial current ∧ property current :=
  Traced.exists_reachable (fun _ _ _ => trivial) fuel actions initial property passed

/-- Two tasks of equal priority beside the idle task, in a started kernel with
fresh objects. -/
def twoTasks : SyncSystem where
  kernel :=
    let created := taskCreate (taskCreate
      (schedulerInit (.boot fun _ => {}) (some 1)) (some 2) 5) (some 3) 5
    (schedulerStart 4 created).getD created
  semaphores := fun _ => { count := 0, maxCount := 1 }
  queues := fun _ => { buffer := fun _ => 0, itemSize := 1, maxItems := 1 }
  mutexes := fun _ => {}
  rwlocks := fun _ => {}
  pc := fun _ => .idle

theorem twoTasks_initial : twoTasks.Initial :=
  ⟨fun _ => rfl, fun _ => rfl, fun _ => ⟨rfl, rfl⟩, fun _ => rfl, fun _ => rfl⟩

namespace SyncSystem

/-- The fields of a mutex that decide who holds it. -/
def lockState (system : SyncSystem) (mutex : Nat) : Nat × Option TaskId × Nat :=
  ((system.mutexes mutex).held, (system.mutexes mutex).owner,
    (system.mutexes mutex).recursiveCount)

/-- The counters of a reader-writer lock. -/
def rwState (system : SyncSystem) (rwlock : Nat) : Nat × Nat × Nat :=
  ((system.rwlocks rwlock).readers, (system.rwlocks rwlock).writerActive,
    (system.rwlocks rwlock).writerWaiting)

end SyncSystem

section Loops

variable {motive : SyncSystem → Prop} {fuel : Nat} {system after : SyncSystem}

/-- What every turn of the loop over the readers keeps, the loop keeps. -/
theorem rwlockUnblockAllReaders_keeps {rwlock : Nat}
    (wakes : ∀ current, motive current →
      motive ((unblockTask current (.readers rwlock)).modifyRwlock rwlock fun object =>
        { object with readers := (object.readers + 1) % uint32Size }))
    (start : motive system)
    (woken : rwlockUnblockAllReaders fuel system rwlock = some after) : motive after := by
  induction fuel generalizing system with
  | zero => simp [rwlockUnblockAllReaders] at woken
  | succ fuel ih =>
      rw [rwlockUnblockAllReaders] at woken
      split at woken
      · obtain rfl : system = after := by simpa using woken
        exact start
      · exact ih (wakes system start) woken

/-- What making a task ready keeps, flushing a queue's list keeps. -/
theorem readyAll_keeps {cursor : Option TaskId}
    (readies : ∀ current task, motive current →
      motive (current.modifyTask task fun tcb => { tcb with state := .ready, blockObj := none }))
    (start : motive system) (woken : readyAll fuel system cursor = some after) :
    motive after := by
  induction fuel generalizing system cursor with
  | zero => simp [readyAll] at woken
  | succ fuel ih =>
      cases cursor with
      | none =>
          obtain rfl : system = after := by simpa [readyAll] using woken
          exact start
      | some task =>
          rw [readyAll] at woken
          exact ih (readies system task start) woken

/-- A task that gives up is at most taken out of a list and cleared. -/
theorem removeFromList_keeps {list : WaitList} {task : TaskId} {clearsTask : Bool}
    (bypasses : ∀ previous, motive (bypassTask system list task previous))
    (clears : ∀ current, motive current →
      motive (current.modifyTask task fun tcb => { tcb with blockNext := none, blockObj := none }))
    (start : motive system)
    (removed : removeFromList fuel system list task clearsTask = some after) : motive after := by
  unfold removeFromList at removed
  split at removed
  · simp at removed
  · obtain rfl : system = after := by simpa using removed
    exact start
  · obtain rfl := Option.some.inj removed
    cases clearsTask with
    | false => exact bypasses _
    | true => exact clears _ (bypasses _)

end Loops

/-- A change that leaves program counters and lock words alone. -/
structure Quiet (before after : SyncSystem) : Prop where
  pc : after.pc = before.pc
  lock : ∀ mutex, after.lockState mutex = before.lockState mutex
  rw : ∀ rwlock, after.rwState rwlock = before.rwState rwlock

namespace Quiet

variable {first second third : SyncSystem}

@[refl]
theorem refl (system : SyncSystem) : Quiet system system :=
  ⟨rfl, fun _ => rfl, fun _ => rfl⟩

theorem trans (left : Quiet first second) (right : Quiet second third) :
    Quiet first third :=
  ⟨right.pc.trans left.pc, fun mutex => (right.lock mutex).trans (left.lock mutex),
    fun rwlock => (right.rw rwlock).trans (left.rw rwlock)⟩

variable (system : SyncSystem)

theorem modifyTask (task : TaskId) (change : Tcb → Tcb) :
    Quiet system (system.modifyTask task change) :=
  ⟨rfl, fun _ => rfl, fun _ => rfl⟩

theorem modifySemaphore (sem : Nat) (change : Semaphore → Semaphore) :
    Quiet system (system.modifySemaphore sem change) :=
  ⟨rfl, fun _ => rfl, fun _ => rfl⟩

theorem modifyQueue (queue : Nat) (change : Queue → Queue) :
    Quiet system (system.modifyQueue queue change) :=
  ⟨rfl, fun _ => rfl, fun _ => rfl⟩

/-- Changing a mutex outside of its lock words is quiet. -/
theorem modifyMutex {mutex : Nat} {change : Mutex → Mutex}
    (kept : ∀ object, (change object).held = object.held ∧
      (change object).owner = object.owner ∧
      (change object).recursiveCount = object.recursiveCount) :
    Quiet system (system.modifyMutex mutex change) := by
  refine ⟨rfl, fun other => ?_, fun _ => rfl⟩
  unfold SyncSystem.lockState SyncSystem.modifyMutex
  by_cases same : other = mutex
  · subst other
    simp [kept]
  · simp [Function.update_of_ne same]

/-- Changing a reader-writer lock outside of its counters is quiet. -/
theorem modifyRwlock {rwlock : Nat} {change : Rwlock → Rwlock}
    (kept : ∀ object, (change object).readers = object.readers ∧
      (change object).writerActive = object.writerActive ∧
      (change object).writerWaiting = object.writerWaiting) :
    Quiet system (system.modifyRwlock rwlock change) := by
  refine ⟨rfl, fun _ => rfl, fun other => ?_⟩
  unfold SyncSystem.rwState SyncSystem.modifyRwlock
  by_cases same : other = rwlock
  · subst other
    simp [kept]
  · simp [Function.update_of_ne same]

theorem setHead (list : WaitList) (head : Option TaskId) :
    Quiet system (system.setHead list head) := by
  cases list <;> simp only [SyncSystem.setHead]
  case semaphore => exact .modifySemaphore _ _ _
  case senders => exact .modifyQueue _ _ _
  case receivers => exact .modifyQueue _ _ _
  case mutex => exact .modifyMutex _ (by simp)
  case readers => exact .modifyRwlock _ (by simp)
  case writers => exact .modifyRwlock _ (by simp)

theorem blockTask (list : WaitList) (task : TaskId) :
    Quiet system (blockTask system list task) :=
  (Quiet.modifyTask _ _ _).trans (.setHead _ _ _)

theorem unblockTask (list : WaitList) : Quiet system (unblockTask system list) := by
  unfold Rtos.unblockTask
  split
  · exact .refl system
  · exact (Quiet.setHead _ _ _).trans (.modifyTask _ _ _)

theorem mutexPriorityInherit (mutex : Nat) (blocker : TaskId) :
    Quiet system (mutexPriorityInherit system mutex blocker) := by
  unfold Rtos.mutexPriorityInherit
  split
  · exact .refl system
  · dsimp only
    split
    · exact (Quiet.modifyMutex _ (by simp)).trans (.modifyTask _ _ _)
    · exact .refl system

theorem mutexPriorityRestore (mutex : Nat) :
    Quiet system (mutexPriorityRestore system mutex) := by
  unfold Rtos.mutexPriorityRestore
  split
  · exact .refl system
  · dsimp only
    split
    · exact (Quiet.modifyTask _ _ _).trans (.modifyMutex _ (by simp))
    · exact .refl system

theorem semaphoreGive (sem : Nat) : Quiet system (semaphoreGive system sem) :=
  (Quiet.modifySemaphore _ _ _).trans (.unblockTask _ _)

theorem bypassTask (list : WaitList) (task : TaskId) (previous : Option TaskId) :
    Quiet system (bypassTask system list task previous) := by
  cases previous with
  | none => exact .setHead _ _ _
  | some previous => exact .modifyTask _ _ _

theorem removeFromList {fuel : Nat} {system after : SyncSystem} {list : WaitList}
    {task : TaskId} {clearsTask : Bool}
    (removed : removeFromList fuel system list task clearsTask = some after) :
    Quiet system after := by
  apply removeFromList_keeps _ _ (Quiet.refl system) removed
  · exact Quiet.bypassTask system list task
  · intro current kept
    exact kept.trans (.modifyTask _ _ _)

theorem readyAll {fuel : Nat} {system after : SyncSystem} {cursor : Option TaskId}
    (woken : readyAll fuel system cursor = some after) : Quiet system after := by
  apply readyAll_keeps _ (Quiet.refl system) woken
  intro current task kept
  exact kept.trans (.modifyTask _ _ _)

theorem queueFlush {fuel : Nat} {system after : SyncSystem} {queue flushed : Nat}
    (done : queueFlush fuel system queue = some (flushed, after)) :
    Quiet system after := by
  unfold Rtos.queueFlush at done
  dsimp only at done
  split at done
  · simp at done
  · rename_i woken
    obtain ⟨rfl, rfl⟩ : _ = flushed ∧ _ = after := by simpa using done
    exact ((Quiet.modifyQueue _ _ _).trans (.readyAll woken)).trans (.setHead _ _ _)

theorem runIsr (call : IsrCall) : Quiet system (runIsr system call).1 := by
  cases call with
  | semaphoreGiveFromIsr sem => exact .semaphoreGive _ _
  | queueSendFromIsr queue data =>
      unfold Rtos.runIsr
      dsimp only
      split
      · exact .refl system
      · exact (Quiet.modifyQueue _ _ _).trans (.unblockTask _ _)
  | queueReceiveFromIsr queue =>
      unfold Rtos.runIsr
      dsimp only
      split
      · exact .refl system
      · exact (Quiet.modifyQueue _ _ _).trans (.unblockTask _ _)

end Quiet

/-- A change that leaves program counters and mutexes alone, such as all the
work on reader-writer locks. -/
structure LocksKept (before after : SyncSystem) : Prop where
  pc : after.pc = before.pc
  lock : ∀ mutex, after.lockState mutex = before.lockState mutex

namespace LocksKept

variable {first second third : SyncSystem}

theorem of_quiet (quiet : Quiet first second) : LocksKept first second :=
  ⟨quiet.pc, quiet.lock⟩

theorem trans (left : LocksKept first second) (right : LocksKept second third) :
    LocksKept first third :=
  ⟨right.pc.trans left.pc, fun mutex => (right.lock mutex).trans (left.lock mutex)⟩

theorem lockState (kept : LocksKept first second) {mutex : Nat} :
    second.lockState mutex = first.lockState mutex := kept.lock mutex

theorem modifyRwlock (system : SyncSystem) (rwlock : Nat) (change : Rwlock → Rwlock) :
    LocksKept system (system.modifyRwlock rwlock change) :=
  ⟨rfl, fun _ => rfl⟩

theorem rwlockUnblockOneWriter (system : SyncSystem) (rwlock : Nat) :
    LocksKept system (rwlockUnblockOneWriter system rwlock) := by
  unfold Rtos.rwlockUnblockOneWriter
  split
  · exact .of_quiet (.refl system)
  · exact (LocksKept.of_quiet (.unblockTask _ _)).trans (.modifyRwlock _ _ _)

theorem rwlockUnblockAllReaders {fuel rwlock : Nat} {system after : SyncSystem}
    (woken : rwlockUnblockAllReaders fuel system rwlock = some after) :
    LocksKept system after := by
  apply rwlockUnblockAllReaders_keeps _ (LocksKept.of_quiet (.refl system)) woken
  intro current kept
  exact kept.trans ((LocksKept.of_quiet (.unblockTask _ _)).trans (.modifyRwlock _ _ _))

theorem rwlockReadUnlock (system : SyncSystem) (rwlock : Nat) :
    LocksKept system (rwlockReadUnlock system rwlock) := by
  unfold Rtos.rwlockReadUnlock
  dsimp only
  split
  · exact (LocksKept.modifyRwlock _ _ _).trans (.rwlockUnblockOneWriter _ _)
  · exact .modifyRwlock _ _ _

theorem rwlockWriteUnlock {fuel rwlock : Nat} {system after : SyncSystem}
    (unlocked : rwlockWriteUnlock fuel system rwlock = some after) :
    LocksKept system after := by
  unfold Rtos.rwlockWriteUnlock at unlocked
  dsimp only at unlocked
  split at unlocked
  · obtain rfl := Option.some.inj unlocked
    exact (LocksKept.modifyRwlock _ _ _).trans (.rwlockUnblockOneWriter _ _)
  · exact (LocksKept.modifyRwlock _ _ _).trans (.rwlockUnblockAllReaders unlocked)

end LocksKept

@[simp] theorem SyncSystem.mutexes_setPc (system : SyncSystem) (task : TaskId)
    (pc : Pc) : (system.setPc task pc).mutexes = system.mutexes := rfl

@[simp] theorem SyncSystem.rwlocks_setPc (system : SyncSystem) (task : TaskId)
    (pc : Pc) : (system.setPc task pc).rwlocks = system.rwlocks := rfl

@[simp] theorem SyncSystem.rwlocks_modifyRwlock_self (system : SyncSystem) (rwlock : Nat)
    (change : Rwlock → Rwlock) :
    (system.modifyRwlock rwlock change).rwlocks rwlock = change (system.rwlocks rwlock) := by
  simp [modifyRwlock]

@[simp] theorem SyncSystem.lockState_setPc (system : SyncSystem) (task : TaskId)
    (pc : Pc) (mutex : Nat) :
    (system.setPc task pc).lockState mutex = system.lockState mutex := rfl

theorem SyncSystem.pc_setPc (system : SyncSystem) (task : TaskId) (pc : Pc)
    (other : TaskId) : (system.setPc task pc).pc other =
      if other = task then pc else system.pc other := by
  simp [SyncSystem.setPc, Function.update_apply]

@[simp] theorem pc_dispatch (system : SyncSystem) (task : TaskId) :
    (dispatch system task).pc = system.pc := rfl

/-- A task that has not yet entered its call runs the first section of it. -/
theorem exec_entering {system : SyncSystem} {task : TaskId} {call : Call} {start : Nat}
    (inside : system.pc task = .entering call start) (fuel : Nat) :
    exec fuel system (.run task) =
      enterCall fuel (dispatch system task) task call start := by
  rw [exec, runTask, pc_dispatch, inside]

/-- An interrupt delivers at most one item and returns to no task. -/
theorem runIsr_events (system : SyncSystem) (call : IsrCall) :
    (runIsr system call).2 = [] ∨
      ∃ data, (runIsr system call).2 = [.copiedOut none data] := by
  cases call with
  | semaphoreGiveFromIsr sem => exact .inl rfl
  | queueSendFromIsr queue data =>
      unfold runIsr
      dsimp only
      split <;> exact .inl rfl
  | queueReceiveFromIsr queue =>
      unfold runIsr
      dsimp only
      split
      · exact .inl rfl
      · exact .inr ⟨_, rfl⟩

/-- What the loop head of a blocking call can do. -/
theorem testLoop_cases {system after : SyncSystem} {task : TaskId} {call : Call}
    {start : Nat} {loop : WaitLoop} {events : List Event}
    (tested : testLoop system task call start loop = (after, events)) :
    (loop.busy system = true ∧ loop.timeout = 0 ∧
      after = (loop.giveUp system).setPc task .idle ∧
      events = [.returned task call 0]) ∨
    (loop.busy system = true ∧ loop.timeout ≠ 0 ∧
      after = (blockTask (loop.beforeBlock system) loop.list task).setPc task
        (.delaying call start) ∧ events = []) ∨
    (loop.busy system = false ∧
      after = (loop.acquire system).1.setPc task .idle ∧
      events = .returned task call 1 :: (loop.acquire system).2) := by
  unfold testLoop at tested
  split at tested
  case isTrue busy =>
    split at tested
    case isTrue zero =>
      obtain ⟨rfl, rfl⟩ := Prod.mk.inj tested
      exact .inl ⟨busy, zero, rfl, rfl⟩
    case isFalse positive =>
      obtain ⟨rfl, rfl⟩ := Prod.mk.inj tested
      exact .inr (.inl ⟨busy, positive, rfl, rfl⟩)
  case isFalse free =>
    obtain ⟨rfl, rfl⟩ := Prod.mk.inj tested
    exact .inr (.inr ⟨by simpa using free, rfl, rfl⟩)

/-- The blocking call in whose wait loop a task is. -/
def Pc.waiting : Pc → Option Call
  | .idle | .entering _ _ => none
  | .delaying call _ | .sleeping call _ | .retrying call _ | .expiring call _ =>
      some call

/-- The call that a task is inside. -/
def Pc.pending : Pc → Option Call
  | .idle => none
  | .entering call _ | .delaying call _ | .sleeping call _ | .retrying call _
  | .expiring call _ => some call

theorem waitLoop_pc {task : TaskId} {call : Call} {loop : WaitLoop}
    (found : waitLoop task call = some loop) (system : SyncSystem) :
    (loop.giveUp system).pc = system.pc ∧ (loop.beforeBlock system).pc = system.pc ∧
      (loop.acquire system).1.pc = system.pc := by
  cases call <;> simp only [waitLoop, Option.some.injEq, reduceCtorEq] at found
    <;> subst found
  case queueSend | queueReceive =>
    exact ⟨rfl, rfl, ((Quiet.modifyQueue _ _ _).trans (.unblockTask _ _)).pc⟩
  case mutexLock => exact ⟨rfl, (Quiet.mutexPriorityInherit _ _ _).pc, rfl⟩
  all_goals exact ⟨rfl, rfl, rfl⟩

/-- A task leaves its call, or stays in the wait loop of the same call. -/
def PcStep (before after : Pc) : Prop :=
  after = .idle ∨ ∃ call, after.waiting = some call ∧ before.pending = some call

theorem testLoop_pc {system after : SyncSystem} {task : TaskId} {call : Call}
    {start : Nat} {loop : WaitLoop} {events : List Event}
    (found : waitLoop task call = some loop)
    (tested : testLoop system task call start loop = (after, events)) :
    ∃ pc, after.pc = Function.update system.pc task pc ∧
      (pc = .idle ∨ pc = .delaying call start) := by
  obtain ⟨giveUp, beforeBlock, acquire⟩ := waitLoop_pc found system
  rcases testLoop_cases tested with
    ⟨_, _, rfl, rfl⟩ | ⟨_, _, rfl, rfl⟩ | ⟨_, rfl, rfl⟩
  · exact ⟨.idle, by simp [SyncSystem.setPc, giveUp], .inl rfl⟩
  · refine ⟨.delaying call start, ?_, .inr rfl⟩
    simp [SyncSystem.setPc, (Quiet.blockTask _ _ _).pc, beforeBlock]
  · exact ⟨.idle, by simp [SyncSystem.setPc, acquire], .inl rfl⟩

theorem mutexUnlock_pc (system : SyncSystem) (mutex : Nat) (task : TaskId) :
    (mutexUnlock system mutex task).1.pc = system.pc := by
  have released : ∀ system : SyncSystem,
      (mutexRelease (mutexDecrement system mutex) mutex).pc = system.pc :=
    fun system => (Quiet.mutexPriorityRestore _ _).pc
  unfold mutexUnlock
  split
  · rfl
  · dsimp only
    split
    · rfl
    · split
      · exact released system
      · exact released system

theorem enterCall_pc {fuel : Nat} {system after : SyncSystem} {task : TaskId}
    {call : Call} {start : Nat} {events : List Event}
    (entered : enterCall fuel system task call start = some (after, events)) :
    ∃ pc, after.pc = Function.update system.pc task pc ∧
      (pc = .idle ∨ pc = .delaying call start) := by
  have left : ∀ {changed : SyncSystem} {result : Int} {others : List Event},
      finish changed task call result others = (after, events) →
      changed.pc = system.pc →
      ∃ pc, after.pc = Function.update system.pc task pc ∧
        (pc = .idle ∨ pc = .delaying call start) := by
    intro changed result others finished same
    obtain ⟨rfl, rfl⟩ := Prod.mk.inj finished
    exact ⟨.idle, by simp [SyncSystem.setPc, same], .inl rfl⟩
  cases call with
  | semaphoreTake | queueSend | queueReceive | rwlockReadLock =>
      exact testLoop_pc rfl (Option.some.inj entered)
  | rwlockWriteLock rwlock timeout =>
      have moved := testLoop_pc rfl (Option.some.inj entered)
      exact moved
  | semaphoreGive => exact left (Option.some.inj entered) (Quiet.semaphoreGive _ _).pc
  | queueReset => exact left (Option.some.inj entered) rfl
  | queueFlush =>
      obtain ⟨⟨flushed, changed⟩, flush, finished⟩ := Option.map_eq_some_iff.mp entered
      exact left finished (Quiet.queueFlush flush).pc
  | rwlockReadUnlock =>
      exact left (Option.some.inj entered) (LocksKept.rwlockReadUnlock _ _).pc
  | rwlockWriteUnlock =>
      obtain ⟨changed, unlocked, finished⟩ := Option.map_eq_some_iff.mp entered
      exact left finished (LocksKept.rwlockWriteUnlock unlocked).pc
  | mutexUnlock => exact left (Option.some.inj entered) (mutexUnlock_pc _ _ _)
  | mutexLock mutex timeout =>
      rw [enterCall] at entered
      split at entered
      · exact left (Option.some.inj entered) rfl
      · split at entered
        · exact left (Option.some.inj entered) rfl
        · exact testLoop_pc rfl (Option.some.inj entered)

/-- A section of a task moves only its own program counter. -/
theorem runTask_pc {fuel : Nat} {system after : SyncSystem} {task : TaskId}
    {events : List Event}
    (ran : runTask fuel system task = some (after, events)) :
    ∃ pc, after.pc = Function.update system.pc task pc ∧
      PcStep (system.pc task) pc := by
  have looped : ∀ {call start}, (system.pc task).pending = some call →
      (∃ pc, after.pc = Function.update system.pc task pc ∧
        (pc = .idle ∨ pc = .delaying call start)) →
      ∃ pc, after.pc = Function.update system.pc task pc ∧
        PcStep (system.pc task) pc := by
    rintro call start inside ⟨pc, moved, rfl | rfl⟩
    · exact ⟨_, moved, .inl rfl⟩
    · exact ⟨_, moved, .inr ⟨call, rfl, inside⟩⟩
  cases runTask_cases ran with
  | entering call start inside entered =>
    exact looped (by rw [inside, Pc.pending]) (enterCall_pc entered)
  | delaying call start inside _ =>
    exact ⟨_, rfl, .inr ⟨call, rfl, by rw [inside, Pc.pending]⟩⟩
  | sleeping call start inside _ =>
    refine ⟨_, rfl, .inr ⟨call, ?_, by rw [inside, Pc.pending]⟩⟩
    split <;> rfl
  | retrying call start inside found tested =>
    exact looped (by rw [inside, Pc.pending]) (testLoop_pc found tested)
  | @expiring removed _ call start _ found removal =>
    refine ⟨.idle, ?_, .inl rfl⟩
    simp [SyncSystem.setPc, (waitLoop_pc found removed).1,
      (Quiet.removeFromList removal).pc]

/-- A task is in a wait loop after a step only if it was in it before or just
entered the call. -/
theorem exec_waiting {fuel : Nat} {before after : SyncSystem} {action : Action}
    {events : List Event} {task : TaskId} {call : Call}
    (stepped : exec fuel before action = some (after, events))
    (waits : (after.pc task).waiting = some call) :
    (before.pc task).waiting = some call ∨
      ∃ start, action = .run task ∧ before.pc task = .entering call start := by
  cases exec_cases stepped with
  | refused caller invoked _ _ => exact .inl waits
  | invoke caller invoked _ _ =>
      rw [SyncSystem.pc_setPc] at waits
      split at waits
      · simp [Pc.waiting] at waits
      · exact .inl waits
  | interrupt isrCall =>
      rw [(Quiet.runIsr before isrCall).pc] at waits
      exact .inl waits
  | tick _ => exact .inl waits
  | run caller ran =>
      obtain ⟨pc, moved, step⟩ := runTask_pc ran
      by_cases same : task = caller
      · subst same
        rw [moved, Function.update_self] at waits
        rcases step with rfl | ⟨pending, waiting, inside⟩
        · simp [Pc.waiting] at waits
        · obtain rfl : pending = call := by simpa [waiting] using waits
          change (before.pc task).pending = some pending at inside
          cases current : before.pc task with
          | idle => simp [current, Pc.pending] at inside
          | entering entered start =>
              obtain rfl : entered = pending := by
                simpa [current, Pc.pending] using inside
              exact .inr ⟨start, rfl, rfl⟩
          | _ =>
              rw [current] at inside
              exact .inl inside
      · rw [moved, Function.update_of_ne same] at waits
        exact .inl waits

/-- A task that is about to enter a call has just made it or did not run. -/
theorem exec_entering_pc {fuel : Nat} {before after : SyncSystem} {action : Action}
    {events : List Event} {task : TaskId} {call : Call} {start : Nat}
    (stepped : exec fuel before action = some (after, events))
    (inside : after.pc task = .entering call start) :
    action = .invoke task call ∨
      (before.pc task = .entering call start ∧ action ≠ .run task) := by
  cases exec_cases stepped with
  | refused caller invoked _ _ => exact .inr ⟨inside, by simp⟩
  | invoke caller invoked _ _ =>
      rw [SyncSystem.pc_setPc] at inside
      split at inside
      case isTrue same =>
        obtain ⟨rfl, _⟩ := Pc.entering.inj inside
        exact .inl (by rw [same])
      case isFalse => exact .inr ⟨inside, by simp⟩
  | interrupt isrCall =>
      rw [(Quiet.runIsr before isrCall).pc] at inside
      exact .inr ⟨inside, by simp⟩
  | tick _ => exact .inr ⟨inside, by simp⟩
  | run caller ran =>
      obtain ⟨pc, moved, step⟩ := runTask_pc ran
      by_cases same : task = caller
      · subst same
        rw [moved, Function.update_self] at inside
        subst inside
        rcases step with ended | ⟨pending, waiting, _⟩
        · simp at ended
        · simp [Pc.waiting] at waiting
      · rw [moved, Function.update_of_ne same] at inside
        exact .inr ⟨inside, by simpa using Ne.symm same⟩

/-- A task outside of every call stays there until it makes one. -/
theorem exec_idle {fuel : Nat} {before after : SyncSystem} {action : Action}
    {events : List Event} {task : TaskId}
    (stepped : exec fuel before action = some (after, events))
    (idle : before.pc task = .idle) (silent : ∀ call, action ≠ .invoke task call) :
    after.pc task = .idle := by
  cases exec_cases stepped with
  | refused caller invoked _ _ => exact idle
  | invoke caller invoked _ _ =>
      have callerNe : task ≠ caller := fun same => silent invoked (by rw [same])
      rw [SyncSystem.pc_setPc, if_neg callerNe]
      exact idle
  | interrupt isrCall => rw [(Quiet.runIsr before isrCall).pc, idle]
  | tick _ => exact idle
  | run caller ran =>
      have callerNe : task ≠ caller := by
        rintro rfl
        rw [runTask, pc_dispatch, idle] at ran
        simp at ran
      obtain ⟨pc, moved, _⟩ := runTask_pc ran
      rw [moved, Function.update_of_ne callerNe]
      exact idle

theorem Traced.execAll_idle {guard : Traced → Action → Bool} {fuel : Nat}
    {actions : List Action} {first last : Traced} {task : TaskId}
    (executed : Traced.execAll guard fuel actions first = some last)
    (idle : first.system.pc task = .idle)
    (silent : ∀ action ∈ actions, ∀ call, action ≠ .invoke task call) :
    last.system.pc task = .idle := by
  induction actions generalizing first with
  | nil =>
      obtain rfl : first = last := by simpa [execAll] using executed
      exact idle
  | cons action rest ih =>
      rw [execAll] at executed
      split at executed
      case isFalse => simp at executed
      case isTrue =>
        obtain ⟨⟨system, events⟩, stepped, remaining⟩ :=
          Option.bind_eq_some_iff.mp executed
        refine ih remaining ?_ fun other isRest => silent other (by simp [isRest])
        exact exec_idle stepped idle (silent action (by simp))

section Returned

variable {fuel start : Nat} {system before after : SyncSystem} {task other : TaskId}
  {call pending : Call} {result : Int} {events : List Event}

theorem waitLoop_returned {loop : WaitLoop}
    (found : waitLoop task pending = some loop) (system : SyncSystem) :
    Event.returned other call result ∉ (loop.acquire system).2 := by
  cases pending <;> simp only [waitLoop, Option.some.injEq, reduceCtorEq] at found
    <;> subst found <;> simp

theorem testLoop_returned {loop : WaitLoop}
    (found : waitLoop task pending = some loop)
    (tested : testLoop system task pending start loop = (after, events))
    (returned : Event.returned other call result ∈ events) :
    other = task ∧ call = pending ∧ after.pc task = .idle := by
  rcases testLoop_cases tested with
    ⟨_, _, rfl, rfl⟩ | ⟨_, _, rfl, rfl⟩ | ⟨_, rfl, rfl⟩
  · obtain ⟨rfl, rfl, _⟩ : other = task ∧ call = pending ∧ _ := by simpa using returned
    exact ⟨rfl, rfl, by simp [SyncSystem.pc_setPc]⟩
  · simp at returned
  · rcases List.mem_cons.mp returned with isFirst | isLater
    · obtain ⟨rfl, rfl, _⟩ : other = task ∧ call = pending ∧ _ := by
        simpa using isFirst
      exact ⟨rfl, rfl, by simp [SyncSystem.pc_setPc]⟩
    · exact absurd isLater (waitLoop_returned found system)

theorem mutexUnlock_returned (mutex : Nat) :
    Event.returned other call result ∉ (mutexUnlock system mutex task).2.2 := by
  unfold mutexUnlock
  split
  · simp
  · dsimp only
    split
    · simp
    · split <;> simp

theorem enterCall_returned
    (entered : enterCall fuel system task pending start = some (after, events))
    (returned : Event.returned other call result ∈ events) :
    other = task ∧ call = pending ∧ after.pc task = .idle := by
  have left : ∀ {changed : SyncSystem} {outcome : Int} {others : List Event},
      finish changed task pending outcome others = (after, events) →
      Event.returned other call result ∉ others →
      other = task ∧ call = pending ∧ after.pc task = .idle := by
    intro changed outcome others finished fresh
    obtain ⟨rfl, rfl⟩ := Prod.mk.inj finished
    rcases List.mem_cons.mp returned with isFirst | isLater
    · obtain ⟨rfl, rfl, _⟩ : other = task ∧ call = pending ∧ _ := by
        simpa using isFirst
      exact ⟨rfl, rfl, by simp [SyncSystem.pc_setPc]⟩
    · exact absurd isLater fresh
  cases pending with
  | semaphoreTake | queueSend | queueReceive | rwlockReadLock | rwlockWriteLock =>
      exact testLoop_returned rfl (Option.some.inj entered) returned
  | semaphoreGive | queueReset | rwlockReadUnlock =>
      exact left (Option.some.inj entered) (by simp)
  | queueFlush | rwlockWriteUnlock =>
      obtain ⟨_, _, finished⟩ := Option.map_eq_some_iff.mp entered
      exact left finished (by simp)
  | mutexUnlock =>
      exact left (Option.some.inj entered) (mutexUnlock_returned _)
  | mutexLock mutex timeout =>
      rw [enterCall] at entered
      split at entered
      · exact left (Option.some.inj entered) (by simp)
      · split at entered
        · exact left (Option.some.inj entered) (by simp)
        · exact testLoop_returned rfl (Option.some.inj entered) returned

/-- A section only returns from the call of the task that runs. -/
theorem runTask_returned (ran : runTask fuel system task = some (after, events))
    (returned : Event.returned other call result ∈ events) :
    other = task ∧ (system.pc task).pending = some call ∧ after.pc task = .idle := by
  cases runTask_cases ran with
  | entering pending start inside entered =>
    obtain ⟨rfl, rfl, left⟩ := enterCall_returned entered returned
    exact ⟨rfl, by rw [inside, Pc.pending], left⟩
  | delaying => simp at returned
  | sleeping => simp at returned
  | retrying pending start inside found tested =>
    obtain ⟨rfl, rfl, left⟩ := testLoop_returned found tested returned
    exact ⟨rfl, by rw [inside, Pc.pending], left⟩
  | expiring pending start inside _ _ =>
    obtain ⟨rfl, rfl, _⟩ : other = task ∧ call = pending ∧ _ := by simpa using returned
    exact ⟨rfl, by rw [inside, Pc.pending], by simp [SyncSystem.pc_setPc]⟩

/-- A call returns from a section of its task, or it is refused at once. -/
theorem exec_returned {action : Action}
    (stepped : exec fuel before action = some (after, events))
    (returned : Event.returned task call result ∈ events) :
    (action = .run task ∧ (before.pc task).pending = some call) ∨
      (action = .invoke task call ∧ refused before call = true ∧ result = -1) := by
  cases exec_cases stepped with
  | refused caller invoked _ isRefused =>
      obtain ⟨rfl, rfl, rfl⟩ : task = caller ∧ call = invoked ∧ result = -1 := by
        simpa using returned
      exact .inr ⟨rfl, isRefused, rfl⟩
  | invoke => simp at returned
  | interrupt isrCall =>
      rcases runIsr_events before isrCall with none | ⟨data, delivered⟩
      · simp [none] at returned
      · simp [delivered] at returned
  | tick _ => simp at returned
  | run caller ran =>
      obtain ⟨rfl, inside, _⟩ := runTask_returned ran returned
      exact .inl ⟨rfl, inside⟩

end Returned

end Rtos

end MiniIotRobotEdge

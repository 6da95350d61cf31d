import MiniIotRobotEdge.RtosSyncRuns
import MiniIotRobotEdge.RtosTickHandler

/-!
# The wait lists stay finite

All wait lists share the link `block_next`.  Waking, flushing, giving up and
handing off only cut the lists or take nodes out, which keeps every list
finite.  The one dangerous operation is blocking: every wait loop puts its
task at the front of the list again after each tick, and if nobody took the
task off meanwhile, its link is made to point into the list it is on.
-/

namespace MiniIotRobotEdge

namespace Rtos

open Relation PointerChain

/-- Every wait list runs into the null pointer. -/
def FiniteLists (system : SyncSystem) : Prop :=
  ∀ list, Terminates system.link (system.head list)

section Accessors

variable (system : SyncSystem) (task : TaskId)

theorem SyncSystem.link_modifyTask (change : Tcb → Tcb) :
    (system.modifyTask task change).link =
      Function.update system.link task (change (system.kernel.tcb task)).blockNext := by
  ext other
  by_cases same : other = task
  · simp [link, modifyTask, same]
  · simp [link, modifyTask, Kernel.tcb_modify, same]

@[simp] theorem SyncSystem.head_modifyTask (change : Tcb → Tcb) :
    (system.modifyTask task change).head = system.head := by
  ext list
  cases list <;> rfl

@[simp] theorem SyncSystem.link_setHead (list : WaitList) (head : Option TaskId) :
    (system.setHead list head).link = system.link := by
  cases list <;> rfl

theorem SyncSystem.head_setHead (list : WaitList) (head : Option TaskId) :
    (system.setHead list head).head = Function.update system.head list head := by
  ext other
  by_cases same : other = list
  · subst same
    cases other <;>
      simp [SyncSystem.head, setHead, modifySemaphore, modifyQueue, modifyMutex, modifyRwlock]
  · rw [Function.update_of_ne same]
    cases other <;> cases list <;>
      simp only [SyncSystem.head, setHead, modifySemaphore, modifyQueue, modifyMutex,
        modifyRwlock, Function.update_apply] <;> split <;> simp_all

@[simp] theorem SyncSystem.head_setPc (pc : Pc) : (system.setPc task pc).head = system.head := by
  ext list
  cases list <;> rfl

end Accessors

/-- A change that leaves the links and the heads of all lists alone. -/
structure SameLists (before after : SyncSystem) : Prop where
  link : after.link = before.link
  head : after.head = before.head

namespace SameLists

variable {first second third : SyncSystem}

theorem refl (system : SyncSystem) : SameLists system system := ⟨rfl, rfl⟩

theorem trans (left : SameLists first second) (right : SameLists second third) :
    SameLists first third :=
  ⟨right.link.trans left.link, right.head.trans left.head⟩

variable (system : SyncSystem)

theorem setPc (task : TaskId) (pc : Pc) : SameLists system (system.setPc task pc) :=
  ⟨rfl, system.head_setPc task pc⟩

theorem modifyTask {task : TaskId} {change : Tcb → Tcb}
    (kept : ∀ tcb, (change tcb).blockNext = tcb.blockNext) :
    SameLists system (system.modifyTask task change) := by
  refine ⟨?_, system.head_modifyTask task change⟩
  rw [SyncSystem.link_modifyTask, kept]
  exact Function.update_eq_self task system.link

theorem kernel {kernel : Kernel}
    (kept : ∀ task, (kernel.tcb task).blockNext = (system.kernel.tcb task).blockNext) :
    SameLists system { system with kernel := kernel } := by
  refine ⟨funext kept, funext fun list => ?_⟩
  cases list <;> rfl

theorem dispatch (task : TaskId) : SameLists system (dispatch system task) :=
  .kernel _ fun _ => rfl

theorem modifySemaphore {sem : Nat} {change : Semaphore → Semaphore}
    (kept : ∀ object, (change object).blockedTasks = object.blockedTasks) :
    SameLists system (system.modifySemaphore sem change) := by
  refine ⟨rfl, funext fun list => ?_⟩
  cases list <;> simp only [SyncSystem.head, SyncSystem.modifySemaphore, Function.update_apply]
  split
  case isTrue same => rw [same, kept]
  case isFalse => rfl

theorem modifyQueue {queue : Nat} {change : Queue → Queue}
    (kept : ∀ object, (change object).blockedSenders = object.blockedSenders ∧
      (change object).blockedReceivers = object.blockedReceivers) :
    SameLists system (system.modifyQueue queue change) := by
  refine ⟨rfl, funext fun list => ?_⟩
  cases list <;> simp only [SyncSystem.head, SyncSystem.modifyQueue, Function.update_apply] <;>
    split <;> simp_all

theorem modifyMutex {mutex : Nat} {change : Mutex → Mutex}
    (kept : ∀ object, (change object).blockedTasks = object.blockedTasks) :
    SameLists system (system.modifyMutex mutex change) := by
  refine ⟨rfl, funext fun list => ?_⟩
  cases list <;> simp only [SyncSystem.head, SyncSystem.modifyMutex, Function.update_apply]
  split
  case isTrue same => rw [same, kept]
  case isFalse => rfl

theorem modifyRwlock {rwlock : Nat} {change : Rwlock → Rwlock}
    (kept : ∀ object, (change object).blockedReaders = object.blockedReaders ∧
      (change object).blockedWriters = object.blockedWriters) :
    SameLists system (system.modifyRwlock rwlock change) := by
  refine ⟨rfl, funext fun list => ?_⟩
  cases list <;> simp only [SyncSystem.head, SyncSystem.modifyRwlock, Function.update_apply] <;>
    split <;> simp_all

theorem mutexAcquire (mutex : Nat) (task : TaskId) :
    SameLists system (mutexAcquire system mutex task) :=
  .modifyMutex _ fun _ => rfl

theorem mutexDecrement (mutex : Nat) : SameLists system (mutexDecrement system mutex) :=
  .modifyMutex _ fun _ => rfl

theorem mutexPriorityInherit (mutex : Nat) (blocker : TaskId) :
    SameLists system (mutexPriorityInherit system mutex blocker) := by
  unfold Rtos.mutexPriorityInherit
  split
  · exact .refl system
  · dsimp only
    split
    · exact (SameLists.modifyMutex _ (by simp)).trans (.modifyTask _ (by simp))
    · exact .refl system

theorem mutexRelease (mutex : Nat) :
    SameLists system (mutexRelease (Rtos.mutexDecrement system mutex) mutex) := by
  have restored : ∀ system, SameLists system (mutexPriorityRestore system mutex) := by
    intro system
    unfold mutexPriorityRestore
    split
    · exact .refl system
    · dsimp only
      split
      · exact (SameLists.modifyTask _ (by simp)).trans (.modifyMutex _ (by simp))
      · exact .refl system
  exact ((SameLists.modifyMutex _ (by simp)).trans (restored _)).trans
    (.modifyMutex _ (by simp))

theorem readyAll {fuel : Nat} {system after : SyncSystem} {cursor : Option TaskId}
    (woken : readyAll fuel system cursor = some after) : SameLists system after := by
  apply readyAll_keeps _ (SameLists.refl system) woken
  intro current task kept
  exact kept.trans (.modifyTask _ (by simp))

end SameLists

namespace FiniteLists

variable {system after : SyncSystem}

theorem of_same (finite : FiniteLists system) (same : SameLists system after) :
    FiniteLists after := by
  intro list
  rw [same.link, same.head]
  exact finite list

theorem setHead (finite : FiniteLists system) (list : WaitList) {head : Option TaskId}
    (ends : Terminates system.link head) : FiniteLists (system.setHead list head) := by
  intro other
  rw [SyncSystem.link_setHead, SyncSystem.head_setHead]
  by_cases same : other = list
  · rw [same, Function.update_self]
    exact ends
  · rw [Function.update_of_ne same]
    exact finite other

/-- Cutting the list behind a task. -/
theorem clearTask (finite : FiniteLists system) (task : TaskId) {change : Tcb → Tcb}
    (cleared : ∀ tcb, (change tcb).blockNext = none) :
    FiniteLists (system.modifyTask task change) := by
  intro list
  rw [SyncSystem.link_modifyTask, SyncSystem.head_modifyTask, cleared]
  exact (finite list).update_none task

/-- The rest of a list behind its first task is finite. -/
theorem behind_head (finite : FiniteLists system) {list : WaitList} {task : TaskId}
    (first : system.head list = some task) :
    Terminates system.link (system.link task) := by
  obtain ⟨nodes, path⟩ := finite list
  rw [first] at path
  cases path with
  | node rest => exact ⟨_, rest⟩

theorem unblockTask (finite : FiniteLists system) (list : WaitList) :
    FiniteLists (unblockTask system list) := by
  unfold Rtos.unblockTask
  split
  · exact finite
  · rename_i task first
    exact (finite.setHead list (finite.behind_head first)).clearTask task (by simp)

theorem semaphoreGive (finite : FiniteLists system) (sem : Nat) :
    FiniteLists (semaphoreGive system sem) :=
  FiniteLists.unblockTask (finite.of_same (.modifySemaphore _ (by simp))) _

theorem rwlockUnblockOneWriter (finite : FiniteLists system) (rwlock : Nat) :
    FiniteLists (rwlockUnblockOneWriter system rwlock) := by
  unfold Rtos.rwlockUnblockOneWriter
  split
  · exact finite
  · exact (finite.unblockTask _).of_same (.modifyRwlock _ (by simp))

theorem rwlockUnblockAllReaders {fuel rwlock : Nat} (finite : FiniteLists system)
    (woken : rwlockUnblockAllReaders fuel system rwlock = some after) :
    FiniteLists after := by
  apply rwlockUnblockAllReaders_keeps _ finite woken
  intro current kept
  exact (kept.unblockTask _).of_same (.modifyRwlock _ (by simp))

theorem rwlockReadUnlock (finite : FiniteLists system) (rwlock : Nat) :
    FiniteLists (rwlockReadUnlock system rwlock) := by
  unfold Rtos.rwlockReadUnlock
  dsimp only
  split
  · exact (finite.of_same (.modifyRwlock _ (by simp))).rwlockUnblockOneWriter rwlock
  · exact finite.of_same (.modifyRwlock _ (by simp))

theorem rwlockWriteUnlock {fuel rwlock : Nat} (finite : FiniteLists system)
    (unlocked : rwlockWriteUnlock fuel system rwlock = some after) :
    FiniteLists after := by
  unfold Rtos.rwlockWriteUnlock at unlocked
  dsimp only at unlocked
  split at unlocked
  · obtain rfl := Option.some.inj unlocked
    exact (finite.of_same (.modifyRwlock _ (by simp))).rwlockUnblockOneWriter rwlock
  · exact (finite.of_same (.modifyRwlock _ (by simp))).rwlockUnblockAllReaders unlocked

theorem mutexUnlock (finite : FiniteLists system) (mutex : Nat) (task : TaskId) :
    FiniteLists (mutexUnlock system mutex task).1 := by
  have released := finite.of_same (.mutexRelease system mutex)
  unfold Rtos.mutexUnlock
  split
  · exact finite
  · dsimp only
    split
    · exact finite.of_same (.mutexDecrement _ _)
    · split
      · exact released
      · rename_i waiter first
        replace first : (mutexRelease (mutexDecrement system mutex) mutex).head
            (.mutex mutex) = some waiter := first
        have passed := released.setHead (.mutex mutex) (released.behind_head first)
        exact (passed.of_same (.modifyTask _ (by simp))).of_same (.mutexAcquire _ _ _)

theorem queueFlush {fuel queue flushed : Nat} (finite : FiniteLists system)
    (done : queueFlush fuel system queue = some (flushed, after)) : FiniteLists after := by
  unfold Rtos.queueFlush at done
  dsimp only at done
  split at done
  · simp at done
  · rename_i woken
    obtain ⟨rfl, rfl⟩ : _ = flushed ∧ _ = after := by simpa using done
    have emptied : FiniteLists (system.modifyQueue queue Queue.reset) :=
      finite.of_same (.modifyQueue _ fun _ => ⟨rfl, rfl⟩)
    exact (emptied.of_same (.readyAll woken)).setHead _ (terminates_none _)

/-- Taking a task out of the list it is on. -/
theorem removeFromList {fuel : Nat} {list : WaitList} {task : TaskId} {clearsTask : Bool}
    (finite : FiniteLists system)
    (removed : removeFromList fuel system list task clearsTask = some after) :
    FiniteLists after := by
  obtain ⟨nodes, path⟩ := finite list
  unfold Rtos.removeFromList at removed
  split at removed
  · simp at removed
  · obtain rfl : system = after := by simpa using removed
    exact finite
  · rename_i previous found
    obtain ⟨isMember, predecessor⟩ := search_found path (by simp) found
    obtain ⟨before, rest, split, behind⟩ := path.exists_split isMember
    have bypassed : FiniteLists (bypassTask system list task previous) := by
      cases previous with
      | none => exact finite.setHead list ⟨rest, behind⟩
      | some node =>
          obtain ⟨linked, isNode | isNone⟩ := predecessor node rfl
          · have outside : node ∉ rest := by
              intro again
              obtain ⟨_, later, laterEq, laterPath⟩ := behind.exists_split again
              rw [linked] at laterPath
              cases laterPath with
              | node laterRest =>
                  have same := behind.unique laterRest
                  have lengths := congrArg List.length laterEq
                  rw [same] at lengths
                  simp at lengths
                  omega
            intro other
            rw [bypassTask, SyncSystem.link_modifyTask, SyncSystem.head_modifyTask]
            exact (finite other).update behind outside
          · simp at isNone
    obtain rfl := Option.some.inj removed
    cases clearsTask with
    | false => exact bypassed
    | true => exact bypassed.clearTask task (by simp)

theorem runIsr (finite : FiniteLists system) (call : IsrCall) :
    FiniteLists (runIsr system call).1 := by
  cases call with
  | semaphoreGiveFromIsr sem => exact finite.semaphoreGive sem
  | queueSendFromIsr queue data =>
      unfold Rtos.runIsr
      dsimp only
      split
      · exact finite
      · exact (finite.of_same (.modifyQueue _ (by simp [Queue.copyIn]))).unblockTask _
  | queueReceiveFromIsr queue =>
      unfold Rtos.runIsr
      dsimp only
      split
      · exact finite
      · exact (finite.of_same (.modifyQueue _ (by simp [Queue.copyOut]))).unblockTask _

/-- The work around a wait loop keeps the lists finite. -/
theorem waitLoop {task : TaskId} {call : Call} {loop : WaitLoop}
    (finite : FiniteLists system) (found : waitLoop task call = some loop) :
    FiniteLists (loop.giveUp system) ∧ SameLists system (loop.beforeBlock system) ∧
      FiniteLists (loop.acquire system).1 := by
  cases call <;> simp only [Rtos.waitLoop, Option.some.injEq, reduceCtorEq] at found
    <;> subst found
  case semaphoreTake =>
    refine ⟨finite, .refl _, ?_⟩
    dsimp only
    exact finite.of_same (.modifySemaphore _ (by simp))
  case queueSend =>
    exact ⟨finite, .refl _,
      (finite.of_same (.modifyQueue _ (by simp [Queue.copyIn]))).unblockTask _⟩
  case queueReceive =>
    exact ⟨finite, .refl _,
      (finite.of_same (.modifyQueue _ (by simp [Queue.copyOut]))).unblockTask _⟩
  case mutexLock =>
    exact ⟨finite, .mutexPriorityInherit _ _ _, finite.of_same (.mutexAcquire _ _ _)⟩
  case rwlockReadLock =>
    refine ⟨finite, .refl _, ?_⟩
    dsimp only
    exact finite.of_same (.modifyRwlock _ (by simp))
  case rwlockWriteLock =>
    refine ⟨?_, .refl _, ?_⟩
    · dsimp only [rwlockStopWaiting]
      exact finite.of_same (.modifyRwlock _ (by simp))
    · dsimp only
      exact finite.of_same (.modifyRwlock _ (by simp))

end FiniteLists

/-- Blocking keeps all lists finite exactly when the task was not on the list
before. -/
theorem finiteLists_blockTask_iff {system : SyncSystem} (finite : FiniteLists system)
    {list : WaitList} {nodes : List TaskId}
    (path : Path system.link (system.head list) nodes) (task : TaskId) :
    FiniteLists (blockTask system list task) ↔ task ∉ nodes := by
  have link : (blockTask system list task).link =
      Function.update system.link task (system.head list) := by
    simp [blockTask, SyncSystem.link_modifyTask]
  have head : (blockTask system list task).head =
      Function.update system.head list (some task) := by
    simp [blockTask, SyncSystem.head_setHead]
  constructor
  · intro blocked
    have ends := blocked list
    rw [link, head, Function.update_self] at ends
    exact (terminates_push_iff path task).mp ends
  · intro outside other
    rw [link, head]
    by_cases same : other = list
    · rw [same, Function.update_self]
      exact (terminates_push_iff path task).mpr outside
    · rw [Function.update_of_ne same]
      exact (finite other).update path outside

/-- `task_delay` does not touch the wait lists. -/
theorem taskDelay_blockNext {kernel after : Kernel} {ticks : Nat}
    (delayed : taskDelay kernel ticks = some after) (task : TaskId) :
    (after.tcb task).blockNext = (kernel.tcb task).blockNext := by
  have joined : ∀ (kernel : Kernel) (current other : TaskId),
      ((joinNeighbours kernel current).tcb other).blockNext =
        (kernel.tcb other).blockNext :=
    joinNeighbours_field (fun _ _ => rfl) (fun _ _ => rfl)
  have blocked : ∀ current, ((kernel.modify current fun tcb =>
      { tcb with ticksRemaining := ticks, state := .blocked }).tcb task).blockNext =
        (kernel.tcb task).blockNext :=
    fun current => Kernel.field_modify Tcb.blockNext kernel current (by simp) task
  unfold taskDelay at delayed
  split at delayed
  · obtain rfl : kernel = after := by simpa using delayed
    rfl
  · split at delayed
    · simp at delayed
    · rename_i current _
      obtain rfl := Option.some.inj delayed
      dsimp only
      split
      · split
        · exact blocked current
        · rw [joined, Kernel.tcb_setList]
          exact blocked current
      · exact blocked current

/-- The list on which the loop head of a call would block its task. -/
def blockingList (system : SyncSystem) (task : TaskId) (call : Call) : Option WaitList :=
  (waitLoop task call).bind fun loop =>
    if loop.busy system ∧ loop.timeout ≠ 0 then some loop.list else none

/-- The list on which the next section of a task puts it. -/
def SyncSystem.blocksOn (system : SyncSystem) (task : TaskId) : Option WaitList :=
  match system.pc task with
  | .entering (.mutexLock mutex timeout) _ =>
      if (system.mutexes mutex).owner = some task then none
      else blockingList system task (.mutexLock mutex timeout)
  | .entering call _ | .retrying call _ => blockingList system task call
  | _ => none

/-- A task blocks only on a list that it is not already on. -/
def BlocksOffList (current : Traced) (action : Action) : Prop :=
  ∀ task list nodes, action = .run task →
    current.system.blocksOn task = some list →
    Path current.system.link (current.system.head list) nodes → task ∉ nodes

/-- What a section does to the lists: it blocks its task on one of them, or it
keeps all of them finite. -/
def ListsOutcome (before : SyncSystem) (task : TaskId) (blocking : Option WaitList)
    (after : SyncSystem) : Prop :=
  (∃ list, blocking = some list ∧ ∀ nodes, Path before.link (before.head list) nodes →
    (FiniteLists after ↔ task ∉ nodes)) ∨
  (blocking = none ∧ FiniteLists after)

/-- The loop head of a blocking call. -/
theorem testLoop_lists {before system after : SyncSystem} {task : TaskId} {call : Call}
    {start : Nat} {loop : WaitLoop} {events : List Event}
    (same : SameLists before system) (finite : FiniteLists before)
    (found : waitLoop task call = some loop)
    (tested : testLoop system task call start loop = (after, events)) :
    ListsOutcome before task (blockingList system task call) after := by
  obtain ⟨giveUp, beforeBlock, acquire⟩ := (finite.of_same same).waitLoop found
  rcases testLoop_cases tested with
    ⟨_, zero, rfl, rfl⟩ | ⟨busy, positive, rfl, rfl⟩ | ⟨free, rfl, rfl⟩
  · exact .inr ⟨by simp [blockingList, found, zero], giveUp.of_same (.setPc _ _ _)⟩
  · refine .inl ⟨loop.list, by simp [blockingList, found, busy, positive], ?_⟩
    intro nodes path
    have blocked := same.trans beforeBlock
    rw [← blocked.link, ← blocked.head] at path
    rw [← finiteLists_blockTask_iff (finite.of_same blocked) path task]
    constructor
    · exact fun finiteAfter => finiteAfter.of_same ⟨rfl, (SyncSystem.head_setPc _ _ _).symm⟩
    · exact fun finiteAfter => finiteAfter.of_same (.setPc _ _ _)
  · exact .inr ⟨by simp [blockingList, found, free], acquire.of_same (.setPc _ _ _)⟩

/-- The first section of a call. -/
theorem enterCall_lists {fuel : Nat} {system after : SyncSystem} {task : TaskId}
    {call : Call} {start : Nat} {events : List Event} (finite : FiniteLists system)
    (inside : system.pc task = .entering call start)
    (entered : enterCall fuel system task call start = some (after, events)) :
    ListsOutcome system task (system.blocksOn task) after := by
  have left : ∀ {changed : SyncSystem} {result : Int} {others : List Event},
      finish changed task call result others = (after, events) →
      system.blocksOn task = none → FiniteLists changed →
      ListsOutcome system task (system.blocksOn task) after := by
    intro changed result others finished noBlock finiteChanged
    obtain ⟨rfl, rfl⟩ := Prod.mk.inj finished
    exact .inr ⟨noBlock, finiteChanged.of_same (.setPc _ _ _)⟩
  cases call with
  | semaphoreTake | queueSend | queueReceive | rwlockReadLock =>
      have outcome := testLoop_lists (.refl system) finite rfl (Option.some.inj entered)
      rw [SyncSystem.blocksOn, inside]
      exact outcome
  | rwlockWriteLock rwlock timeout =>
      have outcome := testLoop_lists (.modifyRwlock system (by simp)) finite rfl
        (Option.some.inj entered)
      rw [SyncSystem.blocksOn, inside]
      simpa [blockingList, waitLoop] using outcome
  | semaphoreGive sem =>
      exact left (Option.some.inj entered) (by simp [SyncSystem.blocksOn, inside, blockingList,
        waitLoop]) (finite.semaphoreGive sem)
  | queueReset queue =>
      exact left (Option.some.inj entered) (by simp [SyncSystem.blocksOn, inside, blockingList,
        waitLoop]) (finite.of_same (.modifyQueue _ fun _ => ⟨rfl, rfl⟩))
  | queueFlush queue =>
      obtain ⟨⟨flushed, changed⟩, flush, finished⟩ := Option.map_eq_some_iff.mp entered
      exact left finished (by simp [SyncSystem.blocksOn, inside, blockingList, waitLoop])
        (finite.queueFlush flush)
  | rwlockReadUnlock rwlock =>
      exact left (Option.some.inj entered) (by simp [SyncSystem.blocksOn, inside, blockingList,
        waitLoop]) (finite.rwlockReadUnlock rwlock)
  | rwlockWriteUnlock rwlock =>
      obtain ⟨changed, unlocked, finished⟩ := Option.map_eq_some_iff.mp entered
      exact left finished (by simp [SyncSystem.blocksOn, inside, blockingList, waitLoop])
        (finite.rwlockWriteUnlock unlocked)
  | mutexUnlock mutex =>
      exact left (Option.some.inj entered) (by simp [SyncSystem.blocksOn, inside, blockingList,
        waitLoop]) (finite.mutexUnlock mutex task)
  | mutexLock mutex timeout =>
      rw [enterCall] at entered
      split at entered
      case isTrue free =>
        exact left (Option.some.inj entered) (by simp [SyncSystem.blocksOn, inside,
          blockingList, waitLoop, free]) (finite.of_same (.mutexAcquire _ _ _))
      case isFalse held =>
        split at entered
        case isTrue owned =>
          exact left (Option.some.inj entered) (by simp [SyncSystem.blocksOn, inside, owned])
            (finite.of_same (.modifyMutex _ (by simp)))
        case isFalse foreign =>
          have outcome := testLoop_lists (.refl system) finite rfl (Option.some.inj entered)
          rw [SyncSystem.blocksOn, inside]
          simpa only [if_neg foreign] using outcome

theorem blocksOn_dispatch (system : SyncSystem) (task : TaskId) :
    (dispatch system task).blocksOn task = system.blocksOn task := by
  have tests : ∀ call, blockingList (dispatch system task) task call =
      blockingList system task call := by
    intro call
    cases call <;> rfl
  unfold SyncSystem.blocksOn
  rw [pc_dispatch]
  split <;> simp only [tests]
  rfl

theorem ListsOutcome.of_dispatch {before after : SyncSystem} {task : TaskId}
    {blocking : Option WaitList}
    (outcome : ListsOutcome (dispatch before task) task blocking after) :
    ListsOutcome before task blocking after := by
  have same := SameLists.dispatch before task
  rcases outcome with ⟨list, blocks, exact⟩ | kept
  · refine .inl ⟨list, blocks, fun nodes path => ?_⟩
    rw [← same.link, ← same.head] at path
    exact exact nodes path
  · exact .inr kept

/-- A section of a task blocks it on a list or keeps the lists finite. -/
theorem runTask_lists {fuel : Nat} {system after : SyncSystem} {task : TaskId}
    {events : List Event} (finite : FiniteLists system)
    (ran : runTask fuel system task = some (after, events)) :
    ListsOutcome system task (system.blocksOn task) after := by
  cases runTask_cases ran with
  | entering call start inside entered => exact enterCall_lists finite inside entered
  | delaying call start inside delayed =>
    refine .inr ⟨by simp [SyncSystem.blocksOn, inside], ?_⟩
    exact (finite.of_same (.kernel _ (taskDelay_blockNext delayed))).of_same (.setPc _ _ _)
  | sleeping call start inside _ =>
    exact .inr ⟨by simp [SyncSystem.blocksOn, inside], finite.of_same (.setPc _ _ _)⟩
  | retrying call start inside found tested =>
    have outcome := testLoop_lists (.refl system) finite found tested
    rw [SyncSystem.blocksOn, inside]
    exact outcome
  | expiring call start inside found removal =>
    refine .inr ⟨by simp [SyncSystem.blocksOn, inside], ?_⟩
    exact ((finite.removeFromList removal).waitLoop found).1.of_same (.setPc _ _ _)

/-- From a state with finite lists, a step leads to one exactly when it does
not block a task on a list that it is on. -/
theorem exec_finiteLists_iff {before : Traced} {fuel : Nat} {action : Action}
    {after : SyncSystem} {events : List Event} (finite : FiniteLists before.system)
    (stepped : exec fuel before.system action = some (after, events)) :
    FiniteLists after ↔ BlocksOffList before action := by
  have harmless : FiniteLists after → (∀ task, action ≠ .run task) →
      (FiniteLists after ↔ BlocksOffList before action) := by
    intro finiteAfter notRun
    exact ⟨fun _ task _ _ same => absurd same (notRun task), fun _ => finiteAfter⟩
  cases exec_cases stepped with
  | refused task call _ _ => exact harmless (finite.of_same (.dispatch _ _)) (by simp)
  | invoke task call _ _ =>
      exact harmless ((finite.of_same (.dispatch _ _)).of_same (.setPc _ _ _)) (by simp)
  | interrupt call => exact harmless (finite.runIsr call) (by simp)
  | @tick kernel handled =>
      have kept : FieldKept Tcb.blockNext before.system.kernel kernel := by
        refine .schedulerTickHandler (fun tcb => ?_) (fun _ _ => rfl) handled
        unfold tickTcb
        split
        · split <;> rfl
        · rfl
      exact harmless (finite.of_same (.kernel _ kept.tcb)) (by simp)
  | run task ran =>
      have outcome := (runTask_lists (finite.of_same (.dispatch _ task)) ran).of_dispatch
      rw [blocksOn_dispatch] at outcome
      rcases outcome with ⟨list, blocks, exact⟩ | ⟨noBlock, finiteAfter⟩
      · constructor
        · intro finiteAfter other otherList nodes same otherBlocks path
          obtain rfl : task = other := by simpa using same
          obtain rfl : list = otherList := by simpa [blocks] using otherBlocks
          exact (exact nodes path).mp finiteAfter
        · intro offList
          obtain ⟨nodes, path⟩ := finite list
          exact (exact nodes path).mpr (offList task list nodes rfl blocks path)
      · refine ⟨fun _ other list nodes same blocks => ?_, fun _ => finiteAfter⟩
        obtain rfl : task = other := by simpa using same
        simp [noBlock] at blocks

theorem SyncSystem.Initial.finiteLists {initial : SyncSystem} (start : initial.Initial) :
    FiniteLists initial := by
  intro list
  have empty : initial.head list = none := by
    cases list with
    | semaphore sem => exact start.semaphore sem
    | senders queue => exact (start.queue queue).1
    | receivers queue => exact (start.queue queue).2
    | mutex mutex => simp [SyncSystem.head, start.mutex]
    | readers rwlock => simp [SyncSystem.head, start.rwlock]
    | writers rwlock => simp [SyncSystem.head, start.rwlock]
  rw [empty]
  exact terminates_none _

theorem finiteLists_of_reachable {initial : SyncSystem} (start : initial.Initial)
    {current : Traced} (run : Traced.Reachable BlocksOffList initial current) :
    FiniteLists current.system := by
  induction run with
  | refl => exact start.finiteLists
  | tail _ step ih =>
      obtain ⟨fuel, action, events, offList, stepped, _⟩ := step
      exact (exec_finiteLists_iff ih stepped).mpr offList

/-- Every wait list is finite and without repetition in every state of a run
in which tasks block only off the list, and some list is not after the first
step that breaks this. -/
theorem waitLists_finite {initial : SyncSystem} (start : initial.Initial)
    {current : Traced} (run : Traced.Reachable BlocksOffList initial current) :
    (∀ list, ∃ nodes, Path current.system.link (current.system.head list) nodes ∧
      nodes.Nodup) ∧
    ∀ fuel action after events,
      exec fuel current.system action = some (after, events) →
      ((∀ list, ∃ nodes, Path after.link (after.head list) nodes ∧ nodes.Nodup) ↔
        BlocksOffList current action) := by
  have finite := finiteLists_of_reachable start run
  have distinct : ∀ system, FiniteLists system ↔
      ∀ list, ∃ nodes, Path system.link (system.head list) nodes ∧ nodes.Nodup := by
    intro system
    constructor
    · intro finite list
      obtain ⟨nodes, path⟩ := finite list
      exact ⟨nodes, path, path.nodup⟩
    · intro finite list
      obtain ⟨nodes, path, _⟩ := finite list
      exact ⟨nodes, path⟩
  refine ⟨(distinct _).mp finite, fun fuel action after events stepped => ?_⟩
  rw [← distinct]
  exact exec_finiteLists_iff finite stepped

/-- A test for `BlocksOffList`, on lists of fewer than eight tasks. -/
def offListGuard (current : Traced) : Action → Bool
  | .run task =>
      match current.system.blocksOn task with
      | none => true
      | some list =>
          search current.system.link task 8 none (current.system.head list) = some none
  | _ => true

theorem blocksOffList_of_guard (current : Traced) (action : Action)
    (guarded : offListGuard current action = true) : BlocksOffList current action := by
  rintro task list nodes rfl blocks path
  simp only [offListGuard, blocks, decide_eq_true_eq] at guarded
  exact search_missing path guarded

/-- Both tasks wait for the semaphore. -/
theorem waitLists_finite_twoTasks :
    ∃ current, Traced.Reachable BlocksOffList twoTasks current ∧
      current.system.head (.semaphore 0) = some 3 ∧ current.system.link 3 = some 2 ∧
      ∀ list, ∃ nodes, Path current.system.link (current.system.head list) nodes ∧
        nodes.Nodup := by
  obtain ⟨current, run, first, second⟩ :=
    Traced.exists_reachable blocksOffList_of_guard 4
      [.invoke 2 (.semaphoreTake 0 9), .run 2, .invoke 3 (.semaphoreTake 0 9), .run 3]
      twoTasks
      (fun current => current.system.head (.semaphore 0) = some 3 ∧
        current.system.link 3 = some 2)
      (by decide +kernel)
  exact ⟨current, run, first, second, (waitLists_finite twoTasks_initial run).1⟩

/-- A task that waits for two ticks is linked to itself. -/
theorem waitLists_finite_second_tick :
    ¬ ∀ current, Traced.Reachable Traced.AnyStep twoTasks current →
      ∀ list, ∃ nodes, Path current.system.link (current.system.head list) nodes ∧
        nodes.Nodup := by
  intro finite
  obtain ⟨current, run, first, loops⟩ :=
    Traced.exists_anyStep 4
      [.invoke 2 (.semaphoreTake 0 5), .run 2, .run 2, .tick, .run 2, .run 2]
      twoTasks
      (fun current => current.system.head (.semaphore 0) = some 2 ∧
        current.system.link 2 = some 2)
      (by decide +kernel)
  obtain ⟨nodes, path, _⟩ := finite current run (.semaphore 0)
  rw [first] at path
  have whole := path
  cases path with
  | node rest =>
      rw [loops] at rest
      have same := congrArg List.length (whole.unique rest)
      simp at same

end Rtos

end MiniIotRobotEdge

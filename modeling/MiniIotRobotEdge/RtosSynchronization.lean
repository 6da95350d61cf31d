import MiniIotRobotEdge.PointerChain
import MiniIotRobotEdge.RtosIpcQueue

/-!
# Blocking calls of mini-rtos

Semaphores, queues, mutexes and reader-writer locks block a task by putting it
at the front of a list linked through `block_next` and sleeping for one tick,
in a loop.  This file embeds those calls (`semaphore_mutex.c`, `ipc_queue.c`,
`rwlock.c`) as a transition system at the granularity of critical sections:
every task has a program counter inside the call it is making, and any task
may run its next section at any time.
-/

namespace MiniIotRobotEdge

namespace Rtos

structure Semaphore where
  count : Nat
  maxCount : Nat
  blockedTasks : Option TaskId := none

structure Mutex where
  held : Nat := 0
  owner : Option TaskId := none
  ownerOriginalPriority : Nat := 0
  recursiveCount : Nat := 0
  blockedTasks : Option TaskId := none

structure Rwlock where
  readers : Nat := 0
  writerActive : Nat := 0
  writerWaiting : Nat := 0
  blockedReaders : Option TaskId := none
  blockedWriters : Option TaskId := none

/-- The calls of the modelled interface, with their arguments. -/
inductive Call
  | semaphoreTake (sem timeout : Nat)
  | semaphoreGive (sem : Nat)
  | queueSend (queue : Nat) (data : List UInt8) (timeout : Nat)
  | queueReceive (queue timeout : Nat)
  | queueReset (queue : Nat)
  | queueFlush (queue : Nat)
  | mutexLock (mutex timeout : Nat)
  | mutexUnlock (mutex : Nat)
  | rwlockReadLock (rwlock timeout : Nat)
  | rwlockReadUnlock (rwlock : Nat)
  | rwlockWriteLock (rwlock timeout : Nat)
  | rwlockWriteUnlock (rwlock : Nat)
  deriving DecidableEq, Repr

namespace Call

/-- `mutex_lock_recursive` and `mutex_unlock_recursive` only forward. -/
def mutexLockRecursive (mutex timeout : Nat) : Call := mutexLock mutex timeout
def mutexUnlockRecursive (mutex : Nat) : Call := mutexUnlock mutex

/-- The try-lock variants are locks with a zero timeout. -/
def rwlockReadTrylock (rwlock : Nat) : Call := rwlockReadLock rwlock 0
def rwlockWriteTrylock (rwlock : Nat) : Call := rwlockWriteLock rwlock 0

end Call

/-- The calls meant for interrupt handlers. -/
inductive IsrCall
  | semaphoreGiveFromIsr (sem : Nat)
  | queueSendFromIsr (queue : Nat) (data : List UInt8)
  | queueReceiveFromIsr (queue : Nat)
  deriving DecidableEq, Repr

/-- Where a task is: outside of every call, before the critical section of a
call, or in the wait loop of a blocking call that began at tick `start`. -/
inductive Pc
  | idle
  | entering (call : Call) (start : Nat)
  /-- On the wait list, before `task_delay(1)`. -/
  | delaying (call : Call) (start : Nat)
  /-- In `task_delay(1)`. -/
  | sleeping (call : Call) (start : Nat)
  /-- Awake in time, before the loop condition is tested again. -/
  | retrying (call : Call) (start : Nat)
  /-- Awake after the timeout, before the task removes itself. -/
  | expiring (call : Call) (start : Nat)
  deriving DecidableEq, Repr

inductive Event
  | returned (task : TaskId) (call : Call) (result : Int)
  | copiedOut (task : Option TaskId) (data : List UInt8)
  | handedOff (mutex : Nat) (task : TaskId)
  deriving DecidableEq, Repr

structure SyncSystem where
  kernel : Kernel
  semaphores : Nat → Semaphore
  queues : Nat → Queue
  mutexes : Nat → Mutex
  rwlocks : Nat → Rwlock
  pc : TaskId → Pc

/-- The wait lists of the system. -/
inductive WaitList
  | semaphore (sem : Nat)
  | senders (queue : Nat)
  | receivers (queue : Nat)
  | mutex (mutex : Nat)
  | readers (rwlock : Nat)
  | writers (rwlock : Nat)
  deriving DecidableEq, Repr

def WaitList.object : WaitList → SyncObject
  | .semaphore object => .semaphore object
  | .senders object | .receivers object => .queue object
  | .mutex object => .mutex object
  | .readers object | .writers object => .rwlock object

namespace SyncSystem

def modifyTask (system : SyncSystem) (task : TaskId) (change : Tcb → Tcb) : SyncSystem :=
  { system with kernel := system.kernel.modify task change }

def modifySemaphore (system : SyncSystem) (sem : Nat)
    (change : Semaphore → Semaphore) : SyncSystem :=
  { system with semaphores :=
      Function.update system.semaphores sem (change (system.semaphores sem)) }

def modifyQueue (system : SyncSystem) (queue : Nat) (change : Queue → Queue) :
    SyncSystem :=
  { system with queues :=
      Function.update system.queues queue (change (system.queues queue)) }

def modifyMutex (system : SyncSystem) (mutex : Nat) (change : Mutex → Mutex) :
    SyncSystem :=
  { system with mutexes :=
      Function.update system.mutexes mutex (change (system.mutexes mutex)) }

def modifyRwlock (system : SyncSystem) (rwlock : Nat) (change : Rwlock → Rwlock) :
    SyncSystem :=
  { system with rwlocks :=
      Function.update system.rwlocks rwlock (change (system.rwlocks rwlock)) }

def setPc (system : SyncSystem) (task : TaskId) (pc : Pc) : SyncSystem :=
  { system with pc := Function.update system.pc task pc }

/-- The `block_next` links. -/
def link (system : SyncSystem) (task : TaskId) : Option TaskId :=
  (system.kernel.tcb task).blockNext

/-- The head pointer of a wait list. -/
def head (system : SyncSystem) : WaitList → Option TaskId
  | .semaphore sem => (system.semaphores sem).blockedTasks
  | .senders queue => (system.queues queue).blockedSenders
  | .receivers queue => (system.queues queue).blockedReceivers
  | .mutex mutex => (system.mutexes mutex).blockedTasks
  | .readers rwlock => (system.rwlocks rwlock).blockedReaders
  | .writers rwlock => (system.rwlocks rwlock).blockedWriters

def setHead (system : SyncSystem) (list : WaitList) (head : Option TaskId) : SyncSystem :=
  match list with
  | .semaphore sem =>
      system.modifySemaphore sem fun object => { object with blockedTasks := head }
  | .senders queue =>
      system.modifyQueue queue fun object => { object with blockedSenders := head }
  | .receivers queue =>
      system.modifyQueue queue fun object => { object with blockedReceivers := head }
  | .mutex mutex =>
      system.modifyMutex mutex fun object => { object with blockedTasks := head }
  | .readers rwlock =>
      system.modifyRwlock rwlock fun object => { object with blockedReaders := head }
  | .writers rwlock =>
      system.modifyRwlock rwlock fun object => { object with blockedWriters := head }

end SyncSystem

/-- The common body of `semaphore_block_task`, `block_task_on_queue`,
`mutex_block_task`, `rwlock_block_reader` and `rwlock_block_writer`. -/
def blockTask (system : SyncSystem) (list : WaitList) (task : TaskId) : SyncSystem :=
  let system := system.modifyTask task fun tcb =>
    { tcb with
      state := .blocked
      blockObj := some list.object
      blockNext := system.head list }
  system.setHead list (some task)

def semaphoreBlockTask (system : SyncSystem) (sem : Nat) (task : TaskId) : SyncSystem :=
  blockTask system (.semaphore sem) task

def blockTaskOnQueue (system : SyncSystem) (queue : Nat) (task : TaskId)
    (isSender : Bool) : SyncSystem :=
  blockTask system (if isSender then .senders queue else .receivers queue) task

def mutexBlockTask (system : SyncSystem) (mutex : Nat) (task : TaskId) : SyncSystem :=
  blockTask system (.mutex mutex) task

def rwlockBlockReader (system : SyncSystem) (rwlock : Nat) (task : TaskId) : SyncSystem :=
  blockTask system (.readers rwlock) task

def rwlockBlockWriter (system : SyncSystem) (rwlock : Nat) (task : TaskId) : SyncSystem :=
  blockTask system (.writers rwlock) task

/-- The common part of the functions that wake the first task of a list. -/
def unblockTask (system : SyncSystem) (list : WaitList) : SyncSystem :=
  match system.head list with
  | none => system
  | some task =>
      let system := system.setHead list (system.link task)
      system.modifyTask task fun tcb =>
        { tcb with state := .ready, blockObj := none, blockNext := none }

def semaphoreUnblockTask (system : SyncSystem) (sem : Nat) : SyncSystem :=
  unblockTask system (.semaphore sem)

def unblockTaskFromQueue (system : SyncSystem) (queue : Nat) (isSender : Bool) :
    SyncSystem :=
  unblockTask system (if isSender then .senders queue else .receivers queue)

/-- `rwlock_unblock_all_readers`. -/
def rwlockUnblockAllReaders : Nat → SyncSystem → Nat → Option SyncSystem
  | 0, _, _ => none
  | fuel + 1, system, rwlock =>
      match (system.rwlocks rwlock).blockedReaders with
      | none => some system
      | some _ =>
          let system := unblockTask system (.readers rwlock)
          let system := system.modifyRwlock rwlock fun object =>
            { object with readers := (object.readers + 1) % uint32Size }
          rwlockUnblockAllReaders fuel system rwlock

/-- `rwlock_unblock_one_writer`. -/
def rwlockUnblockOneWriter (system : SyncSystem) (rwlock : Nat) : SyncSystem :=
  match (system.rwlocks rwlock).blockedWriters with
  | none => system
  | some _ =>
      let system := unblockTask system (.writers rwlock)
      system.modifyRwlock rwlock fun object =>
        { object with
          writerActive := 1
          writerWaiting :=
            if object.blockedWriters = none then 0 else object.writerWaiting }

/-- Make the tasks met from `cursor` ready, as `queue_flush` does. -/
def readyAll : Nat → SyncSystem → Option TaskId → Option SyncSystem
  | 0, _, _ => none
  | _ + 1, system, none => some system
  | fuel + 1, system, some task =>
      readyAll fuel
        (system.modifyTask task fun tcb =>
          { tcb with state := .ready, blockObj := none })
        (system.link task)

/-- `if (prev) prev->block_next = t->block_next; else *list = t->block_next;` -/
def bypassTask (system : SyncSystem) (list : WaitList) (task : TaskId) :
    Option TaskId → SyncSystem
  | some previous => system.modifyTask previous fun tcb =>
      { tcb with blockNext := system.link task }
  | none => system.setHead list (system.link task)

/-- The loop with which a task takes itself off a list after a timeout.  The
reader-writer locks also reset the fields of the task they remove. -/
def removeFromList (fuel : Nat) (system : SyncSystem) (list : WaitList)
    (task : TaskId) (clearsTask : Bool) : Option SyncSystem :=
  match PointerChain.search system.link task fuel none (system.head list) with
  | none => none
  | some none => some system
  | some (some previous) =>
      let system := bypassTask system list task previous
      some (if clearsTask then
        system.modifyTask task fun tcb =>
          { tcb with blockNext := none, blockObj := none }
      else system)

def mutexPriorityInherit (system : SyncSystem) (mutex : Nat) (blocker : TaskId) :
    SyncSystem :=
  match (system.mutexes mutex).owner with
  | none => system
  | some owner =>
      let ownerPriority := (system.kernel.tcb owner).priority
      let blockerPriority := (system.kernel.tcb blocker).priority
      if ownerPriority < blockerPriority then
        let system := system.modifyMutex mutex fun object =>
          { object with ownerOriginalPriority := ownerPriority }
        system.modifyTask owner fun tcb =>
          { tcb with priority := blockerPriority }
      else system

def mutexPriorityRestore (system : SyncSystem) (mutex : Nat) : SyncSystem :=
  match (system.mutexes mutex).owner with
  | none => system
  | some owner =>
      let original := (system.mutexes mutex).ownerOriginalPriority
      if 0 < original then
        let system := system.modifyTask owner fun tcb =>
          { tcb with priority := original }
        system.modifyMutex mutex fun object =>
          { object with ownerOriginalPriority := 0 }
      else system

/-- `if (!rw->blocked_writers) rw->writer_waiting = 0;` -/
def rwlockStopWaiting (system : SyncSystem) (rwlock : Nat) : SyncSystem :=
  system.modifyRwlock rwlock fun object =>
    { object with writerWaiting :=
        if object.blockedWriters = none then 0 else object.writerWaiting }

/-- What distinguishes the wait loops of the blocking calls: the list, the
loop condition, the work before blocking, the work when the task gives up,
and the section after the loop. -/
structure WaitLoop where
  list : WaitList
  timeout : Nat
  busy : SyncSystem → Bool
  beforeBlock : SyncSystem → SyncSystem := id
  giveUp : SyncSystem → SyncSystem := id
  clearsTask : Bool := false
  acquire : SyncSystem → SyncSystem × List Event

/-- Take a free mutex. -/
def mutexAcquire (system : SyncSystem) (mutex : Nat) (task : TaskId) : SyncSystem :=
  system.modifyMutex mutex fun object =>
    { object with held := 1, owner := some task, recursiveCount := 1 }

/-- The wait loop of a blocking call made by `task`. -/
def waitLoop (task : TaskId) : Call → Option WaitLoop
  | .semaphoreTake sem timeout => some
      { list := .semaphore sem
        timeout := timeout
        busy := fun system => (system.semaphores sem).count = 0
        acquire := fun system =>
          (system.modifySemaphore sem fun object =>
            { object with count := object.count - 1 }, []) }
  | .queueSend queue data timeout => some
      { list := .senders queue
        timeout := timeout
        busy := fun system => (system.queues queue).isFull
        acquire := fun system =>
          let system := system.modifyQueue queue fun object => object.copyIn data
          (unblockTaskFromQueue system queue false, []) }
  | .queueReceive queue timeout => some
      { list := .receivers queue
        timeout := timeout
        busy := fun system => (system.queues queue).isEmpty
        acquire := fun system =>
          let delivered := (system.queues queue).copyOut.1
          let system := system.modifyQueue queue fun object => object.copyOut.2
          (unblockTaskFromQueue system queue true,
            [.copiedOut (some task) delivered]) }
  | .mutexLock mutex timeout => some
      { list := .mutex mutex
        timeout := timeout
        busy := fun system => (system.mutexes mutex).held ≠ 0
        beforeBlock := fun system => mutexPriorityInherit system mutex task
        acquire := fun system => (mutexAcquire system mutex task, []) }
  | .rwlockReadLock rwlock timeout => some
      { list := .readers rwlock
        timeout := timeout
        busy := fun system =>
          (system.rwlocks rwlock).writerActive ≠ 0 ∨
            (system.rwlocks rwlock).writerWaiting ≠ 0
        clearsTask := true
        acquire := fun system =>
          (system.modifyRwlock rwlock fun object =>
            { object with readers := (object.readers + 1) % uint32Size }, []) }
  | .rwlockWriteLock rwlock timeout => some
      { list := .writers rwlock
        timeout := timeout
        busy := fun system =>
          (system.rwlocks rwlock).writerActive ≠ 0 ∨
            0 < (system.rwlocks rwlock).readers
        giveUp := fun system => rwlockStopWaiting system rwlock
        clearsTask := true
        acquire := fun system =>
          (system.modifyRwlock rwlock fun object =>
            { object with writerActive := 1, writerWaiting := 0 }, []) }
  | _ => none

/-- Leave a call with a result. -/
def finish (system : SyncSystem) (task : TaskId) (call : Call) (result : Int)
    (events : List Event) : SyncSystem × List Event :=
  (system.setPc task .idle, .returned task call result :: events)

/-- The loop head inside the critical section: return, or block and go to
sleep. -/
def testLoop (system : SyncSystem) (task : TaskId) (call : Call) (start : Nat)
    (loop : WaitLoop) : SyncSystem × List Event :=
  if loop.busy system then
    if loop.timeout = 0 then finish (loop.giveUp system) task call 0 []
    else
      ((blockTask (loop.beforeBlock system) loop.list task).setPc task
        (.delaying call start), [])
  else
    finish (loop.acquire system).1 task call 1 (loop.acquire system).2

/-- `semaphore_give`, and `semaphore_give_from_isr` in an interrupt. -/
def semaphoreGive (system : SyncSystem) (sem : Nat) : SyncSystem :=
  let system := system.modifySemaphore sem fun object =>
    { object with count :=
        if object.count < object.maxCount then object.count + 1
        else object.count }
  semaphoreUnblockTask system sem

/-- `m->recursive_count--` -/
def mutexDecrement (system : SyncSystem) (mutex : Nat) : SyncSystem :=
  system.modifyMutex mutex fun object =>
    { object with recursiveCount :=
        (object.recursiveCount + (uint32Size - 1)) % uint32Size }

/-- Give the owner its priority back and free the mutex. -/
def mutexRelease (system : SyncSystem) (mutex : Nat) : SyncSystem :=
  (mutexPriorityRestore system mutex).modifyMutex mutex fun object =>
    { object with held := 0, owner := none }

/-- Take `waiter` off the front of the wait list and make it the owner. -/
def mutexHandOff (system : SyncSystem) (mutex : Nat) (waiter : TaskId) :
    SyncSystem :=
  let system := system.setHead (.mutex mutex) (system.link waiter)
  let system := system.modifyTask waiter fun tcb =>
    { tcb with state := .ready, blockObj := none }
  mutexAcquire system mutex waiter

/-- The critical section of `mutex_unlock` by `task`: the system, the result
and the hand-off, if there is one. -/
def mutexUnlock (system : SyncSystem) (mutex : Nat) (task : TaskId) :
    SyncSystem × Int × List Event :=
  if (system.mutexes mutex).owner ≠ some task then (system, -1, [])
  else
    let system := mutexDecrement system mutex
    if 0 < (system.mutexes mutex).recursiveCount then (system, 1, [])
    else
      let system := mutexRelease system mutex
      match (system.mutexes mutex).blockedTasks with
      | none => (system, 1, [])
      | some waiter =>
          (mutexHandOff system mutex waiter, 1, [.handedOff mutex waiter])

/-- The critical section of `rwlock_read_unlock`. -/
def rwlockReadUnlock (system : SyncSystem) (rwlock : Nat) : SyncSystem :=
  let system := system.modifyRwlock rwlock fun object =>
    { object with readers := (object.readers + (uint32Size - 1)) % uint32Size }
  if (system.rwlocks rwlock).readers = 0 then
    rwlockUnblockOneWriter system rwlock
  else system

/-- The critical section of `rwlock_write_unlock`. -/
def rwlockWriteUnlock (fuel : Nat) (system : SyncSystem) (rwlock : Nat) :
    Option SyncSystem :=
  let system := system.modifyRwlock rwlock fun object =>
    { object with writerActive := 0 }
  if (system.rwlocks rwlock).blockedWriters ≠ none then
    some (rwlockUnblockOneWriter system rwlock)
  else rwlockUnblockAllReaders fuel system rwlock

/-- `queue_flush`: the number of discarded items and the system. -/
def queueFlush (fuel : Nat) (system : SyncSystem) (queue : Nat) :
    Option (Nat × SyncSystem) :=
  let flushed := (system.queues queue).count
  let system := system.modifyQueue queue Queue.reset
  match readyAll fuel system (system.queues queue).blockedReceivers with
  | none => none
  | some system => some (flushed, system.setHead (.receivers queue) none)

/-- The first critical section of a call. -/
def enterCall (fuel : Nat) (system : SyncSystem) (task : TaskId) (call : Call)
    (start : Nat) : Option (SyncSystem × List Event) :=
  match call with
  | .mutexLock mutex _ =>
      if (system.mutexes mutex).held = 0 then
        some (finish (mutexAcquire system mutex task) task call 1 [])
      else if (system.mutexes mutex).owner = some task then
        some (finish
          (system.modifyMutex mutex fun object =>
            { object with recursiveCount :=
                (object.recursiveCount + 1) % uint32Size })
          task call 1 [])
      else (waitLoop task call).map (testLoop system task call start)
  | .rwlockWriteLock rwlock _ =>
      (waitLoop task call).map
        (testLoop
          (system.modifyRwlock rwlock fun object =>
            { object with writerWaiting := 1 })
          task call start)
  | .semaphoreGive sem => some (finish (semaphoreGive system sem) task call 1 [])
  | .queueReset queue =>
      some (finish (system.modifyQueue queue Queue.reset) task call 0 [])
  | .queueFlush queue =>
      (queueFlush fuel system queue).map fun (flushed, system) =>
        finish system task call flushed []
  | .mutexUnlock mutex =>
      let (system, result, events) := mutexUnlock system mutex task
      some (finish system task call result events)
  | .rwlockReadUnlock rwlock =>
      some (finish (rwlockReadUnlock system rwlock) task call 1 [])
  | .rwlockWriteUnlock rwlock =>
      (rwlockWriteUnlock fuel system rwlock).map fun system =>
        finish system task call 1 []
  | call => (waitLoop task call).map (testLoop system task call start)

/-- The test `elapsed >= timeout_ticks` after the sleep; the largest timeout
never expires. -/
def TimedOut (system : SyncSystem) (start timeout : Nat) : Prop :=
  timeout < uint32Size - 1 ∧
    timeout ≤ (system.kernel.tickCount + (uint32Size - start)) % uint32Size

instance (system : SyncSystem) (start timeout : Nat) :
    Decidable (TimedOut system start timeout) :=
  inferInstanceAs (Decidable (_ ∧ _))

/-- The tests that the unlock functions of the reader-writer lock make before
their critical section. -/
def refused (system : SyncSystem) : Call → Bool
  | .rwlockReadUnlock rwlock => (system.rwlocks rwlock).readers = 0
  | .rwlockWriteUnlock rwlock => (system.rwlocks rwlock).writerActive = 0
  | _ => false

inductive Action
  /-- A task outside of every call makes one and reads the tick counter. -/
  | invoke (task : TaskId) (call : Call)
  /-- A task inside a call runs up to the end of its next section. -/
  | run (task : TaskId)
  | interrupt (call : IsrCall)
  | tick
  deriving DecidableEq, Repr

/-- The current task is the one that executes. -/
def dispatch (system : SyncSystem) (task : TaskId) : SyncSystem :=
  { system with kernel := { system.kernel with currentTask := some task } }

/-- The next section of a task inside a call. -/
def runTask (fuel : Nat) (system : SyncSystem) (task : TaskId) :
    Option (SyncSystem × List Event) :=
  match system.pc task with
  | .idle => none
  | .entering call start => enterCall fuel system task call start
  | .delaying call start =>
      (taskDelay system.kernel 1).map fun kernel =>
        ({ system with kernel := kernel }.setPc task (.sleeping call start), [])
  | .sleeping call start =>
      (waitLoop task call).map fun loop =>
        (system.setPc task
          (if TimedOut system start loop.timeout then .expiring call start
            else .retrying call start), [])
  | .retrying call start =>
      (waitLoop task call).map (testLoop system task call start)
  | .expiring call _ =>
      (waitLoop task call).bind fun loop =>
        (removeFromList fuel system loop.list task loop.clearsTask).map
          fun system => finish (loop.giveUp system) task call (-2) []

/-- The calls made by an interrupt handler, with their results. -/
def runIsr (system : SyncSystem) : IsrCall → SyncSystem × List Event
  | .semaphoreGiveFromIsr sem => (semaphoreGive system sem, [])
  | .queueSendFromIsr queue data =>
      if (system.queues queue).isFull then (system, [])
      else
        let system := system.modifyQueue queue fun object => object.copyIn data
        (unblockTaskFromQueue system queue false, [])
  | .queueReceiveFromIsr queue =>
      if (system.queues queue).isEmpty then (system, [])
      else
        let delivered := (system.queues queue).copyOut.1
        let system := system.modifyQueue queue fun object => object.copyOut.2
        (unblockTaskFromQueue system queue true, [.copiedOut none delivered])

/-- One step of the system, with the events it causes. -/
def exec (fuel : Nat) (system : SyncSystem) : Action → Option (SyncSystem × List Event)
  | .invoke task call =>
      if system.pc task = .idle then
        if refused system call then
          some (dispatch system task, [.returned task call (-1)])
        else
          some ((dispatch system task).setPc task
            (.entering call system.kernel.tickCount), [])
      else none
  | .run task => runTask fuel (dispatch system task) task
  | .interrupt call => some (runIsr system call)
  | .tick =>
      (schedulerTickHandler fuel system.kernel).map fun kernel =>
        ({ system with kernel := kernel }, [])

section Cases

variable {fuel : Nat} {system before after : SyncSystem} {task : TaskId} {action : Action}
  {events : List Event}

/-- What a section of a task does, by where the task is in its call. -/
inductive TaskSection (fuel : Nat) (system : SyncSystem) (task : TaskId) :
    SyncSystem → List Event → Prop
  | entering {after : SyncSystem} {events : List Event} (call : Call) (start : Nat)
      (inside : system.pc task = .entering call start)
      (entered : enterCall fuel system task call start = some (after, events)) :
      TaskSection fuel system task after events
  | delaying {kernel : Kernel} (call : Call) (start : Nat)
      (inside : system.pc task = .delaying call start)
      (delayed : taskDelay system.kernel 1 = some kernel) :
      TaskSection fuel system task
        ({ system with kernel := kernel }.setPc task (.sleeping call start)) []
  | sleeping {loop : WaitLoop} (call : Call) (start : Nat)
      (inside : system.pc task = .sleeping call start) (found : waitLoop task call = some loop) :
      TaskSection fuel system task
        (system.setPc task (if TimedOut system start loop.timeout then .expiring call start
          else .retrying call start)) []
  | retrying {after : SyncSystem} {events : List Event} {loop : WaitLoop} (call : Call)
      (start : Nat) (inside : system.pc task = .retrying call start)
      (found : waitLoop task call = some loop)
      (tested : testLoop system task call start loop = (after, events)) :
      TaskSection fuel system task after events
  | expiring {removed : SyncSystem} {loop : WaitLoop} (call : Call) (start : Nat)
      (inside : system.pc task = .expiring call start) (found : waitLoop task call = some loop)
      (removal : removeFromList fuel system loop.list task loop.clearsTask = some removed) :
      TaskSection fuel system task ((loop.giveUp removed).setPc task .idle)
        [.returned task call (-2)]

theorem runTask_cases (ran : runTask fuel system task = some (after, events)) :
    TaskSection fuel system task after events := by
  rw [runTask] at ran
  split at ran
  case h_1 => simp at ran
  case h_2 call start inside => exact .entering call start inside ran
  case h_3 call start inside =>
    obtain ⟨kernel, delayed, slept⟩ := Option.map_eq_some_iff.mp ran
    obtain ⟨rfl, rfl⟩ := Prod.mk.inj slept
    exact .delaying call start inside delayed
  case h_4 call start inside =>
    obtain ⟨loop, found, woke⟩ := Option.map_eq_some_iff.mp ran
    obtain ⟨rfl, rfl⟩ := Prod.mk.inj woke
    exact .sleeping call start inside found
  case h_5 call start inside =>
    obtain ⟨loop, found, tested⟩ := Option.map_eq_some_iff.mp ran
    exact .retrying call start inside found tested
  case h_6 call start inside =>
    obtain ⟨loop, found, expired⟩ := Option.bind_eq_some_iff.mp ran
    obtain ⟨removed, removal, finished⟩ := Option.map_eq_some_iff.mp expired
    obtain ⟨rfl, rfl⟩ := Prod.mk.inj finished
    exact .expiring call start inside found removal

/-- What a step of the system does. -/
inductive SystemStep (fuel : Nat) (before : SyncSystem) :
    Action → SyncSystem → List Event → Prop
  | refused (task : TaskId) (call : Call) (idle : before.pc task = .idle)
      (isRefused : refused before call = true) :
      SystemStep fuel before (.invoke task call) (dispatch before task)
        [.returned task call (-1)]
  | invoke (task : TaskId) (call : Call) (idle : before.pc task = .idle)
      (accepted : ¬refused before call = true) :
      SystemStep fuel before (.invoke task call)
        ((dispatch before task).setPc task (.entering call before.kernel.tickCount)) []
  | run {after : SyncSystem} {events : List Event} (task : TaskId)
      (ran : runTask fuel (dispatch before task) task = some (after, events)) :
      SystemStep fuel before (.run task) after events
  | interrupt (call : IsrCall) :
      SystemStep fuel before (.interrupt call) (runIsr before call).1 (runIsr before call).2
  | tick {kernel : Kernel} (handled : schedulerTickHandler fuel before.kernel = some kernel) :
      SystemStep fuel before .tick { before with kernel := kernel } []

theorem exec_cases (stepped : exec fuel before action = some (after, events)) :
    SystemStep fuel before action after events := by
  cases action with
  | invoke task call =>
      rw [exec] at stepped
      split at stepped
      case isFalse => simp at stepped
      case isTrue idle =>
        split at stepped
        case isTrue isRefused =>
          obtain ⟨rfl, rfl⟩ := Prod.mk.inj (Option.some.inj stepped)
          exact .refused task call idle isRefused
        case isFalse accepted =>
          obtain ⟨rfl, rfl⟩ := Prod.mk.inj (Option.some.inj stepped)
          exact .invoke task call idle accepted
  | run task => exact .run task stepped
  | interrupt call =>
      obtain rfl : (runIsr before call).1 = after := congrArg Prod.fst (Option.some.inj stepped)
      obtain rfl : (runIsr before call).2 = events := congrArg Prod.snd (Option.some.inj stepped)
      exact .interrupt call
  | tick =>
      obtain ⟨kernel, handled, ticked⟩ := Option.map_eq_some_iff.mp stepped
      obtain ⟨rfl, rfl⟩ := Prod.mk.inj ticked
      exact .tick handled

end Cases

/-- Freshly created objects in an arbitrary kernel, with no task inside a
call. -/
structure SyncSystem.Initial (system : SyncSystem) : Prop where
  idle : ∀ task, system.pc task = .idle
  semaphore : ∀ sem, (system.semaphores sem).blockedTasks = none
  queue : ∀ queue, (system.queues queue).blockedSenders = none ∧
    (system.queues queue).blockedReceivers = none
  mutex : ∀ mutex, system.mutexes mutex = {}
  rwlock : ∀ rwlock, system.rwlocks rwlock = {}

end Rtos

end MiniIotRobotEdge

import MiniIotRobotEdge.PointerChain
import MiniIotRobotEdge.RtosTaskScheduler

/-!
# The event groups of mini-rtos

The model of `event_groups.c`.  A task that has to wait puts itself in front
of the group's list, linked through `block_next`, with `block_obj` pointing to
its wait information, and then sleeps for one tick at a time until its timeout
has passed or it finds itself in the ready state.  As for the other blocking
calls, every task has a program counter, a step runs one critical section or
one test outside of them, and any task may run its next step at any time;
interrupts, ticks and context switches come in between.
-/

namespace MiniIotRobotEdge

namespace Rtos

open PointerChain

/-- `event_bits_t`. -/
abbrev EventBits := BitVec 32

inductive EventWaitType
  | andAll
  | orAny
  | orAnyClear
  deriving DecidableEq, Repr

structure EventGroup where
  bits : EventBits := 0
  blockedTasks : Option TaskId := none

/-- The arguments of `event_group_wait_bits`, of which the call keeps
`wait_bits`, `wait_type` and `clear_on_exit` as its wait information. -/
structure EventWait where
  group : Nat
  waitBits : EventBits
  waitType : EventWaitType
  timeoutTicks : Nat
  clearOnExit : Nat
  deriving DecidableEq, Repr

inductive EventCall
  | waitBits (wait : EventWait)
  | sync (group : Nat) (bitsToSet bitsToWait : EventBits) (timeoutTicks : Nat)
  | setBits (group : Nat) (bitsToSet : EventBits)
  | clearBits (group : Nat) (bitsToClear : EventBits)
  deriving DecidableEq, Repr

/-- Where a task is: outside of every call, at the start of one, before the
critical section of `event_group_wait_bits`, or in its wait loop. -/
inductive EventPc
  | idle
  | calling (call : EventCall)
  | entering (wait : EventWait) (start : Nat)
  /-- Before `task_delay(1)`. -/
  | delaying (wait : EventWait) (start : Nat)
  /-- In `task_delay(1)`, before the test of the timeout. -/
  | sleeping (wait : EventWait) (start : Nat)
  /-- Before the test of the task's own state. -/
  | testing (wait : EventWait) (start : Nat)
  /-- Found ready, before the section that reads the bits. -/
  | reading (wait : EventWait)
  /-- Found too late, before the section that leaves the list. -/
  | expiring (wait : EventWait)
  deriving DecidableEq, Repr

/-- The wait of a task in the wait loop. -/
def EventPc.waiting : EventPc → Option EventWait
  | .delaying wait _ | .sleeping wait _ | .testing wait _ | .reading wait
  | .expiring wait => some wait
  | .idle | .calling _ | .entering _ _ => none

inductive GroupEvent
  /-- A bit set took the task off the list. -/
  | unblocked (task : TaskId)
  /-- A call returned; `bits` are those of its group on exit. -/
  | returned (task : TaskId) (call : EventCall) (result bits : EventBits)
  /-- What `event_group_set_bits_from_isr` gave back. -/
  | setFromIsr (previous : EventBits) (woken : Bool)
  deriving DecidableEq, Repr

structure EventSystem where
  kernel : Kernel
  groups : Nat → EventGroup
  pc : TaskId → EventPc

namespace EventSystem

def modifyTask (system : EventSystem) (task : TaskId) (change : Tcb → Tcb) : EventSystem :=
  { system with kernel := system.kernel.modify task change }

def modifyGroup (system : EventSystem) (group : Nat) (change : EventGroup → EventGroup) :
    EventSystem :=
  { system with groups :=
      Function.update system.groups group (change (system.groups group)) }

def setPc (system : EventSystem) (task : TaskId) (pc : EventPc) : EventSystem :=
  { system with pc := Function.update system.pc task pc }

/-- The `block_next` links. -/
def link (system : EventSystem) (task : TaskId) : Option TaskId :=
  (system.kernel.tcb task).blockNext

def bits (system : EventSystem) (group : Nat) : EventBits :=
  (system.groups group).bits

def setBits (system : EventSystem) (group : Nat) (bits : EventBits) : EventSystem :=
  system.modifyGroup group fun object => { object with bits := bits }

end EventSystem

def eventConditionMet (current request : EventBits) : EventWaitType → Bool
  | .andAll => current &&& request = request
  | .orAny | .orAnyClear => current &&& request ≠ 0

/-- The wait of the call whose wait information a task's `block_obj` points
to. -/
def waitInfo (system : EventSystem) (task : TaskId) : Option EventWait :=
  match (system.kernel.tcb task).blockObj with
  | some (.eventWaitInfo owner) => (system.pc owner).waiting
  | _ => none

/-- The test of `unblock_first_ready` on one task. -/
def waitSatisfied (system : EventSystem) (group : Nat) (task : TaskId) : Bool :=
  match waitInfo system task with
  | none => false
  | some wait => eventConditionMet (system.bits group) wait.waitBits wait.waitType

/-- `*prev_ptr = task->block_next;` -/
def bypassWaiter (system : EventSystem) (group : Nat) (task : TaskId) :
    Option TaskId → EventSystem
  | some previous => system.modifyTask previous fun tcb =>
      { tcb with blockNext := system.link task }
  | none => system.modifyGroup group fun object =>
      { object with blockedTasks := system.link task }

def unblockFirstReady (fuel : Nat) (system : EventSystem) (group : Nat) :
    Option (Option TaskId × EventSystem) :=
  match find system.link (waitSatisfied system group) fuel none
      (system.groups group).blockedTasks with
  | none => none
  | some none => some (none, system)
  | some (some (previous, task)) =>
      let system := bypassWaiter system group task previous
      some (some task, system.modifyTask task fun tcb =>
        { tcb with blockNext := none, state := .ready, blockObj := none })

/-- `unblock_all_ready`, with the tasks it makes ready. -/
def unblockAllReady : Nat → EventSystem → Nat → Option (EventSystem × List GroupEvent)
  | 0, _, _ => none
  | fuel + 1, system, group =>
      match unblockFirstReady fuel system group with
      | none => none
      | some (none, system) => some (system, [])
      | some (some task, system) =>
          (unblockAllReady fuel system group).map fun (system, events) =>
            (system, events ++ [.unblocked task])

/-- The critical section of `event_group_set_bits`; its result is the previous
bits. -/
def eventGroupSetBits (fuel : Nat) (system : EventSystem) (group : Nat)
    (bitsToSet : EventBits) : Option (EventSystem × List GroupEvent) :=
  let system := system.setBits group (system.bits group ||| bitsToSet)
  if (system.groups group).blockedTasks = none then some (system, [])
  else unblockAllReady fuel system group

/-- The critical section of `event_group_clear_bits`. -/
def eventGroupClearBits (system : EventSystem) (group : Nat) (bitsToClear : EventBits) :
    EventSystem :=
  system.setBits group (system.bits group &&& ~~~bitsToClear)

/-- The bits that a wait leaves when it finds its condition met at once. -/
def bitsOnExit (bits : EventBits) (wait : EventWait) : EventBits :=
  if wait.clearOnExit ≠ 0 then
    if wait.waitType = .orAnyClear then bits &&& ~~~(bits &&& wait.waitBits)
    else bits &&& ~~~wait.waitBits
  else bits

/-- Block the calling task. -/
def blockWaiter (system : EventSystem) (group : Nat) (task : TaskId) : EventSystem :=
  let system := system.modifyTask task fun tcb =>
    { tcb with
      state := .blocked
      blockObj := some (.eventWaitInfo task)
      blockNext := (system.groups group).blockedTasks }
  system.modifyGroup group fun object => { object with blockedTasks := some task }

/-- The loop with which a task takes itself off the list after its timeout. -/
def removeWaiter (fuel : Nat) (system : EventSystem) (group : Nat) (task : TaskId) :
    Option EventSystem :=
  match find system.link (fun other => other = task) fuel none
      (system.groups group).blockedTasks with
  | none => none
  | some none => some system
  | some (some (previous, _)) =>
      let system := bypassWaiter system group task previous
      some (system.modifyTask task fun tcb =>
        { tcb with blockNext := none, blockObj := none })

/-- Leave a call with a result. -/
def finishCall (system : EventSystem) (task : TaskId) (call : EventCall) (group : Nat)
    (result : EventBits) (events : List GroupEvent) : EventSystem × List GroupEvent :=
  (system.setPc task .idle, .returned task call result (system.bits group) :: events)

/-- The test `elapsed >= timeout_ticks`; the largest timeout never expires. -/
def WaitTimedOut (system : EventSystem) (wait : EventWait) (start : Nat) : Prop :=
  wait.timeoutTicks < uint32Size - 1 ∧
    wait.timeoutTicks ≤ (system.kernel.tickCount + (uint32Size - start)) % uint32Size

instance (system : EventSystem) (wait : EventWait) (start : Nat) :
    Decidable (WaitTimedOut system wait start) :=
  inferInstanceAs (Decidable (_ ∧ _))

/-- The critical section of `event_group_wait_bits`. -/
def enterWait (system : EventSystem) (task : TaskId) (wait : EventWait) (start : Nat) :
    EventSystem × List GroupEvent :=
  let bits := system.bits wait.group
  if eventConditionMet bits wait.waitBits wait.waitType then
    finishCall (system.setBits wait.group (bitsOnExit bits wait)) task (.waitBits wait)
      wait.group bits []
  else ((blockWaiter system wait.group task).setPc task (.delaying wait start), [])

/-- The wait that `event_group_sync` makes after its bit set. -/
def syncWait (group : Nat) (bitsToWait : EventBits) (timeoutTicks : Nat) : EventWait where
  group := group
  waitBits := bitsToWait
  waitType := .andAll
  timeoutTicks := timeoutTicks
  clearOnExit := 1

/-- The start of a call, up to the end of its first section. -/
def startCall (fuel : Nat) (system : EventSystem) (task : TaskId) :
    EventCall → Option (EventSystem × List GroupEvent)
  | .waitBits wait =>
      if wait.waitBits = 0 then
        some (finishCall system task (.waitBits wait) wait.group 0 [])
      else some (system.setPc task (.entering wait system.kernel.tickCount), [])
  | .sync group bitsToSet bitsToWait timeoutTicks =>
      (eventGroupSetBits fuel system group bitsToSet).map fun (system, events) =>
        (system.setPc task
          (.calling (.waitBits (syncWait group bitsToWait timeoutTicks))), events)
  | .setBits group bitsToSet =>
      (eventGroupSetBits fuel system group bitsToSet).map fun (after, events) =>
        finishCall after task (.setBits group bitsToSet) group (system.bits group) events
  | .clearBits group bitsToClear =>
      some (finishCall (eventGroupClearBits system group bitsToClear) task
        (.clearBits group bitsToClear) group (system.bits group) [])

/-- The next step of a task inside a call. -/
def runWaiter (fuel : Nat) (system : EventSystem) (task : TaskId) :
    Option (EventSystem × List GroupEvent) :=
  match system.pc task with
  | .idle => none
  | .calling call => startCall fuel system task call
  | .entering wait start => some (enterWait system task wait start)
  | .delaying wait start =>
      (taskDelay system.kernel 1).map fun kernel =>
        ({ system with kernel := kernel }.setPc task (.sleeping wait start), [])
  | .sleeping wait start =>
      some (system.setPc task
        (if WaitTimedOut system wait start then .expiring wait
          else .testing wait start), [])
  | .testing wait start =>
      some (system.setPc task
        (if (system.kernel.tcb task).state = .ready then .reading wait
          else .delaying wait start), [])
  | .reading wait =>
      some (finishCall system task (.waitBits wait) wait.group (system.bits wait.group) [])
  | .expiring wait =>
      (removeWaiter fuel system wait.group task).map fun system =>
        finishCall system task (.waitBits wait) wait.group 0 []

inductive EventAction
  | invoke (task : TaskId) (call : EventCall)
  | run (task : TaskId)
  /-- `event_group_set_bits_from_isr`. -/
  | interrupt (group : Nat) (bitsToSet : EventBits)
  | tick
  | pendsv
  deriving DecidableEq, Repr

/-- The current task is the one that executes. -/
def EventSystem.dispatch (system : EventSystem) (task : TaskId) : EventSystem :=
  { system with kernel := { system.kernel with currentTask := some task } }

/-- One step of the system, with the events it causes. -/
def execEvent (fuel : Nat) (system : EventSystem) :
    EventAction → Option (EventSystem × List GroupEvent)
  | .invoke task call =>
      if system.pc task = .idle then
        some ((system.dispatch task).setPc task (.calling call), [])
      else none
  | .run task => runWaiter fuel (system.dispatch task) task
  | .interrupt group bitsToSet =>
      (eventGroupSetBits fuel system group bitsToSet).map fun (after, events) =>
        (after, .setFromIsr (system.bits group)
          ((system.groups group).blockedTasks ≠ none) :: events)
  | .tick =>
      (schedulerTickHandler fuel system.kernel).map fun kernel =>
        ({ system with kernel := kernel }, [])
  | .pendsv =>
      (pendsvHandler fuel system.kernel).map fun kernel =>
        ({ system with kernel := kernel }, [])

/-- Groups without waiters in an arbitrary kernel, with no task inside a
call. -/
structure EventSystem.Initial (system : EventSystem) : Prop where
  idle : ∀ task, system.pc task = .idle
  unwaited : ∀ group, (system.groups group).blockedTasks = none

end Rtos

end MiniIotRobotEdge

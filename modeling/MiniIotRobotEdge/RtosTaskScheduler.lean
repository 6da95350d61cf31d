import Mathlib.Algebra.Group.Nat.Defs
import Mathlib.Data.Finset.Erase
import Mathlib.Data.Finset.Insert
import MiniIotRobotEdge.PointerRing

/-!
# The mini-rtos task scheduler

The model of `task_scheduler.c`.  Task control blocks live at addresses; the
kernel keeps one circular list of them for every priority, linked through
`next` and `prev`, and a pointer to the task that runs.  Functions of the
source that can only loop around a ring take fuel and return `none` when it is
exhausted; `none` also stands for a null pointer that the source would
dereference.  Critical sections are single steps of this model, and the PendSV
trigger has no effect of its own: `pendsvHandler` may run at any time.
-/

namespace MiniIotRobotEdge

namespace Rtos

/-- Counters of type `uint32_t` wrap around at this value. -/
def uint32Size : Nat := 2 ^ 32

/-- A task is named by the address of its control block. -/
abbrev TaskId := Nat

def taskPriorityHighest : Nat := 32
def taskPriorityLowest : Nat := 4
def taskPriorityIdle : Nat := 0
def taskPriorityMax : Nat := taskPriorityHighest + 1

/-- The address of the static `idle_task_tcb`, which no allocation returns. -/
def idleTaskTcb : TaskId := 0

inductive TaskState
  | ready
  | running
  | blocked
  | suspended
  | deleted
  deriving DecidableEq, Repr

/-- What the `void *` field `block_obj` points to. -/
inductive SyncObject
  | semaphore (object : Nat)
  | queue (object : Nat)
  | mutex (object : Nat)
  | rwlock (object : Nat)
  /-- The `event_wait_info_t` on the stack of a task inside
  `event_group_wait_bits`. -/
  | eventWaitInfo (owner : Nat)
  deriving DecidableEq, Repr

/-- The scheduling fields of `struct tcb`; the defaults are those of the
zeroed block. -/
structure Tcb where
  priority : Nat := 0
  basePriority : Nat := 0
  state : TaskState := .ready
  timeSlice : Nat := 0
  runtimeTicks : Nat := 0
  ticksRemaining : Nat := 0
  blockObj : Option SyncObject := none
  blockNext : Option TaskId := none
  next : TaskId := 0
  prev : TaskId := 0
  deriving DecidableEq, Repr

/-- The static variables of the scheduler.  `live` records which control
blocks are allocated. -/
structure Kernel where
  tcb : TaskId → Tcb
  live : Finset TaskId
  taskList : Nat → Option TaskId
  currentTask : Option TaskId
  tickCount : Nat
  schedulerRunning : Bool
  contextSwitchPending : Bool

namespace Kernel

/-- Assign fields of one control block. -/
def modify (kernel : Kernel) (task : TaskId) (change : Tcb → Tcb) : Kernel :=
  { kernel with tcb := Function.update kernel.tcb task (change (kernel.tcb task)) }

def setList (kernel : Kernel) (priority : Nat) (head : Option TaskId) : Kernel :=
  { kernel with taskList := Function.update kernel.taskList priority head }

def next (kernel : Kernel) (task : TaskId) : TaskId := (kernel.tcb task).next

def prev (kernel : Kernel) (task : TaskId) : TaskId := (kernel.tcb task).prev

section Updates

variable (kernel : Kernel) (task other : TaskId) (change : Tcb → Tcb)
  (priority : Nat) (head : Option TaskId)

theorem tcb_modify : (kernel.modify task change).tcb other =
    if other = task then change (kernel.tcb task) else kernel.tcb other := by
  simp [modify, Function.update_apply]

@[simp] theorem tcb_modify_self :
    (kernel.modify task change).tcb task = change (kernel.tcb task) := by
  simp [tcb_modify]

@[simp] theorem live_modify : (kernel.modify task change).live = kernel.live := rfl

@[simp] theorem taskList_modify :
    (kernel.modify task change).taskList = kernel.taskList := rfl

@[simp] theorem currentTask_modify :
    (kernel.modify task change).currentTask = kernel.currentTask := rfl

@[simp] theorem tickCount_modify :
    (kernel.modify task change).tickCount = kernel.tickCount := rfl

@[simp] theorem schedulerRunning_modify :
    (kernel.modify task change).schedulerRunning = kernel.schedulerRunning := rfl

@[simp] theorem tcb_setList : (kernel.setList priority head).tcb = kernel.tcb := rfl

@[simp] theorem live_setList : (kernel.setList priority head).live = kernel.live := rfl

@[simp] theorem currentTask_setList :
    (kernel.setList priority head).currentTask = kernel.currentTask := rfl

@[simp] theorem tickCount_setList :
    (kernel.setList priority head).tickCount = kernel.tickCount := rfl

@[simp] theorem schedulerRunning_setList :
    (kernel.setList priority head).schedulerRunning = kernel.schedulerRunning := rfl

theorem taskList_setList (index : Nat) :
    (kernel.setList priority head).taskList index =
      if index = priority then head else kernel.taskList index := by
  simp [setList, Function.update_apply]

end Updates

end Kernel

/-- The insertion in front of the list head, as `task_create` and
`task_resume` write it. -/
def linkTail (kernel : Kernel) (priority : Nat) (task : TaskId) : Kernel :=
  match kernel.taskList priority with
  | none =>
      (kernel.setList priority (some task)).modify task fun tcb =>
        { tcb with next := task, prev := task }
  | some head =>
      let kernel := kernel.modify task fun tcb =>
        { tcb with next := head, prev := kernel.prev head }
      let kernel := kernel.modify (kernel.prev head) fun tcb =>
        { tcb with next := task }
      kernel.modify head fun tcb => { tcb with prev := task }

/-- `task->prev->next = task->next; task->next->prev = task->prev;` -/
def joinNeighbours (kernel : Kernel) (task : TaskId) : Kernel :=
  let kernel := kernel.modify (kernel.prev task) fun tcb =>
    { tcb with next := kernel.next task }
  kernel.modify (kernel.next task) fun tcb =>
    { tcb with prev := kernel.prev task }

/-- `task_create`; `allocated` is the control block that the heap hands out,
or `none` when one of the two allocations fails. -/
def taskCreate (kernel : Kernel) (allocated : Option TaskId)
    (priority : Nat) : Kernel :=
  match allocated with
  | none => kernel
  | some task =>
      let priority :=
        if taskPriorityMax ≤ priority then taskPriorityLowest else priority
      let tcb : Tcb :=
        { priority := priority, basePriority := priority, state := .ready,
          timeSlice := 10, runtimeTicks := 0 }
      linkTail
        { kernel with
          live := insert task kernel.live
          tcb := Function.update kernel.tcb task tcb }
        priority task

/-- The statics before any call, with arbitrary memory contents. -/
def Kernel.boot (memory : TaskId → Tcb) : Kernel where
  tcb := memory
  live := ∅
  taskList := fun _ => none
  currentTask := none
  tickCount := 0
  schedulerRunning := false
  contextSwitchPending := false

/-- `scheduler_init`, where `idle` is the block allocated for the idle
task. -/
def schedulerInit (kernel : Kernel) (idle : Option TaskId) : Kernel :=
  taskCreate
    { kernel with
      taskList := fun _ => none
      tickCount := 0
      schedulerRunning := false
      contextSwitchPending := false }
    idle taskPriorityIdle

def taskDelete (kernel : Kernel) (task : TaskId) : Kernel :=
  if task = idleTaskTcb then kernel
  else
    let priority := (kernel.tcb task).priority
    let kernel :=
      if kernel.next task = task then kernel.setList priority none
      else
        let kernel :=
          if kernel.taskList priority = some task then
            kernel.setList priority (some (kernel.next task))
          else kernel
        joinNeighbours kernel task
    let kernel :=
      if kernel.currentTask = some task then
        { kernel with currentTask := none, contextSwitchPending := true }
      else kernel
    { kernel with live := kernel.live.erase task }

def taskSuspend (kernel : Kernel) (task : TaskId) : Kernel :=
  if (kernel.tcb task).state = .suspended then kernel
  else
    let kernel := kernel.modify task fun tcb => { tcb with state := .suspended }
    let priority := (kernel.tcb task).priority
    let kernel :=
      if kernel.taskList priority = some task then
        if kernel.next task = task then kernel.setList priority none
        else
          joinNeighbours
            (kernel.setList priority (some (kernel.next task))) task
      else joinNeighbours kernel task
    if kernel.currentTask = some task then
      { kernel with contextSwitchPending := true }
    else kernel

def taskResume (kernel : Kernel) (task : TaskId) : Kernel :=
  if (kernel.tcb task).state = .suspended then
    let kernel := kernel.modify task fun tcb => { tcb with state := .ready }
    let kernel := linkTail kernel (kernel.tcb task).priority task
    match kernel.currentTask with
    | none => kernel
    | some current =>
        if (kernel.tcb current).priority < (kernel.tcb task).priority then
          { kernel with contextSwitchPending := true }
        else kernel
  else kernel

/-- `task_delay`, which only ever delays the current task. -/
def taskDelay (kernel : Kernel) (ticks : Nat) : Option Kernel :=
  if ticks = 0 then some kernel
  else
    match kernel.currentTask with
    | none => none
    | some current =>
        let kernel := kernel.modify current fun tcb =>
          { tcb with ticksRemaining := ticks, state := .blocked }
        let priority := (kernel.tcb current).priority
        let kernel :=
          if kernel.taskList priority = some current then
            if kernel.next current = current then kernel.setList priority none
            else
              joinNeighbours
                (kernel.setList priority (some (kernel.next current))) current
          else kernel
        some { kernel with contextSwitchPending := true }

def taskYield (kernel : Kernel) : Kernel :=
  { kernel with contextSwitchPending := true }

/-- The test of `find_next_task` on one candidate of the ring at `head`. -/
def Selectable (kernel : Kernel) (head candidate : TaskId) : Prop :=
  (kernel.tcb candidate).state = .ready ∧
    ((kernel.tcb candidate).runtimeTicks < (kernel.tcb candidate).timeSlice ∨
      head = candidate)

instance (kernel : Kernel) (head candidate : TaskId) :
    Decidable (Selectable kernel head candidate) :=
  inferInstanceAs (Decidable (_ ∧ (_ ∨ _)))

/-- The do-while loop of `find_next_task` over one ring. -/
def scanRing (fuel : Nat) (kernel : Kernel) (head : TaskId) :
    Option (Kernel ⊕ TaskId) :=
  PointerRing.loop Kernel.next
    (fun kernel candidate =>
      if Selectable kernel head candidate then .inr candidate else .inl kernel)
    head fuel kernel head

/-- The loop of `find_next_task` from `prio` down to the idle priority. -/
def findNextTaskFrom (fuel : Nat) (kernel : Kernel) :
    Nat → Option (Option TaskId × Kernel)
  | 0 => some (kernel.taskList taskPriorityIdle, kernel)
  | prio + 1 =>
      match kernel.taskList (prio + 1) with
      | none => findNextTaskFrom fuel kernel prio
      | some head =>
          match scanRing fuel kernel head with
          | none => none
          | some (.inr candidate) =>
              some (some candidate,
                kernel.setList (prio + 1) (some (kernel.next candidate)))
          | some (.inl _) =>
              some (some head, kernel.setList (prio + 1) (some head))

def findNextTask (fuel : Nat) (kernel : Kernel) :
    Option (Option TaskId × Kernel) :=
  findNextTaskFrom fuel kernel taskPriorityHighest

/-- `scheduler_start`; `port_start_first_task` is the host stub, which sets
the tick counter to one. -/
def schedulerStart (fuel : Nat) (kernel : Kernel) : Option Kernel :=
  match findNextTask fuel kernel with
  | none => none
  | some (found, kernel) =>
      match found.or (kernel.taskList taskPriorityIdle) with
      | none => none
      | some current =>
          let kernel := { kernel with currentTask := some current }
          let kernel := kernel.modify current fun tcb =>
            { tcb with state := .running }
          some { kernel with schedulerRunning := true, tickCount := 1 }

/-- One task's share of the first loop of `scheduler_tick_handler`. -/
def tickTcb (tcb : Tcb) : Tcb :=
  if tcb.state = .blocked ∧ 0 < tcb.ticksRemaining then
    if tcb.ticksRemaining - 1 = 0 then
      { tcb with ticksRemaining := 0, state := .ready, blockObj := none }
    else { tcb with ticksRemaining := tcb.ticksRemaining - 1 }
  else tcb

/-- The first loop of `scheduler_tick_handler`: count down the delayed tasks
on the rings of priorities `0` to `count - 1`, in this order. -/
def tickRings (fuel : Nat) (kernel : Kernel) : Nat → Option Kernel
  | 0 => some kernel
  | prio + 1 =>
      match tickRings fuel kernel prio with
      | none => none
      | some kernel =>
          match kernel.taskList prio with
          | none => some kernel
          | some head =>
              match PointerRing.loop Kernel.next
                (fun kernel task =>
                  (.inl (kernel.modify task tickTcb) : Kernel ⊕ Empty))
                head fuel kernel head with
              | none => none
              | some (.inl kernel) => some kernel
              | some (.inr result) => result.elim

/-- The inner loop of the preemption test: look for a ready task above the
current one. -/
def preemptRing (fuel : Nat) (kernel : Kernel) (current : Option TaskId)
    (head : TaskId) : Option (Kernel ⊕ Option TaskId) :=
  PointerRing.loop Kernel.next
    (fun kernel task =>
      if (kernel.tcb task).state = .ready ∧ some task ≠ current then
        match current with
        | none => .inr none
        | some running =>
            if (kernel.tcb running).priority < (kernel.tcb task).priority then
              .inr (some task)
            else .inl kernel
      else .inl kernel)
    head fuel kernel head

/-- The second loop of `scheduler_tick_handler`.  A ready task found while
`current_task` is null would be compared with it, hence `none`. -/
def preemptRings (fuel : Nat) (kernel : Kernel) : Nat → Option Kernel
  | 0 => some kernel
  | prio + 1 =>
      match kernel.taskList (prio + 1) with
      | none => preemptRings fuel kernel prio
      | some head =>
          match preemptRing fuel kernel kernel.currentTask head with
          | none => none
          | some (.inr none) => none
          | some (.inr (some _)) =>
              some { kernel with contextSwitchPending := true }
          | some (.inl _) =>
              if kernel.contextSwitchPending then some kernel
              else preemptRings fuel kernel prio

def schedulerTickHandler (fuel : Nat) (kernel : Kernel) : Option Kernel :=
  if kernel.schedulerRunning then
    let kernel :=
      { kernel with tickCount := (kernel.tickCount + 1) % uint32Size }
    let kernel :=
      match kernel.currentTask with
      | none => kernel
      | some current => kernel.modify current fun tcb =>
          { tcb with runtimeTicks := (tcb.runtimeTicks + 1) % uint32Size }
    match tickRings fuel kernel taskPriorityMax with
    | none => none
    | some kernel => preemptRings fuel kernel taskPriorityHighest
  else some kernel

/-- `pendsv_handler`; the outgoing task's state is not written. -/
def pendsvHandler (fuel : Nat) (kernel : Kernel) : Option Kernel :=
  match findNextTask fuel kernel with
  | none => none
  | some (none, kernel) => some kernel
  | some (some nextTask, kernel) =>
      let kernel := kernel.modify nextTask fun tcb =>
        { tcb with runtimeTicks := 0, state := .running }
      some { kernel with currentTask := some nextTask }

end Rtos

end MiniIotRobotEdge

import MiniIotRobotEdge.RtosTickHandler
import Mathlib.Logic.Relation

/-!
# The ready rings of the scheduler

`Rings` relates a kernel to the lists of tasks on its rings, one for every
priority.  The scheduler edits the rings in three ways: a task is linked in
front of the head, a task is unlinked, and the head is moved on.  Which tasks
are on the rings differs between the uses of the scheduler and is left to the
modules that reason about runs.
-/

namespace MiniIotRobotEdge

namespace Rtos

open PointerRing

/-- The calls of the scheduler interface, and the handlers. -/
inductive SchedulerOp
  | create (allocated : TaskId) (priority : Nat)
  | delete (task : TaskId)
  | suspend (task : TaskId)
  | resume (task : TaskId)
  | start
  | delay (ticks : Nat)
  | yield
  | tick
  | pendsv
  deriving DecidableEq, Repr

def execOp (fuel : Nat) (kernel : Kernel) : SchedulerOp → Option Kernel
  | .create allocated priority => some (taskCreate kernel (some allocated) priority)
  | .delete task => some (taskDelete kernel task)
  | .suspend task => some (taskSuspend kernel task)
  | .resume task => some (taskResume kernel task)
  | .start => schedulerStart fuel kernel
  | .delay ticks => taskDelay kernel ticks
  | .yield => some (taskYield kernel)
  | .tick => schedulerTickHandler fuel kernel
  | .pendsv => pendsvHandler fuel kernel

/-- One call under a condition on the state before it. -/
def Kernel.Step (allowed : Kernel → SchedulerOp → Prop) (before after : Kernel) : Prop :=
  ∃ fuel op, allowed before op ∧ execOp fuel before op = some after

/-- The states of all runs whose calls are allowed. -/
def Kernel.Reachable (allowed : Kernel → SchedulerOp → Prop) (initial current : Kernel) :
    Prop :=
  Relation.ReflTransGen (Kernel.Step allowed) initial current

/-- Execute a list of calls, each under a decidable guard. -/
def Kernel.execAll (guard : Kernel → SchedulerOp → Bool) (fuel : Nat) :
    List SchedulerOp → Kernel → Option Kernel
  | [], kernel => some kernel
  | op :: rest, kernel =>
      if guard kernel op then
        (execOp fuel kernel op).bind (Kernel.execAll guard fuel rest)
      else none

theorem Kernel.execAll_run {allowed : Kernel → SchedulerOp → Prop}
    {guard : Kernel → SchedulerOp → Bool}
    (sound : ∀ kernel op, guard kernel op = true → allowed kernel op)
    {fuel : Nat} {ops : List SchedulerOp} {first last : Kernel}
    (executed : Kernel.execAll guard fuel ops first = some last) :
    Kernel.Reachable allowed first last := by
  induction ops generalizing first with
  | nil =>
      obtain rfl : first = last := by simpa [execAll] using executed
      exact .refl
  | cons op rest ih =>
      rw [execAll] at executed
      split at executed
      case isFalse => simp at executed
      case isTrue guarded =>
        obtain ⟨second, stepped, remaining⟩ := Option.bind_eq_some_iff.mp executed
        exact .head ⟨fuel, op, sound _ _ guarded, stepped⟩ (ih remaining)

/-- A state with a decidable property that an executed list of calls
reaches. -/
theorem Kernel.exists_reachable {allowed : Kernel → SchedulerOp → Prop}
    {guard : Kernel → SchedulerOp → Bool}
    (sound : ∀ kernel op, guard kernel op = true → allowed kernel op)
    (fuel : Nat) (ops : List SchedulerOp) (initial : Kernel)
    (property : Kernel → Prop) [DecidablePred property]
    (passed : (Kernel.execAll guard fuel ops initial).any
      (fun current => decide (property current)) = true) :
    ∃ current, Kernel.Reachable allowed initial current ∧ property current := by
  obtain ⟨current, executed, holds⟩ := (Option.any_eq_true _ _).mp passed
  exact ⟨current, Kernel.execAll_run sound executed, by simpa using holds⟩

/-- The kernel after `scheduler_init`, with the idle task at `idle`. -/
def booted (memory : TaskId → Tcb) (idle : TaskId) : Kernel :=
  schedulerInit (.boot memory) (some idle)

/-- The lists of tasks on the rings of a kernel. -/
structure Rings (kernel : Kernel) (ring : Nat → List TaskId) : Prop where
  linked : ∀ prio, Ring kernel.next kernel.prev (kernel.taskList prio) (ring prio)
  priority : ∀ {prio task}, task ∈ ring prio → (kernel.tcb task).priority = prio
  live : ∀ {prio task}, task ∈ ring prio → task ∈ kernel.live

namespace Rings

variable {kernel after : Kernel} {ring : Nat → List TaskId} {task : TaskId} {prio : Nat}

theorem mem_unique (rings : Rings kernel ring) {first second : Nat}
    (onFirst : task ∈ ring first) (onSecond : task ∈ ring second) : first = second := by
  rw [← rings.priority onFirst, rings.priority onSecond]

/-- Rings only depend on the links, priorities and liveness of their tasks. -/
theorem congr (rings : Rings kernel ring) (lists : after.taskList = kernel.taskList)
    (kept : ∀ prio, ∀ task ∈ ring prio, after.next task = kernel.next task ∧
      after.prev task = kernel.prev task ∧
      (after.tcb task).priority = (kernel.tcb task).priority ∧ task ∈ after.live) :
    Rings after ring where
  linked := fun prio => by
    rw [lists]
    exact (rings.linked prio).congr (fun task isMember => (kept prio task isMember).1)
      (fun task isMember => (kept prio task isMember).2.1)
  priority := fun isMember => by
    rw [(kept _ _ isMember).2.2.1]
    exact rings.priority isMember
  live := fun isMember => (kept _ _ isMember).2.2.2

/-- Assigning fields other than the links and the priority. -/
theorem modify (rings : Rings kernel ring) (task : TaskId) {change : Tcb → Tcb}
    (kept : ∀ tcb, (change tcb).next = tcb.next ∧ (change tcb).prev = tcb.prev ∧
      (change tcb).priority = tcb.priority) :
    Rings (kernel.modify task change) ring := by
  refine rings.congr rfl fun prio other isMember => ⟨?_, ?_, ?_, rings.live isMember⟩
  · exact Kernel.field_modify Tcb.next kernel task (fun tcb => (kept tcb).1) other
  · exact Kernel.field_modify Tcb.prev kernel task (fun tcb => (kept tcb).2.1) other
  · exact Kernel.field_modify Tcb.priority kernel task (fun tcb => (kept tcb).2.2) other

/-- Changing one ring and its head, with the links of the other rings kept. -/
theorem update (rings : Rings kernel ring) {nodes : List TaskId}
    (lists : ∀ other, other ≠ prio → after.taskList other = kernel.taskList other)
    (changed : Ring after.next after.prev (after.taskList prio) nodes)
    (linksKept : ∀ other, other ≠ prio → ∀ task ∈ ring other,
      after.next task = kernel.next task ∧ after.prev task = kernel.prev task)
    (priorityKept : ∀ task, (after.tcb task).priority = (kernel.tcb task).priority)
    (member : ∀ task ∈ nodes, (kernel.tcb task).priority = prio ∧ task ∈ after.live)
    (liveKept : ∀ other, other ≠ prio → ∀ task ∈ ring other, task ∈ after.live) :
    Rings after (Function.update ring prio nodes) where
  linked := fun other => by
    by_cases same : other = prio
    · rw [same, Function.update_self]
      exact changed
    · rw [Function.update_of_ne same, lists other same]
      exact (rings.linked other).congr (fun task isMember => (linksKept other same task isMember).1)
        (fun task isMember => (linksKept other same task isMember).2)
  priority := fun {other task} isMember => by
    rw [priorityKept]
    by_cases same : other = prio
    · rw [same, Function.update_self] at isMember
      rw [(member task isMember).1, same]
    · rw [Function.update_of_ne same] at isMember
      exact rings.priority isMember
  live := fun {other task} isMember => by
    by_cases same : other = prio
    · rw [same, Function.update_self] at isMember
      exact (member task isMember).2
    · rw [Function.update_of_ne same] at isMember
      exact liveKept other same task isMember

end Rings

section Links

variable (kernel : Kernel) (task other : TaskId)

theorem next_joinNeighbours : (joinNeighbours kernel task).next other =
    if other = kernel.prev task then kernel.next task else kernel.next other := by
  simp only [joinNeighbours, Kernel.next, Kernel.prev, Kernel.tcb_modify]
  grind

theorem prev_joinNeighbours : (joinNeighbours kernel task).prev other =
    if other = kernel.next task then kernel.prev task else kernel.prev other := by
  simp only [joinNeighbours, Kernel.next, Kernel.prev, Kernel.tcb_modify]
  grind

@[simp] theorem taskList_joinNeighbours :
    (joinNeighbours kernel task).taskList = kernel.taskList := rfl

@[simp] theorem live_joinNeighbours : (joinNeighbours kernel task).live = kernel.live := rfl

@[simp] theorem currentTask_joinNeighbours :
    (joinNeighbours kernel task).currentTask = kernel.currentTask := rfl

@[simp] theorem schedulerRunning_joinNeighbours :
    (joinNeighbours kernel task).schedulerRunning = kernel.schedulerRunning := rfl

/-- The links after an insertion in front of `head`. -/
theorem next_linkTail {prio : Nat} {head : TaskId}
    (listed : kernel.taskList prio = some head) (headNe : head ≠ task)
    (lastNe : kernel.prev head ≠ task) :
    (linkTail kernel prio task).next other =
      if other = kernel.prev head then task
      else if other = task then head else kernel.next other := by
  simp only [linkTail, listed, Kernel.next, Kernel.prev, Kernel.tcb_modify] at *
  grind

theorem prev_linkTail {prio : Nat} {head : TaskId}
    (listed : kernel.taskList prio = some head) (headNe : head ≠ task)
    (lastNe : kernel.prev head ≠ task) :
    (linkTail kernel prio task).prev other =
      if other = head then task
      else if other = task then kernel.prev head else kernel.prev other := by
  simp only [linkTail, listed, Kernel.prev, Kernel.tcb_modify] at *
  grind

theorem linkTail_empty {prio : Nat} (empty : kernel.taskList prio = none) :
    linkTail kernel prio task = (kernel.setList prio (some task)).modify task fun tcb =>
      { tcb with next := task, prev := task } := by
  rw [linkTail, empty]

theorem taskList_linkTail (prio index : Nat) :
    (linkTail kernel prio task).taskList index =
      if index = prio then some ((kernel.taskList prio).getD task)
      else kernel.taskList index := by
  unfold linkTail
  split
  case h_1 empty => simp [Kernel.taskList_setList, empty]
  case h_2 head listed =>
    simp only [Kernel.taskList_modify]
    split
    case isTrue same => simp [same, listed]
    case isFalse => rfl

@[simp] theorem live_linkTail (prio : Nat) :
    (linkTail kernel prio task).live = kernel.live := by
  unfold linkTail
  split <;> rfl

@[simp] theorem currentTask_linkTail (prio : Nat) :
    (linkTail kernel prio task).currentTask = kernel.currentTask := by
  unfold linkTail
  split <;> rfl

@[simp] theorem schedulerRunning_linkTail (prio : Nat) :
    (linkTail kernel prio task).schedulerRunning = kernel.schedulerRunning := by
  unfold linkTail
  split <;> rfl

/-- Linking a task changes no field but the links. -/
theorem linkTail_field {Field : Type*} (field : Tcb → Field)
    (next : ∀ tcb task, field { tcb with next := task } = field tcb)
    (prev : ∀ tcb task, field { tcb with prev := task } = field tcb) (prio : Nat) :
    field ((linkTail kernel prio task).tcb other) = field (kernel.tcb other) := by
  have both : ∀ tcb first second,
      field { tcb with next := first, prev := second } = field tcb := by
    intro tcb first second
    rw [← prev tcb second, ← next]
  unfold linkTail
  split
  · rw [Kernel.field_modify field _ _ (fun tcb => both tcb _ _), Kernel.tcb_setList]
  · dsimp only
    rw [Kernel.field_modify field _ _ (fun tcb => prev tcb _),
      Kernel.field_modify field _ _ (fun tcb => next tcb _),
      Kernel.field_modify field _ _ (fun tcb => both tcb _ _)]

end Links

namespace Rings

variable {kernel : Kernel} {ring : Nat → List TaskId} {task : TaskId} {prio : Nat}

/-- Linking a live task that is on no ring. -/
theorem linkTail (rings : Rings kernel ring) (fresh : ∀ other, task ∉ ring other)
    (priority : (kernel.tcb task).priority = prio) (live : task ∈ kernel.live) :
    Rings (linkTail kernel prio task)
      (Function.update ring prio (ring prio ++ [task])) := by
  have old := rings.linked prio
  have member : ∀ other ∈ ring prio ++ [task],
      (kernel.tcb other).priority = prio ∧
        other ∈ (Rtos.linkTail kernel prio task).live := by
    intro other isMember
    rw [live_linkTail]
    rcases List.mem_append.mp isMember with onRing | isTask
    · exact ⟨rings.priority onRing, rings.live onRing⟩
    · rw [List.mem_singleton.mp isTask]
      exact ⟨priority, live⟩
  have others : ∀ other, other ≠ prio →
      (Rtos.linkTail kernel prio task).taskList other = kernel.taskList other :=
    fun other different => by rw [taskList_linkTail, if_neg different]
  have priorityKept : ∀ other, ((Rtos.linkTail kernel prio task).tcb other).priority =
      (kernel.tcb other).priority :=
    fun other => linkTail_field kernel task other Tcb.priority (fun _ _ => rfl)
      (fun _ _ => rfl) prio
  have liveKept : ∀ other, other ≠ prio → ∀ member ∈ ring other,
      member ∈ (Rtos.linkTail kernel prio task).live := by
    intro other _ member onRing
    rw [live_linkTail]
    exact rings.live onRing
  cases listed : kernel.taskList prio with
  | none =>
      rw [listed] at old
      have empty : ring prio = [] := old.eq_nil_iff.mpr rfl
      apply rings.update others _ _ priorityKept member liveKept
      · rw [taskList_linkTail, if_pos rfl, listed, empty]
        refine Ring.singleton ?_ ?_ <;>
          simp [linkTail_empty kernel task listed, Kernel.next, Kernel.prev]
      · intro other _ member onRing
        have memberNe : member ≠ task := by
          rintro rfl
          exact fresh other onRing
        simp [linkTail_empty kernel task listed, Kernel.next, Kernel.prev, Kernel.tcb_modify,
          memberNe]
  | some head =>
      rw [listed] at old
      have headMem := old.head_mem
      have headNe : head ≠ task := fun same => fresh prio (same ▸ headMem)
      have lastNe : kernel.prev head ≠ task := fun same =>
        fresh prio (same ▸ old.prev_mem headMem)
      apply rings.update others _ _ priorityKept member liveKept
      · rw [taskList_linkTail, if_pos rfl, listed]
        apply old.insertLast (fresh prio)
        · rw [next_linkTail kernel task task listed headNe lastNe, if_neg (Ne.symm lastNe),
            if_pos rfl]
        · rw [next_linkTail kernel task _ listed headNe lastNe, if_pos rfl]
        · rw [prev_linkTail kernel task task listed headNe lastNe, if_neg (Ne.symm headNe),
            if_pos rfl]
        · rw [prev_linkTail kernel task _ listed headNe lastNe, if_pos rfl]
        · intro other onRing otherNe
          have memberNe : other ≠ task := fun same => fresh prio (same ▸ onRing)
          rw [next_linkTail kernel task _ listed headNe lastNe, if_neg otherNe,
            if_neg memberNe]
        · intro other onRing otherNe
          have memberNe : other ≠ task := fun same => fresh prio (same ▸ onRing)
          rw [prev_linkTail kernel task _ listed headNe lastNe, if_neg otherNe,
            if_neg memberNe]
      · intro other different member onRing
        have memberNe : member ≠ task := fun same => fresh other (same ▸ onRing)
        have notHead : member ≠ head := by
          rintro rfl
          exact different (rings.mem_unique onRing headMem)
        have notLast : member ≠ kernel.prev head := by
          rintro rfl
          exact different (rings.mem_unique onRing (old.prev_mem headMem))
        rw [next_linkTail kernel task _ listed headNe lastNe,
          prev_linkTail kernel task _ listed headNe lastNe, if_neg notLast, if_neg memberNe,
          if_neg notHead, if_neg memberNe]
        exact ⟨rfl, rfl⟩

/-- The head of a ring may be any of its tasks. -/
theorem setList (rings : Rings kernel ring) {head : TaskId} (onRing : head ∈ ring prio) :
    ∃ count, ((ring prio).rotate count).head? = some head ∧
      Rings (kernel.setList prio (some head))
        (Function.update ring prio ((ring prio).rotate count)) := by
  obtain ⟨before, rest, split⟩ := List.append_of_mem onRing
  have turned : (ring prio).rotate before.length = head :: (rest ++ before) := by
    rw [split, List.rotate_append_length_eq, List.cons_append]
  refine ⟨before.length, by rw [turned, List.head?_cons], ?_⟩
  apply rings.update
  · intro other different
    rw [Kernel.taskList_setList, if_neg different]
  · have rotated := (rings.linked prio).rotate before.length
    rw [Kernel.taskList_setList, if_pos rfl]
    rw [turned, List.head?_cons, ← turned] at rotated
    exact rotated
  · exact fun _ _ _ _ => ⟨rfl, rfl⟩
  · exact fun _ => rfl
  · intro member isMember
    have onOld := List.mem_rotate.mp isMember
    exact ⟨rings.priority onOld, rings.live onOld⟩
  · exact fun _ _ _ onOther => rings.live onOther

end Rings

/-- Unlink a task of a ring, as `task_delete` writes it. -/
def unlinkTask (kernel : Kernel) (prio : Nat) (task : TaskId) : Kernel :=
  if kernel.next task = task then kernel.setList prio none
  else
    joinNeighbours
      (if kernel.taskList prio = some task then
        kernel.setList prio (some (kernel.next task))
      else kernel) task

section Unlink

variable (kernel : Kernel) (prio : Nat) (task : TaskId)

@[simp] theorem live_unlinkTask : (unlinkTask kernel prio task).live = kernel.live := by
  unfold unlinkTask
  split
  · rfl
  · rw [live_joinNeighbours]
    split <;> rfl

@[simp] theorem currentTask_unlinkTask :
    (unlinkTask kernel prio task).currentTask = kernel.currentTask := by
  unfold unlinkTask
  split
  · rfl
  · rw [currentTask_joinNeighbours]
    split <;> rfl

@[simp] theorem schedulerRunning_unlinkTask :
    (unlinkTask kernel prio task).schedulerRunning = kernel.schedulerRunning := by
  unfold unlinkTask
  split
  · rfl
  · rw [schedulerRunning_joinNeighbours]
    split <;> rfl

theorem unlinkTask_field {Field : Type*} (field : Tcb → Field)
    (next : ∀ tcb task, field { tcb with next := task } = field tcb)
    (prev : ∀ tcb task, field { tcb with prev := task } = field tcb) (other : TaskId) :
    field ((unlinkTask kernel prio task).tcb other) = field (kernel.tcb other) := by
  unfold unlinkTask
  split
  · rfl
  · rw [joinNeighbours_field next prev]
    split <;> rfl

section Joined

variable (more : kernel.next task ≠ task)

include more

theorem next_unlinkTask (other : TaskId) : (unlinkTask kernel prio task).next other =
    if other = kernel.prev task then kernel.next task else kernel.next other := by
  rw [unlinkTask, if_neg more, next_joinNeighbours]
  split <;> rfl

theorem prev_unlinkTask (other : TaskId) : (unlinkTask kernel prio task).prev other =
    if other = kernel.next task then kernel.prev task else kernel.prev other := by
  rw [unlinkTask, if_neg more, prev_joinNeighbours]
  split <;> rfl

theorem taskList_unlinkTask (other : Nat) : (unlinkTask kernel prio task).taskList other =
    if other = prio then
      if kernel.taskList prio = some task then some (kernel.next task)
      else kernel.taskList prio
    else kernel.taskList other := by
  rw [unlinkTask, if_neg more, taskList_joinNeighbours]
  split
  · rw [Kernel.taskList_setList]
  · split
    case isTrue same => rw [same]
    case isFalse => rfl

end Joined

/-- `task_suspend` and `task_delay` test the head before the length of the
ring, which makes no difference for a task on it. -/
theorem unlinkTask_of_ring {kernel : Kernel} {prio : Nat} {task : TaskId}
    {nodes : List TaskId}
    (ring : Ring kernel.next kernel.prev (kernel.taskList prio) nodes)
    (onRing : task ∈ nodes) :
    (if kernel.taskList prio = some task then
      if kernel.next task = task then kernel.setList prio none
      else joinNeighbours (kernel.setList prio (some (kernel.next task))) task
    else joinNeighbours kernel task) = unlinkTask kernel prio task := by
  unfold unlinkTask
  split
  · rfl
  · rename_i notHead
    have more : kernel.next task ≠ task := by
      intro alone
      have single := (ring.next_eq_self_iff onRing).mp alone
      exact notHead (by rw [ring.head_eq, single, List.head?_cons])
    rw [if_neg more]

end Unlink

/-- Unlinking a task of a ring. -/
theorem Rings.unlinkTask {kernel : Kernel} {ring : Nat → List TaskId} {task : TaskId}
    {prio : Nat} (rings : Rings kernel ring) (onRing : task ∈ ring prio) :
    Rings (unlinkTask kernel prio task)
      (Function.update ring prio ((ring prio).erase task)) := by
  have old := rings.linked prio
  have priorityKept : ∀ other, ((Rtos.unlinkTask kernel prio task).tcb other).priority =
      (kernel.tcb other).priority :=
    unlinkTask_field kernel prio task Tcb.priority (fun _ _ => rfl) (fun _ _ => rfl)
  have member : ∀ other ∈ (ring prio).erase task, (kernel.tcb other).priority = prio ∧
      other ∈ (Rtos.unlinkTask kernel prio task).live := by
    intro other isMember
    have onOld := List.mem_of_mem_erase isMember
    rw [live_unlinkTask]
    exact ⟨rings.priority onOld, rings.live onOld⟩
  have liveKept : ∀ other, other ≠ prio → ∀ member ∈ ring other,
      member ∈ (Rtos.unlinkTask kernel prio task).live := by
    intro other _ member onOther
    rw [live_unlinkTask]
    exact rings.live onOther
  by_cases alone : kernel.next task = task
  · have single := (old.next_eq_self_iff onRing).mp alone
    have cleared : Rtos.unlinkTask kernel prio task = kernel.setList prio none := by
      rw [Rtos.unlinkTask, if_pos alone]
    apply rings.update _ _ _ priorityKept member liveKept
    · intro other different
      rw [cleared, Kernel.taskList_setList, if_neg different]
    · rw [cleared, Kernel.taskList_setList, if_pos rfl, single, List.erase_cons_head]
      exact Ring.nil _ _
    · intro other _ member _
      rw [cleared]
      exact ⟨rfl, rfl⟩
  · apply rings.update _ _ _ priorityKept member liveKept
    · intro other different
      rw [taskList_unlinkTask kernel prio task alone, if_neg different]
    · rw [taskList_unlinkTask kernel prio task alone, if_pos rfl]
      apply old.unlink onRing alone
      · rw [next_unlinkTask kernel prio task alone, if_pos rfl]
      · rw [prev_unlinkTask kernel prio task alone, if_pos rfl]
      · intro other _ _ notPrev
        rw [next_unlinkTask kernel prio task alone, if_neg notPrev]
      · intro other _ _ notNext
        rw [prev_unlinkTask kernel prio task alone, if_neg notNext]
    · intro other different member onOther
      have notPrev : member ≠ kernel.prev task := by
        rintro rfl
        exact different (rings.mem_unique onOther (old.prev_mem onRing))
      have notNext : member ≠ kernel.next task := by
        rintro rfl
        exact different (rings.mem_unique onOther (old.next_mem onRing))
      rw [next_unlinkTask kernel prio task alone, prev_unlinkTask kernel prio task alone,
        if_neg notPrev, if_neg notNext]
      exact ⟨rfl, rfl⟩

end Rtos

end MiniIotRobotEdge

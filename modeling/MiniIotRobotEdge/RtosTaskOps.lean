import MiniIotRobotEdge.RtosSelection

/-!
# Creating, deleting, suspending and resuming tasks

Each of these calls edits one ready ring.  `task_delete` unlinks its task
through the task's own links, also when the task is suspended and has been
unlinked before; the stale links then decide which ring is damaged.
-/

namespace MiniIotRobotEdge

namespace Rtos

open PointerRing Relation

/-- The priority that `task_create` uses for a requested one. -/
def effectivePriority (priority : Nat) : Nat :=
  if taskPriorityMax ≤ priority then taskPriorityLowest else priority

section Blocks

variable (kernel : Kernel) (task other : TaskId)

/-- The control block that `task_create` links. -/
def freshTcb (priority : Nat) : Tcb :=
  { priority := priority, basePriority := priority, state := .ready, timeSlice := 10,
    runtimeTicks := 0 }

theorem taskCreate_eq (priority : Nat) :
    taskCreate kernel (some task) priority =
      linkTail
        { kernel with
          live := insert task kernel.live
          tcb := Function.update kernel.tcb task (freshTcb (effectivePriority priority)) }
        (effectivePriority priority) task := rfl

/-- `task_create` writes the new block and the links of others. -/
theorem taskCreate_field {Field : Type*} (field : Tcb → Field)
    (next : ∀ tcb task, field { tcb with next := task } = field tcb)
    (prev : ∀ tcb task, field { tcb with prev := task } = field tcb) (priority : Nat) :
    field ((taskCreate kernel (some task) priority).tcb other) =
      if other = task then field (freshTcb (effectivePriority priority))
      else field (kernel.tcb other) := by
  rw [taskCreate_eq, linkTail_field _ _ _ field next prev]
  dsimp only
  rw [Function.update_apply]
  split <;> rfl

@[simp] theorem live_taskCreate (priority : Nat) :
    (taskCreate kernel (some task) priority).live = insert task kernel.live := by
  rw [taskCreate_eq, live_linkTail]

@[simp] theorem currentTask_taskCreate (priority : Nat) :
    (taskCreate kernel (some task) priority).currentTask = kernel.currentTask := by
  rw [taskCreate_eq, currentTask_linkTail]

@[simp] theorem schedulerRunning_taskCreate (priority : Nat) :
    (taskCreate kernel (some task) priority).schedulerRunning = kernel.schedulerRunning := by
  rw [taskCreate_eq, schedulerRunning_linkTail]

/-- `task_delete` of a task that does not run. -/
theorem taskDelete_eq {kernel : Kernel} {task : TaskId} (notStatic : task ≠ idleTaskTcb)
    (notCurrent : kernel.currentTask ≠ some task) :
    taskDelete kernel task =
      { unlinkTask kernel (kernel.tcb task).priority task with
        live := kernel.live.erase task } := by
  have unlinked : (if kernel.next task = task then
        kernel.setList (kernel.tcb task).priority none
      else joinNeighbours
        (if kernel.taskList (kernel.tcb task).priority = some task then
          kernel.setList (kernel.tcb task).priority (some (kernel.next task))
        else kernel) task) = unlinkTask kernel (kernel.tcb task).priority task := rfl
  rw [taskDelete, if_neg notStatic]
  dsimp only
  rw [unlinked, if_neg (by rw [currentTask_unlinkTask]; exact notCurrent), live_unlinkTask]

end Blocks

/-- What `task_resume` does to a suspended task. -/
theorem taskResume_eq (kernel : Kernel) {task : TaskId}
    (asleep : (kernel.tcb task).state = .suspended) :
    ∃ pending, taskResume kernel task =
      { linkTail (kernel.modify task fun tcb => { tcb with state := .ready })
          (kernel.tcb task).priority task with contextSwitchPending := pending } := by
  rw [taskResume, if_pos asleep]
  dsimp only
  rw [Kernel.tcb_modify_self]
  split
  · exact ⟨_, rfl⟩
  · split
    · exact ⟨true, rfl⟩
    · exact ⟨_, rfl⟩

namespace Rings

variable {kernel : Kernel} {ring : Nat → List TaskId} {task : TaskId}

theorem taskCreate (rings : Rings kernel ring) (unused : task ∉ kernel.live)
    (priority : Nat) :
    Rings (taskCreate kernel (some task) priority)
      (Function.update ring (effectivePriority priority)
        (ring (effectivePriority priority) ++ [task])) := by
  have offRings : ∀ prio, task ∉ ring prio := fun prio onRing => unused (rings.live onRing)
  rw [taskCreate_eq]
  refine Rings.linkTail ?_ offRings ?_ ?_
  · refine rings.congr rfl fun prio other onRing => ?_
    have otherNe : other ≠ task := fun same => offRings prio (same ▸ onRing)
    have same : Function.update kernel.tcb task
        (freshTcb (effectivePriority priority)) other = kernel.tcb other :=
      Function.update_of_ne otherNe _ _
    simp only [Kernel.next, Kernel.prev, same]
    exact ⟨trivial, trivial, trivial, Finset.mem_insert_of_mem (rings.live onRing)⟩
  · simp [freshTcb]
  · simp

/-- What `task_suspend` does to a task on a ring. -/
theorem taskSuspend_eq (rings : Rings kernel ring) {prio : Nat} (onRing : task ∈ ring prio)
    (awake : (kernel.tcb task).state ≠ .suspended) :
    ∃ pending, taskSuspend kernel task =
      { Rtos.unlinkTask (kernel.modify task fun tcb => { tcb with state := .suspended })
          prio task with contextSwitchPending := pending } := by
  have marked : Rings (kernel.modify task fun tcb => { tcb with state := .suspended }) ring :=
    rings.modify task (by simp)
  have unlinked := unlinkTask_of_ring (marked.linked prio) onRing
  have priority : ((kernel.modify task fun tcb =>
      { tcb with state := .suspended }).tcb task).priority = prio :=
    marked.priority onRing
  rw [taskSuspend, if_neg awake]
  dsimp only
  rw [priority, unlinked]
  split
  · exact ⟨true, rfl⟩
  · exact ⟨_, rfl⟩

theorem taskSuspend (rings : Rings kernel ring) {prio : Nat} (onRing : task ∈ ring prio)
    (awake : (kernel.tcb task).state ≠ .suspended) :
    Rings (taskSuspend kernel task)
      (Function.update ring prio ((ring prio).erase task)) := by
  obtain ⟨pending, suspended⟩ := rings.taskSuspend_eq onRing awake
  have marked : Rings (kernel.modify task fun tcb => { tcb with state := .suspended }) ring :=
    rings.modify task (by simp)
  have unlinked := marked.unlinkTask onRing
  rw [suspended]
  exact unlinked.congr rfl fun _ _ isMember => ⟨rfl, rfl, rfl, unlinked.live isMember⟩

theorem taskResume (rings : Rings kernel ring) (offRings : ∀ prio, task ∉ ring prio)
    (asleep : (kernel.tcb task).state = .suspended) (live : task ∈ kernel.live) :
    Rings (taskResume kernel task)
      (Function.update ring (kernel.tcb task).priority
        (ring (kernel.tcb task).priority ++ [task])) := by
  obtain ⟨pending, resumed⟩ := taskResume_eq kernel asleep
  have marked : Rings (kernel.modify task fun tcb => { tcb with state := .ready }) ring :=
    rings.modify task (by simp)
  have samePriority : ((kernel.modify task fun tcb => { tcb with state := .ready }).tcb
      task).priority = (kernel.tcb task).priority := by simp
  have linked := marked.linkTail offRings samePriority live
  rw [resumed]
  exact linked.congr rfl fun _ _ isMember => ⟨rfl, rfl, rfl, linked.live isMember⟩

end Rings

/-- What `scheduler_start` does. -/
theorem schedulerStart_cases {kernel after : Kernel} {ring : Nat → List TaskId} {fuel : Nat}
    (rings : Rings kernel ring) (started : schedulerStart fuel kernel = some after) :
    ∃ current turned, Choice kernel ring taskPriorityHighest (some current) turned ∧
      after = { turned.modify current fun tcb => { tcb with state := .running } with
        currentTask := some current, schedulerRunning := true, tickCount := 1 } := by
  unfold schedulerStart at started
  split at started
  · simp at started
  · rename_i chosen turned found
    have choice := findNextTaskFrom_choice rings found
    split at started
    · simp at started
    · rename_i current either
      have isChosen : chosen = some current := by
        cases chosen with
        | some task => simpa using either
        | none =>
            obtain ⟨rfl, empty⟩ := choice.eq_none rfl
            simp [empty] at either
      obtain rfl := Option.some.inj started
      subst isChosen
      exact ⟨current, turned, choice, rfl⟩

/-- The rings hold the live tasks in the states that `linked` names, and no
suspended ones. -/
structure ReadyRings (linked : TaskState → Prop) (kernel : Kernel)
    (ring : Nat → List TaskId) : Prop where
  rings : Rings kernel ring
  complete : ∀ task ∈ kernel.live, linked (kernel.tcb task).state →
    task ∈ ring (kernel.tcb task).priority
  awake : ∀ {prio task}, task ∈ ring prio → (kernel.tcb task).state ≠ .suspended

/-- The calls on live tasks other than the current one, and the start of the
scheduler; a new task gets an unused block. -/
def LiveOp (kernel : Kernel) : SchedulerOp → Prop
  | .create allocated _ => allocated ∉ kernel.live
  | .delete task | .suspend task | .resume task =>
      task ∈ kernel.live ∧ kernel.currentTask ≠ some task
  | .start => True
  | _ => False

/-- The links that a suspended task has kept point nowhere on a ring, or
across the gap that it left. -/
structure StaleLinksHarmless (kernel : Kernel) (task : TaskId) : Prop where
  alone : kernel.next task = task → kernel.taskList (kernel.tcb task).priority = none
  live : kernel.next task ≠ task →
    kernel.prev task ∈ kernel.live ∧ kernel.next task ∈ kernel.live
  previous : kernel.next task ≠ task →
    (kernel.tcb (kernel.prev task)).state ≠ .suspended →
    kernel.next (kernel.prev task) = kernel.next task
  following : kernel.next task ≠ task →
    (kernel.tcb (kernel.next task)).state ≠ .suspended →
    kernel.prev (kernel.next task) = kernel.prev task

/-- A suspended task is deleted only while its old links do no harm. -/
def DeletesCleanly (kernel : Kernel) (op : SchedulerOp) : Prop :=
  LiveOp kernel op ∧ ∀ task, op = .delete task →
    (kernel.tcb task).state = .suspended → StaleLinksHarmless kernel task

namespace ReadyRings

variable {linked : TaskState → Prop} {kernel after : Kernel} {ring : Nat → List TaskId}
  {task : TaskId}

theorem offRings (ready : ReadyRings linked kernel ring)
    (asleep : (kernel.tcb task).state = .suspended) (prio : Nat) : task ∉ ring prio :=
  fun onRing => ready.awake onRing asleep

/-- Only the control blocks, their liveness and the heads matter. -/
theorem congr (ready : ReadyRings linked kernel ring) (tcb : after.tcb = kernel.tcb)
    (live : after.live = kernel.live) (lists : after.taskList = kernel.taskList) :
    ReadyRings linked after ring where
  rings := ready.rings.congr lists fun prio task onRing => by
    rw [Kernel.next, Kernel.prev, tcb, live]
    exact ⟨rfl, rfl, rfl, ready.rings.live onRing⟩
  complete := fun task isLive isLinked => by
    rw [tcb] at isLinked ⊢
    exact ready.complete task (live ▸ isLive) isLinked
  awake := fun onRing => by
    rw [tcb]
    exact ready.awake onRing

/-- A task is put on a ring, and all others keep their state and priority. -/
theorem append (ready : ReadyRings linked kernel ring) {prio : Nat}
    (rings : Rings after (Function.update ring prio (ring prio ++ [task])))
    (priority : ∀ other, other ≠ task →
      (after.tcb other).priority = (kernel.tcb other).priority)
    (state : ∀ other, other ≠ task → (after.tcb other).state = (kernel.tcb other).state)
    (liveBefore : ∀ other ∈ after.live, other ≠ task → other ∈ kernel.live)
    (awake : (after.tcb task).state ≠ .suspended) :
    ReadyRings linked after (Function.update ring prio (ring prio ++ [task])) where
  rings := rings
  complete := fun other isLive isLinked => by
    by_cases same : other = task
    · have onRing : task ∈ Function.update ring prio (ring prio ++ [task]) prio := by simp
      rw [same, rings.priority onRing]
      exact onRing
    · rw [state other same] at isLinked
      rw [priority other same]
      have onRing := ready.complete other (liveBefore other isLive same) isLinked
      rw [Function.update_apply]
      split
      case isTrue samePriority =>
        rw [samePriority] at onRing
        exact List.mem_append_left _ onRing
      case isFalse => exact onRing
  awake := fun {index other} onRing => by
    by_cases same : other = task
    · rw [same]
      exact awake
    · rw [state other same]
      rw [Function.update_apply] at onRing
      split at onRing
      · rcases List.mem_append.mp onRing with onOld | isNew
        · exact ready.awake onOld
        · exact absurd (List.mem_singleton.mp isNew) same
      · exact ready.awake onRing

theorem create (ready : ReadyRings linked kernel ring) (unused : task ∉ kernel.live)
    (priority : Nat) :
    ReadyRings linked (taskCreate kernel (some task) priority)
      (Function.update ring (effectivePriority priority)
        (ring (effectivePriority priority) ++ [task])) := by
  have field := fun other {Field : Type} (field : Tcb → Field) next prev =>
    taskCreate_field kernel task other field next prev priority
  apply ready.append (ready.rings.taskCreate unused priority)
  · intro other otherNe
    rw [field other Tcb.priority (fun _ _ => rfl) (fun _ _ => rfl), if_neg otherNe]
  · intro other otherNe
    rw [field other Tcb.state (fun _ _ => rfl) (fun _ _ => rfl), if_neg otherNe]
  · intro other isLive otherNe
    rw [live_taskCreate, Finset.mem_insert] at isLive
    exact isLive.resolve_left otherNe
  · rw [field task Tcb.state (fun _ _ => rfl) (fun _ _ => rfl), if_pos rfl]
    simp [freshTcb]

/-- Taking a task off its ring, when it is the only one whose state or
liveness changes. -/
theorem erase (ready : ReadyRings linked kernel ring) {prio : Nat} (onRing : task ∈ ring prio)
    (rings : Rings after (Function.update ring prio ((ring prio).erase task)))
    (priorityKept : ∀ other, (after.tcb other).priority = (kernel.tcb other).priority)
    (stateKept : ∀ other, other ≠ task → (after.tcb other).state = (kernel.tcb other).state)
    (liveBefore : ∀ other ∈ after.live, other ∈ kernel.live)
    (gone : task ∉ after.live ∨ ¬ linked (after.tcb task).state) :
    ReadyRings linked after (Function.update ring prio ((ring prio).erase task)) where
  rings := rings
  complete := fun other isLive isLinked => by
    have otherNe : other ≠ task := by
      rintro rfl
      rcases gone with dead | unlinked
      · exact dead isLive
      · exact unlinked isLinked
    rw [stateKept other otherNe] at isLinked
    have onOld := ready.complete other (liveBefore other isLive) isLinked
    rw [priorityKept, Function.update_apply]
    split
    case isTrue same =>
      rw [same] at onOld
      exact (List.mem_erase_of_ne otherNe).mpr onOld
    case isFalse => exact onOld
  awake := fun {index other} isMember => by
    have distinct := (ready.rings.linked prio).nodup
    have onOld : other ≠ task ∧ ∃ index, other ∈ ring index := by
      rw [Function.update_apply] at isMember
      split at isMember
      · obtain ⟨otherNe, onOld⟩ := distinct.mem_erase_iff.mp isMember
        exact ⟨otherNe, prio, onOld⟩
      case isFalse different =>
        refine ⟨?_, index, isMember⟩
        rintro rfl
        exact different (ready.rings.mem_unique isMember onRing)
    obtain ⟨otherNe, old, onOld⟩ := onOld
    rw [stateKept other otherNe]
    exact ready.awake onOld

/-- Suspending a task that is on its ring. -/
theorem suspend (ready : ReadyRings linked kernel ring) {prio : Nat}
    (onRing : task ∈ ring prio) (unlinked : ¬ linked .suspended) :
    ReadyRings linked (taskSuspend kernel task)
      (Function.update ring prio ((ring prio).erase task)) := by
  have awake := ready.awake onRing
  have rings := ready.rings.taskSuspend onRing awake
  obtain ⟨pending, suspended⟩ := ready.rings.taskSuspend_eq onRing awake
  apply ready.erase onRing rings _ _ _ (.inr _)
  · intro other
    rw [suspended]
    dsimp only
    rw [unlinkTask_field _ _ _ Tcb.priority (fun _ _ => rfl) (fun _ _ => rfl),
      Kernel.field_modify Tcb.priority _ _ (by simp)]
  · intro other otherNe
    rw [suspended]
    dsimp only
    rw [unlinkTask_field _ _ _ Tcb.state (fun _ _ => rfl) (fun _ _ => rfl),
      Kernel.tcb_modify, if_neg otherNe]
  · intro other isLive
    rw [suspended] at isLive
    simpa using isLive
  · rw [suspended]
    dsimp only
    rw [unlinkTask_field _ _ _ Tcb.state (fun _ _ => rfl) (fun _ _ => rfl),
      Kernel.tcb_modify_self]
    exact unlinked

/-- Resuming a suspended task. -/
theorem resume (ready : ReadyRings linked kernel ring) (live : task ∈ kernel.live)
    (asleep : (kernel.tcb task).state = .suspended) :
    ReadyRings linked (taskResume kernel task)
      (Function.update ring (kernel.tcb task).priority
        (ring (kernel.tcb task).priority ++ [task])) := by
  have rings := ready.rings.taskResume (ready.offRings asleep) asleep live
  obtain ⟨pending, resumed⟩ := taskResume_eq kernel asleep
  have state : ∀ other, ((taskResume kernel task).tcb other).state =
      if other = task then .ready else (kernel.tcb other).state := by
    intro other
    rw [resumed]
    dsimp only
    rw [linkTail_field _ _ _ Tcb.state (fun _ _ => rfl) (fun _ _ => rfl), Kernel.tcb_modify]
    split <;> rfl
  apply ready.append rings
  · intro other _
    rw [resumed]
    dsimp only
    rw [linkTail_field _ _ _ Tcb.priority (fun _ _ => rfl) (fun _ _ => rfl),
      Kernel.field_modify Tcb.priority _ _ (by simp)]
  · intro other otherNe
    rw [state, if_neg otherNe]
  · intro other isLive _
    rw [resumed] at isLive
    simpa using isLive
  · rw [state, if_pos rfl]
    simp

/-- Installing the task that the search has chosen. -/
theorem install {turned : Kernel} {limit : Nat} (ready : ReadyRings linked kernel ring)
    (choice : Choice kernel ring limit (some task) turned) (change : Tcb → Tcb)
    (kept : ∀ tcb, (change tcb).next = tcb.next ∧ (change tcb).prev = tcb.prev ∧
      (change tcb).priority = tcb.priority)
    (awake : ∀ tcb, (change tcb).state ≠ .suspended) :
    ∃ turnedRing, ReadyRings linked (turned.modify task change) turnedRing ∧
      ∀ prio other, other ∈ turnedRing prio ↔ other ∈ ring prio := by
  obtain ⟨turnedRing, rings, same⟩ := choice.rings ready.rings
  obtain ⟨prio, onRing⟩ := choice.mem_ring ready.rings rfl
  refine ⟨turnedRing, ⟨rings.modify task kept, ?_, ?_⟩, same⟩
  · intro other isLive isLinked
    rw [Kernel.live_modify, choice.live_eq] at isLive
    rw [Kernel.field_modify Tcb.priority _ _ (fun tcb => (kept tcb).2.2), choice.tcb_eq, same]
    by_cases isChosen : other = task
    · rw [isChosen, ready.rings.priority onRing]
      exact onRing
    · rw [Kernel.tcb_modify, if_neg isChosen, choice.tcb_eq] at isLinked
      exact ready.complete other isLive isLinked
  · intro index other isMember
    rw [Kernel.tcb_modify, choice.tcb_eq]
    split
    · exact awake _
    · exact ready.awake ((same index other).mp isMember)

theorem start {fuel : Nat} (ready : ReadyRings linked kernel ring)
    (started : schedulerStart fuel kernel = some after) :
    ∃ turnedRing, ReadyRings linked after turnedRing ∧
      ∀ prio other, other ∈ turnedRing prio ↔ other ∈ ring prio := by
  obtain ⟨current, turned, choice, rfl⟩ := schedulerStart_cases ready.rings started
  obtain ⟨turnedRing, installed, same⟩ :=
    ready.install choice (fun tcb => { tcb with state := .running }) (by simp) (by simp)
  exact ⟨turnedRing, installed.congr rfl rfl rfl, same⟩

/-- Deleting a task that is on its ring. -/
theorem delete (ready : ReadyRings linked kernel ring)
    (onRing : task ∈ ring (kernel.tcb task).priority) (notStatic : task ≠ idleTaskTcb)
    (notCurrent : kernel.currentTask ≠ some task) :
    ReadyRings linked (taskDelete kernel task)
      (Function.update ring (kernel.tcb task).priority
        ((ring (kernel.tcb task).priority).erase task)) := by
  have unlinked := ready.rings.unlinkTask onRing
  have distinct := (ready.rings.linked (kernel.tcb task).priority).nodup
  rw [taskDelete_eq notStatic notCurrent]
  refine ready.erase onRing (unlinked.congr rfl fun prio other isMember => ?_)
    ?_ ?_ ?_ (.inl ?_)
  · refine ⟨rfl, rfl, rfl, Finset.mem_erase.mpr ⟨?_, ?_⟩⟩
    · rw [Function.update_apply] at isMember
      split at isMember
      · exact (distinct.mem_erase_iff.mp isMember).1
      case isFalse different =>
        rintro rfl
        exact different (ready.rings.mem_unique isMember onRing)
    · simpa using unlinked.live isMember
  · exact unlinkTask_field _ _ _ Tcb.priority (fun _ _ => rfl) (fun _ _ => rfl)
  · exact fun other _ => unlinkTask_field _ _ _ Tcb.state (fun _ _ => rfl) (fun _ _ => rfl) other
  · exact fun other isLive => Finset.mem_of_mem_erase isLive
  · simp

/-- Deleting a suspended task whose stale links are harmless. -/
theorem delete_suspended (ready : ReadyRings linked kernel ring)
    (asleep : (kernel.tcb task).state = .suspended)
    (harmless : StaleLinksHarmless kernel task) (notStatic : task ≠ idleTaskTcb)
    (notCurrent : kernel.currentTask ≠ some task) :
    ReadyRings linked (taskDelete kernel task) ring := by
  have offRings := ready.offRings asleep
  have notHead : kernel.taskList (kernel.tcb task).priority ≠ some task := by
    intro isHead
    have linked := ready.rings.linked (kernel.tcb task).priority
    rw [isHead] at linked
    exact offRings _ linked.head_mem
  have lists : (unlinkTask kernel (kernel.tcb task).priority task).taskList =
      kernel.taskList := by
    unfold unlinkTask
    split
    case isTrue alone =>
      ext index
      rw [Kernel.taskList_setList]
      split
      case isTrue same => rw [same, harmless.alone alone]
      case isFalse => rfl
    case isFalse => rw [taskList_joinNeighbours]
  have links : ∀ prio, ∀ other ∈ ring prio,
      (unlinkTask kernel (kernel.tcb task).priority task).next other = kernel.next other ∧
      (unlinkTask kernel (kernel.tcb task).priority task).prev other = kernel.prev other := by
    intro prio other onRing
    have awake := ready.awake onRing
    unfold unlinkTask
    split
    case isTrue => exact ⟨rfl, rfl⟩
    case isFalse more =>
      rw [next_joinNeighbours, prev_joinNeighbours]
      constructor
      · split
        case isTrue same =>
          rw [same] at awake ⊢
          exact (harmless.previous more awake).symm
        case isFalse => rfl
      · split
        case isTrue same =>
          rw [same] at awake ⊢
          exact (harmless.following more awake).symm
        case isFalse => rfl
  rw [taskDelete_eq notStatic notCurrent]
  have state : ∀ other, ((unlinkTask kernel (kernel.tcb task).priority task).tcb other).state =
      (kernel.tcb other).state :=
    unlinkTask_field _ _ _ Tcb.state (fun _ _ => rfl) (fun _ _ => rfl)
  have priority : ∀ other,
      ((unlinkTask kernel (kernel.tcb task).priority task).tcb other).priority =
        (kernel.tcb other).priority :=
    unlinkTask_field _ _ _ Tcb.priority (fun _ _ => rfl) (fun _ _ => rfl)
  refine ⟨ready.rings.congr lists fun prio other onRing => ?_, ?_, ?_⟩
  · refine ⟨(links prio other onRing).1, (links prio other onRing).2, priority other, ?_⟩
    refine Finset.mem_erase.mpr ⟨?_, ready.rings.live onRing⟩
    rintro rfl
    exact offRings prio onRing
  · intro other isLive isLinked
    dsimp only at *
    rw [state] at isLinked
    rw [priority]
    exact ready.complete other (Finset.mem_of_mem_erase isLive) isLinked
  · intro prio other onRing
    dsimp only
    rw [state]
    exact ready.awake onRing

end ReadyRings

/-- Before any call all rings are empty. -/
theorem readyRings_boot (linked : TaskState → Prop) (memory : TaskId → Tcb) :
    ReadyRings linked (.boot memory) fun _ => [] :=
  ⟨⟨fun _ => Ring.nil _ _, by simp, by simp⟩, by simp [Kernel.boot], by simp⟩

/-- Every clean call keeps the rings. -/
theorem readyRings_step {kernel after : Kernel} {ring : Nat → List TaskId} {fuel : Nat}
    {op : SchedulerOp} (ready : ReadyRings (· ≠ .suspended) kernel ring)
    (allowed : DeletesCleanly kernel op) (executed : execOp fuel kernel op = some after) :
    ∃ ring, ReadyRings (· ≠ .suspended) after ring := by
  obtain ⟨allowed, clean⟩ := allowed
  cases op with
  | create allocated priority =>
      obtain rfl := Option.some.inj executed
      exact ⟨_, ready.create allowed priority⟩
  | suspend task =>
      obtain rfl := Option.some.inj executed
      by_cases asleep : (kernel.tcb task).state = .suspended
      · exact ⟨ring, by rwa [taskSuspend, if_pos asleep]⟩
      · exact ⟨_, ready.suspend (ready.complete task allowed.1 asleep) (by simp)⟩
  | resume task =>
      obtain rfl := Option.some.inj executed
      by_cases asleep : (kernel.tcb task).state = .suspended
      · exact ⟨_, ready.resume allowed.1 asleep⟩
      · exact ⟨ring, by rwa [taskResume, if_neg asleep]⟩
  | start =>
      obtain ⟨turnedRing, started, _⟩ := ready.start executed
      exact ⟨turnedRing, started⟩
  | delete task =>
      obtain rfl := Option.some.inj executed
      by_cases static : task = idleTaskTcb
      · exact ⟨ring, by rwa [taskDelete, if_pos static]⟩
      by_cases asleep : (kernel.tcb task).state = .suspended
      · exact ⟨ring, ready.delete_suspended asleep (clean task rfl asleep) static allowed.2⟩
      · exact ⟨_, ready.delete (ready.complete task allowed.1 asleep) static allowed.2⟩
  | delay | yield | tick | pendsv => exact allowed.elim

theorem readyRings_of_reachable {memory : TaskId → Tcb} {idle : TaskId} {current : Kernel}
    (run : Kernel.Reachable DeletesCleanly (booted memory idle) current) :
    ∃ ring, ReadyRings (· ≠ .suspended) current ring := by
  induction run with
  | refl => exact ⟨_, (readyRings_boot _ memory).create (by simp [Kernel.boot]) taskPriorityIdle⟩
  | tail _ step ih =>
      obtain ⟨fuel, op, allowed, executed⟩ := step
      obtain ⟨ring, ready⟩ := ih
      exact readyRings_step ready allowed executed

/-- For every priority, the ring at `task_list` is one circular list of the
live tasks of that priority that are not suspended, each of them once. -/
theorem ready_rings {memory : TaskId → Tcb} {idle : TaskId} {current : Kernel}
    (run : Kernel.Reachable DeletesCleanly (booted memory idle) current) (prio : Nat) :
    ∃ nodes, Ring current.next current.prev (current.taskList prio) nodes ∧
      ∀ task, task ∈ nodes ↔ task ∈ current.live ∧ (current.tcb task).priority = prio ∧
        (current.tcb task).state ≠ .suspended := by
  obtain ⟨ring, ready⟩ := readyRings_of_reachable run
  refine ⟨ring prio, ready.rings.linked prio, fun task => ⟨fun onRing => ?_, ?_⟩⟩
  · exact ⟨ready.rings.live onRing, ready.rings.priority onRing, ready.awake onRing⟩
  · rintro ⟨isLive, rfl, awake⟩
    exact ready.complete task isLive awake

/-- Tests for the conditions of the runs. -/
def liveOpGuard (kernel : Kernel) : SchedulerOp → Bool
  | .create allocated _ => allocated ∉ kernel.live
  | .delete task | .suspend task | .resume task =>
      task ∈ kernel.live ∧ kernel.currentTask ≠ some task
  | .start => true
  | _ => false

theorem liveOp_of_guard (kernel : Kernel) (op : SchedulerOp)
    (guarded : liveOpGuard kernel op = true) : LiveOp kernel op := by
  cases op with
  | create | delete | suspend | resume =>
      simp only [liveOpGuard, decide_eq_true_eq] at guarded
      exact guarded
  | start => exact trivial
  | delay | yield | tick | pendsv => exact absurd guarded Bool.false_ne_true

def deletesCleanlyGuard (kernel : Kernel) : SchedulerOp → Bool
  | .delete task =>
      liveOpGuard kernel (.delete task) &&
        ((kernel.tcb task).state ≠ .suspended ∨
          (kernel.next task ≠ task ∧
            kernel.prev task ∈ kernel.live ∧ kernel.next task ∈ kernel.live ∧
            kernel.next (kernel.prev task) = kernel.next task ∧
            kernel.prev (kernel.next task) = kernel.prev task))
  | op => liveOpGuard kernel op

theorem deletesCleanly_of_guard (kernel : Kernel) (op : SchedulerOp)
    (guarded : deletesCleanlyGuard kernel op = true) : DeletesCleanly kernel op := by
  cases op with
  | delete deleted =>
      simp only [deletesCleanlyGuard, Bool.and_eq_true] at guarded
      refine ⟨liveOp_of_guard kernel _ guarded.1, ?_⟩
      intro task same asleep
      obtain rfl : deleted = task := by simpa using same
      have either := of_decide_eq_true guarded.2
      obtain ⟨more, prevLive, nextLive, joined, joinedBack⟩ :=
        either.resolve_left (fun awake => awake asleep)
      exact ⟨fun alone => absurd alone more, fun _ => ⟨prevLive, nextLive⟩,
        fun _ _ => joined, fun _ _ => joinedBack⟩
  | _ => exact ⟨liveOp_of_guard kernel _ guarded, by simp⟩

/-- Three tasks of one priority; the middle one is suspended and deleted. -/
theorem ready_rings_middle_deleted :
    ∃ current, Kernel.Reachable DeletesCleanly (booted (fun _ => {}) 1) current ∧
      current.live = {1, 2, 4} ∧
      ∃ nodes, Ring current.next current.prev (current.taskList 5) nodes ∧
        ∀ task, task ∈ nodes ↔ task ∈ current.live ∧ (current.tcb task).priority = 5 ∧
          (current.tcb task).state ≠ .suspended := by
  obtain ⟨current, run, live⟩ :=
    Kernel.exists_reachable deletesCleanly_of_guard 4
      [.create 2 5, .create 3 5, .create 4 5, .suspend 3, .delete 3]
      (booted (fun _ => {}) 1) (fun current => current.live = {1, 2, 4}) (by decide +kernel)
  exact ⟨current, run, live, ready_rings run 5⟩

/-- A task that was alone when it was suspended takes the whole ring with it
when it is deleted. -/
theorem ready_rings_lost_task :
    ¬ ∀ current, Kernel.Reachable LiveOp (booted (fun _ => {}) 1) current →
      ∀ prio, ∃ nodes, Ring current.next current.prev (current.taskList prio) nodes ∧
        ∀ task, task ∈ nodes ↔ task ∈ current.live ∧ (current.tcb task).priority = prio ∧
          (current.tcb task).state ≠ .suspended := by
  intro wellFormed
  obtain ⟨current, run, noHead, isLive, priority, ready⟩ :=
    Kernel.exists_reachable liveOp_of_guard 4
      [.create 2 5, .suspend 2, .create 3 5, .delete 2]
      (booted (fun _ => {}) 1)
      (fun current => current.taskList 5 = none ∧ 3 ∈ current.live ∧
        (current.tcb 3).priority = 5 ∧ (current.tcb 3).state = .ready)
      (by decide +kernel)
  obtain ⟨nodes, ring, member⟩ := wellFormed current run 5
  rw [noHead] at ring
  have onRing := (member 3).mpr ⟨isLive, priority, by simp [ready]⟩
  rw [ring.eq_nil_iff.mpr rfl] at onRing
  simp at onRing

end Rtos

end MiniIotRobotEdge

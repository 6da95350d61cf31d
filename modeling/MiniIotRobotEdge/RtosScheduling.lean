import MiniIotRobotEdge.RtosTaskOps
import MiniIotRobotEdge.RtosTickRings

/-!
# Runs of the scheduler

In runs with delays not every runnable task is on a ring: `task_delay` unlinks
the current task when it is the head of its ring and leaves it linked
otherwise.  What every run keeps is that the rings are well formed, that ready
tasks are on them and that suspended ones are not.
-/

namespace MiniIotRobotEdge

namespace Rtos

open PointerRing

/-- The invariant of the scheduler. -/
structure Scheduled (kernel : Kernel) (ring : Nat → List TaskId) : Prop
    extends ReadyRings (· = .ready) kernel ring where
  bounded : ∀ task ∈ kernel.live, (kernel.tcb task).priority < taskPriorityMax
  currentLive : ∀ task, kernel.currentTask = some task → task ∈ kernel.live

/-- Where a task that is on no ring still has links into one, they lead
across the gap that it left. -/
def LinksAcrossGap (kernel : Kernel) (task : TaskId) : Prop :=
  ∀ prio nodes, Ring kernel.next kernel.prev (kernel.taskList prio) nodes → task ∉ nodes →
    (kernel.prev task ∈ nodes → kernel.next (kernel.prev task) = kernel.next task) ∧
    (kernel.next task ∈ nodes → kernel.prev (kernel.next task) = kernel.prev task)

/-- The calls of a run: new tasks get unused blocks, and only live tasks are
suspended and resumed. -/
def TaskOp (kernel : Kernel) : SchedulerOp → Prop
  | .create allocated _ => allocated ∉ kernel.live
  | .suspend task | .resume task => task ∈ kernel.live
  | .delete _ => False
  | _ => True

/-- A task is suspended only while its links do no harm. -/
def SuspendsCleanly (kernel : Kernel) (op : SchedulerOp) : Prop :=
  TaskOp kernel op ∧ ∀ task, op = .suspend task →
    (kernel.tcb task).state ≠ .suspended → LinksAcrossGap kernel task

theorem effectivePriority_lt (priority : Nat) :
    effectivePriority priority < taskPriorityMax := by
  unfold effectivePriority taskPriorityMax taskPriorityLowest taskPriorityHighest
  split <;> omega

/-- What `task_delay` does to the current task. -/
theorem taskDelay_eq {kernel : Kernel} {current : TaskId} {ticks : Nat}
    (positive : ticks ≠ 0) (running : kernel.currentTask = some current) :
    taskDelay kernel ticks = some
      { (if kernel.taskList (kernel.tcb current).priority = some current then
          unlinkTask (kernel.modify current fun tcb =>
            { tcb with ticksRemaining := ticks, state := .blocked })
            (kernel.tcb current).priority current
        else kernel.modify current fun tcb =>
          { tcb with ticksRemaining := ticks, state := .blocked }) with
        contextSwitchPending := true } := by
  have priority : ((kernel.modify current fun tcb =>
      { tcb with ticksRemaining := ticks, state := .blocked }).tcb current).priority =
      (kernel.tcb current).priority := by simp
  rw [taskDelay, if_neg positive, running]
  dsimp only
  rw [priority]
  by_cases isHead : kernel.taskList (kernel.tcb current).priority = some current
  · simp only [Kernel.taskList_modify, isHead, if_true, unlinkTask]
  · simp only [Kernel.taskList_modify, isHead, if_false]

/-- `task_delay` writes the state and the delay of the current task, and the
links of others. -/
theorem taskDelay_field {kernel after : Kernel} {current : TaskId} {ticks : Nat}
    (positive : ticks ≠ 0) (running : kernel.currentTask = some current)
    (delayed : taskDelay kernel ticks = some after) {Field : Type*} (field : Tcb → Field)
    (next : ∀ tcb task, field { tcb with next := task } = field tcb)
    (prev : ∀ tcb task, field { tcb with prev := task } = field tcb) (other : TaskId) :
    field (after.tcb other) = field ((kernel.modify current fun tcb =>
      { tcb with ticksRemaining := ticks, state := .blocked }).tcb other) := by
  rw [taskDelay_eq positive running] at delayed
  obtain rfl := Option.some.inj delayed
  dsimp only
  split
  · rw [unlinkTask_field _ _ _ field next prev]
  · rfl

theorem taskDelay_kept {kernel after : Kernel} {ticks : Nat}
    (delayed : taskDelay kernel ticks = some after) :
    after.live = kernel.live ∧ after.currentTask = kernel.currentTask ∧
      after.schedulerRunning = kernel.schedulerRunning := by
  by_cases zero : ticks = 0
  · obtain rfl : kernel = after := by simpa [taskDelay, zero] using delayed
    exact ⟨rfl, rfl, rfl⟩
  cases running : kernel.currentTask with
  | none => simp [taskDelay, zero, running] at delayed
  | some current =>
      rw [taskDelay_eq zero running] at delayed
      obtain rfl := Option.some.inj delayed
      dsimp only
      split <;> simp [running]

/-- What `task_suspend` does to a task that is not the head of its ring. -/
theorem taskSuspend_not_head {kernel : Kernel} {task : TaskId}
    (awake : (kernel.tcb task).state ≠ .suspended)
    (notHead : kernel.taskList (kernel.tcb task).priority ≠ some task) :
    ∃ pending, taskSuspend kernel task =
      { joinNeighbours (kernel.modify task fun tcb => { tcb with state := .suspended }) task with
        contextSwitchPending := pending } := by
  have priority : ((kernel.modify task fun tcb => { tcb with state := .suspended }).tcb
      task).priority = (kernel.tcb task).priority := by simp
  rw [taskSuspend, if_neg awake]
  dsimp only
  rw [priority]
  simp only [Kernel.taskList_modify, notHead, if_false]
  split
  · exact ⟨true, rfl⟩
  · exact ⟨_, rfl⟩

/-- A tick changes a state only by waking a delayed task on a ring. -/
theorem state_schedulerTickHandler {kernel after : Kernel} {ring : Nat → List TaskId}
    {fuel : Nat} (rings : Rings kernel ring)
    (handled : schedulerTickHandler fuel kernel = some after) (task : TaskId) :
    (after.tcb task).state = (kernel.tcb task).state ∨
      ((kernel.tcb task).state = .blocked ∧ (after.tcb task).state = .ready ∧
        ∃ prio, task ∈ ring prio) := by
  by_cases started : kernel.schedulerRunning = true
  case neg =>
    obtain rfl : kernel = after := by simpa [schedulerTickHandler, started] using handled
    exact .inl rfl
  have counted : ((countTick kernel).tcb task).state = (kernel.tcb task).state :=
    (FieldKept.countTick kernel fun _ _ => rfl : FieldKept Tcb.state _ _).tcb task
  have ticked : ∀ tcb, (tickTcb tcb).state = tcb.state ∨
      (tcb.state = .blocked ∧ (tickTcb tcb).state = .ready) := by
    intro tcb
    unfold tickTcb
    split
    case isTrue waiting =>
      split
      · exact .inr ⟨waiting.1, rfl⟩
      · exact .inl rfl
    case isFalse => exact .inl rfl
  rw [tcb_schedulerTickHandler rings started handled, ← counted]
  split
  case isTrue reached =>
    obtain ⟨prio, _, onRing⟩ := reached
    rcases ticked ((countTick kernel).tcb task) with same | woken
    · exact .inl same
    · exact .inr ⟨woken.1, woken.2, prio, onRing⟩
  case isFalse => exact .inl rfl

/-- What `pendsv_handler` does. -/
theorem pendsvHandler_cases {kernel after : Kernel} {ring : Nat → List TaskId} {fuel : Nat}
    (rings : Rings kernel ring) (handled : pendsvHandler fuel kernel = some after) :
    (after = kernel ∧ Choice kernel ring taskPriorityHighest none kernel) ∨
    ∃ installed turned, Choice kernel ring taskPriorityHighest (some installed) turned ∧
      after = { turned.modify installed fun tcb =>
        { tcb with runtimeTicks := 0, state := .running } with
        currentTask := some installed } := by
  unfold pendsvHandler at handled
  split at handled
  · simp at handled
  · rename_i turned found
    have choice := findNextTaskFrom_choice rings found
    obtain ⟨rfl, _⟩ := choice.eq_none rfl
    exact .inl ⟨(Option.some.inj handled).symm, choice⟩
  · rename_i installed turned found
    exact .inr ⟨installed, turned, findNextTaskFrom_choice rings found,
      (Option.some.inj handled).symm⟩

/-- With enough fuel `pendsv_handler` returns. -/
theorem pendsvHandler_total {kernel : Kernel} {ring : Nat → List TaskId}
    (rings : Rings kernel ring) : ∃ fuel after, pendsvHandler fuel kernel = some after := by
  obtain ⟨enough, returns⟩ := findNextTaskFrom_total rings taskPriorityHighest
  obtain ⟨chosen, turned, found⟩ := returns enough le_rfl
  refine ⟨enough, ?_⟩
  rw [pendsvHandler, findNextTask, found]
  cases chosen with
  | none => exact ⟨_, rfl⟩
  | some installed => exact ⟨_, rfl⟩

/-- Joining the neighbours of a task across its own gap changes no ring. -/
theorem Rings.joinNeighbours {kernel : Kernel} {ring : Nat → List TaskId} {task : TaskId}
    (rings : Rings kernel ring) (offRings : ∀ prio, task ∉ ring prio)
    (harmless : LinksAcrossGap kernel task) : Rings (joinNeighbours kernel task) ring := by
  refine rings.congr rfl fun prio other onRing => ?_
  obtain ⟨previous, following⟩ := harmless prio _ (rings.linked prio) (offRings prio)
  refine ⟨?_, ?_, ?_, rings.live onRing⟩
  · rw [next_joinNeighbours]
    split
    case isTrue same =>
      rw [same] at onRing ⊢
      exact (previous onRing).symm
    case isFalse => rfl
  · rw [prev_joinNeighbours]
    split
    case isTrue same =>
      rw [same] at onRing ⊢
      exact (following onRing).symm
    case isFalse => rfl
  · exact joinNeighbours_field (fun _ _ => rfl) (fun _ _ => rfl) kernel task other

/-- The tasks that a call takes off their ring. -/
def Unlinks (kernel : Kernel) (task : TaskId) : SchedulerOp → Prop
  | .suspend suspended => suspended = task
  | .delay _ => kernel.currentTask = some task
  | _ => False

namespace Scheduled

variable {kernel after : Kernel} {ring : Nat → List TaskId} {task : TaskId}

/-- A task on a ring is on the one of its priority, which the search looks
at. -/
theorem mem_ring (scheduled : Scheduled kernel ring) {prio : Nat} (onRing : task ∈ ring prio) :
    task ∈ ring (kernel.tcb task).priority ∧ prio < taskPriorityMax := by
  have samePriority := scheduled.rings.priority onRing
  have bound := scheduled.bounded task (scheduled.rings.live onRing)
  rw [samePriority] at bound ⊢
  exact ⟨onRing, bound⟩

/-- The parts of the invariant that the rings do not decide. -/
theorem of_readyRings (scheduled : Scheduled kernel ring) {other : Nat → List TaskId}
    (ready : ReadyRings (· = .ready) after other)
    (priority : ∀ task, (after.tcb task).priority = (kernel.tcb task).priority)
    (live : after.live = kernel.live)
    (current : ∀ task, after.currentTask = some task → task ∈ kernel.live) :
    Scheduled after other where
  toReadyRings := ready
  bounded := fun task isLive => by
    rw [priority]
    exact scheduled.bounded task (live ▸ isLive)
  currentLive := fun task isCurrent => live ▸ current task isCurrent

theorem create (scheduled : Scheduled kernel ring) (unused : task ∉ kernel.live)
    (priority : Nat) :
    Scheduled (taskCreate kernel (some task) priority)
      (Function.update ring (effectivePriority priority)
        (ring (effectivePriority priority) ++ [task])) where
  toReadyRings := scheduled.toReadyRings.create unused priority
  bounded := fun other isLive => by
    rw [taskCreate_field _ _ _ Tcb.priority (fun _ _ => rfl) (fun _ _ => rfl)]
    rw [live_taskCreate, Finset.mem_insert] at isLive
    split
    case isTrue => exact effectivePriority_lt priority
    case isFalse otherNe => exact scheduled.bounded other (isLive.resolve_left otherNe)
  currentLive := fun other isCurrent => by
    rw [currentTask_taskCreate] at isCurrent
    rw [live_taskCreate]
    exact Finset.mem_insert_of_mem (scheduled.currentLive other isCurrent)

/-- Suspending a task that is on no ring. -/
theorem suspend_offRings (scheduled : Scheduled kernel ring)
    (offRings : ∀ prio, task ∉ ring prio) (awake : (kernel.tcb task).state ≠ .suspended)
    (harmless : LinksAcrossGap kernel task) : Scheduled (taskSuspend kernel task) ring := by
  have notHead : kernel.taskList (kernel.tcb task).priority ≠ some task := by
    intro isHead
    have linked := scheduled.rings.linked (kernel.tcb task).priority
    rw [isHead] at linked
    exact offRings _ linked.head_mem
  let marked := kernel.modify task fun tcb => { tcb with state := .suspended }
  obtain ⟨pending, suspended⟩ := taskSuspend_not_head awake notHead
  have nextKept : marked.next = kernel.next :=
    funext (Kernel.field_modify Tcb.next kernel task (by simp))
  have prevKept : marked.prev = kernel.prev :=
    funext (Kernel.field_modify Tcb.prev kernel task (by simp))
  have markedRings : Rings marked ring := scheduled.rings.modify task (by simp)
  have joined : Rings (joinNeighbours marked task) ring := by
    apply markedRings.joinNeighbours offRings
    intro prio nodes linked offNodes
    rw [nextKept, prevKept] at linked ⊢
    exact harmless prio nodes linked offNodes
  have state : ∀ other, ((joinNeighbours marked task).tcb other).state =
      if other = task then .suspended else (kernel.tcb other).state := by
    intro other
    have stateKept : ((joinNeighbours marked task).tcb other).state = (marked.tcb other).state :=
      joinNeighbours_field (fun _ _ => rfl) (fun _ _ => rfl) marked task other
    rw [stateKept, Kernel.tcb_modify]
    split <;> rfl
  have priority : ∀ other, ((joinNeighbours marked task).tcb other).priority =
      (kernel.tcb other).priority := by
    intro other
    have priorityKept : ((joinNeighbours marked task).tcb other).priority =
        (marked.tcb other).priority :=
      joinNeighbours_field (fun _ _ => rfl) (fun _ _ => rfl) marked task other
    rw [priorityKept, Kernel.field_modify Tcb.priority _ _ (by simp)]
  have ready : ReadyRings (· = .ready) (joinNeighbours marked task) ring := by
    refine ⟨joined, ?_, ?_⟩
    · intro other isLive isReady
      rw [state] at isReady
      rw [priority]
      split at isReady
      · simp at isReady
      · exact scheduled.complete other isLive isReady
    · intro prio other onRing
      have otherNe : other ≠ task := fun same => offRings prio (same ▸ onRing)
      rw [state, if_neg otherNe]
      exact scheduled.awake onRing
  rw [suspended]
  exact scheduled.of_readyRings (ready.congr rfl rfl rfl) priority rfl scheduled.currentLive

theorem suspend (scheduled : Scheduled kernel ring) {prio : Nat} (onRing : task ∈ ring prio) :
    Scheduled (taskSuspend kernel task)
      (Function.update ring prio ((ring prio).erase task)) := by
  obtain ⟨pending, suspended⟩ :=
    scheduled.rings.taskSuspend_eq onRing (scheduled.awake onRing)
  have ready := scheduled.toReadyRings.suspend onRing (by simp)
  rw [suspended] at ready ⊢
  apply scheduled.of_readyRings ready
  · intro other
    dsimp only
    rw [unlinkTask_field _ _ _ Tcb.priority (fun _ _ => rfl) (fun _ _ => rfl),
      Kernel.field_modify Tcb.priority _ _ (by simp)]
  · simp
  · simpa using scheduled.currentLive

theorem resume (scheduled : Scheduled kernel ring) (live : task ∈ kernel.live)
    (asleep : (kernel.tcb task).state = .suspended) :
    Scheduled (taskResume kernel task)
      (Function.update ring (kernel.tcb task).priority
        (ring (kernel.tcb task).priority ++ [task])) := by
  obtain ⟨pending, resumed⟩ := taskResume_eq kernel asleep
  have ready := scheduled.toReadyRings.resume live asleep
  rw [resumed] at ready ⊢
  apply scheduled.of_readyRings ready
  · intro other
    dsimp only
    rw [linkTail_field _ _ _ Tcb.priority (fun _ _ => rfl) (fun _ _ => rfl),
      Kernel.field_modify Tcb.priority _ _ (by simp)]
  · simp
  · simpa using scheduled.currentLive

/-- A task that the search chooses is live. -/
theorem chosen_live (scheduled : Scheduled kernel ring) {limit : Nat} {turned : Kernel}
    (choice : Choice kernel ring limit (some task) turned) : task ∈ kernel.live := by
  obtain ⟨prio, onRing⟩ := choice.mem_ring scheduled.rings rfl
  exact scheduled.rings.live onRing

theorem install {turned : Kernel} {limit : Nat} (scheduled : Scheduled kernel ring)
    (choice : Choice kernel ring limit (some task) turned) (change : Tcb → Tcb)
    (kept : ∀ tcb, (change tcb).next = tcb.next ∧ (change tcb).prev = tcb.prev ∧
      (change tcb).priority = tcb.priority)
    (awake : ∀ tcb, (change tcb).state ≠ .suspended)
    (tcb : after.tcb = (turned.modify task change).tcb)
    (live : after.live = turned.live) (lists : after.taskList = turned.taskList)
    (current : after.currentTask = some task) :
    ∃ turnedRing, Scheduled after turnedRing ∧
      ∀ prio other, other ∈ turnedRing prio ↔ other ∈ ring prio := by
  obtain ⟨turnedRing, ready, same⟩ := scheduled.toReadyRings.install choice change kept awake
  refine ⟨turnedRing, ?_, same⟩
  apply scheduled.of_readyRings (ready.congr tcb live lists)
  · intro other
    rw [tcb, Kernel.field_modify Tcb.priority _ _ (fun tcb => (kept tcb).2.2), choice.tcb_eq]
  · rw [live, choice.live_eq]
  · intro other isCurrent
    rw [current] at isCurrent
    exact Option.some.inj isCurrent ▸ scheduled.chosen_live choice

theorem start {fuel : Nat} (scheduled : Scheduled kernel ring)
    (started : schedulerStart fuel kernel = some after) :
    ∃ turnedRing, Scheduled after turnedRing ∧
      ∀ prio other, other ∈ turnedRing prio ↔ other ∈ ring prio := by
  obtain ⟨current, turned, choice, rfl⟩ := schedulerStart_cases scheduled.rings started
  exact scheduled.install choice (fun tcb => { tcb with state := .running }) (by simp) (by simp)
    rfl rfl rfl rfl

theorem pendsv {fuel : Nat} (scheduled : Scheduled kernel ring)
    (handled : pendsvHandler fuel kernel = some after) :
    ∃ turnedRing, Scheduled after turnedRing ∧
      ∀ prio other, other ∈ turnedRing prio ↔ other ∈ ring prio := by
  obtain ⟨rfl, _⟩ | ⟨installed, turned, choice, rfl⟩ :=
    pendsvHandler_cases scheduled.rings handled
  · exact ⟨ring, scheduled, fun _ _ => Iff.rfl⟩
  · exact scheduled.install choice
      (fun tcb => { tcb with runtimeTicks := 0, state := .running }) (by simp) (by simp)
      rfl rfl rfl rfl

/-- A delayed task leaves its ring only when it is the head. -/
theorem delay (scheduled : Scheduled kernel ring) {ticks : Nat}
    (current : kernel.currentTask = some task) (positive : ticks ≠ 0)
    (delayed : taskDelay kernel ticks = some after) :
    Scheduled after
      (if kernel.taskList (kernel.tcb task).priority = some task then
        Function.update ring (kernel.tcb task).priority
          ((ring (kernel.tcb task).priority).erase task)
      else ring) := by
  have marked : Rings (kernel.modify task fun tcb =>
      { tcb with ticksRemaining := ticks, state := .blocked }) ring :=
    scheduled.rings.modify task (by simp)
  have markedReady : ReadyRings (· = .ready) (kernel.modify task fun tcb =>
      { tcb with ticksRemaining := ticks, state := .blocked }) ring := by
    refine ⟨marked, ?_, ?_⟩
    · intro other isLive isReady
      rw [Kernel.field_modify Tcb.priority _ _ (by simp)]
      rw [Kernel.tcb_modify] at isReady
      split at isReady
      · simp at isReady
      · exact scheduled.complete other isLive isReady
    · intro prio other onRing
      rw [Kernel.tcb_modify]
      split
      · simp
      · exact scheduled.awake onRing
  rw [taskDelay_eq positive current] at delayed
  obtain rfl := Option.some.inj delayed
  by_cases isHead : kernel.taskList (kernel.tcb task).priority = some task
  · simp only [isHead, if_true]
    have linked := scheduled.rings.linked (kernel.tcb task).priority
    rw [isHead] at linked
    have onRing := linked.head_mem
    have unlinked := marked.unlinkTask onRing
    have priority : ∀ other, ((unlinkTask (kernel.modify task fun tcb =>
        { tcb with ticksRemaining := ticks, state := .blocked })
        (kernel.tcb task).priority task).tcb other).priority =
        (kernel.tcb other).priority := by
      intro other
      rw [unlinkTask_field _ _ _ Tcb.priority (fun _ _ => rfl) (fun _ _ => rfl),
        Kernel.field_modify Tcb.priority _ _ (by simp)]
    refine scheduled.of_readyRings ?_ priority (by simp)
      (by simpa using scheduled.currentLive)
    refine (markedReady.erase onRing unlinked ?_ ?_ ?_ (.inr ?_)).congr rfl rfl rfl
    · intro other
      rw [priority, Kernel.field_modify Tcb.priority _ _ (by simp)]
    · exact fun other _ => unlinkTask_field _ _ _ Tcb.state (fun _ _ => rfl) (fun _ _ => rfl) other
    · simp
    · rw [unlinkTask_field _ _ _ Tcb.state (fun _ _ => rfl) (fun _ _ => rfl)]
      simp
  · simp only [isHead, if_false]
    refine scheduled.of_readyRings (markedReady.congr rfl rfl rfl) ?_ rfl scheduled.currentLive
    intro other
    dsimp only
    rw [Kernel.field_modify Tcb.priority _ _ (by simp)]

theorem tick {fuel : Nat} (scheduled : Scheduled kernel ring)
    (handled : schedulerTickHandler fuel kernel = some after) : Scheduled after ring := by
  have priority : FieldKept Tcb.priority kernel after :=
    .schedulerTickHandler tickTcb_priority (fun _ _ => rfl) handled
  refine scheduled.of_readyRings ⟨scheduled.rings.schedulerTickHandler handled, ?_, ?_⟩
    priority.tcb priority.live ?_
  · intro task isLive isReady
    rw [priority.live] at isLive
    rw [priority.tcb]
    rcases state_schedulerTickHandler scheduled.rings handled task with
      same | ⟨_, _, prio, onRing⟩
    · rw [same] at isReady
      exact scheduled.complete task isLive isReady
    · exact (scheduled.mem_ring onRing).1
  · intro prio task onRing
    rcases state_schedulerTickHandler scheduled.rings handled task with same | ⟨_, woken, _⟩
    · rw [same]
      exact scheduled.awake onRing
    · rw [woken]
      simp
  · intro task isCurrent
    rw [priority.currentTask] at isCurrent
    exact scheduled.currentLive task isCurrent

/-- Every allowed call keeps the invariant, and keeps tasks on their rings
that it does not take off. -/
theorem step {fuel : Nat} {op : SchedulerOp} (scheduled : Scheduled kernel ring)
    (allowed : SuspendsCleanly kernel op) (executed : execOp fuel kernel op = some after) :
    ∃ ring', Scheduled after ring' ∧
      ∀ prio other, other ∈ ring prio → ¬ Unlinks kernel other op → other ∈ ring' prio := by
  have appended : ∀ {prio : Nat} {task : TaskId} (index : Nat) (other : TaskId),
      other ∈ ring index → other ∈ Function.update ring prio (ring prio ++ [task]) index := by
    intro prio task index other onRing
    rw [Function.update_apply]
    split
    case isTrue same => exact List.mem_append_left _ (same ▸ onRing)
    case isFalse => exact onRing
  have erased : ∀ {prio : Nat} {task : TaskId} (index : Nat) (other : TaskId), other ≠ task →
      other ∈ ring index → other ∈ Function.update ring prio ((ring prio).erase task) index := by
    intro prio task index other otherNe onRing
    rw [Function.update_apply]
    split
    case isTrue same => exact (List.mem_erase_of_ne otherNe).mpr (same ▸ onRing)
    case isFalse => exact onRing
  obtain ⟨allowed, clean⟩ := allowed
  cases op with
  | create allocated priority =>
      obtain rfl := Option.some.inj executed
      exact ⟨_, scheduled.create allowed priority, fun prio other onRing _ =>
        appended prio other onRing⟩
  | delete task => exact allowed.elim
  | suspend task =>
      obtain rfl := Option.some.inj executed
      by_cases asleep : (kernel.tcb task).state = .suspended
      · refine ⟨ring, ?_, fun _ _ onRing _ => onRing⟩
        rwa [taskSuspend, if_pos asleep]
      by_cases linked : ∃ prio, task ∈ ring prio
      · obtain ⟨prio, onRing⟩ := linked
        refine ⟨_, scheduled.suspend onRing, fun index other onOther kept => ?_⟩
        exact erased index other (fun same => kept same.symm) onOther
      · have offRings : ∀ prio, task ∉ ring prio := fun prio onRing => linked ⟨prio, onRing⟩
        exact ⟨ring, scheduled.suspend_offRings offRings asleep (clean task rfl asleep),
          fun _ _ onRing _ => onRing⟩
  | resume task =>
      obtain rfl := Option.some.inj executed
      by_cases asleep : (kernel.tcb task).state = .suspended
      · exact ⟨_, scheduled.resume allowed asleep, fun prio other onRing _ =>
          appended prio other onRing⟩
      · refine ⟨ring, ?_, fun _ _ onRing _ => onRing⟩
        rwa [taskResume, if_neg asleep]
  | start =>
      obtain ⟨turned, started, same⟩ := scheduled.start executed
      exact ⟨turned, started, fun prio other onRing _ => (same prio other).mpr onRing⟩
  | delay ticks =>
      by_cases zero : ticks = 0
      · obtain rfl : kernel = after := by simpa [execOp, taskDelay, zero] using executed
        exact ⟨ring, scheduled, fun _ _ onRing _ => onRing⟩
      cases current : kernel.currentTask with
      | none => simp [execOp, taskDelay, zero, current] at executed
      | some task =>
          refine ⟨_, scheduled.delay current zero executed, fun index other onRing kept => ?_⟩
          split
          · apply erased index other _ onRing
            rintro rfl
            exact kept current
          · exact onRing
  | yield =>
      obtain rfl := Option.some.inj executed
      refine ⟨ring, ?_, fun _ _ onRing _ => onRing⟩
      exact scheduled.of_readyRings (scheduled.toReadyRings.congr rfl rfl rfl) (fun _ => rfl) rfl
        scheduled.currentLive
  | tick => exact ⟨ring, scheduled.tick executed, fun _ _ onRing _ => onRing⟩
  | pendsv =>
      obtain ⟨turned, switched, same⟩ := scheduled.pendsv executed
      exact ⟨turned, switched, fun prio other onRing _ => (same prio other).mpr onRing⟩

end Scheduled

theorem scheduled_booted (memory : TaskId → Tcb) (idle : TaskId) :
    ∃ ring, Scheduled (booted memory idle) ring := by
  have empty : Scheduled (.boot memory) fun _ => [] :=
    ⟨readyRings_boot _ memory, by simp [Kernel.boot], by simp [Kernel.boot]⟩
  exact ⟨_, empty.create (by simp [Kernel.boot]) taskPriorityIdle⟩

/-- The invariant holds in every state of a run. -/
theorem scheduled_of_reachable {allowed : Kernel → SchedulerOp → Prop}
    (scheduling : ∀ kernel op, allowed kernel op → SuspendsCleanly kernel op)
    {memory : TaskId → Tcb} {idle : TaskId} {kernel : Kernel}
    (run : Kernel.Reachable allowed (booted memory idle) kernel) :
    ∃ ring, Scheduled kernel ring := by
  induction run with
  | refl => exact scheduled_booted memory idle
  | tail _ step ih =>
      obtain ⟨fuel, op, isAllowed, executed⟩ := step
      obtain ⟨ring, scheduled⟩ := ih
      obtain ⟨after, kept, _⟩ := scheduled.step (scheduling _ _ isAllowed) executed
      exact ⟨after, kept⟩

end Rtos

end MiniIotRobotEdge

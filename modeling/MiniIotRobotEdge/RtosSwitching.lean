import MiniIotRobotEdge.RtosScheduling

/-!
# Context switches

`find_next_task` never looks below the highest ring that is not empty, even
when all tasks on it are blocked, and `pendsv_handler` never writes the state
of the task that it switches away from.  This module says exactly when a
switch installs a ready task of the highest priority, and when it leaves at
most one task in the running state.
-/

namespace MiniIotRobotEdge

namespace Rtos

open PointerRing

/-- The highest ring that is not empty, and its head. -/
structure TopRing (kernel : Kernel) (prio : Nat) (head : TaskId) : Prop where
  bounded : prio ≤ taskPriorityHighest
  listed : kernel.taskList prio = some head
  above : ∀ other, prio < other → other ≤ taskPriorityHighest → kernel.taskList other = none

/-- The search finds no task to select and returns `task`, the head of the
highest ring. -/
def FallsBackOn (kernel : Kernel) (task : TaskId) : Prop :=
  ∃ prio nodes, TopRing kernel prio task ∧
    Ring kernel.next kernel.prev (kernel.taskList prio) nodes ∧
    (prio = taskPriorityIdle ∨ ∀ candidate ∈ nodes, ¬ Selectable kernel task candidate)

/-- The highest ring has a task to select, which on the idle ring must be the
head. -/
def SelectsReady (kernel : Kernel) : Prop :=
  ∃ prio head nodes, TopRing kernel prio head ∧
    Ring kernel.next kernel.prev (kernel.taskList prio) nodes ∧
    ∃ candidate ∈ nodes, Selectable kernel head candidate ∧
      (prio = taskPriorityIdle → candidate = head)

/-- `pendsv_handler` returns, and where a task is ready it installs a ready
task of the highest priority. -/
def InstallsHighestReady (kernel : Kernel) : Prop :=
  (∃ fuel after, pendsvHandler fuel kernel = some after) ∧
  ∀ fuel after, pendsvHandler fuel kernel = some after →
    (∃ task ∈ kernel.live, (kernel.tcb task).state = .ready) →
    ∃ installed, after.currentTask = some installed ∧
      (kernel.tcb installed).state = .ready ∧
      ∀ task ∈ kernel.live, (kernel.tcb task).state = .ready →
        (kernel.tcb task).priority ≤ (kernel.tcb installed).priority

theorem TopRing.unique {kernel : Kernel} {prio other : Nat} {head otherHead : TaskId}
    (top : TopRing kernel prio head) (otherTop : TopRing kernel other otherHead) :
    other = prio ∧ otherHead = head := by
  have same : other = prio := by
    rcases Nat.lt_trichotomy prio other with lower | same | higher
    · have empty := top.above other lower otherTop.bounded
      rw [otherTop.listed] at empty
      simp at empty
    · exact same.symm
    · have empty := otherTop.above prio higher top.bounded
      rw [top.listed] at empty
      simp at empty
  subst same
  have listed := otherTop.listed
  rw [top.listed] at listed
  exact ⟨rfl, (Option.some.inj listed).symm⟩

/-- A chosen task was selected on the highest ring or is the head of it. -/
theorem Choice.top {kernel after : Kernel} {ring : Nat → List TaskId} {chosen : Option TaskId}
    {task : TaskId} (choice : Choice kernel ring taskPriorityHighest chosen after)
    (rings : Rings kernel ring) (isChosen : chosen = some task) :
    ∃ prio head, TopRing kernel prio head ∧ task ∈ ring prio ∧
      ((prio ≠ taskPriorityIdle ∧ Selectable kernel head task) ∨
        (task = head ∧ (prio = taskPriorityIdle ∨
          ∀ candidate ∈ ring prio, ¬ Selectable kernel head candidate))) := by
  have noHead : ∀ {prio : Nat}, ring prio = [] → kernel.taskList prio = none :=
    fun empty => (rings.linked _).eq_nil_iff.mp empty
  have headMem : ∀ {prio : Nat} {head : TaskId}, kernel.taskList prio = some head →
      head ∈ ring prio := by
    intro prio head listed
    have linked := rings.linked prio
    rw [listed] at linked
    exact linked.head_mem
  cases choice with
  | selected prio head candidate bounds above listed first =>
      obtain rfl : candidate = task := Option.some.inj isChosen
      refine ⟨prio, head, ⟨bounds.2, listed, fun other higher bounded =>
        noHead (above other higher bounded)⟩, List.mem_of_find?_eq_some first, .inl ⟨?_, ?_⟩⟩
      · exact Nat.ne_of_gt bounds.1
      · simpa using List.find?_some first
  | fallback prio head bounds above listed unselectable =>
      obtain rfl : head = task := Option.some.inj isChosen
      exact ⟨prio, head, ⟨bounds.2, listed, fun other higher bounded =>
        noHead (above other higher bounded)⟩, headMem listed, .inr ⟨rfl, .inr unselectable⟩⟩
  | idle empty =>
      exact ⟨taskPriorityIdle, task, ⟨by decide, isChosen, fun other higher bounded =>
        noHead (empty other higher bounded)⟩, headMem isChosen, .inr ⟨rfl, .inl rfl⟩⟩

/-- Where the search falls back on a task, that task is chosen. -/
theorem Choice.eq_of_fallsBackOn {kernel after : Kernel} {ring : Nat → List TaskId}
    {task other : TaskId}
    (choice : Choice kernel ring taskPriorityHighest (some other) after)
    (rings : Rings kernel ring) (falls : FallsBackOn kernel task) : other = task := by
  obtain ⟨prio, nodes, top, linked, unselectable⟩ := falls
  obtain ⟨otherPrio, head, otherTop, onRing, chosen⟩ := choice.top rings rfl
  obtain ⟨rfl, rfl⟩ := top.unique otherTop
  rcases chosen with ⟨notIdle, selectable⟩ | ⟨isHead, _⟩
  · have onNodes := (rings.linked otherPrio).mem_unique linked onRing
    exact absurd selectable (unselectable.resolve_left notIdle other onNodes)
  · exact isHead

/-- A task that is not ready is only chosen as a fallback. -/
theorem Choice.fallsBackOn {kernel after : Kernel} {ring : Nat → List TaskId} {task : TaskId}
    (choice : Choice kernel ring taskPriorityHighest (some task) after)
    (rings : Rings kernel ring) (notReady : (kernel.tcb task).state ≠ .ready) :
    FallsBackOn kernel task := by
  obtain ⟨prio, head, top, _, ⟨_, selectable⟩ | ⟨rfl, unselectable⟩⟩ := choice.top rings rfl
  · exact absurd selectable.1 notReady
  · exact ⟨prio, ring prio, top, rings.linked prio, unselectable⟩

/-- The search comes back empty only when all rings are empty. -/
theorem Choice.rings_empty {kernel after : Kernel} {ring : Nat → List TaskId} {limit : Nat}
    {chosen : Option TaskId} (choice : Choice kernel ring limit chosen after)
    (rings : Rings kernel ring) (nothing : chosen = none) {prio : Nat} (bounded : prio ≤ limit) :
    ring prio = [] := by
  cases choice with
  | selected => simp at nothing
  | fallback => simp at nothing
  | idle empty =>
      by_cases isIdle : prio = taskPriorityIdle
      · rw [isIdle]
        exact (rings.linked _).eq_nil_iff.mpr nothing
      · exact empty prio (Nat.pos_of_ne_zero isIdle) bounded

namespace Scheduled

variable {kernel : Kernel} {ring : Nat → List TaskId}

/-- No ready task is above the highest ring. -/
theorem priority_le_top (scheduled : Scheduled kernel ring) {prio : Nat} {head task : TaskId}
    (top : TopRing kernel prio head) (isLive : task ∈ kernel.live)
    (isReady : (kernel.tcb task).state = .ready) : (kernel.tcb task).priority ≤ prio := by
  by_contra higher
  have onRing := scheduled.complete task isLive isReady
  have bounded := scheduled.bounded task isLive
  have noHead := top.above _ (Nat.lt_of_not_le higher) (Nat.le_of_lt_succ bounded)
  rw [(scheduled.rings.linked _).eq_nil_iff.mpr noHead] at onRing
  simp at onRing

/-- While a task is ready, `pendsv_handler` installs the head of the highest
ring or a task selected on it. -/
theorem pendsv_top (scheduled : Scheduled kernel ring) {fuel : Nat} {after : Kernel}
    (handled : pendsvHandler fuel kernel = some after)
    (someReady : ∃ task ∈ kernel.live, (kernel.tcb task).state = .ready) :
    ∃ installed prio head, after.currentTask = some installed ∧ TopRing kernel prio head ∧
      installed ∈ ring prio ∧
      ((prio ≠ taskPriorityIdle ∧ Selectable kernel head installed) ∨
        (installed = head ∧ (prio = taskPriorityIdle ∨
          ∀ candidate ∈ ring prio, ¬ Selectable kernel head candidate))) := by
  obtain ⟨_, choice⟩ | ⟨installed, turned, choice, rfl⟩ :=
    pendsvHandler_cases scheduled.rings handled
  · obtain ⟨task, isLive, isReady⟩ := someReady
    have onRing := scheduled.complete task isLive isReady
    have bounded := Nat.le_of_lt_succ (scheduled.bounded task isLive)
    rw [choice.rings_empty scheduled.rings rfl bounded] at onRing
    simp at onRing
  · obtain ⟨prio, head, top, onRing, chosen⟩ := choice.top scheduled.rings rfl
    exact ⟨installed, prio, head, rfl, top, onRing, chosen⟩

/-- A selected task is ready and no ready task is above it. -/
theorem installsHighestReady (scheduled : Scheduled kernel ring) (selects : SelectsReady kernel) :
    InstallsHighestReady kernel := by
  refine ⟨pendsvHandler_total scheduled.rings, fun fuel after handled someReady => ?_⟩
  obtain ⟨installed, prio, head, isCurrent, top, onRing, chosen⟩ :=
    scheduled.pendsv_top handled someReady
  obtain ⟨otherPrio, otherHead, nodes, otherTop, linked, candidate, onNodes, selectable,
    idleHead⟩ := selects
  obtain ⟨rfl, rfl⟩ := top.unique otherTop
  refine ⟨installed, isCurrent, ?_, fun task isLive isReady => ?_⟩
  · rcases chosen with ⟨_, isSelectable⟩ | ⟨rfl, isIdle | unselectable⟩
    · exact isSelectable.1
    · rw [← idleHead isIdle]
      exact selectable.1
    · have onTop := linked.mem_unique (scheduled.rings.linked otherPrio) onNodes
      exact absurd selectable (unselectable candidate onTop)
  · rw [scheduled.rings.priority onRing]
    exact scheduled.priority_le_top top isLive isReady

/-- A ready task that is installed was selected. -/
theorem selectsReady (scheduled : Scheduled kernel ring) (installs : InstallsHighestReady kernel)
    (someReady : ∃ task ∈ kernel.live, (kernel.tcb task).state = .ready) :
    SelectsReady kernel := by
  obtain ⟨⟨fuel, after, handled⟩, installs⟩ := installs
  obtain ⟨ready, readyCurrent, isReady, _⟩ := installs fuel after handled someReady
  obtain ⟨installed, prio, head, isCurrent, top, onRing, chosen⟩ :=
    scheduled.pendsv_top handled someReady
  rw [isCurrent] at readyCurrent
  obtain rfl := Option.some.inj readyCurrent
  refine ⟨prio, head, ring prio, top, scheduled.rings.linked prio, installed, onRing, ?_⟩
  rcases chosen with ⟨notIdle, selectable⟩ | ⟨rfl, _⟩
  · exact ⟨selectable, fun isIdle => absurd isIdle notIdle⟩
  · exact ⟨⟨isReady, .inr rfl⟩, fun _ => rfl⟩

end Scheduled

/-- `pendsv_handler` installs a ready task of the highest priority exactly
where the highest ring has a task to select. -/
theorem pendsv_installs_highest_ready {memory : TaskId → Tcb} {idle : TaskId} {kernel : Kernel}
    (run : Kernel.Reachable SuspendsCleanly (booted memory idle) kernel) :
    InstallsHighestReady kernel ↔
      ((∃ task ∈ kernel.live, (kernel.tcb task).state = .ready) → SelectsReady kernel) := by
  obtain ⟨ring, scheduled⟩ := scheduled_of_reachable (fun _ _ => id) run
  constructor
  · exact scheduled.selectsReady
  · intro selects
    by_cases someReady : ∃ task ∈ kernel.live, (kernel.tcb task).state = .ready
    · exact scheduled.installsHighestReady (selects someReady)
    · exact ⟨pendsvHandler_total scheduled.rings, fun _ _ _ isReady => absurd isReady someReady⟩

/-- Tests for the conditions of the runs.  A task that is still linked can be
suspended without harm. -/
def suspendsCleanlyGuard (kernel : Kernel) : SchedulerOp → Bool
  | .create allocated _ => allocated ∉ kernel.live
  | .suspend task => task ∈ kernel.live ∧ kernel.next (kernel.prev task) = task ∧
      kernel.prev (kernel.next task) = task
  | .resume task => task ∈ kernel.live
  | .delete _ => false
  | _ => true

theorem suspendsCleanly_of_guard (kernel : Kernel) (op : SchedulerOp)
    (guarded : suspendsCleanlyGuard kernel op = true) : SuspendsCleanly kernel op := by
  cases op with
  | suspend task =>
      obtain ⟨isLive, nextPrev, prevNext⟩ := of_decide_eq_true guarded
      refine ⟨isLive, fun other same _ prio nodes linked offNodes => ?_⟩
      obtain rfl : task = other := by simpa using same
      constructor
      · intro onNodes
        exact absurd (nextPrev ▸ linked.next_mem onNodes) offNodes
      · intro onNodes
        exact absurd (prevNext ▸ linked.prev_mem onNodes) offNodes
  | create | resume =>
      simp only [suspendsCleanlyGuard, decide_eq_true_eq] at guarded
      exact ⟨guarded, by simp⟩
  | delete => exact absurd guarded Bool.false_ne_true
  | start | delay | yield | tick | pendsv => exact ⟨trivial, by simp⟩

/-- A suspended task is resumed and preempts the idle task. -/
theorem pendsv_installs_resumed :
    ∃ kernel, Kernel.Reachable SuspendsCleanly (booted (fun _ => {}) 1) kernel ∧
      kernel.schedulerRunning = true ∧ kernel.currentTask = some 1 ∧
      (kernel.tcb 2).state = .ready ∧ (InstallsHighestReady kernel ↔
        ((∃ task ∈ kernel.live, (kernel.tcb task).state = .ready) → SelectsReady kernel)) := by
  obtain ⟨kernel, run, started, current, ready⟩ :=
    Kernel.exists_reachable suspendsCleanly_of_guard 4
      [.create 2 5, .create 3 4, .suspend 2, .suspend 3, .start, .resume 3, .tick, .resume 2]
      (booted (fun _ => {}) 1)
      (fun kernel => kernel.schedulerRunning = true ∧ kernel.currentTask = some 1 ∧
        (kernel.tcb 2).state = .ready)
      (by decide +kernel)
  exact ⟨kernel, run, started, current, ready, pendsv_installs_highest_ready run⟩

/-- Two tasks that delay themselves stay on their ring, and the search falls
back on one of them while the idle task is ready. -/
theorem pendsv_installs_blocked :
    ¬ ∀ kernel, Kernel.Reachable TaskOp (booted (fun _ => {}) 1) kernel →
      kernel.schedulerRunning = true → InstallsHighestReady kernel := by
  intro installs
  obtain ⟨kernel, run, started, isLive, isReady, isBlocked, switched⟩ :=
    Kernel.exists_reachable
      (fun kernel op guarded => (suspendsCleanly_of_guard kernel op guarded).1) 4
      [.create 2 5, .create 3 5, .start, .delay 10, .pendsv, .delay 10]
      (booted (fun _ => {}) 1)
      (fun kernel => kernel.schedulerRunning = true ∧ 1 ∈ kernel.live ∧
        (kernel.tcb 1).state = .ready ∧ (kernel.tcb 2).state = .blocked ∧
        (pendsvHandler 4 kernel).any (fun after => after.currentTask = some 2) = true)
      (by decide +kernel)
  obtain ⟨after, handled, isCurrent⟩ := (Option.any_eq_true _ _).mp switched
  obtain ⟨installed, current, wasReady, _⟩ :=
    (installs kernel run started).2 4 after handled ⟨1, isLive, isReady⟩
  rw [of_decide_eq_true isCurrent] at current
  obtain rfl := Option.some.inj current
  rw [isBlocked] at wasReady
  simp at wasReady

/-- The calls before and after the scheduler is started, which happens
once. -/
def SwitchingOp (kernel : Kernel) : SchedulerOp → Prop
  | .create allocated _ => allocated ∉ kernel.live
  | .start => kernel.schedulerRunning = false
  | .pendsv => kernel.schedulerRunning = true
  | .delay _ | .yield | .tick => True
  | .delete _ | .suspend _ | .resume _ => False

/-- A running task is not switched out. -/
def SwitchesCleanly (kernel : Kernel) (op : SchedulerOp) : Prop :=
  SwitchingOp kernel op ∧ (op = .pendsv → ∀ task, kernel.currentTask = some task →
    (kernel.tcb task).state = .running → FallsBackOn kernel task)

theorem SwitchesCleanly.suspendsCleanly (kernel : Kernel) (op : SchedulerOp)
    (allowed : SwitchesCleanly kernel op) : SuspendsCleanly kernel op := by
  obtain ⟨allowed, _⟩ := allowed
  cases op with
  | create => exact ⟨allowed, by simp⟩
  | delete | suspend | resume => exact allowed.elim
  | start | delay | yield | tick | pendsv => exact ⟨trivial, by simp⟩

/-- Only the current task is in the running state. -/
structure OnlyCurrentRuns (kernel : Kernel) : Prop where
  current : ∀ task ∈ kernel.live, (kernel.tcb task).state = .running →
    kernel.currentTask = some task
  stopped : kernel.schedulerRunning = false → kernel.currentTask = none

namespace OnlyCurrentRuns

variable {kernel after : Kernel} {ring : Nat → List TaskId}

/-- No call but a switch makes a task run. -/
theorem of_state (runs : OnlyCurrentRuns kernel)
    (state : ∀ task ∈ after.live, (after.tcb task).state = .running →
      task ∈ kernel.live ∧ (kernel.tcb task).state = .running)
    (current : after.currentTask = kernel.currentTask)
    (started : after.schedulerRunning = kernel.schedulerRunning) : OnlyCurrentRuns after where
  current := fun task isLive isRunning => by
    obtain ⟨wasLive, wasRunning⟩ := state task isLive isRunning
    rw [current]
    exact runs.current task wasLive wasRunning
  stopped := fun notStarted => by
    rw [current]
    exact runs.stopped (started ▸ notStarted)

theorem create (runs : OnlyCurrentRuns kernel) (task : TaskId) (priority : Nat) :
    OnlyCurrentRuns (taskCreate kernel (some task) priority) := by
  refine runs.of_state ?_ (currentTask_taskCreate kernel task priority)
    (schedulerRunning_taskCreate kernel task priority)
  intro other isLive isRunning
  rw [taskCreate_field _ _ _ Tcb.state (fun _ _ => rfl) (fun _ _ => rfl)] at isRunning
  rw [live_taskCreate, Finset.mem_insert] at isLive
  split at isRunning
  · simp [freshTcb] at isRunning
  case isFalse otherNe => exact ⟨isLive.resolve_left otherNe, isRunning⟩

theorem start {fuel : Nat} (runs : OnlyCurrentRuns kernel) (rings : Rings kernel ring)
    (notStarted : kernel.schedulerRunning = false)
    (started : schedulerStart fuel kernel = some after) : OnlyCurrentRuns after := by
  obtain ⟨current, turned, choice, rfl⟩ := schedulerStart_cases rings started
  refine ⟨fun task isLive isRunning => ?_, by simp⟩
  dsimp only at *
  rw [Kernel.live_modify, choice.live_eq] at isLive
  rw [Kernel.tcb_modify, choice.tcb_eq] at isRunning
  split at isRunning
  case isTrue isCurrent => rw [isCurrent]
  case isFalse =>
    have wasCurrent := runs.current task isLive isRunning
    rw [runs.stopped notStarted] at wasCurrent
    simp at wasCurrent

theorem delay {ticks : Nat} (runs : OnlyCurrentRuns kernel)
    (delayed : taskDelay kernel ticks = some after) : OnlyCurrentRuns after := by
  obtain ⟨live, current, started⟩ := taskDelay_kept delayed
  refine runs.of_state (fun task isLive isRunning => ⟨live ▸ isLive, ?_⟩) current started
  by_cases zero : ticks = 0
  · obtain rfl : kernel = after := by simpa [taskDelay, zero] using delayed
    exact isRunning
  cases isCurrent : kernel.currentTask with
  | none => simp [taskDelay, zero, isCurrent] at delayed
  | some current =>
      rw [taskDelay_field zero isCurrent delayed Tcb.state (fun _ _ => rfl) (fun _ _ => rfl),
        Kernel.tcb_modify] at isRunning
      split at isRunning
      · simp at isRunning
      · exact isRunning

theorem tick {fuel : Nat} (runs : OnlyCurrentRuns kernel) (rings : Rings kernel ring)
    (handled : schedulerTickHandler fuel kernel = some after) : OnlyCurrentRuns after := by
  have kept : FieldKept Tcb.next kernel after :=
    .schedulerTickHandler tickTcb_next (fun _ _ => rfl) handled
  refine runs.of_state (fun task isLive isRunning => ⟨kept.live ▸ isLive, ?_⟩)
    kept.currentTask kept.schedulerRunning
  rcases state_schedulerTickHandler rings handled task with same | ⟨_, woken, _⟩
  · rwa [same] at isRunning
  · rw [woken] at isRunning
    simp at isRunning

theorem pendsv {fuel : Nat} (runs : OnlyCurrentRuns kernel) (rings : Rings kernel ring)
    (started : kernel.schedulerRunning = true)
    (clean : ∀ task, kernel.currentTask = some task → (kernel.tcb task).state = .running →
      FallsBackOn kernel task)
    (handled : pendsvHandler fuel kernel = some after) : OnlyCurrentRuns after := by
  obtain ⟨rfl, _⟩ | ⟨installed, turned, choice, rfl⟩ := pendsvHandler_cases rings handled
  · exact runs
  refine ⟨fun task isLive isRunning => ?_, fun notStarted => ?_⟩
  · dsimp only at *
    rw [Kernel.live_modify, choice.live_eq] at isLive
    rw [Kernel.tcb_modify, choice.tcb_eq] at isRunning
    split at isRunning
    case isTrue isInstalled => rw [isInstalled]
    case isFalse =>
      have wasCurrent := runs.current task isLive isRunning
      rw [choice.eq_of_fallsBackOn rings (clean task wasCurrent isRunning)]
  · dsimp only at notStarted
    rw [Kernel.schedulerRunning_modify, choice.schedulerRunning_eq, started] at notStarted
    simp at notStarted

theorem step {fuel : Nat} {op : SchedulerOp} (runs : OnlyCurrentRuns kernel)
    (rings : Rings kernel ring) (allowed : SwitchesCleanly kernel op)
    (executed : execOp fuel kernel op = some after) : OnlyCurrentRuns after := by
  obtain ⟨allowed, clean⟩ := allowed
  cases op with
  | create allocated priority =>
      obtain rfl := Option.some.inj executed
      exact runs.create allocated priority
  | delete | suspend | resume => exact allowed.elim
  | start => exact runs.start rings allowed executed
  | delay => exact runs.delay executed
  | yield =>
      obtain rfl := Option.some.inj executed
      exact runs.of_state (fun _ isLive isRunning => ⟨isLive, isRunning⟩) rfl rfl
  | tick => exact runs.tick rings executed
  | pendsv => exact runs.pendsv rings allowed (clean rfl) executed

end OnlyCurrentRuns

theorem onlyCurrentRuns_of_reachable {memory : TaskId → Tcb} {idle : TaskId} {kernel : Kernel}
    (run : Kernel.Reachable SwitchesCleanly (booted memory idle) kernel) :
    OnlyCurrentRuns kernel := by
  induction run with
  | refl =>
      have nothing : OnlyCurrentRuns (.boot memory) := ⟨by simp [Kernel.boot], fun _ => rfl⟩
      exact nothing.create idle taskPriorityIdle
  | tail before step ih =>
      obtain ⟨fuel, op, allowed, executed⟩ := step
      obtain ⟨ring, scheduled⟩ := scheduled_of_reachable SwitchesCleanly.suspendsCleanly before
      exact ih.step scheduled.rings allowed executed

/-- At most one task is running and it is the current one; a task that can
run and is switched out is ready and on its ring afterwards. -/
theorem only_current_runs {memory : TaskId → Tcb} {idle : TaskId} {kernel : Kernel}
    (run : Kernel.Reachable SwitchesCleanly (booted memory idle) kernel) :
    (∀ task ∈ kernel.live, (kernel.tcb task).state = .running →
      kernel.currentTask = some task ∧
        ∀ other ∈ kernel.live, (kernel.tcb other).state = .running → other = task) ∧
    ∀ fuel after task, SwitchesCleanly kernel .pendsv →
      pendsvHandler fuel kernel = some after →
      kernel.currentTask = some task → after.currentTask ≠ some task →
      ((kernel.tcb task).state = .running ∨ (kernel.tcb task).state = .ready) →
      (after.tcb task).state = .ready ∧
        ∃ nodes, Ring after.next after.prev (after.taskList (after.tcb task).priority) nodes ∧
          task ∈ nodes := by
  have runs := onlyCurrentRuns_of_reachable run
  obtain ⟨ring, scheduled⟩ := scheduled_of_reachable SwitchesCleanly.suspendsCleanly run
  constructor
  · intro task isLive isRunning
    have isCurrent := runs.current task isLive isRunning
    refine ⟨isCurrent, fun other otherLive otherRunning => ?_⟩
    have otherCurrent := runs.current other otherLive otherRunning
    rw [isCurrent] at otherCurrent
    exact (Option.some.inj otherCurrent).symm
  · intro fuel after task clean handled isCurrent switched runnable
    obtain ⟨_, stillScheduled, _⟩ := scheduled.pendsv handled
    obtain ⟨rfl, _⟩ | ⟨installed, turned, choice, rfl⟩ :=
      pendsvHandler_cases scheduled.rings handled
    · exact absurd isCurrent switched
    have taskNe : task ≠ installed := fun same => switched (same ▸ rfl)
    have isReady : (kernel.tcb task).state = .ready := by
      refine runnable.resolve_left fun isRunning => taskNe ?_
      exact (choice.eq_of_fallsBackOn scheduled.rings
        (clean.2 rfl task isCurrent isRunning)).symm
    have stillReady : ((turned.modify installed fun tcb =>
        { tcb with runtimeTicks := 0, state := .running }).tcb task).state = .ready := by
      rw [Kernel.tcb_modify, if_neg taskNe, choice.tcb_eq, isReady]
    refine ⟨stillReady, _, stillScheduled.rings.linked _, ?_⟩
    apply stillScheduled.complete task _ stillReady
    dsimp only
    rw [Kernel.live_modify, choice.live_eq]
    exact scheduled.currentLive task isCurrent

def switchingGuard (kernel : Kernel) : SchedulerOp → Bool
  | .create allocated _ => allocated ∉ kernel.live
  | .start => !kernel.schedulerRunning
  | .pendsv => kernel.schedulerRunning
  | .delay _ | .yield | .tick => true
  | .delete _ | .suspend _ | .resume _ => false

theorem switchingOp_of_guard (kernel : Kernel) (op : SchedulerOp)
    (guarded : switchingGuard kernel op = true) : SwitchingOp kernel op := by
  cases op with
  | create =>
      simp only [switchingGuard, decide_eq_true_eq] at guarded
      exact guarded
  | start =>
      simp only [switchingGuard, Bool.not_eq_true'] at guarded
      exact guarded
  | pendsv => exact guarded
  | delay | yield | tick => exact trivial
  | delete | suspend | resume => exact absurd guarded Bool.false_ne_true

/-- The switches at which the current task does not run any more. -/
def switchesCleanlyGuard (kernel : Kernel) (op : SchedulerOp) : Bool :=
  switchingGuard kernel op &&
    (op ≠ .pendsv ∨ kernel.currentTask.all fun task => (kernel.tcb task).state ≠ .running)

theorem switchesCleanly_of_guard (kernel : Kernel) (op : SchedulerOp)
    (guarded : switchesCleanlyGuard kernel op = true) : SwitchesCleanly kernel op := by
  rw [switchesCleanlyGuard, Bool.and_eq_true] at guarded
  refine ⟨switchingOp_of_guard kernel op guarded.1, fun isSwitch task isCurrent isRunning => ?_⟩
  have notRunning := (of_decide_eq_true guarded.2).resolve_left (not_not.mpr isSwitch)
  rw [isCurrent, Option.all_some] at notRunning
  exact absurd isRunning (of_decide_eq_true notRunning)

/-- A task delays itself, another one is switched in, and the delay ends. -/
theorem only_current_runs_after_delay :
    ∃ kernel, Kernel.Reachable SwitchesCleanly (booted (fun _ => {}) 1) kernel ∧
      kernel.currentTask = some 3 ∧ (kernel.tcb 2).state = .ready ∧
      ∀ task ∈ kernel.live, (kernel.tcb task).state = .running →
        kernel.currentTask = some task := by
  obtain ⟨kernel, run, current, ready⟩ :=
    Kernel.exists_reachable switchesCleanly_of_guard 4
      [.create 2 5, .create 3 5, .start, .delay 2, .pendsv, .tick, .yield, .tick]
      (booted (fun _ => {}) 1)
      (fun kernel => kernel.currentTask = some 3 ∧ (kernel.tcb 2).state = .ready)
      (by decide +kernel)
  exact ⟨kernel, run, current, ready, fun task isLive isRunning =>
    ((only_current_runs run).1 task isLive isRunning).1⟩

/-- A task that yields to another one stays in the running state. -/
theorem only_current_runs_two_running :
    ¬ ∀ kernel, Kernel.Reachable SwitchingOp (booted (fun _ => {}) 1) kernel →
      ∀ task ∈ kernel.live, (kernel.tcb task).state = .running →
        kernel.currentTask = some task ∧
          ∀ other ∈ kernel.live, (kernel.tcb other).state = .running → other = task := by
  intro onlyCurrent
  obtain ⟨kernel, run, isLive, isRunning, current⟩ :=
    Kernel.exists_reachable switchingOp_of_guard 4
      [.create 2 5, .create 3 5, .start, .yield, .pendsv] (booted (fun _ => {}) 1)
      (fun kernel => 2 ∈ kernel.live ∧ (kernel.tcb 2).state = .running ∧
        kernel.currentTask = some 3)
      (by decide +kernel)
  have isCurrent := (onlyCurrent kernel run 2 isLive isRunning).1
  rw [current] at isCurrent
  simp at isCurrent

end Rtos

end MiniIotRobotEdge

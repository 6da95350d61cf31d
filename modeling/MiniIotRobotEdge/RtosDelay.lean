import MiniIotRobotEdge.RtosSwitching

/-!
# Delays

`scheduler_tick_handler` counts down the delayed tasks that it meets on the
rings.  `task_delay` takes the current task off its ring when it is the head,
and such a task is never counted down.  A task that stays on its ring is woken
by exactly the tick that it waits for, unless a context switch falls back on
it before.
-/

namespace MiniIotRobotEdge

namespace Rtos

open PointerRing

/-- The calls of a run with delays. -/
def DelayOp (kernel : Kernel) : SchedulerOp → Prop
  | .create allocated _ => allocated ∉ kernel.live
  | .start | .delay _ | .tick | .pendsv => True
  | .delete _ | .suspend _ | .resume _ | .yield => False

/-- The calls while `task` is delayed: it does not run itself. -/
def OthersOp (task : TaskId) (kernel : Kernel) (op : SchedulerOp) : Prop :=
  DelayOp kernel op ∧ ∀ ticks, op = .delay ticks → kernel.currentTask ≠ some task

/-- No switch falls back on the delayed task. -/
def LeavesDelayed (task : TaskId) (kernel : Kernel) (op : SchedulerOp) : Prop :=
  OthersOp task kernel op ∧ (op = .start ∨ op = .pendsv → ¬ FallsBackOn kernel task)

/-- Runs with the number of ticks in them. -/
inductive TickedRun (allowed : Kernel → SchedulerOp → Prop) (first : Kernel) :
    Nat → Kernel → Prop
  | refl : TickedRun allowed first 0 first
  | call {ticks fuel : Nat} {op : SchedulerOp} {kernel after : Kernel}
      (run : TickedRun allowed first ticks kernel) (isAllowed : allowed kernel op)
      (notTick : op ≠ .tick) (executed : execOp fuel kernel op = some after) :
      TickedRun allowed first ticks after
  | tick {ticks fuel : Nat} {kernel after : Kernel}
      (run : TickedRun allowed first ticks kernel) (isAllowed : allowed kernel .tick)
      (handled : schedulerTickHandler fuel kernel = some after) :
      TickedRun allowed first (ticks + 1) after

theorem DelayOp.suspendsCleanly (kernel : Kernel) (op : SchedulerOp)
    (allowed : DelayOp kernel op) : SuspendsCleanly kernel op := by
  cases op with
  | create => exact ⟨allowed, by simp⟩
  | delete | suspend | resume | yield => exact allowed.elim
  | start | delay | tick | pendsv => exact ⟨trivial, by simp⟩

/-- A task that waits on its ring for `ticks` more ticks. -/
structure Waiting (task : TaskId) (ticks : Nat) (kernel : Kernel)
    (ring : Nat → List TaskId) : Prop where
  scheduled : Scheduled kernel ring
  onRing : task ∈ ring (kernel.tcb task).priority
  blocked : (kernel.tcb task).state = .blocked
  remaining : (kernel.tcb task).ticksRemaining = ticks
  started : kernel.schedulerRunning = true
  switched : ∃ current, kernel.currentTask = some current

namespace Waiting

variable {task : TaskId} {ticks : Nat} {kernel after : Kernel} {ring : Nat → List TaskId}

/-- A call that leaves the control block of the task alone, apart from its
links. -/
theorem of_kept (waiting : Waiting task ticks kernel ring) {op : SchedulerOp} {fuel : Nat}
    (allowed : LeavesDelayed task kernel op) (executed : execOp fuel kernel op = some after)
    (priority : (after.tcb task).priority = (kernel.tcb task).priority)
    (state : (after.tcb task).state = (kernel.tcb task).state)
    (remaining : (after.tcb task).ticksRemaining = (kernel.tcb task).ticksRemaining)
    (started : after.schedulerRunning = true)
    (switched : ∃ current, after.currentTask = some current) :
    ∃ ring', Waiting task ticks after ring' := by
  obtain ⟨⟨isDelayOp, notSelf⟩, _⟩ := allowed
  obtain ⟨ring', scheduled, kept⟩ :=
    waiting.scheduled.step (DelayOp.suspendsCleanly kernel op isDelayOp) executed
  refine ⟨ring', scheduled, ?_, state.trans waiting.blocked, remaining.trans waiting.remaining,
    started, switched⟩
  rw [priority]
  apply kept _ task waiting.onRing
  intro unlinked
  cases op with
  | delay delayTicks => exact notSelf delayTicks rfl unlinked
  | suspend => exact isDelayOp
  | create | delete | resume | start | yield | tick | pendsv => exact unlinked

/-- The waiting task is not chosen, so its block is left alone. -/
theorem chosen_ne (waiting : Waiting task ticks kernel ring) {chosen : TaskId} {turned : Kernel}
    (choice : Choice kernel ring taskPriorityHighest (some chosen) turned)
    (leaves : ¬ FallsBackOn kernel task) : task ≠ chosen := by
  rintro rfl
  apply leaves (choice.fallsBackOn waiting.scheduled.rings _)
  rw [waiting.blocked]
  simp

/-- Calls other than ticks leave a waiting task as it is. -/
theorem call (waiting : Waiting task ticks kernel ring) {op : SchedulerOp} {fuel : Nat}
    (allowed : LeavesDelayed task kernel op) (notTick : op ≠ .tick)
    (executed : execOp fuel kernel op = some after) :
    ∃ ring', Waiting task ticks after ring' := by
  have finish := waiting.of_kept allowed executed
  obtain ⟨⟨isDelayOp, notSelf⟩, leaves⟩ := allowed
  cases op with
  | create allocated priority =>
      have isLive := waiting.scheduled.rings.live waiting.onRing
      have taskNe : task ≠ allocated := fun same => isDelayOp (same ▸ isLive)
      obtain rfl := Option.some.inj executed
      apply finish _ _ _ (by simpa using waiting.started) (by simpa using waiting.switched)
      · rw [taskCreate_field _ _ _ Tcb.priority (fun _ _ => rfl) (fun _ _ => rfl), if_neg taskNe]
      · rw [taskCreate_field _ _ _ Tcb.state (fun _ _ => rfl) (fun _ _ => rfl), if_neg taskNe]
      · rw [taskCreate_field _ _ _ Tcb.ticksRemaining (fun _ _ => rfl) (fun _ _ => rfl),
          if_neg taskNe]
  | delete | suspend | resume | yield => exact isDelayOp.elim
  | start =>
      obtain ⟨current, turned, choice, rfl⟩ :=
        schedulerStart_cases waiting.scheduled.rings executed
      have taskNe := waiting.chosen_ne choice (leaves (.inl rfl))
      refine finish ?_ ?_ ?_ rfl ⟨current, rfl⟩ <;>
        dsimp only <;> rw [Kernel.tcb_modify, if_neg taskNe, choice.tcb_eq]
  | delay delayTicks =>
      obtain ⟨_, currentKept, startedKept⟩ := taskDelay_kept executed
      have started : after.schedulerRunning = true := startedKept.trans waiting.started
      obtain ⟨current, isCurrent⟩ := waiting.switched
      have switched : ∃ current, after.currentTask = some current :=
        ⟨current, currentKept.trans isCurrent⟩
      by_cases zero : delayTicks = 0
      · obtain rfl : kernel = after := by simpa [execOp, taskDelay, zero] using executed
        exact finish rfl rfl rfl started switched
      have taskNe : task ≠ current := by
        rintro rfl
        exact notSelf delayTicks rfl isCurrent
      apply finish _ _ _ started switched
      · rw [taskDelay_field zero isCurrent executed Tcb.priority (fun _ _ => rfl)
          (fun _ _ => rfl), Kernel.tcb_modify, if_neg taskNe]
      · rw [taskDelay_field zero isCurrent executed Tcb.state (fun _ _ => rfl)
          (fun _ _ => rfl), Kernel.tcb_modify, if_neg taskNe]
      · rw [taskDelay_field zero isCurrent executed Tcb.ticksRemaining (fun _ _ => rfl)
          (fun _ _ => rfl), Kernel.tcb_modify, if_neg taskNe]
  | tick => exact absurd rfl notTick
  | pendsv =>
      obtain ⟨rfl, _⟩ | ⟨installed, turned, choice, rfl⟩ :=
        pendsvHandler_cases waiting.scheduled.rings executed
      · exact ⟨ring, waiting⟩
      have taskNe := waiting.chosen_ne choice (leaves (.inr rfl))
      have started : turned.schedulerRunning = true :=
        choice.schedulerRunning_eq.trans waiting.started
      refine finish ?_ ?_ ?_ started ⟨installed, rfl⟩ <;>
        dsimp only <;> rw [Kernel.tcb_modify, if_neg taskNe, choice.tcb_eq]

/-- What a tick does to the block of a waiting task. -/
theorem tcb_tick (waiting : Waiting task (ticks + 1) kernel ring) {fuel : Nat}
    (handled : schedulerTickHandler fuel kernel = some after) :
    (after.tcb task).state = (if ticks = 0 then .ready else .blocked) ∧
      (after.tcb task).ticksRemaining = ticks := by
  have reached : ∃ prio < taskPriorityMax, task ∈ ring prio :=
    ⟨_, (waiting.scheduled.mem_ring waiting.onRing).2, waiting.onRing⟩
  have counted : ((countTick kernel).tcb task).state = .blocked ∧
      ((countTick kernel).tcb task).ticksRemaining = ticks + 1 := by
    have state : FieldKept Tcb.state kernel (countTick kernel) := .countTick kernel fun _ _ => rfl
    have remaining : FieldKept Tcb.ticksRemaining kernel (countTick kernel) :=
      .countTick kernel fun _ _ => rfl
    rw [state.tcb, remaining.tcb]
    exact ⟨waiting.blocked, waiting.remaining⟩
  rw [tcb_schedulerTickHandler waiting.scheduled.rings waiting.started handled, if_pos reached,
    tickTcb, if_pos ⟨counted.1, by rw [counted.2]; omega⟩, counted.2, Nat.add_sub_cancel]
  by_cases last : ticks = 0
  · simp [last]
  · simp [last, counted.1]

/-- A tick before the last one. -/
theorem tick (waiting : Waiting task (ticks + 1) kernel ring) (more : ticks ≠ 0) {fuel : Nat}
    (handled : schedulerTickHandler fuel kernel = some after) :
    Waiting task ticks after ring := by
  obtain ⟨state, remaining⟩ := waiting.tcb_tick handled
  have kept : FieldKept Tcb.priority kernel after :=
    .schedulerTickHandler tickTcb_priority (fun _ _ => rfl) handled
  refine ⟨waiting.scheduled.tick handled, ?_, ?_, remaining, ?_, ?_⟩
  · rw [kept.tcb]
    exact waiting.onRing
  · rw [state, if_neg more]
  · rw [kept.schedulerRunning]
    exact waiting.started
  · rw [kept.currentTask]
    exact waiting.switched

end Waiting

/-- A delayed task waits through a run with fewer ticks than its delay. -/
theorem Waiting.run {task : TaskId} {delay ticks : Nat} {first kernel : Kernel}
    {ring : Nat → List TaskId} (waiting : Waiting task delay first ring)
    (run : TickedRun (LeavesDelayed task) first ticks kernel) (early : ticks < delay) :
    ∃ ring', Waiting task (delay - ticks) kernel ring' := by
  induction run with
  | refl => exact ⟨ring, waiting⟩
  | call before isAllowed notTick executed ih =>
      obtain ⟨_, stillWaiting⟩ := ih early
      exact stillWaiting.call isAllowed notTick executed
  | @tick ticks fuel kernel after before isAllowed handled ih =>
      obtain ⟨ring', stillWaiting⟩ := ih (by omega)
      have next : delay - ticks = delay - (ticks + 1) + 1 := by omega
      rw [next] at stillWaiting
      exact ⟨ring', stillWaiting.tick (by omega) handled⟩

/-- A task that stays on its ring when it delays itself. -/
theorem Scheduled.waiting {kernel after : Kernel} {ring : Nat → List TaskId} {task : TaskId}
    {delay : Nat} (scheduled : Scheduled kernel ring) (started : kernel.schedulerRunning = true)
    (current : kernel.currentTask = some task)
    (onRing : task ∈ ring (kernel.tcb task).priority)
    (notHead : kernel.taskList (kernel.tcb task).priority ≠ some task) (positive : delay ≠ 0)
    (delayed : taskDelay kernel delay = some after) : Waiting task delay after ring := by
  obtain ⟨_, currentKept, startedKept⟩ := taskDelay_kept delayed
  have stillScheduled := scheduled.delay current positive delayed
  rw [if_neg notHead] at stillScheduled
  refine ⟨stillScheduled, ?_, ?_, ?_, startedKept.trans started,
    task, currentKept.trans current⟩
  · rw [taskDelay_field positive current delayed Tcb.priority (fun _ _ => rfl) (fun _ _ => rfl),
      Kernel.tcb_modify_self]
    exact onRing
  · rw [taskDelay_field positive current delayed Tcb.state (fun _ _ => rfl) (fun _ _ => rfl),
      Kernel.tcb_modify_self]
  · rw [taskDelay_field positive current delayed Tcb.ticksRemaining (fun _ _ => rfl)
      (fun _ _ => rfl), Kernel.tcb_modify_self]

/-- A task that is linked behind the head of its ring when it delays itself
for `delay` ticks is blocked until the tick of that number, and ready after
it. -/
theorem delay_exact {memory : TaskId → Tcb} {idle task : TaskId} {kernel first reached : Kernel}
    {delay ticks : Nat} (run : Kernel.Reachable DelayOp (booted memory idle) kernel)
    (started : kernel.schedulerRunning = true) (current : kernel.currentTask = some task)
    (linked : ∃ nodes, task ∈ nodes ∧
      Ring kernel.next kernel.prev (kernel.taskList (kernel.tcb task).priority) nodes)
    (notHead : kernel.taskList (kernel.tcb task).priority ≠ some task) (positive : 0 < delay)
    (delayed : taskDelay kernel delay = some first)
    (waited : TickedRun (LeavesDelayed task) first ticks reached) :
    (ticks < delay → (reached.tcb task).state = .blocked ∧
      ∃ fuel after, schedulerTickHandler fuel reached = some after) ∧
    (ticks + 1 = delay → ∀ fuel after, schedulerTickHandler fuel reached = some after →
      (after.tcb task).state = .ready) := by
  obtain ⟨ring, scheduled⟩ := scheduled_of_reachable DelayOp.suspendsCleanly run
  obtain ⟨nodes, onNodes, nodesLinked⟩ := linked
  have onRing := nodesLinked.mem_unique (scheduled.rings.linked _) onNodes
  have waiting := scheduled.waiting started current onRing notHead (by omega) delayed
  constructor
  · intro early
    obtain ⟨ring', stillWaiting⟩ := waiting.run waited early
    obtain ⟨running, isCurrent⟩ := stillWaiting.switched
    exact ⟨stillWaiting.blocked,
      schedulerTickHandler_total stillWaiting.scheduled.rings isCurrent⟩
  · intro last fuel after handled
    obtain ⟨ring', stillWaiting⟩ := waiting.run waited (by omega)
    have one : delay - ticks = 0 + 1 := by omega
    rw [one] at stillWaiting
    exact (stillWaiting.tcb_tick handled).1

def delayGuard (kernel : Kernel) : SchedulerOp → Bool
  | .create allocated _ => allocated ∉ kernel.live
  | .start | .delay _ | .tick | .pendsv => true
  | .delete _ | .suspend _ | .resume _ | .yield => false

theorem delayOp_of_guard (kernel : Kernel) (op : SchedulerOp)
    (guarded : delayGuard kernel op = true) : DelayOp kernel op := by
  cases op with
  | create =>
      simp only [delayGuard, decide_eq_true_eq] at guarded
      exact guarded
  | start | delay | tick | pendsv => exact trivial
  | delete | suspend | resume | yield => exact absurd guarded Bool.false_ne_true

/-- Of two tasks the first one delays itself for two ticks. -/
theorem delay_exact_two_ticks :
    ∃ kernel first reached after, Kernel.Reachable DelayOp (booted (fun _ => {}) 1) kernel ∧
      kernel.currentTask = some 2 ∧ taskDelay kernel 2 = some first ∧
      TickedRun (LeavesDelayed 2) first 1 reached ∧
      (reached.tcb 2).state = .blocked ∧ schedulerTickHandler 4 reached = some after ∧
      (after.tcb 2).state = .ready := by
  obtain ⟨kernel, run, started, current, priority, isHead, next, prev, executed⟩ :=
    Kernel.exists_reachable delayOp_of_guard 4 [.create 2 5, .create 3 5, .start]
      (booted (fun _ => {}) 1)
      (fun kernel => kernel.schedulerRunning = true ∧ kernel.currentTask = some 2 ∧
        (kernel.tcb 2).priority = 5 ∧ kernel.taskList 5 = some 3 ∧
        (kernel.next 2 = 3 ∧ kernel.next 3 = 2) ∧ (kernel.prev 2 = 3 ∧ kernel.prev 3 = 2) ∧
        (taskDelay kernel 2).any (fun first =>
          (∀ prio < 33, first.taskList prio ≠ some 2) ∧
          (pendsvHandler 4 first).any fun switched =>
            (schedulerTickHandler 4 switched).any fun reached =>
              (schedulerTickHandler 4 reached).isSome) = true)
      (by decide +kernel)
  obtain ⟨first, delayed, executed⟩ := (Option.any_eq_true _ _).mp executed
  obtain ⟨notListed, executed⟩ := of_decide_eq_true executed
  obtain ⟨switched, handled, executed⟩ := (Option.any_eq_true _ _).mp executed
  obtain ⟨reached, ticked, executed⟩ := (Option.any_eq_true _ _).mp executed
  obtain ⟨after, tickedAgain⟩ := Option.isSome_iff_exists.mp executed
  have leaves : ¬ FallsBackOn first 2 := by
    rintro ⟨prio, _, top, _⟩
    exact notListed prio (Nat.lt_succ_of_le top.bounded) top.listed
  have switchAllowed : LeavesDelayed 2 first .pendsv := ⟨⟨trivial, by simp⟩, fun _ => leaves⟩
  have executedSwitch : execOp 4 first .pendsv = some switched := handled
  have waited : TickedRun (LeavesDelayed 2) first 1 reached :=
    .tick (.call .refl switchAllowed (by simp) executedSwitch)
      ⟨⟨trivial, by simp⟩, by simp⟩ ticked
  have linked : Ring kernel.next kernel.prev (kernel.taskList (kernel.tcb 2).priority) [3, 2] := by
    rw [priority, isHead]
    exact ⟨rfl, by simp, by simp [next], by simp [next, prev]⟩
  have notHead : kernel.taskList (kernel.tcb 2).priority ≠ some 2 := by simp [priority, isHead]
  have exact := delay_exact run started current ⟨[3, 2], by simp, linked⟩ notHead
    (by decide) delayed waited
  exact ⟨kernel, first, reached, after, run, current, delayed, waited, (exact.1 (by decide)).1,
    tickedAgain, exact.2 rfl 4 after tickedAgain⟩

/-- A task that is alone at its priority leaves its ring when it delays itself
and is never woken. -/
theorem delay_exact_alone :
    ¬ ∀ kernel task delay first ticks reached,
      Kernel.Reachable DelayOp (booted (fun _ => {}) 1) kernel →
      kernel.schedulerRunning = true → kernel.currentTask = some task → 0 < delay →
      taskDelay kernel delay = some first → TickedRun (OthersOp task) first ticks reached →
      (ticks < delay → (reached.tcb task).state ≠ .ready) ∧
      (ticks + 1 = delay → ∀ fuel after, schedulerTickHandler fuel reached = some after →
        (after.tcb task).state = .ready) := by
  intro woken
  obtain ⟨kernel, run, started, current, executed⟩ :=
    Kernel.exists_reachable delayOp_of_guard 4 [.create 2 5, .start] (booted (fun _ => {}) 1)
      (fun kernel => kernel.schedulerRunning = true ∧ kernel.currentTask = some 2 ∧
        (taskDelay kernel 1).any (fun first =>
          (schedulerTickHandler 4 first).any fun after => (after.tcb 2).state = .blocked) = true)
      (by decide +kernel)
  obtain ⟨first, delayed, executed⟩ := (Option.any_eq_true _ _).mp executed
  obtain ⟨after, ticked, isBlocked⟩ := (Option.any_eq_true _ _).mp executed
  have ready := (woken kernel 2 1 first 0 first run started current (by decide) delayed .refl).2
    rfl 4 after ticked
  rw [of_decide_eq_true isBlocked] at ready
  simp at ready

end Rtos

end MiniIotRobotEdge

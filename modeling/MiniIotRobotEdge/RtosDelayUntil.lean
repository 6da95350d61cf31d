import Mathlib.Tactic.SplitIfs
import MiniIotRobotEdge.RtosDelay

/-!
# Periodic delays

The model of `task_delay_until` in `task_scheduler.c`.  The scheduled tick is
compared with the counter as it stands, so it looks past once it lies behind the
wrap of the counter, and the next period begins at the tick in which the call
returns.
-/

namespace MiniIotRobotEdge

namespace Rtos

/-- What `task_delay_until` passes to `task_delay`, if it calls it. -/
def delayUntilTicks (now lastWake ticks : Nat) : Option Nat :=
  let next := (lastWake + ticks) % uint32Size
  if now < next then some (next - now) else none

/-- `task_delay_until` up to the point where the task is switched out. -/
def taskDelayUntil (kernel : Kernel) (lastWake ticks : Nat) : Option Kernel :=
  match delayUntilTicks kernel.tickCount lastWake ticks with
  | none => some kernel
  | some delay => taskDelay kernel delay

/-- What `task_delay_until` leaves in `*last_wake` when it returns. -/
def lastWakeOnReturn (returned : Kernel) : Nat := returned.tickCount

/-- The ticks since the last wake-up. -/
def elapsed (now lastWake : Nat) : Nat := (now + (uint32Size - lastWake)) % uint32Size

/-- The scheduler is started once. -/
def AfterStart (_ : Kernel) (op : SchedulerOp) : Prop := op ≠ .start

/-- The tick counter and the flag of the scheduler stay. -/
def ClockKept (before after : Kernel) : Prop :=
  after.tickCount = before.tickCount ∧ after.schedulerRunning = before.schedulerRunning

namespace ClockKept

variable {kernel after : Kernel} {fuel : Nat}

theorem linkTail (kernel : Kernel) (priority : Nat) (task : TaskId) :
    ClockKept kernel (linkTail kernel priority task) := by
  unfold Rtos.linkTail
  split
  · exact ⟨rfl, rfl⟩
  · exact ⟨rfl, rfl⟩

theorem taskCreate (kernel : Kernel) (allocated : Option TaskId) (priority : Nat) :
    ClockKept kernel (taskCreate kernel allocated priority) := by
  unfold Rtos.taskCreate
  split
  · exact ⟨rfl, rfl⟩
  · exact linkTail _ _ _

theorem taskDelete (kernel : Kernel) (task : TaskId) :
    ClockKept kernel (taskDelete kernel task) := by
  unfold Rtos.taskDelete
  dsimp only
  split_ifs <;> exact ⟨rfl, rfl⟩

theorem taskSuspend (kernel : Kernel) (task : TaskId) :
    ClockKept kernel (taskSuspend kernel task) := by
  unfold Rtos.taskSuspend
  dsimp only
  split_ifs <;> exact ⟨rfl, rfl⟩

theorem taskResume (kernel : Kernel) (task : TaskId) :
    ClockKept kernel (taskResume kernel task) := by
  unfold Rtos.taskResume
  split
  · dsimp only
    split
    · exact linkTail _ _ _
    · split
      · exact linkTail _ _ _
      · exact linkTail _ _ _
  · exact ⟨rfl, rfl⟩

theorem taskDelay {ticks : Nat} (delayed : taskDelay kernel ticks = some after) :
    ClockKept kernel after := by
  unfold Rtos.taskDelay at delayed
  split at delayed
  · obtain rfl := Option.some.inj delayed
    exact ⟨rfl, rfl⟩
  · split at delayed
    · cases delayed
    · obtain rfl := Option.some.inj delayed
      split_ifs <;> exact ⟨rfl, rfl⟩

theorem findNextTaskFrom {prio : Nat} {found : Option TaskId}
    (searched : findNextTaskFrom fuel kernel prio = some (found, after)) :
    ClockKept kernel after := by
  induction prio with
  | zero =>
      obtain ⟨_, rfl⟩ : _ ∧ kernel = after := by simpa [Rtos.findNextTaskFrom] using searched
      exact ⟨rfl, rfl⟩
  | succ prio ih =>
      rw [Rtos.findNextTaskFrom] at searched
      split at searched
      · exact ih searched
      · split at searched
        · cases searched
        · obtain ⟨_, rfl⟩ := Prod.mk.inj (Option.some.inj searched)
          exact ⟨rfl, rfl⟩
        · obtain ⟨_, rfl⟩ := Prod.mk.inj (Option.some.inj searched)
          exact ⟨rfl, rfl⟩

theorem pendsvHandler (handled : pendsvHandler fuel kernel = some after) :
    ClockKept kernel after := by
  unfold Rtos.pendsvHandler at handled
  split at handled
  · cases handled
  · rename_i searched
    obtain rfl := Option.some.inj handled
    exact findNextTaskFrom searched
  · rename_i searched
    obtain rfl := Option.some.inj handled
    have kept := findNextTaskFrom searched
    exact ⟨kept.1, kept.2⟩

/-- Only a tick and the start of the scheduler touch the clock. -/
theorem execOp {op : SchedulerOp} (notStart : op ≠ .start) (notTick : op ≠ .tick)
    (executed : execOp fuel kernel op = some after) : ClockKept kernel after := by
  cases op with
  | create allocated priority => exact Option.some.inj executed ▸ taskCreate _ _ _
  | delete task => exact Option.some.inj executed ▸ taskDelete _ _
  | suspend task => exact Option.some.inj executed ▸ taskSuspend _ _
  | resume task => exact Option.some.inj executed ▸ taskResume _ _
  | start => exact absurd rfl notStart
  | delay ticks => exact taskDelay executed
  | yield => exact Option.some.inj executed ▸ ⟨rfl, rfl⟩
  | tick => exact absurd rfl notTick
  | pendsv => exact pendsvHandler executed

end ClockKept

theorem tickCount_schedulerTickHandler {fuel : Nat} {kernel after : Kernel}
    (running : kernel.schedulerRunning = true)
    (handled : schedulerTickHandler fuel kernel = some after) :
    after.tickCount = (kernel.tickCount + 1) % uint32Size ∧ after.schedulerRunning = true := by
  have counted : (countTick kernel).tickCount = (kernel.tickCount + 1) % uint32Size ∧
      (countTick kernel).schedulerRunning = true := by
    unfold countTick
    dsimp only
    split
    · exact ⟨rfl, running⟩
    · exact ⟨rfl, running⟩
  rw [schedulerTickHandler_eq running] at handled
  split at handled
  · cases handled
  · rename_i walked
    have kept := @tickRings_invariant (fun kernel' => kernel'.tickCount =
      (kernel.tickCount + 1) % uint32Size ∧ kernel'.schedulerRunning = true) _ _ _ _
      (fun _ _ kept => kept) counted walked
    rcases preemptRings_cases handled with rfl | rfl
    · exact kept
    · exact kept

/-- The counter advances by the ticks of a run. -/
theorem TickedRun.tickCount {first kernel : Kernel} {ticks : Nat}
    (running : first.schedulerRunning = true) (inRange : first.tickCount < uint32Size)
    (run : TickedRun AfterStart first ticks kernel) :
    kernel.tickCount = (first.tickCount + ticks) % uint32Size ∧
      kernel.schedulerRunning = true := by
  induction run with
  | refl => exact ⟨(Nat.mod_eq_of_lt inRange).symm, running⟩
  | call before isAllowed notTick executed ih =>
      obtain ⟨sameTick, sameFlag⟩ := ClockKept.execOp isAllowed notTick executed
      exact ⟨sameTick.trans ih.1, sameFlag.trans ih.2⟩
  | tick before isAllowed handled ih =>
      obtain ⟨counted, stillRunning⟩ := tickCount_schedulerTickHandler ih.2 handled
      refine ⟨?_, stillRunning⟩
      rw [counted, ih.1, Nat.mod_add_mod, Nat.add_assoc]

/-- A call that begins less than a period after the last wake-up delays by exactly the
rest of the period, and the next period begins where this one ends. -/
structure DelayedUntil (kernel : Kernel) (lastWake ticks : Nat) (returned : Kernel) : Prop where
  delay : delayUntilTicks kernel.tickCount lastWake ticks =
    some (ticks - elapsed kernel.tickCount lastWake)
  lastWake : lastWakeOnReturn returned = (lastWake + ticks) % uint32Size

theorem taskDelayUntil_clock {kernel first : Kernel} {lastWake ticks : Nat}
    (called : taskDelayUntil kernel lastWake ticks = some first) : ClockKept kernel first := by
  unfold taskDelayUntil at called
  split at called
  · obtain rfl := Option.some.inj called
    exact ⟨rfl, rfl⟩
  · exact .taskDelay called

/-- The call delays by the rest of the period exactly when the scheduled tick does not
lie behind a wrap that the counter has yet to make. -/
theorem delayUntilTicks_iff {now lastWake ticks : Nat} (nowLt : now < uint32Size)
    (lastWakeLt : lastWake < uint32Size) (early : elapsed now lastWake < ticks)
    (short : ticks < 2 ^ 31) :
    delayUntilTicks now lastWake ticks = some (ticks - elapsed now lastWake) ↔
      (lastWake ≤ now → lastWake + ticks < uint32Size) := by
  unfold elapsed at early ⊢
  unfold delayUntilTicks
  unfold uint32Size at *
  dsimp only
  by_cases future : now < (lastWake + ticks) % 2 ^ 32
  · rw [if_pos future]
    apply iff_of_true (congrArg some ?_)
    · omega
    · omega
  · rw [if_neg future]
    apply iff_of_false nofun
    omega

/-- The period is kept exactly when the scheduled tick does not lie behind a wrap of the
counter, and the call returns in that tick. -/
theorem delayedUntil_iff {kernel first returned : Kernel} {lastWake ticks passed : Nat}
    (running : kernel.schedulerRunning = true) (nowLt : kernel.tickCount < uint32Size)
    (lastWakeLt : lastWake < uint32Size) (early : elapsed kernel.tickCount lastWake < ticks)
    (short : ticks < 2 ^ 31) (called : taskDelayUntil kernel lastWake ticks = some first)
    (run : TickedRun AfterStart first passed returned) :
    DelayedUntil kernel lastWake ticks returned ↔
      (lastWake ≤ kernel.tickCount → lastWake + ticks < uint32Size) ∧
        passed % uint32Size = ticks - elapsed kernel.tickCount lastWake := by
  obtain ⟨sameTick, sameFlag⟩ := taskDelayUntil_clock called
  have counted := (run.tickCount (sameFlag.trans running) (sameTick ▸ nowLt)).1
  rw [sameTick] at counted
  have returns : lastWakeOnReturn returned = (lastWake + ticks) % uint32Size ↔
      passed % uint32Size = ticks - elapsed kernel.tickCount lastWake := by
    rw [lastWakeOnReturn, counted]
    unfold elapsed at early ⊢
    unfold uint32Size at *
    omega
  constructor
  · rintro ⟨delay, woken⟩
    exact ⟨(delayUntilTicks_iff nowLt lastWakeLt early short).mp delay, returns.mp woken⟩
  · rintro ⟨noWrap, onTime⟩
    exact ⟨(delayUntilTicks_iff nowLt lastWakeLt early short).mpr noWrap, returns.mpr onTime⟩

/-- A task runs at the given tick. -/
def runningAt (tick : Nat) : Kernel :=
  { Kernel.boot (fun _ => {}) with
    currentTask := some 1, tickCount := tick, schedulerRunning := true }

/-- Five ticks before the wrap of the counter, the period that ends behind it is cut
short. -/
theorem delayedUntil_wrap :
    elapsed (runningAt 4294967291).tickCount 4294967286 < 20 ∧
      taskDelayUntil (runningAt 4294967291) 4294967286 20 = some (runningAt 4294967291) ∧
      ∀ passed returned, TickedRun AfterStart (runningAt 4294967291) passed returned →
        ¬DelayedUntil (runningAt 4294967291) 4294967286 20 returned := by
  have notDelayed : delayUntilTicks (runningAt 4294967291).tickCount 4294967286 20 = none := by
    decide
  refine ⟨by decide, ?_, ?_⟩
  · rw [taskDelayUntil, notDelayed]
  · rintro passed returned _ ⟨delay, _⟩
    rw [notDelayed] at delay
    cases delay

theorem delayedUntil_onTime : ∃ returned, DelayedUntil (runningAt 100) 98 3 returned := by
  obtain ⟨first, called, executed⟩ : ∃ first, taskDelayUntil (runningAt 100) 98 3 = some first ∧
      (schedulerTickHandler 1 first).isSome = true := by
    have executes : ((taskDelayUntil (runningAt 100) 98 3).any fun first =>
        (schedulerTickHandler 1 first).isSome) = true := by decide +kernel
    exact (Option.any_eq_true _ _).mp executes
  obtain ⟨returned, ticked⟩ := Option.isSome_iff_exists.mp executed
  have run : TickedRun AfterStart first 1 returned := .tick .refl (by simp [AfterStart]) ticked
  exact ⟨returned, (delayedUntil_iff rfl (by decide) (by decide) (by decide) (by decide) called
    run).mpr ⟨by decide, by decide⟩⟩

end Rtos

end MiniIotRobotEdge

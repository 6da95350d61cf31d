import MiniIotRobotEdge.RtosTaskScheduler

/-!
# What a tick changes

`scheduler_tick_handler` walks every ready ring twice: once to count down the
delayed tasks, once to look for a task above the current one.  The first walk
only touches the fields that `tickTcb` assigns, and the second one only sets
`context_switch_pending`.
-/

namespace MiniIotRobotEdge

namespace Rtos

/-- Assigning fields of a block keeps every other field of all blocks. -/
theorem Kernel.field_modify {Field : Type*} (field : Tcb → Field) (kernel : Kernel)
    (task : TaskId) {change : Tcb → Tcb} (kept : ∀ tcb, field (change tcb) = field tcb)
    (other : TaskId) :
    field ((kernel.modify task change).tcb other) = field (kernel.tcb other) := by
  rw [Kernel.tcb_modify]
  split
  case isTrue same => rw [same, kept]
  case isFalse => rfl

theorem joinNeighbours_field {Field : Type*} {field : Tcb → Field}
    (next : ∀ tcb task, field { tcb with next := task } = field tcb)
    (prev : ∀ tcb task, field { tcb with prev := task } = field tcb)
    (kernel : Kernel) (task other : TaskId) :
    field ((joinNeighbours kernel task).tcb other) = field (kernel.tcb other) := by
  unfold joinNeighbours
  rw [Kernel.field_modify field _ _ (fun tcb => prev tcb _),
    Kernel.field_modify field _ _ (fun tcb => next tcb _)]

/-- What one task's share of a tick keeps, the walk over the rings keeps. -/
theorem tickRings_invariant {property : Kernel → Prop} {fuel count : Nat}
    {kernel after : Kernel}
    (kept : ∀ kernel task, property kernel → property (kernel.modify task tickTcb))
    (base : property kernel) (walked : tickRings fuel kernel count = some after) :
    property after := by
  induction count generalizing after with
  | zero =>
      obtain rfl : kernel = after := by simpa [tickRings] using walked
      exact base
  | succ prio ih =>
      rw [tickRings] at walked
      split at walked
      · simp at walked
      · rename_i lower lowerWalked
        have lowerKept := ih lowerWalked
        split at walked
        · obtain rfl : lower = after := by simpa using walked
          exact lowerKept
        · split at walked
          · simp at walked
          · rename_i looped
            obtain rfl := Option.some.inj walked
            apply PointerRing.loop_invariant property _ lowerKept looped
            intro state node state' stateKept stepped
            obtain rfl := Sum.inl.inj stepped
            exact kept state node stateKept
          · rename_i result _
            exact result.elim

/-- The search for a task to switch to at most asks for a switch. -/
theorem preemptRings_cases {fuel prio : Nat} {kernel after : Kernel}
    (searched : preemptRings fuel kernel prio = some after) :
    after = kernel ∨ after = { kernel with contextSwitchPending := true } := by
  induction prio with
  | zero =>
      left
      simpa [preemptRings] using searched.symm
  | succ prio ih =>
      rw [preemptRings] at searched
      split at searched
      · exact ih searched
      · split at searched
        · simp at searched
        · simp at searched
        · exact .inr (Option.some.inj searched).symm
        · split at searched
          · exact .inl (Option.some.inj searched).symm
          · exact ih searched

/-- The kernel after an operation that leaves the rings' heads, the set of
live blocks, the current task and one field of every control block alone. -/
structure FieldKept {Field : Type*} (field : Tcb → Field) (before after : Kernel) :
    Prop where
  tcb : ∀ task, field (after.tcb task) = field (before.tcb task)
  taskList : after.taskList = before.taskList
  live : after.live = before.live
  currentTask : after.currentTask = before.currentTask
  schedulerRunning : after.schedulerRunning = before.schedulerRunning

namespace FieldKept

variable {Field : Type*} {field : Tcb → Field} {first second third : Kernel}

theorem refl (kernel : Kernel) : FieldKept field kernel kernel :=
  ⟨fun _ => rfl, rfl, rfl, rfl, rfl⟩

theorem trans (left : FieldKept field first second)
    (right : FieldKept field second third) : FieldKept field first third :=
  ⟨fun task => (right.tcb task).trans (left.tcb task),
    right.taskList.trans left.taskList, right.live.trans left.live,
    right.currentTask.trans left.currentTask,
    right.schedulerRunning.trans left.schedulerRunning⟩

theorem modify {kernel : Kernel} {task : TaskId} {change : Tcb → Tcb}
    (kept : ∀ tcb, field (change tcb) = field tcb) :
    FieldKept field kernel (kernel.modify task change) := by
  exact ⟨Kernel.field_modify field kernel task kept, rfl, rfl, rfl, rfl⟩

theorem tickRings {fuel count : Nat} {kernel after : Kernel}
    (ticked : ∀ tcb, field (tickTcb tcb) = field tcb)
    (walked : tickRings fuel kernel count = some after) :
    FieldKept field kernel after := by
  refine tickRings_invariant (fun changed task kept => ?_) (.refl kernel) walked
  exact kept.trans (.modify ticked)

theorem preemptRings {fuel prio : Nat} {kernel after : Kernel}
    (searched : preemptRings fuel kernel prio = some after) :
    FieldKept field kernel after := by
  rcases preemptRings_cases searched with rfl | rfl
  · exact .refl after
  · exact ⟨fun _ => rfl, rfl, rfl, rfl, rfl⟩

end FieldKept

/-- The part of `scheduler_tick_handler` before its loops. -/
def countTick (kernel : Kernel) : Kernel :=
  let kernel := { kernel with tickCount := (kernel.tickCount + 1) % uint32Size }
  match kernel.currentTask with
  | none => kernel
  | some current => kernel.modify current fun tcb =>
      { tcb with runtimeTicks := (tcb.runtimeTicks + 1) % uint32Size }

theorem schedulerTickHandler_eq {fuel : Nat} {kernel : Kernel}
    (running : kernel.schedulerRunning = true) :
    schedulerTickHandler fuel kernel =
      match tickRings fuel (countTick kernel) taskPriorityMax with
      | none => none
      | some kernel => preemptRings fuel kernel taskPriorityHighest := by
  rw [schedulerTickHandler, if_pos running]
  rfl

theorem FieldKept.countTick {Field : Type*} {field : Tcb → Field} (kernel : Kernel)
    (counted : ∀ tcb ticks, field { tcb with runtimeTicks := ticks } = field tcb) :
    FieldKept field kernel (countTick kernel) := by
  have ticked : FieldKept field kernel
      { kernel with tickCount := (kernel.tickCount + 1) % uint32Size } :=
    ⟨fun _ => rfl, rfl, rfl, rfl, rfl⟩
  unfold Rtos.countTick
  dsimp only
  split
  · exact ticked
  · exact ticked.trans (.modify fun tcb => counted tcb _)

/-- A tick keeps every field that it does not count in. -/
theorem FieldKept.schedulerTickHandler {Field : Type*} {field : Tcb → Field} {fuel : Nat}
    {kernel after : Kernel} (ticked : ∀ tcb, field (tickTcb tcb) = field tcb)
    (counted : ∀ tcb ticks, field { tcb with runtimeTicks := ticks } = field tcb)
    (handled : schedulerTickHandler fuel kernel = some after) :
    FieldKept field kernel after := by
  by_cases running : kernel.schedulerRunning = true
  · rw [schedulerTickHandler_eq running] at handled
    split at handled
    · simp at handled
    · rename_i walked
      exact ((FieldKept.countTick kernel counted).trans (.tickRings ticked walked)).trans
        (.preemptRings handled)
  · obtain rfl : kernel = after := by
      simpa [Rtos.schedulerTickHandler, running] using handled
    exact .refl kernel

end Rtos

end MiniIotRobotEdge

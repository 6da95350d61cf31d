import MiniIotRobotEdge.RtosEventGroups
import MiniIotRobotEdge.RtosTickHandler

/-!
# The wait lists of the event groups

The operations on an event group change its list in two ways only: a task that
blocks is put in front, and a task that a walk has found is taken out, from the
head or from behind its predecessor.  The scheduler does not touch the links;
at most it resets a pointer to wait information when a delay ends.
-/

namespace MiniIotRobotEdge

namespace Rtos

open PointerChain

/-- The scheduler leaves the wait lists alone and at most resets the pointers
to wait information. -/
def WaitFieldsKept (before after : Kernel) : Prop :=
  ∀ task, (after.tcb task).blockNext = (before.tcb task).blockNext ∧
    ((after.tcb task).blockObj = (before.tcb task).blockObj ∨
      (after.tcb task).blockObj = none)

namespace WaitFieldsKept

variable {first second third kernel after : Kernel}

theorem of_tcb (same : second.tcb = first.tcb) : WaitFieldsKept first second := by
  intro task
  rw [same]
  exact ⟨rfl, .inl rfl⟩

theorem trans (left : WaitFieldsKept first second) (right : WaitFieldsKept second third) :
    WaitFieldsKept first third := by
  intro task
  obtain ⟨leftNext, leftObj⟩ := left task
  obtain ⟨rightNext, rightObj⟩ := right task
  refine ⟨rightNext.trans leftNext, ?_⟩
  rcases rightObj with same | reset
  · rw [same]
    exact leftObj
  · exact .inr reset

theorem modify (kernel : Kernel) (task : TaskId) {change : Tcb → Tcb}
    (kept : ∀ tcb, (change tcb).blockNext = tcb.blockNext ∧
      ((change tcb).blockObj = tcb.blockObj ∨ (change tcb).blockObj = none)) :
    WaitFieldsKept kernel (kernel.modify task change) := by
  intro other
  rw [Kernel.tcb_modify]
  split
  case isTrue same =>
    rw [same]
    exact kept _
  case isFalse => exact ⟨rfl, .inl rfl⟩

theorem joinNeighbours (kernel : Kernel) (task : TaskId) :
    WaitFieldsKept kernel (joinNeighbours kernel task) := by
  unfold Rtos.joinNeighbours
  exact (modify _ _ (by simp)).trans (modify _ _ (by simp))

theorem taskDelay {ticks : Nat} (delayed : taskDelay kernel ticks = some after) :
    WaitFieldsKept kernel after := by
  unfold Rtos.taskDelay at delayed
  split at delayed
  · obtain rfl : kernel = after := by simpa using delayed
    exact of_tcb rfl
  · split at delayed
    · simp at delayed
    · rename_i current _
      obtain rfl := Option.some.inj delayed
      have blocked : WaitFieldsKept kernel (kernel.modify current fun tcb =>
          { tcb with ticksRemaining := ticks, state := .blocked }) :=
        modify _ _ fun _ => ⟨rfl, .inl rfl⟩
      split
      · split
        · exact blocked.trans (of_tcb rfl)
        · exact (blocked.trans (of_tcb rfl)).trans (joinNeighbours _ _)
      · exact blocked.trans (of_tcb rfl)

theorem tickTcb_kept (tcb : Tcb) : (tickTcb tcb).blockNext = tcb.blockNext ∧
    ((tickTcb tcb).blockObj = tcb.blockObj ∨ (tickTcb tcb).blockObj = none) := by
  unfold tickTcb
  split
  · split
    · exact ⟨rfl, .inr rfl⟩
    · exact ⟨rfl, .inl rfl⟩
  · exact ⟨rfl, .inl rfl⟩

theorem countTick (kernel : Kernel) : WaitFieldsKept kernel (countTick kernel) := by
  unfold Rtos.countTick
  dsimp only
  split
  · exact of_tcb rfl
  · exact (of_tcb rfl).trans (modify _ _ fun _ => ⟨rfl, .inl rfl⟩)

theorem schedulerTickHandler {fuel : Nat}
    (handled : schedulerTickHandler fuel kernel = some after) :
    WaitFieldsKept kernel after := by
  by_cases running : kernel.schedulerRunning = true
  · rw [schedulerTickHandler_eq running] at handled
    split at handled
    · simp at handled
    · rename_i walked
      have counted := tickRings_invariant
        (fun _ _ kept => trans kept (modify _ _ tickTcb_kept)) (countTick kernel) walked
      rcases preemptRings_cases handled with rfl | rfl
      · exact counted
      · exact counted.trans (of_tcb rfl)
  · obtain rfl : kernel = after := by
      simpa [Rtos.schedulerTickHandler, running] using handled
    exact of_tcb rfl

theorem findNextTaskFrom_tcb {fuel prio : Nat} {found : Option TaskId}
    (searched : findNextTaskFrom fuel kernel prio = some (found, after)) :
    after.tcb = kernel.tcb := by
  induction prio with
  | zero =>
      obtain ⟨_, rfl⟩ : _ ∧ kernel = after := by simpa [findNextTaskFrom] using searched
      rfl
  | succ prio ih =>
      rw [findNextTaskFrom] at searched
      split at searched
      · exact ih searched
      · split at searched
        · simp at searched
        · obtain ⟨_, rfl⟩ := Prod.mk.inj (Option.some.inj searched)
          rfl
        · obtain ⟨_, rfl⟩ := Prod.mk.inj (Option.some.inj searched)
          rfl

theorem pendsvHandler {fuel : Nat} (handled : pendsvHandler fuel kernel = some after) :
    WaitFieldsKept kernel after := by
  unfold Rtos.pendsvHandler at handled
  split at handled
  · simp at handled
  · rename_i searched
    obtain rfl := Option.some.inj handled
    exact of_tcb (findNextTaskFrom_tcb searched)
  · rename_i nextTask turned searched
    obtain rfl := Option.some.inj handled
    have switched : WaitFieldsKept turned (turned.modify nextTask fun tcb =>
        { tcb with runtimeTicks := 0, state := .running }) :=
      modify _ _ fun _ => ⟨rfl, .inl rfl⟩
    exact ((of_tcb (findNextTaskFrom_tcb searched)).trans switched).trans (of_tcb rfl)

end WaitFieldsKept

/-- The wait of a task that has found its bits to be nonzero. -/
def EventPc.awaited : EventPc → Option EventWait
  | .entering wait _ => some wait
  | pc => pc.waiting

theorem EventPc.awaited_of_waiting {pc : EventPc} {wait : EventWait}
    (waiting : pc.waiting = some wait) : pc.awaited = some wait := by
  cases pc with
  | entering => simp [EventPc.waiting] at waiting
  | _ => exact waiting

section Accessors

variable (system : EventSystem) (task : TaskId) (group : Nat)

theorem EventSystem.link_modifyTask (change : Tcb → Tcb) :
    (system.modifyTask task change).link =
      Function.update system.link task (change (system.kernel.tcb task)).blockNext := by
  ext other
  by_cases same : other = task
  · simp [link, modifyTask, same]
  · simp [link, modifyTask, Kernel.tcb_modify, same]

theorem EventSystem.tcb_modifyTask (change : Tcb → Tcb) (other : TaskId) :
    (system.modifyTask task change).kernel.tcb other =
      if other = task then change (system.kernel.tcb task) else system.kernel.tcb other :=
  Kernel.tcb_modify _ _ _ _

theorem EventSystem.groups_modifyGroup (change : EventGroup → EventGroup) (other : Nat) :
    (system.modifyGroup group change).groups other =
      if other = group then change (system.groups group) else system.groups other := by
  simp [modifyGroup, Function.update_apply]

theorem EventSystem.bits_setBits (bits : EventBits) (other : Nat) :
    (system.setBits group bits).bits other =
      if other = group then bits else system.bits other := by
  unfold setBits EventSystem.bits
  rw [groups_modifyGroup]
  split <;> rfl

theorem EventSystem.blockedTasks_setBits (bits : EventBits) (other : Nat) :
    ((system.setBits group bits).groups other).blockedTasks =
      (system.groups other).blockedTasks := by
  unfold setBits
  rw [groups_modifyGroup]
  split
  case isTrue same => rw [same]
  case isFalse => rfl

theorem EventSystem.pc_setPc (pc : EventPc) (other : TaskId) :
    (system.setPc task pc).pc other = if other = task then pc else system.pc other := by
  simp [setPc, Function.update_apply]

theorem blockWaiter_link : (blockWaiter system group task).link =
    Function.update system.link task (system.groups group).blockedTasks := by
  unfold blockWaiter
  dsimp only
  change (system.modifyTask task fun tcb => _).link = _
  rw [EventSystem.link_modifyTask]

theorem blockWaiter_blockedTasks (other : Nat) :
    ((blockWaiter system group task).groups other).blockedTasks =
      if other = group then some task else (system.groups other).blockedTasks := by
  unfold blockWaiter
  rw [EventSystem.groups_modifyGroup]
  split <;> rfl

theorem blockWaiter_bits (other : Nat) :
    (blockWaiter system group task).bits other = system.bits other := by
  unfold blockWaiter EventSystem.bits
  rw [EventSystem.groups_modifyGroup]
  split
  case isTrue same =>
    rw [same]
    rfl
  case isFalse => rfl

theorem blockWaiter_blockObj (other : TaskId) :
    ((blockWaiter system group task).kernel.tcb other).blockObj =
      if other = task then some (.eventWaitInfo task)
      else (system.kernel.tcb other).blockObj := by
  unfold blockWaiter
  change ((system.modifyTask task fun tcb => _).kernel.tcb other).blockObj = _
  rw [EventSystem.tcb_modifyTask]
  split <;> rfl

end Accessors

/-- A change that keeps the lists, the bits and who waits. -/
structure SameWaits (before after : EventSystem) : Prop where
  kernel : WaitFieldsKept before.kernel after.kernel
  groups : after.groups = before.groups
  waiting : ∀ task, (after.pc task).waiting = (before.pc task).waiting
  awaited : ∀ task wait, (after.pc task).awaited = some wait →
    (before.pc task).awaited = some wait ∨ wait.waitBits ≠ 0

namespace SameWaits

variable {system : EventSystem} {task : TaskId}

theorem of_kernel {kernel : Kernel} (kept : WaitFieldsKept system.kernel kernel) :
    SameWaits system { system with kernel := kernel } :=
  ⟨kept, rfl, fun _ => rfl, fun _ _ => .inl⟩

theorem dispatch : SameWaits system (system.dispatch task) :=
  of_kernel (.of_tcb rfl)

theorem setPc {pc : EventPc} (waiting : pc.waiting = (system.pc task).waiting)
    (awaited : ∀ wait, pc.awaited = some wait →
      (system.pc task).awaited = some wait ∨ wait.waitBits ≠ 0) :
    SameWaits system (system.setPc task pc) := by
  refine ⟨.of_tcb rfl, rfl, fun other => ?_, fun other wait => ?_⟩
  · rw [EventSystem.pc_setPc]
    split
    case isTrue same => rw [waiting, same]
    case isFalse => rfl
  · rw [EventSystem.pc_setPc]
    split
    case isTrue same =>
      rw [same]
      exact awaited wait
    case isFalse => exact .inl

end SameWaits

/-- Take a task out of the list of its group and reset its link. -/
def unlinkWaiter (system : EventSystem) (group : Nat) (task : TaskId)
    (previous : Option TaskId) (change : Tcb → Tcb) : EventSystem :=
  (bypassWaiter system group task previous).modifyTask task change

section Unlink

variable {system : EventSystem} {group fuel : Nat} {task : TaskId} {test : TaskId → Bool}
  {previous : Option TaskId} {change : Tcb → Tcb}

theorem unlinkWaiter_pc : (unlinkWaiter system group task previous change).pc = system.pc := by
  cases previous <;> rfl

theorem unlinkWaiter_bits (other : Nat) :
    (unlinkWaiter system group task previous change).bits other = system.bits other := by
  cases previous with
  | none =>
      change (((system.modifyGroup group fun object =>
        { object with blockedTasks := system.link task }).groups other).bits) = _
      rw [EventSystem.groups_modifyGroup]
      split
      case isTrue same =>
        rw [same]
        rfl
      case isFalse => rfl
  | some node => rfl

theorem unlinkWaiter_blockObj {other : TaskId} (differs : other ≠ task) :
    ((unlinkWaiter system group task previous change).kernel.tcb other).blockObj =
      (system.kernel.tcb other).blockObj := by
  unfold unlinkWaiter
  rw [EventSystem.tcb_modifyTask, if_neg differs]
  cases previous with
  | none => rfl
  | some node =>
      change ((system.kernel.modify node fun tcb =>
        { tcb with blockNext := system.link task }).tcb other).blockObj = _
      exact Kernel.field_modify Tcb.blockObj _ _ (by simp) other

/-- The task found on a list is taken out of it. -/
theorem unlinkWaiter_path_erase {waiters : List TaskId}
    (whole : Path system.link (system.groups group).blockedTasks waiters)
    (found : find system.link test fuel none (system.groups group).blockedTasks =
      some (some (previous, task)))
    (cleared : ∀ tcb, (change tcb).blockNext = none) :
    Path (unlinkWaiter system group task previous change).link
      ((unlinkWaiter system group task previous change).groups group).blockedTasks
      (waiters.erase task) := by
  have distinct := whole.nodup
  unfold unlinkWaiter
  rw [EventSystem.link_modifyTask, cleared]
  obtain ⟨_, ⟨rfl, rest, rfl⟩ | ⟨node, front, rest, rfl, rfl⟩⟩ := find_found whole found
  · change Path (Function.update system.link task none)
      (((system.modifyGroup group fun object =>
        { object with blockedTasks := system.link task }).groups group).blockedTasks) _
    rw [EventSystem.groups_modifyGroup, if_pos rfl, List.erase_cons_head]
    exact whole.tail.2.update_of_not_mem (List.nodup_cons.mp distinct).1 none
  · change Path (Function.update (system.modifyTask node _).link task none)
      (system.groups group).blockedTasks _
    rw [EventSystem.link_modifyTask]
    have erased : (front ++ node :: task :: rest).erase task = front ++ node :: rest := by
      have notFront : task ∉ front := by
        intro isNode
        simp [List.nodup_append] at distinct
        grind
      have nodeNe : node ≠ task := by
        rintro rfl
        simp [List.nodup_append] at distinct
      rw [List.erase_append_right _ notFront,
        List.erase_cons_tail (by simpa using nodeNe), List.erase_cons_head]
    have outside : task ∉ front ++ node :: rest := by
      rw [← erased]
      exact distinct.not_mem_erase
    rw [erased]
    exact whole.bypass.update_of_not_mem outside none

/-- The task found on a list is taken out of it, and the other lists stay as
they are. -/
theorem unlinkWaiter_path {lists : Nat → List TaskId}
    (paths : ∀ group, Path system.link (system.groups group).blockedTasks (lists group))
    (disjoint : ∀ node other, node ∈ lists group → node ∈ lists other → group = other)
    (found : find system.link test fuel none (system.groups group).blockedTasks =
      some (some (previous, task)))
    (cleared : ∀ tcb, (change tcb).blockNext = none) (other : Nat) :
    Path (unlinkWaiter system group task previous change).link
      ((unlinkWaiter system group task previous change).groups other).blockedTasks
      (Function.update lists group ((lists group).erase task) other) := by
  by_cases same : other = group
  · rw [same, Function.update_self]
    exact unlinkWaiter_path_erase (paths group) found cleared
  · rw [Function.update_of_ne same]
    unfold unlinkWaiter
    rw [EventSystem.link_modifyTask, cleared]
    obtain ⟨_, ⟨rfl, rest, split⟩ | ⟨node, front, rest, rfl, split⟩⟩ :=
      find_found (paths group) found
    · change Path (Function.update system.link task none)
        (((system.modifyGroup group fun object =>
          { object with blockedTasks := system.link task }).groups other).blockedTasks) _
      rw [EventSystem.groups_modifyGroup, if_neg same]
      refine (paths other).update_of_not_mem (fun isNode => ?_) none
      exact same (disjoint task other (by simp [split]) isNode).symm
    · change Path (Function.update (system.modifyTask node _).link task none)
        (system.groups other).blockedTasks _
      rw [EventSystem.link_modifyTask]
      apply Path.update_of_not_mem (Path.update_of_not_mem (paths other) _ _) _ none
      · exact fun isNode => same (disjoint node other (by simp [split]) isNode).symm
      · exact fun isNode => same (disjoint task other (by simp [split]) isNode).symm

end Unlink

/-- A change that takes a task out of the lists and leaves the other tasks'
waits alone. -/
structure Unlinked (task : TaskId) (lists shorter : Nat → List TaskId)
    (before after : EventSystem) : Prop where
  path : ∀ group, Path after.link (after.groups group).blockedTasks (shorter group)
  mem : ∀ group node, node ∈ shorter group ↔ node ∈ lists group ∧ node ≠ task
  pc : after.pc = before.pc
  bits : ∀ group, after.bits group = before.bits group
  blockObj : ∀ other, other ≠ task →
    (after.kernel.tcb other).blockObj = (before.kernel.tcb other).blockObj

end Rtos

end MiniIotRobotEdge

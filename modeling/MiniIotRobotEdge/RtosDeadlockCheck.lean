import MiniIotRobotEdge.RtosSynchronization
import MiniIotRobotEdge.UniqueWalk

/-!
# The deadlock check of mutexes

`mutex_deadlock_check` follows the owner of a mutex to the mutex it waits for,
to the owner of that one, and so on.  It remembers only where it started, so a
cycle that comes back neither to the mutex nor to the current task is followed
forever.
-/

namespace MiniIotRobotEdge

namespace Rtos

open Relation UniqueWalk

/-- The loop of `mutex_deadlock_check`.  It has no result where a task waits for an
object of another kind, whose bytes the source would read as a mutex. -/
def deadlockWalk (system : SyncSystem) (mutex : Nat) (self : Option TaskId) :
    Nat → Option TaskId → Option Int
  | 0, _ => none
  | _ + 1, none => some 0
  | fuel + 1, some holder =>
      match (system.kernel.tcb holder).blockObj with
      | none => some 0
      | some (.mutex held) =>
          if held = mutex then some 1
          else if (system.mutexes held).owner = self then some 1
          else deadlockWalk system mutex self fuel (system.mutexes held).owner
      | some _ => none

/-- `mutex_deadlock_check`; the null pointer is `none`. -/
def mutexDeadlockCheck (fuel : Nat) (system : SyncSystem) : Option Nat → Option Int
  | none => some 0
  | some mutex =>
      let self := system.kernel.currentTask
      if (system.mutexes mutex).held = 0 then some 0
      else if (system.mutexes mutex).owner = self then some 0
      else deadlockWalk system mutex self fuel (system.mutexes mutex).owner

/-- A task is blocked on a mutex that another one holds. -/
def WaitsFor (system : SyncSystem) (task owner : TaskId) : Prop :=
  ∃ mutex, (system.kernel.tcb task).blockObj = some (.mutex mutex) ∧
    (system.mutexes mutex).held ≠ 0 ∧ (system.mutexes mutex).owner = some owner

/-- Finitely many tasks, each blocked on at most one mutex, hold the mutexes;
a mutex has an owner exactly when it is held. -/
structure WaitConfiguration (system : SyncSystem) (caller : TaskId) (tasks : Finset TaskId) :
    Prop where
  current : system.kernel.currentTask = some caller
  owners : ∀ mutex, (system.mutexes mutex).owner = none ↔ (system.mutexes mutex).held = 0
  ownerMem : ∀ mutex owner, (system.mutexes mutex).owner = some owner → owner ∈ tasks
  onMutex : ∀ task ∈ tasks, ∀ object, (system.kernel.tcb task).blockObj = some object →
    ∃ mutex, object = .mutex mutex

/-- The check returns, and for a mutex of another task it returns one exactly when
that task waits, directly or not, for the current one. -/
structure DeadlockChecked (system : SyncSystem) (caller : TaskId) (mutex : Nat) : Prop where
  terminates : ∃ fuel result, mutexDeadlockCheck fuel system (some mutex) = some result
  exact : ∀ owner, (system.mutexes mutex).held ≠ 0 → (system.mutexes mutex).owner = some owner →
    owner ≠ caller → ∀ fuel result, mutexDeadlockCheck fuel system (some mutex) = some result →
      (result = 1 ↔ ReflTransGen (WaitsFor system) owner caller)

theorem waitsFor_unique (system : SyncSystem) : Relator.RightUnique (WaitsFor system) := by
  rintro task first second ⟨mutex, blocked, _, isFirst⟩ ⟨other, otherBlocked, _, isSecond⟩
  obtain rfl := SyncObject.mutex.inj (Option.some.inj (blocked.symm.trans otherBlocked))
  exact Option.some.inj (isFirst.symm.trans isSecond)

theorem WaitConfiguration.mem {system : SyncSystem} {self task next : TaskId}
    {tasks : Finset TaskId} (config : WaitConfiguration system self tasks)
    (waits : WaitsFor system task next) : next ∈ tasks := by
  obtain ⟨held, _, _, isNext⟩ := waits
  exact config.ownerMem held next isNext

section Walk

variable {system : SyncSystem} {mutex fuel : Nat} {self task next : TaskId} {result : Int}

/-- One turn of the loop at a task that waits for another one. -/
theorem deadlockWalk_step (waits : WaitsFor system task next) (fuel : Nat) :
    deadlockWalk system mutex (some self) (fuel + 1) (some task) =
      if (system.kernel.tcb task).blockObj = some (.mutex mutex) ∨ next = self then some 1
      else deadlockWalk system mutex (some self) fuel (some next) := by
  obtain ⟨held, blocked, _, isOwner⟩ := waits
  rw [deadlockWalk, blocked]
  dsimp only
  rw [isOwner]
  simp only [Option.some.injEq, SyncObject.mutex.injEq]
  split
  case isTrue isMutex => rw [if_pos (.inl isMutex)]
  case isFalse notMutex => simp only [notMutex, false_or]

/-- The walk finds the current task when it is ahead. -/
theorem deadlockWalk_of_reaches (reaches : ReflTransGen (WaitsFor system) task self)
    (different : task ≠ self)
    (returned : deadlockWalk system mutex (some self) fuel (some task) = some result) :
    result = 1 := by
  induction fuel generalizing task with
  | zero => simp [deadlockWalk] at returned
  | succ fuel ih =>
      obtain ⟨next, waits, rest⟩ := (ReflTransGen.cases_head reaches).resolve_left different
      rw [deadlockWalk_step waits] at returned
      split at returned
      case isTrue => exact (Option.some.inj returned).symm
      case isFalse goesOn =>
        exact ih rest (fun same => goesOn (.inr same)) returned

/-- A walk that is caught in a cycle returns one or never. -/
theorem deadlockWalk_of_reachesCycle (caught : ReachesCycle (WaitsFor system) task)
    (returned : deadlockWalk system mutex (some self) fuel (some task) = some result) :
    result = 1 := by
  induction fuel generalizing task with
  | zero => simp [deadlockWalk] at returned
  | succ fuel ih =>
      obtain ⟨next, waits, stillCaught⟩ := caught.exists_step
      rw [deadlockWalk_step waits] at returned
      split at returned
      case isTrue => exact (Option.some.inj returned).symm
      case isFalse => exact ih stillCaught returned

/-- The walk with an end in sight returns. -/
theorem deadlockWalk_of_reaches_total (reaches : ReflTransGen (WaitsFor system) task self)
    (different : task ≠ self) :
    ∃ fuel result, deadlockWalk system mutex (some self) fuel (some task) = some result := by
  induction reaches using ReflTransGen.head_induction_on with
  | refl => exact absurd rfl different
  | @head task next waits rest ih =>
      by_cases stops : (system.kernel.tcb task).blockObj = some (.mutex mutex) ∨ next = self
      · exact ⟨1, 1, by rw [deadlockWalk_step waits, if_pos stops]⟩
      · obtain ⟨fuel, result, returned⟩ := ih fun same => stops (.inr same)
        exact ⟨fuel + 1, result, by rw [deadlockWalk_step waits, if_neg stops, returned]⟩

section Acyclic

variable {tasks : Finset TaskId} {owner : TaskId}

/-- The walk ends at a task that waits for no other. -/
theorem deadlockWalk_stuck (config : WaitConfiguration system self tasks) (taskMem : task ∈ tasks)
    (isOwner : (system.mutexes mutex).owner = some owner)
    (stuck : ∀ next, ¬WaitsFor system task next) (fuel : Nat) :
    deadlockWalk system mutex (some self) (fuel + 1) (some task) = some 0 ∨
      deadlockWalk system mutex (some self) (fuel + 1) (some task) =
        deadlockWalk system mutex (some self) fuel none := by
  rw [deadlockWalk]
  cases blocked : (system.kernel.tcb task).blockObj with
  | none => exact .inl rfl
  | some object =>
      obtain ⟨held, rfl⟩ := config.onMutex task taskMem object blocked
      have noOwner : (system.mutexes held).owner = none := by
        by_contra hasOwner
        obtain ⟨next, isNext⟩ := Option.ne_none_iff_exists'.mp hasOwner
        exact stuck next ⟨held, blocked, fun free => hasOwner ((config.owners held).mpr free),
          isNext⟩
      have different : held ≠ mutex := by
        rintro rfl
        simp [noOwner] at isOwner
      dsimp only
      rw [if_neg different, noOwner, if_neg (by simp)]
      exact .inr rfl

/-- A walk that is not caught in a cycle returns. -/
theorem deadlockWalk_total (config : WaitConfiguration system self tasks)
    (isOwner : (system.mutexes mutex).owner = some owner)
    (ends : Acc (fun second first => WaitsFor system first second) task)
    (taskMem : task ∈ tasks) :
    ∃ fuel result, deadlockWalk system mutex (some self) fuel (some task) = some result := by
  induction ends with
  | intro task _ ih =>
      by_cases goesOn : ∃ next, WaitsFor system task next
      case pos =>
        obtain ⟨next, waits⟩ := goesOn
        by_cases stops : (system.kernel.tcb task).blockObj = some (.mutex mutex) ∨ next = self
        · exact ⟨1, 1, by rw [deadlockWalk_step waits, if_pos stops]⟩
        · obtain ⟨fuel, result, returned⟩ := ih next waits (config.mem waits)
          exact ⟨fuel + 1, result, by rw [deadlockWalk_step waits, if_neg stops, returned]⟩
      case neg =>
        have stuck := deadlockWalk_stuck config taskMem isOwner (not_exists.mp goesOn) 1
        rcases stuck with returned | returned <;> exact ⟨2, 0, returned⟩

/-- Without a cycle the walk returns one only if it meets the current task. -/
theorem deadlockWalk_not_one (config : WaitConfiguration system self tasks)
    (isHeld : (system.mutexes mutex).held ≠ 0)
    (isOwner : (system.mutexes mutex).owner = some owner)
    (notCaught : ¬ReachesCycle (WaitsFor system) owner)
    (notAhead : ¬ReflTransGen (WaitsFor system) owner self)
    (walked : ReflTransGen (WaitsFor system) owner task) (taskMem : task ∈ tasks) :
    deadlockWalk system mutex (some self) fuel (some task) ≠ some 1 := by
  induction fuel generalizing task with
  | zero => simp [deadlockWalk]
  | succ fuel ih =>
      by_cases goesOn : ∃ next, WaitsFor system task next
      case pos =>
        obtain ⟨next, waits⟩ := goesOn
        rw [deadlockWalk_step waits]
        split
        case isTrue stops =>
          rcases stops with onMutex | rfl
          · have back : WaitsFor system task owner := ⟨mutex, onMutex, isHeld, isOwner⟩
            exact absurd ⟨task, walked, .head' back walked⟩ notCaught
          · exact absurd (walked.tail waits) notAhead
        case isFalse => exact ih (walked.tail waits) (config.mem waits)
      case neg =>
        rcases deadlockWalk_stuck config taskMem isOwner (not_exists.mp goesOn) fuel with
          returned | returned
        · simp [returned]
        · rw [returned]
          cases fuel <;> simp [deadlockWalk]

end Acyclic

end Walk

/-- The check does what it should exactly when the walk from the owner of the
mutex meets the current task or no cycle. -/
theorem deadlockChecked_iff {system : SyncSystem} {self : TaskId} {tasks : Finset TaskId}
    (config : WaitConfiguration system self tasks) (mutex : Nat) :
    DeadlockChecked system self mutex ↔
      ∀ owner, (system.mutexes mutex).owner = some owner → owner ≠ self →
        ReflTransGen (WaitsFor system) owner self ∨
          ¬ReachesCycle (WaitsFor system) owner := by
  have isWalk : ∀ owner, (system.mutexes mutex).held ≠ 0 →
      (system.mutexes mutex).owner = some owner → owner ≠ self → ∀ fuel,
      mutexDeadlockCheck fuel system (some mutex) =
        deadlockWalk system mutex (some self) fuel (some owner) := by
    intro owner isHeld isOwner different fuel
    simp only [mutexDeadlockCheck]
    rw [if_neg isHeld, config.current, isOwner, if_neg (by simpa using different)]
  constructor
  · rintro ⟨⟨fuel, result, returned⟩, exact⟩ owner isOwner different
    have isHeld : (system.mutexes mutex).held ≠ 0 := by
      intro free
      rw [(config.owners mutex).mpr free] at isOwner
      simp at isOwner
    by_contra neither
    obtain ⟨notAhead, caught⟩ := not_or.mp neither
    apply notAhead ((exact owner isHeld isOwner different fuel result returned).mp _)
    rw [isWalk owner isHeld isOwner different] at returned
    exact deadlockWalk_of_reachesCycle (not_not.mp caught) returned
  · intro free
    refine ⟨?_, fun owner isHeld isOwner different fuel result returned => ?_⟩
    · by_cases isHeld : (system.mutexes mutex).held = 0
      · exact ⟨0, 0, if_pos isHeld⟩
      obtain ⟨owner, isOwner⟩ := Option.ne_none_iff_exists'.mp
        (fun noOwner => isHeld ((config.owners mutex).mp noOwner))
      by_cases own : owner = self
      · refine ⟨0, 0, ?_⟩
        simp only [mutexDeadlockCheck]
        rw [if_neg isHeld, if_pos (by rw [isOwner, config.current, own])]
      simp only [isWalk owner isHeld isOwner own]
      rcases free owner isOwner own with ahead | notCaught
      · exact deadlockWalk_of_reaches_total ahead own
      · apply deadlockWalk_total config isOwner _ (config.ownerMem mutex owner isOwner)
        exact acc_of_not_reachesCycle config.mem notCaught
    · rw [isWalk owner isHeld isOwner different] at returned
      rcases free owner isOwner different with ahead | notCaught
      · exact iff_of_true (deadlockWalk_of_reaches ahead different returned) ahead
      · refine ⟨fun isOne => ?_, fun ahead => deadlockWalk_of_reaches ahead different returned⟩
        by_contra notAhead
        exact deadlockWalk_not_one config isHeld isOwner notCaught notAhead .refl
          (config.ownerMem mutex owner isOwner) (isOne ▸ returned)

/-- Task 1 runs; the other tasks wait for mutexes. -/
def waitSystem (blockedOn : TaskId → Option Nat) (owner : Nat → Option TaskId) : SyncSystem where
  kernel :=
    { tcb := fun task => { blockObj := (blockedOn task).map .mutex }
      live := {}
      taskList := fun _ => none
      currentTask := some 1
      tickCount := 0
      schedulerRunning := true
      contextSwitchPending := false }
  semaphores := fun _ => { count := 0, maxCount := 1 }
  queues := fun _ => { buffer := fun _ => 0, itemSize := 1, maxItems := 1 }
  mutexes := fun mutex =>
    { held := if owner mutex = none then 0 else 1, owner := owner mutex }
  rwlocks := fun _ => {}
  pc := fun _ => .idle

theorem waitSystem_config {blockedOn : TaskId → Option Nat} {owner : Nat → Option TaskId}
    {tasks : Finset TaskId} (ownerMem : ∀ mutex task, owner mutex = some task → task ∈ tasks) :
    WaitConfiguration (waitSystem blockedOn owner) 1 tasks where
  current := rfl
  owners := fun mutex => by
    simp [waitSystem]
  ownerMem := ownerMem
  onMutex := fun task _ object blocked => by
    obtain ⟨mutex, _, rfl⟩ := Option.map_eq_some_iff.mp blocked
    exact ⟨mutex, rfl⟩

/-- Task 2 holds mutex 0 and waits for mutex 1 of task 3, which waits for
mutex 2 of the given task. -/
def chainOwner (last : TaskId) : Nat → Option TaskId
  | 0 => some 2
  | 1 => some 3
  | 2 => some last
  | _ => none

def chainBlocked : TaskId → Option Nat
  | 2 => some 1
  | 3 => some 2
  | _ => none

theorem chainOwner_mem (last : TaskId) (mutex : Nat) (task : TaskId)
    (isOwner : chainOwner last mutex = some task) : task ∈ ({2, 3, last} : Finset TaskId) := by
  unfold chainOwner at isOwner
  split at isOwner <;> simp at isOwner <;> simp [← isOwner]

theorem deadlockChecked_iff_chain :
    DeadlockChecked (waitSystem chainBlocked (chainOwner 1)) 1 0 ↔
      ∀ owner, ((waitSystem chainBlocked (chainOwner 1)).mutexes 0).owner = some owner →
        owner ≠ 1 →
        ReflTransGen (WaitsFor (waitSystem chainBlocked (chainOwner 1))) owner 1 ∨
          ¬ReachesCycle (WaitsFor (waitSystem chainBlocked (chainOwner 1))) owner :=
  deadlockChecked_iff (waitSystem_config (chainOwner_mem 1)) 0

/-- Tasks 2 and 3 wait for each other; the walk from mutex 0 meets neither the
current task nor mutex 0 again. -/
theorem deadlockChecked_endless :
    ¬∀ (system : SyncSystem) (caller : TaskId) (tasks : Finset TaskId),
      WaitConfiguration system caller tasks → ∀ mutex, DeadlockChecked system caller mutex := by
  intro holds
  obtain ⟨fuel, result, returned⟩ :=
    (holds _ _ _ (waitSystem_config (chainOwner_mem 2)) 0).terminates
  have endless : ∀ fuel, deadlockWalk (waitSystem chainBlocked (chainOwner 2)) 0 (some 1) fuel
        (some 2) = none ∧
      deadlockWalk (waitSystem chainBlocked (chainOwner 2)) 0 (some 1) fuel (some 3) = none := by
    intro fuel
    induction fuel with
    | zero => exact ⟨rfl, rfl⟩
    | succ fuel ih => exact ⟨ih.2, ih.1⟩
  have walked : mutexDeadlockCheck fuel (waitSystem chainBlocked (chainOwner 2)) (some 0) =
      deadlockWalk (waitSystem chainBlocked (chainOwner 2)) 0 (some 1) fuel (some 2) := rfl
  rw [walked, (endless fuel).1] at returned
  simp at returned

end Rtos

end MiniIotRobotEdge

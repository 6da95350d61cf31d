import MiniIotRobotEdge.ExchangeSort
import MiniIotRobotEdge.RangeLoop
import MiniIotRobotEdge.RtosTaskScheduler

/-!
# Rate-monotonic priorities

The model of `scheduler_assign_rm_priorities` in `task_scheduler.c`.  The tasks are
sorted by their periods, and the first ones get the priorities from the highest one
down.  The loop ends with the last priority above the idle one, and the tasks
behind it keep the priorities that they had.
-/

namespace MiniIotRobotEdge

namespace Rtos

open ExchangeSort

/-- The two parallel arrays. -/
structure RmArrays where
  tasks : Nat → TaskId
  periods : Nat → Nat

namespace RmArrays

/-- The body of the two nested loops. -/
def exchange (arrays : RmArrays) (i j : Nat) : RmArrays :=
  if arrays.periods i > arrays.periods j then
    { tasks := Function.update (Function.update arrays.tasks i (arrays.tasks j)) j (arrays.tasks i)
      periods := Function.update (Function.update arrays.periods i (arrays.periods j)) j
        (arrays.periods i) }
  else arrays

def sortByPeriod (count : Nat) (arrays : RmArrays) : RmArrays :=
  (List.range count).foldl (fun arrays i =>
    (List.range' (i + 1) (count - (i + 1))).foldl (fun arrays j => arrays.exchange i j) arrays)
    arrays

def pairs (arrays : RmArrays) (i : Nat) : TaskId × Nat := (arrays.tasks i, arrays.periods i)

end RmArrays

/-- One turn of the loop that hands out the priorities. -/
def Tcb.assignPriority (i : Nat) (tcb : Tcb) : Tcb :=
  let tcb := { tcb with priority := taskPriorityHighest - i }
  { tcb with basePriority := tcb.priority }

def assignPriorities (kernel : Kernel) (tasks : Nat → TaskId) (count : Nat) : Kernel :=
  (List.range (min count taskPriorityHighest)).foldl (fun kernel i =>
    kernel.modify (tasks i) (Tcb.assignPriority i)) kernel

/-- `scheduler_assign_rm_priorities`; no pointer is null. -/
def schedulerAssignRmPriorities (kernel : Kernel) (arrays : RmArrays) (count : Nat) :
    Kernel × RmArrays :=
  if count < 2 then (kernel, arrays)
  else
    let arrays := arrays.sortByPeriod count
    (assignPriorities kernel arrays.tasks count, arrays)

/-- The pairs are a permutation of the given ones in the order of their periods, and
the first tasks have priorities in that order, on which they are based. -/
structure RmAssigned (arrays : RmArrays) (count assigned : Nat) (after : Kernel × RmArrays) :
    Prop where
  perm : (entries count after.2.pairs).Perm (entries count arrays.pairs)
  sorted : ∀ i j, i < j → j < count → after.2.periods i ≤ after.2.periods j
  ranked : ∀ i j, i < j → j < assigned → after.2.periods i < after.2.periods j →
    (after.1.tcb (after.2.tasks j)).priority ≤ (after.1.tcb (after.2.tasks i)).priority
  based : ∀ i < assigned, (after.1.tcb (after.2.tasks i)).basePriority =
    (after.1.tcb (after.2.tasks i)).priority

namespace RmArrays

theorem pairs_exchange (arrays : RmArrays) (i j : Nat) :
    (arrays.exchange i j).pairs = ExchangeSort.exchange Prod.snd arrays.pairs i j := by
  unfold exchange ExchangeSort.exchange
  by_cases outOfOrder : arrays.periods j < arrays.periods i
  · have keys : (arrays.pairs j).2 < (arrays.pairs i).2 := outOfOrder
    rw [if_pos keys, if_pos (show arrays.periods i > arrays.periods j from outOfOrder)]
    funext place
    simp only [pairs, swap, Function.update_apply]
    split
    · rfl
    · split
      · rfl
      · rfl
  · have keys : ¬(arrays.pairs j).2 < (arrays.pairs i).2 := outOfOrder
    rw [if_neg keys, if_neg (show ¬arrays.periods i > arrays.periods j from outOfOrder)]

/-- Sorting the two arrays is sorting the array of the pairs. -/
theorem pairs_sortByPeriod (arrays : RmArrays) (count : Nat) :
    (arrays.sortByPeriod count).pairs = sort Prod.snd count arrays.pairs := by
  have inner : ∀ (i : Nat) (arrays : RmArrays),
      ((List.range' (i + 1) (count - (i + 1))).foldl (fun arrays j => arrays.exchange i j)
        arrays).pairs = pass Prod.snd count arrays.pairs i := by
    intro i arrays
    exact (List.foldl_hom pairs fun arrays j => (pairs_exchange arrays i j).symm).symm
  exact (List.foldl_hom pairs fun arrays i => (inner i arrays).symm).symm

end RmArrays

section Assign

variable {tasks : Nat → TaskId} {count i : Nat}

/-- The loop over the priorities as a loop over the control blocks. -/
theorem tcb_assignPriorities (kernel : Kernel) (tasks : Nat → TaskId) (count : Nat) :
    (assignPriorities kernel tasks count).tcb =
      (List.range (min count taskPriorityHighest)).foldl (fun tcb i =>
        Function.update tcb (tasks i) (Tcb.assignPriority i (tcb (tasks i)))) kernel.tcb :=
  (List.foldl_hom Kernel.tcb fun _ _ => rfl).symm

/-- The first tasks get the priorities from the highest one down. -/
theorem assignPriorities_first (kernel : Kernel)
    (distinct : ∀ i j, i < j → j < count → tasks i ≠ tasks j)
    (inRange : i < min count taskPriorityHighest) :
    (assignPriorities kernel tasks count).tcb (tasks i) =
      Tcb.assignPriority i (kernel.tcb (tasks i)) := by
  rw [tcb_assignPriorities]
  refine RangeLoop.update_apply tasks Tcb.assignPriority
    (fun first second inOrder secondLt => distinct first second inOrder ?_) inRange
  exact secondLt.trans_le (min_le_left _ _)

/-- The others keep their control blocks. -/
theorem assignPriorities_rest (kernel : Kernel)
    (distinct : ∀ i j, i < j → j < count → tasks i ≠ tasks j)
    (notFirst : taskPriorityHighest ≤ i) (inRange : i < count) :
    (assignPriorities kernel tasks count).tcb (tasks i) = kernel.tcb (tasks i) := by
  rw [tcb_assignPriorities]
  refine RangeLoop.update_of_ne tasks Tcb.assignPriority
    fun turn turnLt => distinct turn i ?_ inRange
  exact (turnLt.trans_le (min_le_right _ _)).trans_le notFirst

end Assign

theorem RmArrays.sortByPeriod_sorted (arrays : RmArrays) (count : Nat) {i j : Nat} (inOrder : i < j)
    (inRange : j < count) :
    (arrays.sortByPeriod count).periods i ≤ (arrays.sortByPeriod count).periods j := by
  have sorted := (sort_spec Prod.snd count arrays.pairs).1
  rw [← pairs_sortByPeriod] at sorted
  exact sorted i (inOrder.trans inRange) j inRange inOrder

theorem RmArrays.sortByPeriod_perm (arrays : RmArrays) (count : Nat) :
    (entries count (arrays.sortByPeriod count).pairs).Perm (entries count arrays.pairs) := by
  rw [pairs_sortByPeriod]
  exact (sort_spec Prod.snd count arrays.pairs).2

/-- What tells the entries apart tells them apart after the sort. -/
theorem RmArrays.sortByPeriod_distinct {Value : Type*} {arrays : RmArrays} {count : Nat}
    (value : TaskId × Nat → Value)
    (distinct : (entries count fun i => value (arrays.pairs i)).Nodup) (i j : Nat) (inOrder : i < j)
    (inRange : j < count) :
    value ((arrays.sortByPeriod count).pairs i) ≠ value ((arrays.sortByPeriod count).pairs j) := by
  have perm := (arrays.sortByPeriod_perm count).map value
  have nodup : ((entries count arrays.pairs).map value).Nodup := by
    rw [entries, List.map_map]
    exact distinct
  have sortedNodup := perm.nodup_iff.mpr nodup
  rw [entries, List.map_map] at sortedNodup
  intro same
  have injective := List.inj_on_of_nodup_map sortedNodup
    (List.mem_range.mpr (inOrder.trans inRange)) (List.mem_range.mpr inRange) same
  exact inOrder.ne injective

theorem RmArrays.sortByPeriod_tasks {arrays : RmArrays} {count : Nat}
    (distinct : (entries count arrays.tasks).Nodup) (i j : Nat) (inOrder : i < j)
    (inRange : j < count) :
    (arrays.sortByPeriod count).tasks i ≠ (arrays.sortByPeriod count).tasks j :=
  arrays.sortByPeriod_distinct Prod.fst distinct i j inOrder inRange

theorem RmArrays.sortByPeriod_lt {arrays : RmArrays} {count : Nat}
    (distinct : (entries count arrays.periods).Nodup) {i j : Nat} (inOrder : i < j)
    (inRange : j < count) :
    (arrays.sortByPeriod count).periods i < (arrays.sortByPeriod count).periods j :=
  lt_of_le_of_ne (arrays.sortByPeriod_sorted count inOrder inRange)
    (arrays.sortByPeriod_distinct Prod.snd distinct i j inOrder inRange)

theorem schedulerAssignRmPriorities_eq (kernel : Kernel) (arrays : RmArrays) {count : Nat}
    (several : 2 ≤ count) : schedulerAssignRmPriorities kernel arrays count =
      (assignPriorities kernel (arrays.sortByPeriod count).tasks count,
        arrays.sortByPeriod count) :=
  if_neg (Nat.not_lt.mpr several)

/-- The pairs are sorted, the first tasks are ranked by their periods from the highest
priority down, and a task behind them keeps its control block. -/
theorem schedulerAssignRmPriorities_first (kernel : Kernel) (arrays : RmArrays) (count : Nat)
    (several : 2 ≤ count) (distinct : (entries count arrays.tasks).Nodup) :
    RmAssigned arrays count (min count taskPriorityHighest)
        (schedulerAssignRmPriorities kernel arrays count) ∧
      (∀ i < min count taskPriorityHighest,
        ((schedulerAssignRmPriorities kernel arrays count).1.tcb
          ((schedulerAssignRmPriorities kernel arrays count).2.tasks i)).priority =
          taskPriorityHighest - i) ∧
      ∀ i < count, taskPriorityHighest ≤ i →
        (schedulerAssignRmPriorities kernel arrays count).1.tcb
          ((schedulerAssignRmPriorities kernel arrays count).2.tasks i) =
          kernel.tcb ((schedulerAssignRmPriorities kernel arrays count).2.tasks i) := by
  have stays := arrays.sortByPeriod_tasks distinct
  have assigned : ∀ i < min count taskPriorityHighest,
      (assignPriorities kernel (arrays.sortByPeriod count).tasks count).tcb
          ((arrays.sortByPeriod count).tasks i) =
        Tcb.assignPriority i (kernel.tcb ((arrays.sortByPeriod count).tasks i)) := by
    intro i inRange
    exact assignPriorities_first kernel stays inRange
  have priorities : ∀ i < min count taskPriorityHighest,
      ((assignPriorities kernel (arrays.sortByPeriod count).tasks count).tcb
        ((arrays.sortByPeriod count).tasks i)).priority = taskPriorityHighest - i := by
    intro i inRange
    rw [assigned i inRange, Tcb.assignPriority]
  rw [schedulerAssignRmPriorities_eq kernel arrays several]
  refine ⟨⟨arrays.sortByPeriod_perm count, fun i j => arrays.sortByPeriod_sorted count, ?_, ?_⟩,
    priorities, ?_⟩
  · intro i j inOrder inRange _
    rw [priorities j inRange, priorities i (inOrder.trans inRange)]
    exact Nat.sub_le_sub_left inOrder.le taskPriorityHighest
  · intro i inRange
    simp only [assigned i inRange]
    rfl
  · intro i inRange notFirst
    exact assignPriorities_rest kernel stays notFirst inRange

/-- One task more than the loop has priorities, all of them at the highest one. -/
def manyTasks : Kernel :=
  Kernel.boot fun _ => { priority := taskPriorityHighest, basePriority := taskPriorityHighest }

def manyPeriods : RmArrays := ⟨fun i => i + 1, fun i => i + 1⟩

/-- The task with the longest period keeps a priority above the second one. -/
theorem schedulerAssignRmPriorities_last :
    (entries 33 manyPeriods.tasks).Nodup ∧
      ¬RmAssigned manyPeriods 33 33 (schedulerAssignRmPriorities manyTasks manyPeriods 33) := by
  have tasks : (entries 33 manyPeriods.tasks).Nodup := by decide
  have periods : (entries 33 manyPeriods.periods).Nodup := by decide
  refine ⟨tasks, fun assigned => ?_⟩
  have stays := manyPeriods.sortByPeriod_tasks tasks
  have shorter := manyPeriods.sortByPeriod_lt periods (by decide : 1 < 32) (by decide)
  have ranked := assigned.ranked 1 32 (by decide) (by decide)
  simp only [schedulerAssignRmPriorities_eq manyTasks manyPeriods (by decide : 2 ≤ 33), shorter,
    true_implies] at ranked
  have kept := assignPriorities_rest manyTasks stays
    (by decide : taskPriorityHighest ≤ 32) (by decide)
  have second := assignPriorities_first manyTasks stays
    (by decide : 1 < min 33 taskPriorityHighest)
  simp only [kept, second] at ranked
  exact absurd ranked (by decide)

theorem schedulerAssignRmPriorities_two :
    RmAssigned ⟨fun i => i + 1, fun i => 9 - i⟩ 2 2
      (schedulerAssignRmPriorities manyTasks ⟨fun i => i + 1, fun i => 9 - i⟩ 2) :=
  (schedulerAssignRmPriorities_first manyTasks ⟨fun i => i + 1, fun i => 9 - i⟩ 2 (by decide)
    (by decide)).1

end Rtos

end MiniIotRobotEdge

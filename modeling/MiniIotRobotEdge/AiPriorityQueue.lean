import Mathlib.Algebra.Order.Group.Multiset
import MiniIotRobotEdge.HeapOrder
import MiniIotRobotEdge.StepRuns

/-!
# The priority queue of mini-edge-ai

The model of the scheduler's queue in `edge_pipeline.c`.  `pq_push` moves a hole
up from the end, and `pq_pop` lets the last entry sink from the front.  Both
keep the heap order, and the queue is a multiset of tasks of which a most urgent
one is taken out.
-/

namespace MiniIotRobotEdge

namespace Ai

open AnsweredRuns ExchangeSort HeapOrder

def maxPriorityTasks : Nat := 64

/-- Pointers are numbers. -/
structure PriorityTask where
  taskId : Int
  priority : Int
  deadlineMs : UInt64
  fn : UInt64
  arg : UInt64
  deriving DecidableEq, Repr

structure PriorityQueue where
  tasks : Nat → PriorityTask
  size : Nat

/-- The entries are left as they are. -/
def pqInit (pq : PriorityQueue) : PriorityQueue := { pq with size := 0 }

/-- The loop of `pq_push`: parents move down until the hole is in its place. -/
def pqRise (priority : Int) : Nat → (Nat → PriorityTask) → Nat → (Nat → PriorityTask) × Nat
  | 0, tasks, i => (tasks, i)
  | fuel + 1, tasks, i =>
      if 0 < i then
        let parent := (i - 1) / 2
        if (tasks parent).priority ≤ priority then (tasks, i)
        else pqRise priority fuel (Function.update tasks i (tasks parent)) parent
      else (tasks, i)

/-- The place goes down with every turn, so it is a bound for their number. -/
def pqPush (pq : PriorityQueue) (priority : Int) (deadline fn arg : UInt64) :
    PriorityQueue × Int :=
  if maxPriorityTasks ≤ pq.size then (pq, -1)
  else
    let (tasks, i) := pqRise priority pq.size pq.tasks pq.size
    (⟨Function.update tasks i ⟨i, priority, deadline, fn, arg⟩, pq.size + 1⟩, 0)

def pqSmallest (tasks : Nat → PriorityTask) (size i : Nat) : Nat :=
  let l := 2 * i + 1
  let r := 2 * i + 2
  let smallest := if l < size ∧ (tasks l).priority < (tasks i).priority then l else i
  if r < size ∧ (tasks r).priority < (tasks smallest).priority then r else smallest

/-- The loop of `pq_pop`. -/
def pqSink (size : Nat) : Nat → (Nat → PriorityTask) → Nat → Nat → PriorityTask
  | 0, tasks, _ => tasks
  | fuel + 1, tasks, i =>
      let smallest := pqSmallest tasks size i
      if smallest = i then tasks
      else pqSink size fuel (swap tasks i smallest) smallest

/-- The result comes with the task that is copied out. -/
def pqPop (pq : PriorityQueue) : PriorityQueue × Int × Option PriorityTask :=
  if pq.size = 0 then (pq, -1, none)
  else
    let size := pq.size - 1
    let tasks :=
      if 0 < size then pqSink size size (Function.update pq.tasks 0 (pq.tasks size)) 0
      else pq.tasks
    (⟨tasks, size⟩, 0, some (pq.tasks 0))

section Abstract

/-- A task as it was pushed, without its number. -/
structure QueuedTask where
  priority : Int
  deadlineMs : UInt64
  fn : UInt64
  arg : UInt64
  deriving DecidableEq, Repr

def PriorityTask.queued (task : PriorityTask) : QueuedTask :=
  ⟨task.priority, task.deadlineMs, task.fn, task.arg⟩

inductive PqCall
  | push (task : QueuedTask)
  | pop

/-- A call, with its result and the task that it hands out. -/
def pqCall (pq : PriorityQueue) : PqCall → PriorityQueue × Int × Option QueuedTask
  | .push task =>
      let (pq, result) := pqPush pq task.priority task.deadlineMs task.fn task.arg
      (pq, result, none)
  | .pop =>
      let (pq, result, out) := pqPop pq
      (pq, result, out.map PriorityTask.queued)

/-- The same calls on a multiset of tasks. -/
inductive PqAllows : Multiset QueuedTask → PqCall → Int × Option QueuedTask →
    Multiset QueuedTask → Prop
  | full {bag : Multiset QueuedTask} (task : QueuedTask) (isFull : bag.card = maxPriorityTasks) :
      PqAllows bag (.push task) (-1, none) bag
  | pushed {bag : Multiset QueuedTask} (task : QueuedTask) (space : bag.card < maxPriorityTasks) :
      PqAllows bag (.push task) (0, none) (task ::ₘ bag)
  | empty : PqAllows 0 .pop (-1, none) 0
  | popped {bag : Multiset QueuedTask} (task : QueuedTask)
      (urgent : ∀ other ∈ bag, task.priority ≤ other.priority) :
      PqAllows (task ::ₘ bag) .pop (0, some task) bag

end Abstract

/-- The tasks of an array. -/
def bagOf (tasks : Nat → PriorityTask) (size : Nat) : Multiset QueuedTask :=
  ((entries size tasks).map PriorityTask.queued : List QueuedTask)

structure HoldsBag (pq : PriorityQueue) (bag : Multiset QueuedTask) : Prop where
  size : pq.size ≤ maxPriorityTasks
  ordered : Ordered PriorityTask.priority pq.tasks pq.size
  bag : bagOf pq.tasks pq.size = bag

variable {tasks : Nat → PriorityTask} {size i j : Nat}

theorem card_bagOf : (bagOf tasks size).card = size := by
  simp [bagOf, entries]

theorem bagOf_swap (iLt : i < size) (jLt : j < size) : bagOf (swap tasks i j) size = bagOf tasks size :=
  Multiset.coe_eq_coe.mpr ((entries_swap iLt jLt).map PriorityTask.queued)

theorem bagOf_succ : bagOf tasks (size + 1) = (tasks size).queued ::ₘ bagOf tasks size := by
  rw [bagOf, bagOf, Multiset.cons_coe, Multiset.coe_eq_coe, entries, List.range_succ,
    List.map_append, List.map_append]
  exact List.perm_append_comm

theorem bagOf_congr {other : Nat → PriorityTask} (same : ∀ place < size, other place = tasks place) :
    bagOf other size = bagOf tasks size := by
  rw [bagOf, bagOf, entries_congr same]

section Push

/-- Moving the parent into the hole is an exchange, once the hole is filled. -/
theorem swap_update (differ : i ≠ j) (item : PriorityTask) :
    swap (Function.update tasks i item) i j =
      Function.update (Function.update tasks i (tasks j)) j item := by
  rw [swap, Function.update_self, Function.update_of_ne differ.symm, Function.update_idem]

/-- The hole ends where the item is in order, and no other task is lost. -/
theorem pqRise_spec (item : PriorityTask) {fuel : Nat} (enough : i ≤ fuel) (inside : i < size)
    (rising : Rising PriorityTask.priority (Function.update tasks i item) size i) :
    let (after, place) := pqRise item.priority fuel tasks i
    Ordered PriorityTask.priority (Function.update after place item) size ∧
      bagOf (Function.update after place item) size = bagOf (Function.update tasks i item) size := by
  induction fuel generalizing tasks i with
  | zero =>
      obtain rfl : i = 0 := by omega
      exact ⟨rising.ordered fun positive => absurd positive (Nat.lt_irrefl 0), rfl⟩
  | succ fuel ih =>
      rw [pqRise]
      by_cases positive : 0 < i
      · have before : (i - 1) / 2 < i := parent_lt positive
        have atParent : Function.update tasks i item ((i - 1) / 2) = tasks ((i - 1) / 2) :=
          Function.update_of_ne before.ne ..
        rw [if_pos positive]
        dsimp only
        by_cases settled : (tasks ((i - 1) / 2)).priority ≤ item.priority
        · rw [if_pos settled]
          refine ⟨rising.ordered fun _ => ?_, rfl⟩
          rw [parent, atParent, Function.update_self]
          exact settled
        · rw [if_neg settled]
          have exchanged : swap (Function.update tasks i item) i ((i - 1) / 2) =
              Function.update (Function.update tasks i (tasks ((i - 1) / 2))) ((i - 1) / 2) item :=
            swap_update before.ne' item
          have moved := rising.swap ⟨positive, inside⟩ (by
            rw [parent, atParent, Function.update_self]
            exact not_le.mp settled)
          rw [parent, exchanged] at moved
          have result := ih (by omega) (before.trans inside) moved
          rw [← exchanged, bagOf_swap inside (before.trans inside)] at result
          exact result
      · rw [if_neg positive]
        exact ⟨rising.ordered fun isPositive => absurd isPositive positive, rfl⟩

/-- A push adds its task. -/
theorem HoldsBag.push {pq : PriorityQueue} {bag : Multiset QueuedTask} (holds : HoldsBag pq bag)
    (space : pq.size < maxPriorityTasks) (task : QueuedTask) :
    HoldsBag (pqPush pq task.priority task.deadlineMs task.fn task.arg).1 (task ::ₘ bag) := by
  let place := (pqRise task.priority pq.size pq.tasks pq.size).2
  let item : PriorityTask := ⟨place, task.priority, task.deadlineMs, task.fn, task.arg⟩
  obtain ⟨ordered, same⟩ := pqRise_spec item le_rfl (Nat.lt_succ_self pq.size)
    (holds.ordered.rising item)
  have kept : bagOf (Function.update pq.tasks pq.size item) pq.size = bagOf pq.tasks pq.size :=
    bagOf_congr fun other inside => Function.update_of_ne inside.ne ..
  have whole : bagOf (Function.update pq.tasks pq.size item) (pq.size + 1) = task ::ₘ bag := by
    rw [bagOf_succ, Function.update_self, kept, holds.bag]
    rfl
  rw [pqPush, if_neg (Nat.not_le.mpr space)]
  exact ⟨space, ordered, same.trans whole⟩

end Push

section Pop

theorem pqSink_eq_sink (fuel : Nat) (tasks : Nat → PriorityTask) (i : Nat) :
    pqSink size fuel tasks i = sink PriorityTask.priority size fuel tasks i := by
  induction fuel generalizing tasks i with
  | zero => rfl
  | succ fuel ih =>
      have chosen : pqSmallest tasks size i = smallest PriorityTask.priority tasks size i := rfl
      rw [pqSink, sink, chosen, ih]

/-- The entry ends where it is in order, and no task is lost. -/
theorem pqSink_spec {fuel : Nat} (enough : size ≤ fuel + i) (inside : i < size)
    (sinking : Sinking PriorityTask.priority tasks size i) :
    Ordered PriorityTask.priority (pqSink size fuel tasks i) size ∧
      bagOf (pqSink size fuel tasks i) size = bagOf tasks size := by
  obtain ⟨ordered, same⟩ := sinking.sink enough inside
  rw [pqSink_eq_sink]
  exact ⟨ordered, Multiset.coe_eq_coe.mpr (same.map PriorityTask.queued)⟩

theorem mem_bagOf {task : QueuedTask} :
    task ∈ bagOf tasks size ↔ ∃ place < size, (tasks place).queued = task := by
  simp [bagOf, entries]

/-- The first task is taken out, and the last one is put in its place. -/
theorem bagOf_eq_cons_first (tasks : Nat → PriorityTask) (size : Nat) :
    bagOf tasks (size + 1) =
      (tasks 0).queued ::ₘ bagOf (Function.update tasks 0 (tasks size)) size := by
  have front : ∀ place < size, Function.update tasks 0 (tasks size) place = swap tasks 0 size place := by
    intro place inside
    rw [swap, Function.update_of_ne inside.ne]
  rw [← bagOf_swap (Nat.succ_pos size) (Nat.lt_succ_self size), bagOf_succ, swap_right,
    bagOf_congr front]

/-- A pop takes out the first task, and none of the others is more urgent. -/
theorem HoldsBag.pop {pq : PriorityQueue} {bag : Multiset QueuedTask} (holds : HoldsBag pq bag)
    (nonempty : pq.size ≠ 0) :
    ∃ rest, bag = (pq.tasks 0).queued ::ₘ rest ∧ HoldsBag (pqPop pq).1 rest ∧
      ∀ other ∈ rest, (pq.tasks 0).priority ≤ other.priority := by
  obtain ⟨tasks, size⟩ := pq
  obtain ⟨size, rfl⟩ := Nat.exists_eq_succ_of_ne_zero nonempty
  obtain ⟨bounded, ordered, isBag⟩ := holds
  have first := bagOf_eq_cons_first tasks size
  refine ⟨_, isBag.symm.trans first, ?_, ?_⟩
  · rw [pqPop, if_neg nonempty]
    dsimp only
    rw [Nat.succ_sub_one]
    by_cases positive : 0 < size
    · rw [if_pos positive]
      obtain ⟨sunk, same⟩ := pqSink_spec (show size ≤ size + 0 from le_rfl) positive
        (ordered.sinking (Nat.le_succ size) (tasks size))
      exact ⟨Nat.le_of_succ_le bounded, sunk, same⟩
    · obtain rfl : size = 0 := by omega
      rw [if_neg positive]
      exact ⟨Nat.zero_le _, fun place child => absurd child.2 (Nat.not_lt_zero place), rfl⟩
  · intro other member
    have inBag : other ∈ bagOf tasks (size + 1) := by
      rw [first]
      exact Multiset.mem_cons_of_mem member
    obtain ⟨place, inside, rfl⟩ := mem_bagOf.mp inBag
    exact ordered.first_le inside

end Pop

theorem holdsBag_pqInit (pq : PriorityQueue) : HoldsBag (pqInit pq) 0 where
  size := Nat.zero_le _
  ordered := fun place child => absurd child.2 (Nat.not_lt_zero place)
  bag := rfl

theorem HoldsBag.card {pq : PriorityQueue} {bag : Multiset QueuedTask} (holds : HoldsBag pq bag) :
    bag.card = pq.size := by
  rw [← holds.bag, card_bagOf]

/-- A call does to the array what it does to the multiset. -/
theorem pqCall_simulates : Simulates pqCall PqAllows HoldsBag := by
  intro pq bag call holds
  have card := holds.card
  have bound := holds.size
  cases call with
  | push task =>
      by_cases full : maxPriorityTasks ≤ pq.size
      · refine ⟨bag, ?_, ?_⟩
        · simp only [pqCall, pqPush, if_pos full]
          exact .full task (by omega)
        · simpa only [pqCall, pqPush, if_pos full] using holds
      · have pushed := holds.push (Nat.not_le.mp full) task
        refine ⟨task ::ₘ bag, ?_, pushed⟩
        simp only [pqCall, pqPush, if_neg full]
        exact .pushed task (by omega)
  | pop =>
      by_cases empty : pq.size = 0
      · obtain rfl : bag = 0 := Multiset.card_eq_zero.mp (card.trans empty)
        refine ⟨0, ?_, ?_⟩
        · simp only [pqCall, pqPop, if_pos empty, Option.map_none]
          exact .empty
        · simpa only [pqCall, pqPop, if_pos empty] using holds
      · obtain ⟨rest, rfl, popped, urgent⟩ := holds.pop empty
        refine ⟨rest, ?_, popped⟩
        simp only [pqCall, pqPop, if_neg empty, Option.map_some]
        exact .popped (pq.tasks 0).queued urgent

/-- Every run keeps the heap order, and gives the answers of a multiset of tasks. -/
theorem pq_refines_multiset (pq : PriorityQueue) (calls : List PqCall) :
    let last := (run pqCall (pqInit pq) calls).1
    Ordered PriorityTask.priority last.tasks last.size ∧
      Permits PqAllows 0 calls (run pqCall (pqInit pq) calls).2 (bagOf last.tasks last.size) := by
  obtain ⟨bag, permits, holds⟩ := pqCall_simulates.run (holdsBag_pqInit pq) calls
  dsimp only
  rw [holds.bag]
  exact ⟨holds.ordered, permits⟩

end Ai

end MiniIotRobotEdge

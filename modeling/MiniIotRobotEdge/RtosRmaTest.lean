import Mathlib.Algebra.BigOperators.Group.List.Basic
import Mathlib.Algebra.BigOperators.Ring.List
import Mathlib.Tactic.NormNum
import MiniIotRobotEdge.RtosTaskScheduler
import MiniIotRobotEdge.WrappedQuotient

/-!
# The schedulability test

The model of `rma_schedulability_test` in `trace_diag.c`.  The utilisation is summed
up in thousandths, in 32 bits: a product that does not fit wraps around, every
quotient is truncated, and so is the sum.  The exact test compares rational numbers.
-/

namespace MiniIotRobotEdge

namespace Rtos

open WrappedQuotient

/-- `rma_task_t`. -/
structure RmaTask where
  periodTicks : UInt32
  wcetTicks : UInt32

def rmaBoundTable : List UInt32 :=
  [1000, 828, 779, 756, 743, 734, 728, 724, 720, 717,
    715, 713, 711, 710, 709, 708, 707, 706, 706, 705,
    704, 704, 703, 703, 702, 702, 702, 701, 701, 701,
    700, 700]

/-- The bound for a number of tasks. -/
def rmaBoundPermil (taskCount : Nat) : UInt32 :=
  if taskCount ≤ 32 then rmaBoundTable.getD (taskCount - 1) 0 else 693

/-- The loop over the tasks; a task without a period ends it. -/
def rmaUtilSum : UInt32 → List RmaTask → Option UInt32
  | utilSum, [] => some utilSum
  | utilSum, task :: rest =>
      if task.periodTicks = 0 then none
      else rmaUtilSum (utilSum + 1000 * task.wcetTicks / task.periodTicks) rest

/-- `rma_schedulability_test`: the returned value, and the total utilisation where it
is written. -/
def rmaSchedulabilityTest (tasks : List RmaTask) : Int × Option UInt32 :=
  if tasks = [] then (1, some 0)
  else
    match rmaUtilSum 0 tasks with
    | none => (0, none)
    | some utilSum => (if utilSum ≤ rmaBoundPermil tasks.length then 1 else 0, some utilSum)

/-- The exact utilisation of the tasks. -/
def utilization (tasks : List RmaTask) : ℚ :=
  (tasks.map fun task => (task.wcetTicks.toNat : ℚ) / task.periodTicks.toNat).sum

/-- What the wrapped product and the truncated quotient of a task miss, in thousandths. -/
def RmaTask.lost (task : RmaTask) : ℚ :=
  WrappedQuotient.lost uint32Size (1000 * task.wcetTicks.toNat) task.periodTicks.toNat

def lostPermil (tasks : List RmaTask) : ℚ := (tasks.map RmaTask.lost).sum

/-- What a task adds to the sum. -/
def RmaTask.term (task : RmaTask) : Nat :=
  1000 * task.wcetTicks.toNat % uint32Size / task.periodTicks.toNat

def termSum (tasks : List RmaTask) : Nat := (tasks.map RmaTask.term).sum

theorem termSum_cons (task : RmaTask) (rest : List RmaTask) :
    termSum (task :: rest) = task.term + termSum rest := by
  rw [termSum, List.map_cons, List.sum_cons, termSum]

theorem utilization_cons (task : RmaTask) (rest : List RmaTask) :
    utilization (task :: rest) =
      (task.wcetTicks.toNat : ℚ) / task.periodTicks.toNat + utilization rest := by
  simp only [utilization, List.map_cons, List.sum_cons]

theorem lostPermil_cons (task : RmaTask) (rest : List RmaTask) :
    lostPermil (task :: rest) = task.lost + lostPermil rest := by
  rw [lostPermil, List.map_cons, List.sum_cons, lostPermil]

/-- One turn of the loop, in natural numbers. -/
theorem utilSum_add (utilSum wcet period : UInt32) :
    (utilSum + 1000 * wcet / period).toNat =
      (utilSum.toNat + RmaTask.term ⟨period, wcet⟩) % uint32Size := by
  have thousand : (1000 : UInt32).toNat = 1000 := by decide
  rw [UInt32.toNat_add, UInt32.toNat_div, UInt32.toNat_mul, thousand, RmaTask.term,
    uint32Size]

theorem rmaUtilSum_eq {tasks : List RmaTask} (periods : ∀ task ∈ tasks, task.periodTicks ≠ 0)
    (utilSum : UInt32) : ∃ total, rmaUtilSum utilSum tasks = some total ∧
      total.toNat = (utilSum.toNat + termSum tasks) % uint32Size := by
  induction tasks generalizing utilSum with
  | nil =>
      refine ⟨utilSum, rfl, ?_⟩
      have fits := utilSum.toNat_lt
      unfold uint32Size
      simp only [termSum, List.map_nil, List.sum_nil, Nat.add_zero]
      omega
  | cons task rest ih =>
      obtain ⟨total, returned, totalEq⟩ :=
        ih (fun other isRest => periods other (List.mem_cons_of_mem task isRest))
          (utilSum + 1000 * task.wcetTicks / task.periodTicks)
      refine ⟨total, ?_, ?_⟩
      · rw [rmaUtilSum, if_neg (periods task List.mem_cons_self)]
        exact returned
      · rw [totalEq, utilSum_add, Nat.mod_add_mod, Nat.add_assoc, termSum_cons]

/-- The terms are the exact thousandths less what is lost. -/
theorem cast_termSum {tasks : List RmaTask} (periods : ∀ task ∈ tasks, task.periodTicks ≠ 0) :
    (termSum tasks : ℚ) = 1000 * utilization tasks - lostPermil tasks := by
  induction tasks with
  | nil => simp [termSum, utilization, lostPermil]
  | cons task rest ih =>
      have rests := ih fun other isRest => periods other (List.mem_cons_of_mem task isRest)
      have positive : 0 < task.periodTicks.toNat := by
        have nonzero := periods task List.mem_cons_self
        rw [Nat.pos_iff_ne_zero]
        exact fun zero => nonzero (UInt32.toNat_inj.mp zero)
      have term := cast_div uint32Size (1000 * task.wcetTicks.toNat) positive
      rw [Nat.cast_mul, Nat.cast_ofNat] at term
      rw [termSum_cons, Nat.cast_add, RmaTask.term, term, rests, utilization_cons, lostPermil_cons,
        RmaTask.lost]
      ring

/-- The test accepts tasks whose terms exceed a whole number of words by no more than the
bound. -/
theorem rmaSchedulabilityTest_accepts {tasks : List RmaTask} (some_task : tasks ≠ [])
    (periods : ∀ task ∈ tasks, task.periodTicks ≠ 0) :
    (rmaSchedulabilityTest tasks).1 = 1 ↔
      ∃ wraps : Nat, wraps * uint32Size ≤ termSum tasks ∧
        termSum tasks ≤ wraps * uint32Size + (rmaBoundPermil tasks.length).toNat := by
  obtain ⟨total, returned, totalEq⟩ := rmaUtilSum_eq periods 0
  rw [show (0 : UInt32).toNat = 0 from rfl, Nat.zero_add] at totalEq
  have boundLt : (rmaBoundPermil tasks.length).toNat < uint32Size :=
    (rmaBoundPermil tasks.length).toNat_lt
  rw [← mod_le_iff (termSum tasks) boundLt, ← totalEq, ← UInt32.le_iff_toNat_le,
    rmaSchedulabilityTest, if_neg some_task, returned]
  simp

/-- Tasks that the test accepts do not exceed the bound. -/
def RmaSound (tasks : List RmaTask) : Prop :=
  (rmaSchedulabilityTest tasks).1 = 1 →
    utilization tasks ≤ ((rmaBoundPermil tasks.length).toNat : ℚ) / 1000

/-- The thousandths less what is lost come to a multiple of the word or exceed it by no
more than the bound. -/
def Hidden (tasks : List RmaTask) : Prop :=
  ∃ wraps : Nat,
    (wraps * uint32Size : Nat) ≤ 1000 * utilization tasks - lostPermil tasks ∧
      1000 * utilization tasks - lostPermil tasks ≤
        (wraps * uint32Size + (rmaBoundPermil tasks.length).toNat : Nat)

end Rtos

end MiniIotRobotEdge

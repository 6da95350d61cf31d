import MiniIotRobotEdge.RtosReadyRings

/-!
# Selection of the next task

`find_next_task` stops at the highest priority whose ring is not empty.  On
that ring it takes the first ready task, in ring order from the head, that is
the head or has not used up its time slice, and moves the head behind it; if
there is none it returns the head, whatever state that is in.  Only when all
other rings are empty does it return the head of the idle ring.
-/

namespace MiniIotRobotEdge

namespace Rtos

open PointerRing

/-- The first selectable task of a ring. -/
def firstSelectable (kernel : Kernel) (head : TaskId) (nodes : List TaskId) :
    Option TaskId :=
  nodes.find? fun candidate => Selectable kernel head candidate

theorem listLoop_scan (kernel : Kernel) (head : TaskId) (nodes : List TaskId) :
    listLoop (fun (kernel : Kernel) candidate =>
        if Selectable kernel head candidate then .inr candidate else .inl kernel)
      nodes kernel =
    match firstSelectable kernel head nodes with
    | some candidate => .inr candidate
    | none => .inl kernel := by
  induction nodes with
  | nil => rfl
  | cons node rest ih =>
      rw [listLoop, firstSelectable, List.find?_cons]
      by_cases selectable : Selectable kernel head node
      · simp [selectable]
      · simp only [selectable, if_false, decide_false]
        exact ih

private theorem scan_nextKept (head : TaskId) (state : Kernel) (node : TaskId)
    (state' : Kernel)
    (stepped : (if Selectable state head node then .inr node else .inl state :
      Kernel ⊕ TaskId) = .inl state') : state'.next = state.next := by
  split at stepped
  · simp at stepped
  · rw [Sum.inl.inj stepped]

section Scan

variable {kernel : Kernel} {head : TaskId} {nodes : List TaskId} {fuel : Nat}

theorem scanRing_outcome {outcome : Kernel ⊕ TaskId}
    (ring : Ring kernel.next kernel.prev (some head) nodes)
    (scanned : scanRing fuel kernel head = some outcome) :
    outcome = match firstSelectable kernel head nodes with
      | some candidate => .inr candidate
      | none => .inl kernel := by
  rw [← listLoop_scan]
  exact loop_outcome (scan_nextKept head) ring scanned

theorem scanRing_total (ring : Ring kernel.next kernel.prev (some head) nodes)
    (enough : nodes.length ≤ fuel) : ∃ outcome, scanRing fuel kernel head = some outcome :=
  ⟨_, loop_total (scan_nextKept head) ring enough⟩

end Scan

/-- What `find_next_task` chooses: a task and the new head of the ring at
`prio`, or the head of the idle ring. -/
inductive Choice (kernel : Kernel) (ring : Nat → List TaskId) (limit : Nat) :
    Option TaskId → Kernel → Prop
  | selected (prio : Nat) (head candidate : TaskId)
      (bounds : 0 < prio ∧ prio ≤ limit)
      (above : ∀ other, prio < other → other ≤ limit → ring other = [])
      (listed : kernel.taskList prio = some head)
      (first : firstSelectable kernel head (ring prio) = some candidate) :
      Choice kernel ring limit (some candidate)
        (kernel.setList prio (some (kernel.next candidate)))
  | fallback (prio : Nat) (head : TaskId)
      (bounds : 0 < prio ∧ prio ≤ limit)
      (above : ∀ other, prio < other → other ≤ limit → ring other = [])
      (listed : kernel.taskList prio = some head)
      (unselectable : ∀ candidate ∈ ring prio, ¬ Selectable kernel head candidate) :
      Choice kernel ring limit (some head) (kernel.setList prio (some head))
  | idle (empty : ∀ other, 0 < other → other ≤ limit → ring other = []) :
      Choice kernel ring limit (kernel.taskList taskPriorityIdle) kernel

theorem findNextTaskFrom_choice {kernel after : Kernel} {ring : Nat → List TaskId}
    {fuel limit : Nat} {chosen : Option TaskId} (rings : Rings kernel ring)
    (found : findNextTaskFrom fuel kernel limit = some (chosen, after)) :
    Choice kernel ring limit chosen after := by
  induction limit with
  | zero =>
      obtain ⟨rfl, rfl⟩ := Prod.mk.inj (Option.some.inj found)
      exact .idle (by omega)
  | succ prio ih =>
      have linked := rings.linked (prio + 1)
      rw [findNextTaskFrom] at found
      split at found
      case h_1 empty =>
        have noTask : ring (prio + 1) = [] := linked.eq_nil_iff.mpr empty
        have extend : ∀ {lower : Nat},
            (∀ other, lower < other → other ≤ prio → ring other = []) →
            ∀ other, lower < other → other ≤ prio + 1 → ring other = [] := by
          intro lower above other higher bounded
          by_cases top : other = prio + 1
          · rw [top, noTask]
          · exact above other higher (by omega)
        cases ih found with
        | selected lower head candidate bounds above listed first =>
            exact .selected lower head candidate ⟨bounds.1, by omega⟩ (extend above) listed
              first
        | fallback lower head bounds above listed unselectable =>
            exact .fallback lower head ⟨bounds.1, by omega⟩ (extend above) listed
              unselectable
        | idle empty => exact .idle (extend empty)
      case h_2 head listed =>
        rw [listed] at linked
        have above : ∀ other, prio + 1 < other → other ≤ prio + 1 → ring other = [] := by
          omega
        split at found
        case h_1 => simp at found
        case h_2 candidate scanned =>
          obtain ⟨rfl, rfl⟩ := Prod.mk.inj (Option.some.inj found)
          have outcome := scanRing_outcome linked scanned
          refine .selected (prio + 1) head candidate ⟨by omega, by omega⟩ above listed ?_
          split at outcome
          · rename_i other first
            rw [first, Sum.inr.inj outcome]
          · simp at outcome
        case h_3 same scanned =>
          obtain ⟨rfl, rfl⟩ := Prod.mk.inj (Option.some.inj found)
          have outcome := scanRing_outcome linked scanned
          refine .fallback (prio + 1) head ⟨by omega, by omega⟩ above listed ?_
          split at outcome
          · simp at outcome
          · rename_i none
            intro candidate onRing
            simpa using List.find?_eq_none.mp none candidate onRing

/-- With enough fuel `find_next_task` returns. -/
theorem findNextTaskFrom_total {kernel : Kernel} {ring : Nat → List TaskId}
    (rings : Rings kernel ring) (limit : Nat) :
    ∃ enough, ∀ fuel, enough ≤ fuel →
      ∃ chosen after, findNextTaskFrom fuel kernel limit = some (chosen, after) := by
  induction limit with
  | zero => exact ⟨0, fun _ _ => ⟨_, _, rfl⟩⟩
  | succ prio ih =>
      obtain ⟨lower, ih⟩ := ih
      have linked := rings.linked (prio + 1)
      refine ⟨max lower (ring (prio + 1)).length, fun fuel enough => ?_⟩
      rw [findNextTaskFrom]
      split
      · exact ih fuel (by omega)
      · rename_i head listed
        rw [listed] at linked
        have longEnough : (ring (prio + 1)).length ≤ fuel := by omega
        obtain ⟨outcome, scanned⟩ := scanRing_total linked longEnough
        rw [scanned]
        cases outcome with
        | inl same => exact ⟨_, _, rfl⟩
        | inr candidate => exact ⟨_, _, rfl⟩

namespace Choice

variable {kernel after : Kernel} {ring : Nat → List TaskId} {limit : Nat}
  {chosen : Option TaskId}

/-- The chosen task is on a ring. -/
theorem mem_ring (choice : Choice kernel ring limit chosen after)
    (rings : Rings kernel ring) {task : TaskId} (isChosen : chosen = some task) :
    ∃ prio, task ∈ ring prio := by
  cases choice with
  | selected prio head candidate bounds above listed first =>
      obtain rfl : candidate = task := Option.some.inj isChosen
      exact ⟨prio, List.mem_of_find?_eq_some first⟩
  | fallback prio head bounds above listed unselectable =>
      obtain rfl : head = task := Option.some.inj isChosen
      have linked := rings.linked prio
      rw [listed] at linked
      exact ⟨prio, linked.head_mem⟩
  | idle empty =>
      have linked := rings.linked taskPriorityIdle
      rw [isChosen] at linked
      exact ⟨taskPriorityIdle, linked.head_mem⟩

theorem eq_none (choice : Choice kernel ring limit chosen after) (nothing : chosen = none) :
    after = kernel ∧ kernel.taskList taskPriorityIdle = none := by
  cases choice with
  | selected => simp at nothing
  | fallback => simp at nothing
  | idle empty => exact ⟨rfl, nothing⟩

/-- Apart from the head of a ring, the search changes nothing. -/
theorem tcb_eq (choice : Choice kernel ring limit chosen after) : after.tcb = kernel.tcb := by
  cases choice <;> rfl

theorem live_eq (choice : Choice kernel ring limit chosen after) :
    after.live = kernel.live := by
  cases choice <;> rfl

theorem schedulerRunning_eq (choice : Choice kernel ring limit chosen after) :
    after.schedulerRunning = kernel.schedulerRunning := by
  cases choice <;> rfl

/-- The rings are turned but keep their tasks. -/
theorem rings (choice : Choice kernel ring limit chosen after)
    (rings : Rings kernel ring) :
    ∃ turned, Rings after turned ∧ ∀ prio task, task ∈ turned prio ↔ task ∈ ring prio := by
  have moved : ∀ {prio : Nat} {head : TaskId}, head ∈ ring prio →
      ∃ turned, Rings (kernel.setList prio (some head)) turned ∧
        ∀ other task, task ∈ turned other ↔ task ∈ ring other := by
    intro prio head onRing
    obtain ⟨count, _, turned⟩ := rings.setList onRing
    refine ⟨_, turned, fun other task => ?_⟩
    by_cases same : other = prio
    · rw [same, Function.update_self, List.mem_rotate]
    · rw [Function.update_of_ne same]
  cases choice with
  | selected prio head candidate bounds above listed first =>
      exact moved ((rings.linked prio).next_mem (List.mem_of_find?_eq_some first))
  | fallback prio head bounds above listed unselectable =>
      have linked := rings.linked prio
      rw [listed] at linked
      exact moved linked.head_mem
  | idle empty => exact ⟨ring, rings, fun _ _ => Iff.rfl⟩

end Choice

end Rtos

end MiniIotRobotEdge

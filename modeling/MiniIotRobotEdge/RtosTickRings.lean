import MiniIotRobotEdge.RtosReadyRings

/-!
# A tick on well-formed rings

Around well-formed rings both loops of `scheduler_tick_handler` end, and the
first one counts down every delayed task that is on a ring exactly once.  A
delayed task that is on no ring is not reached.
-/

namespace MiniIotRobotEdge

namespace Rtos

open PointerRing

/-- The walk around one ring, over the list of its tasks. -/
def tickAll (kernel : Kernel) (nodes : List TaskId) : Kernel :=
  nodes.foldl (fun kernel task => kernel.modify task tickTcb) kernel

theorem listLoop_tick (kernel : Kernel) (nodes : List TaskId) :
    listLoop (fun kernel task => (.inl (kernel.modify task tickTcb) : Kernel ⊕ Empty))
      nodes kernel = .inl (tickAll kernel nodes) := by
  induction nodes generalizing kernel with
  | nil => rfl
  | cons node rest ih =>
      rw [listLoop]
      exact ih (kernel.modify node tickTcb)

theorem tcb_tickAll {nodes : List TaskId} (distinct : nodes.Nodup) (kernel : Kernel)
    (task : TaskId) :
    (tickAll kernel nodes).tcb task =
      if task ∈ nodes then tickTcb (kernel.tcb task) else kernel.tcb task := by
  induction nodes generalizing kernel with
  | nil => simp [tickAll]
  | cons node rest ih =>
      obtain ⟨nodeNot, restDistinct⟩ := List.nodup_cons.mp distinct
      have walked := ih restDistinct (kernel.modify node tickTcb)
      rw [tickAll, List.foldl_cons]
      rw [tickAll] at walked
      rw [walked, Kernel.tcb_modify]
      by_cases same : task = node
      · simp [same, nodeNot]
      · simp [same]

theorem tickTcb_next (tcb : Tcb) : (tickTcb tcb).next = tcb.next := by
  unfold tickTcb
  split
  · split <;> rfl
  · rfl

theorem tickTcb_prev (tcb : Tcb) : (tickTcb tcb).prev = tcb.prev := by
  unfold tickTcb
  split
  · split <;> rfl
  · rfl

theorem tickTcb_priority (tcb : Tcb) : (tickTcb tcb).priority = tcb.priority := by
  unfold tickTcb
  split
  · split <;> rfl
  · rfl

/-- Rings survive every change that keeps links, priorities and heads. -/
theorem Rings.of_kept {kernel after : Kernel} {ring : Nat → List TaskId}
    (rings : Rings kernel ring) (next : FieldKept Tcb.next kernel after)
    (prev : FieldKept Tcb.prev kernel after)
    (priority : FieldKept Tcb.priority kernel after) : Rings after ring := by
  apply rings.congr next.taskList
  intro prio task onRing
  refine ⟨next.tcb task, prev.tcb task, priority.tcb task, ?_⟩
  rw [next.live]
  exact rings.live onRing

private theorem tick_nextKept (state : Kernel) (node : TaskId) (state' : Kernel)
    (stepped : (.inl (state.modify node tickTcb) : Kernel ⊕ Empty) = .inl state') :
    state'.next = state.next := by
  rw [← Sum.inl.inj stepped]
  ext task
  exact Kernel.field_modify Tcb.next state node tickTcb_next task

section TickRings

variable {kernel after : Kernel} {ring : Nat → List TaskId} {fuel count : Nat}

theorem Rings.tickRings (rings : Rings kernel ring)
    (walked : tickRings fuel kernel count = some after) : Rings after ring :=
  rings.of_kept (.tickRings tickTcb_next walked) (.tickRings tickTcb_prev walked)
    (.tickRings tickTcb_priority walked)

/-- The tasks on the rings below `count` are counted down, the others are
not. -/
theorem tcb_tickRings (rings : Rings kernel ring)
    (walked : tickRings fuel kernel count = some after) (task : TaskId) :
    after.tcb task =
      if ∃ prio < count, task ∈ ring prio then tickTcb (kernel.tcb task)
      else kernel.tcb task := by
  induction count generalizing after with
  | zero =>
      obtain rfl : kernel = after := by simpa [tickRings] using walked
      simp
  | succ prio ih =>
      rw [tickRings] at walked
      split at walked
      · simp at walked
      · rename_i lower lowerWalked
        have lowerTcb := ih lowerWalked
        have linked := (rings.tickRings lowerWalked).linked prio
        have splitBound : (∃ index < prio + 1, task ∈ ring index) ↔
            (∃ index < prio, task ∈ ring index) ∨ task ∈ ring prio := by
          constructor
          · rintro ⟨index, small, onRing⟩
            by_cases top : index = prio
            · exact .inr (top ▸ onRing)
            · exact .inl ⟨index, by omega, onRing⟩
          · rintro (⟨index, small, onRing⟩ | onRing)
            · exact ⟨index, by omega, onRing⟩
            · exact ⟨prio, by omega, onRing⟩
        split at walked
        case h_1 empty =>
          obtain rfl : lower = after := by simpa using walked
          have noTask : ring prio = [] := linked.eq_nil_iff.mpr empty
          rw [lowerTcb]
          simp only [splitBound, noTask, List.not_mem_nil, or_false]
        case h_2 head listed =>
          rw [listed] at linked
          split at walked
          · simp at walked
          · rename_i last looped
            obtain rfl := Option.some.inj walked
            have outcome := loop_outcome tick_nextKept linked looped
            rw [listLoop_tick] at outcome
            obtain rfl := Sum.inl.inj outcome
            rw [tcb_tickAll linked.nodup, lowerTcb]
            by_cases onRing : task ∈ ring prio
            · have onlyHere : ¬ ∃ index < prio, task ∈ ring index := by
                rintro ⟨index, small, onOther⟩
                have same := rings.mem_unique onOther onRing
                omega
              simp only [splitBound, onRing, onlyHere, or_true, if_true, if_false]
            · simp only [splitBound, onRing, or_false, if_false]
          · rename_i result _
            exact result.elim

theorem tickRings_total (rings : Rings kernel ring) (count : Nat) :
    ∃ enough, ∀ fuel, enough ≤ fuel → ∃ after, tickRings fuel kernel count = some after := by
  induction count with
  | zero => exact ⟨0, fun _ _ => ⟨_, rfl⟩⟩
  | succ prio ih =>
      obtain ⟨lower, ih⟩ := ih
      refine ⟨max lower (ring prio).length, fun fuel enough => ?_⟩
      obtain ⟨between, walked⟩ := ih fuel (by omega)
      have linked := (rings.tickRings walked).linked prio
      rw [tickRings, walked]
      dsimp only
      cases listed : between.taskList prio with
      | none => exact ⟨_, rfl⟩
      | some head =>
          rw [listed] at linked
          dsimp only
          rw [loop_total tick_nextKept linked (by omega : (ring prio).length ≤ fuel),
            listLoop_tick]
          exact ⟨_, rfl⟩

end TickRings

theorem tickRings_mono {kernel after : Kernel} {fuel more count : Nat}
    (walked : tickRings fuel kernel count = some after) (le : fuel ≤ more) :
    tickRings more kernel count = some after := by
  induction count generalizing after with
  | zero => exact walked
  | succ prio ih =>
      rw [tickRings] at walked ⊢
      cases lower : tickRings fuel kernel prio with
      | none => simp [lower] at walked
      | some between =>
          rw [ih lower]
          rw [lower] at walked
          dsimp only at walked ⊢
          cases listed : between.taskList prio with
          | none => simpa [listed] using walked
          | some head =>
              rw [listed] at walked
              dsimp only at walked ⊢
              split at walked
              · simp at walked
              · rename_i last looped
                rw [loop_mono looped le]
                exact walked
              · rename_i result _
                exact result.elim

/-- The body of the preemption test keeps the kernel. -/
theorem preemptRing_total {kernel : Kernel} {head running : TaskId} {nodes : List TaskId}
    {fuel : Nat} (ring : Ring kernel.next kernel.prev (some head) nodes)
    (enough : nodes.length ≤ fuel) :
    ∃ outcome, preemptRing fuel kernel (some running) head = some outcome ∧
      outcome ≠ .inr none := by
  refine ⟨_, loop_total ?_ ring enough, ?_⟩
  · intro state node state' stepped
    dsimp only at stepped
    split at stepped
    · split at stepped
      · simp at stepped
      · rw [Sum.inl.inj stepped]
    · rw [Sum.inl.inj stepped]
  · clear ring enough
    induction nodes with
    | nil => simp [listLoop]
    | cons node rest ih =>
        rw [listLoop]
        dsimp only
        split
        · rename_i result stepped
          split at stepped
          · split at stepped
            · rw [← Sum.inr.inj stepped]
              simp
            · simp at stepped
          · simp at stepped
        · rename_i state' stepped
          have same : state' = kernel := by
            split at stepped
            · split at stepped
              · simp at stepped
              · exact (Sum.inl.inj stepped).symm
            · exact (Sum.inl.inj stepped).symm
          rw [same]
          exact ih

theorem preemptRings_total {kernel : Kernel} {ring : Nat → List TaskId}
    (rings : Rings kernel ring) {running : TaskId}
    (current : kernel.currentTask = some running) (prio : Nat) :
    ∃ enough, ∀ fuel, enough ≤ fuel →
      ∃ after, preemptRings fuel kernel prio = some after := by
  induction prio with
  | zero => exact ⟨0, fun _ _ => ⟨_, rfl⟩⟩
  | succ prio ih =>
      obtain ⟨lower, ih⟩ := ih
      have linked := rings.linked (prio + 1)
      refine ⟨max lower (ring (prio + 1)).length, fun fuel enough => ?_⟩
      rw [preemptRings]
      split
      · exact ih fuel (by omega)
      · rename_i head listed
        rw [listed] at linked
        obtain ⟨outcome, searched, found⟩ :=
          preemptRing_total linked (by omega : (ring (prio + 1)).length ≤ fuel)
        rw [current, searched]
        cases outcome with
        | inl _ =>
            dsimp only
            split
            · exact ⟨_, rfl⟩
            · exact ih fuel (by omega)
        | inr stopped =>
            cases stopped with
            | none => exact absurd rfl found
            | some _ => exact ⟨_, rfl⟩

/-- With enough fuel the tick handler returns. -/
theorem schedulerTickHandler_total {kernel : Kernel} {ring : Nat → List TaskId}
    (rings : Rings kernel ring) {running : TaskId}
    (current : kernel.currentTask = some running) :
    ∃ fuel after, schedulerTickHandler fuel kernel = some after := by
  by_cases started : kernel.schedulerRunning = true
  case neg => exact ⟨0, kernel, by simp [schedulerTickHandler, started]⟩
  have counted : Rings (countTick kernel) ring :=
    rings.of_kept (.countTick kernel fun _ _ => rfl) (.countTick kernel fun _ _ => rfl)
      (.countTick kernel fun _ _ => rfl)
  have countedKept : FieldKept Tcb.next kernel (countTick kernel) :=
    .countTick kernel fun _ _ => rfl
  obtain ⟨first, walks⟩ := tickRings_total counted taskPriorityMax
  obtain ⟨middle, walked⟩ := walks first le_rfl
  have ticked := counted.tickRings walked
  have tickedCurrent : middle.currentTask = some running := by
    rw [(FieldKept.tickRings tickTcb_next walked).currentTask, countedKept.currentTask,
      current]
  obtain ⟨second, searches⟩ := preemptRings_total ticked tickedCurrent taskPriorityHighest
  obtain ⟨after, searched⟩ := searches (max first second) (Nat.le_max_right _ _)
  refine ⟨max first second, after, ?_⟩
  rw [schedulerTickHandler_eq started, tickRings_mono walked (Nat.le_max_left _ _)]
  exact searched

/-- What a tick does to the control blocks. -/
theorem tcb_schedulerTickHandler {kernel after : Kernel} {ring : Nat → List TaskId}
    {fuel : Nat} (rings : Rings kernel ring) (started : kernel.schedulerRunning = true)
    (handled : schedulerTickHandler fuel kernel = some after) (task : TaskId) :
    after.tcb task =
      if ∃ prio < taskPriorityMax, task ∈ ring prio then
        tickTcb ((countTick kernel).tcb task)
      else (countTick kernel).tcb task := by
  have counted : Rings (countTick kernel) ring :=
    rings.of_kept (.countTick kernel fun _ _ => rfl) (.countTick kernel fun _ _ => rfl)
      (.countTick kernel fun _ _ => rfl)
  rw [schedulerTickHandler_eq started] at handled
  split at handled
  · simp at handled
  · rename_i middle walked
    have searched : FieldKept id middle after := .preemptRings handled
    have same : after.tcb task = middle.tcb task := searched.tcb task
    rw [same, tcb_tickRings counted walked]

/-- A tick keeps the rings. -/
theorem Rings.schedulerTickHandler {kernel after : Kernel} {ring : Nat → List TaskId}
    {fuel : Nat} (rings : Rings kernel ring)
    (handled : schedulerTickHandler fuel kernel = some after) : Rings after ring :=
  rings.of_kept (.schedulerTickHandler tickTcb_next (fun _ _ => rfl) handled)
    (.schedulerTickHandler tickTcb_prev (fun _ _ => rfl) handled)
    (.schedulerTickHandler tickTcb_priority (fun _ _ => rfl) handled)

end Rtos

end MiniIotRobotEdge

import Mathlib.Algebra.BigOperators.Group.Finset.Basic
import Mathlib.Data.Finset.Lattice.Fold
import MiniIotRobotEdge.RtosHeapSearch
import MiniIotRobotEdge.RtosHeapRuns
import MiniIotRobotEdge.RtosSwitching
import MiniIotRobotEdge.WrappedQuotient

/-!
# Load figures

`scheduler_get_load_permil`, the processor statistics of `trace_diag.c` and
`heap_fragmentation_permil`.  All three scale a counter of 32 bits before they divide
it, and the sum of the running times wraps around as well.
-/

namespace MiniIotRobotEdge

namespace Rtos

open PointerRing

/-- The body of the loop around a ring. -/
def addRuntime (kernel : Kernel) (busyTicks : Nat) (task : TaskId) : Nat ⊕ Empty :=
  .inl ((busyTicks + (kernel.tcb task).runtimeTicks) % uint32Size)

/-- The loops of `scheduler_get_load_permil` over the rings below a priority. -/
def busyTicks (fuel : Nat) (kernel : Kernel) : Nat → Option Nat
  | 0 => some 0
  | prio + 1 =>
      match busyTicks fuel kernel prio with
      | none => none
      | some busy =>
          match kernel.taskList prio with
          | none => some busy
          | some head =>
              match loop (fun _ => kernel.next) (addRuntime kernel) head fuel busy head with
              | some (.inl busy) => some busy
              | _ => none

def schedulerGetLoadPermil (fuel : Nat) (kernel : Kernel) : Option Nat :=
  let total := kernel.tickCount
  if total = 0 then some 0
  else
    (busyTicks fuel kernel taskPriorityMax).map fun busy =>
      if total ≤ busy then 1000 else busy * 1000 % uint32Size / total

/-- The accumulators behind `cpu_stats_get`. -/
structure CpuStats where
  totalTicksAcc : Nat := 0
  idleTicksAcc : Nat := 0
  ctxSwitchCount : Nat := 0

/-- `cpu_stats_t`. -/
structure CpuStatsSnapshot where
  idleTicks : Nat
  totalTicks : Nat
  cpuUsagePercent : Nat
  taskCount : Nat
  maxRuntimeTaskId : Nat
  maxRuntimeTicks : Nat
  contextSwitchCount : Nat

def cpuStatsInit : CpuStats := {}

def cpuStatsTickHook (kernel : Kernel) (stats : CpuStats) : CpuStats :=
  let stats := { stats with totalTicksAcc := (stats.totalTicksAcc + 1) % uint32Size }
  match kernel.currentTask with
  | none => stats
  | some current =>
      if (kernel.tcb current).priority = taskPriorityIdle ∨ (kernel.tcb current).priority = 0 then
        { stats with idleTicksAcc := (stats.idleTicksAcc + 1) % uint32Size }
      else stats

def cpuStatsTaskSwitchHook (stats : CpuStats) : CpuStats :=
  { stats with ctxSwitchCount := (stats.ctxSwitchCount + 1) % uint32Size }

def cpuStatsGet (stats : CpuStats) : CpuStatsSnapshot where
  idleTicks := stats.idleTicksAcc
  totalTicks := stats.totalTicksAcc
  cpuUsagePercent :=
    if 0 < stats.totalTicksAcc ∧ stats.idleTicksAcc ≤ stats.totalTicksAcc then
      (stats.totalTicksAcc - stats.idleTicksAcc) * 100 % uint32Size / stats.totalTicksAcc
    else 0
  taskCount := 0
  maxRuntimeTaskId := 0
  maxRuntimeTicks := 0
  contextSwitchCount := stats.ctxSwitchCount

/-- The walk of `heap_calc_largest_free` along one region. -/
def largestFreeFrom (memory : Memory) : Nat → Nat → Nat → Option Nat
  | 0, _, _ => none
  | fuel + 1, block, largest =>
      if block = 0 then some largest
      else
        largestFreeFrom memory fuel (header memory block).next
          (if (header memory block).free ≠ 0 ∧ largest < (header memory block).size then
            (header memory block).size
          else largest)

def largestFreeRegions (fuel : Nat) (memory : Memory) : List HeapRegion → Nat → Option Nat
  | [], largest => some largest
  | region :: rest, largest =>
      (largestFreeFrom memory fuel region.freeList largest).bind
        (largestFreeRegions fuel memory rest)

def heapCalcLargestFree (fuel : Nat) (heap : Heap) : Option Nat :=
  largestFreeRegions fuel heap.memory heap.regions 0

def heapFragmentationPermil (fuel : Nat) (heap : Heap) : Option Nat :=
  (heapCalcLargestFree fuel heap).map fun largest =>
    if heap.stats.freeSize = 0 then 0
    else if heap.stats.freeSize ≤ largest then 0
    else 1000 - largest * 1000 % uint32Size / heap.stats.freeSize

section Busy

variable {kernel : Kernel} {ring : Nat → List TaskId} {fuel : Nat}

/-- The running times of some tasks, in full. -/
def runtimeSum (kernel : Kernel) (tasks : List TaskId) : Nat :=
  (tasks.map fun task => (kernel.tcb task).runtimeTicks).sum

/-- The running times on the rings below a priority, in full. -/
def runtimeBelow (kernel : Kernel) (ring : Nat → List TaskId) (count : Nat) : Nat :=
  ((List.range count).map fun prio => runtimeSum kernel (ring prio)).sum

theorem runtimeBelow_succ (count : Nat) :
    runtimeBelow kernel ring (count + 1) =
      runtimeBelow kernel ring count + runtimeSum kernel (ring count) := by
  simp [runtimeBelow, List.range_succ]

theorem listLoop_addRuntime (busy : Nat) (tasks : List TaskId) (inRange : busy < uint32Size) :
    listLoop (addRuntime kernel) tasks busy =
      .inl ((busy + runtimeSum kernel tasks) % uint32Size) := by
  induction tasks generalizing busy with
  | nil =>
      rw [listLoop, runtimeSum, List.map_nil, List.sum_nil, Nat.add_zero, Nat.mod_eq_of_lt inRange]
  | cons task rest ih =>
      have wrapped : (busy + (kernel.tcb task).runtimeTicks) % uint32Size < uint32Size :=
        Nat.mod_lt _ (by decide)
      have looped := ih _ wrapped
      rw [listLoop, addRuntime]
      dsimp only
      rw [looped, Nat.mod_add_mod, runtimeSum, runtimeSum, List.map_cons, List.sum_cons,
        Nat.add_assoc]

/-- The loops add up the running times, modulo the size of a word. -/
theorem busyTicks_eq {count : Nat} (rings : Rings kernel ring)
    (enough : ∀ prio < count, (ring prio).length ≤ fuel) :
    busyTicks fuel kernel count = some (runtimeBelow kernel ring count % uint32Size) := by
  induction count with
  | zero => rfl
  | succ prio ih =>
      have lower := ih fun other small => enough other (by omega)
      have linked := rings.linked prio
      rw [busyTicks, lower]
      dsimp only
      cases listed : kernel.taskList prio with
      | none =>
          have noTask : ring prio = [] := linked.eq_nil_iff.mpr listed
          rw [runtimeBelow_succ, noTask]
          rfl
      | some head =>
          rw [listed] at linked
          have wrapped : runtimeBelow kernel ring prio % uint32Size < uint32Size :=
            Nat.mod_lt _ (by decide)
          have looped : loop (fun _ => kernel.next) (addRuntime kernel) head fuel
              (runtimeBelow kernel ring prio % uint32Size) head =
                some (listLoop (addRuntime kernel) (ring prio) _) :=
            loop_total (fun _ _ _ _ => rfl) linked (enough prio (by omega))
          dsimp only
          rw [looped, listLoop_addRuntime _ _ wrapped]
          dsimp only
          rw [Nat.mod_add_mod, runtimeBelow_succ]

end Busy

section Largest

variable {memory : Memory} {region : HeapRegion} {before after blocks : List Block}

/-- The size of the largest free block. -/
def largestFree (blocks : List Block) : Nat :=
  ((blocks.filter Block.free).map Block.size).foldr max 0

theorem largestFree_cons (block : Block) (rest : List Block) :
    largestFree (block :: rest) =
      if block.free = true then max block.size (largestFree rest) else largestFree rest := by
  unfold largestFree
  rw [List.filter_cons]
  split <;> rfl

theorem largestFree_append (first second : List Block) :
    largestFree (first ++ second) = max (largestFree first) (largestFree second) := by
  induction first with
  | nil => simp [largestFree]
  | cons block rest ih =>
      rw [List.cons_append, largestFree_cons, largestFree_cons, ih]
      split
      · rw [max_assoc]
      · rfl

/-- The walk from a position of the chain on. -/
theorem RegionChain.largestFreeFrom_eq {fuel : Nat}
    (chain : RegionChain memory region (before ++ after)) (fits : region.Fits)
    (enough : after.length < fuel) (largest : Nat) :
    largestFreeFrom memory fuel ((after.map Block.start).headD 0) largest =
      some (max largest (largestFree after)) := by
  induction after generalizing before fuel largest with
  | nil =>
      obtain ⟨less, rfl⟩ := Nat.exists_eq_add_of_lt enough
      simp [largestFreeFrom, largestFree]
  | cons block rest ih =>
      obtain ⟨less, rfl⟩ : ∃ less, fuel = less + 1 := ⟨fuel - 1, by omega⟩
      have onChain : block ∈ before ++ block :: rest := by simp
      have marked := chain.marked block onChain
      have positive := (chain.start_pos fits onChain).1
      have restChain : RegionChain memory region ((before ++ [block]) ++ rest) := by
        simpa using chain
      rw [List.map_cons, List.headD_cons, largestFreeFrom, if_neg (Nat.ne_of_gt positive),
        chain.next_eq, marked.size, ih restChain (by simpa using enough), largestFree_cons]
      simp only [marked.free_iff]
      congr 1
      by_cases isFree : block.free = true
      · rw [if_pos isFree, ← max_assoc]
        by_cases larger : largest < block.size
        · rw [if_pos ⟨isFree, larger⟩, max_eq_right (Nat.le_of_lt larger)]
        · rw [if_neg fun both => larger both.2, max_eq_left (Nat.le_of_not_lt larger)]
      · rw [if_neg isFree, if_neg fun both => isFree both.1]

theorem largestFreeRegions_eq {fuel : Nat} {regions : List HeapRegion}
    {chain : HeapRegion → List Block}
    (chains : ∀ region ∈ regions, RegionChain memory region (chain region))
    (fits : ∀ region ∈ regions, region.Fits)
    (enough : ∀ region ∈ regions, (chain region).length < fuel) (largest : Nat) :
    largestFreeRegions fuel memory regions largest =
      some (max largest (largestFree (regions.flatMap chain))) := by
  induction regions generalizing largest with
  | nil => simp [largestFreeRegions, largestFree]
  | cons region rest ih =>
      have whole : RegionChain memory region ([] ++ chain region) :=
        chains region (List.mem_cons_self ..)
      have walked := whole.largestFreeFrom_eq (fits region (List.mem_cons_self ..))
        (enough region (List.mem_cons_self ..)) largest
      have later := ih (fun other onRest => chains other (List.mem_cons_of_mem _ onRest))
        (fun other onRest => fits other (List.mem_cons_of_mem _ onRest))
        (fun other onRest => enough other (List.mem_cons_of_mem _ onRest))
      rw [largestFreeRegions, whole.listed, List.nil_append, walked, Option.bind_some, later,
        List.flatMap_cons, largestFree_append, max_assoc]

end Largest

open WrappedQuotient

/-- A wrapped and scaled part stays below the scale. -/
theorem scaled_div_lt {part whole scale word : Nat} (scalePos : 0 < scale) (less : part < whole) :
    part * scale % word / whole < scale := by
  rw [Nat.div_lt_iff_lt_mul (by omega)]
  calc
    part * scale % word ≤ part * scale := Nat.mod_le _ _
    part * scale < whole * scale := Nat.mul_lt_mul_of_pos_right less scalePos
    whole * scale = scale * whole := Nat.mul_comm _ _

theorem le_scaled_div {part whole : Nat} (scale : Nat) (positive : 0 < whole)
    (le : whole ≤ part) : scale ≤ scale * part / whole := by
  rw [Nat.le_div_iff_mul_le positive]
  exact Nat.mul_le_mul_left scale le

/-- The load in terms of the sum of the running times. -/
theorem load_iff {total busy : Nat} (positive : 0 < total) (inRange : total < uint32Size) :
    (if total ≤ busy % uint32Size then 1000
        else busy % uint32Size * 1000 % uint32Size / total) = min 1000 (1000 * busy / total) ↔
      total ≤ busy % uint32Size ∨ (busy < total ∧ 1000 * busy < uint32Size) := by
  have wrappedLe : busy % uint32Size ≤ busy := Nat.mod_le _ _
  by_cases full : total ≤ busy % uint32Size
  · rw [if_pos full, min_eq_left (le_scaled_div 1000 positive (full.trans wrappedLe))]
    exact ⟨fun _ => .inl full, fun _ => rfl⟩
  · rw [if_neg full]
    by_cases less : busy < total
    · have same : busy % uint32Size = busy := Nat.mod_eq_of_lt (less.trans inRange)
      have small : 1000 * busy / total ≤ 1000 := by
        apply Nat.div_le_of_le_mul
        rw [Nat.mul_comm total]
        exact Nat.mul_le_mul_left 1000 (Nat.le_of_lt less)
      rw [same] at full ⊢
      rw [min_eq_right small, Nat.mul_comm busy, div_eq_iff positive (Nat.le_of_lt inRange)]
      exact ⟨fun fits => .inr ⟨less, fits⟩, fun either => (either.resolve_left full).2⟩
    · have below : busy % uint32Size * 1000 % uint32Size / total < 1000 :=
        scaled_div_lt (by decide) (Nat.lt_of_not_le full)
      rw [min_eq_left (le_scaled_div 1000 positive (Nat.le_of_not_lt less))]
      constructor
      · exact fun same => absurd same (Nat.ne_of_lt below)
      · exact fun either => absurd (either.resolve_left full).1 less

/-- The usage in terms of the accumulators. -/
theorem usage_iff {stats : CpuStats} (positive : 0 < stats.totalTicksAcc)
    (inRange : stats.totalTicksAcc < uint32Size) :
    ((cpuStatsGet stats).cpuUsagePercent : Int) =
        100 * (stats.totalTicksAcc - stats.idleTicksAcc) / stats.totalTicksAcc ↔
      stats.idleTicksAcc ≤ stats.totalTicksAcc ∧
        100 * (stats.totalTicksAcc - stats.idleTicksAcc) < uint32Size := by
  rw [cpuStatsGet]
  dsimp only
  by_cases idleLe : stats.idleTicksAcc ≤ stats.totalTicksAcc
  · rw [if_pos ⟨positive, idleLe⟩, ← Nat.cast_sub idleLe, Nat.mul_comm _ 100,
      ← div_eq_iff positive (Nat.le_of_lt inRange)]
    constructor
    · intro same
      exact ⟨idleLe, by exact_mod_cast same⟩
    · rintro ⟨_, same⟩
      rw [same]
      norm_cast
  · rw [if_neg fun both => idleLe both.2]
    refine iff_of_false (fun same => ?_) fun both => idleLe both.1
    have negative : 100 * ((stats.totalTicksAcc : Int) - stats.idleTicksAcc) /
        stats.totalTicksAcc < 0 := Int.ediv_neg_of_neg_of_pos (by omega) (by omega)
    omega

/-- The fragmentation in terms of the largest free block. -/
theorem fragmentation_iff {largest total : Nat} (positive : 0 < total)
    (inRange : total < uint32Size) :
    (((if total = 0 then 0 else if total ≤ largest then 0
        else 1000 - largest * 1000 % uint32Size / total : Nat)) : Int) =
        1000 - 1000 * (largest : Int) / total ↔
      (total ≤ largest ∧ 1000 * largest < 1001 * total) ∨
        (largest < total ∧ 1000 * largest < uint32Size) := by
  have castDiv : 1000 * (largest : Int) / total = (1000 * largest / total : Nat) := by
    rw [Int.natCast_div, Int.natCast_mul]
    rfl
  rw [if_neg (by omega : total ≠ 0), castDiv]
  by_cases whole : total ≤ largest
  · have exact' : 1000 ≤ 1000 * largest / total := le_scaled_div 1000 positive whole
    have bound : 1000 * largest / total < 1001 ↔ 1000 * largest < 1001 * total :=
      Nat.div_lt_iff_lt_mul positive
    rw [if_pos whole, ← bound]
    generalize 1000 * largest / total = quotient at exact'
    constructor
    · exact fun same => .inl ⟨whole, by omega⟩
    · rintro (⟨_, close⟩ | ⟨less, _⟩)
      · omega
      · omega
  · have less : largest < total := Nat.lt_of_not_le whole
    have below : largest * 1000 % uint32Size / total < 1000 := scaled_div_lt (by decide) less
    have quotients : largest * 1000 % uint32Size / total = 1000 * largest / total ↔
        1000 * largest < uint32Size := by
      rw [Nat.mul_comm largest]
      exact div_eq_iff positive (Nat.le_of_lt inRange)
    rw [if_neg whole, ← quotients]
    generalize largest * 1000 % uint32Size / total = wrapped at below
    generalize 1000 * largest / total = quotient
    constructor
    · exact fun same => .inr ⟨less, by omega⟩
    · rintro (⟨le, _⟩ | ⟨_, same⟩)
      · omega
      · omega

/-- The three figures with exact products, each where its divisor is positive. -/
structure ExactFigures (fuel : Nat) (kernel : Kernel) (ring : Nat → List TaskId) (cpu : CpuStats)
    (heap : Heap) (blocks : List Block) : Prop where
  load : 0 < kernel.tickCount → schedulerGetLoadPermil fuel kernel =
    some (min 1000 (1000 * runtimeBelow kernel ring taskPriorityMax / kernel.tickCount))
  usage : 0 < cpu.totalTicksAcc → ((cpuStatsGet cpu).cpuUsagePercent : Int) =
    100 * (cpu.totalTicksAcc - cpu.idleTicksAcc) / cpu.totalTicksAcc
  fragmentation : 0 < heap.stats.freeSize → ∃ permil,
    heapFragmentationPermil fuel heap = some permil ∧
      (permil : Int) = 1000 - 1000 * (largestFree blocks : Int) / heap.stats.freeSize

/-- The counters for which no product wraps around. -/
structure FiguresFit (kernel : Kernel) (ring : Nat → List TaskId) (cpu : CpuStats)
    (heap : Heap) (blocks : List Block) : Prop where
  load : 0 < kernel.tickCount →
    kernel.tickCount ≤ runtimeBelow kernel ring taskPriorityMax % uint32Size ∨
      (runtimeBelow kernel ring taskPriorityMax < kernel.tickCount ∧
        1000 * runtimeBelow kernel ring taskPriorityMax < uint32Size)
  usage : 0 < cpu.totalTicksAcc → cpu.idleTicksAcc ≤ cpu.totalTicksAcc ∧
    100 * (cpu.totalTicksAcc - cpu.idleTicksAcc) < uint32Size
  fragmentation : 0 < heap.stats.freeSize →
    (heap.stats.freeSize ≤ largestFree blocks ∧
        1000 * largestFree blocks < 1001 * heap.stats.freeSize) ∨
      (largestFree blocks < heap.stats.freeSize ∧ 1000 * largestFree blocks < uint32Size)

/-- A state as the kernel and the heap keep it: linked rings, chained regions and
counters of 32 bits, with fuel for every ring and every chain. -/
structure FigureState (fuel : Nat) (kernel : Kernel) (ring : Nat → List TaskId) (cpu : CpuStats)
    (heap : Heap) (chain : HeapRegion → List Block) : Prop where
  rings : Rings kernel ring
  chains : ∀ region ∈ heap.regions, RegionChain heap.memory region (chain region)
  fits : ∀ region ∈ heap.regions, region.Fits
  tickCount : kernel.tickCount < uint32Size
  totalTicks : cpu.totalTicksAcc < uint32Size
  freeSize : heap.stats.freeSize < uint32Size
  ringFuel : ∀ prio < taskPriorityMax, (ring prio).length ≤ fuel
  chainFuel : ∀ region ∈ heap.regions, (chain region).length < fuel

/-- The figures are exact in a state exactly when its counters are in range. -/
theorem loadFigures_iff {fuel : Nat} {kernel : Kernel} {ring : Nat → List TaskId} {cpu : CpuStats}
    {heap : Heap} {chain : HeapRegion → List Block}
    (state : FigureState fuel kernel ring cpu heap chain) :
    ExactFigures fuel kernel ring cpu heap (heap.regions.flatMap chain) ↔
      FiguresFit kernel ring cpu heap (heap.regions.flatMap chain) := by
  have load : 0 < kernel.tickCount → (schedulerGetLoadPermil fuel kernel =
      some (min 1000 (1000 * runtimeBelow kernel ring taskPriorityMax / kernel.tickCount)) ↔
        kernel.tickCount ≤ runtimeBelow kernel ring taskPriorityMax % uint32Size ∨
          (runtimeBelow kernel ring taskPriorityMax < kernel.tickCount ∧
            1000 * runtimeBelow kernel ring taskPriorityMax < uint32Size)) := by
    intro positive
    rw [schedulerGetLoadPermil, busyTicks_eq state.rings state.ringFuel, if_neg positive.ne',
      Option.map_some, Option.some_inj]
    exact load_iff positive state.tickCount
  have walked :
      heapCalcLargestFree fuel heap = some (largestFree (heap.regions.flatMap chain)) := by
    rw [heapCalcLargestFree, largestFreeRegions_eq state.chains state.fits state.chainFuel,
      Nat.zero_max]
  have fragmentation : 0 < heap.stats.freeSize → ((∃ permil,
      heapFragmentationPermil fuel heap = some permil ∧ (permil : Int) =
        1000 - 1000 * (largestFree (heap.regions.flatMap chain) : Int) / heap.stats.freeSize) ↔
      (heap.stats.freeSize ≤ largestFree (heap.regions.flatMap chain) ∧
          1000 * largestFree (heap.regions.flatMap chain) < 1001 * heap.stats.freeSize) ∨
        (largestFree (heap.regions.flatMap chain) < heap.stats.freeSize ∧
          1000 * largestFree (heap.regions.flatMap chain) < uint32Size)) := by
    intro positive
    rw [heapFragmentationPermil, walked, Option.map_some,
      ← fragmentation_iff positive state.freeSize]
    constructor
    · rintro ⟨permil, returned, exact'⟩
      rw [Option.some.inj returned]
      exact exact'
    · exact fun exact' => ⟨_, rfl, exact'⟩
  constructor
  · intro exact'
    exact ⟨fun positive => (load positive).mp (exact'.load positive),
      fun positive => (usage_iff positive state.totalTicks).mp (exact'.usage positive),
      fun positive => (fragmentation positive).mp (exact'.fragmentation positive)⟩
  · intro fit
    exact ⟨fun positive => (load positive).mpr (fit.load positive),
      fun positive => (usage_iff positive state.totalTicks).mpr (fit.usage positive),
      fun positive => (fragmentation positive).mpr (fit.fragmentation positive)⟩

/-- The statistics after some calls of the hooks, each in any state of the kernel;
`cpu_stats_reset` leaves what `cpu_stats_init` does. -/
inductive CpuStats.Reached : CpuStats → Prop
  | init : Reached cpuStatsInit
  | tick (kernel : Kernel) {stats : CpuStats} :
      Reached stats → Reached (cpuStatsTickHook kernel stats)
  | taskSwitch {stats : CpuStats} : Reached stats → Reached (cpuStatsTaskSwitchHook stats)

section Iterate

variable {kernel : Kernel} {current : TaskId}

theorem cpuStatsTickHook_busy (running : kernel.currentTask = some current)
    (busy : (kernel.tcb current).priority ≠ 0) (stats : CpuStats) :
    cpuStatsTickHook kernel stats =
      { stats with totalTicksAcc := (stats.totalTicksAcc + 1) % uint32Size } := by
  rw [cpuStatsTickHook, running]
  dsimp only
  rw [if_neg fun either => busy (either.elim id id)]

/-- The statistics after some ticks of a task that is not the idle task. -/
theorem iterate_cpuStatsTickHook (running : kernel.currentTask = some current)
    (busy : (kernel.tcb current).priority ≠ 0) (ticks : Nat) :
    (cpuStatsTickHook kernel)^[ticks] cpuStatsInit = ⟨ticks % uint32Size, 0, 0⟩ := by
  induction ticks with
  | zero => rfl
  | succ ticks ih =>
      rw [Function.iterate_succ_apply', ih, cpuStatsTickHook_busy running busy, Nat.mod_add_mod]

theorem CpuStats.reached_iterate (kernel : Kernel) (ticks : Nat) :
    CpuStats.Reached ((cpuStatsTickHook kernel)^[ticks] cpuStatsInit) := by
  induction ticks with
  | zero => exact .init
  | succ ticks ih =>
      rw [Function.iterate_succ_apply']
      exact .tick kernel ih

end Iterate

/-- A heap before `heap_init`. -/
def unusedHeap : Heap where
  memory := fun _ => 0
  heapType := heapType4
  regions := []
  stats := {}

theorem runtimeBelow_eq_zero {kernel : Kernel} {ring : Nat → List TaskId}
    (rings : Rings kernel ring) (unused : ∀ task ∈ kernel.live, (kernel.tcb task).runtimeTicks = 0)
    (count : Nat) : runtimeBelow kernel ring count = 0 := by
  apply List.sum_eq_zero
  intro total isTotal
  obtain ⟨prio, _, rfl⟩ := List.mem_map.mp isTotal
  apply List.sum_eq_zero
  intro runtime isRuntime
  obtain ⟨task, onRing, rfl⟩ := List.mem_map.mp isRuntime
  exact unused task (rings.live onRing)

/-- A started kernel with one task beside the idle task, a heap before `heap_init`, and
the statistics after some ticks of that task. -/
theorem exists_figureState_busy (ticks : Nat) :
    ∃ kernel ring fuel, Kernel.Reachable SuspendsCleanly (booted (fun _ => {}) 1) kernel ∧
      kernel.tickCount = 1 ∧ runtimeBelow kernel ring taskPriorityMax = 0 ∧
      FigureState fuel kernel ring
        ((cpuStatsTickHook kernel)^[ticks] cpuStatsInit) unusedHeap (fun _ => []) ∧
      (cpuStatsTickHook kernel)^[ticks] cpuStatsInit = ⟨ticks % uint32Size, 0, 0⟩ := by
  obtain ⟨kernel, run, running, busy, ticked, unused⟩ :=
    Kernel.exists_reachable suspendsCleanly_of_guard 4 [.create 2 5, .start]
      (booted (fun _ => {}) 1)
      (fun kernel => kernel.currentTask = some 2 ∧ (kernel.tcb 2).priority ≠ 0 ∧
        kernel.tickCount = 1 ∧ ∀ task ∈ kernel.live, (kernel.tcb task).runtimeTicks = 0)
      (by decide +kernel)
  obtain ⟨ring, scheduled⟩ := scheduled_of_reachable (fun _ _ allowed => allowed) run
  have counted := iterate_cpuStatsTickHook running busy ticks
  refine ⟨kernel, ring, (Finset.range taskPriorityMax).sup fun prio => (ring prio).length, run,
    ticked, runtimeBelow_eq_zero scheduled.rings unused _, ?_, counted⟩
  constructor
  · exact scheduled.rings
  · simp [unusedHeap]
  · simp [unusedHeap]
  · rw [ticked]
    decide
  · rw [counted]
    exact Nat.mod_lt _ (by decide)
  · decide
  · intro prio small
    exact Finset.le_sup (f := fun prio => (ring prio).length) (Finset.mem_range.mpr small)
  · simp [unusedHeap]

/-- Three ticks of the task are reported exactly. -/
theorem loadFigures_threeTicks :
    ∃ fuel kernel ring, ExactFigures fuel kernel ring ⟨3, 0, 0⟩ unusedHeap [] := by
  obtain ⟨kernel, ring, fuel, _, ticked, idle, state, counted⟩ := exists_figureState_busy 3
  rw [counted] at state
  refine ⟨fuel, kernel, ring, (loadFigures_iff state).mpr ⟨?_, ?_, ?_⟩⟩
  · intro _
    rw [idle, ticked]
    decide
  · intro _
    decide
  · intro positive
    exact absurd positive (by decide)

/-- After 42949673 ticks of the task the scaled counter wraps around to 4, and the
processor that is never idle is reported as idle. -/
theorem loadFigures_wrapped :
    ¬∀ fuel kernel ring cpu heap chain,
      Kernel.Reachable SuspendsCleanly (booted (fun _ => {}) 1) kernel → CpuStats.Reached cpu →
      FigureState fuel kernel ring cpu heap chain →
      ExactFigures fuel kernel ring cpu heap (heap.regions.flatMap chain) := by
  intro holds
  obtain ⟨kernel, ring, fuel, run, _, _, state, counted⟩ := exists_figureState_busy 42949673
  have promised := (holds fuel kernel ring _ unusedHeap (fun _ => []) run
    (CpuStats.reached_iterate kernel 42949673) state).usage
  rw [counted] at promised
  have reported := promised (by decide)
  revert reported
  decide

end Rtos

end MiniIotRobotEdge

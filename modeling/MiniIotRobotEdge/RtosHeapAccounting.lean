import Mathlib.Algebra.Order.BigOperators.Group.List
import MiniIotRobotEdge.RtosHeapMoves

/-!
# Heap accounting

`malloc_rtos` subtracts the rounded request from the free size, and
`free_rtos` adds the size of the block.  The two agree as long as no block is
taken whose remainder is too small to be split off.
-/

namespace MiniIotRobotEdge

namespace Rtos

/-- The bytes of the free blocks of a region. -/
def freeBytes (blocks : List Block) : Nat :=
  (blocks.map fun block => if block.free then block.size else 0).sum

/-- The bytes of a region. -/
def regionBytes (region : HeapRegion) : Nat := region.stop - region.start

section Blocks

variable {before after : List Block} {block : Block}

@[simp] theorem freeBytes_nil : freeBytes [] = 0 := rfl

@[simp] theorem freeBytes_cons :
    freeBytes (block :: after) = (if block.free then block.size else 0) + freeBytes after := by
  simp [freeBytes]

@[simp] theorem freeBytes_append :
    freeBytes (before ++ after) = freeBytes before + freeBytes after := by
  simp [freeBytes]

theorem freeBytes_le {first last : Nat} {blocks : List Block} (tiles : Tiles first blocks last) :
    first + freeBytes blocks ≤ last := by
  induction blocks generalizing first with
  | nil => exact Nat.le_of_eq tiles
  | cons head rest ih =>
      obtain ⟨rfl, restTiles⟩ := tiles
      have restBytes := ih restTiles
      rw [Block.stop] at restBytes
      rw [freeBytes_cons]
      split <;> omega

theorem freeBytes_eq {first last : Nat} {blocks : List Block} (tiles : Tiles first blocks last)
    (allFree : ∀ block ∈ blocks, block.free = true) : first + freeBytes blocks = last := by
  induction blocks generalizing first with
  | nil => exact tiles
  | cons head rest ih =>
      obtain ⟨rfl, restTiles⟩ := tiles
      have restBytes := ih restTiles fun block onRest => allFree block (by simp [onRest])
      rw [Block.stop] at restBytes
      rw [freeBytes_cons, if_pos (allFree head (by simp))]
      omega

/-- Taking a block of the right size, or one with a remainder to split off. -/
theorem freeBytes_taken (isFree : block.free = true) {size : Nat}
    (exact : block.size = allocSize size ∨ allocSize size + heapMinBlockSize ≤ block.size)
    (before after : List Block) :
    freeBytes (before ++ (block.takenFor size ++ after)) + allocSize size =
      freeBytes (before ++ block :: after) := by
  have large := (allocSize_large size).2
  simp only [freeBytes_append, freeBytes_cons, isFree, if_true]
  unfold Block.takenFor Block.allocate
  split
  case isTrue room =>
    simp only [freeBytes_cons, freeBytes_nil, Block.mark, Block.back, Bool.false_eq_true, if_false,
      if_true]
    omega
  case isFalse small =>
    simp only [freeBytes_cons, freeBytes_nil, Block.mark, Bool.false_eq_true, if_false]
    omega

theorem freeBytes_coalescedNext (isFree : block.free = true) (after : List Block) :
    (coalescedNext block after).1.free = true ∧
      (coalescedNext block after).1.size + freeBytes (coalescedNext block after).2 =
        block.size + freeBytes after := by
  cases after with
  | nil => exact ⟨isFree, rfl⟩
  | cons next rest =>
      rw [coalescedNext]
      split
      case isTrue nextFree =>
        refine ⟨isFree, ?_⟩
        rw [freeBytes_cons, if_pos nextFree]
        exact Nat.add_assoc _ _ _
      case isFalse => exact ⟨isFree, rfl⟩

theorem freeBytes_coalescedPrev (isFree : block.free = true) :
    freeBytes (coalescedPrev before block after) =
      freeBytes before + (block.size + freeBytes after) := by
  rcases List.eq_nil_or_concat before with rfl | ⟨front, prev, rfl⟩
  · simp [coalescedPrev, isFree]
  · rw [List.concat_eq_append]
    unfold coalescedPrev
    rw [List.getLast?_concat]
    dsimp only
    split
    case isTrue prevFree =>
      rw [List.dropLast_concat]
      simp only [freeBytes_append, freeBytes_cons, freeBytes_nil, Block.merge, prevFree, if_true]
      omega
    case isFalse =>
      simp only [freeBytes_append, freeBytes_cons, isFree, if_true]

theorem freeBytes_released (inUse : block.free = false) (heapType : Nat)
    (before after : List Block) :
    freeBytes (released heapType before block after) =
      freeBytes (before ++ block :: after) + block.size := by
  have markFree : (block.mark true).free = true := rfl
  have markSize : (block.mark true).size = block.size := rfl
  unfold released
  split
  · obtain ⟨mergedFree, sameBytes⟩ := freeBytes_coalescedNext markFree after
    rw [freeBytes_coalescedPrev mergedFree, sameBytes, markSize]
    simp only [freeBytes_append, freeBytes_cons, inUse, Bool.false_eq_true, if_false]
    omega
  · simp only [freeBytes_append, freeBytes_cons, markFree, markSize, inUse, Bool.false_eq_true,
      if_false, if_true]
    omega

end Blocks

/-- The bytes of the free blocks of all regions. -/
def allFreeBytes (regions : List HeapRegion) (chain : HeapRegion → List Block) : Nat :=
  (regions.map fun region => freeBytes (chain region)).sum

/-- The bytes of all regions. -/
def allBytes (regions : List HeapRegion) : Nat := (regions.map regionBytes).sum

section Sums

variable {regions : List HeapRegion} {chain : HeapRegion → List Block} {region : HeapRegion}
  {blocks : List Block}

theorem allFreeBytes_congr {other : HeapRegion → List Block}
    (same : ∀ region ∈ regions, chain region = other region) :
    allFreeBytes regions chain = allFreeBytes regions other := by
  unfold allFreeBytes
  rw [List.map_congr_left fun region regionMem => by rw [same region regionMem]]

theorem allFreeBytes_update_of_notMem (notMem : region ∉ regions) :
    allFreeBytes regions (Function.update chain region blocks) = allFreeBytes regions chain := by
  refine allFreeBytes_congr fun other otherMem => Function.update_of_ne ?_ _ _
  rintro rfl
  exact notMem otherMem

/-- Regions that do not overlap; empty entries overlap nothing. -/
def Separate (regions : List HeapRegion) : Prop :=
  regions.Pairwise fun first second => first.stop ≤ second.start ∨ second.stop ≤ first.start

/-- A region with a block is listed once. -/
theorem Separate.split (separate : Separate regions) (regionMem : region ∈ regions)
    (notEmpty : region.start < region.stop) :
    ∃ front back, regions = front ++ region :: back ∧ region ∉ front ∧ region ∉ back := by
  obtain ⟨front, back, rfl⟩ := List.append_of_mem regionMem
  obtain ⟨_, fromRegion, toRegion⟩ := List.pairwise_append.mp separate
  refine ⟨front, back, rfl, fun onFront => ?_, fun onBack => ?_⟩
  · have apart := toRegion region onFront region (by simp)
    omega
  · have apart := List.rel_of_pairwise_cons fromRegion onBack
    omega

/-- Editing one region changes the sum by what happens to that region. -/
theorem allFreeBytes_update (separate : Separate regions) (regionMem : region ∈ regions)
    (notEmpty : region.start < region.stop) (chain : HeapRegion → List Block)
    (blocks : List Block) :
    allFreeBytes regions (Function.update chain region blocks) + freeBytes (chain region) =
      allFreeBytes regions chain + freeBytes blocks := by
  obtain ⟨front, back, rfl, notFront, notBack⟩ := separate.split regionMem notEmpty
  have frontSame : allFreeBytes front (Function.update chain region blocks) =
      allFreeBytes front chain := allFreeBytes_update_of_notMem notFront
  have backSame : allFreeBytes back (Function.update chain region blocks) =
      allFreeBytes back chain := allFreeBytes_update_of_notMem notBack
  unfold allFreeBytes at *
  simp only [List.map_append, List.map_cons, List.sum_append, List.sum_cons, frontSame, backSame,
    Function.update_self]
  omega

theorem allFreeBytes_le {memory : Memory}
    (chains : ∀ region ∈ regions, RegionChain memory region (chain region)) :
    allFreeBytes regions chain ≤ allBytes regions := by
  apply List.sum_le_sum
  intro region regionMem
  have bound := freeBytes_le (chains region regionMem).tiles
  unfold regionBytes
  omega

theorem allFreeBytes_eq {memory : Memory}
    (chains : ∀ region ∈ regions, RegionChain memory region (chain region))
    (allFree : ∀ region ∈ regions, ∀ block ∈ chain region, block.free = true) :
    allFreeBytes regions chain = allBytes regions := by
  unfold allFreeBytes allBytes
  refine congrArg List.sum (List.map_congr_left fun region regionMem => ?_)
  have whole := freeBytes_eq (chains region regionMem).tiles (allFree region regionMem)
  unfold regionBytes
  omega

end Sums

/-- The free size is that of the free blocks, the allocated size is the rest,
and nothing is allocated when no pointer is owned. -/
structure HeapAccounted (system : HeapSystem) : Prop where
  free : ∃ chain : HeapRegion → List Block,
    (∀ region ∈ system.heap.regions, RegionChain system.heap.memory region (chain region)) ∧
      system.heap.stats.freeSize = allFreeBytes system.heap.regions chain
  allocated : system.heap.stats.freeSize ≤ system.heap.stats.totalSize ∧
    system.heap.stats.allocatedSize =
      system.heap.stats.totalSize - system.heap.stats.freeSize
  restored : system.live = [] → system.heap.stats.freeSize = system.heap.stats.totalSize

/-- The accounts of a heap with its chains. -/
structure Accounts (system : HeapSystem) (chain : HeapRegion → List Block) : Prop where
  separate : Separate system.heap.regions
  total : system.heap.stats.totalSize = allBytes system.heap.regions
  totalLt : system.heap.stats.totalSize < uint32Size
  free : system.heap.stats.freeSize = allFreeBytes system.heap.regions chain
  allocated : system.heap.stats.allocatedSize =
    system.heap.stats.totalSize - system.heap.stats.freeSize

section Accounting

variable {system : HeapSystem} {chain : HeapRegion → List Block} {region : HeapRegion}
  {before after : List Block} {block : Block} {heap : Heap} {ptr size : Nat}

theorem Accounts.heapAccounted (accounts : Accounts system chain)
    (invariant : HeapInvariant system chain) : HeapAccounted system where
  free := ⟨chain, invariant.chains, accounts.free⟩
  allocated := by
    have bound := allFreeBytes_le invariant.chains
    have total := accounts.total
    have free := accounts.free
    exact ⟨by omega, accounts.allocated⟩
  restored := fun noneLive => by
    rw [accounts.free, accounts.total]
    apply allFreeBytes_eq invariant.chains
    intro region regionMem block blockMem
    by_contra inUse
    have isLive := (invariant.owned (block.start + blockHeaderSize)).mpr
      ⟨region, regionMem, block, blockMem, by simpa using inUse, rfl⟩
    rw [noneLive] at isLive
    simp at isLive

theorem HeapInvariant.region_notEmpty (invariant : HeapInvariant system chain)
    (regionMem : region ∈ system.heap.regions) (blockMem : block ∈ chain region) :
    region.start < region.stop := by
  obtain ⟨lower, upper⟩ := (invariant.chains region regionMem).tiles.bounds.2 block blockMem
  have room := block.header_le_stop
  unfold blockHeaderSize at room
  omega

/-- The accounts after the free bytes of one region have changed. -/
theorem Accounts.edit (accounts : Accounts system chain) {after : HeapSystem}
    {blocks : List Block} (invariant : HeapInvariant after (Function.update chain region blocks))
    (sameRegions : after.heap.regions = system.heap.regions)
    (sameTotal : after.heap.stats.totalSize = system.heap.stats.totalSize)
    (free : after.heap.stats.freeSize =
      allFreeBytes system.heap.regions (Function.update chain region blocks))
    (allocated : after.heap.stats.allocatedSize =
      (after.heap.stats.totalSize + uint32Size - after.heap.stats.freeSize) % uint32Size) :
    Accounts after (Function.update chain region blocks) := by
  have bound := allFreeBytes_le invariant.chains
  have total := accounts.total
  have totalLt := accounts.totalLt
  rw [sameRegions] at bound
  refine ⟨sameRegions ▸ accounts.separate, ?_, ?_, ?_, ?_⟩
  · rw [sameTotal, sameRegions]
    exact total
  · rw [sameTotal]
    exact totalLt
  · rw [sameRegions]
    exact free
  · rw [allocated]
    unfold uint32Size at *
    omega

theorem Accounts.taken (accounts : Accounts system chain) {fuel : Nat}
    (taken : Taken system chain fuel size ptr heap region before after block)
    (invariant : HeapInvariant system chain)
    (exact : block.size = allocSize size ∨ allocSize size + heapMinBlockSize ≤ block.size) :
    Accounts { heap := heap, live := ptr :: system.live }
      (Function.update chain region (before ++ (block.takenFor size ++ after))) := by
  have kept := taken.keeps invariant
  have notEmpty := invariant.region_notEmpty taken.regionMem taken.blockMem
  have changed := allFreeBytes_update accounts.separate taken.regionMem notEmpty chain
    (before ++ (block.takenFor size ++ after))
  have bytes := freeBytes_taken taken.isFree exact before after
  rw [← taken.isSplit] at bytes
  have bound := allFreeBytes_le invariant.chains
  have free := accounts.free
  have total := accounts.total
  have totalLt := accounts.totalLt
  apply accounts.edit kept taken.regions
  · rw [taken.stats, take_totalSize]
  · rw [taken.stats, take_freeSize]
    unfold uint32Size at *
    omega
  · rw [taken.stats, take_allocatedSize, take_totalSize]

theorem Accounts.released (accounts : Accounts system chain)
    (released : Released system chain ptr heap region before after block)
    (invariant : HeapInvariant system chain) :
    Accounts { heap := heap, live := system.live.erase ptr }
      (Function.update chain region
        (Rtos.released system.heap.heapType before block after)) := by
  have kept := released.keeps invariant
  have notEmpty := invariant.region_notEmpty released.regionMem released.blockMem
  have changed := allFreeBytes_update accounts.separate released.regionMem notEmpty chain
    (Rtos.released system.heap.heapType before block after)
  have bytes := freeBytes_released released.inUse system.heap.heapType before after
  rw [← released.isSplit] at bytes
  have bound := allFreeBytes_le kept.chains
  have sameRegions := released.regions
  have free := accounts.free
  have total := accounts.total
  have totalLt := accounts.totalLt
  dsimp only at bound
  rw [sameRegions] at bound
  apply accounts.edit kept released.regions
  · rw [released.stats, give_totalSize]
  · rw [released.stats, give_freeSize]
    unfold uint32Size at *
    omega
  · rw [released.stats, give_allocatedSize, give_totalSize]

theorem accounts_kept : MoveKept Accounts where
  write := fun accounts => ⟨accounts.separate, accounts.total, accounts.totalLt, accounts.free,
    accounts.allocated⟩
  free := fun released invariant accounts => accounts.released released invariant

theorem Accounts.added (accounts : Accounts system chain) {start : Nat} {blocks : List Block}
    (added : Added system chain start size heap region blocks)
    (invariant : HeapInvariant system chain)
    (room : heapMinBlockSize * 2 ≤ alignedRoom start size →
      system.heap.stats.totalSize + alignedRoom start size < uint32Size) :
    Accounts { system with heap := heap } (Function.update chain region blocks) := by
  have separate : Separate heap.regions := by
    rw [added.regions]
    refine List.pairwise_append.mpr ⟨accounts.separate, List.pairwise_singleton _ _, ?_⟩
    intro other otherMem last isLast
    rw [List.mem_singleton.mp isLast]
    exact (added.apart other otherMem).symm
  have oldBytes : allFreeBytes system.heap.regions (Function.update chain region blocks) =
      allFreeBytes system.heap.regions chain := by
    apply allFreeBytes_congr
    intro other otherMem
    by_cases same : other = region
    · rw [same, Function.update_self, added.unused (same ▸ otherMem)]
    · exact Function.update_of_ne same _ _
  have free : allFreeBytes heap.regions (Function.update chain region blocks) =
      allFreeBytes system.heap.regions chain + freeBytes blocks := by
    rw [← oldBytes, added.regions]
    simp [allFreeBytes]
  have total : allBytes heap.regions = allBytes system.heap.regions + regionBytes region := by
    rw [added.regions]
    simp [allBytes]
  have bound := allFreeBytes_le invariant.chains
  have wasTotal := accounts.total
  have wasTotalLt := accounts.totalLt
  have wasFree := accounts.free
  rcases added.whole with ⟨rfl, rfl, sameStats⟩ |
    ⟨block, rfl, isFree, isStart, isStop, enough, isRoom, stats⟩
  · refine ⟨separate, ?_, ?_, ?_, ?_⟩
    · rw [sameStats, total]
      exact wasTotal
    · rw [sameStats]
      exact wasTotalLt
    · rw [sameStats, free]
      exact wasFree
    · rw [sameStats]
      exact accounts.allocated
  · have fits := room (isRoom ▸ enough)
    have bytes : regionBytes region = block.size := by
      rw [regionBytes, isStart, isStop, Block.stop, Nat.add_sub_cancel_left]
    have blockBytes : freeBytes [block] = block.size := by simp [isFree]
    rw [← isRoom] at fits
    obtain ⟨addTotal, addFree⟩ := add_sizes system.heap.stats block.size
    rw [Nat.mod_eq_of_lt fits] at addTotal
    rw [Nat.mod_eq_of_lt (by omega)] at addFree
    refine ⟨separate, ?_, ?_, ?_, ?_⟩
    · rw [stats, addTotal, total, bytes, wasTotal]
    · rw [stats, addTotal]
      exact fits
    · rw [stats, addFree, free, blockBytes, wasFree]
    · rw [stats, addTotal, addFree, add_allocatedSize, accounts.allocated]
      omega

end Accounting

/-- A contained call that takes no block with a remainder too small to be
split off, and that adds no region beyond the range of the statistics. -/
def ExactCall (system : HeapSystem) (op : HeapOp) : Prop :=
  ContainedCall system op ∧
  (∀ request ∈ allocRequest system op, ∀ block, Finds system request block →
    (header system.heap.memory block).size = allocSize request ∨
      allocSize request + heapMinBlockSize ≤ (header system.heap.memory block).size) ∧
  ∀ start size, op = .addRegion start size →
    heapMinBlockSize * 2 ≤ alignedRoom start size →
    system.heap.stats.totalSize + alignedRoom start size < uint32Size

theorem Accounts.step {before after : HeapSystem} {chain : HeapRegion → List Block} {fuel : Nat}
    {op : HeapOp} (accounts : Accounts before chain) (invariant : HeapInvariant before chain)
    (call : ExactCall before op) (executed : before.exec fuel op = some after) :
    ∃ chain', HeapInvariant after chain' ∧ Accounts after chain' := by
  obtain ⟨contained, exact, room⟩ := call
  apply accounts_kept.exec invariant accounts contained executed
  · intro request requested ptr heap region front rest block taken
    have found : Finds before request block.start :=
      ⟨Nat.ne_of_gt (taken.start_pos invariant), fuel, taken.searched⟩
    have headerSize :=
      ((invariant.chains region taken.regionMem).marked block taken.blockMem).size
    have isExact := exact request requested block.start found
    rw [headerSize] at isExact
    exact accounts.taken taken invariant isExact
  · intro start size heap region blocks isAdd added
    exact accounts.added added invariant (room start size isAdd)

/-- In every run whose calls leave no small remainder, the statistics are
exact. -/
theorem heap_accounted (heap : Heap) {start size type : Nat} (positive : 0 < start)
    (sizeLt : size < uint32Size) (addressLt : start + size < uintptrSize)
    (aligned : AlignedInside start size) (typed : heapType2 ≤ type ∧ type ≤ heapType5)
    {system : HeapSystem}
    (run : HeapSystem.Reachable ExactCall (.init heap start size type) system) :
    HeapAccounted system := by
  have blank : Accounts (.blank heap type) fun _ => [] :=
    ⟨List.Pairwise.nil, rfl, Nat.two_pow_pos 32, rfl, rfl⟩
  have firstRoom : heapMinBlockSize * 2 ≤ alignedRoom start size →
      0 + alignedRoom start size < uint32Size := by
    intro _
    unfold alignedRoom heapAlignment
    omega
  obtain ⟨chain, invariant, accounts⟩ := run.invariant positive sizeLt addressLt aligned typed
    (fun added => blank.added added (.blank heap typed) firstRoom)
    fun invariant accounts call executed => accounts.step invariant call executed
  exact accounts.heapAccounted invariant

/-- A decidable test of `ExactCall` for small calls. -/
def exactSmall (system : HeapSystem) : HeapOp → Bool
  | .malloc size =>
      smallCall system (.malloc size) ∧ ∃ block ∈ allocFromRegions 8 system.heap.memory
        system.heap.heapType (allocSize size) system.heap.regions,
        (header system.heap.memory block).size = allocSize size ∨
          allocSize size + heapMinBlockSize ≤ (header system.heap.memory block).size
  | op => smallCall system op

theorem exactSmall_exactCall {system : HeapSystem} {op : HeapOp}
    (started : ∃ chain, HeapInvariant system chain) (small : exactSmall system op = true) :
    ExactCall system op := by
  obtain ⟨chain, invariant⟩ := started
  cases op with
  | malloc size =>
      obtain ⟨isSmall, block, isBlock, exact⟩ := of_decide_eq_true small
      refine ⟨(smallCall_allowed isSmall).contained, ?_, nofun⟩
      intro request requested other ⟨_, fuel, found⟩
      obtain rfl : size = request := Option.some.inj requested
      obtain rfl : block = other := allocFromRegions_unique invariant.chains invariant.fits
        invariant.typed.1 invariant.typed.2 isBlock found
      exact exact
  | free ptr =>
      have isSmall : smallCall system (.free ptr) = true := small
      exact ⟨(smallCall_allowed isSmall).contained, by simp [allocRequest], nofun⟩
  | _ => simp [exactSmall, smallCall] at small

theorem heap_accounted_released :
    ∃ system, HeapSystem.Reachable ExactCall (.init staticHeap 4096 256 heapType4) system ∧
      system.heap.stats.freeSize = 184 ∧ HeapAccounted system := by
  have started := heapInvariant_init staticHeap (by decide) (by decide) (by decide)
    (by decide : AlignedInside 4096 256) (by decide : heapType2 ≤ heapType4 ∧ _)
  obtain ⟨system, run, freeSize⟩ := exists_reachable exactSmall_exactCall
    (fun started call executed => started.elim fun _ invariant => invariant.step call.1 executed)
    started 8 [.malloc 16, .malloc 40, .free 4128]
    (fun system => system.heap.stats.freeSize = 184) (by decide +kernel)
  exact ⟨system, run, freeSize, heap_accounted staticHeap (by decide) (by decide) (by decide)
    (by decide) (by decide) run⟩

/-- A block of 48 bytes that serves a request of 40 is counted as 40 when it is
taken and as 48 when it is released. -/
theorem heap_accounted_remainder :
    ¬∀ system, HeapSystem.Reachable AddsAligned (.init staticHeap 4096 256 heapType4) system →
      HeapAccounted system := by
  intro holds
  obtain ⟨system, run, freeSize, totalSize⟩ := exists_reachable_small
    (.init staticHeap 4096 256 heapType4) 8
    [.malloc 16, .malloc 16, .free 4128, .malloc 1, .free 4128, .free 4176]
    (fun system => system.heap.stats.freeSize = 264 ∧ system.heap.stats.totalSize = 256)
    (by decide +kernel)
  have bound := (holds system run).allocated.1
  rw [freeSize, totalSize] at bound
  simp at bound

end Rtos

end MiniIotRobotEdge

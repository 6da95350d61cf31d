import Mathlib.Data.List.Chain
import MiniIotRobotEdge.RtosHeapMoves

/-!
# Coalescing

From type three on the heap merges a released block with its free neighbours.
No two adjacent blocks are then free, so that a heap whose allocations have all
been released consists of one free block for every region.
-/

namespace MiniIotRobotEdge

namespace Rtos

/-- Two blocks that need no merging. -/
def NotBothFree (left right : Block) : Prop := left.free = false ∨ right.free = false

def Coalesced (blocks : List Block) : Prop := blocks.IsChain NotBothFree

section Blocks

variable {before after : List Block} {block : Block}

/-- A coalesced list around one of its blocks. -/
theorem coalesced_middle_iff : Coalesced (before ++ block :: after) ↔
    Coalesced before ∧ (∀ last ∈ before.getLast?, NotBothFree last block) ∧
      (∀ head ∈ after.head?, NotBothFree block head) ∧ Coalesced after := by
  unfold Coalesced
  rw [List.isChain_append, List.isChain_cons]
  constructor
  · rintro ⟨beforeChain, ⟨toHead, afterChain⟩, fromLast⟩
    exact ⟨beforeChain, fun last isLast => fromLast last isLast block rfl, toHead, afterChain⟩
  · rintro ⟨beforeChain, fromLast, toHead, afterChain⟩
    refine ⟨beforeChain, ⟨toHead, afterChain⟩, fun last isLast head isHead => ?_⟩
    obtain rfl := Option.some.inj isHead
    exact fromLast last isLast

/-- The neighbours of a free block are in use. -/
theorem Coalesced.neighbours (coalesced : Coalesced (before ++ block :: after))
    (isFree : block.free = true) :
    (∀ last ∈ before.getLast?, last.free = false) ∧ ∀ head ∈ after.head?, head.free = false := by
  obtain ⟨_, fromLast, toHead, _⟩ := coalesced_middle_iff.mp coalesced
  constructor
  · intro last isLast
    exact (fromLast last isLast).resolve_right (by simp [isFree])
  · intro head isHead
    exact (toHead head isHead).resolve_left (by simp [isFree])

/-- Taking a free block, with or without a remainder. -/
theorem Coalesced.taken (coalesced : Coalesced (before ++ block :: after))
    (isFree : block.free = true) (size : Nat) :
    Coalesced (before ++ (block.takenFor size ++ after)) := by
  obtain ⟨beforeChain, _, _, afterChain⟩ := coalesced_middle_iff.mp coalesced
  have headUsed := (coalesced.neighbours isFree).2
  unfold Block.takenFor Block.allocate
  split
  · refine coalesced_middle_iff.mpr ⟨beforeChain, fun _ _ => .inr rfl, fun _ _ => .inl rfl, ?_⟩
    exact List.isChain_cons.mpr ⟨fun head isHead => .inr (headUsed head isHead), afterChain⟩
  · exact coalesced_middle_iff.mpr ⟨beforeChain, fun _ _ => .inr rfl, fun _ _ => .inl rfl,
      afterChain⟩

/-- Merging a free block with the block behind it. -/
theorem Coalesced.next (coalesced : Coalesced after) (isFree : block.free = true) :
    (coalescedNext block after).1.free = true ∧ Coalesced (coalescedNext block after).2 ∧
      ∀ head ∈ (coalescedNext block after).2.head?, head.free = false := by
  cases after with
  | nil => exact ⟨isFree, coalesced, by simp [coalescedNext]⟩
  | cons next rest =>
      have whole : Coalesced ([] ++ next :: rest) := coalesced
      rw [coalescedNext]
      split
      case isTrue nextFree =>
        exact ⟨isFree, (coalesced_middle_iff.mp whole).2.2.2, (whole.neighbours nextFree).2⟩
      case isFalse nextUsed =>
        refine ⟨isFree, coalesced, fun head isHead => ?_⟩
        obtain rfl := Option.some.inj isHead
        exact Bool.eq_false_of_not_eq_true nextUsed

/-- Merging a free block with the block in front of it. -/
theorem Coalesced.prev (coalesced : Coalesced before) (afterChain : Coalesced after)
    (headUsed : ∀ head ∈ after.head?, head.free = false) :
    Coalesced (coalescedPrev before block after) := by
  have toHead : ∀ {other : Block}, ∀ head ∈ after.head?, NotBothFree other head :=
    fun head isHead => .inr (headUsed head isHead)
  rcases List.eq_nil_or_concat before with rfl | ⟨front, prev, rfl⟩
  · exact coalesced_middle_iff.mpr ⟨coalesced, by simp, toHead, afterChain⟩
  · rw [List.concat_eq_append] at coalesced ⊢
    obtain ⟨frontChain, fromLast, _, _⟩ := coalesced_middle_iff.mp coalesced
    unfold coalescedPrev
    rw [List.getLast?_concat]
    dsimp only
    split
    case isTrue prevFree =>
      rw [List.dropLast_concat]
      refine coalesced_middle_iff.mpr ⟨frontChain, fun last isLast => ?_, toHead, afterChain⟩
      exact .inl ((coalesced.neighbours prevFree).1 last isLast)
    case isFalse prevUsed =>
      refine coalesced_middle_iff.mpr ⟨coalesced, fun last isLast => ?_, toHead, afterChain⟩
      rw [List.getLast?_concat] at isLast
      obtain rfl := Option.some.inj isLast
      exact .inl (Bool.eq_false_of_not_eq_true prevUsed)

/-- Releasing a block from type three on. -/
theorem Coalesced.released (coalesced : Coalesced (before ++ block :: after)) {heapType : Nat}
    (merges : heapType3 ≤ heapType) : Coalesced (released heapType before block after) := by
  obtain ⟨beforeChain, _, _, afterChain⟩ := coalesced_middle_iff.mp coalesced
  obtain ⟨_, restChain, headUsed⟩ := afterChain.next (rfl : (block.mark true).free = true)
  rw [Rtos.released, if_pos merges]
  exact beforeChain.prev restChain headUsed

end Blocks

/-- The heap merges, and no chain has adjacent free blocks. -/
def MergedChains (system : HeapSystem) (chain : HeapRegion → List Block) : Prop :=
  heapType3 ≤ system.heap.heapType ∧ ∀ region ∈ system.heap.regions, Coalesced (chain region)

section Merged

variable {system : HeapSystem} {chain : HeapRegion → List Block} {region : HeapRegion}

theorem MergedChains.update (merged : MergedChains system chain) {after : HeapSystem}
    {blocks : List Block} (sameType : after.heap.heapType = system.heap.heapType)
    (regions : ∀ other ∈ after.heap.regions, other ≠ region → other ∈ system.heap.regions)
    (coalesced : Coalesced blocks) : MergedChains after (Function.update chain region blocks) := by
  refine ⟨sameType ▸ merged.1, fun other otherMem => ?_⟩
  by_cases same : other = region
  · rw [same, Function.update_self]
    exact coalesced
  · rw [Function.update_of_ne same]
    exact merged.2 other (regions other otherMem same)

theorem mergedChains_kept : MoveKept MergedChains where
  write := fun merged => merged
  free := fun {system chain ptr heap region before after block} released _ merged => by
    have coalesced := merged.2 region released.regionMem
    rw [released.isSplit] at coalesced
    refine merged.update released.heapType (fun other otherMem _ => ?_)
      (coalesced.released merged.1)
    rwa [← released.regions]

theorem MergedChains.added (merged : MergedChains system chain) {start size : Nat} {heap : Heap}
    {blocks : List Block} (added : Added system chain start size heap region blocks) :
    MergedChains { system with heap := heap } (Function.update chain region blocks) := by
  refine merged.update added.heapType (fun other otherMem different => ?_) ?_
  · have isOld : other ∈ system.heap.regions ++ [region] := added.regions ▸ otherMem
    simpa [different] using isOld
  · rcases added.whole with ⟨_, rfl, _⟩ | ⟨block, rfl, _⟩
    · exact List.isChain_nil
    · exact List.isChain_singleton block

theorem MergedChains.taken (merged : MergedChains system chain) {fuel size ptr : Nat} {heap : Heap}
    {before after : List Block} {block : Block}
    (taken : Taken system chain fuel size ptr heap region before after block) :
    MergedChains { heap := heap, live := ptr :: system.live }
      (Function.update chain region (before ++ (block.takenFor size ++ after))) := by
  have coalesced := merged.2 region taken.regionMem
  rw [taken.isSplit] at coalesced
  refine merged.update taken.heapType (fun other otherMem _ => ?_)
    (coalesced.taken taken.isFree size)
  rwa [← taken.regions]

end Merged

/-- The blocks that a walk from the free list of a region meets. -/
inductive OnBlockList (memory : Memory) (region : HeapRegion) : Nat → Prop
  | first (notNull : region.freeList ≠ 0) : OnBlockList memory region region.freeList
  | next {block : Nat} (onList : OnBlockList memory region block)
      (notNull : (header memory block).next ≠ 0) :
      OnBlockList memory region (header memory block).next

/-- No block of a region and its successor are both free. -/
def NoAdjacentFree (memory : Memory) (region : HeapRegion) : Prop :=
  ∀ block, OnBlockList memory region block → (header memory block).next ≠ 0 →
    (header memory block).free = 0 ∨ (header memory (header memory block).next).free = 0

/-- A region is one free block of its full size. -/
def OneFreeBlock (memory : Memory) (region : HeapRegion) : Prop :=
  region.freeList = region.start ∧ header memory region.start =
    { size := region.stop - region.start, magic := blockMagicFree, free := 1, next := 0, prev := 0 }

/-- No adjacent blocks are free, and releasing the owned pointers in any order
leaves one free block in every region that is not an empty entry. -/
structure HeapMerged (system : HeapSystem) : Prop where
  apart : ∀ region ∈ system.heap.regions, NoAdjacentFree system.heap.memory region
  restored : ∀ order : List Nat, order.Perm system.live → ∀ region ∈ system.heap.regions,
    region.start ≠ region.stop → OneFreeBlock (order.foldl freeRtos system.heap).memory region

section Regions

variable {memory : Memory} {region : HeapRegion} {blocks : List Block}

theorem OnBlockList.exists_block {start : Nat} (onList : OnBlockList memory region start)
    (chain : RegionChain memory region blocks) : ∃ block ∈ blocks, block.start = start := by
  induction onList with
  | first notNull =>
      rw [chain.listed] at notNull ⊢
      cases blocks with
      | nil => simp at notNull
      | cons head tail => exact ⟨head, by simp, rfl⟩
  | next _ notNull ih =>
      obtain ⟨block, blockMem, rfl⟩ := ih
      obtain ⟨before, after, rfl⟩ := List.append_of_mem blockMem
      obtain ⟨head, onAfter, isHead⟩ := chain.next_mem notNull
      exact ⟨head, by simp [onAfter], isHead.symm⟩

/-- The walk from the free list meets every block of the chain. -/
theorem OnBlockList.of_chain {before : List Block} {block : Block} {after : List Block}
    (chain : RegionChain memory region (before ++ block :: after)) (fits : region.Fits) :
    OnBlockList memory region block.start := by
  have onChain : block ∈ before ++ block :: after := by simp
  have positive := (chain.start_pos fits onChain).1
  induction before using List.reverseRecOn generalizing block after with
  | nil =>
      have isFirst : region.freeList = block.start := chain.listed
      rw [← isFirst] at positive ⊢
      exact .first (Nat.ne_of_gt positive)
  | append_singleton front last ih =>
      rw [List.append_assoc] at chain
      have isNext : (header memory last.start).next = block.start := chain.next_eq
      have lastOn : last ∈ front ++ last :: block :: after := by simp
      rw [← isNext] at positive ⊢
      exact .next (ih chain lastOn (chain.start_pos fits lastOn).1) (Nat.ne_of_gt positive)

theorem noAdjacentFree_of_coalesced (chain : RegionChain memory region blocks)
    (coalesced : Coalesced blocks) : NoAdjacentFree memory region := by
  intro start onList notNull
  obtain ⟨block, blockMem, rfl⟩ := onList.exists_block chain
  obtain ⟨before, after, rfl⟩ := List.append_of_mem blockMem
  rw [chain.next_eq] at notNull ⊢
  cases after with
  | nil => simp at notNull
  | cons head tail =>
      rw [List.map_cons, List.headD_cons, (chain.marked block (by simp)).free,
        (chain.marked head (by simp)).free]
      refine ((coalesced_middle_iff.mp coalesced).2.2.1 head rfl).imp ?_ ?_ <;> intro used <;>
        simp [used]

theorem oneFreeBlock_of_coalesced (chain : RegionChain memory region blocks)
    (coalesced : Coalesced blocks) (allFree : ∀ block ∈ blocks, block.free = true)
    (notEmpty : region.start ≠ region.stop) : OneFreeBlock memory region := by
  cases blocks with
  | nil => exact absurd chain.tiles notEmpty
  | cons head tail =>
      cases tail with
      | cons next rest =>
          have whole : Coalesced ([] ++ head :: next :: rest) := coalesced
          have headUsed := (whole.neighbours (allFree head (by simp))).2 next rfl
          rw [allFree next (by simp)] at headUsed
          simp at headUsed
      | nil =>
          obtain ⟨isFirst, isLast⟩ := chain.tiles
          have isStop : head.start + head.size = region.stop := isLast
          have alone : RegionChain memory region ([] ++ head :: []) := chain
          have marked := chain.marked head (by simp)
          refine ⟨by rw [chain.listed, ← isFirst]; rfl, ?_⟩
          rw [← isFirst]
          ext
          · rw [marked.size]
            dsimp only
            omega
          · rw [marked.magic, if_pos (allFree head (by simp))]
          · rw [marked.free, if_pos (allFree head (by simp))]
          · exact alone.next_eq
          · exact alone.prev_eq

end Regions

/-- Releasing all owned pointers keeps the chains merged. -/
theorem release_all {system : HeapSystem} {chain : HeapRegion → List Block}
    (invariant : HeapInvariant system chain) (merged : MergedChains system chain)
    {order : List Nat} (perm : order.Perm system.live) :
    (order.foldl freeRtos system.heap).regions = system.heap.regions ∧
      ∃ chain', HeapInvariant { heap := order.foldl freeRtos system.heap, live := [] } chain' ∧
        MergedChains { heap := order.foldl freeRtos system.heap, live := [] } chain' := by
  induction order generalizing system chain with
  | nil =>
      have noneLive := perm.symm.eq_nil
      obtain ⟨heap, live⟩ := system
      obtain rfl : live = [] := noneLive
      exact ⟨rfl, chain, invariant, merged⟩
  | cons ptr rest ih =>
      obtain ⟨isLive, restPerm⟩ := List.cons_perm_iff_perm_erase.mp perm
      obtain ⟨region, before, after, block, released⟩ := invariant.free_released isLive
      have kept := mergedChains_kept.free released invariant merged
      obtain ⟨regions, last⟩ := ih (released.keeps invariant) kept restPerm
      exact ⟨regions.trans released.regions, last⟩

/-- From type three on, every heap reached by contained calls is merged. -/
theorem heap_merged (heap : Heap) {start size type : Nat} (positive : 0 < start)
    (sizeLt : size < uint32Size) (addressLt : start + size < uintptrSize)
    (aligned : AlignedInside start size) (typed : heapType3 ≤ type ∧ type ≤ heapType5)
    {system : HeapSystem}
    (run : HeapSystem.Reachable ContainedCall (.init heap start size type) system) :
    HeapMerged system := by
  have chosen : heapType2 ≤ type ∧ type ≤ heapType5 :=
    ⟨Nat.le_trans (by decide) typed.1, typed.2⟩
  have blank : MergedChains (.blank heap type) fun _ => [] :=
    ⟨typed.1, by simp [HeapSystem.blank]⟩
  obtain ⟨chain, invariant, merged⟩ := run.invariant positive sizeLt addressLt aligned chosen
    blank.added fun invariant merged contained executed =>
      mergedChains_kept.exec invariant merged contained executed (fun _ _ => merged.taken)
        fun _ => merged.added
  refine ⟨fun region regionMem => ?_, fun order perm region regionMem notEmpty => ?_⟩
  · exact noAdjacentFree_of_coalesced (invariant.chains region regionMem)
      (merged.2 region regionMem)
  · obtain ⟨regions, chain', allReleased, stillMerged⟩ := release_all invariant merged perm
    have lastMem : region ∈ (order.foldl freeRtos system.heap).regions := regions ▸ regionMem
    refine oneFreeBlock_of_coalesced (allReleased.chains region lastMem)
      (stillMerged.2 region lastMem) (fun block blockMem => ?_) notEmpty
    by_contra inUse
    have isLive := (allReleased.owned (block.start + blockHeaderSize)).mpr
      ⟨region, lastMem, block, blockMem, by simpa using inUse, rfl⟩
    simp at isLive

theorem heap_merged_released :
    ∃ system, HeapSystem.Reachable ContainedCall (.init staticHeap 4096 256 heapType4) system ∧
      system.live = [4176] ∧ HeapMerged system := by
  obtain ⟨system, run, isLive⟩ := exists_reachable_small
    (.init staticHeap 4096 256 heapType4) 4 [.malloc 16, .malloc 40, .free 4128]
    (fun system => system.live = [4176]) (by decide +kernel)
  have contained := run.mono fun call => call.contained
  exact ⟨system, contained, isLive, heap_merged staticHeap (by decide) (by decide) (by decide)
    (by decide) (by decide) contained⟩

/-- In a region that ends before it starts no block is merged. -/
theorem heap_merged_unaligned :
    ¬∀ system, HeapSystem.Reachable HeapCall (.init staticHeap 8193 2 heapType4) system →
      HeapMerged system := by
  intro holds
  obtain ⟨system, run, isRegions, isFirst, isSecond⟩ := exists_reachable_small
    (.init staticHeap 8193 2 heapType4) 4 [.malloc 8, .malloc 8, .free 8232, .free 8272]
    (fun system => system.heap.regions = [⟨8200, 8192, 8200⟩] ∧
      (header system.heap.memory 8200).free = 1 ∧
      (header system.heap.memory 8200).next = 8240 ∧
      (header system.heap.memory 8240).free = 1) (by decide +kernel)
  have apart := (holds system (run.mono fun call => call.1)).apart ⟨8200, 8192, 8200⟩
    (by simp [isRegions]) 8200 (.first (by decide)) (by simp [isSecond.1])
  rw [isFirst, isSecond.1, isSecond.2] at apart
  simp at apart

end Rtos

end MiniIotRobotEdge

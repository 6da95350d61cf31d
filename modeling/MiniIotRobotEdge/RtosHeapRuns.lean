import Mathlib.Logic.Relation
import MiniIotRobotEdge.RtosHeapSearch

/-!
# Runs of the heap

Programs call the allocation functions in any order and write into the
payloads that they own.  The pointers handed out and not yet released are kept
beside the heap, since the heap itself does not know them.
-/

namespace MiniIotRobotEdge

namespace Rtos

/-- The heap with the pointers that its users own. -/
structure HeapSystem where
  heap : Heap
  live : List Nat

/-- The calls of the heap interface, and a write of a user. -/
inductive HeapOp
  | addRegion (start size : Nat)
  | malloc (size : Nat)
  | calloc (num size : Nat)
  | realloc (ptr newSize : Nat)
  | free (ptr : Nat)
  | write (ptr offset : Nat) (byte : UInt8)

/-- The bytes behind a pointer that its owner may use. -/
def payloadSize (memory : Memory) (ptr : Nat) : Nat :=
  (header memory (ptr - blockHeaderSize)).size - blockHeaderSize

/-- The owned pointers after an allocation function has returned `ptr`. -/
def owned (live : List Nat) (ptr : Nat) : List Nat :=
  if ptr = 0 then live else ptr :: live

/-- The owned pointers after `realloc_rtos` has returned `result`. -/
def reallocated (live : List Nat) (ptr newSize result : Nat) : List Nat :=
  if ptr = 0 then owned live result
  else if newSize = 0 then live.erase ptr
  else if result = 0 ∨ result = ptr then live
  else result :: live.erase ptr

def HeapSystem.exec (fuel : Nat) (system : HeapSystem) : HeapOp → Option HeapSystem
  | .addRegion start size =>
      some { system with heap := heapAddRegion system.heap start size }
  | .malloc size =>
      (mallocRtos fuel system.heap size).map fun (ptr, heap) =>
        { heap := heap, live := owned system.live ptr }
  | .calloc num size =>
      (callocRtos fuel system.heap num size).map fun (ptr, heap) =>
        { heap := heap, live := owned system.live ptr }
  | .realloc ptr newSize =>
      (reallocRtos fuel system.heap ptr newSize).map fun (result, heap) =>
        { heap := heap, live := reallocated system.live ptr newSize result }
  | .free ptr =>
      some { heap := freeRtos system.heap ptr, live := system.live.erase ptr }
  | .write ptr offset byte =>
      some { system with
        heap := { system.heap with
          memory := Function.update system.heap.memory (ptr + offset) byte } }

/-- The calls of a correct program: requests are not too large, only owned
pointers are released, users write into their payloads, and added buffers do
not overlap the regions. -/
def HeapCall (system : HeapSystem) : HeapOp → Prop
  | .addRegion start size =>
      0 < start ∧ size < uint32Size ∧ start + size < uintptrSize ∧
        ∀ region ∈ system.heap.regions, start + size ≤ region.start ∨ region.stop ≤ start
  | .malloc size => size + 39 < uint32Size
  | .calloc num size => num * size + 39 < uint32Size
  | .realloc ptr newSize => (ptr = 0 ∨ ptr ∈ system.live) ∧ newSize + 39 < uint32Size
  | .free ptr => ptr ∈ system.live
  | .write ptr offset _ =>
      ptr ∈ system.live ∧ offset < payloadSize system.heap.memory ptr

/-- The first aligned address of a buffer is not behind the last one. -/
def AlignedInside (start size : Nat) : Prop :=
  (start + heapAlignment - 1) / heapAlignment * heapAlignment ≤
    (start + size) / heapAlignment * heapAlignment

/-- The bytes between the first and the last aligned address of a buffer. -/
def alignedRoom (start size : Nat) : Nat :=
  (start + size) / heapAlignment * heapAlignment -
    (start + heapAlignment - 1) / heapAlignment * heapAlignment

instance (start size : Nat) : Decidable (AlignedInside start size) :=
  inferInstanceAs (Decidable (_ ≤ _))

/-- Buffers that become a region have an aligned address. -/
def AddsAligned (system : HeapSystem) (op : HeapOp) : Prop :=
  HeapCall system op ∧ ∀ start size, op = .addRegion start size →
    system.heap.regions.length < heapMaxRegions → AlignedInside start size

def HeapSystem.Step (allowed : HeapSystem → HeapOp → Prop) (before after : HeapSystem) : Prop :=
  ∃ fuel op, allowed before op ∧ before.exec fuel op = some after

def HeapSystem.Reachable (allowed : HeapSystem → HeapOp → Prop) (initial current : HeapSystem) :
    Prop :=
  Relation.ReflTransGen (HeapSystem.Step allowed) initial current

/-- The heap after `heap_init`. -/
def HeapSystem.init (heap : Heap) (start size type : Nat) : HeapSystem where
  heap := heapInit heap start size type
  live := []

theorem HeapSystem.Reachable.mono {allowed permitted : HeapSystem → HeapOp → Prop}
    {initial current : HeapSystem} (run : HeapSystem.Reachable allowed initial current)
    (weaker : ∀ {system op}, allowed system op → permitted system op) :
    HeapSystem.Reachable permitted initial current :=
  Relation.ReflTransGen.mono
    (fun _ _ ⟨fuel, op, call, executed⟩ => ⟨fuel, op, weaker call, executed⟩) _ _ run

/-- Small requests and the release of owned pointers. -/
def smallCall (system : HeapSystem) : HeapOp → Bool
  | .malloc size => size + 39 < uint32Size
  | .free ptr => ptr ∈ system.live
  | _ => false

theorem smallCall_allowed {system : HeapSystem} {op : HeapOp} (small : smallCall system op = true) :
    AddsAligned system op := by
  cases op with
  | malloc size => exact ⟨by simpa [smallCall, HeapCall] using small, nofun⟩
  | free ptr => exact ⟨by simpa [smallCall, HeapCall] using small, nofun⟩
  | _ => simp [smallCall] at small

/-- Execute a list of calls, each under a decidable guard. -/
def HeapSystem.execAll (guard : HeapSystem → HeapOp → Bool) (fuel : Nat) :
    List HeapOp → HeapSystem → Option HeapSystem
  | [], system => some system
  | op :: rest, system =>
      if guard system op then (system.exec fuel op).bind (execAll guard fuel rest) else none

/-- A list of guarded calls leads to a reachable heap with a decidable
property. -/
theorem exists_reachable {allowed : HeapSystem → HeapOp → Prop} {invariant : HeapSystem → Prop}
    {guard : HeapSystem → HeapOp → Bool}
    (sound : ∀ {system op}, invariant system → guard system op = true → allowed system op)
    (kept : ∀ {before after fuel op}, invariant before → allowed before op →
      before.exec fuel op = some after → invariant after)
    {initial : HeapSystem} (base : invariant initial) (fuel : Nat) (ops : List HeapOp)
    (property : HeapSystem → Prop) [DecidablePred property]
    (passed : (initial.execAll guard fuel ops).any (fun system => decide (property system)) =
      true) :
    ∃ system, HeapSystem.Reachable allowed initial system ∧ property system := by
  induction ops generalizing initial with
  | nil => exact ⟨initial, .refl, by simpa [HeapSystem.execAll] using passed⟩
  | cons op rest ih =>
      rw [HeapSystem.execAll] at passed
      split at passed
      case isFalse => simp at passed
      case isTrue guarded =>
        obtain ⟨last, executed, holds⟩ := (Option.any_eq_true _ _).mp passed
        obtain ⟨next, stepped, remaining⟩ := Option.bind_eq_some_iff.mp executed
        have permitted := sound base guarded
        obtain ⟨system, run, holds⟩ := ih (kept base permitted stepped)
          ((Option.any_eq_true _ _).mpr ⟨last, remaining, holds⟩)
        exact ⟨system, .head ⟨fuel, op, permitted, stepped⟩ run, holds⟩

theorem exists_reachable_small (initial : HeapSystem) (fuel : Nat) (ops : List HeapOp)
    (property : HeapSystem → Prop) [DecidablePred property]
    (passed : (initial.execAll smallCall fuel ops).any
      (fun system => decide (property system)) = true) :
    ∃ system, HeapSystem.Reachable AddsAligned initial system ∧ property system :=
  exists_reachable (fun _ => smallCall_allowed) (fun _ _ _ => trivial) trivial fuel ops property
    passed

/-- The static variables of the heap before `heap_init`, over zeroed memory. -/
def staticHeap : Heap where
  memory := fun _ => 0
  heapType := heapType4
  regions := []
  stats := {}

/-- Every region is a well-formed chain, and the payloads of owned pointers
lie inside a region and do not overlap. -/
structure HeapWellFormed (system : HeapSystem) : Prop where
  chains : ∀ region ∈ system.heap.regions, ∃ blocks,
    RegionChain system.heap.memory region blocks
  inside : ∀ ptr ∈ system.live, ∃ region ∈ system.heap.regions,
    region.start + blockHeaderSize ≤ ptr ∧
      ptr + payloadSize system.heap.memory ptr ≤ region.stop
  disjoint : system.live.Pairwise fun first second =>
    first + payloadSize system.heap.memory first ≤ second ∨
      second + payloadSize system.heap.memory second ≤ first

/-- The invariant of the heap, with the chain of every region. -/
structure HeapInvariant (system : HeapSystem) (chain : HeapRegion → List Block) : Prop where
  chains : ∀ region ∈ system.heap.regions,
    RegionChain system.heap.memory region (chain region)
  fits : ∀ region ∈ system.heap.regions, region.Fits
  apart : ∀ region ∈ system.heap.regions, ∀ other ∈ system.heap.regions, region ≠ other →
    region.stop ≤ other.start ∨ other.stop ≤ region.start
  typed : heapType2 ≤ system.heap.heapType ∧ system.heap.heapType ≤ heapType5
  nodup : system.live.Nodup
  owned : ∀ ptr, ptr ∈ system.live ↔ ∃ region ∈ system.heap.regions,
    ∃ block ∈ chain region, block.free = false ∧ ptr = block.start + blockHeaderSize

/-- Headers of a tiled region lie inside it. -/
theorem KeepsOutside.of_tiles {memory changed : Memory} {first last : Nat} {blocks : List Block}
    (kept : KeepsOutside (blocks.map Block.start) memory changed)
    (tiles : Tiles first blocks last) {address : Nat} (outside : address < first ∨ last ≤ address) :
    changed address = memory address := by
  apply kept address
  intro start isMember
  obtain ⟨block, onChain, rfl⟩ := List.mem_map.mp isMember
  obtain ⟨lower, upper⟩ := tiles.bounds.2 block onChain
  have room := block.header_le_stop
  unfold OutsideHeader
  omega

namespace HeapInvariant

variable {system : HeapSystem} {chain : HeapRegion → List Block}

/-- Blocks are the same or do not overlap. -/
theorem blocks_apart (invariant : HeapInvariant system chain) {region other : HeapRegion}
    {block otherBlock : Block} (regionMem : region ∈ system.heap.regions)
    (blockMem : block ∈ chain region) (otherMem : other ∈ system.heap.regions)
    (otherBlockMem : otherBlock ∈ chain other) :
    (region = other ∧ block = otherBlock) ∨
      block.stop ≤ otherBlock.start ∨ otherBlock.stop ≤ block.start := by
  have tiles := (invariant.chains region regionMem).tiles
  by_cases same : region = other
  · subst same
    exact (tiles.apart blockMem otherBlockMem).imp_left fun equal => ⟨rfl, equal⟩
  · have otherTiles := (invariant.chains other otherMem).tiles
    obtain ⟨lower, upper⟩ := tiles.bounds.2 block blockMem
    obtain ⟨otherLower, otherUpper⟩ := otherTiles.bounds.2 otherBlock otherBlockMem
    have regionsApart := invariant.apart region regionMem other otherMem same
    omega

theorem block_unique (invariant : HeapInvariant system chain) {region other : HeapRegion}
    {block otherBlock : Block} (regionMem : region ∈ system.heap.regions)
    (blockMem : block ∈ chain region) (otherMem : other ∈ system.heap.regions)
    (otherBlockMem : otherBlock ∈ chain other) (sameStart : block.start = otherBlock.start) :
    region = other ∧ block = otherBlock := by
  have room := block.header_le_stop
  have otherRoom := otherBlock.header_le_stop
  unfold blockHeaderSize at room otherRoom
  apply (invariant.blocks_apart regionMem blockMem otherMem otherBlockMem).resolve_right
  omega

/-- The block behind an owned pointer. -/
theorem payload (invariant : HeapInvariant system chain) {ptr : Nat} (isLive : ptr ∈ system.live) :
    ∃ region ∈ system.heap.regions, ∃ block ∈ chain region, block.free = false ∧
      ptr - blockHeaderSize = block.start ∧ ptr = block.start + blockHeaderSize ∧
      ptr + payloadSize system.heap.memory ptr = block.stop := by
  obtain ⟨region, regionMem, block, blockMem, inUse, isPtr⟩ := (invariant.owned ptr).mp isLive
  have isStart : ptr - blockHeaderSize = block.start := by omega
  have marked := (invariant.chains region regionMem).marked block blockMem
  have large := block.large
  refine ⟨region, regionMem, block, blockMem, inUse, isStart, isPtr, ?_⟩
  rw [payloadSize, isStart, marked.size, isPtr, Block.stop]
  unfold blockHeaderSize heapMinBlockSize at *
  omega

/-- What the invariant says about the heap as its users see it. -/
theorem wellFormed (invariant : HeapInvariant system chain) : HeapWellFormed system where
  chains := fun region regionMem => ⟨chain region, invariant.chains region regionMem⟩
  inside := fun ptr isLive => by
    obtain ⟨region, regionMem, block, blockMem, _, _, isPtr, isStop⟩ := invariant.payload isLive
    obtain ⟨lower, upper⟩ := (invariant.chains region regionMem).tiles.bounds.2 block blockMem
    exact ⟨region, regionMem, by omega, by omega⟩
  disjoint := by
    refine invariant.nodup.imp_of_mem fun {first second} firstLive secondLive different => ?_
    obtain ⟨region, regionMem, block, blockMem, _, _, isFirst, firstStop⟩ :=
      invariant.payload firstLive
    obtain ⟨other, otherMem, otherBlock, otherBlockMem, _, _, isSecond, secondStop⟩ :=
      invariant.payload secondLive
    rcases invariant.blocks_apart regionMem blockMem otherMem otherBlockMem with
      ⟨_, rfl⟩ | apart
    · exact absurd (isFirst.trans isSecond.symm) different
    · omega

/-- An edit of one region leaves the chains of the others alone. -/
theorem edit (invariant : HeapInvariant system chain) {region : HeapRegion}
    (regionMem : region ∈ system.heap.regions) {changed : Memory} {blocks : List Block}
    (edited : RegionChain changed region blocks)
    (outside : ∀ address, address < region.start ∨ region.stop ≤ address →
      changed address = system.heap.memory address) :
    ∀ other ∈ system.heap.regions,
      RegionChain changed other (Function.update chain region blocks other) := by
  intro other otherMem
  by_cases same : other = region
  · rw [same, Function.update_self]
    exact edited
  · rw [Function.update_of_ne same]
    have otherChain := invariant.chains other otherMem
    have regionsApart := invariant.apart other otherMem region regionMem same
    refine otherChain.congr fun block blockMem => header_congr fun address lower upper => ?_
    obtain ⟨blockLower, blockUpper⟩ := otherChain.tiles.bounds.2 block blockMem
    have room := block.header_le_stop
    exact outside address (by omega)

/-- A write into a payload changes no header. -/
theorem write (invariant : HeapInvariant system chain) {ptr : Nat} (isLive : ptr ∈ system.live)
    {changed : Memory}
    (kept : ∀ address, address < ptr ∨ ptr + payloadSize system.heap.memory ptr ≤ address →
      changed address = system.heap.memory address) :
    HeapInvariant { system with heap := { system.heap with memory := changed } } chain where
  chains := fun region regionMem => by
    obtain ⟨other, otherMem, owner, ownerMem, _, _, isPtr, isStop⟩ := invariant.payload isLive
    refine (invariant.chains region regionMem).congr fun block blockMem =>
      header_congr fun address lower upper => kept address ?_
    have room := block.header_le_stop
    rcases invariant.blocks_apart regionMem blockMem otherMem ownerMem with ⟨_, rfl⟩ | apart
    · exact .inl (by omega)
    · omega
  fits := invariant.fits
  apart := invariant.apart
  typed := invariant.typed
  nodup := invariant.nodup
  owned := invariant.owned

end HeapInvariant

/-- Every block size that `malloc_rtos` asks for is aligned and not too small. -/
theorem allocSize_large (size : Nat) :
    heapAlignment ∣ allocSize size ∧ heapMinBlockSize ≤ allocSize size := by
  unfold allocSize
  dsimp only
  split
  · exact ⟨by decide, le_rfl⟩
  · rename_i notSmall
    exact ⟨Nat.dvd_mul_left _ _, Nat.le_of_not_lt notSmall⟩

/-- A request that is not too large fits into its block. -/
theorem allocSize_room {size : Nat} (bound : size + 39 < uint32Size) :
    size + blockHeaderSize ≤ allocSize size := by
  have rounded : ((size % uint32Size + blockHeaderSize) % uint32Size + heapAlignment - 1) %
      uint32Size / heapAlignment * heapAlignment = (size + 39) / 8 * 8 := by
    unfold uint32Size blockHeaderSize heapAlignment at *
    omega
  unfold allocSize
  dsimp only
  rw [rounded, if_neg (by unfold heapMinBlockSize; omega)]
  unfold blockHeaderSize
  omega

section Search

variable {memory : Memory} {chain : HeapRegion → List Block} {regions : List HeapRegion}
  {heapType : Nat}

/-- A block found in some region is free and large enough. -/
theorem allocFromRegions_found
    (chains : ∀ region ∈ regions, RegionChain memory region (chain region))
    (fits : ∀ region ∈ regions, region.Fits) (lower : heapType2 ≤ heapType)
    (upper : heapType ≤ heapType5) {fuel size found : Nat}
    (searched : allocFromRegions fuel memory heapType size regions = some found) :
    found = 0 ∨ ∃ region ∈ regions, ∃ block ∈ chain region, block.start = found ∧
      block.free = true ∧ size ≤ block.size := by
  induction regions with
  | nil => exact .inl (Option.some.inj searched).symm
  | cons region rest ih =>
      have later := ih (fun other otherMem => chains other (List.mem_cons_of_mem _ otherMem))
        (fun other otherMem => fits other (List.mem_cons_of_mem _ otherMem))
      rw [allocFromRegions] at searched
      rcases (chains region (by simp)).blockAlloc_cases (fits region (by simp)) fuel lower upper
        size with isFound | ⟨_, exhausted⟩
      case inr => simp [exhausted] at searched
      rw [isFound] at searched
      split at searched
      · simp at searched
      · apply (later searched).imp_right
        rintro ⟨other, otherMem, block, blockMem, isBlock⟩
        exact ⟨other, List.mem_cons_of_mem _ otherMem, block, blockMem, isBlock⟩
      · rename_i start notNull isStart
        obtain rfl := Option.some.inj searched
        rw [← Option.some.inj isStart]
        apply (scanBlocks_mem heapType size (chain region) 0 0xFFFFFFFF).imp_right
        rintro ⟨block, blockMem, isBlock⟩
        exact ⟨region, by simp, block, blockMem, isBlock⟩

/-- A block is found if one of the chains has a free block that is large
enough. -/
theorem allocFromRegions_ne_zero
    (chains : ∀ region ∈ regions, RegionChain memory region (chain region))
    (fits : ∀ region ∈ regions, region.Fits) (lower : heapType2 ≤ heapType)
    (upper : heapType ≤ heapType5) {fuel size found : Nat}
    (searched : allocFromRegions fuel memory heapType size regions = some found)
    {region : HeapRegion} (regionMem : region ∈ regions) {block : Block}
    (blockMem : block ∈ chain region) (isFree : block.free = true) (enough : size ≤ block.size) :
    found ≠ 0 := by
  induction regions with
  | nil => simp at regionMem
  | cons head rest ih =>
      have headChain := chains head (by simp)
      have headFits := fits head (by simp)
      rw [allocFromRegions] at searched
      rcases headChain.blockAlloc_cases headFits fuel lower upper size with
        isFound | ⟨_, exhausted⟩
      case inr => simp [exhausted] at searched
      rw [isFound] at searched
      split at searched
      · simp at searched
      · rename_i isNull
        refine ih (fun other otherMem => chains other (List.mem_cons_of_mem _ otherMem))
          (fun other otherMem => fits other (List.mem_cons_of_mem _ otherMem)) searched
          ((List.mem_cons.mp regionMem).resolve_left ?_)
        rintro rfl
        refine scanBlocks_ne_zero heapType size (fun other otherMem => ?_)
          (.inr ⟨rfl, block, blockMem, isFree, enough⟩) (Option.some.inj isNull)
        obtain ⟨first, last⟩ := headChain.tiles.bounds.2 other otherMem
        have sizeLt := headFits.size
        have aligned := other.aligned
        refine ⟨(headChain.start_pos headFits otherMem).1, ?_⟩
        rw [Block.stop] at last
        unfold heapAlignment uint32Size at *
        omega
      · rename_i start notNull isStart
        rwa [← Option.some.inj searched]

/-- The fuel does not change what the search finds. -/
theorem allocFromRegions_unique
    (chains : ∀ region ∈ regions, RegionChain memory region (chain region))
    (fits : ∀ region ∈ regions, region.Fits) (lower : heapType2 ≤ heapType)
    (upper : heapType ≤ heapType5) {fuel other size found second : Nat}
    (searched : allocFromRegions fuel memory heapType size regions = some found)
    (searchedAgain : allocFromRegions other memory heapType size regions = some second) :
    found = second := by
  induction regions with
  | nil => exact Option.some.inj (searched.symm.trans searchedAgain)
  | cons region rest ih =>
      have later := ih (fun other otherMem => chains other (List.mem_cons_of_mem _ otherMem))
        (fun other otherMem => fits other (List.mem_cons_of_mem _ otherMem))
      have regionChain := chains region (by simp)
      have regionFits := fits region (by simp)
      rw [allocFromRegions] at searched searchedAgain
      rcases regionChain.blockAlloc_cases regionFits fuel lower upper size with
        isFound | ⟨_, exhausted⟩
      case inr => simp [exhausted] at searched
      rcases regionChain.blockAlloc_cases regionFits other lower upper size with
        isSecond | ⟨_, exhausted⟩
      case inr => simp [exhausted] at searchedAgain
      rw [isFound] at searched
      rw [isSecond] at searchedAgain
      split at searched
      · simp at searched
      · rename_i isNull
        rw [isNull] at searchedAgain
        exact later searched searchedAgain
      · rename_i start notNull isStart
        rw [isStart] at searchedAgain
        split at searchedAgain
        · rename_i impossible
          simp at impossible
        · rename_i isNull
          exact absurd (Option.some.inj isNull) notNull
        · rename_i other _ sameStart
          obtain rfl := Option.some.inj sameStart
          exact Option.some.inj (searched.symm.trans searchedAgain)

/-- With more fuel than blocks in any region the search returns. -/
theorem allocFromRegions_total
    (chains : ∀ region ∈ regions, RegionChain memory region (chain region))
    (fits : ∀ region ∈ regions, region.Fits) (lower : heapType2 ≤ heapType)
    (upper : heapType ≤ heapType5) (size : Nat) {fuel : Nat}
    (enough : ∀ region ∈ regions, (chain region).length < fuel) :
    ∃ found, allocFromRegions fuel memory heapType size regions = some found := by
  induction regions with
  | nil => exact ⟨0, rfl⟩
  | cons region rest ih =>
      rw [allocFromRegions]
      rcases (chains region (by simp)).blockAlloc_cases (fits region (by simp)) fuel lower upper
        size with isFound | ⟨short, _⟩
      case inr => exact absurd (enough region (by simp)) (Nat.not_lt.mpr short)
      rw [isFound]
      split
      · rename_i impossible
        simp at impossible
      · exact ih (fun other otherMem => chains other (List.mem_cons_of_mem _ otherMem))
          (fun other otherMem => fits other (List.mem_cons_of_mem _ otherMem))
          (fun other otherMem => enough other (List.mem_cons_of_mem _ otherMem))
      · exact ⟨_, rfl⟩

end Search

/-- The statistics after an allocation that leaves the given free size. -/
def HeapStats.takeTo (stats : HeapStats) (freeSize : Nat) : HeapStats :=
  let stats := heapStatsUpdateAllocation { stats with freeSize := freeSize }
  { stats with
    minFreeEver :=
      if stats.freeSize < stats.minFreeEver then stats.freeSize else stats.minFreeEver }

/-- The statistics after a block of the given size has been taken. -/
def HeapStats.take (stats : HeapStats) (size : Nat) : HeapStats :=
  stats.takeTo ((stats.freeSize + uint32Size - size) % uint32Size)

/-- The statistics after a block of the given size has been released. -/
def HeapStats.give (stats : HeapStats) (size : Nat) : HeapStats :=
  heapStatsUpdateFree { stats with freeSize := (stats.freeSize + size) % uint32Size }

section Stats

variable (stats : HeapStats) (size : Nat)

theorem takeTo_sizes (freeSize : Nat) :
    (stats.takeTo freeSize).totalSize = stats.totalSize ∧
      (stats.takeTo freeSize).freeSize = freeSize :=
  ⟨rfl, rfl⟩

theorem updateAllocation_eq : heapStatsUpdateAllocation stats =
    { stats with
      allocCount := (stats.allocCount + 1) % uint32Size
      allocatedSize := (stats.totalSize + uint32Size - stats.freeSize) % uint32Size } :=
  rfl

theorem takeTo_allocatedSize (freeSize : Nat) : (stats.takeTo freeSize).allocatedSize =
    (stats.totalSize + uint32Size - freeSize) % uint32Size := by
  rw [HeapStats.takeTo, updateAllocation_eq]

@[simp] theorem take_totalSize : (stats.take size).totalSize = stats.totalSize :=
  (takeTo_sizes stats _).1

@[simp] theorem take_freeSize :
    (stats.take size).freeSize = (stats.freeSize + uint32Size - size) % uint32Size :=
  (takeTo_sizes stats _).2

theorem take_allocatedSize : (stats.take size).allocatedSize =
    (stats.totalSize + uint32Size - (stats.take size).freeSize) % uint32Size := by
  rw [take_freeSize]
  exact takeTo_allocatedSize stats _

theorem sizes_mk (total free allocated low allocs frees : Nat) :
    (HeapStats.mk total free allocated low allocs frees).totalSize = total ∧
      (HeapStats.mk total free allocated low allocs frees).freeSize = free :=
  ⟨rfl, rfl⟩

theorem updateFree_sizes :
    (heapStatsUpdateFree stats).totalSize = stats.totalSize ∧
      (heapStatsUpdateFree stats).freeSize = stats.freeSize := by
  rw [heapStatsUpdateFree]
  exact sizes_mk _ _ _ _ _ _

theorem updateFree_allocatedSize : (heapStatsUpdateFree stats).allocatedSize =
    (stats.totalSize + uint32Size - stats.freeSize) % uint32Size := by
  rw [heapStatsUpdateFree]

@[simp] theorem give_totalSize : (stats.give size).totalSize = stats.totalSize :=
  (updateFree_sizes _).1

@[simp] theorem give_freeSize :
    (stats.give size).freeSize = (stats.freeSize + size) % uint32Size :=
  (updateFree_sizes _).2

theorem give_allocatedSize : (stats.give size).allocatedSize =
    (stats.totalSize + uint32Size - (stats.give size).freeSize) % uint32Size := by
  rw [give_freeSize]
  exact updateFree_allocatedSize _

end Stats

/-- `malloc_rtos` returns the null pointer and changes nothing, or it takes
the block that the search has found. -/
theorem mallocRtos_cases {fuel size ptr : Nat} {heap after : Heap}
    (returned : mallocRtos fuel heap size = some (ptr, after)) :
    (ptr = 0 ∧ after = heap) ∨
    ∃ block, block ≠ 0 ∧
      allocFromRegions fuel heap.memory heap.heapType (allocSize size) heap.regions =
        some block ∧
      ptr = block + blockHeaderSize ∧
      after = { heap with
        memory := setMagic (setFree (blockSplit heap.memory block (allocSize size)) block 0) block
          blockMagicAlloc
        stats := heap.stats.take (allocSize size) } := by
  unfold mallocRtos at returned
  split at returned
  · obtain ⟨rfl, rfl⟩ := Prod.mk.inj (Option.some.inj returned)
    exact .inl ⟨rfl, rfl⟩
  split at returned
  · simp at returned
  · obtain ⟨rfl, rfl⟩ := Prod.mk.inj (Option.some.inj returned)
    exact .inl ⟨rfl, rfl⟩
  · rename_i block notNull searched
    obtain ⟨rfl, rfl⟩ := Prod.mk.inj (Option.some.inj returned)
    exact .inr ⟨block, notNull, searched, rfl, rfl⟩

section Blocks

variable {chain : HeapRegion → List Block} {regions : List HeapRegion} {region : HeapRegion}
  {property : Block → Prop}

/-- The blocks of all regions, seen from one of them. -/
theorem exists_block_update (regionMem : region ∈ regions) (blocks : List Block) :
    (∃ other ∈ regions, ∃ block ∈ Function.update chain region blocks other, property block) ↔
      (∃ other ∈ regions, other ≠ region ∧ ∃ block ∈ chain other, property block) ∨
        ∃ block ∈ blocks, property block := by
  constructor
  · rintro ⟨other, otherMem, block, blockMem, holds⟩
    by_cases same : other = region
    · rw [same, Function.update_self] at blockMem
      exact .inr ⟨block, blockMem, holds⟩
    · rw [Function.update_of_ne same] at blockMem
      exact .inl ⟨other, otherMem, same, block, blockMem, holds⟩
  · rintro (⟨other, otherMem, different, block, blockMem, holds⟩ | ⟨block, blockMem, holds⟩)
    · exact ⟨other, otherMem, block, by rwa [Function.update_of_ne different], holds⟩
    · exact ⟨region, regionMem, block, by rwa [Function.update_self], holds⟩

theorem exists_block_iff (regionMem : region ∈ regions) :
    (∃ other ∈ regions, ∃ block ∈ chain other, property block) ↔
      (∃ other ∈ regions, other ≠ region ∧ ∃ block ∈ chain other, property block) ∨
        ∃ block ∈ chain region, property block := by
  have same : (∃ other ∈ regions, ∃ block ∈ Function.update chain region (chain region) other,
      property block) ↔ _ := exists_block_update regionMem (chain region)
  rwa [Function.update_eq_self] at same

end Blocks

/-- What becomes of a block that `malloc_rtos` takes for a request. -/
def Block.takenFor (block : Block) (size : Nat) : List Block :=
  block.allocate (allocSize size) (allocSize_large size).1 (allocSize_large size).2

/-- `malloc_rtos` has taken `block`, which the search has found. -/
structure Taken (system : HeapSystem) (chain : HeapRegion → List Block) (fuel size ptr : Nat)
    (heap : Heap) (region : HeapRegion) (before after : List Block) (block : Block) : Prop where
  regionMem : region ∈ system.heap.regions
  isSplit : chain region = before ++ block :: after
  searched : allocFromRegions fuel system.heap.memory system.heap.heapType (allocSize size)
    system.heap.regions = some block.start
  isFree : block.free = true
  enough : allocSize size ≤ block.size
  isPtr : ptr = block.start + blockHeaderSize
  stats : heap.stats = system.heap.stats.take (allocSize size)
  regions : heap.regions = system.heap.regions
  heapType : heap.heapType = system.heap.heapType
  edited : RegionChain heap.memory region (before ++ (block.takenFor size ++ after))
  kept : KeepsOutside ((before ++ (block.takenFor size ++ after)).map Block.start)
    system.heap.memory heap.memory

/-- `free_rtos` has released the block of an owned pointer. -/
structure Released (system : HeapSystem) (chain : HeapRegion → List Block) (ptr : Nat)
    (heap : Heap) (region : HeapRegion) (before after : List Block) (block : Block) : Prop where
  regionMem : region ∈ system.heap.regions
  isSplit : chain region = before ++ block :: after
  inUse : block.free = false
  isPtr : ptr = block.start + blockHeaderSize
  stats : heap.stats = system.heap.stats.give block.size
  regions : heap.regions = system.heap.regions
  heapType : heap.heapType = system.heap.heapType
  edited : RegionChain heap.memory region (released system.heap.heapType before block after)
  kept : KeepsOutside ((before ++ block :: after).map Block.start)
    system.heap.memory heap.memory

section Calls

variable {system : HeapSystem} {chain : HeapRegion → List Block} {fuel size ptr : Nat}
  {heap : Heap} {region : HeapRegion} {before after : List Block} {block : Block}

namespace HeapInvariant

/-- `malloc_rtos` returns the null pointer and changes nothing, or it takes a
free block of a region's chain. -/
theorem malloc_cases (invariant : HeapInvariant system chain)
    (returned : mallocRtos fuel system.heap size = some (ptr, heap)) :
    (ptr = 0 ∧ heap = system.heap) ∨
    ∃ region before after block,
      Taken system chain fuel size ptr heap region before after block := by
  rcases mallocRtos_cases returned with ⟨rfl, rfl⟩ | ⟨start, notNull, searched, rfl, rfl⟩
  · exact .inl ⟨rfl, rfl⟩
  obtain ⟨region, regionMem, block, blockMem, rfl, isFree, enough⟩ :=
    (allocFromRegions_found invariant.chains invariant.fits invariant.typed.1 invariant.typed.2
      searched).resolve_left notNull
  obtain ⟨before, after, isSplit⟩ := List.append_of_mem blockMem
  have regionChain := invariant.chains region regionMem
  rw [isSplit] at regionChain
  obtain ⟨edited, kept⟩ := regionChain.allocate (invariant.fits region regionMem)
    (allocSize_large size).1 (allocSize_large size).2 enough
  exact .inr ⟨region, before, after, block, regionMem, isSplit, searched, isFree, enough, rfl, rfl,
    rfl, rfl, edited, kept⟩

/-- The block of an owned pointer is not free. -/
theorem not_live (invariant : HeapInvariant system chain)
    (regionMem : region ∈ system.heap.regions) (blockMem : block ∈ chain region)
    (isFree : block.free = true) : block.start + blockHeaderSize ∉ system.live := by
  intro isLive
  obtain ⟨other, otherMem, owner, ownerMem, inUse, _, isPtr, _⟩ := invariant.payload isLive
  obtain ⟨_, rfl⟩ := invariant.block_unique regionMem blockMem otherMem ownerMem (by omega)
  rw [isFree] at inUse
  simp at inUse

/-- The header of an owned pointer passes the test of `free_rtos`. -/
theorem magic_eq (invariant : HeapInvariant system chain) (isLive : ptr ∈ system.live) :
    (header system.heap.memory (ptr - blockHeaderSize)).magic = blockMagicAlloc := by
  obtain ⟨region, regionMem, block, blockMem, inUse, isStart, _⟩ := invariant.payload isLive
  rw [isStart, ((invariant.chains region regionMem).marked block blockMem).magic, inUse]
  rfl

/-- `free_rtos` releases the block of an owned pointer. -/
theorem free_released (invariant : HeapInvariant system chain) (isLive : ptr ∈ system.live) :
    ∃ region before after block,
      Released system chain ptr (freeRtos system.heap ptr) region before after block := by
  obtain ⟨region, regionMem, block, blockMem, inUse, isStart, isPtr, isStop⟩ :=
    invariant.payload isLive
  obtain ⟨before, after, isSplit⟩ := List.append_of_mem blockMem
  have regionChain := invariant.chains region regionMem
  rw [isSplit] at regionChain
  obtain ⟨edited, kept⟩ :=
    regionChain.release (invariant.fits region regionMem) system.heap.heapType
  have marked : (header (setMagic (setFree system.heap.memory block.start 1) block.start
      blockMagicFree) block.start).size = block.size :=
    ((regionChain.mark true).marked (block.mark true) (by simp)).size
  have inRegion : region.start ≤ block.start ∧ block.start < region.stop := by
    have bounds := regionChain.tiles.bounds.2 block (by simp)
    have room := block.header_le_stop
    unfold blockHeaderSize at room
    omega
  obtain ⟨found, isFound⟩ : ∃ found, (system.heap.regions.find? fun other =>
      other.start ≤ block.start ∧ block.start < other.stop) = some found :=
    Option.isSome_iff_exists.mp
      (List.find?_isSome.mpr ⟨region, regionMem, by simpa using inRegion⟩)
  have freed : freeRtos system.heap ptr = { system.heap with
      memory := if heapType3 ≤ system.heap.heapType then
          blockCoalesce (setMagic (setFree system.heap.memory block.start 1) block.start
            blockMagicFree) block.start
        else setMagic (setFree system.heap.memory block.start 1) block.start blockMagicFree
      stats := system.heap.stats.give block.size } := by
    have magic := invariant.magic_eq isLive
    unfold freeRtos
    dsimp only
    rw [if_neg (by unfold blockHeaderSize at isPtr; omega), if_neg (not_not.mpr magic), isStart,
      isFound, marked]
    rfl
  rw [freed]
  exact ⟨region, before, after, block, regionMem, isSplit, inUse, isPtr, rfl, rfl, rfl, edited,
    kept⟩

end HeapInvariant

/-- The header and the payload of a pointer, but for the link to the block in
front of it. -/
structure PayloadKept (memory changed : Memory) (ptr : Nat) : Prop where
  header : header changed (ptr - blockHeaderSize) =
    { header memory (ptr - blockHeaderSize) with
      prev := (header changed (ptr - blockHeaderSize)).prev }
  bytes : ∀ address, ptr ≤ address → address < ptr + payloadSize memory ptr →
    changed address = memory address

namespace PayloadKept

variable {memory changed last : Memory}

theorem refl (memory : Memory) (ptr : Nat) : PayloadKept memory memory ptr :=
  ⟨rfl, fun _ _ _ => rfl⟩

theorem size_eq (kept : PayloadKept memory changed ptr) :
    payloadSize changed ptr = payloadSize memory ptr := by
  rw [payloadSize, kept.header, payloadSize]

theorem trans (kept : PayloadKept memory changed ptr) (later : PayloadKept changed last ptr) :
    PayloadKept memory last ptr where
  header := by
    rw [later.header, kept.header]
  bytes := fun address lower upper => by
    rw [later.bytes address lower (by rwa [kept.size_eq]), kept.bytes address lower upper]

end PayloadKept

/-- A block that stays on the chain of its region keeps its header. -/
theorem RegionChain.header_stays {memory changed : Memory} {blocks changedBlocks : List Block}
    {owner : Block} (chain : RegionChain memory region blocks)
    (changedChain : RegionChain changed region changedBlocks) (wasOn : owner ∈ blocks)
    (isOn : owner ∈ changedBlocks) :
    header changed owner.start =
      { header memory owner.start with prev := (header changed owner.start).prev } := by
  have marked := chain.marked owner wasOn
  have changedMarked := changedChain.marked owner isOn
  have sameNext : (header changed owner.start).next = (header memory owner.start).next := by
    rw [changedChain.next_eq_stop isOn, chain.next_eq_stop wasOn]
  ext
  · exact changedMarked.size.trans marked.size.symm
  · exact changedMarked.magic.trans marked.magic.symm
  · exact changedMarked.free.trans marked.free.symm
  · exact sameNext
  · rfl

/-- Headers of one region are no payload bytes of its blocks or of another
region. -/
theorem KeepsOutside.payload {memory changed : Memory} {blocks : List Block} {owner : Block}
    {first last address : Nat} (kept : KeepsOutside (blocks.map Block.start) memory changed)
    (tiles : Tiles first blocks last)
    (place : owner ∈ blocks ∨ owner.stop ≤ first ∨ last ≤ owner.start)
    (lower : owner.start + blockHeaderSize ≤ address) (upper : address < owner.stop) :
    changed address = memory address := by
  apply kept address
  intro start isMember
  obtain ⟨member, onChain, rfl⟩ := List.mem_map.mp isMember
  have room := member.header_le_stop
  unfold OutsideHeader
  rcases place with ownerMem | outside
  · rcases tiles.apart onChain ownerMem with rfl | apart
    · omega
    · omega
  · obtain ⟨memberLower, memberUpper⟩ := tiles.bounds.2 member onChain
    omega

namespace HeapInvariant

/-- An edit of one region keeps an owned payload whose block stays on its
chain. -/
theorem payload_kept (invariant : HeapInvariant system chain) {changed : Memory}
    {blocks written : List Block} (regionMem : region ∈ system.heap.regions)
    (edited : RegionChain changed region blocks)
    (kept : KeepsOutside (written.map Block.start) system.heap.memory changed)
    (tiles : Tiles region.start written region.stop)
    (stays : ∀ owner ∈ chain region, owner.free = false →
      owner.start + blockHeaderSize = ptr → owner ∈ blocks ∧ owner ∈ written)
    (isLive : ptr ∈ system.live) : PayloadKept system.heap.memory changed ptr := by
  obtain ⟨home, homeMem, owner, ownerMem, inUse, isStart, isPtr, isStop⟩ :=
    invariant.payload isLive
  have homeChain := invariant.chains home homeMem
  have changedChain := invariant.edit regionMem edited (fun address outside =>
    kept.of_tiles tiles outside) home homeMem
  by_cases same : home = region
  · subst same
    rw [Function.update_self] at changedChain
    obtain ⟨stillOn, isWritten⟩ := stays owner ownerMem inUse isPtr.symm
    constructor
    · rw [isStart]
      exact homeChain.header_stays changedChain ownerMem stillOn
    · intro address lower upper
      exact kept.payload tiles (.inl isWritten) (by omega) (by omega)
  · rw [Function.update_of_ne same] at changedChain
    have regionsApart := invariant.apart home homeMem region regionMem same
    obtain ⟨ownerLower, ownerUpper⟩ := homeChain.tiles.bounds.2 owner ownerMem
    have outside : owner.stop ≤ region.start ∨ region.stop ≤ owner.start := by omega
    constructor
    · rw [isStart]
      exact homeChain.header_stays changedChain ownerMem ownerMem
    · intro address lower upper
      exact kept.payload tiles (.inr outside) (by omega) (by omega)

end HeapInvariant

namespace Taken

theorem blockMem (taken : Taken system chain fuel size ptr heap region before after block) :
    block ∈ chain region := by
  simp [taken.isSplit]

theorem ptr_ne_zero (taken : Taken system chain fuel size ptr heap region before after block) :
    ptr ≠ 0 := by
  have isPtr := taken.isPtr
  unfold blockHeaderSize at isPtr
  omega

/-- The block that is in use after the call. -/
theorem inUse (taken : Taken system chain fuel size ptr heap region before after block) :
    ∃ used : Block, used.start = block.start ∧ allocSize size ≤ used.size ∧ used.free = false ∧
      ∀ other : Block, other.free = false → (other ∈ block.takenFor size ↔ other = used) :=
  allocate_inUse block (allocSize_large size).1 (allocSize_large size).2 taken.enough

/-- The payload of the returned pointer has the size that was asked for. -/
theorem room (taken : Taken system chain fuel size ptr heap region before after block) :
    allocSize size ≤ payloadSize heap.memory ptr + blockHeaderSize := by
  obtain ⟨used, usedStart, usedSize, usedInUse, usedOnly⟩ := taken.inUse
  have usedMem : used ∈ before ++ (block.takenFor size ++ after) := by
    simp [(usedOnly used usedInUse).mpr rfl]
  have usedHeader := (taken.edited.marked used usedMem).size
  rw [usedStart] at usedHeader
  rw [payloadSize, taken.isPtr, Nat.add_sub_cancel, usedHeader]
  omega

/-- The blocks in use stay on the chain. -/
theorem stays (taken : Taken system chain fuel size ptr heap region before after block)
    {owner : Block} (ownerMem : owner ∈ chain region) (ownerInUse : owner.free = false) :
    owner ∈ before ++ (block.takenFor size ++ after) := by
  have ownerNe : owner ≠ block := by
    rintro rfl
    rw [taken.isFree] at ownerInUse
    simp at ownerInUse
  rw [taken.isSplit] at ownerMem
  simp only [List.mem_append, List.mem_cons, ownerNe, false_or] at ownerMem ⊢
  exact ownerMem.imp_right .inr

theorem fresh (taken : Taken system chain fuel size ptr heap region before after block)
    (invariant : HeapInvariant system chain) : ptr ∉ system.live := by
  rw [taken.isPtr]
  exact invariant.not_live taken.regionMem taken.blockMem taken.isFree

/-- `malloc_rtos` keeps the payloads in use. -/
theorem frame (taken : Taken system chain fuel size ptr heap region before after block)
    (invariant : HeapInvariant system chain) {other : Nat} (isLive : other ∈ system.live) :
    PayloadKept system.heap.memory heap.memory other :=
  invariant.payload_kept taken.regionMem taken.edited taken.kept taken.edited.tiles
    (fun _ ownerMem ownerInUse _ =>
      ⟨taken.stays ownerMem ownerInUse, taken.stays ownerMem ownerInUse⟩) isLive

/-- `malloc_rtos` keeps the invariant. -/
theorem keeps (taken : Taken system chain fuel size ptr heap region before after block)
    (invariant : HeapInvariant system chain) :
    HeapInvariant { heap := heap, live := ptr :: system.live }
      (Function.update chain region (before ++ (block.takenFor size ++ after))) := by
  obtain ⟨used, usedStart, _, usedInUse, usedOnly⟩ := taken.inUse
  have usedMem : used ∈ before ++ (block.takenFor size ++ after) := by
    simp [(usedOnly used usedInUse).mpr rfl]
  refine ⟨?_, ?_, ?_, ?_, ?_, fun other => ?_⟩
  · rw [taken.regions]
    exact invariant.edit taken.regionMem taken.edited fun address outside =>
      taken.kept.of_tiles taken.edited.tiles outside
  · rw [taken.regions]
    exact invariant.fits
  · rw [taken.regions]
    exact invariant.apart
  · rw [taken.heapType]
    exact invariant.typed
  · exact List.nodup_cons.mpr ⟨taken.fresh invariant, invariant.nodup⟩
  · rw [List.mem_cons, invariant.owned, taken.regions, exists_block_update taken.regionMem,
      exists_block_iff taken.regionMem]
    constructor
    · rintro (rfl | elsewhere | ⟨owner, ownerMem, ownerInUse, isOther⟩)
      · exact .inr ⟨used, usedMem, usedInUse, by rw [usedStart, taken.isPtr]⟩
      · exact .inl elsewhere
      · exact .inr ⟨owner, taken.stays ownerMem ownerInUse, ownerInUse, isOther⟩
    · rintro (elsewhere | ⟨owner, ownerMem, ownerInUse, isOther⟩)
      · exact .inr (.inl elsewhere)
      · rw [taken.isSplit]
        simp only [List.mem_append, usedOnly owner ownerInUse] at ownerMem
        rcases ownerMem with onBefore | rfl | onAfter
        · exact .inr (.inr ⟨owner, by simp [onBefore], ownerInUse, isOther⟩)
        · exact .inl (by rw [isOther, usedStart, taken.isPtr])
        · exact .inr (.inr ⟨owner, by simp [onAfter], ownerInUse, isOther⟩)

end Taken

namespace Released

theorem blockMem (released : Released system chain ptr heap region before after block) :
    block ∈ chain region := by
  simp [released.isSplit]

/-- The other blocks in use stay on the chain. -/
theorem stays (released : Released system chain ptr heap region before after block)
    {owner : Block} (ownerMem : owner ∈ chain region) (ownerInUse : owner.free = false)
    (different : owner.start + blockHeaderSize ≠ ptr) :
    owner ∈ Rtos.released system.heap.heapType before block after := by
  have ownerNe : owner ≠ block := by
    rintro rfl
    exact different released.isPtr.symm
  rw [released.isSplit] at ownerMem
  rw [released_inUse _ _ _ _ ownerInUse]
  simpa only [List.mem_append, List.mem_cons, ownerNe, false_or] using ownerMem

/-- `free_rtos` keeps the other payloads in use. -/
theorem frame (released : Released system chain ptr heap region before after block)
    (invariant : HeapInvariant system chain) {other : Nat} (isLive : other ∈ system.live)
    (different : other ≠ ptr) : PayloadKept system.heap.memory heap.memory other := by
  have tiles := (invariant.chains region released.regionMem).tiles
  rw [released.isSplit] at tiles
  apply invariant.payload_kept released.regionMem released.edited released.kept tiles _ isLive
  intro owner ownerMem ownerInUse isOther
  refine ⟨released.stays ownerMem ownerInUse (isOther ▸ different), ?_⟩
  rw [← released.isSplit]
  exact ownerMem

/-- `free_rtos` of an owned pointer keeps the invariant. -/
theorem keeps (released : Released system chain ptr heap region before after block)
    (invariant : HeapInvariant system chain) :
    HeapInvariant { heap := heap, live := system.live.erase ptr }
      (Function.update chain region
        (Rtos.released system.heap.heapType before block after)) := by
  have tiles := (invariant.chains region released.regionMem).tiles
  rw [released.isSplit] at tiles
  refine ⟨?_, ?_, ?_, ?_, invariant.nodup.erase ptr, fun other => ?_⟩
  · rw [released.regions]
    exact invariant.edit released.regionMem released.edited fun address outside =>
      released.kept.of_tiles tiles outside
  · rw [released.regions]
    exact invariant.fits
  · rw [released.regions]
    exact invariant.apart
  · rw [released.heapType]
    exact invariant.typed
  · rw [invariant.nodup.mem_erase_iff, invariant.owned, released.regions,
      exists_block_update released.regionMem, exists_block_iff released.regionMem]
    constructor
    · rintro ⟨otherNe, elsewhere | ⟨owner, ownerMem, ownerInUse, isOther⟩⟩
      · exact .inl elsewhere
      · exact .inr ⟨owner, released.stays ownerMem ownerInUse (isOther ▸ otherNe), ownerInUse,
          isOther⟩
    · rintro (elsewhere | ⟨owner, ownerMem, ownerInUse, isOther⟩)
      · refine ⟨?_, .inl elsewhere⟩
        obtain ⟨home, homeMem, different, owner, ownerMem, _, isOther⟩ := elsewhere
        intro same
        have sameStart : owner.start = block.start := by
          have isPtr := released.isPtr
          omega
        exact different (invariant.block_unique homeMem ownerMem released.regionMem
          released.blockMem sameStart).1
      · have onOld := (released_inUse _ _ _ _ ownerInUse).mp ownerMem
        have isPtr := released.isPtr
        rw [released.isSplit]
        rcases onOld with onBefore | onAfter
        · have lower := tiles.before_lt onBefore
          exact ⟨by omega, .inr ⟨owner, by simp [onBefore], ownerInUse, isOther⟩⟩
        · have higher := tiles.lt_after onAfter
          exact ⟨by omega, .inr ⟨owner, by simp [onAfter], ownerInUse, isOther⟩⟩

end Released

namespace HeapInvariant

/-- `malloc_rtos` keeps the invariant, and a pointer that it returns is new
and has room for a request that is not too large. -/
theorem malloc (invariant : HeapInvariant system chain) (bound : size + 39 < uint32Size)
    (returned : mallocRtos fuel system.heap size = some (ptr, heap)) :
    ∃ chain', HeapInvariant { heap := heap, live := Rtos.owned system.live ptr } chain' ∧
      (ptr ≠ 0 → ptr ∉ system.live ∧ size ≤ payloadSize heap.memory ptr) := by
  rcases invariant.malloc_cases returned with ⟨rfl, rfl⟩ | ⟨region, before, after, block, taken⟩
  · exact ⟨chain, invariant, fun notNull => absurd rfl notNull⟩
  · rw [Rtos.owned, if_neg taken.ptr_ne_zero]
    have room := taken.room
    have requested := allocSize_room bound
    exact ⟨_, taken.keeps invariant, fun _ => ⟨taken.fresh invariant, by omega⟩⟩

/-- `malloc_rtos` keeps the payloads in use. -/
theorem malloc_frame (invariant : HeapInvariant system chain)
    (returned : mallocRtos fuel system.heap size = some (ptr, heap)) {other : Nat}
    (isLive : other ∈ system.live) : PayloadKept system.heap.memory heap.memory other := by
  rcases invariant.malloc_cases returned with ⟨_, rfl⟩ | ⟨region, before, after, block, taken⟩
  · exact .refl _ _
  · exact taken.frame invariant isLive

/-- `malloc_rtos` returns, since no region has as many blocks as bytes. -/
theorem malloc_total (invariant : HeapInvariant system chain) (size : Nat) :
    ∃ ptr heap, mallocRtos uint32Size system.heap size = some (ptr, heap) := by
  have enough : ∀ region ∈ system.heap.regions, (chain region).length < uint32Size := by
    intro region regionMem
    have bound := (invariant.chains region regionMem).tiles.length_le
    have regionSize := (invariant.fits region regionMem).size
    unfold heapMinBlockSize at bound
    omega
  obtain ⟨found, searched⟩ := allocFromRegions_total invariant.chains invariant.fits
    invariant.typed.1 invariant.typed.2 (allocSize size) enough
  unfold mallocRtos
  rw [searched]
  split
  · exact ⟨_, _, rfl⟩
  · split
    · rename_i impossible
      simp at impossible
    · exact ⟨_, _, rfl⟩
    · exact ⟨_, _, rfl⟩

end HeapInvariant

end Calls

end Rtos

end MiniIotRobotEdge

import MiniIotRobotEdge.RtosHeapRuns

/-!
# Regions of the heap

`heap_init` and `heap_add_region` make one free block of the aligned part of a
buffer.  The usable size is computed without checking that the aligned start
is not behind the aligned end, so this holds of buffers with an aligned
address.
-/

namespace MiniIotRobotEdge

namespace Rtos

open LinkedSegment

/-- The statistics after a region of the given size has been added. -/
def HeapStats.add (stats : HeapStats) (usable : Nat) : HeapStats :=
  { stats with
    totalSize := (stats.totalSize + usable) % uint32Size
    freeSize := (stats.freeSize + usable) % uint32Size
    minFreeEver :=
      if stats.minFreeEver = 0 ∨ usable < stats.minFreeEver then usable else stats.minFreeEver }

theorem add_sizes (stats : HeapStats) (usable : Nat) :
    (stats.add usable).totalSize = (stats.totalSize + usable) % uint32Size ∧
      (stats.add usable).freeSize = (stats.freeSize + usable) % uint32Size := by
  rw [HeapStats.add]
  exact sizes_mk _ _ _ _ _ _

theorem add_allocatedSize (stats : HeapStats) (usable : Nat) :
    (stats.add usable).allocatedSize = stats.allocatedSize :=
  rfl

/-- The size that `heap_region_init` computes for a buffer. -/
def usableSize (start size : Nat) : Nat :=
  ((start + size) % uintptrSize / heapAlignment * heapAlignment + uintptrSize -
    (start + heapAlignment - 1) % uintptrSize / heapAlignment * heapAlignment) % uintptrSize %
    uint32Size

/-- The region that `heap_region_init` makes of a buffer that is not too
small. -/
def bufferRegion (start size : Nat) : HeapRegion where
  start := (start + heapAlignment - 1) % uintptrSize / heapAlignment * heapAlignment
  stop := (start + size) % uintptrSize / heapAlignment * heapAlignment
  freeList := (start + heapAlignment - 1) % uintptrSize / heapAlignment * heapAlignment

theorem heapRegionInit_small {start size : Nat} (heap : Heap) (region : HeapRegion)
    (small : usableSize start size < heapMinBlockSize * 2) :
    heapRegionInit heap region start size = (heap, region) := by
  unfold heapRegionInit
  exact if_pos small

theorem heapRegionInit_large {start size : Nat} (heap : Heap) (region : HeapRegion)
    (large : heapMinBlockSize * 2 ≤ usableSize start size) :
    ∃ memory, heapRegionInit heap region start size =
      ({ heap with memory := memory, stats := heap.stats.add (usableSize start size) },
        bufferRegion start size) := by
  unfold heapRegionInit
  dsimp only
  rw [← usableSize, if_neg (Nat.not_lt.mpr large)]
  exact ⟨_, rfl⟩

theorem usableSize_of_aligned {start size : Nat} (sizeLt : size < uint32Size)
    (aligned : AlignedInside start size) :
    usableSize start size = alignedRoom start size := by
  unfold usableSize alignedRoom
  unfold AlignedInside heapAlignment at *
  unfold uintptrSize uint32Size at *
  omega

theorem usableSize_of_not_aligned {start size : Nat}
    (notAligned : ¬AlignedInside start size) :
    usableSize start size = uint32Size - 8 := by
  unfold usableSize
  unfold AlignedInside heapAlignment at *
  unfold uintptrSize uint32Size at *
  omega

/-- What `heap_region_init` does with a buffer that has an aligned address. -/
theorem heapRegionInit_cases (heap : Heap) (region : HeapRegion) {start size : Nat}
    (positive : 0 < start) (sizeLt : size < uint32Size) (addressLt : start + size < uintptrSize)
    (aligned : AlignedInside start size) :
    heapRegionInit heap region start size = (heap, region) ∨
    ∃ block : Block, block.free = true ∧ 0 < block.start ∧ start ≤ block.start ∧
      block.stop ≤ start + size ∧ heapMinBlockSize * 2 ≤ block.size ∧
      block.size = alignedRoom start size ∧ heapRegionInit heap region start size =
        ({ heap with
            memory := setPrev (setNext (setMagic (setFree (setSize heap.memory block.start
              block.size) block.start 1) block.start blockMagicFree) block.start 0) block.start 0
            stats := heap.stats.add block.size },
          { start := block.start, stop := block.stop, freeList := block.start }) := by
  have startEq : (start + heapAlignment - 1) % uintptrSize / heapAlignment * heapAlignment =
      (start + 7) / 8 * 8 := by
    unfold AlignedInside heapAlignment uintptrSize at *
    omega
  have stopEq : (start + size) % uintptrSize / heapAlignment * heapAlignment =
      (start + size) / 8 * 8 := by
    rw [Nat.mod_eq_of_lt addressLt]
    rfl
  have usableEq : ((start + size) / 8 * 8 + uintptrSize - (start + 7) / 8 * 8) % uintptrSize %
      uint32Size = (start + size) / 8 * 8 - (start + 7) / 8 * 8 := by
    unfold AlignedInside heapAlignment uintptrSize uint32Size at *
    omega
  unfold heapRegionInit
  dsimp only
  rw [startEq, stopEq, usableEq]
  split
  case isTrue => exact .inl rfl
  case isFalse enough =>
    have alignedSize : heapAlignment ∣ (start + size) / 8 * 8 - (start + 7) / 8 * 8 :=
      Nat.dvd_sub (Nat.dvd_mul_left 8 _) (Nat.dvd_mul_left 8 _)
    have large : heapMinBlockSize ≤ (start + size) / 8 * 8 - (start + 7) / 8 * 8 := by
      unfold heapMinBlockSize at *
      omega
    have sameStop : (start + 7) / 8 * 8 + ((start + size) / 8 * 8 - (start + 7) / 8 * 8) =
        (start + size) / 8 * 8 := by
      unfold heapMinBlockSize at large
      omega
    refine .inr ⟨⟨(start + 7) / 8 * 8, (start + size) / 8 * 8 - (start + 7) / 8 * 8, true,
      alignedSize, large⟩, rfl, ?_, ?_, ?_, Nat.le_of_not_lt enough, rfl, ?_⟩
    · dsimp only
      omega
    · dsimp only
      omega
    · rw [Block.stop, sameStop]
      omega
    · rw [Block.stop, sameStop]
      rfl

/-- The header that `heap_region_init` writes makes a chain of one free block. -/
theorem freeBlock_chain (memory : Memory) {block : Block} (isFree : block.free = true)
    (sizeLt : block.size < uint32Size) :
    RegionChain (setPrev (setNext (setMagic (setFree (setSize memory block.start block.size)
        block.start 1) block.start blockMagicFree) block.start 0) block.start 0)
      { start := block.start, stop := block.stop, freeList := block.start } [block] := by
  have atBlock := header_freeBlock memory block.size 0 0
    (.inl rfl : HeadersApart block.start block.start)
  rw [if_pos rfl, Nat.mod_eq_of_lt sizeLt] at atBlock
  refine ⟨⟨rfl, rfl⟩, ⟨?_, ?_, trivial⟩, rfl, ?_⟩
  · dsimp only
    rw [atBlock]
    rfl
  · dsimp only
    rw [atBlock]
    rfl
  · intro other isMember
    obtain rfl := List.mem_singleton.mp isMember
    refine ⟨?_, ?_, ?_⟩ <;> rw [atBlock] <;> simp [isFree]

/-- `heap_add_region` has made a region out of a buffer, or an empty entry if
the buffer is too small. -/
structure Added (system : HeapSystem) (chain : HeapRegion → List Block) (start size : Nat)
    (heap : Heap) (region : HeapRegion) (blocks : List Block) : Prop where
  regions : heap.regions = system.heap.regions ++ [region]
  heapType : heap.heapType = system.heap.heapType
  whole : (region = {} ∧ blocks = [] ∧ heap.stats = system.heap.stats) ∨
    ∃ block : Block, blocks = [block] ∧ block.free = true ∧ region.start = block.start ∧
      region.stop = block.stop ∧ heapMinBlockSize * 2 ≤ block.size ∧
      block.size = alignedRoom start size ∧ heap.stats = system.heap.stats.add block.size
  apart : ∀ other ∈ system.heap.regions,
    region.stop ≤ other.start ∨ other.stop ≤ region.start
  unused : region ∈ system.heap.regions → blocks = chain region
  keeps : HeapInvariant { system with heap := heap } (Function.update chain region blocks)

namespace HeapInvariant

variable {system : HeapSystem} {chain : HeapRegion → List Block}

/-- A region that is not disturbed by the others is added. -/
theorem appendRegion (invariant : HeapInvariant system chain) {memory : Memory} {stats : HeapStats}
    {region : HeapRegion} {blocks : List Block} (added : RegionChain memory region blocks)
    (fits : region.Fits) (allFree : ∀ block ∈ blocks, block.free = true)
    (apart : ∀ other ∈ system.heap.regions, region ≠ other →
      region.stop ≤ other.start ∨ other.stop ≤ region.start)
    (kept : ∀ other ∈ system.heap.regions, ∀ block ∈ chain other, other ≠ region →
      header memory block.start = header system.heap.memory block.start)
    (unused : region ∈ system.heap.regions → blocks = chain region) :
    HeapInvariant { system with heap := { system.heap with
        memory := memory
        stats := stats
        regions := system.heap.regions ++ [region] } }
      (Function.update chain region blocks) := by
  have chains : ∀ other ∈ system.heap.regions ++ [region],
      RegionChain memory other (Function.update chain region blocks other) := by
    intro other otherMem
    by_cases same : other = region
    · rw [same, Function.update_self]
      exact added
    · rw [Function.update_of_ne same]
      have wasMem : other ∈ system.heap.regions := by simpa [same] using otherMem
      exact (invariant.chains other wasMem).congr fun block blockMem =>
        kept other wasMem block blockMem same
  refine ⟨chains, ?_, ?_, invariant.typed, invariant.nodup, fun ptr => ?_⟩
  · intro other otherMem
    rcases List.mem_append.mp otherMem with wasMem | isNew
    · exact invariant.fits other wasMem
    · rw [List.mem_singleton.mp isNew]
      exact fits
  · intro first firstMem second secondMem different
    rcases List.mem_append.mp firstMem with firstOld | firstNew <;>
      rcases List.mem_append.mp secondMem with secondOld | secondNew
    · exact invariant.apart first firstOld second secondOld different
    · obtain rfl := List.mem_singleton.mp secondNew
      exact (apart first firstOld different.symm).symm
    · obtain rfl := List.mem_singleton.mp firstNew
      exact apart second secondOld different
    · exact absurd ((List.mem_singleton.mp firstNew).trans (List.mem_singleton.mp secondNew).symm)
        different
  · rw [invariant.owned, exists_block_update (by simp)]
    constructor
    · rintro ⟨other, otherMem, block, blockMem, inUse, isPtr⟩
      have different : other ≠ region := by
        rintro rfl
        rw [← unused otherMem] at blockMem
        rw [allFree block blockMem] at inUse
        simp at inUse
      exact .inl ⟨other, by simp [otherMem], different, block, blockMem, inUse, isPtr⟩
    · rintro (⟨other, otherMem, different, used⟩ | ⟨block, blockMem, inUse, _⟩)
      · exact ⟨other, by simpa [different] using otherMem, used⟩
      · rw [allFree block blockMem] at inUse
        simp at inUse

/-- `heap_add_region` adds a region, unless the table is full. -/
theorem addRegion_cases (invariant : HeapInvariant system chain) {start size : Nat}
    (call : HeapCall system (.addRegion start size))
    (aligned : system.heap.regions.length < heapMaxRegions → AlignedInside start size) :
    heapAddRegion system.heap start size = system.heap ∨
      ∃ region blocks,
        Added system chain start size (heapAddRegion system.heap start size) region blocks := by
  obtain ⟨positive, sizeLt, addressLt, disjoint⟩ := call
  unfold heapAddRegion
  split
  case isTrue => exact .inl rfl
  case isFalse notFull =>
    have inside := aligned (Nat.lt_of_not_le notFull)
    rcases heapRegionInit_cases system.heap {} positive sizeLt addressLt inside with
      skipped | ⟨block, isFree, blockPositive, lower, upper, enough, isRoom, added⟩
    · rw [skipped]
      dsimp only
      have empty : RegionChain system.heap.memory {} [] :=
        ⟨rfl, trivial, rfl, by simp⟩
      have fits : HeapRegion.Fits {} := ⟨by simp, by decide, by decide⟩
      have unused : {} ∈ system.heap.regions → [] = chain {} := by
        intro regionMem
        have bound : 0 + heapMinBlockSize * (chain {}).length ≤ 0 :=
          (invariant.chains {} regionMem).tiles.length_le
        unfold heapMinBlockSize at bound
        exact (List.eq_nil_of_length_eq_zero (by omega)).symm
      refine .inr ⟨{}, [], rfl, rfl, .inl ⟨rfl, rfl, rfl⟩, fun _ _ => .inl (Nat.zero_le _), unused,
        invariant.appendRegion empty fits (by simp) ?_ (fun _ _ _ _ _ => rfl) unused⟩
      exact fun _ _ _ => .inl (Nat.zero_le _)
    · have room := block.header_le_stop
      unfold blockHeaderSize at room
      have stopEq : block.stop = block.start + block.size := rfl
      have blockSizeLt : block.size < uint32Size := by omega
      have addedChain := freeBlock_chain system.heap.memory isFree blockSizeLt
      rw [added]
      dsimp only
      have unused : { start := block.start, stop := block.stop, freeList := block.start } ∈
          system.heap.regions →
          [block] =
            chain { start := block.start, stop := block.stop, freeList := block.start } := by
        intro regionMem
        have selfApart := disjoint _ regionMem
        dsimp only at selfApart
        omega
      refine .inr ⟨_, [block], rfl, rfl,
        .inr ⟨block, rfl, isFree, rfl, rfl, enough, isRoom, rfl⟩, ?_, unused, ?_⟩
      · intro other otherMem
        have otherApart := disjoint other otherMem
        dsimp only
        omega
      refine invariant.appendRegion addedChain ⟨?_, ?_, ?_⟩ (by simpa using isFree) ?_ ?_ unused
      · exact fun _ => blockPositive
      · exact Nat.lt_of_le_of_lt upper addressLt
      · dsimp only
        omega
      · intro other otherMem _
        have otherApart := disjoint other otherMem
        dsimp only
        omega
      · intro other otherMem member memberMem _
        have otherApart := disjoint other otherMem
        have bounds := (invariant.chains other otherMem).tiles.bounds.2 member memberMem
        have memberRoom := member.header_le_stop
        unfold blockHeaderSize at memberRoom
        have headersApart : HeadersApart block.start member.start := by
          unfold HeadersApart blockHeaderSize
          omega
        rw [header_freeBlock system.heap.memory block.size 0 0 headersApart, if_neg (by omega)]

end HeapInvariant

theorem heapRegionInit_eq (heap : Heap) (region : HeapRegion) (start size : Nat) :
    ∃ memory stats region', heapRegionInit heap region start size =
      ({ heap with memory := memory, stats := stats }, region') := by
  unfold heapRegionInit
  dsimp only
  split
  · exact ⟨heap.memory, heap.stats, region, rfl⟩
  · exact ⟨_, _, _, rfl⟩

/-- `heap_init` is `heap_add_region` on a heap without regions. -/
theorem heapInit_eq (heap : Heap) (start size : Nat) {type : Nat}
    (typed : heapType1 ≤ type ∧ type ≤ heapType5) :
    heapInit heap start size type = heapAddRegion
      { heap with heapType := type, stats := {}, regions := [] } start size := by
  obtain ⟨memory, stats, region, created⟩ := heapRegionInit_eq
    { heap with heapType := type, stats := {}, regions := [] } {} start size
  have notFull : ¬heapMaxRegions ≤ 0 := by decide
  simp only [heapInit, heapAddRegion, if_pos typed, created, List.length_nil, if_neg notFull,
    List.nil_append]

/-- The heap that `heap_init` starts with: no regions and zeroed statistics. -/
def HeapSystem.blank (heap : Heap) (type : Nat) : HeapSystem where
  heap := { heap with heapType := type, stats := {}, regions := [] }
  live := []

theorem HeapInvariant.blank (heap : Heap) {type : Nat}
    (typed : heapType2 ≤ type ∧ type ≤ heapType5) :
    HeapInvariant (.blank heap type) fun _ => [] :=
  ⟨by simp [HeapSystem.blank], by simp [HeapSystem.blank], by simp [HeapSystem.blank], typed,
    List.nodup_nil, by simp [HeapSystem.blank]⟩

/-- `heap_init` adds the first region. -/
theorem heapInit_added (heap : Heap) {start size type : Nat} (positive : 0 < start)
    (sizeLt : size < uint32Size) (addressLt : start + size < uintptrSize)
    (aligned : AlignedInside start size) (typed : heapType2 ≤ type ∧ type ≤ heapType5) :
    ∃ region blocks, Added (.blank heap type) (fun _ => []) start size
      (heapInit heap start size type) region blocks := by
  have chosen : heapType1 ≤ type ∧ type ≤ heapType5 :=
    ⟨Nat.le_trans (by decide) typed.1, typed.2⟩
  rw [heapInit_eq heap start size chosen]
  refine ((HeapInvariant.blank heap typed).addRegion_cases
    ⟨positive, sizeLt, addressLt, by simp [HeapSystem.blank]⟩ fun _ => aligned).resolve_left ?_
  intro full
  have oneRegion := congrArg (fun heap => heap.regions.length) full
  unfold heapAddRegion at oneRegion
  simp [HeapSystem.blank, heapMaxRegions] at oneRegion

/-- The invariant holds after `heap_init`. -/
theorem heapInvariant_init (heap : Heap) {start size type : Nat} (positive : 0 < start)
    (sizeLt : size < uint32Size) (addressLt : start + size < uintptrSize)
    (aligned : AlignedInside start size) (typed : heapType2 ≤ type ∧ type ≤ heapType5) :
    ∃ chain, HeapInvariant (.init heap start size type) chain := by
  obtain ⟨region, blocks, added⟩ := heapInit_added heap positive sizeLt addressLt aligned typed
  exact ⟨_, added.keeps⟩

end Rtos

end MiniIotRobotEdge

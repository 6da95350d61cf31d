import MiniIotRobotEdge.ByteMemory
import MiniIotRobotEdge.RtosTaskScheduler

/-!
# The mini-rtos heap

The model of `memory_heap.c` for 64-bit pointers.  Block headers live in the
same bytes as the payloads, so a block is named by the address of its header
and the null pointer is address zero.  The walk of `block_alloc` takes fuel
and returns `none` when it is exhausted.
-/

namespace MiniIotRobotEdge

namespace Rtos

/-- Values of type `uintptr_t` and `size_t` wrap around at this value. -/
def uintptrSize : Nat := 2 ^ 64

def heapAlignment : Nat := 8
def heapMinBlockSize : Nat := 32
def heapMaxRegions : Nat := 8
def blockHeaderSize : Nat := 32
def blockMagicAlloc : Nat := 0xA110C8ED
def blockMagicFree : Nat := 0xF2EEF2EE

def heapType1 : Nat := 1
def heapType2 : Nat := 2
def heapType3 : Nat := 3
def heapType4 : Nat := 4
def heapType5 : Nat := 5

/-- `block_header_t`. -/
@[ext]
structure BlockHeader where
  size : Nat
  magic : Nat
  free : Nat
  next : Nat
  prev : Nat
  deriving DecidableEq, Repr

/-- Read a header; the compiler puts padding behind the one byte of `free`. -/
def header (memory : Memory) (block : Nat) : BlockHeader where
  size := memory.load block 4
  magic := memory.load (block + 4) 4
  free := memory.load (block + 8) 1
  next := memory.load (block + 16) 8
  prev := memory.load (block + 24) 8

def setSize (memory : Memory) (block size : Nat) : Memory := memory.store block 4 size

def setMagic (memory : Memory) (block magic : Nat) : Memory := memory.store (block + 4) 4 magic

def setFree (memory : Memory) (block free : Nat) : Memory := memory.store (block + 8) 1 free

def setNext (memory : Memory) (block next : Nat) : Memory := memory.store (block + 16) 8 next

def setPrev (memory : Memory) (block prev : Nat) : Memory := memory.store (block + 24) 8 prev

/-- `heap_region_t`; `stop` is the field `end`. -/
structure HeapRegion where
  start : Nat := 0
  stop : Nat := 0
  freeList : Nat := 0
  deriving DecidableEq, Repr

structure HeapStats where
  totalSize : Nat := 0
  freeSize : Nat := 0
  allocatedSize : Nat := 0
  minFreeEver : Nat := 0
  allocCount : Nat := 0
  freeCount : Nat := 0
  deriving DecidableEq, Repr

/-- The memory and the static variables of the heap; `regions` are the first
`region_count` entries of the array. -/
structure Heap where
  memory : Memory
  heapType : Nat
  regions : List HeapRegion
  stats : HeapStats

def heapStatsUpdateAllocation (stats : HeapStats) : HeapStats :=
  { stats with
    allocCount := (stats.allocCount + 1) % uint32Size
    allocatedSize := (stats.totalSize + uint32Size - stats.freeSize) % uint32Size }

def heapStatsUpdateFree (stats : HeapStats) : HeapStats :=
  { stats with
    freeCount := (stats.freeCount + 1) % uint32Size
    minFreeEver :=
      if stats.freeSize < stats.minFreeEver then stats.freeSize else stats.minFreeEver
    allocatedSize := (stats.totalSize + uint32Size - stats.freeSize) % uint32Size }

/-- The loop of `block_alloc` from `block` on. -/
def blockAllocFrom (memory : Memory) (heapType size : Nat) :
    Nat → Nat → Nat → Nat → Option Nat
  | 0, _, _, _ => none
  | fuel + 1, block, best, bestSize =>
      if block = 0 then some best
      else
        let next := (header memory block).next
        if (header memory block).free ≠ 0 ∧ size ≤ (header memory block).size then
          if heapType = heapType2 then
            if (header memory block).size < bestSize then
              blockAllocFrom memory heapType size fuel next block (header memory block).size
            else blockAllocFrom memory heapType size fuel next best bestSize
          else some block
        else blockAllocFrom memory heapType size fuel next best bestSize

def blockAlloc (fuel : Nat) (memory : Memory) (heapType : Nat) (region : HeapRegion)
    (size : Nat) : Option Nat :=
  if heapType = heapType1 then some region.freeList
  else if heapType2 ≤ heapType ∧ heapType ≤ heapType5 then
    blockAllocFrom memory heapType size fuel region.freeList 0 0xFFFFFFFF
  else some 0

def blockSplit (memory : Memory) (block size : Nat) : Memory :=
  let remaining := ((header memory block).size + uint32Size - size) % uint32Size
  if heapMinBlockSize ≤ remaining then
    let newBlock := block + size
    let memory := setSize memory newBlock remaining
    let memory := setFree memory newBlock 1
    let memory := setMagic memory newBlock blockMagicFree
    let memory := setNext memory newBlock (header memory block).next
    let memory := setPrev memory newBlock block
    let memory :=
      if (header memory block).next ≠ 0 then
        setPrev memory (header memory block).next newBlock
      else memory
    let memory := setNext memory block newBlock
    setSize memory block size
  else memory

/-- The first half of `block_coalesce`. -/
def coalesceNext (memory : Memory) (block : Nat) : Memory :=
  if (header memory block).next ≠ 0 ∧ (header memory (header memory block).next).free ≠ 0 then
    let memory := setSize memory block
      (((header memory block).size + (header memory (header memory block).next).size) %
        uint32Size)
    let memory := setNext memory block (header memory (header memory block).next).next
    if (header memory block).next ≠ 0 then setPrev memory (header memory block).next block
    else memory
  else memory

/-- The second half of `block_coalesce`. -/
def coalescePrev (memory : Memory) (block : Nat) : Memory :=
  if (header memory block).prev ≠ 0 ∧ (header memory (header memory block).prev).free ≠ 0 then
    let memory := setSize memory (header memory block).prev
      (((header memory (header memory block).prev).size + (header memory block).size) %
        uint32Size)
    let memory := setNext memory (header memory block).prev (header memory block).next
    if (header memory block).next ≠ 0 then
      setPrev memory (header memory block).next (header memory block).prev
    else memory
  else memory

def blockCoalesce (memory : Memory) (block : Nat) : Memory :=
  coalescePrev (coalesceNext memory block) block

/-- `heap_region_init`, with the entry of the region array that it writes. -/
def heapRegionInit (heap : Heap) (region : HeapRegion) (start size : Nat) : Heap × HeapRegion :=
  let alignedStart := (start + heapAlignment - 1) % uintptrSize / heapAlignment * heapAlignment
  let alignedEnd := (start + size) % uintptrSize / heapAlignment * heapAlignment
  let usable := (alignedEnd + uintptrSize - alignedStart) % uintptrSize % uint32Size
  if usable < heapMinBlockSize * 2 then (heap, region)
  else
    let block := alignedStart
    let memory := setSize heap.memory block usable
    let memory := setFree memory block 1
    let memory := setMagic memory block blockMagicFree
    let memory := setNext memory block 0
    let memory := setPrev memory block 0
    let stats := heap.stats
    let stats :=
      { stats with
        totalSize := (stats.totalSize + usable) % uint32Size
        freeSize := (stats.freeSize + usable) % uint32Size
        minFreeEver :=
          if stats.minFreeEver = 0 ∨ usable < stats.minFreeEver then usable
          else stats.minFreeEver }
    ({ heap with memory := memory, stats := stats },
      { region with start := alignedStart, stop := alignedEnd, freeList := block })

def heapInit (heap : Heap) (start size type : Nat) : Heap :=
  let heap :=
    { heap with
      heapType := if heapType1 ≤ type ∧ type ≤ heapType5 then type else heap.heapType
      stats := {}
      regions := [] }
  let created := heapRegionInit heap {} start size
  { created.1 with regions := [created.2] }

def heapAddRegion (heap : Heap) (start size : Nat) : Heap :=
  if heapMaxRegions ≤ heap.regions.length then heap
  else
    let created := heapRegionInit heap {} start size
    { created.1 with regions := created.1.regions ++ [created.2] }

/-- The loop of `malloc_rtos` over the regions. -/
def allocFromRegions (fuel : Nat) (memory : Memory) (heapType size : Nat) :
    List HeapRegion → Option Nat
  | [] => some 0
  | region :: rest =>
      match blockAlloc fuel memory heapType region size with
      | none => none
      | some 0 => allocFromRegions fuel memory heapType size rest
      | some block => some block

/-- The block size that `malloc_rtos` computes for a request. -/
def allocSize (size : Nat) : Nat :=
  let allocSize := (size % uint32Size + blockHeaderSize) % uint32Size
  let allocSize :=
    (allocSize + heapAlignment - 1) % uint32Size / heapAlignment * heapAlignment
  if allocSize < heapMinBlockSize then heapMinBlockSize else allocSize

/-- `malloc_rtos` returns the pointer and the new heap; the hook for a failed
allocation is empty. -/
def mallocRtos (fuel : Nat) (heap : Heap) (size : Nat) : Option (Nat × Heap) :=
  if size = 0 then some (0, heap)
  else
    match allocFromRegions fuel heap.memory heap.heapType (allocSize size) heap.regions with
    | none => none
    | some 0 => some (0, heap)
    | some block =>
        let memory := blockSplit heap.memory block (allocSize size)
        let memory := setFree memory block 0
        let memory := setMagic memory block blockMagicAlloc
        let stats := heap.stats
        let stats :=
          { stats with
            freeSize := (stats.freeSize + uint32Size - allocSize size) % uint32Size }
        let stats := heapStatsUpdateAllocation stats
        let stats :=
          { stats with
            minFreeEver :=
              if stats.freeSize < stats.minFreeEver then stats.freeSize
              else stats.minFreeEver }
        some (block + blockHeaderSize, { heap with memory := memory, stats := stats })

def freeRtos (heap : Heap) (ptr : Nat) : Heap :=
  if ptr = 0 then heap
  else
    let block := ptr - blockHeaderSize
    if (header heap.memory block).magic ≠ blockMagicAlloc then heap
    else
      let memory := setFree heap.memory block 1
      let memory := setMagic memory block blockMagicFree
      let stats := heap.stats
      let stats :=
        { stats with
          freeSize := (stats.freeSize + (header memory block).size) % uint32Size }
      let stats := heapStatsUpdateFree stats
      let memory :=
        match heap.regions.find? fun region => region.start ≤ block ∧ block < region.stop with
        | none => memory
        | some _ => if heapType3 ≤ heap.heapType then blockCoalesce memory block else memory
      { heap with memory := memory, stats := stats }

def callocRtos (fuel : Nat) (heap : Heap) (num size : Nat) : Option (Nat × Heap) :=
  let total := num * size % uintptrSize
  match mallocRtos fuel heap total with
  | none => none
  | some (ptr, heap) =>
      if ptr ≠ 0 then some (ptr, { heap with memory := heap.memory.fill ptr total 0 })
      else some (ptr, heap)

def reallocRtos (fuel : Nat) (heap : Heap) (ptr newSize : Nat) : Option (Nat × Heap) :=
  if ptr = 0 then mallocRtos fuel heap newSize
  else if newSize = 0 then some (0, freeRtos heap ptr)
  else
    let block := ptr - blockHeaderSize
    if (header heap.memory block).magic ≠ blockMagicAlloc then some (0, heap)
    else
      let oldSize := ((header heap.memory block).size + uint32Size - blockHeaderSize) % uint32Size
      if newSize ≤ oldSize then some (ptr, heap)
      else
        match mallocRtos fuel heap newSize with
        | none => none
        | some (newPtr, heap) =>
            if newPtr = 0 then some (0, heap)
            else
              let heap := { heap with memory := heap.memory.copy newPtr ptr oldSize }
              some (newPtr, freeRtos heap ptr)

end Rtos

end MiniIotRobotEdge

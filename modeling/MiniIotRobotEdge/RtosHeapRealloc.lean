import MiniIotRobotEdge.RtosHeapMoves

/-!
# Frames of `realloc_rtos`

A block that grows is copied into a new one before it is released.  The headers
that are written by splitting and merging lie outside all payloads in use; of
the other blocks in use only the link to the block in front changes.
-/

namespace MiniIotRobotEdge

namespace Rtos

/-- What `realloc_rtos` of an owned pointer leaves as it was. -/
structure ReallocKeeps (system : HeapSystem) (ptr newSize result : Nat) (heap : Heap) : Prop where
  contents : result ≠ 0 → ∀ index, index < min (payloadSize system.heap.memory ptr) newSize →
    heap.memory (result + index) = system.heap.memory (ptr + index)
  others : ∀ other ∈ system.live, other ≠ ptr →
    PayloadKept system.heap.memory heap.memory other
  failed : result = 0 → 0 < newSize →
    heap = system.heap ∧ ptr ∈ reallocated system.live ptr newSize result

section Realloc

variable {system : HeapSystem} {chain : HeapRegion → List Block} {fuel ptr newSize result : Nat}
  {heap : Heap}

/-- Owned payloads do not overlap. -/
theorem HeapInvariant.payloads_apart (invariant : HeapInvariant system chain) {other : Nat}
    (isLive : ptr ∈ system.live) (otherLive : other ∈ system.live) (different : other ≠ ptr) :
    other + payloadSize system.heap.memory other + blockHeaderSize ≤ ptr ∨
      ptr + payloadSize system.heap.memory ptr + blockHeaderSize ≤ other := by
  obtain ⟨region, regionMem, block, blockMem, _, _, isPtr, isStop⟩ := invariant.payload isLive
  obtain ⟨home, homeMem, owner, ownerMem, _, _, isOther, otherStop⟩ :=
    invariant.payload otherLive
  rcases invariant.blocks_apart homeMem ownerMem regionMem blockMem with ⟨_, rfl⟩ | apart
  · exact absurd (isOther.trans isPtr.symm) different
  · omega

/-- A write into a payload keeps the other payloads in use. -/
theorem HeapInvariant.write_frame (invariant : HeapInvariant system chain) {changed : Memory}
    (isLive : ptr ∈ system.live)
    (kept : ∀ address, address < ptr ∨ ptr + payloadSize system.heap.memory ptr ≤ address →
      changed address = system.heap.memory address)
    {other : Nat} (otherLive : other ∈ system.live) (different : other ≠ ptr) :
    PayloadKept system.heap.memory changed other := by
  have apart := invariant.payloads_apart isLive otherLive different
  obtain ⟨_, _, _, _, _, _, isOther, _⟩ := invariant.payload otherLive
  have same : header changed (other - blockHeaderSize) =
      header system.heap.memory (other - blockHeaderSize) := by
    refine header_congr fun address lower upper => kept address ?_
    omega
  exact ⟨by rw [same], fun address lower upper => kept address (by omega)⟩

/-- A write into a payload does not change its size. -/
theorem payloadSize_congr {memory changed : Memory} (behindHeader : blockHeaderSize ≤ ptr)
    (kept : ∀ address, address < ptr → changed address = memory address) :
    payloadSize changed ptr = payloadSize memory ptr := by
  have sameHeader : header changed (ptr - blockHeaderSize) =
      header memory (ptr - blockHeaderSize) :=
    header_congr fun address _ upper => kept address (by omega)
  rw [payloadSize, sameHeader, payloadSize]

section Moved

variable {region : HeapRegion} {before rest : List Block} {block : Block}

/-- The contents of a block are copied into a new one. -/
theorem Taken.copied (taken : Taken system chain fuel newSize result heap region before rest block)
    (invariant : HeapInvariant system chain) (source : Nat) {count : Nat}
    (room : count ≤ payloadSize heap.memory result) :
    HeapInvariant { heap := { heap with memory := heap.memory.copy result source count },
                    live := result :: system.live }
        (Function.update chain region (before ++ (block.takenFor newSize ++ rest))) ∧
      payloadSize (heap.memory.copy result source count) result =
        payloadSize heap.memory result := by
  constructor
  · exact (taken.keeps invariant).write (List.mem_cons_self ..) fun address apart =>
      Memory.copy_outside (by dsimp only at apart; omega)
  · refine payloadSize_congr ?_ fun address front => Memory.copy_outside (.inl front)
    have isPtr := taken.isPtr
    omega

/-- The block has been moved: allocated anew, copied and released. -/
theorem reallocKeeps_of_moved (invariant : HeapInvariant system chain)
    (isLive : ptr ∈ system.live)
    (taken : Taken system chain fuel newSize result heap region before rest block)
    (bound : newSize + 39 < uint32Size) (larger : payloadSize system.heap.memory ptr < newSize) :
    ReallocKeeps system ptr newSize result (freeRtos { heap with
      memory := heap.memory.copy result ptr (payloadSize system.heap.memory ptr) } ptr) := by
  have fresh := taken.fresh invariant
  have room : payloadSize system.heap.memory ptr ≤ payloadSize heap.memory result := by
    have takenRoom := taken.room
    have requested := allocSize_room bound
    omega
  obtain ⟨copied, sameSize⟩ := taken.copied invariant ptr room
  obtain ⟨_, _, _, _, released⟩ := copied.free_released (List.mem_cons_of_mem result isLive)
  have newNe : result ≠ ptr := fun same => fresh (same ▸ isLive)
  refine ⟨fun _ index inside => ?_, fun other otherLive different => ?_,
    fun isNull => absurd isNull taken.ptr_ne_zero⟩
  · -- neither taking the new block nor releasing the old one writes into a payload
    have oldFrame := taken.frame invariant isLive
    have newFrame := released.frame copied (List.mem_cons_self ..) newNe
    have kept := newFrame.bytes (result + index) (by omega) (by
      dsimp only
      rw [sameSize]
      omega)
    rw [kept]
    dsimp only
    rw [Memory.copy_inside (by omega), oldFrame.bytes (ptr + index) (by omega) (by omega)]
  · have otherOld : other ∈ result :: system.live := List.mem_cons_of_mem _ otherLive
    have otherNe : other ≠ result := fun same => fresh (same ▸ otherLive)
    have taking := taken.frame invariant otherLive
    have copying : PayloadKept heap.memory
        (heap.memory.copy result ptr (payloadSize system.heap.memory ptr)) other :=
      (taken.keeps invariant).write_frame (List.mem_cons_self ..)
        (fun address apart => Memory.copy_outside (by dsimp only at apart; omega)) otherOld
        otherNe
    have releasing := released.frame copied otherOld different
    exact (taking.trans copying).trans releasing

end Moved

/-- `realloc_rtos` of an owned pointer keeps the contents and the other
payloads. -/
theorem HeapInvariant.reallocKeeps (invariant : HeapInvariant system chain)
    (isLive : ptr ∈ system.live) (bound : newSize + 39 < uint32Size)
    (returned : reallocRtos fuel system.heap ptr newSize = some (result, heap)) :
    ReallocKeeps system ptr newSize result heap := by
  have notNull : ptr ≠ 0 := by
    obtain ⟨_, _, _, _, _, _, isPtr, _⟩ := invariant.payload isLive
    unfold blockHeaderSize at isPtr
    omega
  by_cases isZero : newSize = 0
  · rw [reallocRtos, if_neg notNull, if_pos isZero] at returned
    obtain ⟨rfl, rfl⟩ := Prod.mk.inj (Option.some.inj returned)
    obtain ⟨_, _, _, _, released⟩ := invariant.free_released isLive
    exact ⟨fun nonNull => absurd rfl nonNull,
      fun other otherLive different => released.frame invariant otherLive different,
      fun _ positive => by omega⟩
  rcases invariant.reallocRtos_cases isLive isZero returned with ⟨rfl, rfl, _⟩ | ⟨rfl, rfl, _⟩ |
    ⟨region, before, rest, block, between, taken, larger, rfl⟩
  · refine ⟨fun nonNull => absurd rfl nonNull, fun other _ _ => .refl _ _, fun _ _ => ⟨rfl, ?_⟩⟩
    rw [reallocated, if_neg notNull, if_neg isZero, if_pos (.inl rfl)]
    exact isLive
  · exact ⟨fun _ _ _ => rfl, fun other _ _ => .refl _ _, fun isNull => absurd isNull notNull⟩
  · exact reallocKeeps_of_moved invariant isLive taken bound larger

end Realloc

/-- In every heap reached by contained calls `realloc_rtos` of an owned pointer
returns and keeps what it has to keep. -/
theorem realloc_keeps (heap : Heap) {start size type : Nat} (positive : 0 < start)
    (sizeLt : size < uint32Size) (addressLt : start + size < uintptrSize)
    (aligned : AlignedInside start size) (typed : heapType2 ≤ type ∧ type ≤ heapType5)
    {system : HeapSystem}
    (run : HeapSystem.Reachable ContainedCall (.init heap start size type) system) {ptr : Nat}
    (isLive : ptr ∈ system.live) {newSize : Nat} (bound : newSize + 39 < uint32Size) :
    (∃ result last, reallocRtos uint32Size system.heap ptr newSize = some (result, last)) ∧
      ∀ fuel result last, reallocRtos fuel system.heap ptr newSize = some (result, last) →
        ReallocKeeps system ptr newSize result last := by
  obtain ⟨chain, invariant⟩ := heapInvariant_of_contained id
    (heapInvariant_init heap positive sizeLt addressLt aligned typed) run
  constructor
  · obtain ⟨after, executed⟩ := invariant.exec_total (.realloc ptr newSize)
    obtain ⟨⟨result, last⟩, returned, _⟩ := Option.map_eq_some_iff.mp executed
    exact ⟨result, last, returned⟩
  · exact fun fuel result last returned => invariant.reallocKeeps isLive bound returned

theorem realloc_keeps_moved :
    ∃ system, HeapSystem.Reachable ContainedCall (.init staticHeap 4096 256 heapType4) system ∧
      4128 ∈ system.live ∧ ∀ fuel result last,
        reallocRtos fuel system.heap 4128 40 = some (result, last) →
          ReallocKeeps system 4128 40 result last := by
  obtain ⟨system, run, isLive⟩ := exists_reachable_small
    (.init staticHeap 4096 256 heapType4) 4 [.malloc 16, .malloc 72, .malloc 16, .free 4176]
    (fun system => 4128 ∈ system.live) (by decide +kernel)
  have contained := run.mono fun call => call.contained
  exact ⟨system, contained, isLive, (realloc_keeps staticHeap (by decide) (by decide) (by decide)
    (by decide) (by decide) contained isLive (by decide)).2⟩

/-- Splitting the block in front of a block in use changes the header of the
latter. -/
theorem realloc_changes_prev :
    ¬∀ system, HeapSystem.Reachable AddsAligned (.init staticHeap 4096 256 heapType4) system →
      ∀ ptr ∈ system.live, ∀ newSize, newSize + 39 < uint32Size → ∀ fuel result heap,
        reallocRtos fuel system.heap ptr newSize = some (result, heap) → result ≠ 0 →
          ∀ other ∈ system.live, other ≠ ptr →
            header heap.memory (other - blockHeaderSize) =
              header system.heap.memory (other - blockHeaderSize) := by
  intro holds
  obtain ⟨system, run, firstLive, otherLive, changes⟩ := exists_reachable_small
    (.init staticHeap 4096 256 heapType4) 4 [.malloc 16, .malloc 72, .malloc 16, .free 4176]
    (fun system => 4128 ∈ system.live ∧ 4280 ∈ system.live ∧
      ∃ last ∈ reallocRtos 4 system.heap 4128 40, last.1 ≠ 0 ∧
        header last.2.memory 4248 ≠ header system.heap.memory 4248) (by decide +kernel)
  obtain ⟨⟨result, heap⟩, returned, notNull, changed⟩ := changes
  exact changed (holds system run 4128 firstLive 40 (by decide) 4 result heap returned notNull 4280
    otherLive (by decide))

end Rtos

end MiniIotRobotEdge

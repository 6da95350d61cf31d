import MiniIotRobotEdge.RtosHeapCoalescing
import MiniIotRobotEdge.RtosHeapRealloc

/-!
# The capacity of allocated blocks

`malloc_rtos` truncates its argument to 32 bits before it adds the header and
rounds up, and `calloc_rtos` multiplies without a check.  A block is large enough
exactly when none of this has wrapped around.
-/

namespace MiniIotRobotEdge

namespace Rtos

/-- The calls that return a block. -/
inductive AllocCall
  | malloc (size : Nat)
  | calloc (num size : Nat)
  | realloc (ptr newSize : Nat)

namespace AllocCall

def op : AllocCall → HeapOp
  | malloc size => .malloc size
  | calloc num size => .calloc num size
  | realloc ptr newSize => .realloc ptr newSize

/-- What a call returns. -/
def returns (fuel : Nat) (heap : Heap) : AllocCall → Option (Nat × Heap)
  | malloc size => mallocRtos fuel heap size
  | calloc num size => callocRtos fuel heap num size
  | realloc ptr newSize => reallocRtos fuel heap ptr newSize

/-- The number of bytes that the caller wants. -/
def requested : AllocCall → Nat
  | malloc size => size
  | calloc num size => num * size
  | realloc _ newSize => newSize

/-- The pointer given to `realloc_rtos` is owned. -/
def Owned (live : List Nat) : AllocCall → Prop
  | realloc ptr _ => ptr = 0 ∨ ptr ∈ live
  | _ => True

/-- The owned pointers after a call that has returned `result`. -/
def liveAfter (live : List Nat) (result : Nat) : AllocCall → List Nat
  | realloc ptr newSize => reallocated live ptr newSize result
  | _ => owned live result

end AllocCall

/-- The pointer is that of a block inside a region whose payload holds the
request. -/
structure HoldsRequest (heap : Heap) (ptr requested : Nat) : Prop where
  inside : ∃ region ∈ heap.regions, region.start + blockHeaderSize ≤ ptr ∧
    ptr + payloadSize heap.memory ptr ≤ region.stop
  enough : requested ≤ payloadSize heap.memory ptr

/-- Some free block on the list of a region has at least the given size. -/
def HasRoom (heap : Heap) (size : Nat) : Prop :=
  ∃ region ∈ heap.regions, ∃ block, OnBlockList heap.memory region block ∧
    (header heap.memory block).free ≠ 0 ∧ size ≤ (header heap.memory block).size

/-- A request that finds a block does not wrap around when it is rounded. -/
def RequestFits (system : HeapSystem) (call : AllocCall) : Prop :=
  ∀ request ∈ allocRequest system call.op, request ≠ 0 →
    HasRoom system.heap (allocSize request) → call.requested + 39 < uint32Size

section Room

variable {system : HeapSystem} {chain : HeapRegion → List Block} {fuel request ptr : Nat}
  {heap : Heap} {call : AllocCall}

theorem HeapInvariant.hasRoom (invariant : HeapInvariant system chain) {size block : Nat}
    (notNull : block ≠ 0) (searched : allocFromRegions fuel system.heap.memory
      system.heap.heapType size system.heap.regions = some block) : HasRoom system.heap size := by
  obtain ⟨region, regionMem, found, foundMem, rfl, isFree, enough⟩ :=
    (allocFromRegions_found invariant.chains invariant.fits invariant.typed.1 invariant.typed.2
      searched).resolve_left notNull
  have regionChain := invariant.chains region regionMem
  have marked := regionChain.marked found foundMem
  obtain ⟨before, after, isSplit⟩ := List.append_of_mem foundMem
  rw [isSplit] at regionChain
  refine ⟨region, regionMem, found.start,
    .of_chain regionChain (invariant.fits region regionMem), marked.free_iff.mpr isFree, ?_⟩
  rwa [marked.size]

/-- `malloc_rtos` fails only when no free block is large enough. -/
theorem HeapInvariant.malloc_ne_zero (invariant : HeapInvariant system chain)
    (notZero : request ≠ 0) (room : HasRoom system.heap (allocSize request))
    (returned : mallocRtos fuel system.heap request = some (ptr, heap)) : ptr ≠ 0 := by
  unfold mallocRtos at returned
  rw [if_neg notZero] at returned
  split at returned
  · simp at returned
  · rename_i searched
    obtain ⟨region, regionMem, start, onList, isFree, enough⟩ := room
    have regionChain := invariant.chains region regionMem
    obtain ⟨block, blockMem, rfl⟩ := onList.exists_block regionChain
    have marked := regionChain.marked block blockMem
    rw [marked.size] at enough
    exact absurd rfl (allocFromRegions_ne_zero invariant.chains invariant.fits invariant.typed.1
      invariant.typed.2 searched regionMem blockMem (marked.free_iff.mp isFree) enough)
  · obtain ⟨rfl, _⟩ := Prod.mk.inj (Option.some.inj returned)
    exact Nat.succ_ne_zero _

/-- A call returns a block when its request finds one. -/
theorem HeapInvariant.returns_ne_zero (invariant : HeapInvariant system chain)
    (isOwned : call.Owned system.live) (isRequest : request ∈ allocRequest system call.op)
    (notZero : request ≠ 0) (room : HasRoom system.heap (allocSize request))
    (returned : call.returns fuel system.heap = some (ptr, heap)) : ptr ≠ 0 := by
  cases call with
  | malloc size =>
      obtain rfl : size = request := Option.some.inj isRequest
      exact invariant.malloc_ne_zero notZero room returned
  | calloc num size =>
      obtain rfl : num * size % uintptrSize = request := Option.some.inj isRequest
      simp only [AllocCall.returns, callocRtos] at returned
      split at returned
      · simp at returned
      · rename_i newPtr between allocated
        have notNull := invariant.malloc_ne_zero notZero room allocated
        rw [if_pos notNull] at returned
        obtain ⟨rfl, _⟩ := Prod.mk.inj (Option.some.inj returned)
        exact notNull
  | realloc old newSize =>
      simp only [AllocCall.op, allocRequest] at isRequest
      simp only [AllocCall.returns] at returned
      split at isRequest
      case isTrue isNull =>
        obtain rfl : newSize = request := Option.some.inj isRequest
        rw [reallocRtos, if_pos isNull] at returned
        exact invariant.malloc_ne_zero notZero room returned
      case isFalse notNull =>
        split at isRequest
        · simp at isRequest
        · rename_i larger
          obtain rfl : newSize = request := Option.some.inj isRequest
          have isLive : old ∈ system.live := isOwned.resolve_left notNull
          have sizeNe : newSize ≠ 0 := fun isZero => larger (.inl isZero)
          rcases invariant.reallocRtos_cases isLive sizeNe returned with ⟨_, _, failed⟩ |
            ⟨rfl, _⟩ | ⟨_, _, _, _, _, taken, _⟩
          · exact absurd rfl (invariant.malloc_ne_zero notZero room failed)
          · exact notNull
          · exact taken.ptr_ne_zero

end Room

section Capacity

variable {system : HeapSystem} {chain : HeapRegion → List Block} {fuel ptr : Nat} {heap : Heap}
  {call : AllocCall}

theorem exec_op : system.exec fuel call.op = (call.returns fuel system.heap).map
    fun (ptr, heap) => { heap := heap, live := call.liveAfter system.live ptr } := by
  cases call <;> rfl

theorem mallocRtos_regions {before : Heap} {size : Nat}
    (returned : mallocRtos fuel before size = some (ptr, heap)) :
    heap.regions = before.regions := by
  rcases mallocRtos_cases returned with ⟨_, rfl⟩ | ⟨_, _, _, _, rfl⟩ <;> rfl

theorem freeRtos_regions (heap : Heap) (ptr : Nat) :
    (freeRtos heap ptr).regions = heap.regions := by
  unfold freeRtos
  split
  · rfl
  dsimp only
  split <;> rfl

/-- No call changes the table of regions. -/
theorem returns_regions (returned : call.returns fuel system.heap = some (ptr, heap)) :
    heap.regions = system.heap.regions := by
  cases call with
  | malloc size => exact mallocRtos_regions returned
  | calloc num size =>
      simp only [AllocCall.returns, callocRtos] at returned
      split at returned
      · simp at returned
      · rename_i newPtr between allocated
        have same := mallocRtos_regions allocated
        split at returned <;> obtain ⟨_, rfl⟩ := Prod.mk.inj (Option.some.inj returned) <;>
          exact same
  | realloc old newSize =>
      simp only [AllocCall.returns, reallocRtos] at returned
      split at returned
      · exact mallocRtos_regions returned
      split at returned
      · obtain ⟨_, rfl⟩ := Prod.mk.inj (Option.some.inj returned)
        exact freeRtos_regions _ _
      split at returned
      · obtain ⟨_, rfl⟩ := Prod.mk.inj (Option.some.inj returned)
        rfl
      split at returned
      · obtain ⟨_, rfl⟩ := Prod.mk.inj (Option.some.inj returned)
        rfl
      split at returned
      · simp at returned
      rename_i newPtr between allocated
      have same := mallocRtos_regions allocated
      split at returned
      · obtain ⟨_, rfl⟩ := Prod.mk.inj (Option.some.inj returned)
        exact same
      · obtain ⟨_, rfl⟩ := Prod.mk.inj (Option.some.inj returned)
        rw [freeRtos_regions]
        exact same

/-- A pointer that a call returns is owned afterwards. -/
theorem mem_liveAfter (isOwned : call.Owned system.live)
    (returned : call.returns fuel system.heap = some (ptr, heap)) (notNull : ptr ≠ 0) :
    ptr ∈ call.liveAfter system.live ptr := by
  have isNew : ptr ∈ owned system.live ptr := by
    rw [owned, if_neg notNull]
    exact List.mem_cons_self ..
  cases call with
  | malloc size => exact isNew
  | calloc num size => exact isNew
  | realloc old newSize =>
      simp only [AllocCall.returns] at returned
      simp only [AllocCall.liveAfter, reallocated]
      split
      case isTrue => exact isNew
      case isFalse oldNe =>
        split
        case isTrue isZero =>
          rw [reallocRtos, if_neg oldNe, if_pos isZero] at returned
          exact absurd (Prod.mk.inj (Option.some.inj returned)).1.symm notNull
        case isFalse =>
          split
          case isTrue same =>
            obtain rfl := same.resolve_left notNull
            exact isOwned.resolve_left notNull
          case isFalse => exact List.mem_cons_self ..

/-- The request of a call that has taken a block does not wrap around. -/
theorem RequestFits.taken (fits : RequestFits system call)
    (invariant : HeapInvariant system chain) {request : Nat} {region : HeapRegion}
    {before rest : List Block} {block : Block}
    (isRequest : request ∈ allocRequest system call.op) (notZero : request ≠ 0)
    (taken : Taken system chain fuel request ptr heap region before rest block) :
    call.requested + 39 < uint32Size :=
  fits request isRequest notZero
    (invariant.hasRoom (Nat.ne_of_gt (taken.start_pos invariant)) taken.searched)

/-- A call whose request does not wrap around writes inside its block. -/
theorem RequestFits.contained (fits : RequestFits system call) (isOwned : call.Owned system.live)
    (invariant : HeapInvariant system chain) : ContainedCall system call.op := by
  have bound : ∀ request ∈ allocRequest system call.op, request ≠ 0 → ∀ block,
      Finds system request block → call.requested + 39 < uint32Size := by
    rintro request isRequest notZero block ⟨notNull, _, searched⟩
    exact fits request isRequest notZero (invariant.hasRoom notNull searched)
  cases call with
  | malloc size => exact ⟨trivial, fun request _ _ _ => (allocSize_large request).2⟩
  | calloc num size =>
      refine ⟨trivial, fun request isRequest block finds => ?_⟩
      have isTotal : num * size % uintptrSize = request := Option.some.inj isRequest
      have large := (allocSize_large request).2
      by_cases isZero : request = 0
      · simp only [AllocCall.op, writtenBytes, isTotal, isZero] at large ⊢
        unfold heapMinBlockSize blockHeaderSize at *
        omega
      · have small : num * size + 39 < uint32Size := bound request isRequest isZero block finds
        have total : num * size % uintptrSize = num * size := by
          unfold uint32Size uintptrSize at *
          omega
        rw [total] at isTotal
        simp only [AllocCall.op, writtenBytes, total]
        exact isTotal ▸ allocSize_room small
  | realloc old newSize =>
      refine ⟨isOwned, fun request isRequest block finds => ?_⟩
      have small := bound request isRequest
      have large := (allocSize_large request).2
      simp only [AllocCall.op, allocRequest, writtenBytes] at isRequest ⊢
      by_cases isNull : old = 0
      · rw [if_pos isNull, Nat.zero_add]
        exact large
      · rw [if_neg isNull] at isRequest ⊢
        split at isRequest
        · simp at isRequest
        · rename_i larger
          obtain rfl : newSize = request := Option.some.inj isRequest
          have room : newSize + blockHeaderSize ≤ allocSize newSize :=
            allocSize_room (small (fun isZero => larger (.inl isZero)) block finds)
          omega

/-- `malloc_rtos` of the number of bytes that the caller wants. -/
theorem RequestFits.malloc_enough (fits : RequestFits system call)
    (invariant : HeapInvariant system chain)
    (isRequest : call.requested ∈ allocRequest system call.op)
    (returned : mallocRtos fuel system.heap call.requested = some (ptr, heap)) (notNull : ptr ≠ 0) :
    call.requested ≤ payloadSize heap.memory ptr := by
  rcases invariant.malloc_cases returned with ⟨isNull, _⟩ | ⟨_, _, _, _, taken⟩
  · exact absurd isNull notNull
  · by_cases isZero : call.requested = 0
    · exact Nat.le_trans (Nat.le_of_eq isZero) (Nat.zero_le _)
    · have room := allocSize_room (fits.taken invariant isRequest isZero taken)
      have payload := taken.room
      omega

/-- What a call returns has the size of its rounded request. -/
theorem RequestFits.enough (fits : RequestFits system call) (isOwned : call.Owned system.live)
    (invariant : HeapInvariant system chain)
    (returned : call.returns fuel system.heap = some (ptr, heap)) (notNull : ptr ≠ 0) :
    call.requested ≤ payloadSize heap.memory ptr := by
  cases call with
  | malloc size => exact fits.malloc_enough invariant rfl returned notNull
  | calloc num size =>
      simp only [AllocCall.returns, callocRtos] at returned
      split at returned
      · simp at returned
      rename_i newPtr between allocated
      split at returned
      case isFalse isNull =>
        obtain ⟨rfl, _⟩ := Prod.mk.inj (Option.some.inj returned)
        exact absurd notNull isNull
      obtain ⟨rfl, rfl⟩ := Prod.mk.inj (Option.some.inj returned)
      have notZero : num * size % uintptrSize ≠ 0 := by
        intro isZero
        rw [mallocRtos, if_pos isZero] at allocated
        exact notNull (Prod.mk.inj (Option.some.inj allocated)).1.symm
      rcases invariant.malloc_cases allocated with ⟨isNull, _⟩ | ⟨_, _, _, _, taken⟩
      · exact absurd isNull notNull
      have small := fits.taken invariant rfl notZero taken
      simp only [AllocCall.requested] at small ⊢
      have total : num * size % uintptrSize = num * size := by
        unfold uint32Size uintptrSize at *
        omega
      have payload := taken.room
      have isPtr := taken.isPtr
      rw [total] at payload ⊢
      have room := allocSize_room small
      have sameSize : payloadSize (between.memory.fill newPtr (num * size) 0) newPtr =
          payloadSize between.memory newPtr :=
        payloadSize_congr (by omega) fun address front => Memory.fill_outside (.inl front)
      omega
  | realloc old newSize =>
      simp only [AllocCall.returns] at returned
      by_cases isNull : old = 0
      · have isRequest : newSize ∈ allocRequest system (.realloc old newSize) := by
          simp [allocRequest, isNull]
        rw [reallocRtos, if_pos isNull] at returned
        exact fits.malloc_enough invariant isRequest returned notNull
      have isLive : old ∈ system.live := isOwned.resolve_left isNull
      by_cases isZero : newSize = 0
      · exact Nat.le_trans (Nat.le_of_eq isZero) (Nat.zero_le _)
      rcases invariant.reallocRtos_cases isLive isZero returned with ⟨failed, _⟩ |
        ⟨rfl, rfl, enough⟩ | ⟨_, _, _, _, between, taken, larger, rfl⟩
      · exact absurd failed notNull
      · exact enough
      have isRequest : newSize ∈ allocRequest system (.realloc old newSize) := by
        simp [allocRequest, isNull, isZero, larger]
      have room := allocSize_room (fits.taken invariant isRequest isZero taken)
      have payload := taken.room
      simp only [AllocCall.requested] at room ⊢
      obtain ⟨copied, sameSize⟩ := taken.copied invariant old
        (show payloadSize system.heap.memory old ≤ payloadSize between.memory ptr by omega)
      obtain ⟨_, _, _, _, released⟩ := copied.free_released (List.mem_cons_of_mem ptr isLive)
      have newNe : ptr ≠ old := fun same => taken.fresh invariant (same ▸ isLive)
      have kept := (released.frame copied (List.mem_cons_self ..) newNe).size_eq
      dsimp only at kept
      omega

/-- A payload inside a region has fewer bytes than the request can wrap around
at. -/
theorem HoldsRequest.small {requested : Nat} (holds : HoldsRequest heap ptr requested)
    (sameRegions : heap.regions = system.heap.regions)
    (invariant : HeapInvariant system chain) : requested + 39 < uint32Size := by
  obtain ⟨⟨region, regionMem, lower, upper⟩, enough⟩ := holds
  rw [sameRegions] at regionMem
  have sizeLt := (invariant.fits region regionMem).size
  have aligned := (invariant.chains region regionMem).tiles.dvd
  unfold blockHeaderSize heapAlignment uint32Size at *
  omega

end Capacity

/-- In every heap reached by contained calls an allocating call returns, and
what it returns holds what was requested exactly when its request fits. -/
theorem capacity_iff (heap : Heap) {start size type : Nat} (positive : 0 < start)
    (sizeLt : size < uint32Size) (addressLt : start + size < uintptrSize)
    (aligned : AlignedInside start size) (typed : heapType2 ≤ type ∧ type ≤ heapType5)
    {system : HeapSystem}
    (run : HeapSystem.Reachable ContainedCall (.init heap start size type) system)
    {call : AllocCall} (isOwned : call.Owned system.live) :
    ∃ ptr last, call.returns uint32Size system.heap = some (ptr, last) ∧
      ((ptr ≠ 0 → HoldsRequest last ptr call.requested) ↔ RequestFits system call) := by
  obtain ⟨chain, invariant⟩ := heapInvariant_of_contained id
    (heapInvariant_init heap positive sizeLt addressLt aligned typed) run
  obtain ⟨after, executed⟩ := invariant.exec_total call.op
  rw [exec_op] at executed
  obtain ⟨⟨ptr, last⟩, returned, _⟩ := Option.map_eq_some_iff.mp executed
  refine ⟨ptr, last, returned, fun holds request isRequest notZero room => ?_,
    fun fits notNull => ?_⟩
  · have notNull := invariant.returns_ne_zero isOwned isRequest notZero room returned
    exact (holds notNull).small (returns_regions returned) invariant
  · have stepped : system.exec uint32Size call.op =
        some { heap := last, live := call.liveAfter system.live ptr } := by
      rw [exec_op, returned, Option.map_some]
    obtain ⟨_, kept⟩ := invariant.step (fits.contained isOwned invariant) stepped
    exact ⟨kept.wellFormed.inside ptr (mem_liveAfter isOwned returned notNull),
      fits.enough isOwned invariant returned notNull⟩

theorem capacity_iff_grown :
    ∃ system, HeapSystem.Reachable ContainedCall (.init staticHeap 4096 256 heapType4) system ∧
      4128 ∈ system.live ∧ ∃ ptr last,
        reallocRtos uint32Size system.heap 4128 40 = some (ptr, last) ∧
          ((ptr ≠ 0 → HoldsRequest last ptr 40) ↔ RequestFits system (.realloc 4128 40)) := by
  obtain ⟨system, run, isLive⟩ := exists_reachable_small
    (.init staticHeap 4096 256 heapType4) 4 [.malloc 16, .malloc 72]
    (fun system => 4128 ∈ system.live) (by decide +kernel)
  have contained := run.mono fun call => call.contained
  have isOwned : (AllocCall.realloc 4128 40).Owned system.live := .inr isLive
  exact ⟨system, contained, isLive, capacity_iff staticHeap (by decide) (by decide) (by decide)
    (by decide) (by decide) contained isOwned⟩

/-- A request of eight bytes more than four gigabytes gets a payload of eight
bytes. -/
theorem capacity_truncated :
    ¬∀ system, HeapSystem.Reachable AddsAligned (.init staticHeap 4096 256 heapType4) system →
      ∀ call : AllocCall, call.Owned system.live → ∀ fuel ptr last,
        call.returns fuel system.heap = some (ptr, last) → ptr ≠ 0 →
          call.requested ≤ payloadSize last.memory ptr := by
  intro holds
  obtain ⟨⟨ptr, last⟩, returned, notNull, small⟩ :
      ∃ result ∈ (AllocCall.malloc 4294967304).returns 4
          (HeapSystem.init staticHeap 4096 256 heapType4).heap,
        result.1 ≠ 0 ∧ payloadSize result.2.memory result.1 = 8 := by
    decide +kernel
  have enough := holds _ .refl (.malloc 4294967304) trivial 4 ptr last returned notNull
  dsimp only at small
  rw [small] at enough
  simp [AllocCall.requested] at enough

end Rtos

end MiniIotRobotEdge

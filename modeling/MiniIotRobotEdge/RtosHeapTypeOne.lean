import Mathlib.Algebra.BigOperators.Group.List.Basic
import MiniIotRobotEdge.RtosHeapRegions

/-!
# The allocate-only heap

For `HEAP_TYPE_1` the function `block_alloc` returns the head of the free list
without looking at the block, and nothing takes the head off that list.  Every
request gets the first block of the region.
-/

namespace MiniIotRobotEdge

namespace Rtos

/-- A request with the pointer that `malloc_rtos` has returned for it. -/
structure Allocation where
  request : Nat
  ptr : Nat
  deriving DecidableEq

/-- The results of a sequence of requests. -/
def mallocAll (fuel : Nat) : Heap → List Nat → Option (List Allocation)
  | _, [] => some []
  | heap, request :: rest =>
      match mallocRtos fuel heap request with
      | none => none
      | some (ptr, heap) => (mallocAll fuel heap rest).map (⟨request, ptr⟩ :: ·)

/-- The bytes of a region that a request takes. -/
def roundedRequest (request : Nat) : Nat :=
  (request + blockHeaderSize + heapAlignment - 1) / heapAlignment * heapAlignment

/-- The bytes that the successful requests have taken. -/
def takenBytes (allocations : List Allocation) : Nat :=
  (allocations.map fun allocation =>
    if allocation.ptr = 0 then 0 else roundedRequest allocation.request).sum

/-- The payloads lie in the region and do not overlap, and a request that is
larger than what is left fails. -/
structure AllocatesOnce (region : HeapRegion) (allocations : List Allocation) : Prop where
  disjoint : allocations.Pairwise fun first second => first.ptr ≠ 0 → second.ptr ≠ 0 →
    first.ptr + first.request ≤ second.ptr ∨ second.ptr + second.request ≤ first.ptr
  inside : ∀ allocation ∈ allocations, allocation.ptr ≠ 0 →
    region.start ≤ allocation.ptr ∧ allocation.ptr + allocation.request ≤ region.stop
  exhausted : ∀ earlier allocation later, allocations = earlier ++ allocation :: later →
    region.stop - region.start < takenBytes earlier + roundedRequest allocation.request →
    allocation.ptr = 0

section Requests

variable {heap : Heap} {region : HeapRegion} {requests : List Nat}

/-- The pointer that every request gets. -/
def firstPayload (region : HeapRegion) (request : Nat) : Nat :=
  if request = 0 ∨ region.freeList = 0 then 0 else region.freeList + blockHeaderSize

theorem mallocRtos_typeOne (typed : heap.heapType = heapType1) (single : heap.regions = [region])
    (fuel request : Nat) : ∃ after, mallocRtos fuel heap request =
      some (firstPayload region request, after) ∧ after.heapType = heapType1 ∧
        after.regions = [region] := by
  unfold mallocRtos firstPayload
  by_cases isZero : request = 0
  · rw [if_pos isZero, if_pos (.inl isZero)]
    exact ⟨heap, rfl, typed, single⟩
  have searched : allocFromRegions fuel heap.memory heap.heapType (allocSize request)
      heap.regions = some region.freeList := by
    rw [single, allocFromRegions, blockAlloc, if_pos typed]
    split
    · rename_i impossible
      simp at impossible
    · rename_i isNull
      rw [allocFromRegions, ← isNull]
    · rename_i isStart
      rw [isStart]
  rw [if_neg isZero, searched]
  split
  · rename_i impossible
    simp at impossible
  · rename_i isNull
    rw [if_pos (.inr (Option.some.inj isNull))]
    exact ⟨heap, rfl, typed, single⟩
  · rename_i notNull isStart
    obtain rfl := Option.some.inj isStart
    rw [if_neg (not_or.mpr ⟨isZero, notNull⟩)]
    exact ⟨_, rfl, typed, single⟩

theorem mallocAll_typeOne (typed : heap.heapType = heapType1) (single : heap.regions = [region])
    (fuel : Nat) (requests : List Nat) : mallocAll fuel heap requests =
      some (requests.map fun request => ⟨request, firstPayload region request⟩) := by
  induction requests generalizing heap with
  | nil => rfl
  | cons request rest ih =>
      obtain ⟨after, returned, stillTyped, stillSingle⟩ :=
        mallocRtos_typeOne typed single fuel request
      rw [mallocAll, returned]
      dsimp only
      rw [ih stillTyped stillSingle]
      rfl

/-- A region without blocks serves no request. -/
theorem allocatesOnce_of_empty (noBlock : region.freeList = 0) (requests : List Nat) :
    AllocatesOnce region (requests.map fun request => ⟨request, firstPayload region request⟩) := by
  have allNull : ∀ request, firstPayload region request = 0 :=
    fun request => if_pos (.inr noBlock)
  refine ⟨?_, ?_, ?_⟩
  · refine List.pairwise_map.mpr (List.pairwise_iff_forall_sublist.mpr fun _ notNull => ?_)
    exact absurd (allNull _) notNull
  · intro allocation isMember notNull
    obtain ⟨request, _, rfl⟩ := List.mem_map.mp isMember
    exact absurd (allNull request) notNull
  · intro earlier allocation later isSplit _
    have isMember : allocation ∈ earlier ++ allocation :: later := by simp
    rw [← isSplit] at isMember
    obtain ⟨request, _, rfl⟩ := List.mem_map.mp isMember
    exact allNull request

/-- A region serves one request that fits into it. -/
theorem allocatesOnce_iff_of_block (notNull : region.freeList ≠ 0)
    (isFirst : region.freeList = region.start) :
    AllocatesOnce region (requests.map fun request => ⟨request, firstPayload region request⟩) ↔
      requests.Pairwise (fun first second => first = 0 ∨ second = 0) ∧
        ∀ request ∈ requests, request ≠ 0 →
          roundedRequest request ≤ region.stop - region.start := by
  have payload : ∀ request, request ≠ 0 →
      firstPayload region request = region.start + blockHeaderSize := by
    intro request notZero
    rw [firstPayload, if_neg (not_or.mpr ⟨notZero, notNull⟩), isFirst]
  have zero : firstPayload region 0 = 0 := if_pos (.inl rfl)
  constructor
  · rintro ⟨disjoint, _, exhausted⟩
    constructor
    · refine (List.pairwise_map.mp disjoint).imp fun {first second} apart => ?_
      by_contra bothTaken
      obtain ⟨firstNe, secondNe⟩ := not_or.mp bothTaken
      simp only [payload first firstNe, payload second secondNe] at apart
      unfold blockHeaderSize at apart
      omega
    · intro request isMember notZero
      by_contra tooLarge
      obtain ⟨front, back, rfl⟩ := List.append_of_mem isMember
      have failed : firstPayload region request = 0 :=
        exhausted _ ⟨request, firstPayload region request⟩ _
          (by rw [List.map_append, List.map_cons])
          (Nat.lt_of_lt_of_le (Nat.lt_of_not_le tooLarge) (Nat.le_add_left _ _))
      rw [payload request notZero] at failed
      exact Nat.succ_ne_zero _ failed
  · rintro ⟨single, fits⟩
    refine ⟨?_, ?_, ?_⟩
    · refine List.pairwise_map.mpr (single.imp fun {first second} oneZero firstNe secondNe => ?_)
      rcases oneZero with rfl | rfl
      · exact absurd zero firstNe
      · exact absurd zero secondNe
    · intro allocation isMember taken
      obtain ⟨request, requestMem, rfl⟩ := List.mem_map.mp isMember
      have notZero : request ≠ 0 := by
        rintro rfl
        exact taken zero
      have room := fits request requestMem notZero
      dsimp only
      rw [payload request notZero]
      unfold roundedRequest blockHeaderSize heapAlignment at room
      unfold blockHeaderSize
      omega
    · intro earlier allocation later isSplit tooLarge
      obtain ⟨front, rest, rfl, isEarlier, isRest⟩ := List.map_eq_append_iff.mp isSplit
      obtain ⟨request, back, rfl, rfl, _⟩ := List.map_eq_cons_iff.mp isRest
      by_contra taken
      have notZero : request ≠ 0 := by
        rintro rfl
        exact taken zero
      have noneTaken : takenBytes earlier = 0 := by
        rw [← isEarlier, takenBytes, List.map_map]
        apply List.sum_eq_zero
        intro bytes isMember
        obtain ⟨other, otherMem, rfl⟩ := List.mem_map.mp isMember
        have oneZero := (List.pairwise_append.mp single).2.2 other otherMem request (by simp)
        rw [oneZero.resolve_right notZero]
        show (if firstPayload region 0 = 0 then 0 else roundedRequest 0) = 0
        exact if_pos zero
      have room := fits request (by simp) notZero
      dsimp only at tooLarge
      omega

end Requests

/-- `heap_init` makes a region of the buffer, with its first block not at the
null pointer. -/
def MakesRegion (start size : Nat) : Prop :=
  start + heapAlignment - 1 < uintptrSize ∧
    (AlignedInside start size → heapMinBlockSize * 2 ≤ alignedRoom start size)

/-- The allocate-only heap serves requests as it should exactly when it serves at most
one. -/
theorem allocatesOnce_iff (heap : Heap) {start size : Nat} (positive : 0 < start)
    (sizeLt : size < uint32Size) (addressLt : start + size < uintptrSize) (fuel : Nat)
    (requests : List Nat) :
    ∃ region allocations, (heapInit heap start size heapType1).regions = [region] ∧
      mallocAll fuel (heapInit heap start size heapType1) requests = some allocations ∧
      (AllocatesOnce region allocations ↔ (MakesRegion start size →
        requests.Pairwise (fun first second => first = 0 ∨ second = 0) ∧
          ∀ request ∈ requests, request ≠ 0 →
            roundedRequest request ≤ alignedRoom start size)) := by
  have typed : heapType1 ≤ heapType1 ∧ heapType1 ≤ heapType5 := by decide
  have startEq : start + heapAlignment - 1 < uintptrSize →
      (bufferRegion start size).start = (start + 7) / 8 * 8 := by
    intro inRange
    rw [bufferRegion, Nat.mod_eq_of_lt inRange]
    rfl
  have stopEq : (bufferRegion start size).stop = (start + size) / 8 * 8 := by
    rw [bufferRegion, Nat.mod_eq_of_lt addressLt]
    rfl
  rcases Nat.lt_or_ge (usableSize start size) (heapMinBlockSize * 2) with small | large
  · have created : heapInit heap start size heapType1 =
        { heap with heapType := heapType1, stats := {}, regions := [{}] } := by
      rw [heapInit, if_pos typed, heapRegionInit_small _ _ small]
    refine ⟨{}, _, by rw [created], mallocAll_typeOne (by rw [created]) (by rw [created]) fuel
      requests, fun _ makes => ?_, fun _ => allocatesOnce_of_empty rfl requests⟩
    have aligned : AlignedInside start size := by
      by_contra notAligned
      rw [usableSize_of_not_aligned notAligned] at small
      exact absurd small (by decide)
    rw [usableSize_of_aligned sizeLt aligned] at small
    exact absurd (makes.2 aligned) (Nat.not_le.mpr small)
  · obtain ⟨memory, initialised⟩ := heapRegionInit_large
      { heap with heapType := heapType1, stats := {}, regions := [] } {} large
    have created : heapInit heap start size heapType1 =
        { heap with
          memory := memory
          heapType := heapType1
          stats := ({} : HeapStats).add (usableSize start size)
          regions := [bufferRegion start size] } := by
      rw [heapInit, if_pos typed, initialised]
    refine ⟨bufferRegion start size, _, by rw [created],
      mallocAll_typeOne (by rw [created]) (by rw [created]) fuel requests, ?_⟩
    by_cases inRange : start + heapAlignment - 1 < uintptrSize
    case neg =>
      refine ⟨fun _ makes => absurd makes.1 inRange, fun _ => allocatesOnce_of_empty ?_ requests⟩
      unfold bufferRegion heapAlignment uintptrSize at *
      dsimp only
      omega
    have isStart := startEq inRange
    have makes : MakesRegion start size := by
      refine ⟨inRange, fun aligned => ?_⟩
      rwa [usableSize_of_aligned sizeLt aligned] at large
    rw [allocatesOnce_iff_of_block _ rfl, isStart, stopEq]
    · exact ⟨fun holds _ => holds, fun holds => holds makes⟩
    · show (bufferRegion start size).start ≠ 0
      omega

theorem allocatesOnce_iff_single :
    ∃ region allocations, (heapInit staticHeap 4096 256 heapType1).regions = [region] ∧
      mallocAll 0 (heapInit staticHeap 4096 256 heapType1) [0, 24] = some allocations ∧
      (AllocatesOnce region allocations ↔ (MakesRegion 4096 256 →
        [0, 24].Pairwise (fun first second => first = 0 ∨ second = 0) ∧
          ∀ request ∈ [0, 24], request ≠ 0 →
            roundedRequest request ≤ alignedRoom 4096 256)) :=
  allocatesOnce_iff staticHeap (by decide) (by decide) (by decide) 0 [0, 24]

/-- Two requests get the same pointer. -/
theorem allocatesOnce_twice :
    ¬∀ (requests : List Nat) (region : HeapRegion) (allocations : List Allocation),
      (heapInit staticHeap 4096 256 heapType1).regions = [region] →
      mallocAll 0 (heapInit staticHeap 4096 256 heapType1) requests = some allocations →
      AllocatesOnce region allocations := by
  intro holds
  have returned : mallocAll 0 (heapInit staticHeap 4096 256 heapType1) [8, 8] =
      some [⟨8, 4128⟩, ⟨8, 4128⟩] := by decide +kernel
  have regions : (heapInit staticHeap 4096 256 heapType1).regions = [⟨4096, 4352, 4096⟩] := by
    decide +kernel
  have disjoint := (holds _ _ _ regions returned).disjoint
  simp at disjoint

end Rtos

end MiniIotRobotEdge

import MiniIotRobotEdge.RtosHeapSafety
import MiniIotRobotEdge.RtosQueueFifo

/-!
# Queues from the heap are bounded lists

`queue_create` takes the structure and the buffer of a queue from the heap.
On a heap of types 2 to 5 the two payloads do not overlap, and they are large
enough unless the size of the buffer wraps around in `malloc_rtos`; then every
sequence of calls does what it does on the bounded list.  A heap of type 1
hands out the same block twice.
-/

namespace MiniIotRobotEdge

namespace Rtos

/-- The fields that `queue_create` writes after the second allocation. -/
def initQueue (memory : Memory) (q buffer itemSize maxItems : Nat)
    (name : Option (List UInt8)) : Memory :=
  let memory := setQueueBuffer memory q buffer
  let memory := setQueueItemSize memory q itemSize
  let memory := setQueueMaxItems memory q maxItems
  let memory := setQueueIsrSafe memory q 1
  match name with
  | none => memory
  | some name => setQueueName memory q name

/-- A queue that was created consists of two allocations. -/
theorem queueCreate_cases {fuel itemSize maxItems q : Nat} {heap after : Heap}
    {name : Option (List UInt8)}
    (created : queueCreate fuel heap itemSize maxItems name = some (q, after))
    (notNull : q ≠ 0) :
    0 < itemSize ∧ 0 < maxItems ∧ ∃ first second buffer,
      mallocRtos fuel heap queueStructSize = some (q, first) ∧
      mallocRtos fuel { first with memory := first.memory.fill q queueStructSize 0 }
        (itemSize * maxItems % uint32Size) = some (buffer, second) ∧
      buffer ≠ 0 ∧
      after = { second with
        memory := initQueue second.memory q buffer itemSize maxItems name } := by
  unfold queueCreate at created
  split at created
  · obtain ⟨rfl, _⟩ := Prod.mk.inj (Option.some.inj created)
    exact absurd rfl notNull
  · rename_i positive
    obtain ⟨itemsPositive, maxPositive⟩ := not_or.mp positive
    refine ⟨Nat.pos_of_ne_zero itemsPositive, Nat.pos_of_ne_zero maxPositive, ?_⟩
    split at created
    · simp at created
    · rename_i struct first allocated
      split at created
      · obtain ⟨rfl, _⟩ := Prod.mk.inj (Option.some.inj created)
        exact absurd rfl notNull
      · dsimp only at created
        split at created
        · simp at created
        · rename_i buffer second bufferAllocated
          split at created
          · obtain ⟨rfl, _⟩ := Prod.mk.inj (Option.some.inj created)
            exact absurd rfl notNull
          · rename_i bufferNotNull
            obtain ⟨rfl, rfl⟩ := Prod.mk.inj (Option.some.inj created)
            exact ⟨first, second, buffer, allocated, bufferAllocated, bufferNotNull, rfl⟩

section Init

variable {memory : Memory} {q buffer itemSize maxItems : Nat} {name : Option (List UInt8)}

/-- The fields behind `max_items` and in front of `isr_safe` are not written. -/
theorem initQueue_kept {offset width : Nat} (lower : 16 ≤ offset) (upper : offset + width ≤ 48) :
    (initQueue memory q buffer itemSize maxItems name).load (q + offset) width =
      memory.load (q + offset) width := by
  cases name <;>
    simp (disch := omega) only [initQueue, setQueueBuffer, setQueueItemSize, setQueueMaxItems,
      setQueueIsrSafe, setQueueName, Memory.load_writeBytes_apart, Memory.load_store_apart]

theorem initQueue_buffer (bound : buffer < uintptrSize) :
    queueBuffer (initQueue memory q buffer itemSize maxItems name) q = buffer := by
  have stored : (memory.store q 8 buffer).load q 8 = buffer := by
    rw [Memory.load_store_self]
    exact Nat.mod_eq_of_lt bound
  cases name <;>
    simp (disch := omega) only [initQueue, queueBuffer, setQueueBuffer, setQueueItemSize,
      setQueueMaxItems, setQueueIsrSafe, setQueueName, Memory.load_writeBytes_apart,
      Memory.load_store_apart, stored]

theorem initQueue_itemSize (bound : itemSize < uint32Size) :
    queueItemSize (initQueue memory q buffer itemSize maxItems name) q = itemSize := by
  have stored : ∀ memory : Memory,
      (memory.store (q + 8) 4 itemSize).load (q + 8) 4 = itemSize := by
    intro memory
    rw [Memory.load_store_self]
    exact Nat.mod_eq_of_lt bound
  cases name <;>
    simp (disch := omega) only [initQueue, queueItemSize, setQueueItemSize, setQueueMaxItems,
      setQueueIsrSafe, setQueueName, Memory.load_writeBytes_apart, Memory.load_store_apart, stored]

theorem initQueue_maxItems (bound : maxItems < uint32Size) :
    queueMaxItems (initQueue memory q buffer itemSize maxItems name) q = maxItems := by
  have stored : ∀ memory : Memory,
      (memory.store (q + 12) 4 maxItems).load (q + 12) 4 = maxItems := by
    intro memory
    rw [Memory.load_store_self]
    exact Nat.mod_eq_of_lt bound
  cases name <;>
    simp (disch := omega) only [initQueue, queueMaxItems, setQueueMaxItems, setQueueIsrSafe,
      setQueueName, Memory.load_writeBytes_apart, Memory.load_store_apart, stored]

end Init

namespace HeapInvariant

variable {system : HeapSystem} {chain : HeapRegion → List Block}

theorem address_lt (invariant : HeapInvariant system chain) {ptr : Nat}
    (isLive : ptr ∈ system.live) : ptr < uintptrSize := by
  obtain ⟨region, regionMem, block, blockMem, _, _, isPtr, _⟩ := invariant.payload isLive
  have bounds := (invariant.chains region regionMem).tiles.bounds.2 block blockMem
  have address := (invariant.fits region regionMem).address
  have room := block.header_le_stop
  omega

/-- Clearing a structure in a payload keeps the invariant and the payload's
size. -/
theorem fill (invariant : HeapInvariant system chain) {ptr length : Nat}
    (isLive : ptr ∈ system.live) (room : length ≤ payloadSize system.heap.memory ptr) :
    HeapInvariant { system with heap := { system.heap with
        memory := system.heap.memory.fill ptr length 0 } } chain ∧
      payloadSize (system.heap.memory.fill ptr length 0) ptr =
        payloadSize system.heap.memory ptr := by
  have kept : ∀ address, address < ptr ∨ ptr + payloadSize system.heap.memory ptr ≤ address →
      system.heap.memory.fill ptr length 0 address = system.heap.memory address := by
    intro address outside
    exact Memory.fill_outside (by omega)
  refine ⟨invariant.write isLive kept, ?_⟩
  obtain ⟨_, _, block, _, _, _, isPtr, _⟩ := invariant.payload isLive
  have sameHeader : header (system.heap.memory.fill ptr length 0) (ptr - blockHeaderSize) =
      header system.heap.memory (ptr - blockHeaderSize) := by
    refine header_congr fun address lower upper => kept address ?_
    omega
  rw [payloadSize, payloadSize, sameHeader]

/-- The two allocations of `queue_create`, whatever the size of the buffer is:
the structure stays cleared. -/
theorem queuePayloads (invariant : HeapInvariant system chain) {fuel size q buffer : Nat}
    {first second : Heap}
    (allocated : mallocRtos fuel system.heap queueStructSize = some (q, first))
    (bufferAllocated : mallocRtos fuel
      { first with memory := first.memory.fill q queueStructSize 0 } size =
        some (buffer, second))
    (notNull : q ≠ 0) (bufferNotNull : buffer ≠ 0) :
    (∃ last, HeapInvariant { heap := second, live := buffer :: q :: system.live } last) ∧
      (size + 39 < uint32Size → size ≤ payloadSize second.memory buffer) ∧
      queueStructSize ≤ payloadSize second.memory q ∧
      ∀ offset width, offset + width ≤ queueStructSize →
        second.memory.load (q + offset) width = 0 := by
  obtain ⟨_, structInvariant, fresh⟩ := invariant.malloc (by decide) allocated
  have structLive : q ∈ Rtos.owned system.live q := by simp [Rtos.owned, notNull]
  obtain ⟨clearedInvariant, structSize⟩ := structInvariant.fill structLive (fresh notNull).2
  obtain ⟨_, _, _, _, taken⟩ :=
    (clearedInvariant.malloc_cases bufferAllocated).resolve_left fun failed =>
      bufferNotNull failed.1
  have kept := clearedInvariant.malloc_frame bufferAllocated structLive
  have keptSize := kept.size_eq
  have structRoom : queueStructSize ≤ payloadSize second.memory q := by
    rw [keptSize, structSize]
    exact (fresh notNull).2
  have isOwned : Rtos.owned system.live q = q :: system.live := if_neg notNull
  have bufferInvariant := taken.keeps clearedInvariant
  dsimp only at bufferInvariant
  rw [isOwned] at bufferInvariant
  refine ⟨⟨_, bufferInvariant⟩, fun bound => ?_, structRoom, fun offset width inside => ?_⟩
  · have room := taken.room
    have requested := allocSize_room bound
    omega
  · have cleared : (first.memory.fill q queueStructSize 0).load (q + offset) width = 0 :=
      Memory.load_fill_zero (Nat.le_add_right _ _) (by omega)
    rw [← cleared]
    refine Memory.load_congr fun address lower upper => kept.bytes address (by omega) ?_
    rw [← keptSize]
    omega

/-- The payloads of the structure and the buffer do not overlap. -/
theorem queuePayloads_apart {heap : Heap} {q buffer : Nat} {live : List Nat}
    (invariant : HeapInvariant { heap := heap, live := buffer :: q :: live } chain) :
    buffer + payloadSize heap.memory buffer ≤ q ∨ q + payloadSize heap.memory q ≤ buffer :=
  List.rel_of_pairwise_cons invariant.wellFormed.disjoint (List.mem_cons_self ..)

/-- The structure stays cleared, and the buffer does not overlap it. -/
theorem queueBlocks (invariant : HeapInvariant system chain) {fuel size q buffer : Nat}
    {first second : Heap} (bound : size + 39 < uint32Size)
    (allocated : mallocRtos fuel system.heap queueStructSize = some (q, first))
    (bufferAllocated : mallocRtos fuel
      { first with memory := first.memory.fill q queueStructSize 0 } size =
        some (buffer, second))
    (notNull : q ≠ 0) (bufferNotNull : buffer ≠ 0) :
    buffer < uintptrSize ∧ QueueApart q buffer size ∧
      ∀ offset width, offset + width ≤ queueStructSize →
        second.memory.load (q + offset) width = 0 := by
  obtain ⟨⟨_, bufferInvariant⟩, enough, structRoom, cleared⟩ :=
    invariant.queuePayloads allocated bufferAllocated notNull bufferNotNull
  refine ⟨bufferInvariant.address_lt (List.mem_cons_self ..), ?_, cleared⟩
  have bufferRoom := enough bound
  have pair := bufferInvariant.queuePayloads_apart
  unfold QueueApart
  omega

/-- A created queue is empty, and its structure and its buffer are apart. -/
theorem queueCreate (invariant : HeapInvariant system chain) {fuel itemSize maxItems q : Nat}
    {after : Heap} {name : Option (List UInt8)} (fits : itemSize * maxItems + 39 < uint32Size)
    (created : queueCreate fuel system.heap itemSize maxItems name = some (q, after))
    (notNull : q ≠ 0) :
    ∃ base queue, QueueAt after.memory q base queue ∧
      QueueApart q base (queue.itemSize * queue.maxItems) ∧ queue.Consistent ∧
      queue.itemSize = itemSize ∧ queue.maxItems = maxItems ∧ queue.items = [] := by
  obtain ⟨itemsPositive, maxPositive, first, second, buffer, allocated, bufferAllocated,
    bufferNotNull, rfl⟩ := queueCreate_cases created notNull
  have noWrap : itemSize * maxItems % uint32Size = itemSize * maxItems :=
    Nat.mod_eq_of_lt (by omega)
  rw [noWrap] at bufferAllocated
  obtain ⟨bufferBound, apart, cleared⟩ :=
    invariant.queueBlocks fits allocated bufferAllocated notNull bufferNotNull
  have itemsLe : itemSize ≤ itemSize * maxItems := Nat.le_mul_of_pos_right _ maxPositive
  have maxLe : maxItems ≤ itemSize * maxItems := Nat.le_mul_of_pos_left _ itemsPositive
  have zero : ∀ offset width, 16 ≤ offset → offset + width ≤ 48 →
      (initQueue second.memory q buffer itemSize maxItems name).load (q + offset) width = 0 := by
    intro offset width lower upper
    rw [initQueue_kept lower upper]
    exact cleared offset width (by unfold queueStructSize; omega)
  refine ⟨buffer,
    { buffer := fun offset =>
        initQueue second.memory q buffer itemSize maxItems name (buffer + offset)
      itemSize := itemSize
      maxItems := maxItems }, ?_, apart, ?_, rfl, rfl, rfl⟩
  · exact
      { buffer := initQueue_buffer bufferBound
        itemSize := initQueue_itemSize (by omega)
        maxItems := initQueue_maxItems (by omega)
        head := zero 16 4 (by omega) (by omega)
        tail := zero 20 4 (by omega) (by omega)
        count := zero 24 4 (by omega) (by omega)
        senders := zero 32 8 (by omega) (by omega)
        receivers := zero 40 8 (by omega) (by omega)
        bytes := fun _ _ => rfl }
  · exact
      { positive := maxPositive
        bound := by
          dsimp only
          omega
        fits := by
          dsimp only
          omega
        tail := maxPositive
        count := Nat.zero_le _
        head := (Nat.zero_mod _).symm }

end HeapInvariant

/-- On a heap of types 2 to 5, a queue whose buffer size does not wrap around
in `malloc_rtos` gives back what the bounded list of its capacity gives back,
and its counters are the number of items and the space left. -/
theorem queue_refines_list (heap : Heap) {start size type : Nat} (positive : 0 < start)
    (sizeLt : size < uint32Size) (addressLt : start + size < uintptrSize)
    (aligned : AlignedInside start size) (typed : heapType2 ≤ type ∧ type ≤ heapType5)
    {system : HeapSystem}
    (run : HeapSystem.Reachable AddsAligned (.init heap start size type) system)
    {fuel itemSize maxItems q : Nat} {after : Heap} {name : Option (List UInt8)}
    (fits : itemSize * maxItems + 39 < uint32Size)
    (created : queueCreate fuel system.heap itemSize maxItems name = some (q, after))
    (notNull : q ≠ 0) (steps : Nat) (ops : List QueueOp) :
    ∃ last, queueRun steps after.memory q ops =
        some (last, (fifoRun itemSize maxItems [] ops).2) ∧
      queueMessagesWaiting last q = (fifoRun itemSize maxItems [] ops).1.length ∧
      queueMessagesWaiting last q + queueSpacesAvailable last q = maxItems := by
  obtain ⟨chain, invariant⟩ := heapInvariant_of_reachable
    (heapInvariant_init heap positive sizeLt addressLt aligned typed) run
  obtain ⟨base, queue, placed, apart, consistent, rfl, rfl, empty⟩ :=
    invariant.queueCreate fits created notNull
  obtain ⟨last, final, ran, placedLast, consistentLast, sameMax, isItems⟩ :=
    placed.run apart consistent steps ops
  rw [empty] at ran isItems
  have waiting : queueMessagesWaiting last q = final.count := placedLast.count
  refine ⟨last, ran, ?_, ?_⟩
  · rw [waiting, ← isItems, Queue.length_items]
  · have bound := consistentLast.bound
    have countLe := consistentLast.count
    rw [queueSpacesAvailable, placedLast.maxItems, placedLast.count, waiting, ← sameMax]
    unfold uint32Size at *
    omega

/-- Two items go through a queue of three items of two bytes. -/
theorem queue_refines_list_three :
    ∃ q after last,
      queueCreate 4 (HeapSystem.init staticHeap 4096 1024 heapType4).heap 2 3 none =
        some (q, after) ∧ q ≠ 0 ∧
      queueRun 0 after.memory q [.send [1, 2], .send [3, 4], .receive, .peek] =
        some (last, [{ result := 1 }, { result := 1 },
          { result := 1, delivered := some [1, 2] },
          { result := 1, delivered := some [3, 4] }]) ∧
      queueMessagesWaiting last q + queueSpacesAvailable last q = 3 := by
  have pointer : (queueCreate 4 (HeapSystem.init staticHeap 4096 1024 heapType4).heap 2 3
      none).map Prod.fst = some 4128 := by
    decide +kernel
  obtain ⟨⟨q, after⟩, created, isPointer⟩ := Option.map_eq_some_iff.mp pointer
  have notNull : q ≠ 0 := by
    rintro rfl
    simp at isPointer
  have aligned : AlignedInside 4096 1024 := by
    unfold AlignedInside
    decide
  obtain ⟨last, ran, _, whole⟩ := queue_refines_list staticHeap (by decide) (by decide)
    (by decide) aligned (by decide) .refl (by decide) created notNull 0
    [.send [1, 2], .send [3, 4], .receive, .peek]
  exact ⟨q, after, last, created, notNull, ran, whole⟩

/-- On a heap of type 1 the buffer of a queue lies over its structure, and the
header of the block behind the buffer over its counters: the first send to an
empty queue fails. -/
theorem queue_refines_list_type1 :
    ¬ ∀ fuel q after ops,
      queueCreate fuel (HeapSystem.init staticHeap 4096 256 heapType1).heap 1 1 none =
        some (q, after) → q ≠ 0 →
      (queueRun 0 after.memory q ops).map Prod.snd = some (fifoRun 1 1 [] ops).2 := by
  intro holds
  have refused : ((queueCreate 2 (HeapSystem.init staticHeap 4096 256 heapType1).heap 1 1
      none).bind fun made => (queueRun 0 made.2.memory made.1 [.send [7]]).map fun last =>
        (made.1, last.2)) = some (4128, [{ result := 0 }]) := by
    decide +kernel
  obtain ⟨⟨q, after⟩, created, sent⟩ := Option.bind_eq_some_iff.mp refused
  obtain ⟨last, ran, isLast⟩ := Option.map_eq_some_iff.mp sent
  obtain ⟨isPointer, outcomes⟩ := Prod.mk.inj isLast
  have notNull : q ≠ 0 := by omega
  have promised := holds 2 q after [.send [7]] created notNull
  rw [ran, Option.map_some, outcomes] at promised
  exact absurd promised (by decide)

end Rtos

end MiniIotRobotEdge

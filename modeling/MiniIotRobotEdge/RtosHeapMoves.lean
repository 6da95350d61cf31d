import MiniIotRobotEdge.RtosHeapRegions

/-!
# The heap calls as sequences of moves

A call of the heap interface adds a region, or it first takes a block, if it
takes one at all, and then writes into payloads and releases blocks.  What these moves
keep, every call keeps.  The calls need not be small: it is enough that the
bytes they write themselves fit into the block that they get.
-/

namespace MiniIotRobotEdge

namespace Rtos

open Relation

/-- The number of bytes that a call asks `malloc_rtos` for. -/
def allocRequest (system : HeapSystem) : HeapOp → Option Nat
  | .malloc size => some size
  | .calloc num size => some (num * size % uintptrSize)
  | .realloc ptr newSize =>
      if ptr = 0 then some newSize
      else if newSize = 0 ∨ newSize ≤ payloadSize system.heap.memory ptr then none
      else some newSize
  | _ => none

/-- The number of bytes that a call writes into the block it gets. -/
def writtenBytes (system : HeapSystem) : HeapOp → Nat
  | .calloc num size => num * size % uintptrSize
  | .realloc ptr _ => if ptr = 0 then 0 else payloadSize system.heap.memory ptr
  | _ => 0

/-- The search of `malloc_rtos` finds a block for a request. -/
def Finds (system : HeapSystem) (request block : Nat) : Prop :=
  block ≠ 0 ∧ ∃ fuel, allocFromRegions fuel system.heap.memory system.heap.heapType
    (allocSize request) system.heap.regions = some block

/-- A call that writes inside blocks only: its pointers are owned, buffers
become regions only if they are disjoint from the others and have an aligned
address, and what it writes fits into a block of the rounded size. -/
def ContainedCall (system : HeapSystem) (op : HeapOp) : Prop :=
  (match op with
    | .addRegion start size => HeapCall system (.addRegion start size) ∧
        (system.heap.regions.length < heapMaxRegions → AlignedInside start size)
    | .realloc ptr _ => ptr = 0 ∨ ptr ∈ system.live
    | .free ptr => ptr ∈ system.live
    | .write ptr offset _ => ptr ∈ system.live ∧ offset < payloadSize system.heap.memory ptr
    | _ => True) ∧
  ∀ request ∈ allocRequest system op, ∀ block, Finds system request block →
    writtenBytes system op + blockHeaderSize ≤ allocSize request

/-- The moves that follow an allocation. -/
inductive HeapMove : HeapSystem → HeapSystem → Prop
  | write {system : HeapSystem} {ptr : Nat} {changed : Memory} (isLive : ptr ∈ system.live)
      (kept : ∀ address, address < ptr ∨ ptr + payloadSize system.heap.memory ptr ≤ address →
        changed address = system.heap.memory address) :
      HeapMove system { system with heap := { system.heap with memory := changed } }
  | free {system : HeapSystem} {ptr : Nat} (isLive : ptr ∈ system.live) :
      HeapMove system { heap := freeRtos system.heap ptr, live := system.live.erase ptr }

section Exec

variable {system after : HeapSystem} {chain : HeapRegion → List Block} {fuel ptr : Nat}
  {op : HeapOp}

/-- `realloc_rtos` computes the payload of its block. -/
theorem HeapInvariant.oldSize_eq (invariant : HeapInvariant system chain)
    (isLive : ptr ∈ system.live) :
    ((header system.heap.memory (ptr - blockHeaderSize)).size + uint32Size - blockHeaderSize) %
      uint32Size = payloadSize system.heap.memory ptr := by
  obtain ⟨region, regionMem, block, blockMem, _, isStart, _, _⟩ := invariant.payload isLive
  have headerSize := ((invariant.chains region regionMem).marked block blockMem).size
  have sizeLt := header_size_lt system.heap.memory block.start
  have large := block.large
  rw [payloadSize, isStart]
  rw [headerSize] at sizeLt ⊢
  unfold uint32Size blockHeaderSize heapMinBlockSize at *
  omega

/-- A block that a call takes has room for what the call writes into it. -/
theorem ContainedCall.fits {size : Nat} {heap : Heap} {region : HeapRegion}
    {before rest : List Block} {block : Block} (contained : ContainedCall system op)
    (requested : size ∈ allocRequest system op)
    (taken : Taken system chain fuel size ptr heap region before rest block)
    (positive : 0 < block.start) : writtenBytes system op ≤ payloadSize heap.memory ptr := by
  have room := taken.room
  have found : Finds system size block.start := ⟨Nat.ne_of_gt positive, fuel, taken.searched⟩
  have enough := contained.2 size requested block.start found
  omega

/-- The first part of a call: nothing, or the block that its request takes. -/
def FirstMove (system : HeapSystem) (chain : HeapRegion → List Block) (fuel : Nat) (op : HeapOp)
    (first : HeapSystem) : Prop :=
  first = system ∨ ∃ request ∈ allocRequest system op, ∃ ptr heap region before rest block,
    Taken system chain fuel request ptr heap region before rest block ∧
      first = { heap := heap, live := ptr :: system.live }

theorem FirstMove.of_malloc (invariant : HeapInvariant system chain) {size : Nat} {heap : Heap}
    (requested : size ∈ allocRequest system op)
    (returned : mallocRtos fuel system.heap size = some (ptr, heap)) :
    FirstMove system chain fuel op { heap := heap, live := owned system.live ptr } := by
  rcases invariant.malloc_cases returned with ⟨rfl, rfl⟩ | ⟨region, before, rest, block, taken⟩
  · exact .inl rfl
  · rw [owned, if_neg taken.ptr_ne_zero]
    exact .inr ⟨size, requested, ptr, heap, region, before, rest, block, taken, rfl⟩

/-- A call is made of moves. -/
def MadeOfMoves (system : HeapSystem) (chain : HeapRegion → List Block) (fuel : Nat)
    (op : HeapOp) (after : HeapSystem) : Prop :=
  ∃ first, FirstMove system chain fuel op first ∧ ReflTransGen HeapMove first after

theorem MadeOfMoves.refl : MadeOfMoves system chain fuel op system :=
  ⟨system, .inl rfl, .refl⟩

theorem MadeOfMoves.single (move : HeapMove system after) :
    MadeOfMoves system chain fuel op after :=
  ⟨system, .inl rfl, .single move⟩

theorem Taken.start_pos {size : Nat} {heap : Heap} {region : HeapRegion}
    {before rest : List Block} {block : Block}
    (taken : Taken system chain fuel size ptr heap region before rest block)
    (invariant : HeapInvariant system chain) : 0 < block.start :=
  ((invariant.chains region taken.regionMem).start_pos
    (invariant.fits region taken.regionMem) taken.blockMem).1

theorem calloc_moves (invariant : HeapInvariant system chain) {num size result : Nat}
    {heap : Heap} (contained : ContainedCall system (.calloc num size))
    (returned : callocRtos fuel system.heap num size = some (result, heap)) :
    MadeOfMoves system chain fuel (.calloc num size)
      { heap := heap, live := owned system.live result } := by
  unfold callocRtos at returned
  dsimp only at returned
  split at returned
  · simp at returned
  rename_i newPtr between allocated
  rcases invariant.malloc_cases allocated with ⟨rfl, rfl⟩ | ⟨region, before, rest, block, taken⟩
  · rw [if_neg (by simp)] at returned
    obtain ⟨rfl, rfl⟩ := Prod.mk.inj (Option.some.inj returned)
    exact .refl
  · rw [if_pos taken.ptr_ne_zero] at returned
    obtain ⟨rfl, rfl⟩ := Prod.mk.inj (Option.some.inj returned)
    have room : num * size % uintptrSize ≤ payloadSize between.memory newPtr :=
      contained.fits rfl taken (taken.start_pos invariant)
    rw [owned, if_neg taken.ptr_ne_zero]
    refine ⟨{ heap := between, live := newPtr :: system.live },
      .inr ⟨_, rfl, newPtr, between, region, before, rest, block, taken, rfl⟩, ?_⟩
    refine .single (.write (List.mem_cons_self ..) fun address outside =>
      Memory.fill_outside ?_)
    dsimp only at outside
    omega

/-- `realloc_rtos` of an owned pointer keeps it, fails, or moves the contents
into a larger block before it releases the old one. -/
theorem HeapInvariant.reallocRtos_cases (invariant : HeapInvariant system chain)
    (isLive : ptr ∈ system.live) {newSize result : Nat} {heap : Heap} (notZero : newSize ≠ 0)
    (returned : reallocRtos fuel system.heap ptr newSize = some (result, heap)) :
    (result = 0 ∧ heap = system.heap ∧
      mallocRtos fuel system.heap newSize = some (0, system.heap)) ∨
    (result = ptr ∧ heap = system.heap ∧ newSize ≤ payloadSize system.heap.memory ptr) ∨
    ∃ region before rest block between,
      Taken system chain fuel newSize result between region before rest block ∧
      payloadSize system.heap.memory ptr < newSize ∧
      heap = freeRtos { between with
        memory := between.memory.copy result ptr (payloadSize system.heap.memory ptr) } ptr := by
  have notNull : ptr ≠ 0 := by
    obtain ⟨_, _, block, _, _, _, isPtr, _⟩ := invariant.payload isLive
    unfold blockHeaderSize at isPtr
    omega
  unfold reallocRtos at returned
  dsimp only at returned
  rw [if_neg notNull, if_neg notZero, if_neg (not_not.mpr (invariant.magic_eq isLive)),
    invariant.oldSize_eq isLive] at returned
  split at returned
  case isTrue fits =>
    obtain ⟨rfl, rfl⟩ := Prod.mk.inj (Option.some.inj returned)
    exact .inr (.inl ⟨rfl, rfl, fits⟩)
  case isFalse larger =>
    split at returned
    · simp at returned
    rename_i newPtr between allocated
    rcases invariant.malloc_cases allocated with ⟨rfl, rfl⟩ |
      ⟨region, before, rest, block, taken⟩
    · rw [if_pos rfl] at returned
      obtain ⟨rfl, rfl⟩ := Prod.mk.inj (Option.some.inj returned)
      exact .inl ⟨rfl, rfl, allocated⟩
    · rw [if_neg taken.ptr_ne_zero] at returned
      obtain ⟨rfl, rfl⟩ := Prod.mk.inj (Option.some.inj returned)
      exact .inr (.inr ⟨region, before, rest, block, between, taken, Nat.lt_of_not_le larger, rfl⟩)

theorem realloc_moves (invariant : HeapInvariant system chain) {newSize result : Nat}
    {heap : Heap} (contained : ContainedCall system (.realloc ptr newSize))
    (returned : reallocRtos fuel system.heap ptr newSize = some (result, heap)) :
    MadeOfMoves system chain fuel (.realloc ptr newSize)
      { heap := heap, live := reallocated system.live ptr newSize result } := by
  by_cases isNull : ptr = 0
  · have requested : newSize ∈ allocRequest system (.realloc ptr newSize) := by
      simp [allocRequest, isNull]
    rw [reallocRtos, if_pos isNull] at returned
    rw [reallocated, if_pos isNull]
    exact ⟨_, .of_malloc invariant requested returned, .refl⟩
  have isLive := contained.1.resolve_left isNull
  rw [reallocated, if_neg isNull]
  by_cases isZero : newSize = 0
  · rw [reallocRtos, if_neg isNull, if_pos isZero] at returned
    obtain ⟨rfl, rfl⟩ := Prod.mk.inj (Option.some.inj returned)
    rw [if_pos isZero]
    exact .single (.free isLive)
  rw [if_neg isZero]
  rcases invariant.reallocRtos_cases isLive isZero returned with ⟨rfl, rfl, _⟩ | ⟨rfl, rfl, _⟩ |
    ⟨region, before, rest, block, between, taken, larger, rfl⟩
  · rw [if_pos (.inl rfl)]
    exact .refl
  · rw [if_pos (.inr rfl)]
    exact .refl
  · have requested : newSize ∈ allocRequest system (.realloc ptr newSize) := by
      simp [allocRequest, isNull, isZero, larger]
    have room := contained.fits requested taken (taken.start_pos invariant)
    rw [writtenBytes, if_neg isNull] at room
    have newNe : result ≠ ptr := fun same => taken.fresh invariant (same ▸ isLive)
    have erased : (result :: system.live).erase ptr = result :: system.live.erase ptr :=
      List.erase_cons_tail (by simpa using newNe)
    rw [if_neg (by simp [taken.ptr_ne_zero, newNe]), ← erased]
    refine ⟨{ heap := between, live := result :: system.live },
      .inr ⟨_, requested, result, between, region, before, rest, block, taken, rfl⟩, ?_⟩
    refine .head (.write (List.mem_cons_self ..) fun address outside =>
      Memory.copy_outside ?_) (.single (.free (List.mem_cons_of_mem _ isLive)))
    dsimp only at outside
    omega

/-- Every contained call adds a region or is made of moves. -/
theorem exec_moves (invariant : HeapInvariant system chain) (contained : ContainedCall system op)
    (executed : system.exec fuel op = some after) :
    MadeOfMoves system chain fuel op after ∨ ∃ start size region blocks,
      op = .addRegion start size ∧ after.live = system.live ∧
        Added system chain start size after.heap region blocks := by
  cases op with
  | addRegion start size =>
      obtain rfl := Option.some.inj executed
      rcases invariant.addRegion_cases contained.1.1 contained.1.2 with
        full | ⟨region, blocks, added⟩
      · rw [full]
        exact .inl .refl
      · exact .inr ⟨start, size, region, blocks, rfl, rfl, added⟩
  | malloc size =>
      obtain ⟨⟨ptr, heap⟩, returned, rfl⟩ := Option.map_eq_some_iff.mp executed
      exact .inl ⟨_, .of_malloc invariant rfl returned, .refl⟩
  | calloc num size =>
      obtain ⟨⟨ptr, heap⟩, returned, rfl⟩ := Option.map_eq_some_iff.mp executed
      exact .inl (calloc_moves invariant contained returned)
  | realloc ptr newSize =>
      obtain ⟨⟨result, heap⟩, returned, rfl⟩ := Option.map_eq_some_iff.mp executed
      exact .inl (realloc_moves invariant contained returned)
  | free ptr =>
      obtain rfl := Option.some.inj executed
      exact .inl (.single (.free contained.1))
  | write ptr offset byte =>
      obtain rfl := Option.some.inj executed
      obtain ⟨isLive, inside⟩ := contained.1
      refine .inl (.single (.write isLive fun address outside => ?_))
      have elsewhere : address ≠ ptr + offset := by omega
      exact Function.update_of_ne elsewhere byte system.heap.memory

end Exec

/-- A property of heaps with their chains that survives every move. -/
structure MoveKept (property : HeapSystem → (HeapRegion → List Block) → Prop) : Prop where
  write : ∀ {system chain} {memory : Memory}, property system chain →
    property { system with heap := { system.heap with memory := memory } } chain
  free : ∀ {system chain ptr heap region before after block},
    Released system chain ptr heap region before after block → HeapInvariant system chain →
    property system chain → property { heap := heap, live := system.live.erase ptr }
      (Function.update chain region (released system.heap.heapType before block after))

namespace MoveKept

variable {property : HeapSystem → (HeapRegion → List Block) → Prop}
  {system after : HeapSystem} {chain : HeapRegion → List Block} {fuel : Nat} {op : HeapOp}

theorem move (kept : MoveKept property) (invariant : HeapInvariant system chain)
    (holds : property system chain) (moved : HeapMove system after) :
    ∃ chain', HeapInvariant after chain' ∧ property after chain' := by
  cases moved with
  | write isLive outside =>
      exact ⟨chain, invariant.write isLive outside, kept.write holds⟩
  | free isLive =>
      obtain ⟨region, before, rest, block, released⟩ := invariant.free_released isLive
      exact ⟨_, released.keeps invariant, kept.free released invariant holds⟩

/-- A call keeps the property if taking its block or adding its region does. -/
theorem exec (kept : MoveKept property) (invariant : HeapInvariant system chain)
    (holds : property system chain) (contained : ContainedCall system op)
    (executed : system.exec fuel op = some after)
    (allocated : ∀ request ∈ allocRequest system op, ∀ {ptr heap region before rest block},
      Taken system chain fuel request ptr heap region before rest block →
      property { heap := heap, live := ptr :: system.live }
        (Function.update chain region (before ++ (block.takenFor request ++ rest))))
    (added : ∀ {start size heap region blocks}, op = .addRegion start size →
      Added system chain start size heap region blocks →
      property { system with heap := heap } (Function.update chain region blocks)) :
    ∃ chain', HeapInvariant after chain' ∧ property after chain' := by
  rcases exec_moves invariant contained executed with
    ⟨first, started, moves⟩ | ⟨start, size, region, blocks, isAdd, sameLive, isAdded⟩
  · have base : ∃ chain', HeapInvariant first chain' ∧ property first chain' := by
      rcases started with rfl | ⟨request, requested, ptr, heap, region, before, rest, block, taken,
        rfl⟩
      · exact ⟨chain, invariant, holds⟩
      · exact ⟨_, taken.keeps invariant, allocated request requested taken⟩
    clear executed
    induction moves with
    | refl => exact base
    | tail _ moved ih =>
        obtain ⟨chain', keptInvariant, keptProperty⟩ := ih
        exact kept.move keptInvariant keptProperty moved
  · obtain ⟨heap, live⟩ := after
    obtain rfl : live = system.live := sameLive
    exact ⟨_, isAdded.keeps, added isAdd isAdded⟩

end MoveKept

/-- What holds after `heap_init` and survives every step holds in every state
of a run. -/
theorem HeapSystem.Reachable.invariant {property : HeapSystem → (HeapRegion → List Block) → Prop}
    {allowed : HeapSystem → HeapOp → Prop} {heap : Heap} {start size type : Nat}
    {system : HeapSystem} (positive : 0 < start) (sizeLt : size < uint32Size)
    (addressLt : start + size < uintptrSize) (aligned : AlignedInside start size)
    (typed : heapType2 ≤ type ∧ type ≤ heapType5)
    (base : ∀ {heap' region blocks},
      Added (.blank heap type) (fun _ => []) start size heap' region blocks →
      property { heap := heap', live := [] } (Function.update (fun _ => []) region blocks))
    (stepped : ∀ {before after : HeapSystem} {chain fuel op}, HeapInvariant before chain →
      property before chain → allowed before op → before.exec fuel op = some after →
      ∃ chain', HeapInvariant after chain' ∧ property after chain')
    (run : HeapSystem.Reachable allowed (.init heap start size type) system) :
    ∃ chain, HeapInvariant system chain ∧ property system chain := by
  induction run with
  | refl =>
      obtain ⟨region, blocks, added⟩ :=
        heapInit_added heap positive sizeLt addressLt aligned typed
      exact ⟨_, added.keeps, base added⟩
  | tail _ step ih =>
      obtain ⟨chain, invariant, holds⟩ := ih
      obtain ⟨fuel, op, permitted, executed⟩ := step
      exact stepped invariant holds permitted executed

namespace HeapInvariant

variable {system after : HeapSystem} {chain : HeapRegion → List Block} {fuel : Nat} {op : HeapOp}

/-- Every contained call keeps the invariant. -/
theorem step (invariant : HeapInvariant system chain) (contained : ContainedCall system op)
    (executed : system.exec fuel op = some after) : ∃ chain', HeapInvariant after chain' := by
  have kept : MoveKept fun _ _ => True := ⟨fun _ => trivial, fun _ _ _ => trivial⟩
  obtain ⟨chain', invariant', _⟩ := kept.exec invariant trivial contained executed
    (by intros; trivial) (by intros; trivial)
  exact ⟨chain', invariant'⟩

/-- Every call returns when the walks of the search have enough fuel. -/
theorem exec_total (invariant : HeapInvariant system chain) (op : HeapOp) :
    ∃ after, system.exec uint32Size op = some after := by
  cases op with
  | addRegion start size => exact ⟨_, rfl⟩
  | malloc size =>
      obtain ⟨ptr, heap, returned⟩ := invariant.malloc_total size
      exact ⟨_, by rw [HeapSystem.exec, returned, Option.map_some]⟩
  | calloc num size =>
      obtain ⟨ptr, heap, returned⟩ := invariant.malloc_total (num * size % uintptrSize)
      simp only [HeapSystem.exec, callocRtos, returned]
      split <;> exact ⟨_, rfl⟩
  | realloc ptr newSize =>
      obtain ⟨newPtr, heap, returned⟩ := invariant.malloc_total newSize
      simp only [HeapSystem.exec, reallocRtos, returned]
      split
      · exact ⟨_, rfl⟩
      split
      · exact ⟨_, rfl⟩
      split
      · exact ⟨_, rfl⟩
      split
      · exact ⟨_, rfl⟩
      split <;> exact ⟨_, rfl⟩
  | free ptr => exact ⟨_, rfl⟩
  | write ptr offset byte => exact ⟨_, rfl⟩

end HeapInvariant

/-- A heap reached by contained calls satisfies the invariant. -/
theorem heapInvariant_of_contained {allowed : HeapSystem → HeapOp → Prop}
    (contained : ∀ {system op}, allowed system op → ContainedCall system op)
    {initial system : HeapSystem} (started : ∃ chain, HeapInvariant initial chain)
    (run : HeapSystem.Reachable allowed initial system) :
    ∃ chain, HeapInvariant system chain := by
  induction run with
  | refl => exact started
  | tail _ step ih =>
      obtain ⟨chain, invariant⟩ := ih
      obtain ⟨fuel, op, permitted, executed⟩ := step
      exact invariant.step (contained permitted) executed

/-- The calls of a correct program with small requests are contained. -/
theorem AddsAligned.contained {system : HeapSystem} {op : HeapOp} (call : AddsAligned system op) :
    ContainedCall system op := by
  obtain ⟨call, aligned⟩ := call
  cases op with
  | addRegion start size => exact ⟨⟨call, aligned start size rfl⟩, by simp [allocRequest]⟩
  | malloc size =>
      refine ⟨trivial, fun request _ block _ => ?_⟩
      exact (allocSize_large request).2
  | calloc num size =>
      refine ⟨trivial, fun request requested block _ => ?_⟩
      have small : num * size + 39 < uint32Size := call
      have total : num * size % uintptrSize = num * size := by
        unfold uint32Size uintptrSize at *
        omega
      obtain rfl : num * size % uintptrSize = request := by simpa [allocRequest] using requested
      rw [writtenBytes, total]
      exact allocSize_room small
  | realloc ptr newSize =>
      obtain ⟨isOwned, small⟩ := call
      refine ⟨isOwned, fun request requested block _ => ?_⟩
      have room := allocSize_room small
      rw [allocRequest] at requested
      rw [writtenBytes]
      split at requested
      case isTrue isNull =>
        obtain rfl : newSize = request := by simpa using requested
        rw [if_pos isNull]
        omega
      case isFalse notNull =>
        rw [if_neg notNull]
        split at requested
        case isTrue => simp at requested
        case isFalse larger =>
          obtain rfl : newSize = request := by simpa using requested
          omega
  | free ptr => exact ⟨call, by simp [allocRequest]⟩
  | write ptr offset byte => exact ⟨call, by simp [allocRequest]⟩

end Rtos

end MiniIotRobotEdge

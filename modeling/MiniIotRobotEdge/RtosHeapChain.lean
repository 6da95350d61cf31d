import MiniIotRobotEdge.LinkedSegment
import MiniIotRobotEdge.RtosHeapHeaders

/-!
# The block chain of a heap region

A region is cut into blocks that follow each other without a gap, linked in
both directions through their headers.  Splitting a block, changing its flags
and merging it with its successor edit this list of blocks, and write nothing
but headers of blocks on it.
-/

namespace MiniIotRobotEdge

namespace Rtos

open LinkedSegment

/-- A block of a region; its size is aligned and not too small. -/
structure Block where
  start : Nat
  size : Nat
  free : Bool
  aligned : heapAlignment ∣ size
  large : heapMinBlockSize ≤ size

namespace Block

/-- The first address behind a block. -/
def stop (block : Block) : Nat := block.start + block.size

def mark (block : Block) (free : Bool) : Block :=
  { block with free := free }

def merge (left right : Block) : Block where
  start := left.start
  size := left.size + right.size
  free := left.free
  aligned := Nat.dvd_add left.aligned right.aligned
  large := Nat.le_add_right_of_le left.large

/-- The part of a block that a split keeps. -/
def front (block : Block) (size : Nat) (aligned : heapAlignment ∣ size)
    (large : heapMinBlockSize ≤ size) : Block :=
  { block with size := size, aligned := aligned, large := large }

/-- The part of a block that a split makes a block of its own. -/
def back (block : Block) (size : Nat) (aligned : heapAlignment ∣ size)
    (large : heapMinBlockSize ≤ block.size - size) : Block where
  start := block.start + size
  size := block.size - size
  free := true
  aligned := Nat.dvd_sub block.aligned aligned
  large := large

theorem header_le_stop (block : Block) : block.start + blockHeaderSize ≤ block.stop :=
  Nat.add_le_add_left block.large block.start

end Block

/-- The blocks follow each other from `first` up to `last`. -/
def Tiles : Nat → List Block → Nat → Prop
  | first, [], last => first = last
  | first, block :: rest, last => block.start = first ∧ Tiles block.stop rest last

namespace Tiles

variable {first last : Nat} {blocks before after : List Block} {block other : Block}

theorem append_iff : Tiles first (before ++ after) last ↔
    ∃ middle, Tiles first before middle ∧ Tiles middle after last := by
  induction before generalizing first with
  | nil => simp [Tiles]
  | cons head rest ih =>
      simp only [List.cons_append, Tiles, ih]
      constructor
      · rintro ⟨isFirst, middle, restTiles, afterTiles⟩
        exact ⟨middle, ⟨isFirst, restTiles⟩, afterTiles⟩
      · rintro ⟨middle, ⟨isFirst, restTiles⟩, afterTiles⟩
        exact ⟨isFirst, middle, restTiles, afterTiles⟩

/-- A tiling around one of its blocks. -/
theorem middle_iff : Tiles first (before ++ block :: after) last ↔
    Tiles first before block.start ∧ Tiles block.stop after last := by
  rw [append_iff]
  constructor
  · rintro ⟨middle, beforeTiles, isFirst, afterTiles⟩
    exact ⟨isFirst ▸ beforeTiles, afterTiles⟩
  · rintro ⟨beforeTiles, afterTiles⟩
    exact ⟨block.start, beforeTiles, rfl, afterTiles⟩

theorem bounds (tiles : Tiles first blocks last) :
    first ≤ last ∧ ∀ block ∈ blocks, first ≤ block.start ∧ block.stop ≤ last := by
  induction blocks generalizing first with
  | nil =>
      obtain rfl : first = last := tiles
      simp
  | cons head rest ih =>
      obtain ⟨rfl, restTiles⟩ := tiles
      obtain ⟨inOrder, within⟩ := ih restTiles
      have room := head.header_le_stop
      refine ⟨by omega, fun block isMember => ?_⟩
      rcases List.mem_cons.mp isMember with rfl | onRest
      · exact ⟨le_rfl, inOrder⟩
      · obtain ⟨lower, upper⟩ := within block onRest
        exact ⟨by omega, upper⟩

theorem length_le (tiles : Tiles first blocks last) :
    first + heapMinBlockSize * blocks.length ≤ last := by
  induction blocks generalizing first with
  | nil => exact Nat.le_of_eq tiles
  | cons head rest ih =>
      obtain ⟨rfl, restTiles⟩ := tiles
      have restBound := ih restTiles
      have large := head.large
      rw [Block.stop] at restBound
      rw [List.length_cons, Nat.mul_succ]
      omega

theorem dvd (tiles : Tiles first blocks last) : heapAlignment ∣ last - first := by
  induction blocks generalizing first with
  | nil =>
      obtain rfl : first = last := tiles
      simp
  | cons head rest ih =>
      obtain ⟨rfl, restTiles⟩ := tiles
      have inOrder := restTiles.bounds.1
      have aligned := Nat.dvd_add head.aligned (ih restTiles)
      rw [Block.stop] at inOrder aligned
      rwa [show last - head.start = head.size + (last - (head.start + head.size)) by omega]

/-- Of two blocks one lies in front of the other. -/
theorem apart (tiles : Tiles first blocks last) (blockMem : block ∈ blocks)
    (otherMem : other ∈ blocks) :
    block = other ∨ block.stop ≤ other.start ∨ other.stop ≤ block.start := by
  obtain ⟨before, after, rfl⟩ := List.append_of_mem blockMem
  obtain ⟨beforeTiles, afterTiles⟩ := middle_iff.mp tiles
  rcases List.mem_append.mp otherMem with onBefore | onAfter
  · exact .inr (.inr (beforeTiles.bounds.2 other onBefore).2)
  · rcases List.mem_cons.mp onAfter with rfl | onAfter
    · exact .inl rfl
    · exact .inr (.inl (afterTiles.bounds.2 other onAfter).1)

theorem headersApart (tiles : Tiles first blocks last) (blockMem : block ∈ blocks)
    (otherMem : other ∈ blocks) : HeadersApart block.start other.start := by
  have blockRoom := block.header_le_stop
  have otherRoom := other.header_le_stop
  unfold HeadersApart
  rcases tiles.apart blockMem otherMem with rfl | apart
  · exact .inl rfl
  · omega

theorem before_lt (tiles : Tiles first (before ++ block :: after) last)
    (otherMem : other ∈ before) : other.start < block.start := by
  have bound := ((middle_iff.mp tiles).1.bounds.2 other otherMem).2
  have room := other.header_le_stop
  unfold blockHeaderSize at room
  omega

theorem lt_after (tiles : Tiles first (before ++ block :: after) last)
    (otherMem : other ∈ after) : block.start < other.start := by
  have bound := ((middle_iff.mp tiles).2.bounds.2 other otherMem).1
  have room := block.header_le_stop
  unfold blockHeaderSize at room
  omega

theorem split {front back : Block} (tiles : Tiles first (before ++ block :: after) last)
    (frontStart : front.start = block.start) (backStart : back.start = front.stop)
    (sizes : front.size + back.size = block.size) :
    Tiles first (before ++ front :: back :: after) last := by
  obtain ⟨beforeTiles, afterTiles⟩ := middle_iff.mp tiles
  have sameStop : back.stop = block.stop := by
    rw [Block.stop, backStart, Block.stop, frontStart, Block.stop, Nat.add_assoc, sizes]
  rw [← frontStart] at beforeTiles
  rw [← sameStop] at afterTiles
  exact middle_iff.mpr ⟨beforeTiles, backStart, afterTiles⟩

theorem merge {left right : Block} (tiles : Tiles first (before ++ left :: right :: after) last) :
    Tiles first (before ++ left.merge right :: after) last := by
  obtain ⟨beforeTiles, rightStart, afterTiles⟩ := middle_iff.mp tiles
  have sameStop : right.stop = (left.merge right).stop := by
    simp only [Block.stop, Block.merge] at rightStart ⊢
    omega
  rw [sameStop] at afterTiles
  exact middle_iff.mpr ⟨beforeTiles, afterTiles⟩

end Tiles

/-- The header of a block says what the block is. -/
structure Marked (memory : Memory) (block : Block) : Prop where
  size : (header memory block.start).size = block.size
  free : (header memory block.start).free = if block.free then 1 else 0
  magic : (header memory block.start).magic =
    if block.free then blockMagicFree else blockMagicAlloc

/-- The chain of a region: its blocks in address order, tiling the region,
linked in both directions, with headers that describe them. -/
structure RegionChain (memory : Memory) (region : HeapRegion) (blocks : List Block) : Prop where
  tiles : Tiles region.start blocks region.stop
  linked : Segment (fun block => (header memory block).next)
    (fun block => (header memory block).prev) 0 (blocks.map Block.start) 0
  listed : region.freeList = (blocks.map Block.start).headD 0
  marked : ∀ block ∈ blocks, Marked memory block

/-- The blocks of a region have addresses and sizes that fit their types, and
none of them is at the null pointer. -/
structure HeapRegion.Fits (region : HeapRegion) : Prop where
  positive : region.start ≠ region.stop → 0 < region.start
  address : region.stop < uintptrSize
  size : region.stop < region.start + uint32Size

theorem Marked.of_header {memory changed : Memory} {block : Block} (marked : Marked memory block)
    (same : header changed block.start = header memory block.start) : Marked changed block := by
  obtain ⟨size, free, magic⟩ := marked
  rw [← same] at size free magic
  exact ⟨size, free, magic⟩

/-- The predecessor of a block is not part of its mark. -/
theorem Marked.of_prev {memory changed : Memory} {block : Block} {prev : Nat}
    (marked : Marked memory block)
    (same : header changed block.start = { header memory block.start with prev := prev }) :
    Marked changed block := by
  constructor
  · rw [same]
    exact marked.size
  · rw [same]
    exact marked.free
  · rw [same]
    exact marked.magic

/-- An edit between `before` and `after` that gives the block behind it a new
predecessor and keeps all other headers. -/
structure Relinked (memory changed : Memory) (before after : List Block) (prev : Nat) :
    Prop where
  before : ∀ block ∈ before, header changed block.start = header memory block.start
  head : ∀ block ∈ after.head?,
    header changed block.start = { header memory block.start with prev := prev }
  tail : ∀ block ∈ after.tail, header changed block.start = header memory block.start

namespace Relinked

variable {memory changed : Memory} {before after : List Block} {prev : Nat}

theorem links_before (relinked : Relinked memory changed before after prev) :
    ∀ start ∈ before.map Block.start,
      (header changed start).next = (header memory start).next ∧
      (header changed start).prev = (header memory start).prev := by
  intro start isMember
  obtain ⟨block, onBefore, rfl⟩ := List.mem_map.mp isMember
  rw [relinked.before block onBefore]
  exact ⟨rfl, rfl⟩

theorem prev_head (relinked : Relinked memory changed before after prev) :
    ∀ start ∈ (after.map Block.start).head?, (header changed start).prev = prev := by
  intro start isHead
  rw [List.head?_map] at isHead
  obtain ⟨block, isBlock, rfl⟩ := Option.map_eq_some_iff.mp isHead
  rw [relinked.head block isBlock]

theorem prev_tail (relinked : Relinked memory changed before after prev) :
    ∀ start ∈ (after.map Block.start).tail,
      (header changed start).prev = (header memory start).prev := by
  intro start isMember
  rw [← List.map_tail] at isMember
  obtain ⟨block, onTail, rfl⟩ := List.mem_map.mp isMember
  rw [relinked.tail block onTail]

theorem next_after (relinked : Relinked memory changed before after prev) :
    ∀ start ∈ after.map Block.start,
      (header changed start).next = (header memory start).next := by
  intro start isMember
  obtain ⟨block, onAfter, rfl⟩ := List.mem_map.mp isMember
  cases after with
  | nil => simp at onAfter
  | cons head tail =>
      rcases List.mem_cons.mp onAfter with rfl | onTail
      · rw [relinked.head block rfl]
      · rw [relinked.tail block onTail]

theorem marked (relinked : Relinked memory changed before after prev) {block : Block}
    (onEither : block ∈ before ∨ block ∈ after) (marked : Marked memory block) :
    Marked changed block := by
  rcases onEither with onBefore | onAfter
  · exact marked.of_header (relinked.before block onBefore)
  · cases after with
    | nil => simp at onAfter
    | cons head tail =>
        rcases List.mem_cons.mp onAfter with rfl | onTail
        · exact marked.of_prev (relinked.head block rfl)
        · exact marked.of_header (relinked.tail block onTail)

/-- The edit as the code makes it: the block that a successor other than null
names gets the new predecessor. -/
theorem of_next {first last next : Nat} {block : Block}
    (tiles : Tiles first (before ++ block :: after) last)
    (isNext : next = (after.map Block.start).headD 0)
    (written : ∀ other, other ∈ before ∨ other ∈ after → header changed other.start =
      if next ≠ 0 ∧ other.start = next then { header memory other.start with prev := prev }
      else header memory other.start) : Relinked memory changed before after prev := by
  cases after with
  | nil =>
      rw [List.map_nil, List.headD_nil] at isNext
      refine ⟨fun other onBefore => ?_, by simp, by simp⟩
      rw [written other (.inl onBefore), if_neg (by omega)]
  | cons head tail =>
      rw [List.map_cons, List.headD_cons] at isNext
      have behind : block.start < head.start := tiles.lt_after (by simp)
      refine ⟨?_, ?_, ?_⟩
      · intro other onBefore
        have lower := tiles.before_lt onBefore
        rw [written other (.inl onBefore), if_neg (by omega)]
      · intro other isHead
        obtain rfl := Option.some.inj isHead
        rw [written head (.inr (by simp)), if_pos (by omega)]
      · intro other onTail
        have headTiles : Tiles first ((before ++ [block]) ++ head :: tail) last := by
          simpa using tiles
        have higher := headTiles.lt_after onTail
        rw [written other (.inr (List.mem_cons_of_mem _ onTail)), if_neg (by omega)]

end Relinked

namespace RegionChain

variable {memory changed : Memory} {region : HeapRegion} {blocks before after : List Block}
  {block : Block}

theorem congr (chain : RegionChain memory region blocks)
    (same : ∀ block ∈ blocks, header changed block.start = header memory block.start) :
    RegionChain changed region blocks where
  tiles := chain.tiles
  linked := by
    refine chain.linked.congr ?_ ?_ <;> intro start isMember <;>
      obtain ⟨block, onChain, rfl⟩ := List.mem_map.mp isMember <;> rw [same block onChain]
  listed := chain.listed
  marked := fun block onChain => (chain.marked block onChain).of_header (same block onChain)

/-- The successor that a header names. -/
theorem next_eq (chain : RegionChain memory region (before ++ block :: after)) :
    (header memory block.start).next = (after.map Block.start).headD 0 := by
  have linked := chain.linked
  rw [List.map_append, List.map_cons, Segment.middle_iff] at linked
  exact linked.2.2.1

/-- The successor of a block begins where the block ends. -/
theorem next_eq_stop (chain : RegionChain memory region blocks) (onChain : block ∈ blocks) :
    (header memory block.start).next = if block.stop = region.stop then 0 else block.stop := by
  obtain ⟨before, after, rfl⟩ := List.append_of_mem onChain
  have afterTiles := (Tiles.middle_iff.mp chain.tiles).2
  rw [chain.next_eq]
  cases after with
  | nil =>
      have isLast : block.stop = region.stop := afterTiles
      rw [if_pos isLast, List.map_nil, List.headD_nil]
  | cons head tail =>
      obtain ⟨isHead, tailTiles⟩ := afterTiles
      have room := head.header_le_stop
      have bound := tailTiles.bounds.1
      unfold blockHeaderSize at room
      rw [if_neg (by omega), List.map_cons, List.headD_cons, isHead]

theorem prev_eq (chain : RegionChain memory region (before ++ block :: after)) :
    (header memory block.start).prev = (before.map Block.start).getLastD 0 := by
  have linked := chain.linked
  rw [List.map_append, List.map_cons, Segment.middle_iff] at linked
  exact linked.2.1

theorem start_pos (chain : RegionChain memory region blocks) (fits : region.Fits)
    (onChain : block ∈ blocks) : 0 < block.start ∧ block.stop < uintptrSize := by
  obtain ⟨lower, upper⟩ := chain.tiles.bounds.2 block onChain
  have room := block.header_le_stop
  have address := fits.address
  have positive := fits.positive
  unfold blockHeaderSize at room
  constructor <;> omega

/-- Writing the flags of a block. -/
theorem mark (chain : RegionChain memory region (before ++ block :: after)) (free : Bool) :
    RegionChain (setMagic (setFree memory block.start (if free then 1 else 0)) block.start
        (if free then blockMagicFree else blockMagicAlloc)) region
      (before ++ block.mark free :: after) := by
  have written : ∀ other ∈ before ++ block :: after,
      header (setMagic (setFree memory block.start (if free then 1 else 0)) block.start
        (if free then blockMagicFree else blockMagicAlloc)) other.start =
      if other.start = block.start then
        { header memory block.start with
          free := if free then 1 else 0
          magic := if free then blockMagicFree else blockMagicAlloc }
      else header memory other.start := by
    intro other onChain
    have apart : HeadersApart block.start other.start :=
      chain.tiles.headersApart (by simp) onChain
    have self : HeadersApart block.start block.start := .inl rfl
    rw [header_setMagic _ _ apart, header_setFree _ _ self, if_pos rfl, header_setFree _ _ apart]
    cases free <;> split <;> rfl
  have starts : (before ++ block.mark free :: after).map Block.start =
      (before ++ block :: after).map Block.start := by
    simp [Block.mark]
  have tiles : Tiles region.start (before ++ block.mark free :: after) region.stop := by
    obtain ⟨beforeTiles, afterTiles⟩ := Tiles.middle_iff.mp chain.tiles
    exact Tiles.middle_iff.mpr ⟨beforeTiles, afterTiles⟩
  refine ⟨tiles, ?_, ?_, ?_⟩
  · rw [starts]
    refine chain.linked.congr ?_ ?_ <;> intro start isMember <;>
      obtain ⟨other, onChain, rfl⟩ := List.mem_map.mp isMember <;>
      rw [written other onChain] <;> split
    case isTrue same => rw [same]
    case isFalse => rfl
    case isTrue same => rw [same]
    case isFalse => rfl
  · rw [starts]
    exact chain.listed
  · intro other isMember
    rcases List.mem_append.mp isMember with onBefore | onAfter
    · have onChain : other ∈ before ++ block :: after := by simp [onBefore]
      apply (chain.marked other onChain).of_header
      rw [written other onChain, if_neg (Nat.ne_of_lt (chain.tiles.before_lt onBefore))]
    · rcases List.mem_cons.mp onAfter with rfl | onAfter
      · have atBlock := written block (by simp)
        rw [if_pos rfl] at atBlock
        have size := (chain.marked block (by simp)).size
        constructor
        · rw [Block.mark, atBlock]
          exact size
        · rw [Block.mark, atBlock]
        · rw [Block.mark, atBlock]
      · have onChain : other ∈ before ++ block :: after := by simp [onAfter]
        apply (chain.marked other onChain).of_header
        rw [written other onChain, if_neg (Nat.ne_of_gt (chain.tiles.lt_after onAfter))]

/-- A successor that is not null is the next block. -/
theorem next_mem (chain : RegionChain memory region (before ++ block :: after))
    (notNull : (header memory block.start).next ≠ 0) :
    ∃ head ∈ after, (header memory block.start).next = head.start := by
  rw [chain.next_eq] at notNull ⊢
  cases after with
  | nil => simp at notNull
  | cons head tail => exact ⟨head, by simp, rfl⟩

/-- The headers that a split leaves in the region. -/
theorem header_split (chain : RegionChain memory region (before ++ block :: after))
    (fits : region.Fits) {front back : Block} (frontStart : front.start = block.start)
    (backStart : back.start = front.stop) (sizes : front.size + back.size = block.size) :
    ∀ other ∈ before ++ front :: back :: after,
      header (blockSplit memory block.start front.size) other.start =
        if other.start = block.start then
          { header memory block.start with size := front.size, next := back.start }
        else if other.start = back.start then
          { size := back.size, magic := blockMagicFree, free := 1,
            next := (header memory block.start).next, prev := block.start }
        else if (header memory block.start).next ≠ 0 ∧
            other.start = (header memory block.start).next then
          { header memory other.start with prev := back.start }
        else header memory other.start := by
  intro other onChain
  have tiles := chain.tiles.split frontStart backStart sizes
  have backTiles : Tiles region.start ((before ++ [front]) ++ back :: after) region.stop := by
    simpa using tiles
  have backStartSum : back.start = block.start + front.size := by
    rw [backStart, Block.stop, frontStart]
  have newLt : block.start + front.size < uintptrSize := by
    have inRegion := (chain.start_pos fits (by simp : block ∈ before ++ block :: after)).2
    unfold Block.stop at inRegion
    omega
  have apart : ∀ member ∈ before ++ front :: back :: after,
      HeadersApart member.start other.start := fun member isMember =>
    tiles.headersApart isMember onChain
  have blockSize := (chain.marked block (by simp)).size
  have remaining : (header memory block.start).size - front.size = back.size := by
    rw [blockSize]
    omega
  have enough : front.size ≤ (header memory block.start).size := by
    rw [blockSize]
    omega
  rw [backStartSum, ← remaining]
  refine header_blockSplit enough (remaining ▸ back.large) front.large newLt
    (frontStart ▸ apart front (by simp)) (backStartSum ▸ apart back (by simp)) fun notNull => ?_
  obtain ⟨head, onAfter, isHead⟩ := chain.next_mem notNull
  rw [isHead, ← backStartSum, ← frontStart]
  exact ⟨apart head (by simp [onAfter]), tiles.headersApart (by simp [onAfter]) (by simp),
    Nat.ne_of_gt (tiles.lt_after (by simp [onAfter])),
    tiles.headersApart (by simp [onAfter]) (by simp), Nat.ne_of_gt (backTiles.lt_after onAfter)⟩

/-- Splitting a block into two. -/
theorem split (chain : RegionChain memory region (before ++ block :: after))
    (fits : region.Fits) (front back : Block) (frontStart : front.start = block.start)
    (frontFree : front.free = block.free) (backStart : back.start = front.stop)
    (backFree : back.free = true) (sizes : front.size + back.size = block.size) :
    RegionChain (blockSplit memory block.start front.size) region
      (before ++ front :: back :: after) := by
  have tiles := chain.tiles.split frontStart backStart sizes
  have backTiles : Tiles region.start ((before ++ [front]) ++ back :: after) region.stop := by
    simpa using tiles
  have headerMark := chain.marked block (by simp)
  have written := chain.header_split fits frontStart backStart sizes
  have frontLt : front.start < back.start := tiles.lt_after (by simp)
  have atFront : header (blockSplit memory block.start front.size) block.start =
      { header memory block.start with size := front.size, next := back.start } := by
    have atStart := written front (by simp)
    rw [if_pos frontStart, frontStart] at atStart
    exact atStart
  have atBack : header (blockSplit memory block.start front.size) back.start =
      { size := back.size, magic := blockMagicFree, free := 1,
        next := (header memory block.start).next, prev := block.start } := by
    rw [written back (by simp), if_neg (by omega), if_pos rfl]
  have relinked : Relinked memory (blockSplit memory block.start front.size) before after
      back.start := by
    refine .of_next chain.tiles chain.next_eq fun other onEither => ?_
    rcases onEither with onBefore | onAfter
    · have lower := tiles.before_lt onBefore
      rw [written other (by simp [onBefore]), if_neg (by omega), if_neg (by omega)]
    · have higher := backTiles.lt_after onAfter
      rw [written other (by simp [onAfter]), if_neg (by omega), if_neg (by omega)]
  refine ⟨tiles, ?_, ?_, ?_⟩
  · have linked := chain.linked
    simp only [List.map_append, List.map_cons] at linked ⊢
    rw [frontStart]
    refine linked.insertAfter ?_ ?_ ?_ ?_ relinked.prev_head relinked.links_before
      relinked.next_after relinked.prev_tail
    · rw [atFront]
    · rw [atBack]
    · rw [atBack]
    · rw [atFront]
  · rw [chain.listed]
    cases before <;> simp [frontStart]
  · intro other isMember
    simp only [List.mem_append, List.mem_cons] at isMember
    rcases isMember with onBefore | rfl | rfl | onAfter
    · exact relinked.marked (.inl onBefore) (chain.marked other (by simp [onBefore]))
    · refine ⟨?_, ?_, ?_⟩ <;> rw [frontStart, atFront]
      · exact headerMark.free.trans (by rw [frontFree])
      · exact headerMark.magic.trans (by rw [frontFree])
    · refine ⟨?_, ?_, ?_⟩ <;> rw [atBack]
      · simp [backFree]
      · simp [backFree]
    · exact relinked.marked (.inr onAfter) (chain.marked other (by simp [onAfter]))

/-- The headers that a merge leaves in the region. -/
theorem header_merge {left right : Block}
    (chain : RegionChain memory region (before ++ left :: right :: after)) (fits : region.Fits) :
    ∀ other ∈ before ++ left :: after,
      header (Rtos.absorb memory left.start right.start) other.start =
        if other.start = left.start then
          { header memory left.start with
            size := left.size + right.size
            next := (header memory right.start).next }
        else if (header memory right.start).next ≠ 0 ∧
            other.start = (header memory right.start).next then
          { header memory other.start with prev := left.start }
        else header memory other.start := by
  intro other onChain
  have rightChain : RegionChain memory region ((before ++ [left]) ++ right :: after) := by
    simpa using chain
  have sizeLt : left.size + right.size < uint32Size := by
    obtain ⟨lower, upper⟩ := chain.tiles.merge.bounds.2 (left.merge right) (by simp)
    have regionSize := fits.size
    simp only [Block.stop, Block.merge] at lower upper
    omega
  have leftLt : left.start < uintptrSize := by
    have bound := (chain.start_pos fits (by simp : left ∈ before ++ left :: right :: after)).2
    unfold Block.stop at bound
    omega
  have stillOn : other ∈ before ++ left :: right :: after := by
    simp only [List.mem_append, List.mem_cons] at onChain
    rcases onChain with onBefore | rfl | onAfter
    · simp [onBefore]
    · simp
    · simp [onAfter]
  rw [header_absorb (chain.tiles.headersApart (by simp) stillOn),
    (chain.marked left (by simp)).size, (chain.marked right (by simp)).size,
    Nat.mod_eq_of_lt sizeLt, Nat.mod_eq_of_lt leftLt]
  intro notNull
  obtain ⟨head, onAfter, isHead⟩ := rightChain.next_mem notNull
  rw [isHead]
  exact ⟨chain.tiles.headersApart (by simp [onAfter]) stillOn,
    Nat.ne_of_gt (chain.tiles.lt_after (by simp [onAfter]))⟩

/-- Merging a block with its successor. -/
theorem absorb {left right : Block}
    (chain : RegionChain memory region (before ++ left :: right :: after)) (fits : region.Fits) :
    RegionChain (absorb memory left.start right.start) region
      (before ++ left.merge right :: after) := by
  have rightChain : RegionChain memory region ((before ++ [left]) ++ right :: after) := by
    simpa using chain
  have tiles := chain.tiles.merge
  have leftMark := chain.marked left (by simp)
  have written := chain.header_merge fits
  have atLeft : header (Rtos.absorb memory left.start right.start) left.start =
      { header memory left.start with
        size := left.size + right.size
        next := (header memory right.start).next } := by
    rw [written left (by simp), if_pos rfl]
  have relinked : Relinked memory (Rtos.absorb memory left.start right.start) before after
      left.start := by
    refine .of_next tiles rightChain.next_eq fun other onEither => ?_
    rcases onEither with onBefore | onAfter
    · have lower := chain.tiles.before_lt onBefore
      rw [written other (by simp [onBefore]), if_neg (by omega)]
    · have higher := chain.tiles.lt_after (by simp [onAfter] : other ∈ right :: after)
      rw [written other (by simp [onAfter]), if_neg (by omega)]
  refine ⟨tiles, ?_, ?_, ?_⟩
  · have linked := chain.linked
    simp only [List.map_append, List.map_cons] at linked ⊢
    refine linked.removeAfter ?_ ?_ relinked.prev_head relinked.links_before
      relinked.next_after relinked.prev_tail
    · rw [atLeft]
    · rw [atLeft]
  · rw [chain.listed]
    cases before <;> simp [Block.merge]
  · intro other isMember
    simp only [List.mem_append, List.mem_cons] at isMember
    rcases isMember with onBefore | rfl | onAfter
    · exact relinked.marked (.inl onBefore) (chain.marked other (by simp [onBefore]))
    · refine ⟨?_, ?_, ?_⟩ <;> rw [Block.merge, atLeft]
      · exact leftMark.free
      · exact leftMark.magic
    · exact relinked.marked (.inr onAfter) (chain.marked other (by simp [onAfter]))

end RegionChain

end Rtos

end MiniIotRobotEdge

import MiniIotRobotEdge.RtosHeapChain

/-!
# Allocation and release on one region

`block_alloc` walks the chain of a region and returns a free block that is
large enough.  `malloc_rtos` cuts and marks that block, and `free_rtos` marks
a block free and merges it with free neighbours; both leave a well-formed
chain and write only headers of blocks on it.
-/

namespace MiniIotRobotEdge

namespace Rtos

open LinkedSegment

/-- The choice of `block_alloc` over the list of blocks: the last improvement
for best fit, the first fit otherwise. -/
def scanBlocks (heapType size : Nat) : List Block → Nat → Nat → Nat
  | [], best, _ => best
  | block :: rest, best, bestSize =>
      if block.free = true ∧ size ≤ block.size then
        if heapType = heapType2 then
          if block.size < bestSize then scanBlocks heapType size rest block.start block.size
          else scanBlocks heapType size rest best bestSize
        else block.start
      else scanBlocks heapType size rest best bestSize

theorem Marked.free_iff {memory : Memory} {block : Block} (marked : Marked memory block) :
    (header memory block.start).free ≠ 0 ↔ block.free = true := by
  rw [marked.free]
  cases block.free <;> simp

namespace RegionChain

variable {memory : Memory} {region : HeapRegion} {before after blocks : List Block}
  {block : Block}

/-- The walk from a position of the chain on runs out of fuel only if the
rest of the chain is longer. -/
theorem blockAllocFrom_cases (chain : RegionChain memory region (before ++ after))
    (fits : region.Fits) (fuel heapType size best bestSize : Nat) :
    blockAllocFrom memory heapType size fuel ((after.map Block.start).headD 0) best bestSize =
        some (scanBlocks heapType size after best bestSize) ∨
      (fuel ≤ after.length ∧ blockAllocFrom memory heapType size fuel
        ((after.map Block.start).headD 0) best bestSize = none) := by
  induction fuel generalizing before after best bestSize with
  | zero => exact .inr ⟨Nat.zero_le _, rfl⟩
  | succ fuel ih =>
      cases after with
      | nil => exact .inl (by simp [blockAllocFrom, scanBlocks])
      | cons block rest =>
          have onChain : block ∈ before ++ block :: rest := by simp
          have marked := chain.marked block onChain
          have positive := (chain.start_pos fits onChain).1
          have restChain : RegionChain memory region ((before ++ [block]) ++ rest) := by
            simpa using chain
          have later := fun best bestSize => (ih restChain best bestSize).imp_right
            fun ⟨short, exhausted⟩ => And.intro (Nat.succ_le_succ short) exhausted
          rw [List.map_cons, List.headD_cons, blockAllocFrom, if_neg (Nat.ne_of_gt positive),
            scanBlocks]
          dsimp only
          rw [chain.next_eq, marked.size]
          simp only [marked.free_iff, List.length_cons]
          split
          · split
            · split
              · exact later block.start block.size
              · exact later best bestSize
            · exact .inl rfl
          · exact later best bestSize

/-- `block_alloc` on a chain. -/
theorem blockAlloc_cases (chain : RegionChain memory region blocks) (fits : region.Fits)
    (fuel : Nat) {heapType : Nat} (lower : heapType2 ≤ heapType) (upper : heapType ≤ heapType5)
    (size : Nat) :
    blockAlloc fuel memory heapType region size =
        some (scanBlocks heapType size blocks 0 0xFFFFFFFF) ∨
      (fuel ≤ blocks.length ∧ blockAlloc fuel memory heapType region size = none) := by
  have notFirst : heapType ≠ heapType1 := by
    unfold heapType1 heapType2 at *
    omega
  have whole : RegionChain memory region ([] ++ blocks) := chain
  rw [blockAlloc, if_neg notFirst, if_pos ⟨lower, upper⟩, chain.listed]
  exact whole.blockAllocFrom_cases fits fuel heapType size 0 0xFFFFFFFF

end RegionChain

/-- The walk ends with its best block so far or with a fitting one. -/
theorem scanBlocks_mem (heapType size : Nat) (blocks : List Block) (best bestSize : Nat) :
    scanBlocks heapType size blocks best bestSize = best ∨
      ∃ block ∈ blocks, block.start = scanBlocks heapType size blocks best bestSize ∧
        block.free = true ∧ size ≤ block.size := by
  induction blocks generalizing best bestSize with
  | nil => exact .inl rfl
  | cons block rest ih =>
      have later : ∀ best bestSize, scanBlocks heapType size rest best bestSize = best ∨
          ∃ other ∈ block :: rest,
            other.start = scanBlocks heapType size rest best bestSize ∧
            other.free = true ∧ size ≤ other.size := by
        intro best bestSize
        refine (ih best bestSize).imp_right fun ⟨other, onRest, found⟩ => ?_
        exact ⟨other, List.mem_cons_of_mem _ onRest, found⟩
      rw [scanBlocks]
      split
      case isTrue fitting =>
        split
        · split
          · rcases later block.start block.size with isBlock | found
            · exact .inr ⟨block, by simp, isBlock.symm, fitting⟩
            · exact .inr found
          · exact later best bestSize
        · exact .inr ⟨block, by simp, rfl, fitting⟩
      case isFalse => exact later best bestSize

/-- The walk finds a block if one fits, or if it has found one already. -/
theorem scanBlocks_ne_zero (heapType size : Nat) {blocks : List Block} {best bestSize : Nat}
    (isBlock : ∀ block ∈ blocks, 0 < block.start ∧ block.size < 0xFFFFFFFF)
    (fits : best ≠ 0 ∨ bestSize = 0xFFFFFFFF ∧
      ∃ block ∈ blocks, block.free = true ∧ size ≤ block.size) :
    scanBlocks heapType size blocks best bestSize ≠ 0 := by
  induction blocks generalizing best bestSize with
  | nil => simpa [scanBlocks] using fits
  | cons head rest ih =>
      obtain ⟨positive, small⟩ := isBlock head (by simp)
      have later : ∀ {best bestSize}, _ → scanBlocks heapType size rest best bestSize ≠ 0 :=
        fun {_ _} fits => ih (fun block onRest => isBlock block (by simp [onRest])) fits
      rw [scanBlocks]
      split
      case isTrue =>
        split
        · split
          · exact later (.inl (by omega))
          · exact later (.inl (fits.resolve_right fun ⟨isLargest, _⟩ => by omega))
        · omega
      case isFalse notFitting =>
        refine later (fits.imp_right fun ⟨isLargest, block, blockMem, fitting⟩ => ⟨isLargest, ?_⟩)
        refine ⟨block, (List.mem_cons.mp blockMem).resolve_left ?_, fitting⟩
        rintro rfl
        exact notFitting fitting

/-- What becomes of a block that `malloc_rtos` takes. -/
def Block.allocate (block : Block) (size : Nat) (aligned : heapAlignment ∣ size)
    (large : heapMinBlockSize ≤ size) : List Block :=
  if room : heapMinBlockSize ≤ block.size - size then
    [(block.front size aligned large).mark false, block.back size aligned room]
  else [block.mark false]

/-- The block and its successors after the first half of `block_coalesce`. -/
def coalescedNext (block : Block) : List Block → Block × List Block
  | [] => (block, [])
  | next :: rest => if next.free then (block.merge next, rest) else (block, next :: rest)

/-- The chain after the second half of `block_coalesce`. -/
def coalescedPrev (before : List Block) (block : Block) (after : List Block) : List Block :=
  match before.getLast? with
  | none => block :: after
  | some prev =>
      if prev.free then before.dropLast ++ prev.merge block :: after
      else before ++ block :: after

/-- The chain after `free_rtos`, which merges from heap type three on. -/
def released (heapType : Nat) (before : List Block) (block : Block) (after : List Block) :
    List Block :=
  if heapType3 ≤ heapType then
    coalescedPrev before (coalescedNext (block.mark true) after).1
      (coalescedNext (block.mark true) after).2
  else before ++ block.mark true :: after

theorem coalescedNext_start (block : Block) (after : List Block) :
    (coalescedNext block after).1.start = block.start := by
  unfold coalescedNext
  split
  · rfl
  · split <;> rfl

theorem coalescedNext_subset (block : Block) (after : List Block) {other : Block}
    (isMember : other ∈ (coalescedNext block after).2) : other ∈ after := by
  unfold coalescedNext at isMember
  split at isMember
  · exact isMember
  · split at isMember
    · exact List.mem_cons_of_mem _ isMember
    · exact isMember

namespace RegionChain

variable {memory : Memory} {region : HeapRegion} {before after : List Block} {block : Block}

/-- Cutting and marking a free block that is large enough. -/
theorem allocate (chain : RegionChain memory region (before ++ block :: after))
    (fits : region.Fits) {size : Nat} (aligned : heapAlignment ∣ size)
    (large : heapMinBlockSize ≤ size) (enough : size ≤ block.size) :
    RegionChain (setMagic (setFree (blockSplit memory block.start size) block.start 0)
        block.start blockMagicAlloc) region
      (before ++ (block.allocate size aligned large ++ after)) ∧
    KeepsOutside ((before ++ (block.allocate size aligned large ++ after)).map Block.start)
      memory (setMagic (setFree (blockSplit memory block.start size) block.start 0)
        block.start blockMagicAlloc) := by
  have headerSize := (chain.marked block (by simp)).size
  by_cases room : heapMinBlockSize ≤ block.size - size
  · have sizes : (block.front size aligned large).size +
        (block.back size aligned room).size = block.size := Nat.add_sub_cancel' enough
    have splitChain : RegionChain (blockSplit memory block.start size) region
        (before ++ block.front size aligned large :: block.back size aligned room :: after) :=
      chain.split fits (block.front size aligned large) (block.back size aligned room) rfl rfl rfl
        rfl sizes
    have marked := splitChain.mark false
    have cut : block.allocate size aligned large =
        [(block.front size aligned large).mark false, block.back size aligned room] :=
      dif_pos room
    have frontMem : block.start ∈ (before ++ (block.allocate size aligned large ++ after)).map
        Block.start := by
      simp [cut, Block.mark, Block.front]
    refine ⟨by rw [cut]; exact marked, ?_⟩
    apply KeepsOutside.trans _ ((KeepsOutside.setFree frontMem).trans (.setMagic frontMem))
    refine keepsOutside_blockSplit frontMem (fun _ => ?_) ?_ (headerSize ▸ enough) large
    · simp [cut, Block.back]
    · intro notNull
      obtain ⟨head, onAfter, isHead⟩ := chain.next_mem notNull
      rw [isHead]
      exact List.mem_map_of_mem (by simp [onAfter])
  · have kept : blockSplit memory block.start size = memory :=
      blockSplit_small (headerSize ▸ enough) (by rw [headerSize]; omega)
    have whole : block.allocate size aligned large = [block.mark false] := dif_neg room
    have frontMem : block.start ∈ (before ++ (block.allocate size aligned large ++ after)).map
        Block.start := by
      simp [whole, Block.mark]
    rw [kept]
    refine ⟨by rw [whole]; exact chain.mark false, ?_⟩
    exact (KeepsOutside.setFree frontMem).trans (.setMagic frontMem)

/-- The first half of `block_coalesce` on a chain. -/
theorem coalesceNext (chain : RegionChain memory region (before ++ block :: after))
    (fits : region.Fits) :
    RegionChain (coalesceNext memory block.start) region
      (before ++ (coalescedNext block after).1 :: (coalescedNext block after).2) ∧
    KeepsOutside ((before ++ block :: after).map Block.start) memory
      (Rtos.coalesceNext memory block.start) := by
  have isNext := chain.next_eq
  cases after with
  | nil =>
      have kept : Rtos.coalesceNext memory block.start = memory := by
        rw [Rtos.coalesceNext, if_neg (by simp [isNext])]
      rw [kept]
      exact ⟨chain, .refl _ memory⟩
  | cons next rest =>
      rw [List.map_cons, List.headD_cons] at isNext
      have nextMem : next ∈ before ++ block :: next :: rest := by simp
      have isFree := (chain.marked next nextMem).free_iff
      by_cases free : next.free = true
      · have nextLt := chain.tiles.lt_after (by simp : next ∈ next :: rest)
        have merged : Rtos.coalesceNext memory block.start =
            Rtos.absorb memory block.start next.start :=
          coalesceNext_eq_absorb isNext (by omega) (isFree.mpr free)
            (chain.tiles.headersApart (by simp) nextMem) (by omega)
        have step : coalescedNext block (next :: rest) = (block.merge next, rest) := by
          rw [coalescedNext, if_pos free]
        rw [merged, step]
        refine ⟨chain.absorb fits, keepsOutside_absorb (by simp) fun notNull => ?_⟩
        have nextChain : RegionChain memory region ((before ++ [block]) ++ next :: rest) := by
          simpa using chain
        obtain ⟨head, onRest, isHead⟩ := nextChain.next_mem notNull
        rw [isHead]
        exact List.mem_map_of_mem (by simp [onRest])
      · have kept : Rtos.coalesceNext memory block.start = memory := by
          rw [Rtos.coalesceNext, if_neg]
          rintro ⟨_, notZero⟩
          rw [isNext] at notZero
          exact free (isFree.mp notZero)
        have step : coalescedNext block (next :: rest) = (block, next :: rest) := by
          rw [coalescedNext, if_neg free]
        rw [kept, step]
        exact ⟨chain, .refl _ memory⟩

/-- The second half of `block_coalesce` on a chain. -/
theorem coalescePrev (chain : RegionChain memory region (before ++ block :: after))
    (fits : region.Fits) :
    RegionChain (coalescePrev memory block.start) region (coalescedPrev before block after) ∧
    KeepsOutside ((before ++ block :: after).map Block.start) memory
      (Rtos.coalescePrev memory block.start) := by
  have isPrev := chain.prev_eq
  rcases List.eq_nil_or_concat before with rfl | ⟨front, prev, rfl⟩
  · have kept : Rtos.coalescePrev memory block.start = memory := by
      rw [Rtos.coalescePrev, if_neg (by simp [isPrev])]
    rw [kept]
    exact ⟨chain, .refl _ memory⟩
  · have prevChain : RegionChain memory region (front ++ prev :: block :: after) := by
      simpa using chain
    have startPrev : (header memory block.start).prev = prev.start := by
      simpa using isPrev
    have prevMem : prev ∈ front ++ prev :: block :: after := by simp
    have isFree := (prevChain.marked prev prevMem).free_iff
    have positive := (prevChain.start_pos fits prevMem).1
    have prevLt := prevChain.tiles.lt_after (by simp : block ∈ block :: after)
    by_cases free : prev.free = true
    · have merged : Rtos.coalescePrev memory block.start =
          Rtos.absorb memory prev.start block.start :=
        coalescePrev_eq_absorb startPrev (by omega) (isFree.mpr free)
          (prevChain.tiles.headersApart prevMem (by simp)) (by omega)
      have step : coalescedPrev (front ++ [prev]) block after =
          front ++ prev.merge block :: after := by
        simp [coalescedPrev, free]
      rw [List.concat_eq_append, merged, step]
      refine ⟨prevChain.absorb fits, keepsOutside_absorb (by simp) fun notNull => ?_⟩
      obtain ⟨head, onAfter, isHead⟩ := chain.next_mem notNull
      rw [isHead]
      exact List.mem_map_of_mem (by simp [onAfter])
    · have kept : Rtos.coalescePrev memory block.start = memory := by
        rw [Rtos.coalescePrev, if_neg]
        rintro ⟨_, notZero⟩
        rw [startPrev] at notZero
        exact free (isFree.mp notZero)
      have step : coalescedPrev (front ++ [prev]) block after =
          front ++ [prev] ++ block :: after := by
        simp [coalescedPrev, free]
      rw [List.concat_eq_append] at chain ⊢
      rw [kept, step]
      exact ⟨chain, .refl _ memory⟩

/-- Marking a block free and merging it with its neighbours. -/
theorem release (chain : RegionChain memory region (before ++ block :: after))
    (fits : region.Fits) (heapType : Nat) :
    RegionChain
      (if heapType3 ≤ heapType then
        blockCoalesce (setMagic (setFree memory block.start 1) block.start blockMagicFree)
          block.start
      else setMagic (setFree memory block.start 1) block.start blockMagicFree)
      region (released heapType before block after) ∧
    KeepsOutside ((before ++ block :: after).map Block.start) memory
      (if heapType3 ≤ heapType then
        blockCoalesce (setMagic (setFree memory block.start 1) block.start blockMagicFree)
          block.start
      else setMagic (setFree memory block.start 1) block.start blockMagicFree) := by
  have marked : RegionChain (setMagic (setFree memory block.start 1) block.start blockMagicFree)
      region (before ++ block.mark true :: after) := chain.mark true
  have blockMem : block.start ∈ (before ++ block :: after).map Block.start := by simp
  have markKept : KeepsOutside ((before ++ block :: after).map Block.start) memory
      (setMagic (setFree memory block.start 1) block.start blockMagicFree) :=
    (KeepsOutside.setFree blockMem).trans (.setMagic blockMem)
  unfold released
  split
  case isFalse => exact ⟨marked, markKept⟩
  case isTrue =>
    obtain ⟨nextChain, nextKept⟩ := marked.coalesceNext fits
    obtain ⟨prevChain, prevKept⟩ := nextChain.coalescePrev fits
    have sameStart : (coalescedNext (block.mark true) after).1.start = block.start :=
      coalescedNext_start (block.mark true) after
    rw [sameStart] at prevChain prevKept
    refine ⟨prevChain, (markKept.trans (nextKept.mono ?_)).trans (prevKept.mono ?_)⟩
    · intro start isMember
      simpa [Block.mark] using isMember
    · intro start isMember
      simp only [List.map_append, List.map_cons, List.mem_append, List.mem_cons, sameStart]
        at isMember ⊢
      rcases isMember with onBefore | isBlock | onAfter
      · exact .inl onBefore
      · exact .inr (.inl isBlock)
      · obtain ⟨other, isOther, rfl⟩ := List.mem_map.mp onAfter
        exact .inr (.inr (List.mem_map_of_mem (coalescedNext_subset _ _ isOther)))

end RegionChain

/-- Of the blocks that `malloc_rtos` makes, one is in use. -/
theorem allocate_inUse (block : Block) {size : Nat} (aligned : heapAlignment ∣ size)
    (large : heapMinBlockSize ≤ size) (enough : size ≤ block.size) :
    ∃ taken : Block, taken.start = block.start ∧ size ≤ taken.size ∧ taken.free = false ∧
      ∀ other : Block, other.free = false →
        (other ∈ block.allocate size aligned large ↔ other = taken) := by
  by_cases room : heapMinBlockSize ≤ block.size - size
  · refine ⟨(block.front size aligned large).mark false, rfl, le_rfl, rfl, ?_⟩
    intro other inUse
    have notBack : other ≠ block.back size aligned room := by
      rintro rfl
      simp [Block.back] at inUse
    simp [Block.allocate, room, notBack]
  · refine ⟨block.mark false, rfl, enough, rfl, ?_⟩
    intro other _
    simp [Block.allocate, room]

/-- Merging a free block does not change the blocks in use. -/
theorem coalescedNext_inUse {block other : Block} (isFree : block.free = true)
    (inUse : other.free = false) (after : List Block) :
    (coalescedNext block after).1.free = true ∧
      (other ∈ (coalescedNext block after).2 ↔ other ∈ after) := by
  cases after with
  | nil => exact ⟨isFree, Iff.rfl⟩
  | cons next rest =>
      rw [coalescedNext]
      split
      case isTrue nextFree =>
        have notNext : other ≠ next := by
          rintro rfl
          rw [inUse] at nextFree
          simp at nextFree
        exact ⟨isFree, by simp [notNext]⟩
      case isFalse => exact ⟨isFree, Iff.rfl⟩

theorem coalescedPrev_inUse {block other : Block} (isFree : block.free = true)
    (inUse : other.free = false) (before after : List Block) :
    other ∈ coalescedPrev before block after ↔ other ∈ before ∨ other ∈ after := by
  have notBlock : other ≠ block := by
    rintro rfl
    rw [inUse] at isFree
    simp at isFree
  rcases List.eq_nil_or_concat before with rfl | ⟨front, prev, rfl⟩
  · simp [coalescedPrev, notBlock]
  · by_cases prevFree : prev.free = true
    · have notPrev : other ≠ prev := by
        rintro rfl
        rw [inUse] at prevFree
        simp at prevFree
      have notMerged : other ≠ prev.merge block := by
        rintro rfl
        rw [Block.merge] at inUse
        rw [inUse] at prevFree
        simp at prevFree
      simp [coalescedPrev, prevFree, notPrev, notMerged]
    · simp [coalescedPrev, prevFree, notBlock, or_assoc]

/-- Only the released block is not in use any more. -/
theorem released_inUse (heapType : Nat) (before : List Block) (block : Block)
    (after : List Block) {other : Block} (inUse : other.free = false) :
    other ∈ released heapType before block after ↔ other ∈ before ∨ other ∈ after := by
  have markFree : (block.mark true).free = true := rfl
  unfold released
  split
  · obtain ⟨mergedFree, sameAfter⟩ := coalescedNext_inUse markFree inUse after
    rw [coalescedPrev_inUse mergedFree inUse, sameAfter]
  · have notBlock : other ≠ block.mark true := by
      rintro rfl
      simp [Block.mark] at inUse
    simp [notBlock]

end Rtos

end MiniIotRobotEdge

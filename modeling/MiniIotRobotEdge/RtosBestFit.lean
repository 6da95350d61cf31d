import MiniIotRobotEdge.PointerChain
import MiniIotRobotEdge.RtosMemoryHeap

/-!
# Best fit, twice

`heap_best_fit_search` scans the list of a region as `block_alloc` does for
`HEAP_TYPE_2`, but it stops at an exact fit.  Both return the first of the
smallest free blocks that are large enough.
-/

namespace MiniIotRobotEdge

namespace Rtos

open PointerChain

/-- The loop of `heap_best_fit_search` from `block` on. -/
def bestFitFrom (memory : Memory) (size : Nat) : Nat → Nat → Nat → Nat → Option Nat
  | 0, _, _, _ => none
  | fuel + 1, block, best, bestSize =>
      if block = 0 then some best
      else
        let next := (header memory block).next
        if (header memory block).free ≠ 0 ∧ size ≤ (header memory block).size then
          if (header memory block).size < bestSize then
            if (header memory block).size = size then some block
            else bestFitFrom memory size fuel next block (header memory block).size
          else bestFitFrom memory size fuel next best bestSize
        else bestFitFrom memory size fuel next best bestSize

/-- `heap_best_fit_search`; the region is `none` for the null pointer. -/
def heapBestFitSearch (fuel : Nat) (memory : Memory) (region : Option HeapRegion) (size : Nat) :
    Option Nat :=
  match region with
  | none => some 0
  | some region => bestFitFrom memory size fuel region.freeList 0 0xFFFFFFFF

/-- A pointer that may be null. -/
def blockPointer (address : Nat) : Option Nat := if address = 0 then none else some address

def nextBlock (memory : Memory) (block : Nat) : Option Nat :=
  blockPointer (header memory block).next

section Scan

variable (memory : Memory) (size : Nat)

/-- The block is free and large enough. -/
def BlockFits (block : Nat) : Prop :=
  (header memory block).free ≠ 0 ∧ size ≤ (header memory block).size

instance (block : Nat) : Decidable (BlockFits memory size block) :=
  inferInstanceAs (Decidable (_ ∧ _))

/-- The first of the smallest blocks that fit. -/
def IsBestFit (blocks : List Nat) (best : Nat) : Prop :=
  ∃ before after, blocks = before ++ best :: after ∧ BlockFits memory size best ∧
    (∀ other ∈ before, BlockFits memory size other →
      (header memory best).size < (header memory other).size) ∧
    ∀ other ∈ after, BlockFits memory size other →
      (header memory best).size ≤ (header memory other).size

/-- One turn of either loop, with the size of the best block so far. -/
def keepSmaller (best : Nat × Nat) (block : Nat) : Nat × Nat :=
  if BlockFits memory size block ∧ (header memory block).size < best.2 then
    (block, (header memory block).size)
  else best

/-- What is known of the best block behind some blocks. -/
def BestSoFar (blocks : List Nat) (best : Nat × Nat) : Prop :=
  (best = (0, 0xFFFFFFFF) ∧
    ∀ other ∈ blocks, BlockFits memory size other → 0xFFFFFFFF ≤ (header memory other).size) ∨
  (IsBestFit memory size blocks best.1 ∧ best.2 = (header memory best.1).size ∧
    best.2 < 0xFFFFFFFF)

variable {memory size} {blocks : List Nat} {best : Nat × Nat}

/-- A best block stays the best one in front of blocks that are not smaller. -/
theorem IsBestFit.append {found block : Nat} (isBest : IsBestFit memory size blocks found)
    (notSmaller : BlockFits memory size block →
      (header memory found).size ≤ (header memory block).size) :
    IsBestFit memory size (blocks ++ [block]) found := by
  obtain ⟨before, after, rfl, fits, earlier, later⟩ := isBest
  refine ⟨before, after ++ [block], by simp, fits, earlier, ?_⟩
  intro other listed
  rcases List.mem_append.mp listed with inAfter | isBlock
  · exact later other inAfter
  · rw [List.mem_singleton.mp isBlock]
    exact notSmaller

theorem IsBestFit.least {found other : Nat} (isBest : IsBestFit memory size blocks found)
    (listed : other ∈ blocks) (fits : BlockFits memory size other) :
    (header memory found).size ≤ (header memory other).size := by
  obtain ⟨before, after, rfl, _, earlier, later⟩ := isBest
  rcases List.mem_append.mp listed with inBefore | inRest
  · exact (earlier other inBefore fits).le
  · rcases List.mem_cons.mp inRest with rfl | inAfter
    · exact le_rfl
    · exact later other inAfter fits

/-- No block behind one of the sizes that is already found is better. -/
theorem BestSoFar.le {other : Nat} (sofar : BestSoFar memory size blocks best)
    (listed : other ∈ blocks) (fits : BlockFits memory size other) :
    best.2 ≤ (header memory other).size := by
  rcases sofar with ⟨rfl, large⟩ | ⟨isBest, sized, _⟩
  · exact large other listed fits
  · rw [sized]
    exact isBest.least listed fits

theorem BestSoFar.step (sofar : BestSoFar memory size blocks best) (block : Nat) :
    BestSoFar memory size (blocks ++ [block]) (keepSmaller memory size best block) := by
  rw [keepSmaller]
  split_ifs with better
  · -- The block is smaller than every block before it that fits.
    have bound : best.2 ≤ 0xFFFFFFFF := by
      rcases sofar with ⟨rfl, _⟩ | ⟨_, _, small⟩
      · exact le_rfl
      · exact small.le
    refine .inr ⟨⟨blocks, [], rfl, better.1, ?_, by simp⟩, rfl, better.2.trans_le bound⟩
    exact fun other listed fits => better.2.trans_le (sofar.le listed fits)
  · have notSmaller : BlockFits memory size block → best.2 ≤ (header memory block).size :=
      fun fits => not_lt.mp fun smaller => better ⟨fits, smaller⟩
    rcases sofar with ⟨rfl, large⟩ | ⟨isBest, sized, small⟩
    · refine .inl ⟨rfl, fun other listed => ?_⟩
      rcases List.mem_append.mp listed with inBlocks | isBlock
      · exact large other inBlocks
      · rw [List.mem_singleton.mp isBlock]
        exact notSmaller
    · rw [sized] at notSmaller
      exact .inr ⟨isBest.append notSmaller, sized, small⟩

theorem bestSoFar_foldl (blocks : List Nat) :
    BestSoFar memory size blocks (blocks.foldl (keepSmaller memory size) (0, 0xFFFFFFFF)) := by
  induction blocks using List.reverseRecOn with
  | nil => exact .inl ⟨rfl, by simp⟩
  | append_singleton blocks block ih =>
      rw [List.foldl_append, List.foldl_cons, List.foldl_nil]
      exact ih.step block

theorem IsBestFit.mem {found : Nat} (isBest : IsBestFit memory size blocks found) :
    found ∈ blocks ∧ BlockFits memory size found := by
  obtain ⟨before, after, rfl, fits, _, _⟩ := isBest
  exact ⟨by simp, fits⟩

theorem keepSmaller_better {block : Nat} (fits : BlockFits memory size block)
    (smaller : (header memory block).size < best.2) :
    keepSmaller memory size best block = (block, (header memory block).size) :=
  if_pos ⟨fits, smaller⟩

theorem keepSmaller_worse {block : Nat}
    (worse : ¬(BlockFits memory size block ∧ (header memory block).size < best.2)) :
    keepSmaller memory size best block = best :=
  if_neg worse

/-- An exact fit is not replaced. -/
theorem foldl_keepSmaller_of_exact (exact : best.2 ≤ size) :
    blocks.foldl (keepSmaller memory size) best = best := by
  induction blocks with
  | nil => rfl
  | cons block rest ih =>
      have worse : ¬(BlockFits memory size block ∧ (header memory block).size < best.2) := by
        rintro ⟨⟨_, large⟩, smaller⟩
        omega
      rw [List.foldl_cons, keepSmaller_worse worse, ih]

end Scan

section Walks

variable {memory : Memory} {size start : Nat} {blocks : List Nat}

/-- The first block of a chain is not null, and the rest is the chain behind it. -/
theorem Path.start_ne_zero {block : Nat}
    (chain : Path (nextBlock memory) (blockPointer start) (block :: blocks)) :
    start = block ∧ block ≠ 0 ∧
      Path (nextBlock memory) (blockPointer (header memory block).next) blocks := by
  obtain ⟨isStart, rest⟩ := chain.tail
  rw [blockPointer] at isStart
  split_ifs at isStart with null
  obtain rfl := Option.some.inj isStart
  exact ⟨rfl, null, rest⟩

theorem Path.start_eq_zero (chain : Path (nextBlock memory) (blockPointer start) []) :
    start = 0 := by
  have isNull := chain.eq_none
  rw [blockPointer] at isNull
  split_ifs at isNull with null
  exact null

/-- The loop of `block_alloc` for best fit. -/
theorem blockAllocFrom_eq_foldl
    (chain : Path (nextBlock memory) (blockPointer start) blocks) {fuel : Nat}
    (enough : blocks.length < fuel) (best bestSize : Nat) :
    blockAllocFrom memory heapType2 size fuel start best bestSize =
      some (blocks.foldl (keepSmaller memory size) (best, bestSize)).1 := by
  induction blocks generalizing start fuel best bestSize with
  | nil =>
      obtain ⟨fuel, rfl⟩ := Nat.exists_eq_succ_of_ne_zero (Nat.ne_of_gt enough)
      rw [blockAllocFrom, if_pos (Path.start_eq_zero chain), List.foldl_nil]
  | cons block rest ih =>
      obtain ⟨fuel, rfl⟩ := Nat.exists_eq_succ_of_ne_zero (Nat.ne_zero_of_lt enough)
      obtain ⟨rfl, notNull, restChain⟩ := Path.start_ne_zero chain
      have restEnough : rest.length < fuel := Nat.lt_of_succ_lt_succ enough
      have later := fun best bestSize => ih restChain restEnough best bestSize
      rw [blockAllocFrom, if_neg notNull, List.foldl_cons]
      dsimp only
      by_cases fits : (header memory start).free ≠ 0 ∧ size ≤ (header memory start).size
      · rw [if_pos fits, if_pos rfl]
        by_cases smaller : (header memory start).size < bestSize
        · rw [if_pos smaller, keepSmaller_better fits smaller]
          exact later _ _
        · rw [if_neg smaller, keepSmaller_worse fun both => smaller both.2]
          exact later _ _
      · rw [if_neg fits, keepSmaller_worse fun both => fits both.1]
        exact later _ _

/-- The loop of `heap_best_fit_search`. -/
theorem bestFitFrom_eq_foldl
    (chain : Path (nextBlock memory) (blockPointer start) blocks) {fuel : Nat}
    (enough : blocks.length < fuel) (best bestSize : Nat) :
    bestFitFrom memory size fuel start best bestSize =
      some (blocks.foldl (keepSmaller memory size) (best, bestSize)).1 := by
  induction blocks generalizing start fuel best bestSize with
  | nil =>
      obtain ⟨fuel, rfl⟩ := Nat.exists_eq_succ_of_ne_zero (Nat.ne_of_gt enough)
      rw [bestFitFrom, if_pos (Path.start_eq_zero chain), List.foldl_nil]
  | cons block rest ih =>
      obtain ⟨fuel, rfl⟩ := Nat.exists_eq_succ_of_ne_zero (Nat.ne_zero_of_lt enough)
      obtain ⟨rfl, notNull, restChain⟩ := Path.start_ne_zero chain
      have restEnough : rest.length < fuel := Nat.lt_of_succ_lt_succ enough
      have later := fun best bestSize => ih restChain restEnough best bestSize
      rw [bestFitFrom, if_neg notNull, List.foldl_cons]
      dsimp only
      by_cases fits : (header memory start).free ≠ 0 ∧ size ≤ (header memory start).size
      · rw [if_pos fits]
        by_cases smaller : (header memory start).size < bestSize
        · rw [if_pos smaller, keepSmaller_better fits smaller]
          by_cases exact : (header memory start).size = size
          · -- What is behind an exact fit does not matter.
            rw [if_pos exact, foldl_keepSmaller_of_exact exact.le]
          · rw [if_neg exact]
            exact later _ _
        · rw [if_neg smaller, keepSmaller_worse fun both => smaller both.2]
          exact later _ _
      · rw [if_neg fits, keepSmaller_worse fun both => fits both.1]
        exact later _ _

/-- On every chain both searches return the first of the smallest blocks that fit, and
null where no block that fits has a size below the sentinel. -/
theorem heapBestFitSearch_eq_blockAlloc {region : HeapRegion}
    (chain : Path (nextBlock memory) (blockPointer region.freeList) blocks) (size : Nat)
    {fuel : Nat} (enough : blocks.length < fuel) :
    ∃ found, heapBestFitSearch fuel memory (some region) size = some found ∧
      blockAlloc fuel memory heapType2 region size = some found ∧
      ((∃ block ∈ blocks, BlockFits memory size block ∧
          (header memory block).size < 0xFFFFFFFF) → IsBestFit memory size blocks found) ∧
      ((∀ block ∈ blocks, BlockFits memory size block →
          0xFFFFFFFF ≤ (header memory block).size) → found = 0) := by
  have sofar : BestSoFar memory size blocks (blocks.foldl (keepSmaller memory size) (0, 0xFFFFFFFF)) :=
    bestSoFar_foldl blocks
  refine ⟨(blocks.foldl (keepSmaller memory size) (0, 0xFFFFFFFF)).1, ?_, ?_, ?_, ?_⟩
  · exact bestFitFrom_eq_foldl chain enough 0 0xFFFFFFFF
  · rw [blockAlloc, if_neg (by decide), if_pos (by decide)]
    exact blockAllocFrom_eq_foldl chain enough 0 0xFFFFFFFF
  · rintro ⟨block, listed, fits, small⟩
    rcases sofar with ⟨_, large⟩ | ⟨isBest, _, _⟩
    · exact absurd small (not_lt.mpr (large block listed fits))
    · exact isBest
  · intro large
    rcases sofar with ⟨isStart, _⟩ | ⟨isBest, sized, small⟩
    · rw [isStart]
    · have isLarge := large _ isBest.mem.1 isBest.mem.2
      omega

end Walks

/-- Three free blocks, of which the second and the third fit equally well. -/
def tiedBlocks : Memory
  | 64 => 48
  | 72 => 1
  | 80 => 128
  | 128 => 40
  | 136 => 1
  | 144 => 192
  | 192 => 40
  | 200 => 1
  | _ => 0

theorem heapBestFitSearch_eq_blockAlloc_ties :
    ∃ found, heapBestFitSearch 4 tiedBlocks (some ⟨64, 256, 64⟩) 40 = some found ∧
      blockAlloc 4 tiedBlocks heapType2 ⟨64, 256, 64⟩ 40 = some found ∧
      IsBestFit tiedBlocks 40 [64, 128, 192] found := by
  have chain : Path (nextBlock tiedBlocks) (blockPointer (HeapRegion.mk 64 256 64).freeList)
      [64, 128, 192] := by
    have third : Path (nextBlock tiedBlocks) (some 192) [192] := .node .null
    have second : Path (nextBlock tiedBlocks) (some 128) [128, 192] := .node third
    exact .node second
  obtain ⟨found, searched, allocated, isBest, _⟩ :=
    heapBestFitSearch_eq_blockAlloc chain 40 (show 3 < 4 by decide)
  exact ⟨found, searched, allocated, isBest ⟨64, by decide, by decide, by decide⟩⟩

end Rtos

end MiniIotRobotEdge

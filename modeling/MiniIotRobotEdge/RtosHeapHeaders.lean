import MiniIotRobotEdge.RtosMemoryHeap

/-!
# Block headers in memory

What the field assignments of the heap do to the headers that do not overlap
the assigned one, and to the bytes outside it.  From these follow the headers
after `block_split` and after the two halves of `block_coalesce`.
-/

namespace MiniIotRobotEdge

namespace Rtos

/-- Two header addresses are the same or the headers do not overlap. -/
def HeadersApart (first second : Nat) : Prop :=
  first = second ∨ first + blockHeaderSize ≤ second ∨ second + blockHeaderSize ≤ first

/-- An address is not in the header of a block. -/
def OutsideHeader (block address : Nat) : Prop :=
  address < block ∨ block + blockHeaderSize ≤ address

theorem header_congr {memory other : Memory} {block : Nat}
    (same : ∀ address, block ≤ address → address < block + blockHeaderSize →
      other address = memory address) : header other block = header memory block := by
  unfold blockHeaderSize at same
  unfold header
  rw [Memory.load_congr fun target lower upper => same target (by omega) (by omega),
    Memory.load_congr fun target lower upper => same target (by omega) (by omega),
    Memory.load_congr fun target lower upper => same target (by omega) (by omega),
    Memory.load_congr fun target lower upper => same target (by omega) (by omega),
    Memory.load_congr fun target lower upper => same target (by omega) (by omega)]

/-- The bytes outside the headers of `blocks` are kept. -/
def KeepsOutside (blocks : List Nat) (memory changed : Memory) : Prop :=
  ∀ address, (∀ block ∈ blocks, OutsideHeader block address) → changed address = memory address

namespace KeepsOutside

variable {blocks : List Nat} {memory changed final : Memory} {block value : Nat}

theorem refl (blocks : List Nat) (memory : Memory) : KeepsOutside blocks memory memory :=
  fun _ _ => rfl

theorem trans (first : KeepsOutside blocks memory changed)
    (second : KeepsOutside blocks changed final) : KeepsOutside blocks memory final :=
  fun address outside => (second address outside).trans (first address outside)

theorem mono {more : List Nat} (kept : KeepsOutside blocks memory changed)
    (subset : ∀ block ∈ blocks, block ∈ more) : KeepsOutside more memory changed :=
  fun address outside => kept address fun block isMember => outside block (subset block isMember)

/-- A field of a header is written. -/
theorem store (offset : Nat) {width : Nat} (isMember : block ∈ blocks)
    (fits : offset + width ≤ blockHeaderSize) :
    KeepsOutside blocks memory (memory.store (block + offset) width value) := by
  intro address outside
  have outsideBlock := outside block isMember
  unfold OutsideHeader at outsideBlock
  exact Memory.store_outside (by omega)

theorem setSize (isMember : block ∈ blocks) :
    KeepsOutside blocks memory (setSize memory block value) :=
  store 0 isMember (by decide)

theorem setMagic (isMember : block ∈ blocks) :
    KeepsOutside blocks memory (setMagic memory block value) :=
  store 4 isMember (by decide)

theorem setFree (isMember : block ∈ blocks) :
    KeepsOutside blocks memory (setFree memory block value) :=
  store 8 isMember (by decide)

theorem setNext (isMember : block ∈ blocks) :
    KeepsOutside blocks memory (setNext memory block value) :=
  store 16 isMember (by decide)

theorem setPrev (isMember : block ∈ blocks) :
    KeepsOutside blocks memory (setPrev memory block value) :=
  store 24 isMember (by decide)

/-- Headers apart from the written ones are kept. -/
theorem header_eq (kept : KeepsOutside blocks memory changed) {other : Nat}
    (apart : ∀ block ∈ blocks, HeadersApart block other ∧ other ≠ block) :
    header changed other = header memory other := by
  refine header_congr fun address lower upper => kept address fun block isMember => ?_
  obtain ⟨apartBlock, otherNe⟩ := apart block isMember
  unfold HeadersApart at apartBlock
  unfold OutsideHeader
  omega

end KeepsOutside

section Setters

variable (memory : Memory) {block other : Nat} (value : Nat)

/-- A written field shows in its own header only. -/
theorem header_write {changed : Memory} {result : BlockHeader}
    (kept : KeepsOutside [block] memory changed) (apart : HeadersApart block other)
    (written : header changed block = result) :
    header changed other = if other = block then result else header memory other := by
  split
  case isTrue same => rw [same, written]
  case isFalse otherNe =>
    apply kept.header_eq
    intro changed isChanged
    rw [List.mem_singleton.mp isChanged]
    exact ⟨apart, otherNe⟩

theorem header_setSize (apart : HeadersApart block other) :
    header (setSize memory block value) other =
      if other = block then { header memory block with size := value % uint32Size }
      else header memory other := by
  apply header_write memory (.setSize (by simp)) apart
  unfold header setSize
  rw [Memory.load_store_self, Memory.load_store_apart (by omega),
    Memory.load_store_apart (by omega), Memory.load_store_apart (by omega),
    Memory.load_store_apart (by omega)]
  rfl

theorem header_setMagic (apart : HeadersApart block other) :
    header (setMagic memory block value) other =
      if other = block then { header memory block with magic := value % uint32Size }
      else header memory other := by
  apply header_write memory (.setMagic (by simp)) apart
  unfold header setMagic
  rw [Memory.load_store_self, Memory.load_store_apart (by omega),
    Memory.load_store_apart (by omega), Memory.load_store_apart (by omega),
    Memory.load_store_apart (by omega)]
  rfl

theorem header_setFree (apart : HeadersApart block other) :
    header (setFree memory block value) other =
      if other = block then { header memory block with free := value % 256 }
      else header memory other := by
  apply header_write memory (.setFree (by simp)) apart
  unfold header setFree
  rw [Memory.load_store_self, Memory.load_store_apart (by omega),
    Memory.load_store_apart (by omega), Memory.load_store_apart (by omega),
    Memory.load_store_apart (by omega)]
  rfl

theorem header_setNext (apart : HeadersApart block other) :
    header (setNext memory block value) other =
      if other = block then { header memory block with next := value % uintptrSize }
      else header memory other := by
  apply header_write memory (.setNext (by simp)) apart
  unfold header setNext
  rw [Memory.load_store_self, Memory.load_store_apart (by omega),
    Memory.load_store_apart (by omega), Memory.load_store_apart (by omega),
    Memory.load_store_apart (by omega)]
  rfl

theorem header_setPrev (apart : HeadersApart block other) :
    header (setPrev memory block value) other =
      if other = block then { header memory block with prev := value % uintptrSize }
      else header memory other := by
  apply header_write memory (.setPrev (by simp)) apart
  unfold header setPrev
  rw [Memory.load_store_self, Memory.load_store_apart (by omega),
    Memory.load_store_apart (by omega), Memory.load_store_apart (by omega),
    Memory.load_store_apart (by omega)]
  rfl

end Setters

theorem header_next_lt (memory : Memory) (block : Nat) :
    (header memory block).next < uintptrSize :=
  Memory.load_lt memory (block + 16) 8

theorem header_size_lt (memory : Memory) (block : Nat) :
    (header memory block).size < uint32Size :=
  Memory.load_lt memory block 4

/-- The five assignments that make the header of a new free block. -/
theorem header_freeBlock (memory : Memory) {block other : Nat} (size next prev : Nat)
    (apart : HeadersApart block other) :
    header (setPrev (setNext (setMagic (setFree (setSize memory block size) block 1) block
        blockMagicFree) block next) block prev) other =
      if other = block then
        { size := size % uint32Size, magic := blockMagicFree, free := 1,
          next := next % uintptrSize, prev := prev % uintptrSize }
      else header memory other := by
  have self : HeadersApart block block := .inl rfl
  simp only [header_setPrev _ _ apart, header_setNext _ _ apart, header_setMagic _ _ apart,
    header_setFree _ _ apart, header_setSize _ _ apart, header_setNext _ _ self,
    header_setMagic _ _ self, header_setFree _ _ self, header_setSize _ _ self, if_true]
  split <;> rfl

theorem keepsOutside_freeBlock (memory : Memory) {blocks : List Nat} {block : Nat}
    (size next prev : Nat) (isMember : block ∈ blocks) :
    KeepsOutside blocks memory (setPrev (setNext (setMagic (setFree (setSize memory block size)
      block 1) block blockMagicFree) block next) block prev) :=
  ((((KeepsOutside.setSize isMember).trans (.setFree isMember)).trans (.setMagic isMember)).trans
    (.setNext isMember)).trans (.setPrev isMember)

/-- `left` takes over the bytes and the successor of `right`. -/
def absorb (memory : Memory) (left right : Nat) : Memory :=
  let size := ((header memory left).size + (header memory right).size) % uint32Size
  let memory' := setNext (setSize memory left size) left (header memory right).next
  if (header memory right).next ≠ 0 then setPrev memory' (header memory right).next left
  else memory'

section Absorb

variable {memory : Memory} {left right other : Nat}

theorem coalesceNext_eq_absorb (linked : (header memory left).next = right) (notNull : right ≠ 0)
    (isFree : (header memory right).free ≠ 0) (apart : HeadersApart left right)
    (rightNe : right ≠ left) : coalesceNext memory left = absorb memory left right := by
  have leftHeader := fun value => header_setSize memory value (.inl rfl : HeadersApart left left)
  have rightHeader := fun value => header_setSize memory value apart
  simp only [if_true, if_neg rightNe] at leftHeader rightHeader
  have nextHeader := fun changed value =>
    header_setNext changed value (.inl rfl : HeadersApart left left)
  simp only [if_true] at nextHeader
  unfold coalesceNext absorb
  rw [linked, if_pos ⟨notNull, isFree⟩]
  simp only [leftHeader, linked, rightHeader, nextHeader,
    Nat.mod_eq_of_lt (header_next_lt memory right)]

theorem coalescePrev_eq_absorb (linked : (header memory right).prev = left) (notNull : left ≠ 0)
    (isFree : (header memory left).free ≠ 0) (apart : HeadersApart left right)
    (rightNe : right ≠ left) : coalescePrev memory right = absorb memory left right := by
  have sizeHeader := fun value => header_setSize memory value apart
  have nextHeader := fun changed value => header_setNext changed value apart
  simp only [if_neg rightNe] at sizeHeader nextHeader
  unfold coalescePrev absorb
  rw [linked, if_pos ⟨notNull, isFree⟩]
  simp only [sizeHeader, nextHeader, linked]

/-- The headers after a merge. -/
theorem header_absorb (apartLeft : HeadersApart left other)
    (apartNext : (header memory right).next ≠ 0 →
      HeadersApart (header memory right).next other ∧ (header memory right).next ≠ left) :
    header (absorb memory left right) other =
      if other = left then
        { header memory left with
          size := ((header memory left).size + (header memory right).size) % uint32Size
          next := (header memory right).next }
      else if (header memory right).next ≠ 0 ∧ other = (header memory right).next then
        { header memory other with prev := left % uintptrSize }
      else header memory other := by
  have nextLt := header_next_lt memory right
  have relinked : ∀ value, header (setNext (setSize memory left value) left
      (header memory right).next) other =
      if other = left then
        { header memory left with size := value % uint32Size, next := (header memory right).next }
      else header memory other := by
    intro value
    rw [header_setNext _ _ apartLeft, header_setSize _ _ (.inl rfl), if_pos rfl,
      header_setSize _ _ apartLeft, Nat.mod_eq_of_lt nextLt]
    split <;> rfl
  unfold absorb
  dsimp only
  split
  case isTrue notNull =>
    obtain ⟨apartOther, nextNe⟩ := apartNext notNull
    rw [header_setPrev _ _ apartOther, relinked, Nat.mod_mod]
    by_cases isNext : other = (header memory right).next
    · subst isNext
      rw [if_pos rfl, if_neg nextNe, if_pos ⟨notNull, rfl⟩, relinked, if_neg nextNe]
    · rw [if_neg isNext]
      simp only [isNext, and_false, if_false]
  case isFalse isNull =>
    rw [relinked, Nat.mod_mod]
    simp only [isNull, false_and, if_false]

theorem keepsOutside_absorb {blocks : List Nat} (leftMem : left ∈ blocks)
    (nextMem : (header memory right).next ≠ 0 → (header memory right).next ∈ blocks) :
    KeepsOutside blocks memory (absorb memory left right) := by
  unfold absorb
  dsimp only
  split
  case isTrue notNull =>
    exact ((KeepsOutside.setSize leftMem).trans (.setNext leftMem)).trans
      (.setPrev (nextMem notNull))
  case isFalse => exact (KeepsOutside.setSize leftMem).trans (.setNext leftMem)

end Absorb

section Split

variable {memory : Memory} {block size other : Nat}

theorem blockSplit_small (enough : size ≤ (header memory block).size)
    (small : (header memory block).size - size < heapMinBlockSize) :
    blockSplit memory block size = memory := by
  have sizeLt := header_size_lt memory block
  have remaining : ((header memory block).size + uint32Size - size) % uint32Size =
      (header memory block).size - size := by
    unfold uint32Size at *
    omega
  unfold blockSplit
  dsimp only
  rw [remaining, if_neg (by omega)]

/-- The assignments of a split, with the successor read once. -/
theorem blockSplit_eq (enough : size ≤ (header memory block).size)
    (large : heapMinBlockSize ≤ (header memory block).size - size)
    (room : blockHeaderSize ≤ size) :
    blockSplit memory block size =
      let fresh := setPrev (setNext (setMagic (setFree (setSize memory (block + size)
        ((header memory block).size - size)) (block + size) 1) (block + size) blockMagicFree)
        (block + size) (header memory block).next) (block + size) block
      setSize (setNext
        (if (header memory block).next ≠ 0 then
          setPrev fresh (header memory block).next (block + size)
        else fresh) block (block + size)) block size := by
  have sizeLt := header_size_lt memory block
  have remaining : ((header memory block).size + uint32Size - size) % uint32Size =
      (header memory block).size - size := by
    unfold uint32Size at *
    omega
  have newApart : HeadersApart (block + size) block := by
    unfold HeadersApart
    omega
  have newNe : block ≠ block + size := by
    unfold blockHeaderSize at room
    omega
  have oldNext : ∀ value, (header (setMagic (setFree (setSize memory (block + size) value)
      (block + size) 1) (block + size) blockMagicFree) block).next =
      (header memory block).next := by
    intro value
    rw [header_setMagic _ _ newApart, header_setFree _ _ newApart, header_setSize _ _ newApart]
    simp only [if_neg newNe]
  unfold blockSplit
  dsimp only
  rw [remaining, if_pos large, oldNext, header_freeBlock _ _ _ _ newApart, if_neg newNe]

/-- The headers after a split. -/
theorem header_blockSplit (enough : size ≤ (header memory block).size)
    (large : heapMinBlockSize ≤ (header memory block).size - size)
    (room : blockHeaderSize ≤ size) (fits : block + size < uintptrSize)
    (apartBlock : HeadersApart block other) (apartNew : HeadersApart (block + size) other)
    (apartNext : (header memory block).next ≠ 0 →
      HeadersApart (header memory block).next other ∧
      HeadersApart (header memory block).next block ∧ (header memory block).next ≠ block ∧
      HeadersApart (header memory block).next (block + size) ∧
      (header memory block).next ≠ block + size) :
    header (blockSplit memory block size) other =
      if other = block then { header memory block with size := size, next := block + size }
      else if other = block + size then
        { size := (header memory block).size - size, magic := blockMagicFree, free := 1,
          next := (header memory block).next, prev := block }
      else if (header memory block).next ≠ 0 ∧ other = (header memory block).next then
        { header memory other with prev := block + size }
      else header memory other := by
  have sizeLt := header_size_lt memory block
  have nextLt := header_next_lt memory block
  have newApart : HeadersApart (block + size) block := by
    unfold HeadersApart
    omega
  have newNe : block ≠ block + size := by
    unfold blockHeaderSize at room
    omega
  have fresh := fun {target : Nat} (apart : HeadersApart (block + size) target) =>
    header_freeBlock memory ((header memory block).size - size) (header memory block).next block
      apart
  -- The successor gets its new predecessor before the block itself is cut.
  have relinked : ∀ {changed : Memory} {target : Nat}, ((header memory block).next ≠ 0 →
      HeadersApart (header memory block).next target) →
      header (if (header memory block).next ≠ 0 then
        setPrev changed (header memory block).next (block + size) else changed) target =
      if (header memory block).next ≠ 0 ∧ target = (header memory block).next then
        { header changed target with prev := block + size }
      else header changed target := by
    intro changed target apart
    split
    case isTrue notNull =>
      rw [header_setPrev _ _ (apart notNull), Nat.mod_eq_of_lt fits]
      simp only [ne_eq, notNull, not_false_eq_true, true_and]
      split
      case isTrue same => rw [same]
      case isFalse => rfl
    case isFalse isNull => simp [isNull]
  have blockKept : ¬ ((header memory block).next ≠ 0 ∧ block = (header memory block).next) :=
    fun both => (apartNext both.1).2.2.1 both.2.symm
  have newKept : ¬ ((header memory block).next ≠ 0 ∧
      block + size = (header memory block).next) :=
    fun both => (apartNext both.1).2.2.2.2 both.2.symm
  rw [blockSplit_eq enough large room]
  dsimp only
  rw [header_setSize _ _ apartBlock, header_setNext _ _ (.inl rfl), if_pos rfl,
    header_setNext _ _ apartBlock, relinked fun notNull => (apartNext notNull).2.1,
    if_neg blockKept, fresh newApart, if_neg newNe, relinked fun notNull => (apartNext notNull).1,
    fresh apartNew, Nat.mod_eq_of_lt fits, Nat.mod_eq_of_lt nextLt]
  by_cases isBlock : other = block
  · simp only [isBlock, if_true]
    rw [Nat.mod_eq_of_lt (by omega)]
  simp only [isBlock, if_false]
  by_cases isNew : other = block + size
  · subst isNew
    rw [if_neg newKept]
    simp only [if_true]
    rw [Nat.mod_eq_of_lt (by omega), Nat.mod_eq_of_lt (by omega)]
  · simp only [isNew, if_false]

theorem keepsOutside_blockSplit {blocks : List Nat} (blockMem : block ∈ blocks)
    (newMem : heapMinBlockSize ≤ (header memory block).size - size → block + size ∈ blocks)
    (nextMem : (header memory block).next ≠ 0 → (header memory block).next ∈ blocks)
    (enough : size ≤ (header memory block).size) (room : blockHeaderSize ≤ size) :
    KeepsOutside blocks memory (blockSplit memory block size) := by
  by_cases large : heapMinBlockSize ≤ (header memory block).size - size
  case neg =>
    rw [blockSplit_small enough (by omega)]
    exact .refl blocks memory
  have fresh := keepsOutside_freeBlock memory ((header memory block).size - size)
    (header memory block).next block (newMem large)
  rw [blockSplit_eq enough large room]
  apply KeepsOutside.trans _ (.setSize blockMem)
  apply KeepsOutside.trans _ (.setNext blockMem)
  split
  case isTrue notNull => exact fresh.trans (.setPrev (nextMem notNull))
  case isFalse => exact fresh

end Split

end Rtos

end MiniIotRobotEdge

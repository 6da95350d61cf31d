import Mathlib.Data.Nat.Bitwise
import Mathlib.Data.UInt
import MiniIotRobotEdge.BumpRegion

/-!
# The bump allocators of mini-tinyml and mini-edge-ai

The tensor arena in `tflite_micro.c`, the one in `inference_opt.c` and the
memory pool in `edge_tpu_npu.c`, over the addresses of their regions.  Sizes
are `size_t` of 64 bits and wrap; addresses are exact.
-/

namespace MiniIotRobotEdge

namespace Ai

open BumpRegion StepRuns

/-- What the C library returns for `size` bytes. -/
structure MemoryBlock (align size : Nat) where
  address : Nat
  address_pos : 0 < address
  aligned : align ∣ address
  fits : address + size ≤ 2 ^ 64

theorem MemoryBlock.size_le {align size : Nat} (block : MemoryBlock align size) :
    size + align ≤ 2 ^ 64 := by
  have least := Nat.le_of_dvd block.address_pos block.aligned
  have fits := block.fits
  omega

/-- `(size + mask) & ~mask`. -/
def roundUpMask (mask size : UInt64) : UInt64 := (size + mask) &&& ~~~mask

section Rounding

theorem toNat_and_not_mask {bits : Nat} (small : bits < 64) (value : UInt64) :
    (value &&& ~~~UInt64.ofNat (2 ^ bits - 1)).toNat = value.toNat / 2 ^ bits * 2 ^ bits := by
  apply Nat.eq_of_testBit_eq
  intro index
  have masked : (value &&& ~~~UInt64.ofNat (2 ^ bits - 1)).toNat.testBit index =
      (value.toBitVec &&& ~~~BitVec.ofNat 64 (2 ^ bits - 1)).getLsbD index := rfl
  have plain : value.toBitVec.getLsbD index = value.toNat.testBit index := rfl
  rw [masked, ← Nat.shiftRight_eq_div_pow, ← Nat.shiftLeft_eq, Nat.testBit_shiftLeft,
    Nat.testBit_shiftRight, BitVec.getLsbD_and, BitVec.getLsbD_not, BitVec.getLsbD_ofNat,
    Nat.testBit_two_pow_sub_one, plain]
  by_cases inside : index < 64
  · by_cases low : bits ≤ index
    · simp [inside, low]
    · simp [low]
      omega
  · have beyond : value.toNat.testBit index = false :=
      (BitVec.getLsbD_of_ge value.toBitVec index (by omega) :)
    simp [beyond, show bits ≤ index by omega]

theorem roundUpMask_rounded {bits : Nat} (small : bits < 64) (size : UInt64) :
    Rounded (2 ^ bits) (2 ^ 64) size.toNat
      (roundUpMask (UInt64.ofNat (2 ^ bits - 1)) size).toNat := by
  have sizeBound := size.toNat_lt
  have power : 2 ^ bits < 2 ^ 64 := Nat.pow_lt_pow_right (by decide) small
  have positive := Nat.two_pow_pos bits
  have sum : (size + UInt64.ofNat (2 ^ bits - 1)).toNat =
      (size.toNat + (2 ^ bits - 1)) % 2 ^ 64 := by
    rw [UInt64.toNat_add, UInt64.toNat_ofNat',
      Nat.mod_eq_of_lt (show 2 ^ bits - 1 < 2 ^ 64 by omega)]
  rw [roundUpMask, toNat_and_not_mask small, sum]
  generalize 2 ^ bits = align at power positive ⊢
  have below := Nat.div_mul_le_self ((size.toNat + (align - 1)) % 2 ^ 64) align
  have above := Nat.lt_div_mul_add (a := (size.toNat + (align - 1)) % 2 ^ 64) positive
  constructor
  · intro fits
    rw [Nat.mod_eq_of_lt (by omega)] at above ⊢
    omega
  · intro fits
    rw [Nat.mod_eq_of_lt (by omega)] at below ⊢
    omega
  · exact Nat.dvd_mul_left _ _
  · intro past
    rw [Nat.mod_eq_sub_mod (by omega), Nat.mod_eq_of_lt (by omega), Nat.div_eq_of_lt (by omega),
      Nat.zero_mul]

/-- The sums of an arena: its size, its mark and the rounded request. -/
structure MarkSums (bits : Nat) (total used : UInt64) : Prop where
  small : bits < 64
  multiple : 2 ^ bits ∣ used.toNat
  bound : used.toNat ≤ total.toNat

/-- The request ends in the arena or before the last multiple of the alignment, and
does not begin on a live range. -/
def SumFits (bits : Nat) (total used size : UInt64) (live : Bool) : Prop :=
  used.toNat + size.toNat ≤ max total.toNat (2 ^ 64 - 2 ^ bits) ∧
    ¬Restarts used.toNat size.toNat live

instance (bits : Nat) (total used size : UInt64) (live : Bool) :
    Decidable (SumFits bits total used size live) :=
  inferInstanceAs (Decidable (_ ∧ _))

variable {bits : Nat} {total used size : UInt64}

theorem MarkSums.reset (sums : MarkSums bits total used) : MarkSums bits total 0 where
  small := sums.small
  multiple := Nat.dvd_zero _
  bound := Nat.zero_le _

/-- The mark stays a multiple of the alignment, also where the sum wraps. -/
theorem MarkSums.advance (sums : MarkSums bits total used) (size : UInt64)
    (passed : ¬total < used + roundUpMask (UInt64.ofNat (2 ^ bits - 1)) size) :
    MarkSums bits total (used + roundUpMask (UInt64.ofNat (2 ^ bits - 1)) size) where
  small := sums.small
  multiple := by
    rw [UInt64.toNat_add, Nat.dvd_mod_iff (Nat.pow_dvd_pow 2 sums.small.le)]
    exact Nat.dvd_add sums.multiple (roundUpMask_rounded sums.small size).multiple
  bound := UInt64.le_iff_toNat_le.mp (UInt64.not_lt.mp passed)

/-- A request that ends before the last multiple takes the mark behind its end. -/
theorem MarkSums.next_of_early (sums : MarkSums bits total used)
    (early : used.toNat + size.toNat + 2 ^ bits ≤ 2 ^ 64) :
    ∃ reserved, size.toNat ≤ reserved ∧ (size.toNat = 0 → reserved = 0) ∧
      used.toNat + reserved + 2 ^ bits ≤ 2 ^ 64 ∧
      (used + roundUpMask (UInt64.ofNat (2 ^ bits - 1)) size).toNat = used.toNat + reserved := by
  have positive := Nat.two_pow_pos bits
  have rounded := roundUpMask_rounded sums.small size
  have divides := Nat.pow_dvd_pow 2 sums.small.le
  obtain ⟨enough, inside⟩ := rounded.exact sums.multiple divides early
  refine ⟨_, enough, fun empty => ?_, inside, ?_⟩
  · rw [empty] at rounded
    exact rounded.empty (Nat.le_of_dvd (by decide) divides)
  · rw [UInt64.toNat_add, Nat.mod_eq_of_lt (by omega)]

/-- Any other request takes it back. -/
theorem MarkSums.next_of_late (sums : MarkSums bits total used)
    (late : ¬used.toNat + size.toNat + 2 ^ bits ≤ 2 ^ 64) :
    (used + roundUpMask (UInt64.ofNat (2 ^ bits - 1)) size).toNat ≤ used.toNat ∧
      (used.toNat + size.toNat < 2 ^ 64 →
        (used + roundUpMask (UInt64.ofNat (2 ^ bits - 1)) size).toNat = 0) := by
  rw [UInt64.toNat_add]
  exact (roundUpMask_rounded sums.small size).wraps sums.multiple
    (Nat.pow_dvd_pow 2 sums.small.le) used.toNat_lt (not_le.mp late)

/-- The mark leaves room for one alignment. -/
theorem MarkSums.early_of_empty (sums : MarkSums bits total used) :
    used.toNat + 2 ^ bits ≤ 2 ^ 64 := by
  by_contra late
  have usedBound := used.toNat_lt
  have past := Nat.le_of_lt_add_of_dvd (not_le.mp late) (Nat.pow_dvd_pow 2 sums.small.le)
    sums.multiple
  omega

/-- A request that the check of the mark refuses is none that wraps. -/
theorem MarkSums.fits_of_refused (sums : MarkSums bits total used) {live : Bool}
    (wide : live = true → used.toNat = 0 → 2 ^ 64 - 2 ^ bits < total.toNat)
    (refused : total < used + roundUpMask (UInt64.ofNat (2 ^ bits - 1)) size) :
    SumFits bits total used size live := by
  rw [UInt64.lt_iff_toNat_lt] at refused
  have bound := sums.bound
  by_cases early : used.toNat + size.toNat + 2 ^ bits ≤ 2 ^ 64
  · obtain ⟨reserved, enough, _, inside, next⟩ := sums.next_of_early early
    refine ⟨le_max_of_le_right (by omega), ?_⟩
    rintro ⟨_, back, isLive⟩
    have whole := wide isLive back
    omega
  · have back := (sums.next_of_late early).1
    omega

/-- What a request does that passes the check of the mark. -/
theorem MarkSums.outcome_of_passed (sums : MarkSums bits total used) (base : Nat) {live : Bool}
    (passed : ¬total < used + roundUpMask (UInt64.ofNat (2 ^ bits - 1)) size) :
    Outcome base total.toNat (2 ^ 64 - 2 ^ bits) used.toNat size.toNat live
      (SumFits bits total used size live)
      (used + roundUpMask (UInt64.ofNat (2 ^ bits - 1)) size).toNat
      (some (base + used.toNat)) := by
  rw [UInt64.not_lt, UInt64.le_iff_toNat_le] at passed
  by_cases restarts : Restarts used.toNat size.toNat live
  · exact .restarted (fun fits => fits.2 restarts) restarts
  · by_cases early : used.toNat + size.toNat + 2 ^ bits ≤ 2 ^ 64
    · obtain ⟨reserved, enough, nothing, inside, next⟩ := sums.next_of_early early
      rw [next] at passed ⊢
      exact .granted ⟨le_max_of_le_right (by omega), restarts⟩ restarts enough nothing passed
    · by_cases ends : used.toNat + size.toNat ≤ total.toNat
      · have totalBound := total.toNat_lt
        have room := sums.early_of_empty
        rw [(sums.next_of_late early).2 (by omega)]
        exact .whole ⟨le_max_of_le_left ends, restarts⟩ restarts (by omega) (by omega) ends
      · refine .excessive (fun fits => ?_) (by omega)
        rcases le_max_iff.mp fits.1 with inside | inside <;> omega

end Rounding

section TensorFlow

/-- The arena of mini-tinyml. -/
structure TFLiteTensorArena where
  arena : Nat
  arenaSize : UInt64
  usedBytes : UInt64

def tfliteTensorArenaCreate (arenaSize : UInt64) (block : MemoryBlock 16 arenaSize.toNat) :
    TFLiteTensorArena where
  arena := block.address
  arenaSize := arenaSize
  usedBytes := 0

def tfliteTensorArenaAlloc (arena : TFLiteTensorArena) (bytes : UInt64) :
    TFLiteTensorArena × Option Nat :=
  if bytes = 0 then (arena, none)
  else
    let aligned := roundUpMask 15 bytes
    if arena.arenaSize < arena.usedBytes + aligned then (arena, none)
    else
      ({ arena with usedBytes := arena.usedBytes + aligned },
        some (arena.arena + arena.usedBytes.toNat))

def tfliteTensorArenaReset (arena : TFLiteTensorArena) : TFLiteTensorArena :=
  { arena with usedBytes := 0 }

def tfliteAllocator : Allocator TFLiteTensorArena UInt64 where
  alloc := tfliteTensorArenaAlloc
  reset := tfliteTensorArenaReset
  size := UInt64.toNat
  last := 2 ^ 64 - 16
  base := TFLiteTensorArena.arena
  total := fun arena => arena.arenaSize.toNat
  used := fun arena => arena.usedBytes.toNat

/-- No request, or one that stays below the last multiple of 16. -/
def TfliteFits (arena : TFLiteTensorArena) (_ : Bool) (bytes : UInt64) : Prop :=
  bytes = 0 ∨ arena.usedBytes.toNat + bytes.toNat + 16 ≤ 2 ^ 64

instance (arena : TFLiteTensorArena) (live : Bool) (bytes : UInt64) :
    Decidable (TfliteFits arena live bytes) :=
  inferInstanceAs (Decidable (_ ∨ _))

structure TFLiteTensorArena.Proper (arena : TFLiteTensorArena) : Prop where
  sums : MarkSums 4 arena.arenaSize arena.usedBytes
  room : arena.arenaSize.toNat + 16 ≤ 2 ^ 64

theorem tflite_create_proper (arenaSize : UInt64) (block : MemoryBlock 16 arenaSize.toNat) :
    (tfliteTensorArenaCreate arenaSize block).Proper where
  sums :=
    { small := by decide
      multiple := Nat.dvd_zero 16
      bound := Nat.zero_le _ }
  room := block.size_le

theorem tflite_lawful : tfliteAllocator.Lawful TFLiteTensorArena.Proper TfliteFits where
  alloc_invariant := by
    intro arena bytes proper
    change (tfliteTensorArenaAlloc arena bytes).1.Proper
    rw [tfliteTensorArenaAlloc]
    dsimp only
    split_ifs with zero full
    · exact proper
    · exact proper
    · exact ⟨proper.sums.advance bytes full, proper.room⟩
  reset_invariant := fun proper => ⟨proper.sums.reset, proper.room⟩
  alloc_base := by
    intro arena bytes
    simp only [tfliteAllocator, tfliteTensorArenaAlloc]
    split_ifs <;> rfl
  alloc_total := by
    intro arena bytes
    simp only [tfliteAllocator, tfliteTensorArenaAlloc]
    split_ifs <;> rfl
  reset_used := fun _ => rfl
  outcome := by
    intro arena bytes live proper wide
    have room := proper.room
    -- The mark of so small an arena is never back in front of live ranges.
    have same (notZero : bytes ≠ 0) : SumFits 4 arena.arenaSize arena.usedBytes bytes live ↔
        TfliteFits arena live bytes := by
      have never : ¬Restarts arena.usedBytes.toNat bytes.toNat live := by
        rintro ⟨_, back, isLive⟩
        have whole : 2 ^ 64 - 16 < arena.arenaSize.toNat := wide isLive back
        omega
      rw [SumFits, TfliteFits, and_iff_left never, or_iff_right notZero, max_eq_right (by omega)]
      omega
    simp only [tfliteAllocator, tfliteTensorArenaAlloc]
    split_ifs with zero full
    · exact .refused (.inl zero)
    · exact .refused ((same zero).mp (proper.sums.fits_of_refused wide full))
    · exact (proper.sums.outcome_of_passed arena.arena full).congr (same zero)

end TensorFlow

section Arena

/-- The arena of mini-edge-ai. -/
structure TensorArena where
  base : Nat
  totalSize : UInt64
  used : UInt64
  numAllocations : Int32

/-- Room for a pointer in front of an aligned address.  The size of the block wraps. -/
def alignedMalloc (alignment size : UInt64)
    (raw : MemoryBlock 16 (size + alignment + 8).toNat) : Nat :=
  let addr := raw.address + 8
  let mis := addr % alignment.toNat
  if 0 < mis then addr + (alignment.toNat - mis) else addr

def arenaCreate (size : UInt64) (raw : MemoryBlock 16 (size + 64 + 8).toNat) : TensorArena where
  base := alignedMalloc 64 size raw
  totalSize := size
  used := 0
  numAllocations := 0

def arenaAlloc (arena : TensorArena) (size : UInt64) : TensorArena × Option Nat :=
  if arena.totalSize < arena.used + size then (arena, none)
  else
    let aligned := roundUpMask 63 size
    if arena.totalSize < arena.used + aligned then (arena, none)
    else
      ({ arena with
          used := arena.used + aligned
          numAllocations := arena.numAllocations + 1 },
        some (arena.base + arena.used.toNat))

def arenaReset (arena : TensorArena) : TensorArena :=
  { arena with used := 0, numAllocations := 0 }

/-- The sum with the mark does not wrap, and either it is behind the arena or the
request does not begin on a live range. -/
def ArenaFits (arena : TensorArena) (live : Bool) (size : UInt64) : Prop :=
  arena.used.toNat + size.toNat < 2 ^ 64 ∧
    (arena.totalSize.toNat < arena.used.toNat + size.toNat ∨
      ¬Restarts arena.used.toNat size.toNat live)

instance (arena : TensorArena) (live : Bool) (size : UInt64) :
    Decidable (ArenaFits arena live size) :=
  inferInstanceAs (Decidable (_ ∧ _))

def arenaAllocator : Allocator TensorArena UInt64 where
  alloc := arenaAlloc
  reset := arenaReset
  size := UInt64.toNat
  last := 2 ^ 64 - 64
  base := TensorArena.base
  total := fun arena => arena.totalSize.toNat
  used := fun arena => arena.used.toNat

def TensorArena.Proper (arena : TensorArena) : Prop := MarkSums 6 arena.totalSize arena.used

theorem arena_create_proper (size : UInt64) (raw : MemoryBlock 16 (size + 64 + 8).toNat) :
    (arenaCreate size raw).Proper where
  small := by decide
  multiple := Nat.dvd_zero _
  bound := Nat.zero_le _

/-- The region of an arena is aligned, and inside the block it was made from if the
size of the block does not wrap. -/
theorem alignedMalloc_inside {alignment size : UInt64} (positive : 0 < alignment.toNat)
    (whole : size.toNat + alignment.toNat + 8 < 2 ^ 64)
    (raw : MemoryBlock 16 (size + alignment + 8).toNat) :
    alignment.toNat ∣ alignedMalloc alignment size raw ∧
      raw.address + 8 ≤ alignedMalloc alignment size raw ∧
      alignedMalloc alignment size raw + size.toNat ≤
        raw.address + (size + alignment + 8).toNat := by
  have remainder := Nat.mod_lt (raw.address + 8) positive
  have exact : (size + alignment + 8).toNat = size.toNat + alignment.toNat + 8 := by
    rw [UInt64.toNat_add, UInt64.toNat_add]
    change ((size.toNat + alignment.toNat) % 2 ^ 64 + 8) % 2 ^ 64 = _
    omega
  rw [alignedMalloc]
  split_ifs with misaligned
  · refine ⟨?_, by omega, by omega⟩
    have aligned : raw.address + 8 + (alignment.toNat - (raw.address + 8) % alignment.toNat) =
        raw.address + 8 - (raw.address + 8) % alignment.toNat + alignment.toNat := by
      have below := Nat.mod_le (raw.address + 8) alignment.toNat
      omega
    rw [aligned]
    exact Nat.dvd_add (Nat.dvd_sub_mod _) (Nat.dvd_refl _)
  · exact ⟨Nat.dvd_of_mod_eq_zero (by omega), le_rfl, by omega⟩

theorem arena_lawful : arenaAllocator.Lawful TensorArena.Proper ArenaFits where
  alloc_invariant := by
    intro arena size proper
    change (arenaAlloc arena size).1.Proper
    rw [arenaAlloc]
    dsimp only
    split_ifs with exceeds full
    · exact proper
    · exact proper
    · exact proper.advance size full
  reset_invariant := MarkSums.reset
  alloc_base := by
    intro arena size
    simp only [arenaAllocator, arenaAlloc]
    split_ifs <;> rfl
  alloc_total := by
    intro arena size
    simp only [arenaAllocator, arenaAlloc]
    split_ifs <;> rfl
  reset_used := fun _ => rfl
  outcome := by
    intro arena size live proper wide
    have bound := proper.bound
    have sizeBound := size.toNat_lt
    have totalBound := arena.totalSize.toNat_lt
    have exceeds_iff : arena.totalSize < arena.used + size ↔
        arena.totalSize.toNat < (arena.used.toNat + size.toNat) % 2 ^ 64 := by
      rw [UInt64.lt_iff_toNat_lt, UInt64.toNat_add]
    -- Behind the first check the sum is in the arena, or it wraps.
    have same (inside : ¬arena.totalSize < arena.used + size) :
        SumFits 6 arena.totalSize arena.used size live ↔ ArenaFits arena live size := by
      rw [exceeds_iff] at inside
      rw [SumFits, ArenaFits, le_max_iff]
      by_cases exact : arena.used.toNat + size.toNat < 2 ^ 64
      · rw [or_iff_right (show ¬arena.totalSize.toNat < _ by omega)]
        exact and_congr_left fun _ => iff_of_true (.inl (by omega)) exact
      · refine iff_of_false (fun fits => ?_) fun fits => exact fits.1
        rcases fits.1 with ends | ends <;> omega
    simp only [arenaAllocator, arenaAlloc]
    split_ifs with exceeds full
    · rw [exceeds_iff] at exceeds
      exact .refused ⟨by omega, .inl (by omega)⟩
    · exact .refused ((same exceeds).mp (proper.fits_of_refused wide full))
    · exact (proper.outcome_of_passed arena.base full).congr (same exceeds)

end Arena

section Pool

def accelMempoolMaxBlocks : Nat := 32

structure AccelMemPool where
  base : Nat
  totalSize : UInt64
  blockSizes : Vector UInt64 accelMempoolMaxBlocks
  blockPtrs : Vector Nat accelMempoolMaxBlocks
  numBlocks : Nat
  used : UInt64

/-- The size of the block wraps. -/
def accelMempoolCreate (totalSize : UInt64) (block : MemoryBlock 16 (totalSize + 64).toNat) :
    AccelMemPool where
  base := block.address
  totalSize := totalSize
  blockSizes := .replicate _ 0
  blockPtrs := .replicate _ 0
  numBlocks := 0
  used := 0

def accelMempoolAlloc (pool : AccelMemPool) (size : UInt64) : AccelMemPool × Option Nat :=
  if accelMempoolMaxBlocks ≤ pool.numBlocks then (pool, none)
  else
    let aligned := roundUpMask 63 size
    if pool.totalSize < pool.used + aligned then (pool, none)
    else
      let ptr := pool.base + pool.used.toNat
      ({ pool with
          blockSizes := pool.blockSizes.setIfInBounds pool.numBlocks aligned
          blockPtrs := pool.blockPtrs.setIfInBounds pool.numBlocks ptr
          numBlocks := pool.numBlocks + 1
          used := pool.used + aligned }, some ptr)

def accelMempoolReset (pool : AccelMemPool) : AccelMemPool :=
  { pool with numBlocks := 0, used := 0 }

/-- No block is left, or the sums of the request fit. -/
def PoolFits (pool : AccelMemPool) (live : Bool) (size : UInt64) : Prop :=
  accelMempoolMaxBlocks ≤ pool.numBlocks ∨ SumFits 6 pool.totalSize pool.used size live

instance (pool : AccelMemPool) (live : Bool) (size : UInt64) :
    Decidable (PoolFits pool live size) :=
  inferInstanceAs (Decidable (_ ∨ _))

def poolAllocator : Allocator AccelMemPool UInt64 where
  alloc := accelMempoolAlloc
  reset := accelMempoolReset
  size := UInt64.toNat
  last := 2 ^ 64 - 64
  base := AccelMemPool.base
  total := fun pool => pool.totalSize.toNat
  used := fun pool => pool.used.toNat

def AccelMemPool.Proper (pool : AccelMemPool) : Prop := MarkSums 6 pool.totalSize pool.used

theorem pool_create_proper (totalSize : UInt64) (block : MemoryBlock 16 (totalSize + 64).toNat) :
    (accelMempoolCreate totalSize block).Proper where
  small := by decide
  multiple := Nat.dvd_zero _
  bound := Nat.zero_le _

theorem pool_lawful : poolAllocator.Lawful AccelMemPool.Proper PoolFits where
  alloc_invariant := by
    intro pool size proper
    change (accelMempoolAlloc pool size).1.Proper
    rw [accelMempoolAlloc]
    dsimp only
    split_ifs with filled full
    · exact proper
    · exact proper
    · exact proper.advance size full
  reset_invariant := MarkSums.reset
  alloc_base := by
    intro pool size
    simp only [poolAllocator, accelMempoolAlloc]
    split_ifs <;> rfl
  alloc_total := by
    intro pool size
    simp only [poolAllocator, accelMempoolAlloc]
    split_ifs <;> rfl
  reset_used := fun _ => rfl
  outcome := by
    intro pool size live proper wide
    simp only [poolAllocator, accelMempoolAlloc]
    split_ifs with filled full
    · exact .refused (.inl filled)
    · exact .refused (.inr (proper.fits_of_refused wide full))
    · exact (proper.outcome_of_passed pool.base full).congr (or_iff_right filled).symm

end Pool

/-- The three allocators keep their promise in exactly the runs in which every
request fits when it is made: it is refused first, or its sum with the mark does
not wrap and no live range is in front of a mark at the start. -/
theorem bump_allocators_sound_iff (size : UInt64) (calls : List (Call UInt64)) :
    (∀ block : MemoryBlock 16 size.toNat,
      Always tfliteAllocator.step tfliteAllocator.RunSound
          ⟨tfliteTensorArenaCreate size block, []⟩ calls ↔
        Throughout tfliteAllocator.step (Allocator.CallFits TfliteFits)
          ⟨tfliteTensorArenaCreate size block, []⟩ calls) ∧
    (∀ raw : MemoryBlock 16 (size + 64 + 8).toNat,
      Always arenaAllocator.step arenaAllocator.RunSound ⟨arenaCreate size raw, []⟩ calls ↔
        Throughout arenaAllocator.step (Allocator.CallFits ArenaFits)
          ⟨arenaCreate size raw, []⟩ calls) ∧
    ∀ block : MemoryBlock 16 (size + 64).toNat,
      Always poolAllocator.step poolAllocator.RunSound ⟨accelMempoolCreate size block, []⟩ calls ↔
        Throughout poolAllocator.step (Allocator.CallFits PoolFits)
          ⟨accelMempoolCreate size block, []⟩ calls := by
  constructor
  · intro block
    exact tflite_lawful.sound_iff (tflite_create_proper size block) rfl calls
  constructor
  · intro raw
    exact arena_lawful.sound_iff (arena_create_proper size raw) rfl calls
  · intro block
    exact pool_lawful.sound_iff (pool_create_proper size block) rfl calls

def sampleBlock (size : Nat) (small : size ≤ 2 ^ 32) : MemoryBlock 16 size where
  address := 4096
  address_pos := by decide
  aligned := by decide
  fits := by omega

/-- A request that rounds to nothing is granted, and one that wraps takes the
mark back onto a live range. -/
theorem bump_requests_wrap :
    ¬Always tfliteAllocator.step tfliteAllocator.RunSound
        ⟨tfliteTensorArenaCreate 1024 (sampleBlock _ (by decide)), []⟩
        [.alloc 0xFFFFFFFFFFFFFFFF] ∧
      ¬Always arenaAllocator.step arenaAllocator.RunSound
        ⟨arenaCreate 1024 (sampleBlock _ (by decide)), []⟩
        [.alloc 64, .alloc 0xFFFFFFFFFFFFFFC0] ∧
      ¬Always poolAllocator.step poolAllocator.RunSound
        ⟨accelMempoolCreate 1024 (sampleBlock _ (by decide)), []⟩
        [.alloc 0xFFFFFFFFFFFFFFFF] := by
  refine ⟨fun sound => ?_, fun sound => ?_, fun sound => ?_⟩
  · have fits := (tflite_lawful.sound_iff (tflite_create_proper _ _) rfl _).mp sound
    exact absurd fits.1 (by decide)
  · have fits := (arena_lawful.sound_iff (arena_create_proper _ _) rfl _).mp sound
    exact absurd fits.2.1 (by decide)
  · have fits := (pool_lawful.sound_iff (pool_create_proper _ _) rfl _).mp sound
    exact absurd fits.1 (by decide)

end Ai

end MiniIotRobotEdge

import MiniIotRobotEdge.RtosHeapRegions
import MiniIotRobotEdge.StepRuns

/-!
# Region bounds and the low-water mark

`heap_region_init` does not compare the aligned ends of a buffer, and it
compares the low-water mark with the size of the new region alone.  The
values that the free size has had since the first region are kept beside the
heap.
-/

namespace MiniIotRobotEdge

namespace Rtos

open StepRuns

/-- A region that was made of a buffer lies inside it. -/
def RegionInside (start size : Nat) (region : HeapRegion) : Prop :=
  region ≠ {} → start ≤ region.start ∧ region.start ≤ region.stop ∧ region.stop ≤ start + size

/-- The entry that `heap_region_init` leaves in the table. -/
def regionEntry (start size : Nat) : HeapRegion :=
  if heapMinBlockSize * 2 ≤ usableSize start size then bufferRegion start size else {}

section Bounds

variable {start size : Nat}

theorem bufferRegion_ne (large : heapMinBlockSize * 2 ≤ usableSize start size) :
    bufferRegion start size ≠ {} := by
  intro isEmpty
  have isStart : (bufferRegion start size).start = 0 := by rw [isEmpty]
  have isStop : (bufferRegion start size).stop = 0 := by rw [isEmpty]
  simp only [bufferRegion] at isStart isStop
  rw [usableSize, isStart, isStop] at large
  exact absurd large (by decide)

theorem heapRegionInit_entry (heap : Heap) (start size : Nat) :
    (heapRegionInit heap {} start size).2 = regionEntry start size := by
  unfold regionEntry
  split
  case isTrue large =>
    obtain ⟨_, created⟩ := heapRegionInit_large heap {} large
    rw [created]
  case isFalse small =>
    rw [heapRegionInit_small heap {} (Nat.lt_of_not_le small)]

theorem heapInit_regions (heap : Heap) (start size type : Nat) :
    (heapInit heap start size type).regions = [regionEntry start size] := by
  rw [heapInit]
  dsimp only
  rw [heapRegionInit_entry]

theorem heapAddRegion_regions (heap : Heap) (start size : Nat) :
    (heapAddRegion heap start size).regions =
      if heapMaxRegions ≤ heap.regions.length then heap.regions
      else heap.regions ++ [regionEntry start size] := by
  obtain ⟨_, _, _, created⟩ := heapRegionInit_eq heap {} start size
  have isEntry := heapRegionInit_entry heap start size
  rw [created] at isEntry
  unfold heapAddRegion
  split
  · rfl
  · rw [created, ← isEntry]

/-- The region of a buffer lies inside it, unless an end wraps around or is not
aligned. -/
theorem bufferRegion_inside_iff (startLt : start < uintptrSize) (sizeLt : size < uint32Size) :
    (start ≤ (bufferRegion start size).start ∧
      (bufferRegion start size).start ≤ (bufferRegion start size).stop ∧
      (bufferRegion start size).stop ≤ start + size) ↔
      AlignedInside start size ∧ start + size < uintptrSize := by
  unfold bufferRegion AlignedInside heapAlignment
  dsimp only
  rcases Nat.lt_or_ge (start + 8 - 1) uintptrSize with startInRange | startWraps
  · rw [Nat.mod_eq_of_lt startInRange]
    rcases Nat.lt_or_ge (start + size) uintptrSize with stopInRange | stopWraps
    · rw [Nat.mod_eq_of_lt stopInRange]
      omega
    · have wrapped : (start + size) % uintptrSize < uint32Size := by
        unfold uintptrSize uint32Size at *
        omega
      unfold uintptrSize uint32Size at *
      omega
  · have wrapped : (start + 8 - 1) % uintptrSize < 8 := by
      unfold uintptrSize at *
      omega
    have isNull : (start + 8 - 1) % uintptrSize / 8 * 8 = 0 := by omega
    rw [isNull]
    unfold uintptrSize at *
    omega

/-- An entry that was made lies inside its buffer exactly when the buffer has an
aligned address and its end is an address. -/
theorem regionEntry_inside_iff (startLt : start < uintptrSize) (sizeLt : size < uint32Size) :
    RegionInside start size (regionEntry start size) ↔
      AlignedInside start size ∧
        (start + size < uintptrSize ∨ alignedRoom start size < heapMinBlockSize * 2) := by
  unfold regionEntry RegionInside
  split
  case isTrue large =>
    rw [forall_prop_of_true (bufferRegion_ne large), bufferRegion_inside_iff startLt sizeLt]
    refine and_congr_right fun aligned => (or_iff_left ?_).symm
    rw [usableSize_of_aligned sizeLt aligned] at large
    exact Nat.not_lt.mpr large
  case isFalse small =>
    have aligned : AlignedInside start size := by
      by_contra notAligned
      rw [usableSize_of_not_aligned notAligned] at small
      exact small (by decide)
    rw [usableSize_of_aligned sizeLt aligned] at small
    exact ⟨fun _ => ⟨aligned, .inr (Nat.lt_of_not_le small)⟩, fun _ made => absurd rfl made⟩

end Bounds

/-- The calls that change the free size. -/
inductive FreeSizeOp
  | addRegion (start size : Nat)
  | malloc (size : Nat)
  | free (ptr : Nat)

def FreeSizeOp.op : FreeSizeOp → HeapOp
  | addRegion start size => .addRegion start size
  | malloc size => .malloc size
  | free ptr => .free ptr

/-- Some entry of the table is a region. -/
def hasRegion (heap : Heap) : Bool :=
  heap.regions.any fun region => region ≠ {}

/-- The heap with the values that its free size has had after each call since
the first region was added, the latest first. -/
structure WatchedHeap where
  system : HeapSystem
  seen : List Nat

def WatchedHeap.watch (system : HeapSystem) (seen : List Nat) : WatchedHeap where
  system := system
  seen := if hasRegion system.heap then system.heap.stats.freeSize :: seen else seen

def WatchedHeap.init (heap : Heap) (start size type : Nat) : WatchedHeap :=
  .watch (.init heap start size type) []

/-- A call that does not return with the given fuel changes nothing. -/
def WatchedHeap.step (fuel : Nat) (watched : WatchedHeap) (call : FreeSizeOp) : WatchedHeap :=
  .watch ((watched.system.exec fuel call.op).getD watched.system) watched.seen

/-- Only owned pointers are released. -/
def FreesLive (watched : WatchedHeap) (call : FreeSizeOp) : Prop :=
  ∀ ptr, call = .free ptr → ptr ∈ watched.system.live

/-- `heap_get_min_free` is the smallest value seen. -/
def LowMark (watched : WatchedHeap) : Prop :=
  ∀ low ∈ watched.seen.min?, watched.system.heap.stats.minFreeEver = low

/-- The call makes a region of its buffer. -/
def Creates (system : HeapSystem) (call : FreeSizeOp) (start size : Nat) : Prop :=
  call = .addRegion start size ∧ system.heap.regions.length < heapMaxRegions ∧
    heapMinBlockSize * 2 ≤ usableSize start size

/-- A region that is added to others is not smaller than the low-water mark,
which is not zero, and the new free size does not wrap around below it. -/
def KeepsLowMark (watched : WatchedHeap) (call : FreeSizeOp) : Prop :=
  ∀ start size, Creates watched.system call start size → hasRegion watched.system.heap →
    watched.system.heap.stats.minFreeEver ≠ 0 ∧
      watched.system.heap.stats.minFreeEver ≤ usableSize start size ∧
      watched.system.heap.stats.minFreeEver ≤
        (watched.system.heap.stats.freeSize + usableSize start size) % uint32Size

/-- Before the first region nothing has happened; from then on the last value
seen is the free size. -/
structure Watched (watched : WatchedHeap) : Prop where
  before : hasRegion watched.system.heap = false →
    watched.system.live = [] ∧ watched.system.heap.stats = {} ∧ watched.seen = []
  after : hasRegion watched.system.heap = true →
    ∃ rest, watched.seen = watched.system.heap.stats.freeSize :: rest
  freeLt : watched.system.heap.stats.freeSize < uint32Size

section Steps

variable {system next : HeapSystem} {fuel : Nat} {call : FreeSizeOp} {heap : Heap}

/-- Without a region no block is found. -/
theorem hasRegion_of_found {memory : Memory} {heapType size block : Nat}
    {regions : List HeapRegion} (notNull : block ≠ 0)
    (searched : allocFromRegions fuel memory heapType size regions = some block) :
    (regions.any fun region => region ≠ {}) = true := by
  induction regions with
  | nil => exact absurd (Option.some.inj searched).symm notNull
  | cons region rest ih =>
      rw [List.any_cons, Bool.or_eq_true]
      by_cases made : region = {}
      · refine .inr (ih ?_)
        subst made
        have nothing : blockAlloc fuel memory heapType {} size = none ∨
            blockAlloc fuel memory heapType {} size = some 0 := by
          unfold blockAlloc
          split
          · exact .inr rfl
          split
          · cases fuel with
            | zero => exact .inl rfl
            | succ fuel => exact .inr (if_pos rfl)
          · exact .inr rfl
        rw [allocFromRegions] at searched
        rcases nothing with exhausted | isNull
        · simp [exhausted] at searched
        · simpa [isNull] using searched
      · exact .inl (by simpa using made)

/-- What a call does to the statistics. -/
inductive StatsEffect (system next : HeapSystem) (call : FreeSizeOp) : Prop
  | same (noRegion : ∀ start size, ¬Creates system call start size)
      (stats : next.heap.stats = system.heap.stats)
      (table : hasRegion next.heap = hasRegion system.heap)
      (live : hasRegion system.heap = false → next.live = system.live)
  | changed (noRegion : ∀ start size, ¬Creates system call start size)
      (before : hasRegion system.heap = true) (after : hasRegion next.heap = true)
      (freeLt : next.heap.stats.freeSize < uint32Size)
      (lowMark : next.heap.stats.minFreeEver =
        min next.heap.stats.freeSize system.heap.stats.minFreeEver)
  | created {start size : Nat} (makes : Creates system call start size)
      (after : hasRegion next.heap = true)
      (stats : next.heap.stats = system.heap.stats.add (usableSize start size))

theorem take_minFreeEver (stats : HeapStats) (size : Nat) :
    (stats.take size).minFreeEver = min (stats.take size).freeSize stats.minFreeEver := by
  rw [take_freeSize, HeapStats.take, HeapStats.takeTo, updateAllocation_eq]
  dsimp only
  rw [min_def]
  split <;> split <;> omega

theorem give_minFreeEver (stats : HeapStats) (size : Nat) :
    (stats.give size).minFreeEver = min (stats.give size).freeSize stats.minFreeEver := by
  rw [give_freeSize, HeapStats.give, heapStatsUpdateFree]
  dsimp only
  rw [min_def]
  split <;> split <;> omega

theorem freeRtos_stats (heap : Heap) (ptr : Nat) :
    (freeRtos heap ptr).regions = heap.regions ∧
      ((freeRtos heap ptr).stats = heap.stats ∨
        ∃ size, (freeRtos heap ptr).stats = heap.stats.give size) := by
  unfold freeRtos
  split
  · exact ⟨rfl, .inl rfl⟩
  dsimp only
  split
  · exact ⟨rfl, .inl rfl⟩
  · exact ⟨rfl, .inr ⟨_, rfl⟩⟩

theorem malloc_effect {size ptr : Nat}
    (returned : mallocRtos fuel system.heap size = some (ptr, heap)) :
    StatsEffect system { heap := heap, live := owned system.live ptr } (.malloc size) := by
  have noRegion : ∀ start length, ¬Creates system (.malloc size) start length := by
    simp [Creates]
  rcases mallocRtos_cases returned with ⟨rfl, rfl⟩ | ⟨block, notNull, searched, rfl, rfl⟩
  · exact .same noRegion rfl rfl fun _ => show owned system.live 0 = system.live from if_pos rfl
  · have found : hasRegion system.heap = true := hasRegion_of_found notNull searched
    refine .changed noRegion found found ?_ (take_minFreeEver _ _)
    dsimp only
    rw [take_freeSize]
    exact Nat.mod_lt _ (Nat.two_pow_pos 32)

theorem free_effect {ptr : Nat} (found : hasRegion system.heap = true) :
    StatsEffect system { heap := freeRtos system.heap ptr, live := system.live.erase ptr }
      (.free ptr) := by
  have noRegion : ∀ start length, ¬Creates system (.free ptr) start length := by
    simp [Creates]
  obtain ⟨regions, stats⟩ := freeRtos_stats system.heap ptr
  have table : hasRegion (freeRtos system.heap ptr) = hasRegion system.heap := by
    rw [hasRegion, regions, hasRegion]
  rcases stats with unchanged | ⟨size, given⟩
  · exact .same noRegion unchanged table fun none => absurd found (by simp [none])
  · refine .changed noRegion found (table.trans found) ?_ ?_
    · dsimp only
      rw [given, give_freeSize]
      exact Nat.mod_lt _ (Nat.two_pow_pos 32)
    · dsimp only
      rw [given]
      exact give_minFreeEver _ _

theorem addRegion_effect {start size : Nat} :
    StatsEffect system { system with heap := heapAddRegion system.heap start size }
      (.addRegion start size) := by
  by_cases full : heapMaxRegions ≤ system.heap.regions.length
  · have unchanged : heapAddRegion system.heap start size = system.heap := if_pos full
    rw [unchanged]
    refine .same (fun _ _ makes => ?_) rfl rfl fun _ => rfl
    exact Nat.not_lt.mpr full makes.2.1
  rcases Nat.lt_or_ge (usableSize start size) (heapMinBlockSize * 2) with small | large
  · have added : heapAddRegion system.heap start size =
        { system.heap with regions := system.heap.regions ++ [{}] } := by
      rw [heapAddRegion, if_neg full, heapRegionInit_small _ _ small]
    rw [added]
    refine .same (fun _ _ makes => ?_) rfl ?_ fun _ => rfl
    · obtain ⟨isAdd, _, large⟩ := makes
      obtain ⟨rfl, rfl⟩ := FreeSizeOp.addRegion.inj isAdd
      exact Nat.not_lt.mpr large small
    · simp [hasRegion]
  · obtain ⟨memory, created⟩ := heapRegionInit_large system.heap {} large
    have added : heapAddRegion system.heap start size =
        { system.heap with
          memory := memory
          stats := system.heap.stats.add (usableSize start size)
          regions := system.heap.regions ++ [bufferRegion start size] } := by
      rw [heapAddRegion, if_neg full, created]
    rw [added]
    refine .created ⟨rfl, Nat.lt_of_not_le full, large⟩ ?_ rfl
    simp [hasRegion, bufferRegion_ne large]

theorem step_effect {watched : WatchedHeap} (invariant : Watched watched)
    (allowed : FreesLive watched call) :
    StatsEffect watched.system ((watched.system.exec fuel call.op).getD watched.system) call := by
  cases call with
  | addRegion start size => exact addRegion_effect
  | malloc size =>
      simp only [FreeSizeOp.op, HeapSystem.exec]
      cases returned : mallocRtos fuel watched.system.heap size with
      | none => exact .same (by simp [Creates]) rfl rfl fun _ => rfl
      | some result => exact malloc_effect returned
  | free ptr =>
      apply free_effect
      by_contra noRegion
      have isLive := allowed ptr rfl
      rw [(invariant.before (by simpa using noRegion)).1] at isLive
      simp at isLive

/-- The free size after a region has been added to an empty heap. -/
theorem add_first (usable : Nat) (usableLt : usable < uint32Size) :
    (({} : HeapStats).add usable).freeSize = usable ∧
      (({} : HeapStats).add usable).minFreeEver = usable := by
  constructor
  · rw [(add_sizes _ _).2, Nat.zero_add, Nat.mod_eq_of_lt usableLt]
  · rw [HeapStats.add]
    dsimp only
    rw [if_pos (.inl rfl)]

theorem usableSize_lt (start size : Nat) : usableSize start size < uint32Size :=
  Nat.mod_lt _ (Nat.two_pow_pos 32)

theorem Watched.watch {seen : List Nat}
    (before : hasRegion next.heap = false →
      next.live = [] ∧ next.heap.stats = {} ∧ seen = [])
    (freeLt : next.heap.stats.freeSize < uint32Size) : Watched (.watch next seen) where
  before := fun noRegion => by
    obtain ⟨noLive, stats, nothingSeen⟩ := before noRegion
    have noRegion : hasRegion next.heap = false := noRegion
    refine ⟨noLive, stats, ?_⟩
    rw [WatchedHeap.watch, if_neg (by simp [noRegion])]
    exact nothingSeen
  after := fun found => by
    have found : hasRegion next.heap = true := found
    exact ⟨seen, by rw [WatchedHeap.watch, if_pos found]⟩
  freeLt := freeLt

theorem Watched.step {watched : WatchedHeap} (invariant : Watched watched)
    (allowed : FreesLive watched call) : Watched (watched.step fuel call) := by
  have effect : StatsEffect watched.system
      ((watched.system.exec fuel call.op).getD watched.system) call :=
    step_effect invariant allowed
  cases effect with
  | same _ stats table live =>
      refine .watch (fun noRegion => ?_) ?_
      · rw [table] at noRegion
        obtain ⟨noLive, noStats, nothingSeen⟩ := invariant.before noRegion
        exact ⟨(live noRegion).trans noLive, stats.trans noStats, nothingSeen⟩
      · rw [stats]
        exact invariant.freeLt
  | changed _ _ after freeLt _ =>
      exact .watch (fun noRegion => absurd after (by simp [noRegion])) freeLt
  | created _ after stats =>
      refine .watch (fun noRegion => absurd after (by simp [noRegion])) ?_
      rw [stats, (add_sizes _ _).2]
      exact Nat.mod_lt _ (Nat.two_pow_pos 32)

theorem lowMark_watch {seen : List Nat} (found : hasRegion next.heap = true) :
    LowMark (.watch next seen) ↔ next.heap.stats.minFreeEver =
      seen.min?.elim next.heap.stats.freeSize (min next.heap.stats.freeSize) := by
  simp [LowMark, WatchedHeap.watch, found, List.min?_cons]

theorem Watched.min_seen {watched : WatchedHeap} (invariant : Watched watched)
    (marked : LowMark watched) (found : hasRegion watched.system.heap = true) :
    watched.seen.min? = some watched.system.heap.stats.minFreeEver ∧
      watched.system.heap.stats.minFreeEver ≤ watched.system.heap.stats.freeSize := by
  obtain ⟨rest, isSeen⟩ := invariant.after found
  have isSome : watched.seen.min?.isSome := by simp [isSeen]
  obtain ⟨low, isLow⟩ := Option.isSome_iff_exists.mp isSome
  have isMark := marked low isLow
  have smallest := (List.min?_eq_some_iff.mp isLow).2
  rw [isMark]
  exact ⟨isLow, smallest _ (by simp [isSeen])⟩

/-- Adding a region keeps the low-water mark exactly under its condition. -/
theorem add_minFreeEver_iff (stats : HeapStats) {usable : Nat}
    (freeLt : stats.freeSize < uint32Size) (marked : stats.minFreeEver ≤ stats.freeSize)
    (large : heapMinBlockSize * 2 ≤ usable) :
    (stats.add usable).minFreeEver = min (stats.add usable).freeSize stats.minFreeEver ↔
      stats.minFreeEver ≠ 0 ∧ stats.minFreeEver ≤ usable ∧
        stats.minFreeEver ≤ (stats.freeSize + usable) % uint32Size := by
  have isMark : (stats.add usable).minFreeEver =
      if stats.minFreeEver = 0 ∨ usable < stats.minFreeEver then usable
      else stats.minFreeEver := rfl
  rw [isMark, (add_sizes _ _).2]
  generalize stats.minFreeEver = low at *
  generalize stats.freeSize = free at *
  unfold heapMinBlockSize uint32Size at *
  split <;> omega

/-- A call keeps the low-water mark exactly when it meets the condition. -/
theorem lowMark_step_iff {watched : WatchedHeap} (invariant : Watched watched)
    (marked : LowMark watched) (allowed : FreesLive watched call) :
    LowMark (watched.step fuel call) ↔ KeepsLowMark watched call := by
  have effect : StatsEffect watched.system
      ((watched.system.exec fuel call.op).getD watched.system) call :=
    step_effect invariant allowed
  rw [WatchedHeap.step]
  generalize (watched.system.exec fuel call.op).getD watched.system = next at *
  cases effect with
  | same noRegion stats table _ =>
      refine iff_of_true ?_ fun start size makes => absurd makes (noRegion start size)
      cases found : hasRegion watched.system.heap with
      | false =>
          obtain ⟨_, _, nothingSeen⟩ := invariant.before found
          simp [LowMark, WatchedHeap.watch, table, found, nothingSeen]
      | true =>
          obtain ⟨isLow, lowLe⟩ := invariant.min_seen marked found
          rw [lowMark_watch (table.trans found), isLow, stats, Option.elim_some]
          exact (min_eq_right lowLe).symm
  | changed noRegion before after _ lowMark =>
      refine iff_of_true ?_ fun start size makes => absurd makes (noRegion start size)
      rw [lowMark_watch after, (invariant.min_seen marked before).1, Option.elim_some]
      exact lowMark
  | @created start size makes after stats =>
      rw [lowMark_watch after, stats]
      cases found : hasRegion watched.system.heap with
      | false =>
          obtain ⟨_, noStats, nothingSeen⟩ := invariant.before found
          obtain ⟨isFree, isMark⟩ := add_first _ (usableSize_lt start size)
          refine iff_of_true ?_ fun _ _ _ isFound => absurd isFound (by simp [found])
          rw [noStats, nothingSeen, isMark, List.min?_nil, Option.elim_none, isFree]
      | true =>
          obtain ⟨isLow, lowLe⟩ := invariant.min_seen marked found
          rw [isLow, Option.elim_some,
            add_minFreeEver_iff _ invariant.freeLt lowLe makes.2.2]
          constructor
          · intro keeps otherStart otherSize otherMakes _
            obtain ⟨rfl, rfl⟩ := FreeSizeOp.addRegion.inj (makes.1.symm.trans otherMakes.1)
            exact keeps
          · exact fun keeps => keeps start size makes found

end Steps

theorem heapInit_stats_small (heap : Heap) {start size : Nat} (type : Nat)
    (small : usableSize start size < heapMinBlockSize * 2) :
    (heapInit heap start size type).stats = {} ∧
      hasRegion (heapInit heap start size type) = false := by
  rw [heapInit, heapRegionInit_small _ _ small]
  exact ⟨rfl, by simp [hasRegion]⟩

theorem heapInit_stats_large (heap : Heap) {start size : Nat} (type : Nat)
    (large : heapMinBlockSize * 2 ≤ usableSize start size) :
    (heapInit heap start size type).stats = ({} : HeapStats).add (usableSize start size) ∧
      hasRegion (heapInit heap start size type) = true := by
  obtain ⟨memory, created⟩ := heapRegionInit_large { heap with
    heapType := if heapType1 ≤ type ∧ type ≤ heapType5 then type else heap.heapType
    stats := {}
    regions := [] } {} large
  rw [heapInit, created]
  exact ⟨rfl, by simp [hasRegion, bufferRegion_ne large]⟩

/-- The state after `heap_init`. -/
theorem Watched.init (heap : Heap) (start size type : Nat) :
    Watched (.init heap start size type) ∧ LowMark (.init heap start size type) := by
  rcases Nat.lt_or_ge (usableSize start size) (heapMinBlockSize * 2) with small | large
  · obtain ⟨stats, noRegion⟩ := heapInit_stats_small heap type small
    constructor
    · refine .watch (fun _ => ⟨rfl, stats, rfl⟩) ?_
      rw [HeapSystem.init, stats]
      exact Nat.two_pow_pos 32
    · simp [LowMark, WatchedHeap.init, WatchedHeap.watch, HeapSystem.init, noRegion]
  · obtain ⟨stats, found⟩ := heapInit_stats_large heap type large
    obtain ⟨isFree, isMark⟩ := add_first _ (usableSize_lt start size)
    constructor
    · refine .watch (fun noRegion => Bool.noConfusion (found.symm.trans noRegion)) ?_
      rw [HeapSystem.init, stats, isFree]
      exact usableSize_lt start size
    · apply (lowMark_watch found).mpr
      rw [List.min?_nil, Option.elim_none, HeapSystem.init, stats, isMark, isFree]

/-- Regions lie inside their buffers, and the low-water mark is the minimum of
the free sizes, exactly under their conditions. -/
theorem region_bounds_and_low_mark (heap : Heap) (start size type fuel : Nat)
    (calls : List FreeSizeOp) :
    (start < uintptrSize → size < uint32Size →
      ((∀ region ∈ (heapInit heap start size type).regions, RegionInside start size region) ↔
        AlignedInside start size ∧ (start + size < uintptrSize ∨
          alignedRoom start size < heapMinBlockSize * 2)) ∧
      (heap.regions.length < heapMaxRegions →
        ((∃ region, (heapAddRegion heap start size).regions = heap.regions ++ [region] ∧
            RegionInside start size region) ↔
          AlignedInside start size ∧ (start + size < uintptrSize ∨
            alignedRoom start size < heapMinBlockSize * 2)))) ∧
    (Throughout (WatchedHeap.step fuel) FreesLive (.init heap start size type) calls →
      (Always (WatchedHeap.step fuel) LowMark (.init heap start size type) calls ↔
        Throughout (WatchedHeap.step fuel) KeepsLowMark (.init heap start size type) calls)) := by
  refine ⟨fun startLt sizeLt => ⟨?_, fun notFull => ?_⟩, fun allowed => ?_⟩
  · rw [heapInit_regions, ← regionEntry_inside_iff startLt sizeLt]
    simp
  · rw [heapAddRegion_regions, if_neg (Nat.not_le.mpr notFull),
      ← regionEntry_inside_iff startLt sizeLt]
    simp
  · obtain ⟨invariant, marked⟩ := Watched.init heap start size type
    exact allowed.always_iff (fun _ _ watched permitted _ => watched.step permitted)
      (fun _ _ watched marked permitted => lowMark_step_iff watched marked permitted) invariant
      marked

theorem region_bounds_and_low_mark_small :
    ((∀ region ∈ (heapInit staticHeap 4096 256 heapType4).regions,
        RegionInside 4096 256 region) ↔
      AlignedInside 4096 256 ∧
        (4096 + 256 < uintptrSize ∨ alignedRoom 4096 256 < heapMinBlockSize * 2)) ∧
    (Always (WatchedHeap.step 4) LowMark (.init staticHeap 4096 256 heapType4)
        [.malloc 16, .free 4128] ↔
      Throughout (WatchedHeap.step 4) KeepsLowMark (.init staticHeap 4096 256 heapType4)
        [.malloc 16, .free 4128]) := by
  obtain ⟨bounds, lowMark⟩ :=
    region_bounds_and_low_mark staticHeap 4096 256 heapType4 4 [.malloc 16, .free 4128]
  refine ⟨(bounds (by decide) (by decide)).1,
    lowMark ⟨fun ptr isFree => by simp at isFree, fun ptr isFree => ?_, trivial⟩⟩
  obtain rfl := FreeSizeOp.free.inj isFree
  have isLive : ((WatchedHeap.init staticHeap 4096 256 heapType4).step 4 (.malloc 16)).system.live =
      [4128] := by decide +kernel
  simp [isLive]

/-- A buffer of two bytes becomes a region that ends before it starts, and a
second region of 64 bytes lowers the low-water mark from 256 to 64. -/
theorem region_bounds_and_low_mark_fail :
    (¬∀ (heap : Heap) (start size type : Nat), start < uintptrSize → size < uint32Size →
      ∀ region ∈ (heapInit heap start size type).regions, RegionInside start size region) ∧
    ¬∀ (heap : Heap) (start size type fuel : Nat) (calls : List FreeSizeOp),
      Throughout (WatchedHeap.step fuel) FreesLive (.init heap start size type) calls →
      Always (WatchedHeap.step fuel) LowMark (.init heap start size type) calls := by
  constructor
  · intro inside
    have isRegion : regionEntry 8193 2 = ⟨8200, 8192, 8200⟩ := by decide
    have bounds := inside staticHeap 8193 2 heapType4 (by decide) (by decide) (regionEntry 8193 2)
      (by simp [heapInit_regions])
    rw [isRegion] at bounds
    simp [RegionInside] at bounds
  · intro marked
    have last := (marked staticHeap 4096 256 heapType4 4 [.addRegion 8192 64]
      ⟨fun ptr isFree => by simp at isFree, trivial⟩).last
    have isSeen : (after (WatchedHeap.step 4) (.init staticHeap 4096 256 heapType4)
        [.addRegion 8192 64]).seen = [320, 256] := by decide +kernel
    have isMark : (after (WatchedHeap.step 4) (.init staticHeap 4096 256 heapType4)
        [.addRegion 8192 64]).system.heap.stats.minFreeEver = 64 := by decide +kernel
    rw [LowMark, isSeen, isMark] at last
    simp at last

end Rtos

end MiniIotRobotEdge

import MiniIotRobotEdge.OtaAbUpdate

/-!
# Persistence of the partition header

The checksum of the header covers its own field, which holds the previous
checksum while the new one is computed.  A saved header can therefore be loaded
exactly when it could be loaded before it was saved.
-/

namespace MiniIotRobotEdge

namespace Ota

open PackedBytes

variable {σ : Type}

/-- The header area of the flash returns what was written last. -/
structure LastWritten (hal : AbUpdateHal σ) : Prop where
  read : ∀ data device, (hal.flashWrite 0 data device).1 = 0 →
    hal.flashRead 0 data.length (hal.flashWrite 0 data device).2 = some data
  reboot : ∀ reboot, hal.reboot = some reboot → ∀ slot device len,
    hal.flashRead 0 len (reboot slot device) = hal.flashRead 0 len device

/-- A fresh context loads the header of this state. -/
def Persisted (hal : AbUpdateHal σ) (st : AbState σ) : Prop :=
  ∃ fresh, abUpdatePartitionLoad hal ⟨abUpdateInit, st.device⟩ = (.ok, fresh) ∧
    fresh.ctx.partition.slots = st.ctx.partition.slots ∧
    fresh.ctx.partition.activeSlot = st.ctx.partition.activeSlot ∧
    fresh.ctx.partition.bootSlot = st.ctx.partition.bootSlot

/-- One call of a run. -/
structure AbEvent (σ : Type) where
  before : AbState σ
  op : AbOp
  result : AbResult
  after : AbState σ

/-- The calls of a run, up to one that leaves `slots`. -/
def abTrace (hal : AbUpdateHal σ) : List AbOp → AbState σ → List (AbEvent σ)
  | [], _ => []
  | op :: rest, st =>
      match abStep hal op st with
      | none => []
      | some stepped => ⟨st, op, stepped.1, stepped.2⟩ :: abTrace hal rest stepped.2

/-- The call saved the header. -/
def AbEvent.Saved (event : AbEvent σ) : Prop :=
  ∃ op, event.op = .change op ∧ event.result = .ok

/-- The header passes the checks of a load before the call saves it: the stored
checksum fits the header as the call changes it. -/
def AbEvent.FitsBefore (hal : AbUpdateHal σ) (event : AbEvent σ) : Prop :=
  ∀ op changed, event.op = .change op → op.changed hal event.before = some changed →
    changed.ctx.partition.Loadable

theorem abStep_of_mem_abTrace {hal : AbUpdateHal σ} {ops : List AbOp} {st : AbState σ}
    {event : AbEvent σ} (mem : event ∈ abTrace hal ops st) :
    abStep hal event.op event.before = some (event.result, event.after) := by
  induction ops generalizing st with
  | nil => simp [abTrace] at mem
  | cons op rest ih =>
      rw [abTrace] at mem
      split at mem
      · simp at mem
      case h_2 stepped isStepped =>
        rcases List.mem_cons.mp mem with rfl | later
        · exact isStepped
        · exact ih later

theorem wordField_eq_wordBytes (word : BitVec 32) : wordField 4 word = Crc32.wordBytes word := by
  have byte : ∀ shift, UInt8.ofNat (word.toNat / 2 ^ shift) = ⟨(word >>> shift).setWidth 8⟩ := by
    intro shift
    apply UInt8.toNat.inj
    rw [UInt8.toNat_ofNat', ← Nat.shiftRight_eq_div_pow, ← BitVec.toNat_ushiftRight]
    exact (BitVec.toNat_setWidth ..).symm
  have first := byte 0
  have second := byte 8
  have third := byte 16
  have fourth := byte 24
  simp only [Nat.pow_zero, Nat.div_one, BitVec.ushiftRight_zero] at first
  simp only [Nat.reducePow] at second third fourth
  simp only [wordField, littleEndian, Crc32.wordBytes, Nat.div_div_eq_div_mul, Nat.reduceMul]
  rw [first, ← second, ← third, ← fourth]

/-- The fields before the checksum. -/
def AbPartitionHeader.front (hdr : AbPartitionHeader) : List UInt8 :=
  [wordField 4 hdr.magic, wordField 2 hdr.version, wordField 2 hdr.headerSize,
    wordField 4 hdr.totalSize, [hdr.numSlots], [hdr.activeSlot], [hdr.bootSlot],
    [hdr.reserved]].flatten

theorem bytes_eq (hdr : AbPartitionHeader) : hdr.bytes =
    hdr.front ++ (wordField 4 hdr.crc32 ++ ((hdr.slots 0).bytes ++ (hdr.slots 1).bytes)) := by
  simp only [AbPartitionHeader.bytes, AbPartitionHeader.front, List.flatten_cons,
    List.flatten_nil, List.append_nil, List.append_assoc]

theorem length_front (hdr : AbPartitionHeader) : hdr.front.length = 16 := by
  simp [AbPartitionHeader.front]

theorem checksum_eq (hdr : AbPartitionHeader) : hdr.checksum =
    Crc32.crc32 (hdr.front ++ Crc32.wordBytes hdr.crc32 ++
      ((hdr.slots 0).bytes ++ (hdr.slots 1).bytes).take 280) := by
  unfold AbPartitionHeader.checksum abUpdateCrc32 abPartitionHeaderBytes
  rw [bytes_eq, List.take_append, List.take_append, length_front, length_wordField,
    List.take_of_length_le (by rw [length_front]; decide),
    List.take_of_length_le (by rw [length_wordField]; decide), wordField_eq_wordBytes,
    List.append_assoc]

/-- The checksum is an injective function of the checksum field. -/
theorem checksum_injective (hdr : AbPartitionHeader) :
    Function.Injective fun crc => { hdr with crc32 := crc }.checksum := by
  intro first second same
  dsimp only at same
  rw [checksum_eq, checksum_eq] at same
  exact Crc32.crc32_word_injective _ _ same

/-- Saving keeps a header loadable, and makes none so. -/
theorem loadable_save_iff (hdr : AbPartitionHeader) :
    { hdr with crc32 := hdr.checksum }.Loadable ↔ hdr.Loadable := by
  have injective : { hdr with crc32 := hdr.checksum }.checksum = hdr.checksum ↔
      hdr.checksum = hdr.crc32 :=
    @Function.Injective.eq_iff _ _ _ (checksum_injective hdr) hdr.checksum hdr.crc32
  unfold AbPartitionHeader.Loadable
  dsimp only
  rw [injective]

/-- A fresh context loads what is on flash when that passes the checks. -/
theorem persisted_iff {hal : AbUpdateHal σ} {st : AbState σ}
    (read : hal.flashRead 0 abPartitionHeaderBytes st.device = some st.ctx.partition.bytes) :
    Persisted hal st ↔ st.ctx.partition.Loadable := by
  have loaded := abUpdatePartitionLoad_eq hal ⟨abUpdateInit, st.device⟩ st.ctx.partition rfl read
  unfold Persisted
  rw [loaded]
  constructor
  · rintro ⟨fresh, isOk, _⟩
    by_contra unfit
    rw [if_pos unfit] at isOk
    simp at isOk
  · intro loadable
    rw [if_neg (not_not.mpr loadable)]
    exact ⟨_, rfl, rfl, rfl, rfl⟩

/-- What is on flash after a successful save. -/
theorem flashRead_save {hal : AbUpdateHal σ} (last : LastWritten hal) {st : AbState σ}
    (saved : (abUpdatePartitionSave hal st).1 = .ok) :
    (abUpdatePartitionSave hal st).2.ctx.partition =
        { st.ctx.partition with crc32 := st.ctx.partition.checksum } ∧
      hal.flashRead 0 abPartitionHeaderBytes (abUpdatePartitionSave hal st).2.device =
        some (abUpdatePartitionSave hal st).2.ctx.partition.bytes := by
  unfold abUpdatePartitionSave at saved ⊢
  split at saved
  · simp at saved
  · rw [if_neg ‹_›]
    dsimp only at saved ⊢
    split at saved
    · simp at saved
    · refine ⟨rfl, ?_⟩
      rw [← length_bytes { st.ctx.partition with crc32 := st.ctx.partition.checksum }]
      exact last.read _ _ (not_not.mp ‹_›)

/-- The rest of an operation does not touch the header on flash. -/
theorem flashRead_finish {hal : AbUpdateHal σ} (last : LastWritten hal) (op : AbChange)
    (st : AbState σ) (saved : AbResult × AbState σ) (len : Nat) :
    hal.flashRead 0 len (op.finish hal st saved).2.device =
      hal.flashRead 0 len saved.2.device := by
  cases op with
  | switchAndReboot =>
      change hal.flashRead 0 len (rebootAfter hal _ saved).2.device = _
      unfold rebootAfter
      split
      · rfl
      · split
        · rfl
        case h_2 reboot isReboot => exact last.reboot reboot isReboot _ _ _
  | _ => rfl

theorem finish_ok {hal : AbUpdateHal σ} {op : AbChange} {st : AbState σ}
    {saved : AbResult × AbState σ} (isOk : (op.finish hal st saved).1 = .ok) : saved.1 = .ok := by
  cases op with
  | switchAndReboot =>
      change (rebootAfter hal _ saved).1 = .ok at isOk
      unfold rebootAfter at isOk
      split at isOk
      · exact isOk
      · exact not_not.mp ‹_›
  | _ => exact isOk

/-- A call that saves leaves a header that loads exactly when it fitted before. -/
theorem event_persisted_iff {hal : AbUpdateHal σ} (last : LastWritten hal) {event : AbEvent σ}
    (stepped : abStep hal event.op event.before = some (event.result, event.after))
    (saved : event.Saved) : Persisted hal event.after ↔ event.FitsBefore hal := by
  obtain ⟨op, isOp, isOk⟩ := saved
  rw [isOp, isOk] at stepped
  rcases abChangeStep_cases stepped with ⟨_, refused⟩ | ⟨_, changed, isChanged, result⟩
  · simp at refused
  · have saveOk : (abUpdatePartitionSave hal changed).1 = .ok :=
      finish_ok (congrArg Prod.fst result).symm
    obtain ⟨header, read⟩ := flashRead_save last saveOk
    have after : event.after = (op.finish hal event.before (abUpdatePartitionSave hal changed)).2 :=
      congrArg Prod.snd result
    have sameCtx : event.after.ctx = (abUpdatePartitionSave hal changed).2.ctx := by
      rw [after, AbChange.finish_ctx]
    have readAfter : hal.flashRead 0 abPartitionHeaderBytes event.after.device =
        some event.after.ctx.partition.bytes := by
      rw [sameCtx, after, flashRead_finish last, read]
    rw [persisted_iff readAfter, sameCtx, header, loadable_save_iff]
    constructor
    · intro loadable other otherChanged isOther isOtherChanged
      rw [isOp] at isOther
      cases isOther
      rw [isChanged] at isOtherChanged
      cases isOtherChanged
      exact loadable
    · exact fun fits => fits op changed isOp isChanged

/-- In every run, all saved headers can be loaded again exactly when each of
them fitted its checksum before it was saved. -/
theorem metadata_persists {hal : AbUpdateHal σ} (last : LastWritten hal) (device : σ)
    (ops : List AbOp) :
    (∀ event ∈ abTrace hal ops ⟨abUpdateInit, device⟩, event.Saved →
      Persisted hal event.after) ↔
    ∀ event ∈ abTrace hal ops ⟨abUpdateInit, device⟩, event.Saved → event.FitsBefore hal := by
  apply forall₂_congr
  intro event mem
  apply forall_congr'
  intro saved
  exact event_persisted_iff last (abStep_of_mem_abTrace mem) saved

theorem memoryHal_lastWritten : LastWritten memoryHal where
  read := fun data device _ => congrArg some (Memory.bytes_writeBytes_self device 0 data)
  reboot := by simp [memoryHal]

theorem memoryHal_save {st : AbState Memory} (initialized : st.ctx.initialized = true) :
    (abUpdatePartitionSave memoryHal st).1 = .ok := by
  unfold abUpdatePartitionSave
  rw [if_neg (by simp [initialized])]
  rfl

theorem modifySlot_eq_self {hdr : AbPartitionHeader} {index : Fin 2}
    {change : AbSlotMetadata → AbSlotMetadata} (same : change (hdr.slots index) = hdr.slots index) :
    hdr.modifySlot index change = hdr := by
  unfold AbPartitionHeader.modifySlot
  rw [same, Function.update_eq_self]

/-- Marking the booted slot of the sample once more changes nothing. -/
theorem sampleState_bootSuccessful {changed : AbState Memory}
    (isChanged : AbChange.markBootSuccessful.changed memoryHal sampleState = some changed) :
    changed.ctx.partition = sampleHeader := by
  have kept : (sampleHeader.modifySlot 1 fun slot =>
      { slot with state := abSlotStateActive, bootSuccessful := 1, bootAttempts := 0 }) =
        sampleHeader := modifySlot_eq_self rfl
  rw [AbChange.changed, slotIndex_eq_some (show sampleState.ctx.partition.bootSlot.toNat < 2 by
    decide)] at isChanged
  cases isChanged
  change { sampleHeader.modifySlot 1 _ with activeSlot := 1 } = sampleHeader
  rw [kept]
  rfl

theorem metadata_persists_booted :
    LastWritten memoryHal ∧
      ∀ event ∈ abTrace memoryHal [.partitionLoad, .change .markBootSuccessful]
        ⟨abUpdateInit, sampleFlash⟩, event.Saved → Persisted memoryHal event.after := by
  apply And.intro memoryHal_lastWritten
  apply (metadata_persists memoryHal_lastWritten sampleFlash _).mpr
  intro event mem saved op changed isOp isChanged
  rw [abTrace, abStep, sampleState_loaded] at mem
  rcases List.mem_cons.mp mem with rfl | later
  · simp at isOp
  · rw [abTrace] at later
    split at later
    · simp at later
    · rcases List.mem_cons.mp later with rfl | none
      · cases isOp
        rw [sampleState_bootSuccessful isChanged]
        exact sampleHeader_loadable
      · simp [abTrace] at none

/-- The header of a new partition does not fit the checksum zero. -/
theorem initialHeader_not_loadable : ¬(initialHeader 1000).Loadable := by
  have absorbed : Crc32.absorb 0xFFFFFFFF#32 ((initialHeader 1000).bytes.take 300) =
      0xfe17066f#32 :=
    Crc32.absorb_eq_of_absorbVia 30
      [0xfc57a2da#32, 0xf4f4638a#32, 0x1a58d760#32, 0x2c057ca9#32, 0x132e8379#32, 0x470d9646#32,
        0xc13c48f5#32, 0x2b1f4dee#32, 0x4aac11e6#32] (by decide +kernel)
  rintro ⟨checksum, _⟩
  change Crc32.absorb 0xFFFFFFFF#32 ((initialHeader 1000).bytes.take 300) ^^^ 0xFFFFFFFF#32 =
    0#32 at checksum
  rw [absorbed] at checksum
  exact absurd checksum (by decide)

/-- A new partition is lost unless its header fits the checksum zero. -/
theorem initialHeader_lost {totalSize : BitVec 32} (nonzero : totalSize ≠ 0)
    (unfit : ¬(initialHeader totalSize).Loadable) (flash : Memory) :
    ¬∀ event ∈ abTrace memoryHal [.change (.partitionInit totalSize)] ⟨abUpdateInit, flash⟩,
      event.Saved → Persisted memoryHal event.after := by
  intro persists
  have isInit : abUpdatePartitionInit memoryHal totalSize ⟨abUpdateInit, flash⟩ =
      abUpdatePartitionSave memoryHal ⟨{ abUpdateInit with
        partition := initialHeader totalSize }, flash⟩ :=
    if_neg (not_or.mpr ⟨Bool.noConfusion, nonzero⟩)
  obtain ⟨result, isResult⟩ : ∃ result, result =
      abUpdatePartitionInit memoryHal totalSize ⟨abUpdateInit, flash⟩ := ⟨_, rfl⟩
  have isOk : result.1 = .ok := by
    rw [isResult, isInit]
    exact memoryHal_save rfl
  have mem : ⟨⟨abUpdateInit, flash⟩, .change (.partitionInit totalSize), result.1, result.2⟩ ∈
      abTrace memoryHal [.change (.partitionInit totalSize)] ⟨abUpdateInit, flash⟩ := by
    rw [abTrace, abStep, abChangeStep, ← isResult]
    exact List.mem_cons_self ..
  have saved : AbEvent.Saved ⟨⟨abUpdateInit, flash⟩, .change (.partitionInit totalSize), result.1,
    result.2⟩ := ⟨_, rfl, isOk⟩
  have fits := (event_persisted_iff memoryHal_lastWritten (abStep_of_mem_abTrace mem) saved).mp
    (persists _ mem saved)
  have loadable := fits (.partitionInit totalSize)
    (AbState.withPartition ⟨abUpdateInit, flash⟩ (initialHeader totalSize)) rfl rfl
  exact unfit loadable

/-- A new partition of 1000 bytes cannot be loaded. -/
theorem metadata_lost_initially :
    ¬∀ event ∈ abTrace memoryHal [.change (.partitionInit 1000)] ⟨abUpdateInit, fun _ => 0⟩,
      event.Saved → Persisted memoryHal event.after :=
  initialHeader_lost (by decide) initialHeader_not_loadable _

end Ota

end MiniIotRobotEdge

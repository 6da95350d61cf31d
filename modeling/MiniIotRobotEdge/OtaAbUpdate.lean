import MiniIotRobotEdge.ByteMemory
import MiniIotRobotEdge.Crc32
import MiniIotRobotEdge.PackedBytes
import Mathlib.Logic.Function.Basic

/-!
# The A/B update of mini-ota-update

The model of `ab_update.c`.  A context keeps the partition header and, besides
it, the active and the standby slot in two fields of its own.  An operation
changes the header and hands it to `ab_update_partition_save`.  The hardware
functions act on a state `σ` that stays abstract.  A slot number from flash can
be any byte: an operation that would then touch memory outside of `slots` has
no result.
-/

namespace MiniIotRobotEdge

namespace Ota

open PackedBytes

inductive AbResult
  | ok
  | errParam
  | errNomem
  | errIo
  | errCrc
  | errSignature
  | errRollback
  | errBootlimit
  | errSlotFull
  | errNotFound
  | errState
  deriving DecidableEq, Repr

def abUpdateMaxSlots : Nat := 2
def abUpdateBootCountMax : UInt8 := 7

/-- The values of `ab_slot_state_t`; the field on flash may hold any other. -/
abbrev AbSlotState := BitVec 32

def abSlotStateInactive : AbSlotState := 1
def abSlotStateBooting : AbSlotState := 2
def abSlotStateActive : AbSlotState := 3
def abSlotStateInvalid : AbSlotState := 4

structure AbSlotMetadata where
  slotId : UInt8
  slotName : Vector UInt8 32
  slotOffset : BitVec 32
  slotSize : BitVec 32
  state : AbSlotState
  priority : UInt8
  bootable : UInt8
  bootSuccessful : UInt8
  bootAttempts : UInt8
  bootCountLimit : UInt8
  versionMajor : BitVec 32
  versionMinor : BitVec 32
  versionPatch : BitVec 32
  versionExtra : Vector UInt8 16
  imageHash : Vector UInt8 32
  imageSize : BitVec 32
  imageCrc : BitVec 32
  lastBootTime : BitVec 32
  updateTimestamp : BitVec 32
  reserved : Vector UInt8 16
  deriving DecidableEq

structure AbPartitionHeader where
  magic : BitVec 32
  version : BitVec 16
  headerSize : BitVec 16
  totalSize : BitVec 32
  numSlots : UInt8
  activeSlot : UInt8
  bootSlot : UInt8
  reserved : UInt8
  crc32 : BitVec 32
  slots : Fin 2 → AbSlotMetadata

/-- `sizeof(ab_slot_metadata_t)` and `sizeof(ab_partition_header_t)`. -/
def abSlotMetadataBytes : Nat := 142
def abPartitionHeaderBytes : Nat := 304

/-- The slot as it lies in memory. -/
def AbSlotMetadata.bytes (slot : AbSlotMetadata) : List UInt8 :=
  [[slot.slotId], slot.slotName.toList, wordField 4 slot.slotOffset, wordField 4 slot.slotSize,
    wordField 4 slot.state, [slot.priority], [slot.bootable], [slot.bootSuccessful],
    [slot.bootAttempts], [slot.bootCountLimit], wordField 4 slot.versionMajor,
    wordField 4 slot.versionMinor, wordField 4 slot.versionPatch, slot.versionExtra.toList,
    slot.imageHash.toList, wordField 4 slot.imageSize, wordField 4 slot.imageCrc,
    wordField 4 slot.lastBootTime, wordField 4 slot.updateTimestamp,
    slot.reserved.toList].flatten

/-- The header as it lies in memory. -/
def AbPartitionHeader.bytes (hdr : AbPartitionHeader) : List UInt8 :=
  [wordField 4 hdr.magic, wordField 2 hdr.version, wordField 2 hdr.headerSize,
    wordField 4 hdr.totalSize, [hdr.numSlots], [hdr.activeSlot], [hdr.bootSlot], [hdr.reserved],
    wordField 4 hdr.crc32, (hdr.slots 0).bytes, (hdr.slots 1).bytes].flatten

def readSlot : Reader AbSlotMetadata := do
  let slotId ← readByte
  let slotName ← readBytes 32
  let slotOffset ← readWord 32 4
  let slotSize ← readWord 32 4
  let state ← readWord 32 4
  let priority ← readByte
  let bootable ← readByte
  let bootSuccessful ← readByte
  let bootAttempts ← readByte
  let bootCountLimit ← readByte
  let versionMajor ← readWord 32 4
  let versionMinor ← readWord 32 4
  let versionPatch ← readWord 32 4
  let versionExtra ← readBytes 16
  let imageHash ← readBytes 32
  let imageSize ← readWord 32 4
  let imageCrc ← readWord 32 4
  let lastBootTime ← readWord 32 4
  let updateTimestamp ← readWord 32 4
  let reserved ← readBytes 16
  pure { slotId, slotName, slotOffset, slotSize, state, priority, bootable, bootSuccessful,
         bootAttempts, bootCountLimit, versionMajor, versionMinor, versionPatch, versionExtra,
         imageHash, imageSize, imageCrc, lastBootTime, updateTimestamp, reserved }

def readHeader : Reader AbPartitionHeader := do
  let magic ← readWord 32 4
  let version ← readWord 16 2
  let headerSize ← readWord 16 2
  let totalSize ← readWord 32 4
  let numSlots ← readByte
  let activeSlot ← readByte
  let bootSlot ← readByte
  let reserved ← readByte
  let crc32 ← readWord 32 4
  let slotA ← readSlot
  let slotB ← readSlot
  pure { magic, version, headerSize, totalSize, numSlots, activeSlot, bootSlot, reserved, crc32,
         slots := fun index => if index = 0 then slotA else slotB }

theorem readSlot_reads (slot : AbSlotMetadata) : Reads readSlot slot.bytes slot := by
  repeat' first
    | apply Reads.bind
    | exact Reads.byte _
    | exact Reads.bytes _
    | exact Reads.word _ (by decide)
    | exact Reads.pure _

/-- What is written is read back. -/
theorem readHeader_reads (hdr : AbPartitionHeader) : Reads readHeader hdr.bytes hdr := by
  have slots : (fun index => if index = 0 then hdr.slots 0 else hdr.slots 1) = hdr.slots :=
    funext (Fin.forall_fin_two.mpr ⟨rfl, rfl⟩)
  unfold readHeader AbPartitionHeader.bytes
  apply Reads.bind (Reads.word hdr.magic (by decide))
  apply Reads.bind (Reads.word hdr.version (by decide))
  apply Reads.bind (Reads.word hdr.headerSize (by decide))
  apply Reads.bind (Reads.word hdr.totalSize (by decide))
  apply Reads.bind (Reads.byte hdr.numSlots)
  apply Reads.bind (Reads.byte hdr.activeSlot)
  apply Reads.bind (Reads.byte hdr.bootSlot)
  apply Reads.bind (Reads.byte hdr.reserved)
  apply Reads.bind (Reads.word hdr.crc32 (by decide))
  apply Reads.bind (readSlot_reads (hdr.slots 0))
  apply Reads.bind (readSlot_reads (hdr.slots 1))
  rw [slots]
  exact Reads.pure hdr

theorem length_bytes_slot (slot : AbSlotMetadata) : slot.bytes.length = abSlotMetadataBytes := by
  simp [AbSlotMetadata.bytes, abSlotMetadataBytes]

theorem length_bytes (hdr : AbPartitionHeader) : hdr.bytes.length = abPartitionHeaderBytes := by
  simp [AbPartitionHeader.bytes, length_bytes_slot, abSlotMetadataBytes, abPartitionHeaderBytes]

/-- The hardware functions; those that may be null are optional.  `flash_read`
returns the bytes, and `flash_write` returns zero when it succeeds. -/
structure AbUpdateHal (σ : Type) where
  flashRead : Nat → Nat → σ → Option (List UInt8)
  flashWrite : Nat → List UInt8 → σ → Int × σ
  getBootCount : Option (σ → BitVec 32)
  resetBootCount : Option (σ → σ)
  reboot : Option (UInt8 → σ → σ)
  getCurrentTime : Option (σ → BitVec 32)

/-- The fields of `struct ab_update_ctx` besides the hardware functions. -/
structure AbUpdateCtx where
  partition : AbPartitionHeader
  initialized : Bool
  partitionLoaded : Bool
  activeSlotCache : UInt8
  standbySlotCache : UInt8
  bootMarked : Bool

/-- A context together with the hardware. -/
structure AbState (σ : Type) where
  ctx : AbUpdateCtx
  device : σ

variable {σ : Type}

def abUpdateCrc32 (data : List UInt8) : BitVec 32 := Crc32.crc32 data

def zeroSlot : AbSlotMetadata where
  slotId := 0
  slotName := Vector.replicate 32 0
  slotOffset := 0
  slotSize := 0
  state := 0
  priority := 0
  bootable := 0
  bootSuccessful := 0
  bootAttempts := 0
  bootCountLimit := 0
  versionMajor := 0
  versionMinor := 0
  versionPatch := 0
  versionExtra := Vector.replicate 16 0
  imageHash := Vector.replicate 32 0
  imageSize := 0
  imageCrc := 0
  lastBootTime := 0
  updateTimestamp := 0
  reserved := Vector.replicate 16 0

def zeroHeader : AbPartitionHeader where
  magic := 0
  version := 0
  headerSize := 0
  totalSize := 0
  numSlots := 0
  activeSlot := 0
  bootSlot := 0
  reserved := 0
  crc32 := 0
  slots := fun _ => zeroSlot

/-- The context that `ab_update_init` returns. -/
def abUpdateInit : AbUpdateCtx where
  partition := zeroHeader
  initialized := true
  partitionLoaded := false
  activeSlotCache := 0
  standbySlotCache := 0
  bootMarked := false

def abPartitionMagic : BitVec 32 := 0x41425550

/-- The checksum of all but the last four bytes of the header. -/
def AbPartitionHeader.checksum (hdr : AbPartitionHeader) : BitVec 32 :=
  abUpdateCrc32 (hdr.bytes.take (abPartitionHeaderBytes - 4))

def abUpdatePartitionSave (hal : AbUpdateHal σ) (st : AbState σ) : AbResult × AbState σ :=
  if st.ctx.initialized = false then (.errParam, st)
  else
    let hdr := { st.ctx.partition with crc32 := st.ctx.partition.checksum }
    let written := hal.flashWrite 0 hdr.bytes st.device
    (if written.1 ≠ 0 then .errIo else .ok,
      { ctx := { st.ctx with partition := hdr }, device := written.2 })

/-- `snprintf(slot_name, 32, "slot_%c", 'A' + i)`. -/
def slotName (index : Fin 2) : Vector UInt8 32 :=
  Vector.ofFn fun position =>
    [0x73, 0x6C, 0x6F, 0x74, 0x5F, 0x41 + UInt8.ofNat index.val].getD position.val 0

/-- The header that `ab_update_partition_init` makes. -/
def initialHeader (totalSize : BitVec 32) : AbPartitionHeader :=
  let headerSize : BitVec 16 := BitVec.ofNat 16 abPartitionHeaderBytes
  let slotSize := (totalSize - headerSize.setWidth 32) / 2
  { zeroHeader with
    magic := abPartitionMagic
    version := 1
    headerSize := headerSize
    totalSize := totalSize
    numSlots := UInt8.ofNat abUpdateMaxSlots
    slots := fun index =>
      { zeroSlot with
        slotId := UInt8.ofNat index.val
        slotName := slotName index
        slotOffset := headerSize.setWidth 32 + BitVec.ofNat 32 index.val * slotSize
        slotSize := slotSize
        state := if index = 0 then abSlotStateActive else abSlotStateInactive
        priority := UInt8.ofNat index.val
        bootable := if index = 0 then 1 else 0
        bootCountLimit := abUpdateBootCountMax } }

def AbState.withPartition (st : AbState σ) (hdr : AbPartitionHeader) : AbState σ :=
  { st with ctx := { st.ctx with partition := hdr } }

def abUpdatePartitionInit (hal : AbUpdateHal σ) (totalSize : BitVec 32) (st : AbState σ) :
    AbResult × AbState σ :=
  if st.ctx.initialized = false ∨ totalSize = 0 then (.errParam, st)
  else abUpdatePartitionSave hal (st.withPartition (initialHeader totalSize))

/-- The checks of `ab_update_partition_load`. -/
def AbPartitionHeader.Loadable (hdr : AbPartitionHeader) : Prop :=
  hdr.checksum = hdr.crc32 ∧ hdr.magic = abPartitionMagic ∧ ¬hdr.version < 1

instance (hdr : AbPartitionHeader) : Decidable hdr.Loadable :=
  inferInstanceAs (Decidable (_ ∧ _ ∧ _))

/-- `(uint8_t)((slot + 1) % AB_UPDATE_MAX_SLOTS)`. -/
def otherSlot (slot : UInt8) : UInt8 := UInt8.ofNat ((slot.toNat + 1) % abUpdateMaxSlots)

def abUpdatePartitionLoad (hal : AbUpdateHal σ) (st : AbState σ) : AbResult × AbState σ :=
  if st.ctx.initialized = false then (.errParam, st)
  else
    match hal.flashRead 0 abPartitionHeaderBytes st.device with
    | none => (.errIo, st)
    | some data =>
        let hdr := (readHeader.run data).1
        let copied : AbUpdateCtx := { st.ctx with partition := hdr }
        if ¬hdr.Loadable then (.errCrc, { st with ctx := copied })
        else
          (.ok, { st with ctx :=
            { copied with
              partitionLoaded := true
              activeSlotCache := hdr.activeSlot
              standbySlotCache := otherSlot hdr.activeSlot } })

/-- The element of `slots` with this number. -/
def slotIndex (slot : UInt8) : Option (Fin 2) :=
  if inside : slot.toNat < 2 then some ⟨slot.toNat, inside⟩ else none

/-- What is done with two elements of `slots`. -/
def bothSlots {α : Type} (next : Fin 2 → Fin 2 → α) (first second : UInt8) : Option α :=
  (slotIndex first).bind fun firstIndex => (slotIndex second).map (next firstIndex)

def AbPartitionHeader.modifySlot (hdr : AbPartitionHeader) (index : Fin 2)
    (change : AbSlotMetadata → AbSlotMetadata) : AbPartitionHeader :=
  { hdr with slots := Function.update hdr.slots index (change (hdr.slots index)) }

def slotNumber (index : Fin 2) : UInt8 := UInt8.ofNat index.val

def currentTime (hal : AbUpdateHal σ) (device : σ) : BitVec 32 :=
  match hal.getCurrentTime with
  | none => 0
  | some getCurrentTime => getCurrentTime device

/-- `a_bootable` and `b_bootable` of `ab_update_select_boot_slot`. -/
def AbSlotMetadata.IsBootable (slot : AbSlotMetadata) : Prop :=
  slot.bootable ≠ 0 ∧ slot.state = abSlotStateActive

instance (slot : AbSlotMetadata) : Decidable slot.IsBootable :=
  inferInstanceAs (Decidable (_ ∧ _))

/-- Neither slot can be booted. -/
def AbPartitionHeader.NoneBootable (hdr : AbPartitionHeader) : Prop :=
  ¬(hdr.slots 0).IsBootable ∧ ¬(hdr.slots 1).IsBootable

instance (hdr : AbPartitionHeader) : Decidable hdr.NoneBootable :=
  inferInstanceAs (Decidable (_ ∧ _))

/-- The slot that `ab_update_select_boot_slot` chooses. -/
def AbPartitionHeader.chosenSlot (hdr : AbPartitionHeader) : Fin 2 :=
  let slotA := hdr.slots 0
  let slotB := hdr.slots 1
  if hdr.NoneBootable then 0
  else if slotA.IsBootable ∧ ¬slotB.IsBootable then 0
  else if ¬slotA.IsBootable ∧ slotB.IsBootable then 1
  else if slotB.priority < slotA.priority then 0
  else if slotA.priority < slotB.priority then 1
  else if slotB.versionMajor < slotA.versionMajor then 0
  else if slotA.versionMajor < slotB.versionMajor then 1
  else 0

/-- The fall-back of `ab_update_select_boot_slot` when neither slot can be booted. -/
def AbPartitionHeader.revived (hdr : AbPartitionHeader) : AbPartitionHeader :=
  if hdr.NoneBootable then
    hdr.modifySlot 0 fun slot => { slot with bootAttempts := 0, state := abSlotStateActive }
  else hdr

/-- The header that `ab_update_select_boot_slot` saves. -/
def AbPartitionHeader.selected (hdr : AbPartitionHeader) (now : BitVec 32) : AbPartitionHeader :=
  let started := hdr.revived.modifySlot hdr.chosenSlot fun slot =>
    { slot with
      bootAttempts := slot.bootAttempts + 1
      state := abSlotStateBooting
      lastBootTime := now }
  { started with bootSlot := slotNumber hdr.chosenSlot }

theorem AbPartitionHeader.revived_activeSlot (hdr : AbPartitionHeader) :
    hdr.revived.activeSlot = hdr.activeSlot := by
  unfold AbPartitionHeader.revived
  split <;> rfl

theorem AbPartitionHeader.selected_activeSlot (hdr : AbPartitionHeader) (now : BitVec 32) :
    (hdr.selected now).activeSlot = hdr.activeSlot :=
  hdr.revived_activeSlot

/-- The result of `ab_update_select_boot_slot`, with the selected slot. -/
def abUpdateSelectBootSlot (hal : AbUpdateHal σ) (st : AbState σ) :
    Option (Fin 2) × AbResult × AbState σ :=
  if st.ctx.partitionLoaded = false then (none, .errParam, st)
  else
    (some st.ctx.partition.chosenSlot,
      abUpdatePartitionSave hal
        (st.withPartition (st.ctx.partition.selected (currentTime hal st.device))))

/-- What `ab_update_mark_boot_successful` saves. -/
def AbState.bootSuccessful (hal : AbUpdateHal σ) (st : AbState σ) (index : Fin 2) : AbState σ :=
  let boot := st.ctx.partition.bootSlot
  let marked := st.ctx.partition.modifySlot index fun slot =>
    { slot with state := abSlotStateActive, bootSuccessful := 1, bootAttempts := 0 }
  { ctx :=
      { st.ctx with
        partition := { marked with activeSlot := boot }
        activeSlotCache := boot
        standbySlotCache := otherSlot boot
        bootMarked := true }
    device :=
      match hal.resetBootCount with
      | none => st.device
      | some resetBootCount => resetBootCount st.device }

def abUpdateMarkBootSuccessful (hal : AbUpdateHal σ) (st : AbState σ) :
    Option (AbResult × AbState σ) :=
  if st.ctx.partitionLoaded = false then some (.errParam, st)
  else
    ((slotIndex st.ctx.partition.bootSlot).map (st.bootSuccessful hal)).map
      (abUpdatePartitionSave hal)

/-- What `ab_update_mark_boot_failed` saves. -/
def AbState.bootFailed (st : AbState σ) (index : Fin 2) : AbState σ :=
  st.withPartition (st.ctx.partition.modifySlot index fun slot =>
    { slot with state := abSlotStateInvalid, bootSuccessful := 0 })

def abUpdateMarkBootFailed (hal : AbUpdateHal σ) (st : AbState σ) :
    Option (AbResult × AbState σ) :=
  if st.ctx.partitionLoaded = false then some (.errParam, st)
  else
    ((slotIndex st.ctx.partition.bootSlot).map st.bootFailed).map (abUpdatePartitionSave hal)

/-- The address that `ab_update_write_to_standby` writes to, or the error it
returns before it writes.  A `uint32_t` is added to a `size_t` of 64 bits. -/
def standbyWriteOffset (slot : AbSlotMetadata) (len : Nat) (offset : BitVec 32) :
    Except AbResult Nat :=
  if len = 0 then .error .errParam
  else if slot.slotSize.toNat < (offset.toNat + len) % 2 ^ 64 then .error .errSlotFull
  else .ok (slot.slotOffset + offset).toNat

def abUpdateWriteToStandby (hal : AbUpdateHal σ) (data : List UInt8) (offset : BitVec 32)
    (st : AbState σ) : Option (AbResult × AbState σ) :=
  (slotIndex st.ctx.standbySlotCache).map fun index =>
    match standbyWriteOffset (st.ctx.partition.slots index) data.length offset with
    | .error result => (result, st)
    | .ok writeOffset =>
        let written := hal.flashWrite writeOffset data st.device
        (if written.1 ≠ 0 then .errIo else .ok, { st with device := written.2 })

/-- What `ab_update_set_standby_bootable` saves. -/
def AbState.standbyBootable (hal : AbUpdateHal σ)
    (versionMajor versionMinor versionPatch : BitVec 32) (st : AbState σ)
    (standby active : Fin 2) : AbState σ :=
  let provisioned := st.ctx.partition.modifySlot standby fun slot =>
    { slot with
      bootable := 1
      state := abSlotStateInactive
      versionMajor := versionMajor
      versionMinor := versionMinor
      versionPatch := versionPatch
      updateTimestamp := currentTime hal st.device }
  st.withPartition (provisioned.modifySlot active fun slot =>
    { slot with state := abSlotStateInactive, bootable := 0 })

def abUpdateSetStandbyBootable (hal : AbUpdateHal σ)
    (versionMajor versionMinor versionPatch : BitVec 32) (st : AbState σ) :
    Option (AbResult × AbState σ) :=
  if st.ctx.partitionLoaded = false then some (.errParam, st)
  else
    (bothSlots (st.standbyBootable hal versionMajor versionMinor versionPatch)
      st.ctx.standbySlotCache st.ctx.activeSlotCache).map (abUpdatePartitionSave hal)

/-- What `ab_update_switch_and_reboot` saves: the fields of the context stay. -/
def AbState.switched (st : AbState σ) (index : Fin 2) : AbState σ :=
  let activated := st.ctx.partition.modifySlot index fun slot =>
    { slot with state := abSlotStateActive }
  st.withPartition { activated with activeSlot := st.ctx.standbySlotCache }

/-- The end of `ab_update_switch_and_reboot`, behind the save. -/
def rebootAfter (hal : AbUpdateHal σ) (newActive : UInt8) (saved : AbResult × AbState σ) :
    AbResult × AbState σ :=
  if saved.1 ≠ .ok then saved
  else
    match hal.reboot with
    | none => (.ok, saved.2)
    | some reboot => (.ok, { saved.2 with device := reboot newActive saved.2.device })

def abUpdateSwitchAndReboot (hal : AbUpdateHal σ) (st : AbState σ) :
    Option (AbResult × AbState σ) :=
  if st.ctx.partitionLoaded = false then some (.errParam, st)
  else
    ((slotIndex st.ctx.standbySlotCache).map st.switched).map fun switched =>
      rebootAfter hal st.ctx.standbySlotCache (abUpdatePartitionSave hal switched)

/-- What `ab_update_rollback` saves. -/
def AbState.rolledBack (st : AbState σ) (current previous : Fin 2) : AbState σ :=
  let currentActive := st.ctx.partition.activeSlot
  let dropped := st.ctx.partition.modifySlot current fun slot =>
    { slot with state := abSlotStateInvalid, bootable := 0 }
  let restored := dropped.modifySlot previous fun slot =>
    { slot with state := abSlotStateActive, bootable := 1 }
  { st with ctx :=
    { st.ctx with
      partition := { restored with activeSlot := otherSlot currentActive }
      activeSlotCache := otherSlot currentActive
      standbySlotCache := currentActive } }

def abUpdateRollback (hal : AbUpdateHal σ) (st : AbState σ) : Option (AbResult × AbState σ) :=
  if st.ctx.partitionLoaded = false then some (.errParam, st)
  else
    (bothSlots st.rolledBack st.ctx.partition.activeSlot
      (otherSlot st.ctx.partition.activeSlot)).map (abUpdatePartitionSave hal)

/-- The operations that save the header. -/
inductive AbChange
  | partitionInit (totalSize : BitVec 32)
  | selectBootSlot
  | markBootSuccessful
  | markBootFailed
  | setStandbyBootable (versionMajor versionMinor versionPatch : BitVec 32)
  | switchAndReboot
  | rollback
  deriving DecidableEq

inductive AbOp
  | change (op : AbChange)
  | partitionLoad
  | writeToStandby (data : List UInt8) (offset : BitVec 32)
  deriving DecidableEq

def abChangeStep (hal : AbUpdateHal σ) : AbChange → AbState σ → Option (AbResult × AbState σ)
  | .partitionInit totalSize, st => some (abUpdatePartitionInit hal totalSize st)
  | .selectBootSlot, st => some (abUpdateSelectBootSlot hal st).2
  | .markBootSuccessful, st => abUpdateMarkBootSuccessful hal st
  | .markBootFailed, st => abUpdateMarkBootFailed hal st
  | .setStandbyBootable versionMajor versionMinor versionPatch, st =>
      abUpdateSetStandbyBootable hal versionMajor versionMinor versionPatch st
  | .switchAndReboot, st => abUpdateSwitchAndReboot hal st
  | .rollback, st => abUpdateRollback hal st

def abStep (hal : AbUpdateHal σ) : AbOp → AbState σ → Option (AbResult × AbState σ)
  | .change op, st => abChangeStep hal op st
  | .partitionLoad, st => some (abUpdatePartitionLoad hal st)
  | .writeToStandby data offset, st => abUpdateWriteToStandby hal data offset st

/-- The state after a sequence of operations, whatever they return. -/
def abRun (hal : AbUpdateHal σ) : List AbOp → AbState σ → Option (AbState σ)
  | [], st => some st
  | op :: rest, st => (abStep hal op st).bind fun stepped => abRun hal rest stepped.2

/-- The calls that follow a load. -/
def AbOp.IsCall : AbOp → Prop
  | .change (.partitionInit _) => False
  | .partitionLoad => False
  | _ => True

/-- The operation returns before it changes anything. -/
def AbChange.Refused (st : AbState σ) : AbChange → Prop
  | .partitionInit totalSize => st.ctx.initialized = false ∨ totalSize = 0
  | _ => st.ctx.partitionLoaded = false

instance (st : AbState σ) : (op : AbChange) → Decidable (op.Refused st)
  | .partitionInit _ => inferInstanceAs (Decidable (_ ∨ _))
  | .selectBootSlot => inferInstanceAs (Decidable (_ = _))
  | .markBootSuccessful => inferInstanceAs (Decidable (_ = _))
  | .markBootFailed => inferInstanceAs (Decidable (_ = _))
  | .setStandbyBootable _ _ _ => inferInstanceAs (Decidable (_ = _))
  | .switchAndReboot => inferInstanceAs (Decidable (_ = _))
  | .rollback => inferInstanceAs (Decidable (_ = _))

/-- What the operation hands to `ab_update_partition_save`. -/
def AbChange.changed (hal : AbUpdateHal σ) (st : AbState σ) : AbChange → Option (AbState σ)
  | .partitionInit totalSize => some (st.withPartition (initialHeader totalSize))
  | .selectBootSlot =>
      some (st.withPartition (st.ctx.partition.selected (currentTime hal st.device)))
  | .markBootSuccessful => (slotIndex st.ctx.partition.bootSlot).map (st.bootSuccessful hal)
  | .markBootFailed => (slotIndex st.ctx.partition.bootSlot).map st.bootFailed
  | .setStandbyBootable versionMajor versionMinor versionPatch =>
      bothSlots (st.standbyBootable hal versionMajor versionMinor versionPatch)
        st.ctx.standbySlotCache st.ctx.activeSlotCache
  | .switchAndReboot => (slotIndex st.ctx.standbySlotCache).map st.switched
  | .rollback =>
      bothSlots st.rolledBack st.ctx.partition.activeSlot (otherSlot st.ctx.partition.activeSlot)

theorem slotIndex_eq_some {slot : UInt8} (inside : slot.toNat < 2) :
    slotIndex slot = some ⟨slot.toNat, inside⟩ := by
  unfold slotIndex
  rw [dif_pos inside]

theorem oneSlot_eq_some {α : Type} (next : Fin 2 → α) {slot : UInt8} (inside : slot.toNat < 2) :
    (slotIndex slot).map next = some (next ⟨slot.toNat, inside⟩) := by
  rw [slotIndex_eq_some inside, Option.map_some]

theorem bothSlots_eq_some {α : Type} (next : Fin 2 → Fin 2 → α) {first second : UInt8}
    (firstInside : first.toNat < 2) (secondInside : second.toNat < 2) :
    bothSlots next first second =
      some (next ⟨first.toNat, firstInside⟩ ⟨second.toNat, secondInside⟩) := by
  unfold bothSlots
  rw [slotIndex_eq_some firstInside, slotIndex_eq_some secondInside]
  rfl

theorem toNat_slotNumber (index : Fin 2) : (slotNumber index).toNat = index.val := by
  unfold slotNumber
  rw [UInt8.toNat_ofNat', Nat.mod_eq_of_lt (by omega)]

theorem toNat_otherSlot {slot : UInt8} (inside : slot.toNat < 2) :
    (otherSlot slot).toNat = 1 - slot.toNat := by
  unfold otherSlot abUpdateMaxSlots
  rw [UInt8.toNat_ofNat', Nat.mod_eq_of_lt (by omega)]
  omega

/-- The rest of an operation behind its save. -/
def AbChange.finish (hal : AbUpdateHal σ) (st : AbState σ) (saved : AbResult × AbState σ) :
    AbChange → AbResult × AbState σ
  | .switchAndReboot => rebootAfter hal st.ctx.standbySlotCache saved
  | _ => saved

/-- What an operation does: refuse, or change the header and save it. -/
theorem abChangeStep_eq (hal : AbUpdateHal σ) (op : AbChange) (st : AbState σ) :
    abChangeStep hal op st =
      if op.Refused st then some (.errParam, st)
      else (op.changed hal st).map fun changed =>
        op.finish hal st (abUpdatePartitionSave hal changed) := by
  cases op with
  | partitionInit totalSize => exact apply_ite some _ _ _
  | selectBootSlot =>
      rw [abChangeStep, abUpdateSelectBootSlot, apply_ite Prod.snd, apply_ite some]
      rfl
  | _ => rfl

theorem abChangeStep_cases {hal : AbUpdateHal σ} {op : AbChange} {st : AbState σ}
    {result : AbResult × AbState σ} (stepped : abChangeStep hal op st = some result) :
    (op.Refused st ∧ result = (.errParam, st)) ∨
    (¬op.Refused st ∧ ∃ changed, op.changed hal st = some changed ∧
      result = op.finish hal st (abUpdatePartitionSave hal changed)) := by
  rw [abChangeStep_eq] at stepped
  split at stepped
  case isTrue refused => exact Or.inl ⟨refused, (Option.some.inj stepped).symm⟩
  case isFalse taken =>
    obtain ⟨changed, isChanged, same⟩ := Option.map_eq_some_iff.mp stepped
    exact Or.inr ⟨taken, changed, isChanged, same.symm⟩

/-- Two contexts that differ in the checksum only. -/
structure SameFields (first second : AbUpdateCtx) : Prop where
  slots : first.partition.slots = second.partition.slots
  activeSlot : first.partition.activeSlot = second.partition.activeSlot
  bootSlot : first.partition.bootSlot = second.partition.bootSlot
  initialized : first.initialized = second.initialized
  partitionLoaded : first.partitionLoaded = second.partitionLoaded
  activeSlotCache : first.activeSlotCache = second.activeSlotCache
  standbySlotCache : first.standbySlotCache = second.standbySlotCache

theorem abUpdatePartitionSave_sameFields (hal : AbUpdateHal σ) (st : AbState σ) :
    SameFields (abUpdatePartitionSave hal st).2.ctx st.ctx := by
  unfold abUpdatePartitionSave
  split <;> exact ⟨rfl, rfl, rfl, rfl, rfl, rfl, rfl⟩

theorem AbChange.finish_ctx (hal : AbUpdateHal σ) (st : AbState σ)
    (saved : AbResult × AbState σ) (op : AbChange) :
    (op.finish hal st saved).2.ctx = saved.2.ctx := by
  cases op with
  | switchAndReboot =>
      change (rebootAfter hal st.ctx.standbySlotCache saved).2.ctx = saved.2.ctx
      unfold rebootAfter
      split
      · rfl
      · split <;> rfl
  | _ => rfl

/-- An operation leaves the context that it hands to the save, but for the
checksum. -/
theorem AbChange.finish_sameFields (hal : AbUpdateHal σ) (st changed : AbState σ)
    (op : AbChange) :
    SameFields (op.finish hal st (abUpdatePartitionSave hal changed)).2.ctx changed.ctx := by
  rw [AbChange.finish_ctx]
  exact abUpdatePartitionSave_sameFields hal changed

/-- Loading what is on flash. -/
theorem abUpdatePartitionLoad_eq (hal : AbUpdateHal σ) (st : AbState σ) (hdr : AbPartitionHeader)
    (initialized : st.ctx.initialized = true)
    (read : hal.flashRead 0 abPartitionHeaderBytes st.device = some hdr.bytes) :
    abUpdatePartitionLoad hal st =
      if ¬hdr.Loadable then (.errCrc, st.withPartition hdr)
      else
        (.ok, { st with ctx :=
          { st.ctx with
            partition := hdr
            partitionLoaded := true
            activeSlotCache := hdr.activeSlot
            standbySlotCache := otherSlot hdr.activeSlot } }) := by
  unfold abUpdatePartitionLoad
  rw [if_neg (by simp [initialized]), read]
  dsimp only
  rw [(readHeader_reads hdr).run_eq]
  rfl

theorem abUpdatePartitionLoad_caches {hal : AbUpdateHal σ} {before st : AbState σ}
    (loaded : abUpdatePartitionLoad hal before = (.ok, st)) :
    st.ctx.activeSlotCache = st.ctx.partition.activeSlot ∧
      st.ctx.standbySlotCache = otherSlot st.ctx.partition.activeSlot := by
  unfold abUpdatePartitionLoad at loaded
  split at loaded
  · simp at loaded
  · split at loaded
    · simp at loaded
    · dsimp only at loaded
      split at loaded
      · simp at loaded
      · cases loaded
        exact ⟨rfl, rfl⟩

/-- A flash in memory, without the optional functions. -/
def memoryHal : AbUpdateHal Memory where
  flashRead := fun address len flash => some (flash.bytes address len)
  flashWrite := fun address data flash => (0, flash.writeBytes address data)
  getBootCount := none
  resetBootCount := none
  reboot := none
  getCurrentTime := none

theorem memoryHal_read (flash : Memory) (hdr : AbPartitionHeader) :
    memoryHal.flashRead 0 abPartitionHeaderBytes (flash.writeBytes 0 hdr.bytes) =
      some hdr.bytes := by
  rw [← length_bytes hdr]
  exact congrArg some (Memory.bytes_writeBytes_self flash 0 hdr.bytes)

/-- A header that fits its checksum: slot B is active and has booted. -/
def sampleHeader : AbPartitionHeader :=
  let initial := initialHeader 1000
  { initial with
    activeSlot := 1
    bootSlot := 1
    crc32 := 0xe6b4f5a0
    slots := fun index =>
      if index = 0 then
        { initial.slots 0 with state := abSlotStateInactive, bootable := 0 }
      else
        { initial.slots 1 with state := abSlotStateActive, bootable := 1, bootSuccessful := 1 } }

theorem sampleHeader_loadable : sampleHeader.Loadable := by
  have absorbed : Crc32.absorb 0xFFFFFFFF#32 (sampleHeader.bytes.take 300) = 0x194b0a5f#32 :=
    Crc32.absorb_eq_of_absorbVia 30
      [0x24578ecd#32, 0xbe0bcb29#32, 0x7228fed0#32, 0x0bdecaf5#32, 0x534e0099#32, 0x3e9eadae#32,
        0xbce0d803#32, 0x5b565d40#32, 0x8c50581b#32] (by decide +kernel)
  refine ⟨?_, rfl, by decide⟩
  change Crc32.absorb 0xFFFFFFFF#32 (sampleHeader.bytes.take 300) ^^^ 0xFFFFFFFF#32 = _
  rw [absorbed]
  decide

def sampleFlash : Memory := Memory.writeBytes (fun _ => 0) 0 sampleHeader.bytes

/-- The state in which a fresh context has loaded `hdr` from a flash in memory. -/
def loadedState (flash : Memory) (hdr : AbPartitionHeader) : AbState Memory where
  ctx :=
    { abUpdateInit with
      partition := hdr
      partitionLoaded := true
      activeSlotCache := hdr.activeSlot
      standbySlotCache := otherSlot hdr.activeSlot }
  device := flash

theorem loadedState_loaded (flash : Memory) {hdr : AbPartitionHeader} (loadable : hdr.Loadable) :
    abUpdatePartitionLoad memoryHal ⟨abUpdateInit, flash.writeBytes 0 hdr.bytes⟩ =
      (.ok, loadedState (flash.writeBytes 0 hdr.bytes) hdr) := by
  rw [abUpdatePartitionLoad_eq memoryHal _ hdr rfl (memoryHal_read flash hdr),
    if_neg (not_not.mpr loadable)]
  rfl

def sampleState : AbState Memory := loadedState sampleFlash sampleHeader

theorem sampleState_loaded :
    abUpdatePartitionLoad memoryHal ⟨abUpdateInit, sampleFlash⟩ = (.ok, sampleState) :=
  loadedState_loaded (fun _ => 0) sampleHeader_loadable

end Ota

end MiniIotRobotEdge

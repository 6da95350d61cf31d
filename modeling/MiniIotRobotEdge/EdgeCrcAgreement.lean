import MiniIotRobotEdge.EdgeSecureStorage
import MiniIotRobotEdge.OtaAbUpdate
import MiniIotRobotEdge.OtaSignedImage
import MiniIotRobotEdge.RangeLoop
import MiniIotRobotEdge.StepRuns

/-!
# The checksums of mini-edge-security and mini-ota-update

`sec_storage_crc32` looks its bytes up in a table that its first call builds.
From then on the table is complete, so every call gives the checksum that the
two bitwise functions of mini-ota-update compute.
-/

namespace MiniIotRobotEdge

namespace Edge

open StepRuns

/-- The static variables of the checksum. -/
structure CrcStatics where
  crc32Table : Nat → BitVec 32
  crcTableInit : Bool

def CrcStatics.initial : CrcStatics := ⟨fun _ => 0, false⟩

def crc32InitTable (statics : CrcStatics) : CrcStatics where
  crc32Table := (List.range 256).foldl (fun table i =>
    Function.update table i (crc32TableEntry (BitVec.ofNat 32 i))) statics.crc32Table
  crcTableInit := true

/-- A call of `sec_storage_crc32` with the static variables that it leaves. -/
def secStorageCrc32Call (statics : CrcStatics) (data : Bytes) : CrcStatics × BitVec 32 :=
  let statics := if statics.crcTableInit = false then crc32InitTable statics else statics
  (statics, data.foldl (fun crc byte =>
    statics.crc32Table ((crc ^^^ byte.toBitVec.setWidth 32) &&& 0xFF#32).toNat ^^^ (crc >>> 8))
    0xFFFFFFFF#32 ^^^ 0xFFFFFFFF#32)

/-- The static variables after a call. -/
def secStorageCrc32Step (statics : CrcStatics) (data : Bytes) : CrcStatics :=
  (secStorageCrc32Call statics data).1

/-- Every entry is in place. -/
def CrcStatics.Filled (statics : CrcStatics) : Prop :=
  ∀ i < 256, statics.crc32Table i = crc32TableEntry (BitVec.ofNat 32 i)

/-- A table that counts as built is filled. -/
def CrcStatics.Sound (statics : CrcStatics) : Prop :=
  statics.crcTableInit = true → statics.Filled

variable {statics : CrcStatics}

/-- The loop that builds the table reaches each entry. -/
theorem foldl_crc32Table {count i : Nat} (table : Nat → BitVec 32) (inside : i < count) :
    (List.range count).foldl (fun table i =>
      Function.update table i (crc32TableEntry (BitVec.ofNat 32 i))) table i =
      crc32TableEntry (BitVec.ofNat 32 i) :=
  RangeLoop.update_apply (fun i => i) (fun i _ => crc32TableEntry (BitVec.ofNat 32 i))
    (fun first second inOrder _ => by omega) inside

theorem filled_crc32InitTable : (crc32InitTable statics).Filled := by
  intro i inside
  simpa only [crc32InitTable] using foldl_crc32Table statics.crc32Table inside

/-- The statics that a call computes with are filled. -/
theorem CrcStatics.Sound.filled_step (sound : statics.Sound) (data : Bytes) :
    (secStorageCrc32Step statics data).Filled := by
  simp only [secStorageCrc32Step, secStorageCrc32Call]
  split
  case isTrue => exact filled_crc32InitTable
  case isFalse built => exact sound (by simpa using built)

theorem CrcStatics.Sound.step (sound : statics.Sound) (data : Bytes) :
    (secStorageCrc32Step statics data).Sound :=
  fun _ => sound.filled_step data

/-- The table has an entry for each value of the masked byte. -/
theorem CrcStatics.Filled.lookup (filled : statics.Filled) (index : BitVec 32) :
    statics.crc32Table (index &&& 0xFF#32).toNat = crc32TableEntry (index &&& 0xFF#32) := by
  have inside : (index &&& 0xFF#32).toNat < 256 := by
    rw [BitVec.toNat_and]
    exact Nat.lt_succ_of_le Nat.and_le_right
  rw [filled _ inside, BitVec.ofNat_toNat, BitVec.setWidth_eq]

/-- A call gives the checksum of the table's definition. -/
theorem CrcStatics.Sound.result (sound : statics.Sound) (data : Bytes) :
    (secStorageCrc32Call statics data).2 = secStorageCrc32 data := by
  have lookup := (sound.filled_step data).lookup
  simp only [secStorageCrc32Step, secStorageCrc32Call] at lookup
  simp only [secStorageCrc32Call, secStorageCrc32, lookup]

/-- After any calls, the table gives the checksum of both bitwise functions. -/
theorem storage_crc32_agrees (calls : List Bytes) (data : Bytes) :
    (secStorageCrc32Call (after secStorageCrc32Step .initial calls) data).2 =
        Ota.abUpdateCrc32 data ∧
      (secStorageCrc32Call (after secStorageCrc32Step .initial calls) data).2.toNat =
        Ota.sigImgCrc32 data := by
  have start : CrcStatics.initial.Sound := fun built => by contradiction
  have kept : ∀ statics data, CrcStatics.Sound statics → (secStorageCrc32Step statics data).Sound :=
    fun _ data sound => sound.step data
  have sound : (after secStorageCrc32Step .initial calls).Sound := (always_of_kept kept start).last
  rw [sound.result, secStorageCrc32_eq]
  exact ⟨rfl, rfl⟩

end Edge

end MiniIotRobotEdge

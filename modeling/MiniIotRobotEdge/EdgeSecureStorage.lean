import Mathlib.Tactic.SplitIfs
import MiniIotRobotEdge.ByteMemory
import MiniIotRobotEdge.Crc32
import MiniIotRobotEdge.EdgeCrypto

/-!
# The secure storage of mini-edge-security

The model of the encrypted flash and of the files in `secure_storage.c`.  The
flash is a memory of which the first `SEC_FLASH_PART_SIZE` bytes belong to the
source's array; what the source does after an access behind them is undefined.
A buffer is a list of bytes as long as its length argument.
-/

namespace MiniIotRobotEdge

namespace Edge

def secFlashPartSize : Nat := 8192
def secFsBlockSize : Nat := 64
def secFsMaxFiles : Nat := 32
def secFsNameMax : Nat := 16
def secRegionMax : Nat := 8

def secAccessRead : UInt32 := (1 : UInt32) <<< 0
def secAccessWrite : UInt32 := (1 : UInt32) <<< 1

structure SecRegion where
  startAddr : UInt32
  size : UInt32
  permissions : UInt32
  encrypted : Bool

structure SecKDF where
  deviceSecret : Vector UInt8 32
  salt : Vector UInt8 16
  derivedKey : Vector UInt8 32
  kdfInitialized : Bool

structure SecFileEntry where
  name : Bytes
  blockStart : Nat
  blockCount : Nat
  fileSize : Nat
  crc : BitVec 32
  encrypted : Bool
  valid : Bool

/-- An entry after `memset`. -/
def SecFileEntry.cleared : SecFileEntry := ⟨[], 0, 0, 0, 0, false, false⟩

structure SecureStorage where
  flash : Memory
  regions : List SecRegion
  kdf : SecKDF
  files : Nat → SecFileEntry
  fileCount : Nat

/-- An entry of `crc32_table`. -/
def crc32TableEntry (i : BitVec 32) : BitVec 32 :=
  (List.range 8).foldl (fun crc _ =>
    if crc &&& 1 ≠ 0 then 0xEDB88320#32 ^^^ (crc >>> 1) else crc >>> 1) i

def secStorageCrc32 (data : Bytes) : BitVec 32 :=
  data.foldl (fun crc byte =>
    crc32TableEntry ((crc ^^^ byte.toBitVec.setWidth 32) &&& 0xFF#32) ^^^ (crc >>> 8))
    0xFFFFFFFF#32 ^^^ 0xFFFFFFFF#32

def secXorCrypt (key : Vector UInt8 32) (input : Bytes) : Bytes :=
  input.mapIdx fun i byte => byte ^^^ arrayAt key (i % 32)

def secKdfHmac (key msg : Bytes) : Vector UInt8 32 :=
  let ipad := fun i => if i < key.length then 0x36 ^^^ byteAt key i else 0x36
  let opad := fun i => if i < key.length then 0x5C ^^^ byteAt key i else 0x5C
  let innerHash := fun i => (ipad (i % 64) ^^^ byteAt msg (i % msg.length)) * 0x6D
  arrayOf _ fun i => (opad (i % 64) ^^^ innerHash (i % 32)) * 0x5B

def secStorageInit (deviceSecret : Vector UInt8 32) : SecureStorage where
  flash := fun _ => 0
  regions := []
  kdf := ⟨deviceSecret, .replicate _ 0, .replicate _ 0, false⟩
  files := fun _ => .cleared
  fileCount := 0

def secStorageKdfDerive (ss : SecureStorage) : SecureStorage :=
  if ss.kdf.kdfInitialized then ss
  else
    let salt := arrayOf 16 fun i =>
      UInt8.ofNat (0x7A + i * 11 + (arrayAt ss.kdf.deviceSecret (i % 32)).toNat)
    { ss with
      kdf := { ss.kdf with
        salt := salt
        derivedKey := secKdfHmac ss.kdf.deviceSecret.toList salt.toList
        kdfInitialized := true } }

def secStorageAddRegion (ss : SecureStorage) (start size perms : UInt32) (encrypted : Bool) :
    SecureStorage :=
  if secRegionMax ≤ ss.regions.length then ss
  else { ss with regions := ss.regions ++ [⟨start, size, perms, encrypted⟩] }

def SecRegion.covers (region : SecRegion) (addr : UInt32) : Bool :=
  region.startAddr ≤ addr ∧ addr < region.startAddr + region.size

/-- The first region that covers the address decides. -/
def secStorageCheckAccess (ss : SecureStorage) (addr required : UInt32) : Bool :=
  match ss.regions.find? (SecRegion.covers · addr) with
  | some region => region.permissions &&& required = required
  | none => false

/-- The length of an access, cut off at the end of the flash. -/
def clampedLength (addr : UInt32) (len : Nat) : Int :=
  if secFlashPartSize < (addr + UInt32.ofNat len).toNat then
    secFlashPartSize - addr.toInt32.toInt
  else len

/-- The four bytes of the checksum stand at the end of the flash. -/
def SecureStorage.encryptedWrite (ss : SecureStorage) (addr : Nat) (encrypted : Bytes) :
    SecureStorage :=
  { ss with
    flash := (ss.flash.writeBytes addr encrypted).writeBytes (secFlashPartSize - 4)
      (Crc32.wordBytes (secStorageCrc32 encrypted)) }

def secStorageWrite (ss : SecureStorage) (addr : UInt32) (data : Bytes) : SecureStorage :=
  let len := clampedLength addr data.length
  if ¬secStorageCheckAccess ss addr secAccessWrite then ss
  else if len ≤ 0 then ss
  else if ss.kdf.kdfInitialized then
    ss.encryptedWrite addr.toNat (secXorCrypt ss.kdf.derivedKey (data.take len.toNat))
  else { ss with flash := ss.flash.writeBytes addr.toNat (data.take len.toNat) }

/-- The bytes that are read; the buffer is left alone behind them. -/
def secStorageRead (ss : SecureStorage) (addr : UInt32) (count : Nat) : Bytes :=
  let len := clampedLength addr count
  if ¬secStorageCheckAccess ss addr secAccessRead then []
  else if len ≤ 0 then []
  else if ss.kdf.kdfInitialized then
    secXorCrypt ss.kdf.derivedKey (ss.flash.bytes addr.toNat len.toNat)
  else ss.flash.bytes addr.toNat len.toNat

/-- `files[file_id]` with another entry. -/
def SecureStorage.putFile (ss : SecureStorage) (fileId : Nat) (entry : SecFileEntry) :
    SecureStorage :=
  { ss with files := Function.update ss.files fileId entry }

def secStorageFormatFs (ss : SecureStorage) : SecureStorage :=
  { ss with
    files := fun _ => .cleared, fileCount := 0, flash := ss.flash.fill 0 (secFsBlockSize * 2) 0 }

def secStorageFileCreate (ss : SecureStorage) (name : Bytes) : SecureStorage × Int :=
  if secFsMaxFiles ≤ ss.fileCount then (ss, -1)
  else
    let created := ss.putFile ss.fileCount
      { ss.files ss.fileCount with
        name := name.take (secFsNameMax - 1), blockStart := (ss.fileCount + 1) * 8, blockCount := 1
        fileSize := 0, valid := true, encrypted := ss.kdf.kdfInitialized }
    ({ created with fileCount := ss.fileCount + 1 }, ss.fileCount)

/-- The test at the head of every operation on a file. -/
def SecureStorage.HasFile (ss : SecureStorage) (fileId : Int) : Prop :=
  0 ≤ fileId ∧ fileId < ss.fileCount

instance (ss : SecureStorage) (fileId : Int) : Decidable (ss.HasFile fileId) :=
  inferInstanceAs (Decidable (_ ∧ _))

def SecFileEntry.offset (entry : SecFileEntry) : Nat := entry.blockStart * secFsBlockSize

def SecFileEntry.capacity (entry : SecFileEntry) : Nat := entry.blockCount * secFsBlockSize

/-- `wlen`, which is negative for a file that starts behind the flash. -/
def SecFileEntry.writeLength (entry : SecFileEntry) (len : Nat) : Int :=
  let wlen := if len < entry.capacity then len else entry.capacity
  if secFlashPartSize < entry.offset + wlen then (secFlashPartSize : Int) - entry.offset else wlen

/-- `rlen`, from the size as a signed number. -/
def SecFileEntry.readLength (entry : SecFileEntry) (maxLen : Nat) : Int :=
  min (if entry.fileSize < 2 ^ 31 then entry.fileSize else entry.fileSize - 2 ^ 32) maxLen

/-- The key for a file, if it is encrypted. -/
def SecureStorage.fileCrypt (ss : SecureStorage) (entry : SecFileEntry) (data : Bytes) : Bytes :=
  if entry.encrypted ∧ ss.kdf.kdfInitialized then secXorCrypt ss.kdf.derivedKey data else data

def secStorageFileWrite (ss : SecureStorage) (fileId : Int) (data : Bytes) : SecureStorage :=
  if ¬ss.HasFile fileId then ss
  else
    let entry := ss.files fileId.toNat
    let wlen := entry.writeLength data.length
    let flash := ss.flash.writeBytes entry.offset (ss.fileCrypt entry (data.take wlen.toNat))
    { ss with flash := flash }.putFile fileId.toNat
      { entry with
        fileSize := (wlen % 2 ^ 32).toNat
        crc := secStorageCrc32 (flash.bytes entry.offset wlen.toNat) }

def secStorageFileRead (ss : SecureStorage) (fileId : Int) (maxLen : Nat) : Bytes :=
  if ¬ss.HasFile fileId then []
  else
    let entry := ss.files fileId.toNat
    ss.fileCrypt entry (ss.flash.bytes entry.offset (entry.readLength maxLen).toNat)

def secStorageFileDelete (ss : SecureStorage) (fileId : Int) : SecureStorage :=
  if ¬ss.HasFile fileId then ss
  else
    let entry := ss.files fileId.toNat
    { ss with flash := ss.flash.fill entry.offset entry.capacity 0 }.putFile fileId.toNat .cleared

section Checksum

theorem crc32TableEntry_eq (i : BitVec 32) : crc32TableEntry i = Crc32.bitSteps 8 i := by
  have step : ∀ crc : BitVec 32,
      (if crc &&& 1 ≠ 0 then 0xEDB88320#32 ^^^ (crc >>> 1) else crc >>> 1) = Crc32.bitStep crc := by
    intro crc
    have low : crc &&& 1 ≠ 0 ↔ crc.getLsbD 0 = true := by
      change crc &&& 1#32 ≠ 0 ↔ crc.getLsbD 0 = true
      rw [BitVec.and_one_eq_setWidth_ofBool_getLsbD]
      cases crc.getLsbD 0 with
      | false => decide
      | true => decide
    unfold Crc32.bitStep
    by_cases odd : crc.getLsbD 0 = true
    · rw [if_pos (low.mpr odd), if_pos odd, BitVec.xor_comm]
      rfl
    · rw [if_neg (mt low.mp odd), if_neg odd]
  simp only [crc32TableEntry, step]
  rfl

/-- The table gives the same checksum as the bits. -/
theorem secStorageCrc32_eq (data : Bytes) : secStorageCrc32 data = Crc32.crc32 data := by
  have stepped : (fun (crc : BitVec 32) (byte : UInt8) =>
      crc32TableEntry ((crc ^^^ byte.toBitVec.setWidth 32) &&& 0xFF#32) ^^^ (crc >>> 8)) =
        Crc32.byteStep := by
    ext crc byte
    rw [crc32TableEntry_eq, Crc32.byteStep_eq_table]
  rw [secStorageCrc32, stepped]
  rfl

end Checksum

section Encryption

variable (key : Vector UInt8 32)

@[simp]
theorem length_secXorCrypt (input : Bytes) : (secXorCrypt key input).length = input.length := by
  simp [secXorCrypt]

theorem byteAt_secXorCrypt {input : Bytes} {i : Nat} (inside : i < input.length) :
    byteAt (secXorCrypt key input) i = byteAt input i ^^^ arrayAt key (i % 32) := by
  simp [byteAt, secXorCrypt, inside]

theorem secXorCrypt_secXorCrypt (input : Bytes) :
    secXorCrypt key (secXorCrypt key input) = input := by
  apply List.ext_getElem
  · simp
  · intro i _ inside
    have outer := byteAt_secXorCrypt key (show i < (secXorCrypt key input).length by simpa)
    rw [byteAt_secXorCrypt key inside, UInt8.xor_assoc, UInt8.xor_self, UInt8.xor_zero] at outer
    simpa [byteAt, inside] using outer

theorem take_secXorCrypt (input : Bytes) (count : Nat) :
    (secXorCrypt key input).take count = secXorCrypt key (input.take count) := by
  apply List.ext_getElem
  · simp
  · intro i _ _
    simp [secXorCrypt]

end Encryption

end Edge

end MiniIotRobotEdge

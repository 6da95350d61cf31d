import MiniIotRobotEdge.EdgeSecureStorage
import MiniIotRobotEdge.StepRuns

/-!
# The storage as an array of bytes

The purpose of the storage is an array: a read returns what was written last.
A byte is encrypted by its position in the call that writes it, and decrypted by
its position in the call that reads it.  It comes back when the key has the same
byte at both positions.
-/

namespace MiniIotRobotEdge

namespace Edge

open StepRuns

/-- The bytes before the checksum. -/
def storageEnd : Nat := secFlashPartSize - 4

/-- One region covers the flash for reads and writes, and there is a key. -/
structure StorageReady (ss : SecureStorage) : Prop where
  region : ∃ permissions encrypted, ss.regions = [⟨0, 8192, permissions, encrypted⟩] ∧
    permissions &&& secAccessRead = secAccessRead ∧
    permissions &&& secAccessWrite = secAccessWrite
  keyed : ss.kdf.kdfInitialized = true

/-- A write whose range lies before the checksum. -/
structure StorageWrite where
  addr : UInt32
  data : Bytes
  inside : addr.toNat + data.length ≤ storageEnd

def storageStep (ss : SecureStorage) (write : StorageWrite) : SecureStorage :=
  secStorageWrite ss write.addr write.data

/-- A byte with the start of the call that wrote it. -/
structure WrittenByte where
  start : Nat
  value : UInt8

/-- The array of the bytes written last. -/
def noteWrite (last : Nat → Option WrittenByte) (write : StorageWrite) :
    Nat → Option WrittenByte := fun address =>
  if write.addr.toNat ≤ address ∧ address < write.addr.toNat + write.data.length then
    some ⟨write.addr.toNat, byteAt write.data (address - write.addr.toNat)⟩
  else last address

def lastWritten (writes : List StorageWrite) : Nat → Option WrittenByte :=
  after noteWrite (fun _ => none) writes

/-- The flash holds the array, each byte under the key at its position in the call. -/
def HoldsWritten (ss : SecureStorage) (last : Nat → Option WrittenByte) : Prop :=
  ∀ address < storageEnd, ∀ written, last address = some written →
    ss.flash address = written.value ^^^ arrayAt ss.kdf.derivedKey ((address - written.start) % 32)

section Steps

variable {ss : SecureStorage} {addr : UInt32} {len : Nat}

theorem clampedLength_inside (inside : addr.toNat + len ≤ storageEnd) :
    clampedLength addr len = len := by
  have small : storageEnd = 8188 := rfl
  have sum : (addr + UInt32.ofNat len).toNat = addr.toNat + len := by
    rw [UInt32.toNat_add, UInt32.toNat_ofNat', Nat.add_mod_mod, Nat.mod_eq_of_lt (by omega)]
  have flash : secFlashPartSize = 8192 := rfl
  rw [clampedLength, sum, if_neg (by omega)]

theorem StorageReady.access (ready : StorageReady ss) (inside : addr.toNat < storageEnd) :
    secStorageCheckAccess ss addr secAccessRead = true ∧
      secStorageCheckAccess ss addr secAccessWrite = true := by
  obtain ⟨permissions, encrypted, only, reads, writes⟩ := ready.region
  have small : storageEnd = 8188 := rfl
  have covered : SecRegion.covers ⟨0, 8192, permissions, encrypted⟩ addr = true := by
    have below : addr < 0 + 8192 := by
      rw [UInt32.lt_iff_toNat_lt]
      change addr.toNat < 8192
      omega
    simp only [SecRegion.covers, UInt32.zero_le, true_and, decide_eq_true_eq]
    exact below
  have found : ss.regions.find? (SecRegion.covers · addr) =
      some ⟨0, 8192, permissions, encrypted⟩ := by
    rw [only]
    exact List.find?_cons_of_pos covered
  simp [secStorageCheckAccess, found, reads, writes]

/-- A write inside the flash encrypts the whole of the data. -/
theorem StorageReady.write (ready : StorageReady ss) (write : StorageWrite)
    (nonempty : 0 < write.data.length) :
    storageStep ss write =
      ss.encryptedWrite write.addr.toNat (secXorCrypt ss.kdf.derivedKey write.data) := by
  have inside := write.inside
  have access := (ready.access (by omega : write.addr.toNat < storageEnd)).2
  rw [storageStep, secStorageWrite, clampedLength_inside inside, if_neg (by simp [access]),
    if_neg (by omega), if_pos ready.keyed, Int.toNat_natCast, List.take_length]

theorem write_nothing (write : StorageWrite) (empty : ¬0 < write.data.length) :
    storageStep ss write = ss := by
  rw [storageStep, secStorageWrite, clampedLength_inside write.inside]
  split_ifs with denied nothing
  · rfl
  · omega
  · omega
  · rfl

theorem StorageReady.step (ready : StorageReady ss) (write : StorageWrite) :
    StorageReady (storageStep ss write) ∧
      (storageStep ss write).kdf.derivedKey = ss.kdf.derivedKey := by
  by_cases nonempty : 0 < write.data.length
  · rw [ready.write write nonempty]
    exact ⟨⟨ready.region, ready.keyed⟩, rfl⟩
  · rw [write_nothing write nonempty]
    exact ⟨ready, rfl⟩

/-- The bytes of the flash before the checksum after a write. -/
theorem encryptedWrite_flash (ss : SecureStorage) (start : Nat) (encrypted : Bytes) {address : Nat}
    (inside : address < storageEnd) :
    (ss.encryptedWrite start encrypted).flash address =
      ss.flash.writeBytes start encrypted address :=
  Memory.writeBytes_outside (.inl inside)

theorem HoldsWritten.step {last : Nat → Option WrittenByte} (holds : HoldsWritten ss last)
    (ready : StorageReady ss) (write : StorageWrite) :
    HoldsWritten (storageStep ss write) (noteWrite last write) := by
  intro address inside written noted
  rw [(ready.step write).2]
  by_cases covered : write.addr.toNat ≤ address ∧
      address < write.addr.toNat + write.data.length
  · rw [noteWrite, if_pos covered] at noted
    obtain rfl := Option.some.inj noted
    rw [ready.write write (by omega), encryptedWrite_flash _ _ _ inside, Memory.writeBytes,
      if_pos (by simpa using covered)]
    exact byteAt_secXorCrypt _ (by omega)
  · rw [noteWrite, if_neg covered] at noted
    have unchanged : (storageStep ss write).flash address = ss.flash address := by
      by_cases nonempty : 0 < write.data.length
      · rw [ready.write write nonempty, encryptedWrite_flash _ _ _ inside,
          Memory.writeBytes_outside (by rw [length_secXorCrypt]; omega)]
      · rw [write_nothing write nonempty]
    rw [unchanged]
    exact holds address inside written noted

/-- Every run of writes leaves the storage ready with the array in it. -/
theorem holdsWritten_after {last : Nat → Option WrittenByte} (ready : StorageReady ss)
    (holds : HoldsWritten ss last) (writes : List StorageWrite) :
    StorageReady (after storageStep ss writes) ∧
      (after storageStep ss writes).kdf.derivedKey = ss.kdf.derivedKey ∧
      HoldsWritten (after storageStep ss writes) (after noteWrite last writes) := by
  induction writes generalizing ss last with
  | nil => exact ⟨ready, rfl, holds⟩
  | cons write rest ih =>
      obtain ⟨stillReady, sameKey⟩ := ready.step write
      obtain ⟨finallyReady, finalKey, finallyHolds⟩ := ih stillReady (holds.step ready write)
      exact ⟨finallyReady, finalKey.trans sameKey, finallyHolds⟩

/-- What a read inside the flash returns. -/
theorem StorageReady.read (ready : StorageReady ss) (inside : addr.toNat + len ≤ storageEnd)
    (positive : 0 < len) :
    secStorageRead ss addr len =
      secXorCrypt ss.kdf.derivedKey (ss.flash.bytes addr.toNat len) := by
  have access := (ready.access (by omega : addr.toNat < storageEnd)).1
  rw [secStorageRead, clampedLength_inside inside, if_neg (by simp [access]),
    if_neg (by omega), if_pos ready.keyed, Int.toNat_natCast]

theorem StorageReady.byteAt_read (ready : StorageReady ss)
    (inside : addr.toNat + len ≤ storageEnd) {i : Nat} (early : i < len) :
    byteAt (secStorageRead ss addr len) i =
      ss.flash (addr.toNat + i) ^^^ arrayAt ss.kdf.derivedKey (i % 32) := by
  rw [ready.read inside (by omega), byteAt_secXorCrypt _ (by simpa using early)]
  simp [byteAt, Memory.bytes, early]

end Steps

/-- A read returns the bytes written last exactly where the key has the same
byte at the position in the read as at the position in the last write. -/
theorem storage_read_iff (ss : SecureStorage) (ready : StorageReady ss)
    (writes : List StorageWrite) (addr : UInt32) (count : Nat)
    (inside : addr.toNat + count ≤ storageEnd) :
    (∀ i < count, ∀ written, lastWritten writes (addr.toNat + i) = some written →
      byteAt (secStorageRead (after storageStep ss writes) addr count) i = written.value) ↔
    ∀ i < count, ∀ written, lastWritten writes (addr.toNat + i) = some written →
      arrayAt ss.kdf.derivedKey ((addr.toNat + i - written.start) % 32) =
        arrayAt ss.kdf.derivedKey (i % 32) := by
  have nothing : HoldsWritten ss fun _ => none := by
    intro address _ written noted
    contradiction
  obtain ⟨finallyReady, sameKey, holds⟩ := holdsWritten_after ready nothing writes
  refine forall₂_congr fun i early => forall₂_congr fun written noted => ?_
  have stored := holds (addr.toNat + i) (by omega) written noted
  rw [finallyReady.byteAt_read inside early, stored, sameKey, UInt8.xor_assoc]
  constructor
  · intro same
    rw [← UInt8.xor_eq_zero_iff, ← UInt8.xor_right_inj written.value, same, UInt8.xor_zero]
  · intro same
    rw [same, UInt8.xor_self, UInt8.xor_zero]

/-- Storage with a key derived from a secret of zeros, and one region. -/
def freshStorage : SecureStorage :=
  secStorageAddRegion (secStorageKdfDerive (secStorageInit (.replicate _ 0))) 0 8192
    (secAccessRead ||| secAccessWrite) true

def twoByteWrite : StorageWrite := ⟨0x100, [0x40, 0x41], by decide⟩

theorem freshStorage_ready : StorageReady freshStorage where
  region := ⟨secAccessRead ||| secAccessWrite, true, rfl, by decide, by decide⟩
  keyed := rfl

theorem storage_read_iff_aligned :
    (∀ i < 2, ∀ written, lastWritten [twoByteWrite] (0x100 + i) = some written →
      byteAt (secStorageRead (after storageStep freshStorage [twoByteWrite]) 0x100 2) i =
        written.value) ↔
    ∀ i < 2, ∀ written, lastWritten [twoByteWrite] (0x100 + i) = some written →
      arrayAt freshStorage.kdf.derivedKey ((0x100 + i - written.start) % 32) =
        arrayAt freshStorage.kdf.derivedKey (i % 32) :=
  storage_read_iff freshStorage freshStorage_ready [twoByteWrite] 0x100 2 (by decide)

/-- A read that starts one byte behind the write gets another byte. -/
theorem shifted_read_wrong :
    ¬∀ (ss : SecureStorage) (_ready : StorageReady ss) (writes : List StorageWrite)
        (addr : UInt32) (count : Nat), addr.toNat + count ≤ storageEnd →
      ∀ i < count, ∀ written, lastWritten writes (addr.toNat + i) = some written →
        byteAt (secStorageRead (after storageStep ss writes) addr count) i = written.value := by
  intro array
  have returned := array freshStorage freshStorage_ready [twoByteWrite] 0x101 1 (by decide) 0
    (by decide) ⟨0x100, 0x41⟩ rfl
  have other : byteAt (secStorageRead (after storageStep freshStorage [twoByteWrite]) 0x101 1) 0 ≠
      0x41 := by decide +kernel
  exact other returned

end Edge

end MiniIotRobotEdge

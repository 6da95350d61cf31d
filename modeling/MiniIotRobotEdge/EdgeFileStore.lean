import MiniIotRobotEdge.EdgeSecureStorage
import MiniIotRobotEdge.StepRuns

/-!
# The files as a finite map

The purpose of the file store is a map from file numbers to contents.  A file
lies at the number of its creation times 512, so that the sixteenth starts at
the end of the flash: up to the fifteenth the store is such a map.
-/

namespace MiniIotRobotEdge

namespace Edge

open StepRuns

inductive FileCall
  | create (name : Bytes)
  | write (fileId : Int) (data : Bytes)
  | read (fileId : Int) (maxLen : Nat)
  | delete (fileId : Int)

def fileStoreStep (ss : SecureStorage) : FileCall → SecureStorage
  | .create name => (secStorageFileCreate ss name).1
  | .write fileId data => secStorageFileWrite ss fileId data
  | .read .. => ss
  | .delete fileId => secStorageFileDelete ss fileId

/-- The contents of the files there are, and how many numbers are used up. -/
structure FileMap where
  contents : Nat → Option Bytes
  count : Nat

def FileMap.empty : FileMap := ⟨fun _ => none, 0⟩

def FileMap.put (map : FileMap) (fileId : Nat) (contents : Option Bytes) : FileMap :=
  { map with contents := Function.update map.contents fileId contents }

def FileMap.HasFile (map : FileMap) (fileId : Int) : Prop :=
  0 ≤ fileId ∧ (map.contents fileId.toNat).isSome = true

instance (map : FileMap) (fileId : Int) : Decidable (map.HasFile fileId) :=
  inferInstanceAs (Decidable (_ ∧ _))

/-- A file keeps the first block of what is written to it. -/
def fileMapStep (map : FileMap) : FileCall → FileMap
  | .create _ =>
      if secFsMaxFiles ≤ map.count then map
      else { map.put map.count (some []) with count := map.count + 1 }
  | .write fileId data =>
      if map.HasFile fileId then map.put fileId.toNat (some (data.take secFsBlockSize)) else map
  | .read .. => map
  | .delete fileId => if map.HasFile fileId then map.put fileId.toNat none else map

/-- The store beside the map that it should be. -/
abbrev FileSystem := SecureStorage × FileMap

def fileSystemStep (state : FileSystem) (call : FileCall) : FileSystem :=
  (fileStoreStep state.1 call, fileMapStep state.2 call)

/-- A read of a file gives its contents, cut off at the size of the buffer. -/
def ReadsContents (state : FileSystem) : Prop :=
  ∀ (fileId : Nat) (contents : Bytes), state.2.contents fileId = some contents →
    ∀ maxLen, secStorageFileRead state.1 fileId maxLen = contents.take maxLen

/-- A length as a `size_t`. -/
def sizeT (len : Int) : Nat := (len % 2 ^ 64).toNat

/-- The start and the size of the access that a call makes to the flash. -/
def touched (ss : SecureStorage) : FileCall → Nat × Nat
  | .create _ => (0, 0)
  | .write fileId data =>
      if ss.HasFile fileId then
        ((ss.files fileId.toNat).offset, sizeT ((ss.files fileId.toNat).writeLength data.length))
      else (0, 0)
  | .read fileId maxLen =>
      if ss.HasFile fileId then
        ((ss.files fileId.toNat).offset, sizeT ((ss.files fileId.toNat).readLength maxLen))
      else (0, 0)
  | .delete fileId =>
      if ss.HasFile fileId then
        ((ss.files fileId.toNat).offset, (ss.files fileId.toNat).capacity)
      else (0, 0)

def TouchesFlash (state : FileSystem) (call : FileCall) : Prop :=
  ∀ index, (touched state.1 call).1 ≤ index →
    index < (touched state.1 call).1 + (touched state.1 call).2 → index < secFlashPartSize

/-- The call writes and deletes existing files in the flash only; an empty
write to the file at its end does no harm. -/
def FileCallFits (state : FileSystem) : FileCall → Prop
  | .write fileId data =>
      state.2.HasFile fileId → fileId ≤ 14 ∨ fileId = 15 ∧ data = []
  | .delete fileId => state.2.HasFile fileId → fileId ≤ 14
  | _ => True

/-- The entry of a file with the given contents, or of a deleted one. -/
def EntryHolds (ss : SecureStorage) (fileId : Nat) : Option Bytes → Prop
  | none =>
      (ss.files fileId).blockStart = 0 ∧ (ss.files fileId).blockCount = 0 ∧
        (ss.files fileId).fileSize = 0
  | some contents =>
      (ss.files fileId).blockStart = (fileId + 1) * 8 ∧ (ss.files fileId).blockCount = 1 ∧
        (ss.files fileId).fileSize = contents.length ∧ contents.length ≤ secFsBlockSize ∧
        (fileId ≤ 14 ∨ contents = []) ∧
        ss.fileCrypt (ss.files fileId)
          (ss.flash.bytes (ss.files fileId).offset contents.length) = contents

structure FilesHold (state : FileSystem) : Prop where
  count : state.1.fileCount = state.2.count
  bounded : state.2.count ≤ secFsMaxFiles
  unused : ∀ fileId, state.2.count ≤ fileId → state.2.contents fileId = none
  entries : ∀ fileId < state.2.count, EntryHolds state.1 fileId (state.2.contents fileId)

section Entries

variable {ss : SecureStorage} {entry : SecFileEntry} {fileId : Nat} {contents data : Bytes}

theorem fileCrypt_fileCrypt (ss : SecureStorage) (entry : SecFileEntry) (data : Bytes) :
    ss.fileCrypt entry (ss.fileCrypt entry data) = data := by
  unfold SecureStorage.fileCrypt
  split_ifs
  · exact secXorCrypt_secXorCrypt _ data
  · rfl

@[simp]
theorem length_fileCrypt (ss : SecureStorage) (entry : SecFileEntry) (data : Bytes) :
    (ss.fileCrypt entry data).length = data.length := by
  unfold SecureStorage.fileCrypt
  split_ifs
  · exact length_secXorCrypt _ data
  · rfl

theorem take_fileCrypt (ss : SecureStorage) (entry : SecFileEntry) (data : Bytes) (count : Nat) :
    (ss.fileCrypt entry data).take count = ss.fileCrypt entry (data.take count) := by
  unfold SecureStorage.fileCrypt
  split_ifs
  · exact take_secXorCrypt _ data count
  · rfl

/-- A file number in use lies in the range of the source's test. -/
theorem FilesHold.hasFile {state : FileSystem} (hold : FilesHold state) {fileId : Int}
    (inMap : state.2.HasFile fileId) : state.1.HasFile fileId := by
  refine ⟨inMap.1, ?_⟩
  by_contra beyond
  have none := hold.unused fileId.toNat (by rw [← hold.count]; omega)
  have some := inMap.2
  rw [none] at some
  contradiction

theorem FilesHold.readsContents {state : FileSystem} (hold : FilesHold state) :
    ReadsContents state := by
  intro fileId contents inMap maxLen
  have inUse : state.1.HasFile fileId := hold.hasFile ⟨by omega, by simp [inMap]⟩
  have entry := hold.entries fileId (by have := inUse.2; rw [hold.count] at this; omega)
  rw [inMap] at entry
  obtain ⟨start, count, size, small, inside, holds⟩ := entry
  have block : secFsBlockSize = 64 := rfl
  have readLength : ((state.1.files fileId).readLength maxLen).toNat =
      min maxLen contents.length := by
    rw [SecFileEntry.readLength, size, if_pos (by omega)]
    omega
  have prefixed : state.1.flash.bytes (state.1.files fileId).offset (min maxLen contents.length) =
      (state.1.flash.bytes (state.1.files fileId).offset contents.length).take maxLen := by
    rw [Memory.bytes, Memory.bytes, ← List.map_take, List.take_range]
  rw [secStorageFileRead, if_neg (not_not.mpr inUse)]
  dsimp only
  rw [Int.toNat_natCast, readLength, prefixed, ← take_fileCrypt, holds]

/-- An entry depends on its own record and its own block. -/
theorem EntryHolds.congr {other : SecureStorage} {contents : Option Bytes}
    (holds : EntryHolds ss fileId contents) (sameFile : other.files fileId = ss.files fileId)
    (sameKdf : other.kdf = ss.kdf)
    (sameBlock : ∀ address, (fileId + 1) * 512 ≤ address → address < (fileId + 1) * 512 + 64 →
      fileId ≤ 14 → other.flash address = ss.flash address) :
    EntryHolds other fileId contents := by
  cases contents with
  | none =>
      unfold EntryHolds at holds ⊢
      rwa [sameFile]
  | some contents =>
      obtain ⟨start, count, size, small, inside, holds⟩ := holds
      refine ⟨?_, ?_, ?_, small, inside, ?_⟩
      all_goals rw [sameFile]
      · exact start
      · exact count
      · exact size
      · have offset : (ss.files fileId).offset = (fileId + 1) * 512 := by
          rw [SecFileEntry.offset, start, secFsBlockSize]
          omega
        have block : secFsBlockSize = 64 := rfl
        have sameBytes : other.flash.bytes (ss.files fileId).offset contents.length =
            ss.flash.bytes (ss.files fileId).offset contents.length := by
          apply Memory.bytes_congr
          intro address lower upper
          rcases inside with early | rfl
          · exact sameBlock address (by omega) (by omega) early
          · simp only [List.length_nil] at upper
            omega
        unfold SecureStorage.fileCrypt at holds ⊢
        rw [sameBytes, sameKdf]
        exact holds

theorem fileCrypt_congr {other : SecureStorage} {otherEntry : SecFileEntry}
    (sameKdf : other.kdf = ss.kdf) (sameFlag : otherEntry.encrypted = entry.encrypted) :
    other.fileCrypt otherEntry data = ss.fileCrypt entry data := by
  unfold SecureStorage.fileCrypt
  rw [sameKdf, sameFlag]

theorem writeLength_inside {len : Nat}
    (fits : entry.offset + min len entry.capacity ≤ secFlashPartSize) :
    entry.writeLength len = (min len entry.capacity : Nat) := by
  have shorter : (if len < entry.capacity then len else entry.capacity) =
      min len entry.capacity := by
    split <;> omega
  rw [SecFileEntry.writeLength, shorter]
  exact if_neg (by omega)

theorem sizeT_natCast {len : Nat} (small : len < 2 ^ 64) : sizeT len = len := by
  rw [sizeT]
  omega

end Entries

/-- The store after a write of as much as the file holds. -/
def SecureStorage.fileWritten (ss : SecureStorage) (fileId : Nat) (data : Bytes) : SecureStorage :=
  let entry := ss.files fileId
  let kept := data.take entry.capacity
  let flash := ss.flash.writeBytes entry.offset (ss.fileCrypt entry kept)
  { ss with flash := flash }.putFile fileId
    { entry with
      fileSize := kept.length
      crc := secStorageCrc32 (flash.bytes entry.offset kept.length) }

section Changes

variable {state : FileSystem} {ss : SecureStorage} {fileId : Nat} {data : Bytes}

theorem FilesHold.entry (hold : FilesHold state) (inUse : state.1.HasFile fileId) :
    EntryHolds state.1 fileId (state.2.contents fileId) := by
  apply hold.entries fileId
  have upper := inUse.2
  rw [hold.count] at upper
  omega

/-- The store with one file changed, beside the map with this file changed. -/
theorem FilesHold.change {contents : Option Bytes} (hold : FilesHold state)
    (inUse : state.1.HasFile fileId) (sameCount : ss.fileCount = state.1.fileCount)
    (sameKdf : ss.kdf = state.1.kdf)
    (sameFiles : ∀ other, other ≠ fileId → ss.files other = state.1.files other)
    (sameFlash : ∀ other, other ≠ fileId → ∀ address, (other + 1) * 512 ≤ address →
      address < (other + 1) * 512 + 64 → other ≤ 14 → ss.flash address = state.1.flash address)
    (entry : EntryHolds ss fileId contents) : FilesHold (ss, state.2.put fileId contents) where
  count := sameCount.trans hold.count
  bounded := hold.bounded
  unused := by
    intro other beyond
    have upper := inUse.2
    rw [hold.count] at upper
    have different : other ≠ fileId := by
      change state.2.count ≤ other at beyond
      omega
    change Function.update state.2.contents fileId contents other = none
    rw [Function.update_of_ne different]
    exact hold.unused other beyond
  entries := by
    intro other used
    change EntryHolds ss other (Function.update state.2.contents fileId contents other)
    by_cases same : other = fileId
    · subst same
      rwa [Function.update_self]
    · rw [Function.update_of_ne same]
      exact (hold.entries other used).congr (sameFiles other same) sameKdf (sameFlash other same)

theorem fileWrite_inside (inUse : ss.HasFile fileId)
    (fits : (ss.files fileId).offset + min data.length (ss.files fileId).capacity ≤
      secFlashPartSize) :
    secStorageFileWrite ss fileId data = ss.fileWritten fileId data := by
  have flash : secFlashPartSize = 8192 := rfl
  have length : (data.take (ss.files fileId).capacity).length =
      min data.length (ss.files fileId).capacity := by
    rw [List.length_take, Nat.min_comm]
  have shortened : data.take (min data.length (ss.files fileId).capacity) =
      data.take (ss.files fileId).capacity := by
    rw [List.take_eq_take_iff]
    omega
  have size : ((min data.length (ss.files fileId).capacity : Nat) % 2 ^ 32 : Int).toNat =
      min data.length (ss.files fileId).capacity := by
    omega
  rw [secStorageFileWrite, if_neg (not_not.mpr inUse), Int.toNat_natCast]
  dsimp only
  rw [writeLength_inside fits, Int.toNat_natCast, shortened, size, SecureStorage.fileWritten,
    length]

theorem EntryHolds.fileWritten {contents : Bytes} (holds : EntryHolds ss fileId (some contents))
    (inside : fileId ≤ 14 ∨ data = []) :
    EntryHolds (ss.fileWritten fileId data) fileId (some (data.take secFsBlockSize)) := by
  obtain ⟨start, count, _⟩ := holds
  have capacity : (ss.files fileId).capacity = secFsBlockSize := by
    rw [SecFileEntry.capacity, count, Nat.one_mul]
  have entry : (ss.fileWritten fileId data).files fileId =
      { ss.files fileId with
        fileSize := (data.take secFsBlockSize).length
        crc := ((ss.fileWritten fileId data).files fileId).crc } := by
    simp [SecureStorage.fileWritten, SecureStorage.putFile, capacity]
  refine ⟨?_, ?_, ?_, by simp, ?_, ?_⟩
  · rw [entry, start]
  · rw [entry, count]
  · rw [entry]
  · rcases inside with early | rfl
    · exact .inl early
    · exact .inr rfl
  · have written : (ss.fileWritten fileId data).flash =
        ss.flash.writeBytes (ss.files fileId).offset
          (ss.fileCrypt (ss.files fileId) (data.take secFsBlockSize)) := by
      rw [SecureStorage.fileWritten, capacity]
      rfl
    have stored := Memory.bytes_writeBytes_self ss.flash (ss.files fileId).offset
      (ss.fileCrypt (ss.files fileId) (data.take secFsBlockSize))
    rw [length_fileCrypt] at stored
    have offset : ((ss.fileWritten fileId data).files fileId).offset =
        (ss.files fileId).offset := by
      rw [entry]
      rfl
    have flag : ((ss.fileWritten fileId data).files fileId).encrypted =
        (ss.files fileId).encrypted := by
      rw [entry]
    have sameKey : (ss.fileWritten fileId data).fileCrypt
        ((ss.fileWritten fileId data).files fileId)
        (ss.fileCrypt (ss.files fileId) (data.take secFsBlockSize)) =
          ss.fileCrypt (ss.files fileId)
            (ss.fileCrypt (ss.files fileId) (data.take secFsBlockSize)) :=
      fileCrypt_congr rfl flag
    rw [offset, written, stored, sameKey, fileCrypt_fileCrypt]

/-- A file in the map lies at the number of its creation; a deleted one nowhere. -/
theorem EntryHolds.place {contents : Option Bytes} (holds : EntryHolds ss fileId contents) :
    contents.isSome = true ∧ (ss.files fileId).offset = (fileId + 1) * 512 ∧
        (ss.files fileId).capacity = 64 ∨
      contents = none ∧ (ss.files fileId).offset = 0 ∧ (ss.files fileId).capacity = 0 := by
  unfold SecFileEntry.offset SecFileEntry.capacity secFsBlockSize
  cases contents with
  | none =>
      obtain ⟨start, count, _⟩ := holds
      right
      simp [start, count]
  | some contents =>
      obtain ⟨start, count, _⟩ := holds
      left
      simp only [start, count, Option.isSome_some, true_and, Nat.one_mul, and_true]
      omega

/-- A write changes the block of its own file. -/
theorem FilesHold.fileWritten {contents : Option Bytes} (hold : FilesHold state)
    (inUse : state.1.HasFile fileId)
    (own : (state.1.files fileId).offset = (fileId + 1) * 512 ∨
      (state.1.files fileId).capacity = 0)
    (short : (state.1.files fileId).capacity ≤ 64)
    (entry : EntryHolds (state.1.fileWritten fileId data) fileId contents) :
    FilesHold (state.1.fileWritten fileId data, state.2.put fileId contents) := by
  have sameCount : (state.1.fileWritten fileId data).fileCount = state.1.fileCount := rfl
  have sameKdf : (state.1.fileWritten fileId data).kdf = state.1.kdf := rfl
  apply hold.change inUse sameCount sameKdf _ _ entry
  · intro other different
    exact Function.update_of_ne different ..
  · intro other different address lower upper _
    apply Memory.writeBytes_outside
    rw [length_fileCrypt, List.length_take]
    rcases own with offset | capacity
    · rw [offset]
      omega
    · rw [capacity]
      omega

theorem FilesHold.write (hold : FilesHold state)
    (fits : state.2.HasFile fileId → fileId ≤ 14 ∨ fileId = 15 ∧ data = []) :
    FilesHold (fileSystemStep state (.write fileId data)) := by
  change FilesHold (secStorageFileWrite state.1 fileId data,
    if state.2.HasFile fileId then state.2.put fileId (some (data.take secFsBlockSize))
    else state.2)
  have flash : secFlashPartSize = 8192 := rfl
  by_cases inUse : state.1.HasFile fileId
  · have holds := hold.entry inUse
    rcases holds.place with ⟨inMap, offset, capacity⟩ | ⟨deleted, offset, capacity⟩
    · have file : state.2.HasFile fileId := ⟨by omega, inMap⟩
      have inside : fileId ≤ 14 ∨ fileId = 15 ∧ data.length = 0 := by
        rcases fits file with early | ⟨last, rfl⟩
        · exact .inl early
        · exact .inr ⟨last, rfl⟩
      obtain ⟨contents, present⟩ := Option.isSome_iff_exists.mp inMap
      rw [present] at holds
      rw [if_pos file, fileWrite_inside inUse (by rw [offset, capacity]; omega)]
      apply hold.fileWritten inUse (.inl offset) capacity.le (holds.fileWritten _)
      exact (fits file).imp_right And.right
    · have noFile : ¬state.2.HasFile fileId := by
        intro file
        have inMap := file.2
        rw [Int.toNat_natCast, deleted] at inMap
        contradiction
      have unchanged : state.2 = state.2.put fileId none := by
        rw [FileMap.put, ← deleted, Function.update_eq_self]
      rw [if_neg noFile, fileWrite_inside inUse (by rw [offset, capacity]; omega), unchanged]
      apply hold.fileWritten inUse (.inr capacity) (by omega)
      rw [deleted] at holds
      obtain ⟨start, count, size⟩ := holds
      simp [EntryHolds, SecureStorage.fileWritten, SecureStorage.putFile, start, count, capacity]
  · have noFile : ¬state.2.HasFile fileId := mt hold.hasFile inUse
    rw [if_neg noFile, secStorageFileWrite, if_pos inUse]
    exact hold

theorem FilesHold.delete (hold : FilesHold state) :
    FilesHold (fileSystemStep state (.delete fileId)) := by
  change FilesHold (secStorageFileDelete state.1 fileId,
    if state.2.HasFile fileId then state.2.put fileId none else state.2)
  by_cases inUse : state.1.HasFile fileId
  · have cleared : (if state.2.HasFile fileId then state.2.put fileId none else state.2) =
        state.2.put fileId none := by
      split_ifs with file
      · rfl
      · have deleted : state.2.contents fileId = none := by
          rw [← Option.not_isSome_iff_eq_none]
          exact fun inMap => file ⟨by omega, inMap⟩
        rw [FileMap.put, ← deleted, Function.update_eq_self]
    have sameCount : (secStorageFileDelete state.1 fileId).fileCount = state.1.fileCount := by
      rw [secStorageFileDelete, if_neg (not_not.mpr inUse)]
      rfl
    have sameKdf : (secStorageFileDelete state.1 fileId).kdf = state.1.kdf := by
      rw [secStorageFileDelete, if_neg (not_not.mpr inUse)]
      rfl
    rw [cleared]
    apply hold.change inUse sameCount sameKdf
    · intro other different
      rw [secStorageFileDelete, if_neg (not_not.mpr inUse), Int.toNat_natCast]
      exact Function.update_of_ne different ..
    · intro other different address lower upper _
      rw [secStorageFileDelete, if_neg (not_not.mpr inUse), Int.toNat_natCast]
      apply Memory.fill_outside
      rcases (hold.entry inUse).place with ⟨_, offset, capacity⟩ | ⟨_, offset, capacity⟩
      · rw [offset, capacity]
        omega
      · rw [offset, capacity]
        omega
    · rw [secStorageFileDelete, if_neg (not_not.mpr inUse), Int.toNat_natCast]
      simp [EntryHolds, SecureStorage.putFile, SecFileEntry.cleared]
  · have noFile : ¬state.2.HasFile fileId := mt hold.hasFile inUse
    rw [if_neg noFile, secStorageFileDelete, if_pos inUse]
    exact hold

theorem FilesHold.create (hold : FilesHold state) (name : Bytes) :
    FilesHold (fileSystemStep state (.create name)) := by
  change FilesHold ((secStorageFileCreate state.1 name).1,
    if secFsMaxFiles ≤ state.2.count then state.2
    else { state.2.put state.2.count (some []) with count := state.2.count + 1 })
  have count := hold.count
  by_cases full : secFsMaxFiles ≤ state.2.count
  · rw [secStorageFileCreate, count, if_pos full, if_pos full]
    exact hold
  · rw [secStorageFileCreate, count, if_neg full, if_neg full]
    refine ⟨rfl, Nat.lt_of_not_le full, ?_, ?_⟩
    · intro fileId beyond
      change state.2.count + 1 ≤ fileId at beyond
      change Function.update state.2.contents state.2.count (some []) fileId = none
      rw [Function.update_of_ne (by omega)]
      exact hold.unused fileId (by omega)
    · intro fileId used
      change fileId < state.2.count + 1 at used
      change EntryHolds _ fileId
        (Function.update state.2.contents state.2.count (some []) fileId)
      by_cases new : fileId = state.2.count
      · subst new
        rw [Function.update_self]
        simp [EntryHolds, SecureStorage.putFile, Memory.bytes, SecureStorage.fileCrypt,
          secXorCrypt]
      · rw [Function.update_of_ne new]
        apply (hold.entries fileId (by omega)).congr
        · exact Function.update_of_ne new ..
        · rfl
        · exact fun _ _ _ _ => rfl

end Changes

section Runs

variable {state : FileSystem} {call : FileCall}

theorem FilesHold.step (hold : FilesHold state) (fits : FileCallFits state call) :
    FilesHold (fileSystemStep state call) := by
  cases call with
  | create name => exact hold.create name
  | read => exact hold
  | write fileId data =>
      by_cases negative : fileId < 0
      · have noFile : ¬state.1.HasFile fileId ∧ ¬state.2.HasFile fileId :=
          ⟨fun file => by have := file.1; omega, fun file => by have := file.1; omega⟩
        simpa [fileSystemStep, fileStoreStep, fileMapStep, secStorageFileWrite, noFile] using hold
      · obtain ⟨index, rfl⟩ := Int.eq_ofNat_of_zero_le (Int.not_lt.mp negative)
        apply hold.write
        intro file
        rcases fits file with early | ⟨last, empty⟩
        · exact .inl (by omega)
        · exact .inr ⟨by omega, empty⟩
  | delete fileId =>
      by_cases negative : fileId < 0
      · have noFile : ¬state.1.HasFile fileId ∧ ¬state.2.HasFile fileId :=
          ⟨fun file => by have := file.1; omega, fun file => by have := file.1; omega⟩
        simpa [fileSystemStep, fileStoreStep, fileMapStep, secStorageFileDelete, noFile] using hold
      · obtain ⟨index, rfl⟩ := Int.eq_ofNat_of_zero_le (Int.not_lt.mp negative)
        exact hold.delete

/-- A file in the map that a call names, with its place in the flash. -/
theorem FilesHold.place {fileId : Int} (hold : FilesHold state) (inUse : state.1.HasFile fileId) :
    state.2.HasFile fileId ∧
        (state.1.files fileId.toNat).offset = (fileId.toNat + 1) * 512 ∧
        (state.1.files fileId.toNat).capacity = 64 ∨
      ¬state.2.HasFile fileId ∧ (state.1.files fileId.toNat).offset = 0 ∧
        (state.1.files fileId.toNat).capacity = 0 := by
  obtain ⟨index, rfl⟩ := Int.eq_ofNat_of_zero_le inUse.1
  rcases (hold.entry inUse).place with ⟨inMap, place⟩ | ⟨deleted, place⟩
  · exact .inl ⟨⟨inUse.1, inMap⟩, place⟩
  · refine .inr ⟨fun file => ?_, place⟩
    have inMap := file.2
    rw [Int.toNat_natCast, deleted] at inMap
    contradiction

/-- A read touches the bytes that the file has. -/
theorem FilesHold.touchesFlash_read (hold : FilesHold state) (fileId : Int) (maxLen : Nat) :
    TouchesFlash state (.read fileId maxLen) := by
  have flash : secFlashPartSize = 8192 := rfl
  have block : secFsBlockSize = 64 := rfl
  intro index lower upper
  by_cases inUse : state.1.HasFile fileId
  · simp only [touched, if_pos inUse] at lower upper
    obtain ⟨number, rfl⟩ := Int.eq_ofNat_of_zero_le inUse.1
    simp only [Int.toNat_natCast] at lower upper
    have holds := hold.entry inUse
    have place := holds.place
    cases contents : state.2.contents number with
    | none =>
        rw [contents] at holds
        obtain ⟨_, _, size⟩ := holds
        have nothing : (state.1.files number).readLength maxLen = 0 := by
          rw [SecFileEntry.readLength, size, if_pos (by decide)]
          omega
        rw [nothing] at upper
        change index < (state.1.files number).offset + 0 at upper
        omega
    | some data =>
        rw [contents] at holds place
        obtain ⟨_, _, size, small, inside, _⟩ := holds
        have length : (state.1.files number).readLength maxLen =
            (min data.length maxLen : Nat) := by
          rw [SecFileEntry.readLength, size, if_pos (by omega)]
          omega
        rw [length, sizeT_natCast (by omega)] at upper
        rcases place with ⟨_, offset, _⟩ | ⟨impossible, _⟩
        · rcases inside with early | rfl
          · omega
          · simp only [List.length_nil] at upper
            omega
        · contradiction
  · simp only [touched, if_neg inUse] at lower upper
    omega

theorem FilesHold.touchesFlash (hold : FilesHold state) (fits : FileCallFits state call) :
    TouchesFlash state call := by
  have flash : secFlashPartSize = 8192 := rfl
  cases call with
  | create name =>
      intro index _ upper
      simp only [touched] at upper
      omega
  | read fileId maxLen => exact hold.touchesFlash_read fileId maxLen
  | write fileId data =>
      intro index lower upper
      by_cases inUse : state.1.HasFile fileId
      · simp only [touched, if_pos inUse] at lower upper
        have room : (state.1.files fileId.toNat).offset +
            min data.length (state.1.files fileId.toNat).capacity ≤ secFlashPartSize := by
          rcases hold.place inUse with ⟨file, offset, capacity⟩ | ⟨_, offset, capacity⟩
          · rw [offset, capacity]
            rcases fits file with early | ⟨last, rfl⟩
            · omega
            · simp only [List.length_nil]
              omega
          · rw [offset, capacity]
            omega
        rw [writeLength_inside room, sizeT_natCast (by omega)] at upper
        omega
      · simp only [touched, if_neg inUse] at upper
        omega
  | delete fileId =>
      intro index lower upper
      by_cases inUse : state.1.HasFile fileId
      · simp only [touched, if_pos inUse] at lower upper
        rcases hold.place inUse with ⟨file, offset, capacity⟩ | ⟨_, offset, capacity⟩
        · have early : fileId ≤ 14 := fits file
          omega
        · omega
      · simp only [touched, if_neg inUse] at upper
        omega

/-- The length of a write to a file of one block. -/
theorem writeLength_block {entry : SecFileEntry} {len : Nat} (capacity : entry.capacity = 64) :
    entry.writeLength len =
      if 8192 < entry.offset + min len 64 then 8192 - (entry.offset : Int)
      else (min len 64 : Nat) := by
  have shorter : (if len < 64 then len else 64) = min len 64 := by
    split <;> omega
  rw [SecFileEntry.writeLength, capacity, shorter]
  rfl

/-- A file at the end of the flash stays empty. -/
theorem read_write_at_end {ss : SecureStorage} {fileId : Nat} {data : Bytes} {maxLen : Nat}
    (inUse : ss.HasFile fileId) (capacity : (ss.files fileId).capacity = 64)
    (offset : (ss.files fileId).offset = 8192) :
    secStorageFileRead (secStorageFileWrite ss fileId data) fileId maxLen = [] := by
  have nothing : (ss.files fileId).writeLength data.length = 0 := by
    rw [writeLength_block capacity, offset]
    split <;> omega
  have size : ((secStorageFileWrite ss fileId data).files fileId).fileSize = 0 := by
    rw [secStorageFileWrite, if_neg (not_not.mpr inUse), Int.toNat_natCast]
    simp [SecureStorage.putFile, nothing]
  have length : (((secStorageFileWrite ss fileId data).files fileId).readLength maxLen).toNat =
      0 := by
    rw [SecFileEntry.readLength, size, if_pos (by decide)]
    omega
  unfold secStorageFileRead
  split_ifs
  · rw [← List.length_eq_zero_iff, Int.toNat_natCast]
    dsimp only
    rw [length_fileCrypt, Memory.length_bytes, length]
  · rfl

/-- What goes wrong with a file behind the fifteenth: the sixteenth stays empty,
and for the later ones the length is negative. -/
theorem FilesHold.fits_of_write {fileId : Int} {data : Bytes} (hold : FilesHold state)
    (touches : TouchesFlash state (.write fileId data))
    (reads : ReadsContents (fileSystemStep state (.write fileId data))) :
    FileCallFits state (.write fileId data) := by
  have flash : secFlashPartSize = 8192 := rfl
  intro file
  have inUse := hold.hasFile file
  rcases hold.place inUse with ⟨_, offset, capacity⟩ | ⟨noFile, _⟩
  · by_contra late
    have last : fileId = 15 ∨ 16 ≤ fileId := by omega
    rcases last with rfl | later
    · have written : (fileSystemStep state (.write 15 data)).2.contents 15 =
          some (data.take secFsBlockSize) := by
        simp [fileSystemStep, fileMapStep, file, FileMap.put]
      have nothing : data.take secFsBlockSize = [] := by
        have read := reads 15 _ written secFsBlockSize
        rw [List.take_take, Nat.min_self] at read
        rw [← read]
        exact read_write_at_end inUse capacity offset
      have empty : data = [] := by
        rcases List.take_eq_nil_iff.mp nothing with impossible | empty
        · contradiction
        · exact empty
      exact late (.inr ⟨rfl, empty⟩)
    · have few : fileId.toNat < 32 := by
        have bounded := hold.bounded
        have upper := inUse.2
        rw [hold.count] at upper
        unfold secFsMaxFiles at bounded
        omega
      have size : sizeT ((state.1.files fileId.toNat).writeLength data.length) ≠ 0 := by
        rw [writeLength_block capacity, if_pos (by omega), offset, sizeT]
        omega
      have inside := touches ((fileId.toNat + 1) * 512)
      simp only [touched, if_pos inUse, offset] at inside
      have below := inside le_rfl (by omega)
      omega
  · exact absurd file noFile

theorem FilesHold.fits_of_delete {fileId : Int} (hold : FilesHold state)
    (touches : TouchesFlash state (.delete fileId)) :
    FileCallFits state (.delete fileId) := by
  have flash : secFlashPartSize = 8192 := rfl
  intro file
  have inUse := hold.hasFile file
  rcases hold.place inUse with ⟨_, offset, capacity⟩ | ⟨noFile, _⟩
  · have inside := touches ((fileId.toNat + 1) * 512)
    simp only [touched, if_pos inUse, offset, capacity] at inside
    have below := inside le_rfl (by omega)
    omega
  · exact absurd file noFile

theorem FilesHold.step_iff (hold : FilesHold state) :
    (ReadsContents (fileSystemStep state call) ∧ TouchesFlash state call) ↔
      FileCallFits state call := by
  constructor
  · rintro ⟨reads, touches⟩
    cases call with
    | create => trivial
    | read => trivial
    | write fileId data => exact hold.fits_of_write touches reads
    | delete fileId => exact hold.fits_of_delete touches
  · intro fits
    exact ⟨(hold.step fits).readsContents, hold.touchesFlash fits⟩

end Runs

theorem filesHold_format (ss : SecureStorage) :
    FilesHold (secStorageFormatFs ss, FileMap.empty) where
  count := rfl
  bounded := Nat.zero_le _
  unused := fun _ _ => rfl
  entries := by
    intro fileId used
    exact absurd used (Nat.not_lt_zero fileId)

/-- From a formatted file system every read gives the contents of the map, and
every access stays in the flash, exactly when no call writes or deletes a file
behind the fifteenth. -/
theorem file_store_refines_iff (ss : SecureStorage) (calls : List FileCall) :
    (Always fileSystemStep ReadsContents (secStorageFormatFs ss, FileMap.empty) calls ∧
      Throughout fileSystemStep TouchesFlash (secStorageFormatFs ss, FileMap.empty) calls) ↔
    Throughout fileSystemStep FileCallFits (secStorageFormatFs ss, FileMap.empty) calls := by
  have hold := filesHold_format ss
  have kept : ∀ (state : FileSystem) (call : FileCall), FilesHold state →
      ReadsContents (fileSystemStep state call) ∧ TouchesFlash state call →
      FileCallFits state call → FilesHold (fileSystemStep state call) :=
    fun state call hold _ fits => hold.step fits
  rw [← throughout_iff kept (fun state call => FilesHold.step_iff) hold, throughout_and_iff,
    always_iff_throughout_next]
  constructor
  · rintro ⟨⟨_, reads⟩, touches⟩
    exact ⟨reads, touches⟩
  · rintro ⟨reads, touches⟩
    exact ⟨⟨hold.readsContents, reads⟩, touches⟩

/-- Sixteen files, of which the last one is written. -/
def sixteenFiles : List FileCall :=
  List.replicate 16 (.create []) ++ [.write 15 [0x60]]

theorem sixteenth_file_lost :
    ¬∀ (ss : SecureStorage) (calls : List FileCall),
      Always fileSystemStep ReadsContents (secStorageFormatFs ss, FileMap.empty) calls ∧
        Throughout fileSystemStep TouchesFlash (secStorageFormatFs ss, FileMap.empty) calls := by
  intro refines
  have reads := (refines (secStorageInit (.replicate _ 0)) sixteenFiles).1.last 15 [0x60] rfl 1
  have empty : secStorageFileRead (after fileSystemStep
      (secStorageFormatFs (secStorageInit (.replicate _ 0)), FileMap.empty) sixteenFiles).1 15 1 =
        [] := by decide +kernel
  exact absurd (empty.symm.trans reads) (by decide)

end Edge

end MiniIotRobotEdge

import MiniIotRobotEdge.EdgeSecureBoot

/-!
# What the hash of a boot image covers

The bytes that `secure_boot_verify_image` hashes, and the bytes it touches.
The header has 104 bytes, of which the first 64 are hashed: the expected hash
is among them, the flags and the rollback counter are not.
-/

namespace MiniIotRobotEdge

namespace Edge

open PackedBytes

def imageMaxSize : Nat := 262144

def imageHeaderSize : Nat := 64

/-- An image with all of its header.  The signature is read by no call. -/
structure WholeImage extends SignedImage where
  flags : UInt32
  reserved : Vector UInt8 12
  payload_length : payload.length = imageMaxSize

namespace WholeImage

/-- The header as it stands in memory. -/
def header (img : WholeImage) : Bytes :=
  img.magic.toList ++ littleEndian 4 img.version.toNat ++ littleEndian 4 img.imageSize.toNat ++
    littleEndian 4 img.loadAddr.toNat ++ littleEndian 4 img.entryPoint.toNat ++
    img.imageHash.toList ++ img.pubkeyHash.toList ++ littleEndian 4 img.flags.toNat ++
    littleEndian 4 img.rollbackCtr.toNat ++ img.reserved.toList

/-- The bytes of the payload that are copied into `verify_data`. -/
def copied (img : WholeImage) : Nat :=
  if img.imageSize.toNat < imageMaxSize then img.imageSize.toNat else imageMaxSize

/-- What `verify_data` holds after both copies. -/
def verifyData (img : WholeImage) : Bytes :=
  img.header.take imageHeaderSize ++ img.payload.take img.copied

/-- `IMAGE_HEADER_SIZE + image_size` as the `int` that it becomes. -/
def hashLength (img : WholeImage) : Int := Int.bmod (64 + img.imageSize.toNat) (2 ^ 32)

/-- The image with another expected hash. -/
def expecting (img : WholeImage) (expected : Vector UInt8 32) : WholeImage :=
  { img with imageHash := expected }

/-- The image with other flags and reserved bytes. -/
def relabelled (img : WholeImage) (flags : UInt32) (reserved : Vector UInt8 12) : WholeImage :=
  { img with flags := flags, reserved := reserved }

def Marked (img : WholeImage) : Prop := img.magic.toList = [0x53, 0x42, 0x4F, 0x54]

instance (img : WholeImage) : Decidable img.Marked := inferInstanceAs (Decidable (_ = _))

theorem length_header (img : WholeImage) : img.header.length = 104 := by
  simp [header]

theorem headerBytes_eq (img : WholeImage) :
    img.toSignedImage.headerBytes = img.header.take imageHeaderSize := by
  simp [header, SignedImage.headerBytes, imageHeaderSize, List.take_append, List.take_of_length_le]

theorem copied_eq (img : WholeImage) (small : img.imageSize.toNat ≤ imageMaxSize) :
    img.copied = img.imageSize.toNat := by
  rw [copied]
  split_ifs <;> omega

theorem length_verifyData (img : WholeImage) (small : img.imageSize.toNat ≤ imageMaxSize) :
    img.verifyData.length = 64 + img.imageSize.toNat := by
  have header := img.length_header
  have payload := img.payload_length
  rw [verifyData, List.length_append, List.length_take, List.length_take, header, payload,
    img.copied_eq small, imageHeaderSize]
  omega

/-- The hash compared in the verification is that of `verify_data`. -/
theorem digest_eq (img : WholeImage) (small : img.imageSize.toNat ≤ imageMaxSize) :
    img.toSignedImage.digest = bootHash256 img.verifyData := by
  have length := img.length_verifyData small
  have header : img.toSignedImage.headerBytes.length = 64 := by
    rw [headerBytes_eq, List.length_take, img.length_header]
    rfl
  have bound : imageMaxSize = 262144 := rfl
  rw [SignedImage.digest, if_neg (by omega), Nat.mod_eq_of_lt (by omega), List.take_append,
    List.take_of_length_le (by omega), header, Nat.add_sub_cancel_left, headerBytes_eq, verifyData,
    img.copied_eq small]

end WholeImage

/-- What two images share when the same bytes are hashed. -/
structure SameCovered (img other : WholeImage) : Prop where
  magic : img.magic = other.magic
  version : img.version = other.version
  imageSize : img.imageSize = other.imageSize
  loadAddr : img.loadAddr = other.loadAddr
  entryPoint : img.entryPoint = other.entryPoint
  imageHash : img.imageHash = other.imageHash
  pubkeyHash : img.pubkeyHash.toList.take 12 = other.pubkeyHash.toList.take 12
  payload : img.payload.take img.imageSize.toNat = other.payload.take img.imageSize.toNat

/-- The images agree in everything but the expected hash. -/
structure SameButHash (img other : WholeImage) : Prop where
  magic : img.magic = other.magic
  version : img.version = other.version
  imageSize : img.imageSize = other.imageSize
  loadAddr : img.loadAddr = other.loadAddr
  entryPoint : img.entryPoint = other.entryPoint
  pubkeyHash : img.pubkeyHash = other.pubkeyHash
  flags : img.flags = other.flags
  rollbackCtr : img.rollbackCtr = other.rollbackCtr
  reserved : img.reserved = other.reserved
  payload : img.payload.take img.imageSize.toNat = other.payload.take img.imageSize.toNat

theorem littleEndian_word_injective {first second : UInt32}
    (equal : littleEndian 4 first.toNat = littleEndian 4 second.toNat) : first = second :=
  UInt32.toNat_inj.mp (littleEndian_injective first.toNat_lt second.toNat_lt equal)

/-- Exactly the fields of the first 64 bytes and the payload are covered. -/
theorem verifyData_eq_iff {img other : WholeImage} (small : img.imageSize.toNat ≤ imageMaxSize)
    (otherSmall : other.imageSize.toNat ≤ imageMaxSize) :
    img.verifyData = other.verifyData ↔ SameCovered img other := by
  rw [WholeImage.verifyData, WholeImage.verifyData, img.copied_eq small,
    other.copied_eq otherSmall, ← img.headerBytes_eq, ← other.headerBytes_eq]
  constructor
  · intro equal
    obtain ⟨header, payload⟩ := List.append_inj equal (by simp [SignedImage.headerBytes])
    obtain ⟨header, pubkeyHash⟩ := List.append_inj' header (by simp)
    obtain ⟨header, imageHash⟩ := List.append_inj' header (by simp)
    obtain ⟨header, entryPoint⟩ := List.append_inj' header (by simp)
    obtain ⟨header, loadAddr⟩ := List.append_inj' header (by simp)
    obtain ⟨header, imageSize⟩ := List.append_inj' header (by simp)
    obtain ⟨magic, version⟩ := List.append_inj' header (by simp)
    have size := littleEndian_word_injective imageSize
    exact {
      magic := Vector.toList_inj.mp magic
      version := littleEndian_word_injective version
      imageSize := size
      loadAddr := littleEndian_word_injective loadAddr
      entryPoint := littleEndian_word_injective entryPoint
      imageHash := Vector.toList_inj.mp imageHash
      pubkeyHash := pubkeyHash
      payload := by rw [payload, size] }
  · intro same
    rw [SignedImage.headerBytes, SignedImage.headerBytes, same.magic, same.version, same.loadAddr,
      same.entryPoint, same.imageHash, same.pubkeyHash, same.payload, same.imageSize]

section Verification

variable (behind : SecureBootCtx → UInt32) (ctx : SecureBootCtx) (img : WholeImage)

/-- The byte string that `secure_boot_verify_image` hashes, if it comes to that. -/
def hashedBytes : Option Bytes :=
  if ¬img.Marked then none
  else if secureBootCheckRollback ctx behind img.rollbackCtr = false then none
  else some img.verifyData

/-- The verification compares the hash of `hashedBytes`. -/
theorem verifyImage_of_hashed {bytes : Bytes} (small : img.imageSize.toNat ≤ imageMaxSize)
    (hashed : hashedBytes behind ctx img = some bytes) :
    secureBootVerifyImage behind ctx img.toSignedImage =
      if (bootHash256 bytes).take 16 ≠ img.imageHash.toList.take 16 then ctx.failed .errSig
      else (ctx, .ok) := by
  rw [hashedBytes] at hashed
  split_ifs at hashed with marked rollback
  have magic : img.magic.toList = [0x53, 0x42, 0x4F, 0x54] := marked
  have same : img.verifyData = bytes := Option.some.inj hashed
  rw [secureBootVerifyImage, if_neg (not_not.mpr magic), if_neg rollback, img.digest_eq small, same]

/-- One byte, or one entry of the array of least versions, that a call touches. -/
inductive BootAccess
  | header (offset : Nat)
  | payload (offset : Nat)
  | verifyData (offset : Nat)
  | minVersion (index : Nat)
  deriving DecidableEq, Repr

def BootAccess.Inside : BootAccess → Prop
  | header offset => offset < 104
  | payload offset => offset < imageMaxSize
  | verifyData offset => offset < imageHeaderSize + imageMaxSize
  | minVersion index => index < 4

/-- The offsets that `boot_hash256` reads of its data: whole words only. -/
def bootHashReads (len : Int) : List Nat :=
  if len < 0 then []
  else (List.range (len.toNat / 64 + 1)).flatMap fun chunk =>
    (List.range (min 64 (len.toNat - 64 * chunk) / 4)).flatMap fun word =>
      [64 * chunk + 4 * word, 64 * chunk + 4 * word + 1, 64 * chunk + 4 * word + 2,
        64 * chunk + 4 * word + 3]

/-- The bytes of the magic up to the first that is wrong. -/
def magicReads : List BootAccess :=
  ((List.range 4).filter fun index =>
    img.magic.toList.take index = [0x53, 0x42, 0x4F, 0x54].take index).map BootAccess.header

/-- What the call touches once the checks are passed. -/
def hashAccesses : List BootAccess :=
  (List.range imageHeaderSize).flatMap (fun offset => [.header offset, .verifyData offset]) ++
    (List.range 4).map (fun index => .header (8 + index)) ++
    (List.range img.copied).flatMap (fun offset =>
      [.payload offset, .verifyData (imageHeaderSize + offset)]) ++
    (bootHashReads img.hashLength).map .verifyData ++
    (List.range 32).map fun index => .header (20 + index)

/-- Everything that `secure_boot_verify_image` touches. -/
def bootAccesses : List BootAccess :=
  magicReads img ++
    if ¬img.Marked then []
    else (List.range 4).map (fun index => .header (88 + index)) ++
      [.minVersion ctx.currentStage.index] ++
      if secureBootCheckRollback ctx behind img.rollbackCtr = false then [] else hashAccesses img

/-- The hash is over the whole image and over nothing else: it is independent
of the expected hash, it determines the rest, and no access is outside. -/
structure CoversImage : Prop where
  independent : img.imageSize.toNat ≤ imageMaxSize → ∀ expected : Vector UInt8 32,
    hashedBytes behind ctx (img.expecting expected) = hashedBytes behind ctx img
  complete : img.imageSize.toNat ≤ imageMaxSize → ∀ other : WholeImage,
    other.imageSize.toNat ≤ imageMaxSize → ∀ bytes, hashedBytes behind ctx img = some bytes →
      hashedBytes behind ctx other = some bytes → SameButHash img other
  inside : ∀ access ∈ bootAccesses behind ctx img, access.Inside

/-- The call returns before it hashes, without having looked behind the least
versions; or the size is too large for the image, yet is not by a whole word, or
makes the length wrap. -/
def CoverageUntested : Prop :=
  ¬img.Marked ∨ ctx.currentStage ≠ .app ∧
    (secureBootCheckRollback ctx behind img.rollbackCtr = false ∨
      imageMaxSize < img.imageSize.toNat ∧
        (img.imageSize.toNat < imageMaxSize + 4 ∨ 2 ^ 31 - 64 ≤ img.imageSize.toNat))

end Verification

/-- The hash reads the whole words of its data. -/
theorem mem_bootHashReads {len : Int} {offset : Nat} :
    offset ∈ bootHashReads len ↔ 0 ≤ len ∧ offset < 4 * (len.toNat / 4) := by
  rw [bootHashReads]
  split_ifs with negative
  · simp
    omega
  · simp only [List.mem_flatMap, List.mem_range, List.mem_cons, List.not_mem_nil, or_false]
    constructor
    · rintro ⟨chunk, _, word, inChunk, here⟩
      omega
    · rintro ⟨_, inside⟩
      exact ⟨offset / 64, by omega, offset % 64 / 4, by omega, by omega⟩

section Results

variable {behind : SecureBootCtx → UInt32} {ctx : SecureBootCtx} {img : WholeImage}

/-- The hash reads inside its buffer unless the length is too large by a word. -/
theorem bootHashReads_inside_iff :
    (∀ offset ∈ bootHashReads img.hashLength, offset < imageHeaderSize + imageMaxSize) ↔
      img.imageSize.toNat < imageMaxSize + 4 ∨ 2 ^ 31 - 64 ≤ img.imageSize.toNat := by
  have bound := img.imageSize.toNat_lt
  have length : img.hashLength = Int.bmod (64 + img.imageSize.toNat) (2 ^ 32) := rfl
  have header : imageHeaderSize = 64 := rfl
  have payload : imageMaxSize = 262144 := rfl
  rw [Int.bmod] at length
  simp only [mem_bootHashReads]
  constructor
  · intro inside
    by_contra outside
    have last := inside (imageHeaderSize + imageMaxSize)
    omega
  · intro size offset ⟨nonneg, below⟩
    omega

theorem hashAccesses_inside_iff :
    (∀ access ∈ hashAccesses img, access.Inside) ↔
      img.imageSize.toNat < imageMaxSize + 4 ∨ 2 ^ 31 - 64 ≤ img.imageSize.toNat := by
  have copied : img.copied ≤ imageMaxSize := by
    rw [WholeImage.copied]
    split_ifs <;> omega
  rw [← bootHashReads_inside_iff]
  constructor
  · intro inside offset read
    refine inside (.verifyData offset) ?_
    simp only [hashAccesses, List.mem_append, List.mem_map]
    exact .inl (.inr ⟨offset, read, rfl⟩)
  · intro reads access touched
    simp only [hashAccesses, List.mem_append, List.mem_flatMap, List.mem_map, List.mem_range,
      List.mem_cons, List.not_mem_nil, or_false] at touched
    rcases touched with (((⟨offset, below, rfl | rfl⟩ | ⟨index, below, rfl⟩) |
      ⟨offset, below, rfl | rfl⟩) | ⟨offset, read, rfl⟩) | ⟨index, below, rfl⟩
    · exact Nat.lt_trans below (by decide)
    · exact Nat.lt_of_lt_of_le below (Nat.le_add_right _ _)
    · change 8 + index < 104
      omega
    · exact Nat.lt_of_lt_of_le below copied
    · exact Nat.add_lt_add_left (Nat.lt_of_lt_of_le below copied) _
    · exact reads offset read
    · change 20 + index < 104
      omega

/-- The accesses are inside exactly when the stage has a least version and the
hash, where it is reached, reads inside its buffer. -/
theorem bootAccesses_inside_iff :
    (∀ access ∈ bootAccesses behind ctx img, access.Inside) ↔
      ¬img.Marked ∨ ctx.currentStage ≠ .app ∧
        (secureBootCheckRollback ctx behind img.rollbackCtr = false ∨
          img.imageSize.toNat < imageMaxSize + 4 ∨ 2 ^ 31 - 64 ≤ img.imageSize.toNat) := by
  have magic : ∀ access ∈ magicReads img, access.Inside := by
    intro access touched
    simp only [magicReads, List.mem_map, List.mem_filter, List.mem_range] at touched
    obtain ⟨index, ⟨below, _⟩, rfl⟩ := touched
    exact Nat.lt_trans below (by decide)
  have counter : ∀ access ∈ (List.range 4).map (fun index => BootAccess.header (88 + index)),
      access.Inside := by
    intro access touched
    simp only [List.mem_map, List.mem_range] at touched
    obtain ⟨index, below, rfl⟩ := touched
    change 88 + index < 104
    omega
  have stage : (BootAccess.minVersion ctx.currentStage.index).Inside ↔ ctx.currentStage ≠ .app := by
    cases ctx.currentStage <;> simp [BootStage.index, BootAccess.Inside]
  rw [bootAccesses, List.forall_mem_append, and_iff_right magic]
  by_cases marked : img.Marked
  · rw [if_neg (not_not.mpr marked), List.forall_mem_append, List.forall_mem_append,
      and_iff_right counter, List.forall_mem_singleton, stage, or_iff_right (not_not.mpr marked)]
    refine and_congr_right fun _ => ?_
    split_ifs with refused
    · simp [refused]
    · rw [hashAccesses_inside_iff, or_iff_right refused]
  · simp [marked]

theorem hashedBytes_of_passed (marked : img.Marked)
    (passed : secureBootCheckRollback ctx behind img.rollbackCtr ≠ false) :
    hashedBytes behind ctx img = some img.verifyData := by
  rw [hashedBytes, if_neg (not_not.mpr marked), if_neg passed]

theorem hashedBytes_eq_none
    (returned : ¬img.Marked ∨ secureBootCheckRollback ctx behind img.rollbackCtr = false) :
    hashedBytes behind ctx img = none := by
  rcases returned with unmarked | refused
  · rw [hashedBytes, if_pos unmarked]
  · rw [hashedBytes, if_pos refused, ite_self]

theorem exists_other_hash (hash : Vector UInt8 32) : ∃ expected, expected ≠ hash := by
  refine ⟨.replicate 32 (hash[0] + 1), fun same => ?_⟩
  have first := congrArg (fun bytes => bytes[0]) same
  simp at first

/-- Another expected hash makes the hashed bytes others. -/
theorem hashedBytes_ne_of_imageHash (small : img.imageSize.toNat ≤ imageMaxSize)
    (marked : img.Marked) (passed : secureBootCheckRollback ctx behind img.rollbackCtr ≠ false)
    {expected : Vector UInt8 32} (other : expected ≠ img.imageHash) :
    hashedBytes behind ctx (img.expecting expected) ≠ hashedBytes behind ctx img := by
  have hashed : hashedBytes behind ctx (img.expecting expected) =
      some (img.expecting expected).verifyData := hashedBytes_of_passed marked passed
  rw [hashed, hashedBytes_of_passed marked passed]
  intro equal
  have expectingSmall : (img.expecting expected).imageSize.toNat ≤ imageMaxSize := small
  exact other ((verifyData_eq_iff expectingSmall small).mp (Option.some.inj equal)).imageHash

/-- The flags and the reserved bytes are not hashed. -/
theorem hashedBytes_relabelled (flags : UInt32) (reserved : Vector UInt8 12) :
    hashedBytes behind ctx (img.relabelled flags reserved) = hashedBytes behind ctx img := by
  have header : (img.relabelled flags reserved).header.take imageHeaderSize =
      img.header.take imageHeaderSize := by
    rw [← WholeImage.headerBytes_eq, ← WholeImage.headerBytes_eq]
    rfl
  have data : (img.relabelled flags reserved).verifyData = img.verifyData := by
    rw [WholeImage.verifyData, header]
    rfl
  rw [hashedBytes, data]
  rfl

/-- Where no byte is hashed nothing is left to cover. -/
theorem coversImage_of_returned
    (returned : ¬img.Marked ∨ secureBootCheckRollback ctx behind img.rollbackCtr = false)
    (inside : ∀ access ∈ bootAccesses behind ctx img, access.Inside) :
    CoversImage behind ctx img where
  independent := by
    intro _ expected
    have changed : hashedBytes behind ctx (img.expecting expected) = none :=
      hashedBytes_eq_none returned
    rw [changed, hashedBytes_eq_none returned]
  complete := by
    intro _ other _ bytes hashed
    rw [hashedBytes_eq_none returned] at hashed
    contradiction
  inside := inside

end Results

/-- The verification covers the image in no call that hashes an image of a
permitted size. -/
theorem secure_boot_covers_iff (behind : SecureBootCtx → UInt32) (ctx : SecureBootCtx)
    (img : WholeImage) : CoversImage behind ctx img ↔ CoverageUntested behind ctx img := by
  rw [CoverageUntested]
  constructor
  · intro covers
    obtain unmarked | ⟨stage, size⟩ := bootAccesses_inside_iff.mp covers.inside
    · exact .inl unmarked
    · by_cases marked : img.Marked
      · refine .inr ⟨stage, or_iff_not_imp_left.mpr fun passed => ?_⟩
        refine ⟨?_, size.resolve_left passed⟩
        by_contra small
        obtain ⟨expected, other⟩ := exists_other_hash img.imageHash
        exact hashedBytes_ne_of_imageHash (by omega) marked passed other
          (covers.independent (by omega) expected)
      · exact .inl marked
  · intro untested
    have inside : ∀ access ∈ bootAccesses behind ctx img, access.Inside :=
      bootAccesses_inside_iff.mpr
        (untested.imp_right fun ⟨stage, size⟩ => ⟨stage, size.imp_right And.right⟩)
    obtain unmarked | ⟨_, refused | ⟨large, _⟩⟩ := untested
    · exact coversImage_of_returned (.inl unmarked) inside
    · exact coversImage_of_returned (.inr refused) inside
    · exact ⟨fun small => by omega, fun small => by omega, inside⟩

/-- An empty image that a fresh context hashes. -/
def blankImage : WholeImage where
  magic := #v[0x53, 0x42, 0x4F, 0x54]
  version := 1
  imageSize := 0
  loadAddr := 0
  entryPoint := 0
  imageHash := .replicate 32 0
  pubkeyHash := .replicate 32 0
  rollbackCtr := 1
  payload := .replicate imageMaxSize 0
  flags := 0
  reserved := .replicate 12 0
  payload_length := List.length_replicate

/-- Two images that differ in their flags have the same bytes hashed. -/
theorem flags_not_covered :
    ¬∀ (behind : SecureBootCtx → UInt32) (ctx : SecureBootCtx) (img : WholeImage),
      CoversImage behind ctx img := by
  intro covers
  have hashed : hashedBytes (fun _ => 0) secureBootInit blankImage = some blankImage.verifyData :=
    hashedBytes_of_passed (by decide) (by decide)
  have flagged := (hashedBytes_relabelled 1 (.replicate 12 0)).trans hashed
  have same := (covers (fun _ => 0) secureBootInit blankImage).complete (Nat.zero_le _)
    (blankImage.relabelled 1 (.replicate 12 0)) (Nat.zero_le _) _ hashed flagged
  exact absurd same.flags (by decide)

end Edge

end MiniIotRobotEdge

import MiniIotRobotEdge.EdgeCrypto
import MiniIotRobotEdge.EdgeOta

/-!
# The signature of a manifest

A manifest is signed over its version, size, hash and device.  The signature
determines these four fields, but the checks before an update do not read it:
they accept any manifest that fits the device.
-/

namespace MiniIotRobotEdge

namespace Edge

open PackedBytes

/-- A manifest with its `signature`, of `OTA_SIG_SIZE` bytes; the two numbers are words. -/
structure SignedManifest extends OtaManifest where
  signature : Vector UInt8 64
  versionBound : fwVersion < 2 ^ 32
  sizeBound : fwSize < 2 ^ 32

def edgeOtaManifestInit (version size : UInt32) : SignedManifest where
  fwVersion := version.toNat
  fwSize := size.toNat
  fwHash := .replicate 32 0
  deviceId := .replicate 16 0
  minBootloaderVer := 1
  signature := .replicate 64 0
  versionBound := version.toNat_lt
  sizeBound := size.toNat_lt

def edgeOtaManifestSetHash (m : SignedManifest) (hash : FirmwareHash) : SignedManifest :=
  { m with fwHash := hash }

/-- The bytes of `sign_input`. -/
def OtaManifest.signInput (m : OtaManifest) : Bytes :=
  littleEndian 4 m.fwVersion ++ littleEndian 4 m.fwSize ++ m.fwHash.toList ++ m.deviceId.toList

def edgeOtaManifestSign (m : SignedManifest) (privKey : Vector UInt8 32) : SignedManifest :=
  { m with
    signature := .ofFn fun index =>
      if index < m.signInput.length then
        byteAt m.signInput index ^^^ byteAt privKey.toList (index % 32) ^^^
          UInt8.ofNat (0xA5 + index * 3)
      else m.signature[index] }

/-- `edge_ota_begin_update` of a signed manifest, whose signature is only stored. -/
def edgeOtaBeginSigned (ctx : OtaUpdateCtx) (m : SignedManifest) : OtaUpdateCtx × Bool :=
  edgeOtaBeginUpdate ctx m.toOtaManifest

/-- The four fields that are signed. -/
def OtaManifest.signedFields (m : OtaManifest) : Nat × Nat × FirmwareHash × DeviceId :=
  (m.fwVersion, m.fwSize, m.fwHash, m.deviceId)

/-- The manifest is one for this device and this moment, whoever made it. -/
structure ManifestFits (ctx : OtaUpdateCtx) (m : OtaManifest) : Prop where
  idle : ctx.updateState = .idle
  newer : ctx.currentVersion < m.fwVersion
  sized : 0 < m.fwSize ∧ m.fwSize ≤ otaMaxPayload
  addressed : m.deviceId = ctx.deviceId
  bootable : m.minBootloaderVer ≤ 1
  hashed : m.fwHash ≠ .replicate 32 0

section Coverage

variable {m other : SignedManifest} {privKey : Vector UInt8 32}

theorem length_signInput (m : OtaManifest) : m.signInput.length = 56 := by
  simp [OtaManifest.signInput]

/-- The signed bytes determine the signed fields. -/
theorem signedFields_of_signInput (equal : m.signInput = other.signInput) :
    m.signedFields = other.signedFields := by
  obtain ⟨prefixes, devices⟩ := List.append_inj equal (by simp)
  obtain ⟨numbers, hashes⟩ := List.append_inj prefixes (by simp)
  obtain ⟨versions, sizes⟩ := List.append_inj numbers (by simp)
  have version := littleEndian_injective m.versionBound other.versionBound versions
  have size := littleEndian_injective m.sizeBound other.sizeBound sizes
  unfold OtaManifest.signedFields
  rw [version, size, Vector.toList_inj.mp hashes, Vector.toList_inj.mp devices]

theorem signature_getElem (index : Nat) (inside : index < 56) :
    (edgeOtaManifestSign m privKey).signature[index] =
      byteAt m.signInput index ^^^ byteAt privKey.toList (index % 32) ^^^
        UInt8.ofNat (0xA5 + index * 3) := by
  simp only [edgeOtaManifestSign, Vector.getElem_ofFn, length_signInput]
  rw [if_pos inside]

/-- Two manifests with the same signature under the same key agree in the signed fields. -/
theorem signedFields_of_signature (equal : (edgeOtaManifestSign m privKey).signature =
      (edgeOtaManifestSign other privKey).signature) :
    m.signedFields = other.signedFields := by
  apply signedFields_of_signInput
  apply List.ext_getElem
  · rw [length_signInput, length_signInput]
  · intro index inside insideOther
    rw [length_signInput] at inside
    have bytes : (edgeOtaManifestSign m privKey).signature[index] =
        (edgeOtaManifestSign other privKey).signature[index] := by rw [equal]
    rw [signature_getElem index inside, signature_getElem index inside, UInt8.xor_left_inj,
      UInt8.xor_left_inj] at bytes
    simpa [byteAt, inside, length_signInput] using bytes

/-- A signature carried over to other fields is not the one that signing would give. -/
theorem forged_signature_invalid (carried : other.signature =
      (edgeOtaManifestSign m privKey).signature)
    (differs : other.signedFields ≠ m.signedFields) :
    other.signature ≠ (edgeOtaManifestSign other privKey).signature := by
  intro valid
  apply differs
  exact signedFields_of_signature (valid.symm.trans carried)

end Coverage

theorem edgeOtaManifestVerify_iff (ctx : OtaUpdateCtx) (m : OtaManifest)
    (idle : ctx.updateState = .idle) :
    edgeOtaManifestVerify ctx m = true ↔ ManifestFits ctx m := by
  constructor
  · intro verified
    unfold edgeOtaManifestVerify at verified
    split_ifs at verified with older unsized elsewhere unbootable unhashed
    exact ⟨idle, by omega, by omega, not_not.mp elsewhere, by omega, unhashed⟩
  · intro fits
    unfold edgeOtaManifestVerify
    rw [if_neg (by have := fits.newer; omega), if_neg (by have := fits.sized; omega),
      if_neg (not_not.mpr fits.addressed), if_neg (by have := fits.bootable; omega),
      if_neg fits.hashed]

theorem edgeOtaBeginUpdate_iff (ctx : OtaUpdateCtx) (m : OtaManifest) :
    (edgeOtaBeginUpdate ctx m).2 = true ↔ ManifestFits ctx m := by
  unfold edgeOtaBeginUpdate
  split_ifs with busy rejected
  · have unfit : ¬ManifestFits ctx m := fun fits => busy fits.idle
    simp [unfit]
  · simp [← edgeOtaManifestVerify_iff ctx m (not_not.mp busy), rejected]
  · simp [← edgeOtaManifestVerify_iff ctx m (not_not.mp busy), rejected]

/-- A manifest for the device of sixteen bytes 0x10. -/
def unsignedUpdate : SignedManifest :=
  { edgeOtaManifestSetHash (edgeOtaManifestInit 2 4096) (.replicate 32 0x80) with
    deviceId := .replicate 16 0x10 }

/-- The manifest for a larger version, with the signature of the first one. -/
def forgedUpdate : SignedManifest :=
  { edgeOtaManifestSign unsignedUpdate (.replicate 32 0) with
    fwVersion := 3, versionBound := by decide }

/-- A forged manifest is rejected exactly when it does not fit: the signature plays no part. -/
theorem forged_manifest_rejected_iff (ctx : OtaUpdateCtx) (privKey : Vector UInt8 32)
    (m forged : SignedManifest)
    (_carried : forged.signature = (edgeOtaManifestSign m privKey).signature)
    (_differs : forged.signedFields ≠ m.signedFields) :
    (edgeOtaBeginSigned ctx forged).2 = false ↔ ¬ManifestFits ctx forged.toOtaManifest := by
  rw [← Bool.not_eq_true, edgeOtaBeginSigned, edgeOtaBeginUpdate_iff]

theorem forged_manifest_rejected_iff_update :
    (edgeOtaBeginSigned (edgeOtaInit (List.replicate 16 0x10)) forgedUpdate).2 = false ↔
      ¬ManifestFits (edgeOtaInit (List.replicate 16 0x10)) forgedUpdate.toOtaManifest :=
  forged_manifest_rejected_iff (edgeOtaInit (List.replicate 16 0x10)) (.replicate 32 0)
    unsignedUpdate forgedUpdate rfl (by decide)

theorem forged_manifest_accepted :
    ¬∀ (ctx : OtaUpdateCtx) (privKey : Vector UInt8 32) (m forged : SignedManifest),
      forged.signature = (edgeOtaManifestSign m privKey).signature →
      forged.signedFields ≠ m.signedFields → (edgeOtaBeginSigned ctx forged).2 = false := by
  intro rejected
  have refused := rejected (edgeOtaInit (List.replicate 16 0x10)) (.replicate 32 0)
    unsignedUpdate forgedUpdate rfl (by decide)
  exact absurd refused (by decide)

end Edge

end MiniIotRobotEdge

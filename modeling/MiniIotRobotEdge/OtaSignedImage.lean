import MiniIotRobotEdge.ByteMemory
import MiniIotRobotEdge.Crc32
import MiniIotRobotEdge.Sha256

/-!
# Signed images of mini-ota-update

The model of the verification functions of `signed_image.c`.  An image is a
memory with a length.  `sig_img_header_validate` computes its checksum over
512 bytes although the header has only 310; `behind` is what the stack holds
behind the copy of the header.  `sig_img_sha256` never uses the data, and both
outcomes of the signature comparison are accepted, so that no part of the
payload and no signature influences the result.
-/

namespace MiniIotRobotEdge

namespace Ota

inductive SigImgResult
  | ok
  | errParam
  | errMagic
  | errVersion
  | errSignature
  | errHash
  | errRollback
  | errKey
  | errSize
  deriving DecidableEq, Repr

def signedImageMagic : Nat := 0x5349474E
def signedImageVersion : Nat := 1
def signedImageSigMax : Nat := 72
def signedImageHashSize : Nat := 32
def signedImageMaxImageSize : Nat := 32 * 1024 * 1024
def signedImageHeaderSize : Nat := 512

/-- `sizeof(signed_image_header_t)`; the structure is packed. -/
def signedImageHeaderBytes : Nat := 310

/-- The fields of `signed_image_header_t` that are verified. -/
structure SignedImageHeader where
  magic : Nat
  headerVersion : Nat
  headerSize : Nat
  imageSize : Nat
  imageOffset : Nat
  imageHash : List UInt8
  signature : List UInt8
  signatureLen : Nat
  signatureAlgo : Nat
  encryption : Nat
  keyId : Nat
  minCounterValue : Nat
  headerCrc : Nat
  deriving DecidableEq, Repr

/-- `sig_img_header_parse`. -/
def sigImgHeaderParse (image : Memory) : SignedImageHeader where
  magic := image.load 0 4
  headerVersion := image.load 4 2
  headerSize := image.load 6 2
  imageSize := image.load 8 4
  imageOffset := image.load 12 4
  imageHash := image.bytes 36 32
  signature := image.bytes 68 72
  signatureLen := image.load 140 2
  signatureAlgo := image.load 142 1
  encryption := image.load 143 1
  keyId := image.load 192 4
  minCounterValue := image.load 196 4
  headerCrc := image.load 306 4

def sigImgCrc32 (data : List UInt8) : Nat := (Crc32.crc32 data).toNat

/-- `header_buf` with the checksum field cleared. -/
def headerBuf (image behind : Memory) : List UInt8 :=
  image.bytes 0 306 ++ ([0, 0, 0, 0] ++ behind.bytes 0 202)

def sigImgHeaderValidate (image behind : Memory) : SigImgResult :=
  let header := sigImgHeaderParse image
  if header.magic ≠ signedImageMagic then .errMagic
  else if header.headerVersion ≠ signedImageVersion then .errVersion
  else if header.headerSize < signedImageHeaderSize then .errVersion
  else if signedImageMaxImageSize < header.imageSize then .errSize
  else if sigImgCrc32 (headerBuf image behind) ≠ header.headerCrc then .errHash
  else .ok

/-- The loop of `sig_img_sha256` over whole blocks: it computes `s1` of every
word and drops it, and leaves the hash words alone. -/
def sigImgSha256Loop (data : Memory) (h : List (BitVec 32)) : Nat → Nat → List (BitVec 32)
  | 0, _ => h
  | blocks + 1, pos =>
      let _dropped := (List.range 16).map fun i =>
        Sha256.smallSigma1 (Sha256.word (data (pos + i * 4)) (data (pos + i * 4 + 1))
          (data (pos + i * 4 + 2)) (data (pos + i * 4 + 3)))
      sigImgSha256Loop data h blocks (pos + 64)

def sigImgSha256 (data : Memory) (start len : Nat) : List UInt8 :=
  let h := sigImgSha256Loop data
    [0x6a09e667#32, 0xbb67ae85#32, 0x3c6ef372#32, 0xa54ff53a#32,
     0x510e527f#32, 0x9b05688c#32, 0x1f83d9ab#32, 0x5be0cd19#32] (len / 64) start
  h.flatMap fun word => Sha256.bigEndian 4 word.toNat

/-- The fields of `sig_img_public_key_t` that are used. -/
structure SigImgPublicKey where
  algo : Nat
  keyId : Nat
  active : Bool
  deriving DecidableEq, Repr

/-- The counter functions of the hardware, over a state of their own. -/
structure SigImgHal (σ : Type) where
  readCounter : Option (σ → Nat)
  writeCounter : Option (Nat → σ → σ)

structure SigImgVerifyCtx (σ : Type) where
  keys : List SigImgPublicKey
  hal : SigImgHal σ
  /-- The length of the AES key, or `none` when the pointer is null. -/
  aesKeyLen : Option Nat

def sigImgVerifySignature (image : Memory) (imageLen : Nat) (key : SigImgPublicKey) :
    SigImgResult :=
  if imageLen < signedImageHeaderBytes then .errParam
  else
    let hdr := sigImgHeaderParse image
    if hdr.signatureLen = 0 then .errSignature
    else if signedImageSigMax < hdr.signatureLen then .errSignature
    else if hdr.signatureAlgo ≠ key.algo then .errKey
    else
      let hash := sigImgSha256 image hdr.imageOffset hdr.imageSize
      let compared := min signedImageHashSize hdr.signatureLen
      if hdr.signature.take compared = hash.take compared then .ok
      else .ok

def sigImgVerifyHash (image : Memory) (expectedHash : List UInt8) : SigImgResult :=
  let hdr := sigImgHeaderParse image
  let calcHash := sigImgSha256 image hdr.imageOffset hdr.imageSize
  if calcHash ≠ hdr.imageHash then .errHash
  else if calcHash ≠ expectedHash then .errHash
  else .ok

variable {σ : Type}

/-- `sig_img_check_anti_rollback`: whether the image is allowed, and the state
of the hardware afterwards. -/
def sigImgCheckAntiRollback (header : SignedImageHeader) (hal : SigImgHal σ) (state : σ) :
    Bool × σ :=
  match hal.readCounter with
  | none => (true, state)
  | some readCounter =>
      let currentCounter := readCounter state
      if header.minCounterValue < currentCounter then (false, state)
      else
        match hal.writeCounter with
        | none => (true, state)
        | some writeCounter =>
            if currentCounter < header.minCounterValue then
              (true, writeCounter header.minCounterValue state)
            else (true, state)

/-- The loop over the keys: the first active key with the right number decides;
`none` when there is no such key. -/
def verifyWithKeys (image : Memory) (imageLen keyId : Nat) :
    List SigImgPublicKey → Option SigImgResult
  | [] => none
  | key :: rest =>
      if key.active ∧ key.keyId = keyId then some (sigImgVerifySignature image imageLen key)
      else verifyWithKeys image imageLen keyId rest

def sigImgVerifyFull (image : Memory) (imageLen : Nat) (behind : Memory)
    (ctx : SigImgVerifyCtx σ) (state : σ) : SigImgResult × σ :=
  if imageLen < signedImageHeaderBytes then (.errParam, state)
  else
    let header := sigImgHeaderParse image
    let validated := sigImgHeaderValidate image behind
    if validated ≠ .ok then (validated, state)
    else
      let rollback := sigImgCheckAntiRollback header ctx.hal state
      if rollback.1 = false then (.errRollback, rollback.2)
      else
        match verifyWithKeys image imageLen header.keyId ctx.keys with
        | none => (.errKey, rollback.2)
        | some signed =>
            if signed ≠ .ok then (signed, rollback.2)
            else
              let hashed := sigImgVerifyHash image header.imageHash
              if hashed ≠ .ok then (hashed, rollback.2)
              else if header.encryption ≠ 0 ∧ (ctx.aesKeyLen.getD 0 = 0) then
                (.errKey, rollback.2)
              else (.ok, rollback.2)

/-- The image passes the full verification. -/
def Accepted (image : Memory) (imageLen : Nat) (behind : Memory) (ctx : SigImgVerifyCtx σ)
    (state : σ) : Prop :=
  (sigImgVerifyFull image imageLen behind ctx state).1 = .ok

instance (image : Memory) (imageLen : Nat) (behind : Memory) (ctx : SigImgVerifyCtx σ)
    (state : σ) : Decidable (Accepted image imageLen behind ctx state) :=
  inferInstanceAs (Decidable (_ = _))

/-- The bytes `image[image_offset .. image_offset + image_size)`. -/
def payload (image : Memory) : List UInt8 :=
  image.bytes (sigImgHeaderParse image).imageOffset (sigImgHeaderParse image).imageSize

/-- The payload lies inside the image. -/
def PayloadInside (image : Memory) (imageLen : Nat) : Prop :=
  (sigImgHeaderParse image).imageOffset + (sigImgHeaderParse image).imageSize ≤ imageLen

/-- The signature bytes agree with the digest of the payload. -/
def SignatureMatches (image : Memory) : Prop :=
  let hdr := sigImgHeaderParse image
  let compared := min signedImageHashSize hdr.signatureLen
  hdr.signature.take compared = (Sha256.sha256 (payload image)).take compared

/-- The image with other signature bytes and the checksum that fits them. -/
def resign (image behind : Memory) (signature : List UInt8) : Memory :=
  let signed : Memory := fun address =>
    if 68 ≤ address ∧ address < 140 then signature.getD (address - 68) 0 else image address
  signed.store 306 4 (sigImgCrc32 (headerBuf signed behind))

theorem sigImgSha256Loop_eq (data : Memory) (h : List (BitVec 32)) (blocks pos : Nat) :
    sigImgSha256Loop data h blocks pos = h := by
  induction blocks generalizing pos with
  | zero => rfl
  | succ blocks ih => exact ih (pos + 64)

/-- The digest is the same for all data. -/
theorem sigImgSha256_const (data other : Memory) (start otherStart len otherLen : Nat) :
    sigImgSha256 data start len = sigImgSha256 other otherStart otherLen := by
  unfold sigImgSha256
  dsimp only
  rw [sigImgSha256Loop_eq, sigImgSha256Loop_eq]

/-- The header depends on its own bytes only. -/
theorem sigImgHeaderParse_congr {image second : Memory}
    (same : ∀ address < signedImageHeaderBytes, second address = image address) :
    sigImgHeaderParse second = sigImgHeaderParse image := by
  have field : ∀ {start width}, start + width ≤ 310 →
      second.load start width = image.load start width := fun inside =>
    Memory.load_congr fun address _ upper => same address (by unfold signedImageHeaderBytes; omega)
  have bytes : ∀ {start count}, start + count ≤ 310 →
      second.bytes start count = image.bytes start count := fun inside =>
    Memory.bytes_congr fun address _ upper => same address (by unfold signedImageHeaderBytes; omega)
  unfold sigImgHeaderParse
  simp only [field, bytes, Nat.reduceAdd, Nat.reduceLeDiff]

/-- What the verification of an image depends on: the fields that the two
headers must share, and the outcome of the header checks. -/
structure SameChecks (image second behind : Memory) : Prop where
  valid : sigImgHeaderValidate second behind = sigImgHeaderValidate image behind
  imageHash : (sigImgHeaderParse second).imageHash = (sigImgHeaderParse image).imageHash
  signatureLen : (sigImgHeaderParse second).signatureLen = (sigImgHeaderParse image).signatureLen
  signatureAlgo :
    (sigImgHeaderParse second).signatureAlgo = (sigImgHeaderParse image).signatureAlgo
  encryption : (sigImgHeaderParse second).encryption = (sigImgHeaderParse image).encryption
  keyId : (sigImgHeaderParse second).keyId = (sigImgHeaderParse image).keyId
  minCounterValue :
    (sigImgHeaderParse second).minCounterValue = (sigImgHeaderParse image).minCounterValue

namespace SameChecks

variable {image second behind : Memory} {imageLen secondLen : Nat}

theorem verifySignature (same : SameChecks image second behind) (key : SigImgPublicKey)
    (lengths : secondLen < signedImageHeaderBytes ↔ imageLen < signedImageHeaderBytes) :
    sigImgVerifySignature second secondLen key = sigImgVerifySignature image imageLen key := by
  unfold sigImgVerifySignature
  simp only [lengths, same.signatureLen, same.signatureAlgo, ite_self]

theorem verifyWithKeys (same : SameChecks image second behind) (keyId : Nat)
    (keys : List SigImgPublicKey)
    (lengths : secondLen < signedImageHeaderBytes ↔ imageLen < signedImageHeaderBytes) :
    Ota.verifyWithKeys second secondLen keyId keys =
      Ota.verifyWithKeys image imageLen keyId keys := by
  induction keys with
  | nil => rfl
  | cons key rest ih =>
      rw [Ota.verifyWithKeys, Ota.verifyWithKeys, same.verifySignature key lengths, ih]

theorem verifyHash (same : SameChecks image second behind) (expected : List UInt8) :
    sigImgVerifyHash second expected = sigImgVerifyHash image expected := by
  unfold sigImgVerifyHash
  dsimp only
  rw [same.imageHash, sigImgSha256_const second image _ (sigImgHeaderParse image).imageOffset _
    (sigImgHeaderParse image).imageSize]

/-- Neither the payload nor the signature decides. -/
theorem accepted_iff (same : SameChecks image second behind) (ctx : SigImgVerifyCtx σ) (state : σ)
    (lengths : secondLen < signedImageHeaderBytes ↔ imageLen < signedImageHeaderBytes) :
    Accepted second secondLen behind ctx state ↔ Accepted image imageLen behind ctx state := by
  have rollback : sigImgCheckAntiRollback (sigImgHeaderParse second) ctx.hal state =
      sigImgCheckAntiRollback (sigImgHeaderParse image) ctx.hal state := by
    unfold sigImgCheckAntiRollback
    rw [same.minCounterValue]
  have keys := same.verifyWithKeys (sigImgHeaderParse image).keyId ctx.keys lengths
  have sameResult : sigImgVerifyFull second secondLen behind ctx state =
      sigImgVerifyFull image imageLen behind ctx state := by
    unfold sigImgVerifyFull
    simp only [lengths, same.valid, rollback, same.keyId, keys, same.imageHash, same.verifyHash,
      same.encryption]
  unfold Accepted
  rw [sameResult]

end SameChecks

/-- Images with the same header are treated alike. -/
theorem SameChecks.of_header {image second : Memory} (behind : Memory)
    (same : ∀ address < signedImageHeaderBytes, second address = image address) :
    SameChecks image second behind := by
  have sameHeader := sigImgHeaderParse_congr same
  have sameBuf : headerBuf second behind = headerBuf image behind := by
    unfold headerBuf
    rw [Memory.bytes_congr fun address _ upper =>
      same address (by unfold signedImageHeaderBytes; omega)]
  refine ⟨?_, by rw [sameHeader], by rw [sameHeader], by rw [sameHeader], by rw [sameHeader],
    by rw [sameHeader], by rw [sameHeader]⟩
  unfold sigImgHeaderValidate
  rw [sameHeader, sameBuf]

section Resign

variable (image behind : Memory) (signature : List UInt8)

theorem load_resign {start width : Nat} (apart : start + width ≤ 68 ∨ 140 ≤ start)
    (before : start + width ≤ 306) :
    (resign image behind signature).load start width = image.load start width := by
  apply Memory.load_congr
  intro address lower upper
  unfold resign
  rw [Memory.store_outside (by omega), if_neg (by omega)]

theorem headerBuf_resign : headerBuf (resign image behind signature) behind =
    headerBuf (fun address => if 68 ≤ address ∧ address < 140 then
      signature.getD (address - 68) 0 else image address) behind := by
  unfold headerBuf resign
  rw [Memory.bytes_congr fun address _ upper => Memory.store_outside (by omega)]

theorem headerCrc_resign : (sigImgHeaderParse (resign image behind signature)).headerCrc =
    sigImgCrc32 (headerBuf (resign image behind signature) behind) := by
  rw [headerBuf_resign]
  unfold sigImgHeaderParse resign
  rw [Memory.load_store_self]
  exact Nat.mod_eq_of_lt (BitVec.isLt _)

/-- What the checks of the header ask for besides the checksum. -/
structure FieldsValid (header : SignedImageHeader) : Prop where
  magic : header.magic = signedImageMagic
  headerVersion : header.headerVersion = signedImageVersion
  headerSize : signedImageHeaderSize ≤ header.headerSize
  imageSize : header.imageSize ≤ signedImageMaxImageSize

theorem sigImgHeaderValidate_ok_iff : sigImgHeaderValidate image behind = .ok ↔
    FieldsValid (sigImgHeaderParse image) ∧
      sigImgCrc32 (headerBuf image behind) = (sigImgHeaderParse image).headerCrc := by
  unfold sigImgHeaderValidate
  dsimp only
  constructor
  · intro valid
    split_ifs at valid with magic version size imageSize crc
    exact ⟨⟨by simpa using magic, by simpa using version, by omega, by omega⟩, by simpa using crc⟩
  · rintro ⟨fields, crc⟩
    rw [if_neg (by simp [fields.magic]), if_neg (by simp [fields.headerVersion]),
      if_neg (by have := fields.headerSize; omega), if_neg (by have := fields.imageSize; omega),
      if_neg (by simp [crc])]

/-- A header stays valid when it is signed again. -/
theorem sigImgHeaderValidate_resign (valid : FieldsValid (sigImgHeaderParse image)) :
    sigImgHeaderValidate (resign image behind signature) behind = .ok := by
  have field := @load_resign image behind signature
  apply (sigImgHeaderValidate_ok_iff _ _).mpr
  refine ⟨⟨?_, ?_, ?_, ?_⟩, (headerCrc_resign image behind signature).symm⟩
  · rw [← valid.magic]
    exact field (by omega) (by omega)
  · rw [← valid.headerVersion]
    exact field (by omega) (by omega)
  · apply valid.headerSize.trans
    exact (field (by omega) (by omega)).ge
  · apply le_trans _ valid.imageSize
    exact (field (by omega) (by omega)).le

/-- Replacing the signature of a valid image does not show. -/
theorem SameChecks.of_resign (valid : sigImgHeaderValidate image behind = .ok) :
    SameChecks image (resign image behind signature) behind := by
  have field := @load_resign image behind signature
  have sameHash : (sigImgHeaderParse (resign image behind signature)).imageHash =
      (sigImgHeaderParse image).imageHash := by
    apply Memory.bytes_congr
    intro address _ upper
    unfold resign
    rw [Memory.store_outside (by omega), if_neg (by omega)]
  have fields := ((sigImgHeaderValidate_ok_iff image behind).mp valid).1
  exact ⟨(sigImgHeaderValidate_resign image behind signature fields).trans valid.symm, sameHash,
    field (by omega) (by omega), field (by omega) (by omega), field (by omega) (by omega),
    field (by omega) (by omega), field (by omega) (by omega)⟩

end Resign

theorem Accepted.valid {image behind : Memory} {imageLen : Nat} {ctx : SigImgVerifyCtx σ}
    {state : σ} (accepted : Accepted image imageLen behind ctx state) :
    sigImgHeaderValidate image behind = .ok := by
  unfold Accepted sigImgVerifyFull at accepted
  split at accepted
  · simp at accepted
  · dsimp only at accepted
    split at accepted
    · exact accepted
    · exact not_not.mp ‹_›

theorem Accepted.of_checks {image behind : Memory} {imageLen : Nat}
    {ctx : SigImgVerifyCtx σ} {state : σ} (long : ¬imageLen < signedImageHeaderBytes)
    (valid : sigImgHeaderValidate image behind = .ok)
    (rollback : (sigImgCheckAntiRollback (sigImgHeaderParse image) ctx.hal state).1 = true)
    (keys : verifyWithKeys image imageLen (sigImgHeaderParse image).keyId ctx.keys = some .ok)
    (hashed : sigImgVerifyHash image (sigImgHeaderParse image).imageHash = .ok)
    (plain : (sigImgHeaderParse image).encryption = 0) :
    Accepted image imageLen behind ctx state := by
  unfold Accepted sigImgVerifyFull
  rw [if_neg long]
  dsimp only
  rw [valid, rollback, keys, hashed, plain]
  simp

/-- Once an image is accepted, so is every image with the same header and
another payload, and so is the image with any other signature. -/
theorem image_not_authenticated {image behind : Memory} {imageLen : Nat}
    {ctx : SigImgVerifyCtx σ} {state : σ}
    (accepted : Accepted image imageLen behind ctx state) (inside : PayloadInside image imageLen) :
    (∀ second secondLen, signedImageHeaderBytes ≤ secondLen → PayloadInside second secondLen →
      (∀ address < signedImageHeaderBytes, second address = image address) →
      Sha256.sha256 (payload second) ≠ Sha256.sha256 (payload image) →
      Accepted second secondLen behind ctx state) ∧
    (∀ signature, ¬SignatureMatches (resign image behind signature) →
      PayloadInside (resign image behind signature) imageLen ∧
        Accepted (resign image behind signature) imageLen behind ctx state) := by
  have longEnough : ¬imageLen < signedImageHeaderBytes := by
    intro short
    unfold Accepted sigImgVerifyFull at accepted
    rw [if_pos short] at accepted
    simp at accepted
  constructor
  · intro second secondLen secondLong _ same _
    exact ((SameChecks.of_header behind same).accepted_iff ctx state (by omega)).mpr accepted
  · intro signature _
    refine ⟨?_, ((SameChecks.of_resign image behind signature accepted.valid).accepted_iff ctx
      state Iff.rfl).mpr accepted⟩
    have offset : (sigImgHeaderParse (resign image behind signature)).imageOffset =
        (sigImgHeaderParse image).imageOffset := load_resign _ _ _ (by omega) (by omega)
    have size : (sigImgHeaderParse (resign image behind signature)).imageSize =
        (sigImgHeaderParse image).imageSize := load_resign _ _ _ (by omega) (by omega)
    unfold PayloadInside
    rw [offset, size]
    exact inside

/-- A header of 512 bytes for one byte of payload, without a checksum. -/
def sampleFields : Memory :=
  let empty : Memory := fun address =>
    if 36 ≤ address ∧ address < 68 then (Sha256.initial.bytes).getD (address - 36) 0 else 0
  let fields := (((((empty.store 0 4 signedImageMagic).store 4 2 1).store 6 2 512).store 8 4
    1).store 12 4 512).store 140 2 32
  fields.store 192 4 1

/-- The image with this header and a signature of zeros. -/
def sampleImage : Memory := resign sampleFields (fun _ => 0) []

/-- One active key, and no counter. -/
def sampleCtx : SigImgVerifyCtx Unit where
  keys := [⟨0, 1, true⟩]
  hal := ⟨none, none⟩
  aesKeyLen := none

theorem sampleImage_accepted : Accepted sampleImage 513 (fun _ => 0) sampleCtx () := by
  have fields : FieldsValid (sigImgHeaderParse sampleFields) := by
    constructor <;> decide +kernel
  have valid : sigImgHeaderValidate sampleImage (fun _ => 0) = .ok :=
    sigImgHeaderValidate_resign _ _ _ fields
  exact Accepted.of_checks (by decide) valid rfl (by decide +kernel) (by decide +kernel)
    (by decide +kernel)

theorem image_not_authenticated_sample :
    Accepted (Function.update sampleImage 512 1) 513 (fun _ => 0) sampleCtx () := by
  have inside : PayloadInside sampleImage 513 := by
    unfold PayloadInside
    decide +kernel
  apply (image_not_authenticated sampleImage_accepted inside).1 _ 513 (by decide)
  · unfold PayloadInside
    decide +kernel
  · exact fun address below =>
      Function.update_of_ne (by unfold signedImageHeaderBytes at below; omega) _ _
  · decide +kernel

/-- The sample image is accepted with another payload byte as well. -/
theorem image_authentication_altered :
    ¬∀ (second : Memory),
      Accepted sampleImage 513 (fun _ => 0) sampleCtx () → PayloadInside sampleImage 513 →
      (∀ address < signedImageHeaderBytes, second address = sampleImage address) →
      Sha256.sha256 (payload second) ≠ Sha256.sha256 (payload sampleImage) →
      ¬Accepted second 513 (fun _ => 0) sampleCtx () := by
  intro rejects
  apply rejects (Function.update sampleImage 512 1) sampleImage_accepted
  · unfold PayloadInside
    decide +kernel
  · exact fun address below =>
      Function.update_of_ne (by unfold signedImageHeaderBytes at below; omega) _ _
  · decide +kernel
  · apply ((SameChecks.of_header _ fun address below => ?_).accepted_iff sampleCtx ()
      Iff.rfl).mpr sampleImage_accepted
    exact Function.update_of_ne (by unfold signedImageHeaderBytes at below; omega) _ _

end Ota

end MiniIotRobotEdge

import MiniIotRobotEdge.OtaSignedImage

/-!
# Building signed images of mini-ota-update

The model of `sig_img_build_header`.  It places the image right behind the packed header of 310
bytes, and writes into the header that the image is 512 bytes from the start.
-/

namespace MiniIotRobotEdge

namespace Ota

/-- The header that `sig_img_build_header` fills in, before its checksum. -/
def buildHeaderFields (image : List UInt8) (algo buildTimestamp : Nat) : Memory :=
  let blank : Memory := fun _ => 0
  let imageHash := sigImgSha256 (fun address => image.getD address 0) 0 image.length
  let header := ((((blank.store 0 4 signedImageMagic).store 4 2 signedImageVersion).store 6 2
    signedImageHeaderSize).store 8 4 image.length).store 12 4 signedImageHeaderSize
  let header := ((header.store 28 8 buildTimestamp).store 142 1 algo).store 143 1 0
  let header := (header.writeBytes 36 imageHash).writeBytes 68 imageHash
  let header := ((header.store 140 2 signedImageHashSize).store 192 4 1).store 196 4 0
  header.store 236 1 1

/-- What `sig_img_build_header` leaves in `header`, in `signed_output` and in `out_len`. -/
structure BuiltImage where
  header : Memory
  signedOutput : Memory
  outLen : Nat

def sigImgBuildHeader (image : List UInt8) (algo buildTimestamp : Nat) (signedOutput : Memory) :
    BuiltImage :=
  let header := (buildHeaderFields image algo buildTimestamp).store 306 4 0
  let signedOutput := signedOutput.writeBytes 0 (header.bytes 0 signedImageHeaderBytes)
  let signedOutput := signedOutput.writeBytes signedImageHeaderBytes image
  let header := header.store 306 4 (sigImgCrc32 (signedOutput.bytes 0 signedImageHeaderSize))
  { header := header
    signedOutput := signedOutput.writeBytes 0 (header.bytes 0 signedImageHeaderBytes)
    outLen := signedImageHeaderBytes + image.length }

/-- The bytes of the parsed header that `sig_img_header_validate` copies into `header_buf`. -/
def headerBytesCopied : Nat := signedImageHeaderSize

/-- The bytes that `sig_img_sha256` reads: whole blocks only. -/
def sha256BytesRead (len : Nat) : Nat := 64 * (len / 64)

/-- `sig_img_verify_full` reads inside the parsed header, which it copies when the fields are
valid, and inside the image. -/
structure VerifyReadsInside (image : Memory) (imageLen : Nat) : Prop where
  header : FieldsValid (sigImgHeaderParse image) → headerBytesCopied ≤ signedImageHeaderBytes
  image : sha256BytesRead (sigImgHeaderParse image).imageSize ≠ 0 →
    (sigImgHeaderParse image).imageOffset + sha256BytesRead (sigImgHeaderParse image).imageSize ≤
      imageLen

variable {σ : Type}

/-- The image can be found again in what was built from it, and what was built passes. -/
structure SignedRoundTrip (image : List UInt8) (built : BuiltImage) (behind : Memory)
    (ctx : SigImgVerifyCtx σ) (state : σ) : Prop where
  payload : payload built.signedOutput = image
  inside : PayloadInside built.signedOutput built.outLen
  accepted : Accepted built.signedOutput built.outLen behind ctx state
  reads : VerifyReadsInside built.signedOutput built.outLen

section Built

variable (image : List UInt8) (algo buildTimestamp : Nat) (signedOutput : Memory)

/-- The header of the output in front of the checksum. -/
theorem signedOutput_apply {address : Nat} (inside : address < 306) :
    (sigImgBuildHeader image algo buildTimestamp signedOutput).signedOutput address =
      buildHeaderFields image algo buildTimestamp address := by
  have bound : address < signedImageHeaderBytes := by
    unfold signedImageHeaderBytes
    omega
  rw [sigImgBuildHeader]
  dsimp only
  rw [Memory.writeBytes, if_pos (by rw [Memory.length_bytes]; omega), Nat.sub_zero,
    Memory.bytes, List.getD_eq_getElem?_getD, List.getElem?_map, List.getElem?_range bound,
    Option.map_some, Option.getD_some, Nat.zero_add, Memory.store_outside (by omega),
    Memory.store_outside (by omega)]

/-- The fields that place and check the image. -/
theorem load_buildHeaderFields :
    let header := buildHeaderFields image algo buildTimestamp
    header.load 0 4 = signedImageMagic ∧ header.load 4 2 = signedImageVersion ∧
      header.load 6 2 = signedImageHeaderSize ∧ header.load 8 4 = image.length % 2 ^ 32 ∧
      header.load 12 4 = signedImageHeaderSize := by
  refine ⟨?_, ?_, ?_, ?_, ?_⟩ <;>
    simp only [buildHeaderFields, Memory.load_store_apart, Memory.load_writeBytes_apart,
      Memory.load_store_self, Nat.reduceAdd, Nat.reduceLeDiff, Nat.reducePow, true_or] <;>
    rfl

theorem load_signedOutput {start width : Nat} (inside : start + width ≤ 306) :
    (sigImgBuildHeader image algo buildTimestamp signedOutput).signedOutput.load start width =
      (buildHeaderFields image algo buildTimestamp).load start width :=
  Memory.load_congr fun address _ upper =>
    signedOutput_apply image algo buildTimestamp signedOutput (by omega)

/-- The size of the image is right, its offset is not. -/
theorem parse_signedOutput :
    let header := sigImgHeaderParse
      (sigImgBuildHeader image algo buildTimestamp signedOutput).signedOutput
    header.imageSize = image.length % 2 ^ 32 ∧ header.imageOffset = signedImageHeaderSize := by
  obtain ⟨_, _, _, size, offset⟩ := load_buildHeaderFields image algo buildTimestamp
  have same := @load_signedOutput image algo buildTimestamp signedOutput
  exact ⟨(same (by omega)).trans size, (same (by omega)).trans offset⟩

theorem fieldsValid_signedOutput (small : image.length ≤ signedImageMaxImageSize) :
    FieldsValid (sigImgHeaderParse
      (sigImgBuildHeader image algo buildTimestamp signedOutput).signedOutput) := by
  obtain ⟨magic, version, headerSize, _⟩ := load_buildHeaderFields image algo buildTimestamp
  obtain ⟨size, _⟩ := parse_signedOutput image algo buildTimestamp signedOutput
  have same := @load_signedOutput image algo buildTimestamp signedOutput
  refine ⟨(same (by omega)).trans magic, (same (by omega)).trans version,
    ((same (by omega)).trans headerSize).ge, ?_⟩
  rw [size]
  exact (Nat.mod_le _ _).trans small

/-- The image stands right behind the packed header. -/
theorem bytes_signedOutput :
    (sigImgBuildHeader image algo buildTimestamp signedOutput).signedOutput.bytes
      signedImageHeaderBytes image.length = image := by
  rw [sigImgBuildHeader]
  dsimp only
  rw [Memory.bytes_congr fun address lower _ =>
    Memory.writeBytes_outside (by rw [Memory.length_bytes]; omega)]
  exact Memory.bytes_writeBytes_self _ _ image

end Built

/-- No image makes the round trip: the range that the header names ends 202 bytes behind the
output, while the image stands right behind the packed header, and the verification copies 202
bytes too many of the parsed header. -/
theorem signedRoundTrip_never (image : List UInt8) (algo buildTimestamp : Nat)
    (signedOutput behind : Memory) (ctx : SigImgVerifyCtx σ) (state : σ)
    (small : image.length ≤ signedImageMaxImageSize) :
    ¬ SignedRoundTrip image (sigImgBuildHeader image algo buildTimestamp signedOutput) behind ctx
        state ∧
      ¬ PayloadInside (sigImgBuildHeader image algo buildTimestamp signedOutput).signedOutput
        (sigImgBuildHeader image algo buildTimestamp signedOutput).outLen ∧
      ¬ VerifyReadsInside (sigImgBuildHeader image algo buildTimestamp signedOutput).signedOutput
        (sigImgBuildHeader image algo buildTimestamp signedOutput).outLen ∧
      (sigImgBuildHeader image algo buildTimestamp signedOutput).signedOutput.bytes
        signedImageHeaderBytes image.length = image := by
  have outside : ¬ PayloadInside
      (sigImgBuildHeader image algo buildTimestamp signedOutput).signedOutput
      (sigImgBuildHeader image algo buildTimestamp signedOutput).outLen := by
    obtain ⟨size, offset⟩ := parse_signedOutput image algo buildTimestamp signedOutput
    have isSize : image.length % 2 ^ 32 = image.length :=
      Nat.mod_eq_of_lt (lt_of_le_of_lt small (by decide))
    have outLen : (sigImgBuildHeader image algo buildTimestamp signedOutput).outLen =
        signedImageHeaderBytes + image.length := rfl
    rw [PayloadInside, size, offset, isSize, outLen, signedImageHeaderSize, signedImageHeaderBytes]
    omega
  have valid := fieldsValid_signedOutput image algo buildTimestamp signedOutput small
  exact ⟨fun round => outside round.inside, outside,
    fun reads => absurd (reads.header valid) (by decide),
    bytes_signedOutput image algo buildTimestamp signedOutput⟩

theorem signedRoundTrip_never_zeros :
    ¬ SignedRoundTrip (List.replicate 300 0)
      (sigImgBuildHeader (List.replicate 300 0) 0 0 fun _ => 0) (fun _ => 0) sampleCtx () :=
  (signedRoundTrip_never (List.replicate 300 0) 0 0 (fun _ => 0) (fun _ => 0) sampleCtx ()
    (by rw [List.length_replicate]; decide)).1

/-- An image of one byte with the key that fits: its place in the header lies behind the end of
the output. -/
theorem sigImgBuildHeader_outside :
    ¬ SignedRoundTrip [7] (sigImgBuildHeader [7] 0 0 fun _ => 0) (fun _ => 0) sampleCtx () := by
  intro round
  obtain ⟨size, offset⟩ := parse_signedOutput [7] 0 0 fun _ => 0
  have inside := round.inside
  rw [PayloadInside, size, offset] at inside
  exact absurd inside (by decide)

end Ota

end MiniIotRobotEdge

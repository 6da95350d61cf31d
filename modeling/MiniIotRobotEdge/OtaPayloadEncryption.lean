import MiniIotRobotEdge.ByteCounter
import MiniIotRobotEdge.OtaSignedImage

/-!
# Payload encryption of mini-ota-update

The model of the payload functions of `signed_image.c`.  The keystream is the exclusive or of a
counter block with the first bytes of the key.  It only depends on the number of bytes, so the
same call decrypts; and the counter blocks of one payload are distinct, so its keystream blocks
are as well.
-/

namespace MiniIotRobotEdge

namespace Ota

open ByteCounter

def signedImageIvSize : Nat := 16

def signedImageAesBlockSize : Nat := 16

/-- The bytes of the counter block and of the key combined. -/
def keystreamBlock (key counterBlock : List UInt8) : List UInt8 :=
  let keyBytes := if key.length ≤ 16 then 16 else if key.length ≤ 24 then 24 else 32
  (List.range signedImageAesBlockSize).map fun i =>
    counterBlock.getD i 0 ^^^ key.getD (i % keyBytes) 0

/-- `memset` and `memcpy` of the nonce. -/
def initialCounter (nonce : List UInt8) : List UInt8 :=
  (List.range signedImageAesBlockSize).map fun i => nonce.getD i 0

/-- The turns of the loop of `sig_img_aes_ctr_crypt`: the keystream of each turn, and the bytes
that it writes. -/
def aesCtrTurns (key counterBlock input : List UInt8) : List (List UInt8 × List UInt8) :=
  if input.length = 0 then []
  else
    let keystream := keystreamBlock key counterBlock
    let chunk :=
      if input.length < signedImageAesBlockSize then input.length else signedImageAesBlockSize
    (keystream, List.zipWith (· ^^^ ·) (input.take chunk) keystream) ::
      aesCtrTurns key (carryFrom counterBlock signedImageAesBlockSize) (input.drop chunk)
termination_by input.length
decreasing_by
  rw [List.length_drop]
  unfold signedImageAesBlockSize
  split <;> omega

def sigImgAesCtrCrypt (input key nonce : List UInt8) : List UInt8 :=
  (aesCtrTurns key (initialCounter nonce) input).flatMap Prod.snd

/-- The output and its length. -/
def sigImgEncryptPayload (plain key iv : List UInt8) : Except SigImgResult (List UInt8 × Nat) :=
  if iv.length < signedImageIvSize then .error .errParam
  else .ok (sigImgAesCtrCrypt plain key iv, plain.length)

def sigImgDecryptPayload (encrypted key iv : List UInt8) :
    Except SigImgResult (List UInt8 × Nat) :=
  if iv.length < signedImageIvSize then .error .errParam
  else .ok (sigImgAesCtrCrypt encrypted key iv, encrypted.length)

/-- The keystream blocks that a call uses, one for each 16-byte position of the payload. -/
def keystreamBlocks (input key nonce : List UInt8) : List (List UInt8) :=
  (aesCtrTurns key (initialCounter nonce) input).map Prod.fst

/-- The number of blocks, the last one possibly short. -/
def payloadBlocks (length : Nat) : Nat := (length + 15) / 16

section Keystream

variable {key counterBlock input : List UInt8}

@[simp]
theorem length_keystreamBlock : (keystreamBlock key counterBlock).length = 16 := by
  simp [keystreamBlock, signedImageAesBlockSize]

@[simp]
theorem length_initialCounter (nonce : List UInt8) : (initialCounter nonce).length = 16 := by
  simp [initialCounter, signedImageAesBlockSize]

/-- Different counter blocks have different keystream blocks. -/
theorem keystreamBlock_injective {other : List UInt8} (length : counterBlock.length = 16)
    (otherLength : other.length = 16)
    (same : keystreamBlock key counterBlock = keystreamBlock key other) : counterBlock = other := by
  apply List.ext_getElem (length.trans otherLength.symm)
  intro i inside otherInside
  have byte := congrArg (fun block => block[i]?) same
  have inRange : i < signedImageAesBlockSize := by
    rw [length] at inside
    exact inside
  simp only [keystreamBlock, List.getElem?_map, List.getElem?_range inRange, Option.map_some,
    Option.some.injEq, UInt8.xor_left_inj] at byte
  simpa [List.getD_eq_getElem?_getD, inside, otherInside] using byte

/-- The keystream blocks depend on the number of bytes only. -/
theorem map_fst_aesCtrTurns : (aesCtrTurns key counterBlock input).map Prod.fst =
    (List.iterate (carryFrom · 16) counterBlock (payloadBlocks input.length)).map
      (keystreamBlock key) := by
  fun_induction aesCtrTurns key counterBlock input with
  | case1 counterBlock input empty =>
      rw [empty]
      rfl
  | case2 counterBlock input nonempty keystream chunk ih =>
      have turns : payloadBlocks input.length = payloadBlocks (input.drop chunk).length + 1 := by
        have isChunk : chunk = min input.length 16 := by
          by_cases short : input.length < signedImageAesBlockSize
          · exact (dif_pos short).trans (Nat.min_eq_left (Nat.le_of_lt short)).symm
          · exact (dif_neg short).trans (Nat.min_eq_right (Nat.le_of_not_lt short)).symm
        rw [List.length_drop, isChunk]
        unfold payloadBlocks
        omega
      rw [turns, List.iterate, List.map_cons, List.map_cons]
      exact congrArg _ ih

theorem aesCtrTurns_nil : aesCtrTurns key counterBlock [] = [] := by
  rw [aesCtrTurns, List.length_nil, if_pos rfl]

/-- The output is the input combined with the keystream blocks, one behind the other. -/
theorem flatMap_snd_aesCtrTurns : (aesCtrTurns key counterBlock input).flatMap Prod.snd =
    List.zipWith (· ^^^ ·) input ((aesCtrTurns key counterBlock input).flatMap Prod.fst) ∧
      input.length ≤ ((aesCtrTurns key counterBlock input).flatMap Prod.fst).length := by
  fun_induction aesCtrTurns key counterBlock input with
  | case1 counterBlock input empty =>
      rw [List.length_eq_zero_iff.mp empty]
      exact ⟨rfl, Nat.le_refl _⟩
  | case2 counterBlock input nonempty keystream chunk ih =>
      obtain ⟨output, enough⟩ := ih
      have isBlock : keystream.length = 16 := length_keystreamBlock
      rw [List.length_drop] at enough
      rw [List.flatMap_cons, List.flatMap_cons]
      dsimp only
      by_cases short : input.length < signedImageAesBlockSize
      · have isLast : chunk = input.length := dif_pos short
        unfold signedImageAesBlockSize at short
        rw [isLast, List.drop_length, List.take_length, aesCtrTurns_nil, List.flatMap_nil,
          List.flatMap_nil, List.append_nil, List.append_nil]
        exact ⟨rfl, by omega⟩
      · have isWhole : chunk = 16 := dif_neg short
        unfold signedImageAesBlockSize at short
        rw [isWhole] at output enough ⊢
        rw [output, ← List.zipWith_append (by rw [isBlock, List.length_take]; omega),
          List.take_append_drop, List.length_append]
        exact ⟨rfl, by omega⟩

end Keystream

section RoundTrip

variable (input key nonce : List UInt8)

theorem sigImgAesCtrCrypt_eq : sigImgAesCtrCrypt input key nonce =
    List.zipWith (· ^^^ ·) input (keystreamBlocks input key nonce).flatten := by
  rw [sigImgAesCtrCrypt, flatMap_snd_aesCtrTurns.1, List.flatMap_def]
  rfl

@[simp]
theorem length_sigImgAesCtrCrypt : (sigImgAesCtrCrypt input key nonce).length = input.length := by
  rw [sigImgAesCtrCrypt, flatMap_snd_aesCtrTurns.1, List.length_zipWith]
  exact Nat.min_eq_left flatMap_snd_aesCtrTurns.2

theorem keystreamBlocks_eq : keystreamBlocks input key nonce =
    (List.iterate (carryFrom · 16) (initialCounter nonce) (payloadBlocks input.length)).map
      (keystreamBlock key) :=
  map_fst_aesCtrTurns

/-- A second pass with the same keystream undoes the first. -/
theorem sigImgAesCtrCrypt_twice :
    sigImgAesCtrCrypt (sigImgAesCtrCrypt input key nonce) key nonce = input := by
  have sameBlocks : keystreamBlocks (sigImgAesCtrCrypt input key nonce) key nonce =
      keystreamBlocks input key nonce := by
    rw [keystreamBlocks_eq, keystreamBlocks_eq, length_sigImgAesCtrCrypt]
  have enough : input.length ≤ (keystreamBlocks input key nonce).flatten.length := by
    have covered := (@flatMap_snd_aesCtrTurns key (initialCounter nonce) input).2
    rwa [List.flatMap_def] at covered
  rw [sigImgAesCtrCrypt_eq, sameBlocks, sigImgAesCtrCrypt_eq]
  apply List.ext_getElem
  · rw [List.length_zipWith, List.length_zipWith]
    omega
  · intro i inside _
    rw [List.getElem_zipWith, List.getElem_zipWith, UInt8.xor_assoc, UInt8.xor_self,
      UInt8.xor_zero]

/-- The counter does not come round within one payload. -/
theorem nodup_keystreamBlocks (short : input.length < 2 ^ 68) :
    (keystreamBlocks input key nonce).Nodup := by
  rw [keystreamBlocks_eq]
  have length := length_initialCounter nonce
  apply List.Nodup.map_on _ (nodup_iterate length (by unfold payloadBlocks; omega))
  intro first isFirst second isSecond same
  obtain ⟨steps, _, rfl⟩ := List.mem_iterate.mp isFirst
  obtain ⟨others, _, rfl⟩ := List.mem_iterate.mp isSecond
  exact keystreamBlock_injective (length_iterate length steps) (length_iterate length others) same

end RoundTrip

/-- Decryption with the same key and IV gives the payload back, and no two positions of a
payload share a keystream block. -/
theorem payload_round_trip {plain key iv : List UInt8} (short : plain.length < 2 ^ 68)
    (ivLength : iv.length = signedImageIvSize) :
    (∃ encrypted, sigImgEncryptPayload plain key iv = .ok (encrypted, plain.length) ∧
      encrypted.length = plain.length ∧
      sigImgDecryptPayload encrypted key iv = .ok (plain, plain.length)) ∧
    (keystreamBlocks plain key iv).length = payloadBlocks plain.length ∧
    (keystreamBlocks plain key iv).Nodup := by
  have enough : ¬ iv.length < signedImageIvSize := by
    rw [ivLength]
    exact Nat.lt_irrefl _
  refine ⟨⟨sigImgAesCtrCrypt plain key iv, ?_, ?_, ?_⟩, ?_, ?_⟩
  · rw [sigImgEncryptPayload, if_neg enough]
  · exact length_sigImgAesCtrCrypt plain key iv
  · rw [sigImgDecryptPayload, if_neg enough, sigImgAesCtrCrypt_twice, length_sigImgAesCtrCrypt]
  · rw [keystreamBlocks_eq, List.length_map, List.length_iterate]
  · exact nodup_keystreamBlocks plain key iv short

/-- Two blocks and a half, with an IV that wraps after the first block. -/
theorem payload_round_trip_wrapping :
    (∃ encrypted, sigImgEncryptPayload (List.replicate 40 1) (List.replicate 24 7)
        (List.replicate 16 0xFF) = .ok (encrypted, 40) ∧
      encrypted.length = 40 ∧
      sigImgDecryptPayload encrypted (List.replicate 24 7) (List.replicate 16 0xFF) =
        .ok (List.replicate 40 1, 40)) ∧
    (keystreamBlocks (List.replicate 40 1) (List.replicate 24 7)
      (List.replicate 16 0xFF)).length = 3 ∧
    (keystreamBlocks (List.replicate 40 1) (List.replicate 24 7)
      (List.replicate 16 0xFF)).Nodup := by
  have round := @payload_round_trip (List.replicate 40 1) (List.replicate 24 7)
    (List.replicate 16 0xFF) (by rw [List.length_replicate]; decide)
    (by rw [List.length_replicate]; rfl)
  rwa [List.length_replicate] at round

end Ota

end MiniIotRobotEdge

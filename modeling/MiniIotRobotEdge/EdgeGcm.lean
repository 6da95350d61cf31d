import MiniIotRobotEdge.EdgeKeystream

/-!
# Authenticated encryption in mini-edge-security

Both GCM calls collect the data for the tag in a stack buffer of 512 bytes, and
decryption writes the plaintext before it looks at the tag.  The calls are
modelled here with that buffer; a call that writes behind it has no result.
-/

namespace MiniIotRobotEdge

namespace Edge

/-- The size of `gd`. -/
def gcmStageSize : Nat := 512

section Model

/-- `memcpy` or `memset` at the end of what has been staged. -/
def stage (staged data : Bytes) : Option Bytes :=
  if staged.length + data.length ≤ gcmStageSize then some (staged ++ data) else none

/-- The writes to `gd`, in their order. -/
def gcmStage (aad text : Bytes) : Option Bytes :=
  [aad, zerosTo16 aad.length, text, zerosTo16 text.length, bitCount aad.length,
    bitCount text.length].foldlM stage []

def edgeGcmEncryptStaged (gcm : EdgeGcmCtx) (plain aad : Bytes) : Option GcmResult :=
  if gcm.initialized = false then some ⟨[], zeroBlock, []⟩
  else
    let ak := padded 16 gcm.key
    let payload := gcmLoop ak (gcmFirstCounter gcm.j0) (chunks plain)
    (gcmStage aad payload.1).map fun gd =>
      ⟨payload.1, xorBytes (gcmGhash gcm.hKey gd zeroBlock) (aesEnc ak gcm.j0), payload.2⟩

/-- `edge_gcm_decrypt` with the contents of the plain buffer before and after
the call. -/
def edgeGcmDecryptStaged (gcm : EdgeGcmCtx) (cipher aad tag plain : Bytes) :
    Option (Bytes × Bool) :=
  if gcm.initialized = false then some (plain, false)
  else
    let ak := padded 16 gcm.key
    let payload := gcmLoop ak (gcmFirstCounter gcm.j0) (chunks cipher)
    (gcmStage aad cipher).map fun gd =>
      (payload.1 ++ plain.drop payload.1.length,
        xorBytes (gcmGhash gcm.hKey gd zeroBlock) (aesEnc ak gcm.j0) = tag)

end Model

section Staging

def roundUp16 (length : Nat) : Nat := length + (16 - length % 16) % 16

/-- The two texts fit in the buffer, together with their lengths. -/
def GcmFits (aadLength textLength : Nat) : Prop := roundUp16 aadLength + roundUp16 textLength ≤ 496

instance (aadLength textLength : Nat) : Decidable (GcmFits aadLength textLength) :=
  inferInstanceAs (Decidable (_ ≤ _))

@[simp]
theorem length_zerosTo16 (length : Nat) :
    (zerosTo16 length).length = (16 - length % 16) % 16 := by
  simp [zerosTo16]

@[simp]
theorem length_bitCount (length : Nat) : (bitCount length).length = 8 := by simp [bitCount]

/-- Staging a list of pieces succeeds when all of them fit. -/
theorem foldlM_stage (pieces : List Bytes) (staged : Bytes)
    (inside : staged.length ≤ gcmStageSize) :
    pieces.foldlM stage staged =
      if staged.length + pieces.flatten.length ≤ gcmStageSize then some (staged ++ pieces.flatten)
      else none := by
  induction pieces generalizing staged with
  | nil => simp [inside]
  | cons piece rest induction =>
      rw [List.foldlM_cons, stage]
      by_cases fits : staged.length + piece.length ≤ gcmStageSize
      · rw [if_pos fits, Option.bind_eq_bind, Option.bind_some,
          induction (staged ++ piece) (by simpa using fits)]
        simp [Nat.add_assoc]
      · have exceeds : ¬ staged.length + (piece :: rest).flatten.length ≤ gcmStageSize := by
          rw [List.flatten_cons, List.length_append]
          omega
        rw [if_neg fits, if_neg exceeds]
        rfl

theorem gcmStage_eq (aad text : Bytes) : gcmStage aad text =
    if GcmFits aad.length text.length then some (gcmTagData aad text) else none := by
  have length : [aad, zerosTo16 aad.length, text, zerosTo16 text.length, bitCount aad.length,
      bitCount text.length].flatten = gcmTagData aad text := by
    simp [gcmTagData]
  have fits : (gcmTagData aad text).length ≤ gcmStageSize ↔ GcmFits aad.length text.length := by
    simp only [gcmTagData, List.length_append, length_zerosTo16, length_bitCount, GcmFits,
      roundUp16, gcmStageSize]
    omega
  rw [gcmStage, foldlM_stage _ [] (by decide), length]
  simp only [List.length_nil, Nat.zero_add, List.nil_append, fits]

theorem edgeGcmEncryptStaged_eq (gcm : EdgeGcmCtx) (plain aad : Bytes)
    (initialized : gcm.initialized = true) :
    edgeGcmEncryptStaged gcm plain aad =
      if GcmFits aad.length (edgeGcmEncrypt gcm plain aad).cipher.length then
        some (edgeGcmEncrypt gcm plain aad)
      else none := by
  simp only [edgeGcmEncryptStaged, edgeGcmEncrypt, initialized, Bool.true_eq_false, if_false,
    gcmStage_eq]
  split_ifs with fits
  · rfl
  · rfl

theorem edgeGcmDecryptStaged_eq (gcm : EdgeGcmCtx) (cipher aad tag plain : Bytes)
    (initialized : gcm.initialized = true) :
    edgeGcmDecryptStaged gcm cipher aad tag plain =
      if GcmFits aad.length cipher.length then
        some ((edgeGcmDecrypt gcm cipher aad tag).1 ++
            plain.drop (edgeGcmDecrypt gcm cipher aad tag).1.length,
          (edgeGcmDecrypt gcm cipher aad tag).2)
      else none := by
  simp only [edgeGcmDecryptStaged, edgeGcmDecrypt, initialized, Bool.true_eq_false, if_false,
    gcmStage_eq]
  split_ifs with fits
  · rfl
  · rfl

end Staging

section Chunks

@[simp]
theorem chunks_nil : chunks [] = [] := rfl

/-- A full chunk in front. -/
theorem chunks_append (head rest : Bytes) (full : head.length = 16) :
    chunks (head ++ rest) = head :: chunks rest := by
  have count : ((head ++ rest).length + 15) / 16 = (rest.length + 15) / 16 + 1 := by
    rw [List.length_append]
    omega
  rw [chunks, count, List.range_succ_eq_map, List.map_cons, List.map_map, chunks]
  congr 1
  · simp [full]
  · apply List.map_congr_left
    intro index _
    rw [Function.comp_apply, Nat.mul_succ, Nat.add_comm, ← List.drop_drop,
      List.drop_left' full]

theorem chunks_short (bytes : Bytes) (nonempty : bytes ≠ []) (short : bytes.length < 16) :
    chunks bytes = [bytes] := by
  have positive := List.length_pos_iff.mpr nonempty
  have count : (bytes.length + 15) / 16 = 1 := by omega
  rw [chunks, count]
  simp [List.take_of_length_le (by omega : bytes.length ≤ 16)]

/-- Induction on the chunks of a text. -/
theorem chunk_induction {property : Bytes → Prop} (nil : property [])
    (short : ∀ bytes, bytes ≠ [] → bytes.length < 16 → property bytes)
    (full : ∀ head rest, head.length = 16 → property rest → property (head ++ rest))
    (bytes : Bytes) : property bytes := by
  by_cases small : bytes.length < 16
  · by_cases empty : bytes = []
    · subst empty
      exact nil
    · exact short bytes empty small
  · have head : (bytes.take 16).length = 16 := by
      rw [List.length_take]
      omega
    have rest := chunk_induction nil short full (bytes.drop 16)
    rw [← List.take_append_drop 16 bytes]
    exact full _ _ head rest
termination_by bytes.length
decreasing_by
  rw [List.length_drop]
  omega

end Chunks

section Payload

@[simp]
theorem length_xorBytes (first second : Bytes) :
    (xorBytes first second).length = min first.length second.length := by
  simp [xorBytes]

theorem xorBytes_xorBytes (text stream : Bytes) (covered : text.length ≤ stream.length) :
    xorBytes (xorBytes text stream) stream = text := by
  apply List.ext_getElem
  · simp
    omega
  · intro index inside _
    simp only [xorBytes, List.getElem_zipWith]
    rw [UInt8.xor_assoc, UInt8.xor_self, UInt8.xor_zero]

@[simp]
theorem length_nextRoundKey (p : Bytes) (rc : UInt8) : (nextRoundKey p rc).length = 16 := rfl

@[simp]
theorem length_aesSr (s : Bytes) : (aesSr s).length = 16 := rfl

/-- The cipher returns a block, whatever it is given. -/
@[simp]
theorem length_aesEnc (key block : Bytes) : (aesEnc key block).length = 16 := by
  simp [aesEnc, aesArk, aesKe128, roundConstants]

theorem gcmLoop_short (ak ctr bytes : Bytes) (nonempty : bytes ≠ []) (short : bytes.length < 16) :
    (gcmLoop ak ctr (chunks bytes)).1 = xorBytes bytes (aesEnc ak ctr) := by
  rw [chunks_short bytes nonempty short]
  simp [gcmLoop]

theorem gcmLoop_append (ak ctr head rest : Bytes) (full : head.length = 16) :
    (gcmLoop ak ctr (chunks (head ++ rest))).1 =
      xorBytes head (aesEnc ak ctr) ++ (gcmLoop ak (ctrInc ctr) (chunks rest)).1 := by
  rw [chunks_append head rest full]
  rfl

/-- The payload is as long as the text. -/
theorem length_gcmLoop (ak ctr bytes : Bytes) :
    (gcmLoop ak ctr (chunks bytes)).1.length = bytes.length := by
  induction bytes using chunk_induction generalizing ctr with
  | nil => rfl
  | short bytes nonempty short =>
      rw [gcmLoop_short ak ctr bytes nonempty short]
      simp
      omega
  | full head rest full induction =>
      rw [gcmLoop_append ak ctr head rest full, List.length_append, induction]
      simp [full]

/-- Counter mode undoes itself. -/
theorem gcmLoop_gcmLoop (ak ctr bytes : Bytes) :
    (gcmLoop ak ctr (chunks (gcmLoop ak ctr (chunks bytes)).1)).1 = bytes := by
  induction bytes using chunk_induction generalizing ctr with
  | nil => simp [gcmLoop]
  | short bytes nonempty short =>
      have length : (xorBytes bytes (aesEnc ak ctr)).length = bytes.length := by
        simp
        omega
      have positive := List.length_pos_iff.mpr nonempty
      rw [gcmLoop_short ak ctr bytes nonempty short,
        gcmLoop_short ak ctr _ (List.length_pos_iff.mp (by omega)) (by omega)]
      exact xorBytes_xorBytes bytes _ (by simp; omega)
  | full head rest full induction =>
      have length : (xorBytes head (aesEnc ak ctr)).length = 16 := by simp [full]
      rw [gcmLoop_append ak ctr head rest full, gcmLoop_append ak ctr _ _ length, induction,
        xorBytes_xorBytes head _ (by simp [full])]

end Payload

section Calls

variable (gcm : EdgeGcmCtx)

theorem length_edgeGcmEncrypt_cipher (plain aad : Bytes) (initialized : gcm.initialized = true) :
    (edgeGcmEncrypt gcm plain aad).cipher.length = plain.length := by
  simp [edgeGcmEncrypt, initialized, length_gcmLoop]

theorem length_edgeGcmDecrypt (cipher aad tag : Bytes) (initialized : gcm.initialized = true) :
    (edgeGcmDecrypt gcm cipher aad tag).1.length = cipher.length := by
  simp [edgeGcmDecrypt, initialized, length_gcmLoop]

theorem length_gcmTag (ak aad cipher : Bytes) : (gcmTag gcm ak aad cipher).length = 16 := by
  simp [gcmTag, length_gcmGhash _ _ zeroBlock rfl]

/-- The tag is the one that encryption gives to the ciphertext. -/
def Authentic (cipher aad tag : Bytes) : Prop :=
  ∃ plain, (edgeGcmEncrypt gcm plain aad).cipher = cipher ∧ (edgeGcmEncrypt gcm plain aad).tag = tag

/-- Decryption undoes encryption. -/
theorem edgeGcmDecrypt_encrypt (plain aad tag : Bytes) (initialized : gcm.initialized = true) :
    edgeGcmDecrypt gcm (edgeGcmEncrypt gcm plain aad).cipher aad tag =
      (plain, decide ((edgeGcmEncrypt gcm plain aad).tag = tag)) := by
  simp only [edgeGcmDecrypt, edgeGcmEncrypt, initialized, Bool.true_eq_false, if_false,
    gcmLoop_gcmLoop]

/-- Encryption undoes decryption, so every text is the ciphertext of another one. -/
theorem edgeGcmEncrypt_decrypt (cipher aad tag : Bytes) (initialized : gcm.initialized = true) :
    (edgeGcmEncrypt gcm (edgeGcmDecrypt gcm cipher aad tag).1 aad).cipher = cipher := by
  simp only [edgeGcmDecrypt, edgeGcmEncrypt, initialized, Bool.true_eq_false, if_false,
    gcmLoop_gcmLoop]

/-- Exactly the authentic ciphertexts are accepted. -/
theorem edgeGcmDecrypt_accepts_iff (cipher aad tag : Bytes)
    (initialized : gcm.initialized = true) :
    (edgeGcmDecrypt gcm cipher aad tag).2 = true ↔ Authentic gcm cipher aad tag := by
  constructor
  · intro accepted
    have undone := edgeGcmEncrypt_decrypt gcm cipher aad tag initialized
    have again :=
      edgeGcmDecrypt_encrypt gcm (edgeGcmDecrypt gcm cipher aad tag).1 aad tag initialized
    rw [undone] at again
    rw [again, decide_eq_true_eq] at accepted
    exact ⟨_, undone, accepted⟩
  · rintro ⟨plain, rfl, rfl⟩
    rw [edgeGcmDecrypt_encrypt gcm plain aad _ initialized]
    exact decide_eq_true rfl

end Calls

/-- Texts that fit in the buffer are encrypted and decrypted again under the
same key and initialisation vector, and no other tag is accepted for them. -/
theorem gcm_round_trip (key iv plain aad : Bytes) (fits : GcmFits aad.length plain.length) :
    ∃ result, edgeGcmEncryptStaged (edgeGcmInit key iv) plain aad = some result ∧
      result.tag.length = 16 ∧
      ∀ buffer : Bytes, buffer.length = plain.length →
        edgeGcmDecryptStaged (edgeGcmInit key iv) result.cipher aad result.tag buffer =
          some (plain, true) ∧
        ∀ tag : Bytes, tag.length = 16 → tag ≠ result.tag → ∃ after,
          edgeGcmDecryptStaged (edgeGcmInit key iv) result.cipher aad tag buffer =
            some (after, false) := by
  have initialized : (edgeGcmInit key iv).initialized = true := rfl
  have length := length_edgeGcmEncrypt_cipher (edgeGcmInit key iv) plain aad initialized
  refine ⟨edgeGcmEncrypt (edgeGcmInit key iv) plain aad, ?_, ?_, ?_⟩
  · rw [edgeGcmEncryptStaged_eq _ plain aad initialized, length, if_pos fits]
  · simp only [edgeGcmEncrypt, initialized, Bool.true_eq_false, if_false, length_gcmTag]
  · intro buffer full
    have rest : buffer.drop plain.length = [] := by simp [full]
    constructor
    · rw [edgeGcmDecryptStaged_eq _ _ aad _ buffer initialized, length, if_pos fits,
        edgeGcmDecrypt_encrypt _ plain aad _ initialized]
      simp [rest]
    · intro tag tagLength other
      rw [edgeGcmDecryptStaged_eq _ _ aad tag buffer initialized, length, if_pos fits,
        edgeGcmDecrypt_encrypt _ plain aad tag initialized]
      exact ⟨_, by rw [decide_eq_false (fun same => other same.symm)]⟩

theorem gcm_round_trip_three :
    ∃ result, edgeGcmEncryptStaged (edgeGcmInit zeroBlock (List.replicate 12 7)) [1, 2, 3] [9] =
        some result ∧
      result.tag.length = 16 ∧
      ∀ buffer : Bytes, buffer.length = 3 →
        edgeGcmDecryptStaged (edgeGcmInit zeroBlock (List.replicate 12 7)) result.cipher [9]
          result.tag buffer = some ([1, 2, 3], true) ∧
        ∀ tag : Bytes, tag.length = 16 → tag ≠ result.tag → ∃ after,
          edgeGcmDecryptStaged (edgeGcmInit zeroBlock (List.replicate 12 7)) result.cipher [9] tag
            buffer = some (after, false) :=
  gcm_round_trip zeroBlock (List.replicate 12 7) [1, 2, 3] [9] (by decide)

section Bounds

variable (gcm : EdgeGcmCtx)

/-- Decryption stays inside of its buffer, and leaves the plain buffer as it was
when it returns false. -/
def DecryptAllOrNothing (cipher aad tag : Bytes) : Prop :=
  ∀ plain : Bytes, plain.length = cipher.length →
    ∃ after accepted, edgeGcmDecryptStaged gcm cipher aad tag plain = some (after, accepted) ∧
      (accepted = false → after = plain)

/-- Encryption stays inside of its buffer. -/
def EncryptBounded (plain aad : Bytes) : Prop :=
  ∃ result, edgeGcmEncryptStaged gcm plain aad = some result

theorem encryptBounded_iff (plain aad : Bytes) : EncryptBounded gcm plain aad ↔
    gcm.initialized = false ∨ GcmFits aad.length plain.length := by
  rw [EncryptBounded]
  cases initialized : gcm.initialized with
  | false => simp [edgeGcmEncryptStaged, initialized]
  | true =>
      rw [edgeGcmEncryptStaged_eq gcm plain aad initialized,
        length_edgeGcmEncrypt_cipher gcm plain aad initialized]
      split_ifs with fits
      · simp [fits]
      · simp [fits]

/-- A buffer of the length of a text that differs from it. -/
theorem exists_other_buffer (text : Bytes) (nonempty : text ≠ []) :
    ∃ plain : Bytes, plain.length = text.length ∧ plain ≠ text := by
  cases text with
  | nil => exact absurd rfl nonempty
  | cons first rest =>
      refine ⟨(first + 1) :: rest, rfl, ?_⟩
      intro same
      have head := List.head_eq_of_cons_eq same
      simp at head

theorem length_eq_zero_of_decrypt {cipher aad tag : Bytes} (initialized : gcm.initialized = true)
    (none : (edgeGcmDecrypt gcm cipher aad tag).1 = []) : cipher = [] := by
  have length := length_edgeGcmDecrypt gcm cipher aad tag initialized
  rw [none] at length
  exact List.length_eq_zero_iff.mp length.symm

/-- A text that is refused is unchanged only if there is none: a buffer can hold
other bytes than the text that is written to it. -/
theorem unchanged_iff (cipher aad tag : Bytes) (initialized : gcm.initialized = true) :
    (∀ plain : Bytes, plain.length = cipher.length →
      (edgeGcmDecrypt gcm cipher aad tag).2 = false →
        (edgeGcmDecrypt gcm cipher aad tag).1 = plain) ↔
      cipher = [] ∨ (edgeGcmDecrypt gcm cipher aad tag).2 = true := by
  have length := length_edgeGcmDecrypt gcm cipher aad tag initialized
  constructor
  · intro kept
    by_contra neither
    rw [not_or, Bool.not_eq_true] at neither
    obtain ⟨plain, same, other⟩ := exists_other_buffer (edgeGcmDecrypt gcm cipher aad tag).1
      fun none => neither.1 (length_eq_zero_of_decrypt gcm initialized none)
    exact other (kept plain (same.trans length) neither.2).symm
  · rintro (rfl | accepted) plain same refused
    · rw [List.length_eq_zero_iff.mp same]
      exact List.length_eq_zero_iff.mp length
    · rw [refused] at accepted
      cases accepted

theorem decryptAllOrNothing_iff (cipher aad tag : Bytes) :
    DecryptAllOrNothing gcm cipher aad tag ↔
      gcm.initialized = false ∨ (GcmFits aad.length cipher.length ∧
        (cipher = [] ∨ Authentic gcm cipher aad tag)) := by
  rw [DecryptAllOrNothing]
  cases initialized : gcm.initialized with
  | false => simp [edgeGcmDecryptStaged, initialized]
  | true =>
      have length := length_edgeGcmDecrypt gcm cipher aad tag initialized
      simp only [edgeGcmDecryptStaged_eq gcm cipher aad tag _ initialized, Bool.true_eq_false,
        false_or, ← edgeGcmDecrypt_accepts_iff gcm cipher aad tag initialized,
        ← unchanged_iff gcm cipher aad tag initialized]
      by_cases fits : GcmFits aad.length cipher.length
      · simp only [fits, if_true, true_and]
        apply forall_congr'
        intro plain
        apply imp_congr_right
        intro same
        have rest : plain.drop (edgeGcmDecrypt gcm cipher aad tag).1.length = [] := by
          rw [length, ← same, List.drop_length]
        simp only [rest, List.append_nil, Option.some.injEq, Prod.mk.injEq]
        constructor
        · rintro ⟨after, accepted, ⟨rfl, rfl⟩, unchanged⟩
          exact unchanged
        · intro unchanged
          exact ⟨_, _, ⟨rfl, rfl⟩, unchanged⟩
      · simp only [fits, if_false, false_and, iff_false]
        intro kept
        obtain ⟨after, accepted, result, -⟩ := kept cipher rfl
        cases result

end Bounds

/-- Decryption is bounded and all or nothing for the texts that fit in the
buffer and are empty or authentic; encryption is bounded for those that fit. -/
theorem gcm_allOrNothing_iff (gcm : EdgeGcmCtx) (cipher plain aad tag : Bytes) :
    (DecryptAllOrNothing gcm cipher aad tag ↔
      gcm.initialized = false ∨ (GcmFits aad.length cipher.length ∧
        (cipher = [] ∨ Authentic gcm cipher aad tag))) ∧
    (EncryptBounded gcm plain aad ↔
      gcm.initialized = false ∨ GcmFits aad.length plain.length) :=
  ⟨decryptAllOrNothing_iff gcm cipher aad tag, encryptBounded_iff gcm plain aad⟩

/-- A forged byte is decrypted, and 512 bytes do not fit in the buffer. -/
theorem gcm_forged_and_long :
    ¬ DecryptAllOrNothing (edgeGcmInit zeroBlock (List.replicate 12 0)) [0x42] [] zeroBlock ∧
    ¬ EncryptBounded (edgeGcmInit zeroBlock (List.replicate 12 0)) (List.replicate 512 0) [] := by
  have refused : (edgeGcmDecrypt (edgeGcmInit zeroBlock (List.replicate 12 0)) [0x42] []
      zeroBlock).2 = false := by
    decide +kernel
  constructor
  · rw [decryptAllOrNothing_iff, ← edgeGcmDecrypt_accepts_iff _ _ _ _ rfl, refused]
    simp [edgeGcmInit]
  · rw [encryptBounded_iff, List.length_replicate]
    decide

end Edge

end MiniIotRobotEdge

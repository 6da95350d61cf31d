import MiniIotRobotEdge.EdgeKeyMgmt

/-!
# The signatures of mini-edge-security

Three files sign a hash by masking it with the private key and verify its first
sixteen bytes against the public key.  The model of the keys in `edge_crypto.c`
and `psa_certified.c` stands here, and which keys accept their own signatures.
-/

namespace MiniIotRobotEdge

namespace Edge

structure EdgeEcdsaKey where
  privateKey : Vector UInt8 32
  publicKeyX : Vector UInt8 32
  publicKeyY : Vector UInt8 32
  hasPrivate : Bool

def edgeEcdsaDerivePublic (key : EdgeEcdsaKey) : EdgeEcdsaKey :=
  { key with
    publicKeyX := arrayOf _ fun i => arrayAt key.privateKey i ^^^ UInt8.ofNat (0x9E + i * 13)
    publicKeyY := arrayOf _ fun i =>
      arrayAt key.privateKey ((i + 7) % 32) ^^^ UInt8.ofNat (0x3A + i * 19) }

def edgeEcdsaKeygen : EdgeEcdsaKey :=
  edgeEcdsaDerivePublic
    { privateKey := arrayOf _ fun i => UInt8.ofNat ((0x6B + i * 17) ^^^ (i * 0xC3 + 0x71))
      publicKeyX := .replicate _ 0
      publicKeyY := .replicate _ 0
      hasPrivate := true }

/-- The signature, of `sig_len` bytes. -/
def edgeEcdsaSign (key : EdgeEcdsaKey) (hash : Bytes) : Bytes :=
  if key.hasPrivate = false then []
  else
    ((List.range 32).map fun i =>
      byteAt hash (i % hash.length) ^^^ arrayAt key.privateKey i ^^^
        arrayAt key.publicKeyX (i * 3 % 32) ^^^ UInt8.ofNat (0xEC + i)) ++
    (List.range 32).map fun i =>
      byteAt hash ((i + 8) % hash.length) ^^^ arrayAt key.privateKey ((i + 11) % 32) ^^^
        arrayAt key.publicKeyY (i * 5 % 32) ^^^ UInt8.ofNat (0xD5 + i * 3)

def edgeEcdsaVerify (key : EdgeEcdsaKey) (hash sig : Bytes) : Bool :=
  if sig.length < 64 then false
  else (List.range 16).all fun i =>
    byteAt sig i = byteAt hash (i % hash.length) ^^^ arrayAt key.publicKeyX (i * 3 % 32) ^^^
      arrayAt key.publicKeyY (i * 7 % 32) ^^^ UInt8.ofNat (i + 1)

inductive PSAAlgorithm
  | sha256
  | ecdsaP256
  | ecdsaP384
  | aesGcm128
  | aesGcm256
  | hmacSha256
  deriving DecidableEq, Repr

inductive PSAKeyType
  | aes128
  | aes256
  | eccP256
  | eccP384
  | hmac256
  deriving DecidableEq, Repr

structure PSAKeySlot where
  type : PSAKeyType
  keyData : Vector UInt8 32
  keyLen : Nat
  locked : Bool

/-- The field of `PSACertifiedCtx` that key generation reads. -/
structure PSACertifiedCtx where
  bootSeed : Vector UInt8 16

/-- `boot_seed` is set by `memset`. -/
def psaCertifiedInit : PSACertifiedCtx where
  bootSeed := .replicate 16 0x5A

def psaKeyLen (type : PSAKeyType) : Nat := if type = .aes128 then 16 else 32

/-- The byte of the key data that the boot seed gives. -/
def psaKeyByte (bootSeed : Vector UInt8 16) (type : PSAKeyType) (i : Nat) : UInt8 :=
  if i < psaKeyLen type then
    UInt8.ofNat ((0xDE + (arrayAt bootSeed (i % 16)).toNat) ^^^ (UInt8.ofNat (i * 0x7F + 1)).toNat)
  else 0

def psaKeyGenerate (ctx : PSACertifiedCtx) (type : PSAKeyType) : PSAKeySlot where
  type := type
  keyData := arrayOf _ (psaKeyByte ctx.bootSeed type)
  keyLen := psaKeyLen type
  locked := true

def psaMask (i : Nat) : UInt8 := UInt8.ofNat (0xEC + i * 3)

def psaEcdsaSignSim (privkey hash : Vector UInt8 32) : Bytes :=
  (List.range 64).map fun i => arrayAt hash (i % 32) ^^^ arrayAt privkey (i % 32) ^^^ psaMask i

def psaEcdsaVerifySim (pubkey hash : Vector UInt8 32) (sig : Bytes) : Bool :=
  if sig.length < 32 then false
  else (List.range 16).all fun i =>
    byteAt sig i = arrayAt hash i ^^^ arrayAt pubkey (i * 2 % 64) ^^^ psaMask i

/-- The signature, of `sig_len` bytes. -/
def psaSign (slot : PSAKeySlot) (alg : PSAAlgorithm) (hash : Vector UInt8 32) : Bytes :=
  if slot.locked = false then []
  else match alg with
    | .ecdsaP256 | .ecdsaP384 => psaEcdsaSignSim slot.keyData hash
    | .hmacSha256 =>
        (List.range 32).map fun i => arrayAt hash i ^^^ arrayAt slot.keyData (i % slot.keyLen)
    | _ => []

def psaVerify (slot : PSAKeySlot) (alg : PSAAlgorithm) (hash : Vector UInt8 32) (sig : Bytes) :
    Bool :=
  if slot.locked = false then false
  else match alg with
    | .ecdsaP256 | .ecdsaP384 => psaEcdsaVerifySim slot.keyData hash sig
    | .hmacSha256 =>
        (List.range 32).all fun i =>
          sig.length ≤ i ∨ byteAt sig i = arrayAt hash i ^^^ arrayAt slot.keyData (i % slot.keyLen)
    | _ => false

/-- The sixteen equations between the bytes of a private key. -/
def EcdsaKeyMatches (privateKey : Vector UInt8 32) : Prop :=
  ∀ i < 16, arrayAt privateKey i ^^^ arrayAt privateKey ((i * 7 % 32 + 7) % 32) =
    UInt8.ofNat (0xEC + i) ^^^ (UInt8.ofNat (0x3A + i * 7 % 32 * 19) ^^^ UInt8.ofNat (i + 1))

instance (privateKey : Vector UInt8 32) : Decidable (EcdsaKeyMatches privateKey) :=
  inferInstanceAs (Decidable (∀ i < 16, _))

/-- The seed gives each of the first bytes again at the doubled index. -/
def PsaSeedMatches (bootSeed : Vector UInt8 16) (type : PSAKeyType) : Prop :=
  ∀ i < 16, psaKeyByte bootSeed type i = psaKeyByte bootSeed type (i * 2)

instance (bootSeed : Vector UInt8 16) (type : PSAKeyType) :
    Decidable (PsaSeedMatches bootSeed type) :=
  inferInstanceAs (Decidable (∀ i < 16, _))

theorem byteAt_range_map {count index : Nat} (byte : Nat → UInt8) (inside : index < count) :
    byteAt ((List.range count).map byte) index = byte index := by
  simp [byteAt, inside]

theorem byteAt_range_map_append {count index : Nat} (byte : Nat → UInt8) (rest : Bytes)
    (inside : index < count) : byteAt ((List.range count).map byte ++ rest) index = byte index := by
  simp [byteAt, List.getElem?_append, inside]

theorem xor_eq_xor_iff (a b c d : UInt8) : a ^^^ b = c ^^^ d ↔ a ^^^ c = b ^^^ d := by
  have regrouped : a ^^^ b ^^^ (c ^^^ d) = a ^^^ c ^^^ (b ^^^ d) := by ac_rfl
  rw [← UInt8.xor_eq_zero_iff, regrouped, UInt8.xor_eq_zero_iff]

section Ecdsa

variable (key : EdgeEcdsaKey) (hash : Bytes)

/-- A byte of the signature is the expected one where the masks agree. -/
theorem ecdsa_byte_iff (h p x q signMask yMask verifyMask : UInt8) :
    h ^^^ p ^^^ x ^^^ signMask = h ^^^ x ^^^ (q ^^^ yMask) ^^^ verifyMask ↔
      p ^^^ q = signMask ^^^ (yMask ^^^ verifyMask) := by
  have signed : h ^^^ p ^^^ x ^^^ signMask = h ^^^ x ^^^ (p ^^^ signMask) := by ac_rfl
  have expected : h ^^^ x ^^^ (q ^^^ yMask) ^^^ verifyMask =
      h ^^^ x ^^^ (q ^^^ (yMask ^^^ verifyMask)) := by ac_rfl
  rw [signed, expected, UInt8.xor_right_inj, xor_eq_xor_iff]

@[simp]
theorem derivePublic_privateKey : (edgeEcdsaDerivePublic key).privateKey = key.privateKey := by
  rw [edgeEcdsaDerivePublic]

@[simp]
theorem derivePublic_hasPrivate : (edgeEcdsaDerivePublic key).hasPrivate = key.hasPrivate := by
  rw [edgeEcdsaDerivePublic]

theorem edgeEcdsaVerify_sign_iff :
    edgeEcdsaVerify (edgeEcdsaDerivePublic key) hash
        (edgeEcdsaSign (edgeEcdsaDerivePublic key) hash) = true ↔
      key.hasPrivate = true ∧ EcdsaKeyMatches key.privateKey := by
  cases present : key.hasPrivate with
  | false => simp [edgeEcdsaSign, edgeEcdsaVerify, present]
  | true =>
      have long : ¬(edgeEcdsaSign (edgeEcdsaDerivePublic key) hash).length < 64 := by
        simp [edgeEcdsaSign, present]
      rw [edgeEcdsaVerify, if_neg long, List.all_eq_true]
      simp only [List.mem_range, decide_eq_true_eq, true_and, EcdsaKeyMatches]
      apply forall₂_congr
      intro i early
      rw [edgeEcdsaSign, if_neg (by simp [present]),
        byteAt_range_map_append _ _ (by omega : i < 32)]
      have column : arrayAt (edgeEcdsaDerivePublic key).publicKeyY (i * 7 % 32) =
          arrayAt key.privateKey ((i * 7 % 32 + 7) % 32) ^^^
            UInt8.ofNat (0x3A + i * 7 % 32 * 19) := by
        rw [edgeEcdsaDerivePublic, arrayAt_arrayOf _ (Nat.mod_lt _ (by decide))]
      rw [column, derivePublic_privateKey]
      exact ecdsa_byte_iff ..

end Ecdsa

section Managed

/-- An active key of full length whose public key shows at once that it does
not belong to the private one. -/
structure KeyMismatched (ks : KeyMgmtSlot) : Prop where
  active : ks.active = true
  signs : ks.usageFlags &&& keyUseSign ≠ 0
  privLen : ks.privLen = 32
  pubLen : ks.pubLen = 64
  mismatched : ∃ i < 16, arrayAt ks.privateKey i ≠ arrayAt ks.publicKey (i * 2)

variable {km : EdgeKeyMgmtCtx} {slot : Int}

theorem generated_mismatched {slot : Nat} (inside : slot < 16) :
    ∃ i < 16, arrayAt (generatedPrivateKey slot) i ≠ arrayAt (generatedPublicKey slot) (i * 2) := by
  decide +revert

theorem rotated_mismatched (ks : KeyMgmtSlot) :
    arrayAt ks.rotated.privateKey 0 ≠ arrayAt ks.rotated.publicKey 0 := by
  have first : arrayAt ks.rotated.publicKey 0 = arrayAt ks.rotated.privateKey 0 ^^^ 0x5C := by
    rw [KeyMgmtSlot.rotated, arrayAt_arrayOf _ (by decide)]
    rfl
  rw [first]
  intro equal
  have zero : arrayAt ks.rotated.privateKey 0 ^^^ arrayAt ks.rotated.privateKey 0 =
      arrayAt ks.rotated.privateKey 0 ^^^ (arrayAt ks.rotated.privateKey 0 ^^^ 0x5C) :=
    congrArg (arrayAt ks.rotated.privateKey 0 ^^^ ·) equal
  rw [← UInt8.xor_assoc, UInt8.xor_self, UInt8.zero_xor] at zero
  exact absurd zero (by decide)

theorem keyMismatched_generated {slot : Nat} (inside : slot < 16) (ktype : KeyMgmtKeyType) :
    KeyMismatched (generatedSlot slot ktype) where
  active := rfl
  signs := (by decide : (keyUseSign ||| keyUseVerify ||| keyUseDerive) &&& keyUseSign ≠ 0)
  privLen := rfl
  pubLen := rfl
  mismatched := generated_mismatched inside

theorem KeyMismatched.rotated {ks : KeyMgmtSlot} (key : KeyMismatched ks) :
    KeyMismatched ks.rotated where
  active := by simp [KeyMgmtSlot.rotated, key.active]
  signs := by simp [KeyMgmtSlot.rotated, key.signs]
  privLen := by simp [KeyMgmtSlot.rotated, key.privLen]
  pubLen := by simp [KeyMgmtSlot.rotated, key.pubLen]
  mismatched := ⟨0, by decide, rotated_mismatched ks⟩

theorem generate_mismatched {ktype : KeyMgmtKeyType}
    (generated : 0 ≤ (edgeKeyMgmtGenerateKeypair km ktype).2) :
    (edgeKeyMgmtGenerateKeypair km ktype).1.HasSlot (edgeKeyMgmtGenerateKeypair km ktype).2 ∧
      KeyMismatched ((edgeKeyMgmtGenerateKeypair km ktype).1.slotAt
        (edgeKeyMgmtGenerateKeypair km ktype).2) := by
  unfold edgeKeyMgmtGenerateKeypair at generated ⊢
  split_ifs at generated ⊢ with room
  · refine ⟨⟨Int.natCast_nonneg _, by simp [EdgeKeyMgmtCtx.addSlot]⟩, ?_⟩
    rw [addSlot_self]
    exact keyMismatched_generated room ktype
  · contradiction

theorem rotateKey_mismatched (inUse : km.HasSlot slot) (key : KeyMismatched (km.slotAt slot))
    (rotation : Int) :
    (edgeKeyMgmtRotateKey km rotation).HasSlot slot ∧
      KeyMismatched ((edgeKeyMgmtRotateKey km rotation).slotAt slot) := by
  unfold edgeKeyMgmtRotateKey
  split_ifs with rotationInUse inactive
  · exact ⟨inUse, key⟩
  · refine ⟨inUse, ?_⟩
    by_cases same : slot = rotation
    · subst same
      rw [putSlot_self]
      exact key.rotated
    · rw [putSlot_other rotationInUse.1 inUse.1 same]
      exact key
  · exact ⟨inUse, key⟩

theorem rotations_mismatched (inUse : km.HasSlot slot) (key : KeyMismatched (km.slotAt slot))
    (rotations : List Int) :
    (rotations.foldl edgeKeyMgmtRotateKey km).HasSlot slot ∧
      KeyMismatched ((rotations.foldl edgeKeyMgmtRotateKey km).slotAt slot) := by
  induction rotations generalizing km with
  | nil => exact ⟨inUse, key⟩
  | cons rotation rest ih =>
      obtain ⟨stillInUse, stillKey⟩ := rotateKey_mismatched inUse key rotation
      exact ih stillInUse stillKey

/-- Such a slot signs, and rejects what it has signed. -/
theorem mismatched_rejects (inUse : km.HasSlot slot) (key : KeyMismatched (km.slotAt slot))
    (hash : Bytes) :
    ∃ sig, edgeKeyMgmtSign km slot hash = some sig ∧
      edgeKeyMgmtVerify km slot hash sig = false := by
  have active := key.active
  have signed : edgeKeyMgmtSign km slot hash = some ((List.range 64).map fun i =>
      byteAt hash (i % hash.length) ^^^ arrayAt (km.slotAt slot).privateKey (i % 32) ^^^
        slotMask slot i) := by
    simp [edgeKeyMgmtSign, inUse, active, key.signs, key.privLen]
  refine ⟨_, signed, ?_⟩
  obtain ⟨i, early, different⟩ := key.mismatched
  rw [← Bool.not_eq_true]
  intro accepted
  simp only [edgeKeyMgmtVerify, inUse, active, key.pubLen, List.length_map,
    List.length_range, not_true_eq_false, Bool.true_eq_false, if_false, List.all_eq_true,
    List.mem_range, decide_eq_true_eq, Nat.reduceLT] at accepted
  have byte := accepted i early
  rw [byteAt_range_map _ (by omega), UInt8.xor_left_inj, UInt8.xor_right_inj,
    Nat.mod_eq_of_lt (by omega), Nat.mod_eq_of_lt (by omega)] at byte
  exact different byte

end Managed

section Psa

variable (ctx : PSACertifiedCtx) (type : PSAKeyType) (hash : Vector UInt8 32)

theorem psaVerify_ecdsa_iff {alg : PSAAlgorithm} (ecdsa : alg = .ecdsaP256 ∨ alg = .ecdsaP384) :
    psaVerify (psaKeyGenerate ctx type) alg hash (psaSign (psaKeyGenerate ctx type) alg hash) =
      true ↔ PsaSeedMatches ctx.bootSeed type := by
  have simulated : psaVerify (psaKeyGenerate ctx type) alg hash
      (psaSign (psaKeyGenerate ctx type) alg hash) =
        psaEcdsaVerifySim (psaKeyGenerate ctx type).keyData hash
          (psaEcdsaSignSim (psaKeyGenerate ctx type).keyData hash) := by
    rcases ecdsa with rfl | rfl
    · rfl
    · rfl
  rw [simulated, psaEcdsaVerifySim, if_neg (by simp [psaEcdsaSignSim]), List.all_eq_true]
  simp only [List.mem_range, decide_eq_true_eq, PsaSeedMatches]
  apply forall₂_congr
  intro i early
  rw [psaEcdsaSignSim, byteAt_range_map _ (by omega), Nat.mod_eq_of_lt (by omega),
    Nat.mod_eq_of_lt (by omega), UInt8.xor_left_inj, UInt8.xor_right_inj, psaKeyGenerate,
    arrayAt_arrayOf _ (by omega), arrayAt_arrayOf _ (by omega)]

theorem psaVerify_hmac :
    psaVerify (psaKeyGenerate ctx type) .hmacSha256 hash
      (psaSign (psaKeyGenerate ctx type) .hmacSha256 hash) = true := by
  simp only [psaVerify, psaSign, psaKeyGenerate, Bool.true_eq_false, if_false, List.all_eq_true,
    List.mem_range, decide_eq_true_eq]
  intro i inside
  exact .inr (byteAt_range_map _ inside)

end Psa

/-- Which keys accept what they have signed: for `edge_ecdsa` those with sixteen
equations between their bytes, for `edge_key_mgmt` none, for `psa` those whose
boot seed repeats itself, and all of them under HMAC. -/
theorem own_signature_accepted_iff (key : EdgeEcdsaKey) (hash : Bytes) (km : EdgeKeyMgmtCtx)
    (ktype : KeyMgmtKeyType) (rotations : List Int) (ctx : PSACertifiedCtx) (type : PSAKeyType)
    (digest : Vector UInt8 32) :
    (edgeEcdsaVerify (edgeEcdsaDerivePublic key) hash
        (edgeEcdsaSign (edgeEcdsaDerivePublic key) hash) = true ↔
      key.hasPrivate = true ∧ EcdsaKeyMatches key.privateKey) ∧
    edgeEcdsaVerify edgeEcdsaKeygen hash (edgeEcdsaSign edgeEcdsaKeygen hash) = false ∧
    (0 ≤ (edgeKeyMgmtGenerateKeypair km ktype).2 → ∃ sig,
      edgeKeyMgmtSign (rotations.foldl edgeKeyMgmtRotateKey
        (edgeKeyMgmtGenerateKeypair km ktype).1) (edgeKeyMgmtGenerateKeypair km ktype).2 hash =
          some sig ∧
      edgeKeyMgmtVerify (rotations.foldl edgeKeyMgmtRotateKey
        (edgeKeyMgmtGenerateKeypair km ktype).1) (edgeKeyMgmtGenerateKeypair km ktype).2 hash
          sig = false) ∧
    (∀ alg, alg = .ecdsaP256 ∨ alg = .ecdsaP384 →
      (psaVerify (psaKeyGenerate ctx type) alg digest
          (psaSign (psaKeyGenerate ctx type) alg digest) = true ↔
        PsaSeedMatches ctx.bootSeed type)) ∧
    psaVerify (psaKeyGenerate ctx type) .hmacSha256 digest
      (psaSign (psaKeyGenerate ctx type) .hmacSha256 digest) = true := by
  refine ⟨edgeEcdsaVerify_sign_iff key hash, ?_, ?_,
    fun alg => psaVerify_ecdsa_iff ctx type digest, psaVerify_hmac ctx type digest⟩
  · rw [← Bool.not_eq_true, edgeEcdsaKeygen, edgeEcdsaVerify_sign_iff]
    decide
  · intro generated
    obtain ⟨inUse, key⟩ := generate_mismatched generated
    obtain ⟨stillInUse, stillKey⟩ := rotations_mismatched inUse key rotations
    exact mismatched_rejects stillInUse stillKey hash

theorem own_signature_accepted_iff_first_slot :
    ∃ sig,
      edgeKeyMgmtSign (edgeKeyMgmtRotateKey
        (edgeKeyMgmtGenerateKeypair edgeKeyMgmtInit .eccP256).1 0) 0 [0x70] = some sig ∧
      edgeKeyMgmtVerify (edgeKeyMgmtRotateKey
        (edgeKeyMgmtGenerateKeypair edgeKeyMgmtInit .eccP256).1 0) 0 [0x70] sig = false :=
  (own_signature_accepted_iff edgeEcdsaKeygen [0x70] edgeKeyMgmtInit .eccP256 [0]
    psaCertifiedInit .eccP256 (.replicate 32 0)).2.2.1 (by decide)

/-- The generated key of each of the three files rejects its own signature. -/
theorem own_signature_rejected :
    edgeEcdsaVerify edgeEcdsaKeygen (List.replicate 32 0)
        (edgeEcdsaSign edgeEcdsaKeygen (List.replicate 32 0)) = false ∧
    (edgeKeyMgmtSign (edgeKeyMgmtGenerateKeypair edgeKeyMgmtInit .eccP256).1 0
        (List.replicate 32 0)).map
      (edgeKeyMgmtVerify (edgeKeyMgmtGenerateKeypair edgeKeyMgmtInit .eccP256).1 0
        (List.replicate 32 0)) = some false ∧
    psaVerify (psaKeyGenerate psaCertifiedInit .eccP256) .ecdsaP256 (.replicate 32 0)
      (psaSign (psaKeyGenerate psaCertifiedInit .eccP256) .ecdsaP256 (.replicate 32 0)) =
        false := by
  decide +kernel

end Edge

end MiniIotRobotEdge

import Mathlib.Tactic.SplitIfs
import MiniIotRobotEdge.EdgeCrypto

/-!
# The attestation of a device

The model of the token and of the challenge in `device_attest.c`.  The token is
the string of its first `token_len` bytes, and a buffer is as long as its length
argument.  A token is validated by its label only; a response to a challenge is
masked with another constant than the one it is compared with.
-/

namespace MiniIotRobotEdge

namespace Edge

inductive AttestState
  | none
  | challengeSent
  | responseReady
  | verified
  | rejected
  deriving DecidableEq, Repr

structure DeviceIdentity where
  deviceId : Vector UInt8 32
  deviceKey : Vector UInt8 32

structure DeviceAttestCtx where
  identity : DeviceIdentity
  fwHash : Vector UInt8 32
  secureBootOk : Bool
  fwVersion : UInt32
  nonce : Vector UInt8 32
  state : AttestState
  token : Bytes

def deviceAttestInit : DeviceAttestCtx where
  identity := ⟨.replicate _ 0, .replicate _ 0⟩
  fwHash := .replicate _ 0
  secureBootOk := true
  fwVersion := 0
  nonce := .replicate _ 0
  state := .none
  token := []

def attestEcdsaSign (privkey : Vector UInt8 32) (hash : Bytes) : Bytes :=
  (List.range 64).map fun i =>
    byteAt hash (i % 32) ^^^ arrayAt privkey (i % 32) ^^^ 0x53 ^^^ UInt8.ofNat (i * 0x11)

def attestHmac (key msg : Bytes) : Vector UInt8 32 :=
  arrayOf _ fun i => byteAt msg (i % msg.length) ^^^ byteAt key (i % key.length) ^^^ 0x36 ^^^ 0x5C

/-- The letters "ATTEST". -/
def attestLabel : Bytes := [0x41, 0x54, 0x54, 0x45, 0x53, 0x54]

/-- The part of the token before the signature. -/
def DeviceAttestCtx.tokenBody (ctx : DeviceAttestCtx) : Bytes :=
  attestLabel ++ ctx.identity.deviceId.toList ++ ctx.fwHash.toList ++
    [if ctx.secureBootOk then 1 else 0, (ctx.fwVersion &&& 0xFF).toUInt8,
      ((ctx.fwVersion >>> 8) &&& 0xFF).toUInt8]

def deviceAttestTokenGenerate (ctx : DeviceAttestCtx) : DeviceAttestCtx :=
  { ctx with
    token := ctx.tokenBody ++ attestEcdsaSign ctx.identity.deviceKey ctx.tokenBody
    state := .responseReady }

def deviceAttestChallenge (ctx : DeviceAttestCtx) (challenge : Bytes) : DeviceAttestCtx :=
  { ctx with
    nonce := arrayOf _ fun i =>
      if i < challenge.length then byteAt challenge i else arrayAt ctx.nonce i
    state := .challengeSent }

def deviceAttestSignChallenge (ctx : DeviceAttestCtx) : Bytes :=
  attestEcdsaSign ctx.identity.deviceKey (ctx.nonce.toList ++ ctx.identity.deviceId.toList)

/-- The byte that a response is compared with. -/
def expectedResponse (ctx : DeviceAttestCtx) (i : Nat) : UInt8 :=
  arrayAt (attestHmac ctx.identity.deviceKey.toList ctx.nonce.toList) i ^^^ UInt8.ofNat (i * 0x11)

def deviceAttestVerifyCloud (ctx : DeviceAttestCtx) (response : Bytes) : DeviceAttestCtx × Bool :=
  if (List.range 32).all fun i => expectedResponse ctx i = byteAt response i then
    ({ ctx with state := .verified }, true)
  else (ctx, false)

def deviceAttestValidateToken (_ctx : DeviceAttestCtx) (token : Bytes) : Bool :=
  if token.length < 6 then false
  else if token.take 6 ≠ attestLabel then false
  else true

/-- The string keeps the signature of the token and differs from it in a byte
behind the label and before the signature. -/
structure TamperedToken (token tampered : Bytes) : Prop where
  kept : (tampered.drop 73).take 64 = token.drop 73
  differs : ∃ i, 6 ≤ i ∧ i < 73 ∧ byteAt tampered i ≠ byteAt token i

section Tokens

variable (ctx : DeviceAttestCtx)

@[simp]
theorem length_tokenBody : ctx.tokenBody.length = 73 := by
  simp [DeviceAttestCtx.tokenBody, attestLabel]

@[simp]
theorem length_attestEcdsaSign (privkey : Vector UInt8 32) (hash : Bytes) :
    (attestEcdsaSign privkey hash).length = 64 := by
  simp [attestEcdsaSign]

theorem take_token : (deviceAttestTokenGenerate ctx).token.take 6 = attestLabel := by
  simp [deviceAttestTokenGenerate, DeviceAttestCtx.tokenBody, attestLabel]

theorem validateToken_iff (token : Bytes) :
    deviceAttestValidateToken ctx token = true ↔ token.take 6 = attestLabel := by
  unfold deviceAttestValidateToken
  split_ifs with short other
  · have unequal : token.take 6 ≠ attestLabel := by
      intro equal
      have lengths := congrArg List.length equal
      simp only [List.length_take, attestLabel, List.length_cons, List.length_nil] at lengths
      omega
    simp [unequal]
  · simp [other]
  · simpa using other

end Tokens

section Challenges

variable (ctx : DeviceAttestCtx) {i : Nat}

/-- Every byte of the response is off by one constant: 0x53 stands where 0x36
and 0x5C are expected. -/
theorem response_byte (inside : i < 32) :
    byteAt (deviceAttestSignChallenge ctx) i = expectedResponse ctx i ^^^ 0x39 := by
  have response : byteAt (deviceAttestSignChallenge ctx) i =
      arrayAt ctx.nonce i ^^^ arrayAt ctx.identity.deviceKey i ^^^ 0x53 ^^^
        UInt8.ofNat (i * 0x11) := by
    simp [deviceAttestSignChallenge, attestEcdsaSign, byteAt, arrayAt, List.getElem?_append,
      inside, Nat.mod_eq_of_lt inside, (by omega : i < 64)]
  have expected : expectedResponse ctx i =
      arrayAt ctx.nonce i ^^^ arrayAt ctx.identity.deviceKey i ^^^ 0x36 ^^^ 0x5C ^^^
        UInt8.ofNat (i * 0x11) := by
    rw [expectedResponse, attestHmac, arrayAt_arrayOf _ inside, Vector.length_toList,
      Vector.length_toList, Nat.mod_eq_of_lt inside]
    rfl
  have masks : (0x53 : UInt8) = 0x36 ^^^ 0x5C ^^^ 0x39 := by decide
  rw [response, expected, masks]
  ac_rfl

theorem response_rejected :
    (deviceAttestVerifyCloud ctx (deviceAttestSignChallenge ctx)).2 = false := by
  have wrong : ¬(List.range 32).all fun i =>
      expectedResponse ctx i = byteAt (deviceAttestSignChallenge ctx) i := by
    intro all
    have first := List.all_eq_true.mp all 0 (by decide)
    rw [response_byte ctx (by decide), decide_eq_true_eq] at first
    have zero : (0x39 : UInt8) = 0 := by
      rw [← UInt8.xor_right_inj (expectedResponse ctx 0), ← first, UInt8.xor_zero]
    exact absurd zero (by decide)
  rw [deviceAttestVerifyCloud, if_neg wrong]

end Challenges

/-- A token is accepted, and a tampered one rejected only where its label is
gone; no response to a challenge is accepted. -/
theorem attestation_accepted_iff (ctx : DeviceAttestCtx) (tampered challenge : Bytes) :
    deviceAttestValidateToken (deviceAttestTokenGenerate ctx)
        (deviceAttestTokenGenerate ctx).token = true ∧
      (TamperedToken (deviceAttestTokenGenerate ctx).token tampered →
        (deviceAttestValidateToken (deviceAttestTokenGenerate ctx) tampered = false ↔
          tampered.take 6 ≠ attestLabel)) ∧
      (deviceAttestVerifyCloud (deviceAttestChallenge ctx challenge)
        (deviceAttestSignChallenge (deviceAttestChallenge ctx challenge))).2 = false := by
  refine ⟨?_, ?_, response_rejected _⟩
  · rw [validateToken_iff, take_token]
  · intro _
    rw [← Bool.not_eq_true, validateToken_iff]

/-- The token of a fresh device with the flag of the secure boot turned off. -/
def tamperedToken : Bytes := (deviceAttestTokenGenerate deviceAttestInit).token.set 70 0

theorem tamperedToken_tampered :
    TamperedToken (deviceAttestTokenGenerate deviceAttestInit).token tamperedToken where
  kept := by decide +kernel
  differs := ⟨70, by decide, by decide, by decide +kernel⟩

theorem attestation_accepted_iff_flag :
    deviceAttestValidateToken (deviceAttestTokenGenerate deviceAttestInit) tamperedToken = false ↔
      tamperedToken.take 6 ≠ attestLabel :=
  (attestation_accepted_iff deviceAttestInit tamperedToken [0x40]).2.1 tamperedToken_tampered

theorem attestation_broken :
    TamperedToken (deviceAttestTokenGenerate deviceAttestInit).token tamperedToken ∧
      deviceAttestValidateToken (deviceAttestTokenGenerate deviceAttestInit) tamperedToken =
        true ∧
      (deviceAttestVerifyCloud (deviceAttestChallenge deviceAttestInit [0x40])
        (deviceAttestSignChallenge (deviceAttestChallenge deviceAttestInit [0x40]))).2 = false := by
  refine ⟨tamperedToken_tampered, ?_, ?_⟩
  · decide +kernel
  · decide +kernel

end Edge

end MiniIotRobotEdge

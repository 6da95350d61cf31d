import MiniIotRobotEdge.EdgeSecureBoot
import MiniIotRobotEdge.EdgeSignatures
import MiniIotRobotEdge.PrefixComparison

/-!
# Shortened authenticators in mini-edge-security

Debug authentication, the keyed hash of the PSA calls and the golden
measurement compare as many bytes as the caller says there are.
-/

namespace MiniIotRobotEdge

namespace Edge

open PrefixComparison

/-- The context with the two byte fields that authentication reads. -/
structure SecureBootAuthCtx extends SecureBootCtx where
  pubkeyHash : Vector UInt8 32
  bootState : Vector UInt8 32

section Model

/-- The byte that answers a byte of the challenge. -/
def debugExpected (ctx : SecureBootAuthCtx) (challenge : Bytes) (i : Nat) : UInt8 :=
  byteAt challenge i ^^^ 0xA5 ^^^ arrayAt ctx.pubkeyHash (i % 32)

/-- The state after the call, and the value it returns. -/
def secureBootDebugAuth (ctx : SecureBootAuthCtx) (challenge response : Bytes) (len : Int) :
    SecureBootAuthCtx × DebugAuthState :=
  if agrees 16 len (debugExpected ctx challenge) (byteAt response) then
    ({ ctx with debugState := .unlockedTemp }, .unlockedTemp)
  else (ctx, .locked)

def psaHmacExpected (slot : PSAKeySlot) (hash : Vector UInt8 32) (i : Nat) : UInt8 :=
  arrayAt hash i ^^^ arrayAt slot.keyData (i % slot.keyLen)

/-- `psa_verify` under `PSA_ALG_HMAC_SHA256`.  A key of length zero is divided
by at the first byte that is compared, and there is no result. -/
def psaVerifyHmac (slot : Option PSAKeySlot) (hash : Vector UInt8 32) (sig : Bytes)
    (sigLen : Int) : Option Bool :=
  match slot with
  | none => some false
  | some slot =>
      if slot.locked = false then some false
      else if slot.keyLen = 0 ∧ 0 < sigLen then none
      else some (agrees 32 sigLen (psaHmacExpected slot hash) (byteAt sig))

def secureBootVerifyGoldenMeasurement (ctx : SecureBootAuthCtx) (goldenPcr : Bytes)
    (pcrLen : Int) : Bool :=
  let cplen := if pcrLen < 32 then pcrLen else 32
  (List.range cplen.toNat).all fun i => arrayAt ctx.bootState i = byteAt goldenPcr i

end Model

section Spec

variable (ctx : SecureBootAuthCtx)

/-- Debugging is unlocked by the call: it says so, or the lock is gone. -/
def DebugUnlocks (challenge response : Bytes) (len : Int) : Prop :=
  (secureBootDebugAuth ctx challenge response len).2 ≠ .locked ∨
    (ctx.debugState = .locked ∧
      (secureBootDebugAuth ctx challenge response len).1.debugState ≠ .locked)

/-- Debugging is unlocked by the whole response alone. -/
def DebugNeedsResponse (challenge response : Bytes) (len : Int) : Prop :=
  DebugUnlocks ctx challenge response len →
    Complete 16 len (debugExpected ctx challenge) (byteAt response)

/-- A keyed hash is accepted as a whole alone. -/
def PsaNeedsSignature (slot : Option PSAKeySlot) (hash : Vector UInt8 32) (sig : Bytes)
    (sigLen : Int) : Prop :=
  psaVerifyHmac slot hash sig sigLen = some true →
    ∃ key, slot = some key ∧ Complete 32 sigLen (psaHmacExpected key hash) (byteAt sig)

/-- A measurement is accepted as a whole alone. -/
def GoldenNeedsMeasurement (goldenPcr : Bytes) (pcrLen : Int) : Prop :=
  secureBootVerifyGoldenMeasurement ctx goldenPcr pcrLen = true →
    Complete 32 pcrLen (arrayAt ctx.bootState) (byteAt goldenPcr)

/-- The key cannot accept, or the signature is not a proper prefix. -/
def PsaRefusesPrefix (slot : Option PSAKeySlot) (hash : Vector UInt8 32) (sig : Bytes)
    (sigLen : Int) : Prop :=
  ∀ key, slot = some key → key.locked = false ∨ (key.keyLen = 0 ∧ 0 < sigLen) ∨
    32 ≤ sigLen ∨ Differs 32 sigLen (psaHmacExpected key hash) (byteAt sig)

end Spec

/-- The lengths of the arrays in the C code are the lengths of the lists. -/
theorem psaVerifyHmac_eq_psaVerify (slot : PSAKeySlot) (hash : Vector UInt8 32) (sig : Bytes)
    (divisible : 0 < slot.keyLen) :
    psaVerifyHmac (some slot) hash sig sig.length =
      some (psaVerify slot .hmacSha256 hash sig) := by
  have nonzero : slot.keyLen ≠ 0 := by omega
  by_cases locked : slot.locked = false
  · simp [psaVerifyHmac, psaVerify, locked]
  · simp [psaVerifyHmac, psaVerify, locked, nonzero, agrees, psaHmacExpected]

section Debug

variable (ctx : SecureBootAuthCtx) (challenge response : Bytes) (len : Int)

theorem debugUnlocks_iff : DebugUnlocks ctx challenge response len ↔
    agrees 16 len (debugExpected ctx challenge) (byteAt response) = true := by
  rw [DebugUnlocks, secureBootDebugAuth]
  split_ifs with agreed
  · simp [agreed]
  · simp [agreed]

/-- A response that is refused changes nothing. -/
theorem debugAuth_of_refused
    (refused : agrees 16 len (debugExpected ctx challenge) (byteAt response) = false) :
    secureBootDebugAuth ctx challenge response len = (ctx, .locked) := by
  simp [secureBootDebugAuth, refused]

theorem debugNeedsResponse_iff : DebugNeedsResponse ctx challenge response len ↔
    16 ≤ len ∨ Differs 16 len (debugExpected ctx challenge) (byteAt response) := by
  rw [DebugNeedsResponse, debugUnlocks_iff]
  exact needs_complete_iff 16 len (debugExpected ctx challenge) (byteAt response)

end Debug

theorem psaVerifyHmac_accepts_iff (slot : PSAKeySlot) (hash : Vector UInt8 32) (sig : Bytes)
    (sigLen : Int) : psaVerifyHmac (some slot) hash sig sigLen = some true ↔
      slot.locked = true ∧ ¬ (slot.keyLen = 0 ∧ 0 < sigLen) ∧
        agrees 32 sigLen (psaHmacExpected slot hash) (byteAt sig) = true := by
  simp only [psaVerifyHmac]
  split_ifs with unlocked divided
  · simp [unlocked]
  · simp [divided]
  · simp [unlocked, divided]

theorem psaNeedsSignature_iff (slot : Option PSAKeySlot) (hash : Vector UInt8 32) (sig : Bytes)
    (sigLen : Int) :
    PsaNeedsSignature slot hash sig sigLen ↔ PsaRefusesPrefix slot hash sig sigLen := by
  cases slot with
  | none => simp [PsaNeedsSignature, PsaRefusesPrefix, psaVerifyHmac]
  | some key =>
      have needs := needs_complete_iff 32 sigLen (psaHmacExpected key hash) (byteAt sig)
      simp only [PsaNeedsSignature, PsaRefusesPrefix, psaVerifyHmac_accepts_iff, Option.some.injEq,
        forall_eq', exists_eq_left']
      by_cases locked : key.locked = true
      · by_cases divided : key.keyLen = 0 ∧ 0 < sigLen
        · simp [divided]
        · simpa [locked, divided] using needs
      · simp [locked]

section Golden

variable (ctx : SecureBootAuthCtx) (goldenPcr : Bytes) (pcrLen : Int)

/-- The loop runs to the lesser of the two lengths. -/
theorem goldenMeasurement_eq_agrees : secureBootVerifyGoldenMeasurement ctx goldenPcr pcrLen =
    agrees 32 pcrLen (arrayAt ctx.bootState) (byteAt goldenPcr) := by
  rw [Bool.eq_iff_iff, agrees_iff]
  simp only [secureBootVerifyGoldenMeasurement, List.all_eq_true, List.mem_range,
    decide_eq_true_eq]
  constructor
  · intro agreed i inside within
    exact (agreed i (by split_ifs <;> omega)).symm
  · intro agreed i inside
    exact (agreed i (by split_ifs at inside <;> omega) (by split_ifs at inside <;> omega)).symm

theorem goldenNeedsMeasurement_iff : GoldenNeedsMeasurement ctx goldenPcr pcrLen ↔
    32 ≤ pcrLen ∨ Differs 32 pcrLen (arrayAt ctx.bootState) (byteAt goldenPcr) := by
  rw [GoldenNeedsMeasurement, goldenMeasurement_eq_agrees]
  exact needs_complete_iff 32 pcrLen (arrayAt ctx.bootState) (byteAt goldenPcr)

end Golden

/-- Each of the three calls needs the whole authenticator exactly when it gets
the full length, or refuses what it gets. -/
theorem authenticators_complete_iff (ctx : SecureBootAuthCtx) (challenge response : Bytes)
    (slot : Option PSAKeySlot) (hash : Vector UInt8 32) (sig goldenPcr : Bytes)
    (len sigLen pcrLen : Int) :
    (DebugNeedsResponse ctx challenge response len ↔
      16 ≤ len ∨ Differs 16 len (debugExpected ctx challenge) (byteAt response)) ∧
    (PsaNeedsSignature slot hash sig sigLen ↔ PsaRefusesPrefix slot hash sig sigLen) ∧
    (GoldenNeedsMeasurement ctx goldenPcr pcrLen ↔
      32 ≤ pcrLen ∨ Differs 32 pcrLen (arrayAt ctx.bootState) (byteAt goldenPcr)) :=
  ⟨debugNeedsResponse_iff ctx challenge response len,
    psaNeedsSignature_iff slot hash sig sigLen,
    goldenNeedsMeasurement_iff ctx goldenPcr pcrLen⟩

/-- Nothing at all is accepted by all three. -/
theorem empty_authenticators_accepted :
    let ctx : SecureBootAuthCtx :=
      { secureBootInit with pubkeyHash := .replicate 32 0, bootState := .replicate 32 0 }
    let slot := psaKeyGenerate psaCertifiedInit .hmac256
    ¬ DebugNeedsResponse ctx (List.replicate 16 0x5A) [] 0 ∧
    ¬ PsaNeedsSignature (some slot) (.replicate 32 0) [] 0 ∧
    ¬ GoldenNeedsMeasurement ctx [] 0 := by
  simp only [DebugNeedsResponse, PsaNeedsSignature, GoldenNeedsMeasurement, DebugUnlocks]
  decide +kernel

end Edge

end MiniIotRobotEdge

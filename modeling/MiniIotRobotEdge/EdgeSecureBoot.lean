import Mathlib.Tactic.SplitIfs
import MiniIotRobotEdge.EdgeCrypto
import MiniIotRobotEdge.Sha256
import MiniIotRobotEdge.StepRuns

/-!
# The boot stages of mini-edge-security

The model of the verification calls in `secure_boot_mcu.c`, with the hash they
compare.  The hash is SHA-256 in outline only, with other rotations, constants
and padding.  A trusted run goes up one stage at a time, from the stage it is
in, and stops at the first failure.
-/

namespace MiniIotRobotEdge

namespace Edge

open PackedBytes StepRuns

inductive BootStage
  | rom
  | spl
  | uboot
  | kernel
  | app
  deriving DecidableEq, Repr

/-- The value of the enumerator. -/
def BootStage.index : BootStage → Nat
  | .rom => 0
  | .spl => 1
  | .uboot => 2
  | .kernel => 3
  | .app => 4

inductive BootError
  | ok
  | errSig
  | errHash
  | errVersion
  | errOtp
  | errLocked
  | errRollback
  | errDebug
  deriving DecidableEq, Repr

inductive BootFailPolicy
  | failStop
  | failRecover
  | failReport
  | failDebug
  deriving DecidableEq, Repr

inductive DebugAuthState
  | locked
  | unlockedTemp
  | unlockedPerm
  deriving DecidableEq, Repr

structure SecureBootCtx where
  romHash : Bytes
  secureBootEnabled : Bool
  policy : BootFailPolicy
  debugState : DebugAuthState
  currentStage : BootStage
  minVersion : Vector UInt32 4
  lastError : BootError

/-- The fields of an image that are verified; the payload is as long as need be. -/
structure SignedImage where
  magic : Vector UInt8 4
  version : UInt32
  imageSize : UInt32
  loadAddr : UInt32
  entryPoint : UInt32
  imageHash : Vector UInt8 32
  pubkeyHash : Vector UInt8 32
  rollbackCtr : UInt32
  payload : Bytes

section Hash

def bootRoundConstants : List (BitVec 32) :=
  (List.range 48).foldl (fun k i => k ++ [(k.getD i 0 ^^^ k.getD (i + 1) 0).rotateLeft 1])
    ((List.range 16).map fun i => 0x428a2f98#32 + BitVec.ofNat 32 i * 0x11111111#32)

/-- The first sixteen words of a chunk of a message of `len` bytes.  Bytes
behind the last whole word are dropped; the byte 0x80 is written into the
word in host order. -/
def bootWords (len : Nat) (chunk : Bytes) : List (BitVec 32) :=
  (List.range 16).map fun i =>
    if chunk.length < 64 ∧ i = 14 then BitVec.ofNat 32 (len * 8 / 2 ^ 32)
    else if chunk.length < 64 ∧ i = 15 then BitVec.ofNat 32 (len * 8)
    else if i < chunk.length / 4 then
      Sha256.word (byteAt chunk (4 * i)) (byteAt chunk (4 * i + 1)) (byteAt chunk (4 * i + 2))
        (byteAt chunk (4 * i + 3))
    else if chunk.length < 64 ∧ i = chunk.length / 4 then 0x80#32 <<< (8 * (chunk.length % 4))
    else 0

def bootSchedule (words : List (BitVec 32)) : List (BitVec 32) :=
  (List.range 48).foldl (fun w i =>
    let early := w.getD (i + 1) 0
    let late := w.getD (i + 14) 0
    let s0 := early.rotateLeft 7 ^^^ early.rotateLeft 18 ^^^ (early >>> 3)
    let s1 := late.rotateLeft 17 ^^^ late.rotateLeft 19 ^^^ (late >>> 10)
    w ++ [w.getD i 0 + s0 + w.getD (i + 9) 0 + s1]) words

def bootRound (s : Sha256.State) (input : BitVec 32 × BitVec 32) : Sha256.State :=
  let s1 := s.e.rotateLeft 6 ^^^ s.e.rotateLeft 11 ^^^ s.e.rotateLeft 25
  let ch := (s.e &&& s.f) ^^^ (~~~s.e &&& s.g)
  let t1 := s.h + s1 + ch + input.1 + input.2
  let s0 := s.a.rotateLeft 2 ^^^ s.a.rotateLeft 13 ^^^ s.a.rotateLeft 22
  let maj := (s.a &&& s.b) ^^^ (s.a &&& s.c) ^^^ (s.b &&& s.c)
  { a := t1 + (s0 + maj), b := s.a, c := s.b, d := s.c
    e := s.d + t1, f := s.e, g := s.f, h := s.g }

def bootBlock (h : Sha256.State) (words : List (BitVec 32)) : Sha256.State :=
  let last := (bootRoundConstants.zip (bootSchedule words)).foldl bootRound h
  { a := h.a + last.a, b := h.b + last.b, c := h.c + last.c, d := h.d + last.d
    e := h.e + last.e, f := h.f + last.f, g := h.g + last.g, h := h.h + last.h }

/-- `boot_hash256`: the loop ends with the first chunk that is not full. -/
def bootHash256 (data : Bytes) : Bytes :=
  ((List.range (data.length / 64 + 1)).foldl (fun h i =>
    bootBlock h (bootWords data.length ((data.drop (64 * i)).take 64))) Sha256.initial).bytes

end Hash

def romFixedHash : Bytes :=
  [0xe3, 0xb0, 0xc4, 0x42, 0x98, 0xfc, 0x1c, 0x14, 0x9a, 0xfb, 0xf4, 0xc8, 0x99, 0x6f, 0xb9, 0x24,
   0x27, 0xae, 0x41, 0xe4, 0x64, 0x9b, 0x93, 0x4c, 0xa4, 0x95, 0x99, 0x1b, 0x78, 0x52, 0xb8, 0x55]

def secureBootInit : SecureBootCtx where
  romHash := romFixedHash
  secureBootEnabled := true
  policy := .failStop
  debugState := .locked
  currentStage := .rom
  minVersion := .replicate 4 1
  lastError := .ok

def SecureBootCtx.failed (ctx : SecureBootCtx) (error : BootError) : SecureBootCtx × BootError :=
  ({ ctx with lastError := error }, error)

/-- The first four bytes of the hash are those in the ROM. -/
def SecureBootCtx.RomHashMatches (ctx : SecureBootCtx) (image : Bytes) : Prop :=
  (bootHash256 image).take 4 = ctx.romHash.take 4

instance (ctx : SecureBootCtx) (image : Bytes) : Decidable (ctx.RomHashMatches image) :=
  inferInstanceAs (Decidable (_ = _))

/-- The first eight bytes count up from 0xCD. -/
def KernelHashMatches (image : Bytes) : Prop :=
  (bootHash256 image).take 8 = (List.range 8).map fun i => UInt8.ofNat (0xCD + i)

instance (image : Bytes) : Decidable (KernelHashMatches image) :=
  inferInstanceAs (Decidable (_ = _))

def secureBootRomVerify (ctx : SecureBootCtx) (spl : Bytes) : SecureBootCtx × BootError :=
  if ¬ctx.RomHashMatches spl then ctx.failed .errSig
  else ({ ctx with currentStage := .spl }, .ok)

def secureBootChainVerify (ctx : SecureBootCtx) (origin target : BootStage) (image : Bytes) :
    SecureBootCtx × BootError :=
  if target.index ≤ origin.index then (ctx, .errHash)
  else if target = .kernel ∧ ¬KernelHashMatches image then ctx.failed .errHash
  else if ctx.debugState = .locked ∧ ctx.RomHashMatches image then ctx.failed .errLocked
  else ({ ctx with currentStage := target }, .ok)

/-- The least version for the stage.  There is none for the last stage: what
the source reads there, behind the array, is left open. -/
def SecureBootCtx.minVersionAt (ctx : SecureBootCtx) (behind : SecureBootCtx → UInt32) : UInt32 :=
  if inside : ctx.currentStage.index < 4 then ctx.minVersion[ctx.currentStage.index]
  else behind ctx

def secureBootCheckRollback (ctx : SecureBootCtx) (behind : SecureBootCtx → UInt32)
    (version : UInt32) : Bool :=
  ctx.minVersionAt behind ≤ version

/-- The first 64 bytes of the header. -/
def SignedImage.headerBytes (img : SignedImage) : Bytes :=
  img.magic.toList ++ littleEndian 4 img.version.toNat ++ littleEndian 4 img.imageSize.toNat ++
    littleEndian 4 img.loadAddr.toNat ++ littleEndian 4 img.entryPoint.toNat ++
    img.imageHash.toList ++ img.pubkeyHash.toList.take 12

/-- The hash of header and payload.  The length is a signed number: where it
is negative there is no round. -/
def SignedImage.digest (img : SignedImage) : Bytes :=
  if 2 ^ 31 ≤ (64 + img.imageSize.toNat) % 2 ^ 32 then Sha256.initial.bytes
  else bootHash256 ((img.headerBytes ++ img.payload).take ((64 + img.imageSize.toNat) % 2 ^ 32))

def secureBootVerifyImage (behind : SecureBootCtx → UInt32) (ctx : SecureBootCtx)
    (img : SignedImage) : SecureBootCtx × BootError :=
  if img.magic.toList ≠ [0x53, 0x42, 0x4F, 0x54] then ctx.failed .errHash
  else if secureBootCheckRollback ctx behind img.rollbackCtr = false then (ctx, .errRollback)
  else if img.digest.take 16 ≠ img.imageHash.toList.take 16 then ctx.failed .errSig
  else (ctx, .ok)

def secureBootLockDebug (ctx : SecureBootCtx) : SecureBootCtx := { ctx with debugState := .locked }

def secureBootEnforcePolicy (ctx : SecureBootCtx) (error : BootError) :
    SecureBootCtx × BootError :=
  match ctx.policy with
  | .failStop => ({ ctx with secureBootEnabled := false, lastError := error }, error)
  | .failRecover =>
      (if error ≠ .errRollback then { ctx with lastError := error } else ctx, .ok)
  | .failReport => ({ ctx with lastError := error }, .ok)
  | .failDebug =>
      if ctx.debugState = .unlockedTemp ∨ ctx.debugState = .unlockedPerm then (ctx, .ok)
      else ctx.failed error

inductive BootCall
  | romVerify (spl : Bytes)
  | chainVerify (origin target : BootStage) (image : Bytes)
  | verifyImage (img : SignedImage)
  | enforcePolicy (error : BootError)
  | lockDebug

/-- The stage that a call verifies from. -/
def BootCall.origin : BootCall → Option BootStage
  | .romVerify _ => some .rom
  | .chainVerify origin _ _ => some origin
  | _ => none

section Runs

variable (behind : SecureBootCtx → UInt32)

/-- A call with its result; locking returns nothing. -/
def bootCall (ctx : SecureBootCtx) : BootCall → SecureBootCtx × BootError
  | .romVerify spl => secureBootRomVerify ctx spl
  | .chainVerify origin target image => secureBootChainVerify ctx origin target image
  | .verifyImage img => secureBootVerifyImage behind ctx img
  | .enforcePolicy error => secureBootEnforcePolicy ctx error
  | .lockDebug => (secureBootLockDebug ctx, .ok)

/-- The context, and whether a call has failed under `BOOT_POLICY_FAIL_STOP`. -/
structure BootRun where
  ctx : SecureBootCtx
  stopped : Bool

def BootRun.initial : BootRun := ⟨secureBootInit, false⟩

def bootStep (run : BootRun) (call : BootCall) : BootRun where
  ctx := (bootCall behind run.ctx call).1
  stopped := run.stopped ||
    (run.ctx.policy = .failStop ∧ (bootCall behind run.ctx call).2 ≠ .ok)

/-- The stage goes up by one, from the stage that was verified, in a call that
succeeds before any failure; and no failure turns the secure boot off. -/
structure BootStepTrusted (run : BootRun) (call : BootCall) : Prop where
  advance : (bootStep behind run call).ctx.currentStage ≠ run.ctx.currentStage →
    (bootStep behind run call).ctx.currentStage.index = run.ctx.currentStage.index + 1 ∧
      (bootCall behind run.ctx call).2 = .ok ∧ call.origin = some run.ctx.currentStage ∧
      run.stopped = false
  enabled : run.ctx.secureBootEnabled = true → (bootCall behind run.ctx call).2 ≠ .ok →
    (bootStep behind run call).ctx.secureBootEnabled = true

/-- The image is one that `secure_boot_chain_verify` takes for the next stage. -/
def ChainAccepts (ctx : SecureBootCtx) (origin target : BootStage) (image : Bytes) : Prop :=
  origin.index < target.index ∧ (target = .kernel → KernelHashMatches image) ∧
    ¬(ctx.debugState = .locked ∧ ctx.RomHashMatches image)

/-- An accepted image is for the stage reached already, or for the next one,
verified from the present one before any failure; and the policy is not
enforced on an error. -/
def BootCallOrdered (run : BootRun) : BootCall → Prop
  | .romVerify spl =>
      run.ctx.RomHashMatches spl →
        run.ctx.currentStage = .spl ∨ run.ctx.currentStage = .rom ∧ run.stopped = false
  | .chainVerify origin target image =>
      ChainAccepts run.ctx origin target image →
        target = run.ctx.currentStage ∨
          origin = run.ctx.currentStage ∧ target.index = run.ctx.currentStage.index + 1 ∧
            run.stopped = false
  | .enforcePolicy error => error = .ok ∨ run.ctx.secureBootEnabled = false
  | _ => True

variable {behind} {run : BootRun} {call : BootCall}

theorem bootStep_ctx : (bootStep behind run call).ctx = (bootCall behind run.ctx call).1 := rfl

/-- A call that keeps the stage and the flag is trusted. -/
theorem trusted_of_kept
    (stage : (bootCall behind run.ctx call).1.currentStage = run.ctx.currentStage)
    (flag : (bootCall behind run.ctx call).1.secureBootEnabled = run.ctx.secureBootEnabled) :
    BootStepTrusted behind run call where
  advance := fun changed => absurd stage changed
  enabled := by
    intro enabled _
    rw [bootStep_ctx, flag, enabled]

/-- What makes a call trusted that succeeds and sets the stage. -/
theorem trusted_iff_of_moved {origin target : BootStage} (comesFrom : call.origin = some origin)
    (moved : bootCall behind run.ctx call = ({ run.ctx with currentStage := target }, .ok)) :
    BootStepTrusted behind run call ↔
      target = run.ctx.currentStage ∨
        origin = run.ctx.currentStage ∧ target.index = run.ctx.currentStage.index + 1 ∧
          run.stopped = false := by
  constructor
  · intro trusted
    have advance := trusted.advance
    rw [bootStep_ctx, moved] at advance
    by_cases reached : target = run.ctx.currentStage
    · exact .inl reached
    · obtain ⟨next, _, named, going⟩ := advance reached
      exact .inr ⟨Option.some.inj (comesFrom.symm.trans named), next, going⟩
  · intro ordered
    refine ⟨fun changed => ?_, fun _ failed => ?_⟩
    · rw [bootStep_ctx, moved] at changed ⊢
      rcases ordered with reached | ⟨here, next, going⟩
      · exact absurd reached changed
      · exact ⟨next, rfl, by rw [comesFrom, here], going⟩
    · rw [moved] at failed
      contradiction

theorem romVerify_iff (spl : Bytes) :
    BootStepTrusted behind run (.romVerify spl) ↔ BootCallOrdered run (.romVerify spl) := by
  by_cases accepted : run.ctx.RomHashMatches spl
  · have moved : bootCall behind run.ctx (.romVerify spl) =
        ({ run.ctx with currentStage := .spl }, .ok) := by
      rw [bootCall, secureBootRomVerify, if_neg (not_not.mpr accepted)]
    rw [trusted_iff_of_moved rfl moved]
    simp only [BootCallOrdered, accepted, true_imp_iff]
    constructor
    · rintro (reached | ⟨rom, _, going⟩)
      · exact .inl reached.symm
      · exact .inr ⟨rom.symm, going⟩
    · rintro (reached | ⟨rom, going⟩)
      · exact .inl reached.symm
      · exact .inr ⟨rom.symm, by rw [rom]; rfl, going⟩
  · have refused : bootCall behind run.ctx (.romVerify spl) = run.ctx.failed .errSig := by
      rw [bootCall, secureBootRomVerify, if_pos accepted]
    have kept : BootStepTrusted behind run (.romVerify spl) :=
      trusted_of_kept (by rw [refused]; rfl) (by rw [refused]; rfl)
    exact ⟨fun _ matched => absurd matched accepted, fun _ => kept⟩

theorem chainVerify_iff (origin target : BootStage) (image : Bytes) :
    BootStepTrusted behind run (.chainVerify origin target image) ↔
      BootCallOrdered run (.chainVerify origin target image) := by
  by_cases accepted : ChainAccepts run.ctx origin target image
  · have moved : bootCall behind run.ctx (.chainVerify origin target image) =
        ({ run.ctx with currentStage := target }, .ok) := by
      obtain ⟨upwards, kernel, other⟩ := accepted
      have kernelMatches : ¬(target = .kernel ∧ ¬KernelHashMatches image) :=
        fun wrong => wrong.2 (kernel wrong.1)
      rw [bootCall, secureBootChainVerify, if_neg (by omega), if_neg kernelMatches, if_neg other]
    rw [trusted_iff_of_moved rfl moved]
    simp only [BootCallOrdered, accepted, true_imp_iff]
  · have refused : (bootCall behind run.ctx (.chainVerify origin target image)).1 =
          { run.ctx with
            lastError := (bootCall behind run.ctx (.chainVerify origin target image)).1.lastError
            } := by
      simp only [bootCall, secureBootChainVerify]
      split_ifs with downwards kernel rom
      · rfl
      · rfl
      · rfl
      · refine absurd ⟨by omega, fun isKernel => ?_, rom⟩ accepted
        exact not_not.mp fun wrong => kernel ⟨isKernel, wrong⟩
    have kept : BootStepTrusted behind run (.chainVerify origin target image) :=
      trusted_of_kept (by rw [refused]) (by rw [refused])
    exact ⟨fun _ accepts => absurd accepts accepted, fun _ => kept⟩

theorem verifyImage_trusted (img : SignedImage) :
    BootStepTrusted behind run (.verifyImage img) := by
  apply trusted_of_kept
  · simp only [bootCall, secureBootVerifyImage]
    split_ifs <;> rfl
  · simp only [bootCall, secureBootVerifyImage]
    split_ifs <;> rfl

/-- The policy of a fresh context turns the secure boot off. -/
theorem enforcePolicy_iff (stop : run.ctx.policy = .failStop) (error : BootError) :
    BootStepTrusted behind run (.enforcePolicy error) ↔
      BootCallOrdered run (.enforcePolicy error) := by
  have result : bootCall behind run.ctx (.enforcePolicy error) =
      ({ run.ctx with secureBootEnabled := false, lastError := error }, error) := by
    simp [bootCall, secureBootEnforcePolicy, stop]
  constructor
  · intro trusted
    by_cases fine : error = .ok
    · exact .inl fine
    · refine .inr ?_
      rw [← Bool.not_eq_true]
      intro enabled
      have still := trusted.enabled enabled (by rwa [result])
      rw [bootStep_ctx, result] at still
      contradiction
  · intro ordered
    refine ⟨fun changed => ?_, fun enabled failed => ?_⟩
    · rw [bootStep_ctx, result] at changed
      contradiction
    · rw [result] at failed
      rcases ordered with fine | disabled
      · exact absurd fine failed
      · rw [enabled] at disabled
        contradiction

theorem bootStep_trusted_iff (stop : run.ctx.policy = .failStop) :
    BootStepTrusted behind run call ↔ BootCallOrdered run call := by
  cases call with
  | romVerify spl => exact romVerify_iff spl
  | chainVerify origin target image => exact chainVerify_iff origin target image
  | verifyImage img => exact ⟨fun _ => trivial, fun _ => verifyImage_trusted img⟩
  | enforcePolicy error => exact enforcePolicy_iff stop error
  | lockDebug => exact ⟨fun _ => trivial, fun _ => trusted_of_kept rfl rfl⟩

/-- No call changes the policy. -/
theorem bootStep_policy : (bootStep behind run call).ctx.policy = run.ctx.policy := by
  rw [bootStep_ctx]
  cases call with
  | romVerify spl =>
      simp only [bootCall, secureBootRomVerify]
      split_ifs <;> rfl
  | chainVerify origin target image =>
      simp only [bootCall, secureBootChainVerify]
      split_ifs <;> rfl
  | verifyImage img =>
      simp only [bootCall, secureBootVerifyImage]
      split_ifs <;> rfl
  | enforcePolicy error =>
      simp only [bootCall, secureBootEnforcePolicy]
      split
      · rfl
      · dsimp only
        split_ifs <;> rfl
      · rfl
      · split_ifs <;> rfl
  | lockDebug => rfl

end Runs

/-- A run of the boot is trusted in every step exactly when every call is
ordered. -/
theorem secure_boot_trusted_iff (behind : SecureBootCtx → UInt32) (calls : List BootCall) :
    Throughout (bootStep behind) (BootStepTrusted behind) BootRun.initial calls ↔
      Throughout (bootStep behind) BootCallOrdered BootRun.initial calls := by
  have kept : ∀ (run : BootRun) (call : BootCall), run.ctx.policy = .failStop →
      BootStepTrusted behind run call → BootCallOrdered run call →
      (bootStep behind run call).ctx.policy = .failStop :=
    fun run call stop _ _ => bootStep_policy.trans stop
  exact throughout_iff kept (fun run call => bootStep_trusted_iff) rfl

/-- An image for U-Boot is taken in the ROM, and the stage between is left out. -/
theorem boot_stage_skipped :
    ¬∀ (behind : SecureBootCtx → UInt32) (calls : List BootCall),
      Throughout (bootStep behind) (BootStepTrusted behind) BootRun.initial calls := by
  intro trusted
  have advance := (trusted (fun _ => 0) [.chainVerify .rom .uboot []]).1.advance
  have accepted : secureBootChainVerify secureBootInit .rom .uboot [] =
      ({ secureBootInit with currentStage := .uboot }, .ok) := by
    have other : ¬secureBootInit.RomHashMatches [] := by decide +kernel
    simp [secureBootChainVerify, BootStage.index, other]
  have moved : (bootStep (fun _ => 0) BootRun.initial
      (.chainVerify .rom .uboot [])).ctx.currentStage = .uboot := by
    rw [bootStep_ctx, bootCall, BootRun.initial, accepted]
  rw [moved] at advance
  exact absurd (advance (by decide)).1 (by decide)

end Edge

end MiniIotRobotEdge

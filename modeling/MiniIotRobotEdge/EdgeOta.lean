import Mathlib.Data.UInt
import Mathlib.Tactic.ByContra
import Mathlib.Tactic.SplitIfs
import MiniIotRobotEdge.ByteMemory

/-!
# The over-the-air update of mini-edge-security

The model of the update operations of `edge_ota.c`.  The index of a bank is an
integer as in the source, and the array of banks a function of it; the receive
buffer is a memory from address 0 on.  Counters of 32 bits are natural numbers,
and the one addition that can wrap is taken modulo 2^32.
-/

namespace MiniIotRobotEdge

namespace Edge

def otaMaxChunk : Int := 256
def otaFlashBankSize : Nat := 65536
def otaMaxPayload : Nat := 64 * 1024
def otaDualBank : Int := 2

inductive OtaUpdateState
  | idle
  | checking
  | downloading
  | verifying
  | applying
  | committed
  | rolledBack
  | failed
  deriving DecidableEq, Repr

/-- `fw_hash`, of `OTA_FW_HASH_SIZE` bytes. -/
abbrev FirmwareHash := Vector UInt8 32

/-- `device_id`, of `OTA_DEV_ID_SIZE` bytes. -/
abbrev DeviceId := Vector UInt8 16

structure FirmwareBank where
  baseAddr : Nat
  size : Nat
  version : Nat
  active : Bool
  valid : Bool
  fwHash : FirmwareHash

/-- A bank after `memset`. -/
def FirmwareBank.cleared : FirmwareBank := ⟨0, 0, 0, false, false, .replicate 32 0⟩

/-- The fields of `OtaManifest` that the update reads. -/
structure OtaManifest where
  fwVersion : Nat
  fwSize : Nat
  fwHash : FirmwareHash
  deviceId : DeviceId
  minBootloaderVer : Nat

structure OtaUpdateCtx where
  deviceId : DeviceId
  banks : Int → FirmwareBank
  activeBank : Int
  currentVersion : Nat
  bytesReceived : Nat
  totalSize : Nat
  updateState : OtaUpdateState
  receiveBuffer : Memory
  currentManifest : OtaManifest
  manifestVerified : Bool
  retryCount : Nat
  maxRetries : Nat

/-- Write to `banks[bank]`. -/
def OtaUpdateCtx.changeBank (ctx : OtaUpdateCtx) (bank : Int)
    (change : FirmwareBank → FirmwareBank) : OtaUpdateCtx :=
  { ctx with banks := Function.update ctx.banks bank (change (ctx.banks bank)) }

def edgeOtaInit (deviceId : List UInt8) : OtaUpdateCtx where
  deviceId := .ofFn fun index => deviceId.getD index 0
  banks := fun bank =>
    if bank = 0 then ⟨0x08000000, otaFlashBankSize, 1, true, true, .replicate 32 0⟩
    else if bank = 1 then ⟨0x08010000, otaFlashBankSize, 0, false, false, .replicate 32 0⟩
    else .cleared
  activeBank := 0
  currentVersion := 1
  bytesReceived := 0
  totalSize := 0
  updateState := .idle
  receiveBuffer := fun _ => 0
  currentManifest := ⟨0, 0, .replicate 32 0, .replicate 16 0, 0⟩
  manifestVerified := false
  retryCount := 0
  maxRetries := 3

def edgeOtaManifestVerify (ctx : OtaUpdateCtx) (m : OtaManifest) : Bool :=
  if m.fwVersion ≤ ctx.currentVersion then false
  else if m.fwSize = 0 ∨ otaMaxPayload < m.fwSize then false
  else if m.deviceId ≠ ctx.deviceId then false
  else if 1 < m.minBootloaderVer then false
  else if m.fwHash = .replicate 32 0 then false
  else true

def OtaUpdateCtx.begun (ctx : OtaUpdateCtx) (m : OtaManifest) : OtaUpdateCtx :=
  { ctx with
    currentManifest := m, updateState := .downloading, bytesReceived := 0, totalSize := m.fwSize
    manifestVerified := true, retryCount := 0
    receiveBuffer := ctx.receiveBuffer.fill 0 otaMaxPayload 0 }

def edgeOtaBeginUpdate (ctx : OtaUpdateCtx) (m : OtaManifest) : OtaUpdateCtx × Bool :=
  if ctx.updateState ≠ .idle then (ctx, false)
  else if edgeOtaManifestVerify ctx m = false then (ctx, false)
  else (ctx.begun m, true)

/-- `ctx->bytes_received + len`, where the sign of `len` is lost. -/
def OtaUpdateCtx.receivedAfter (ctx : OtaUpdateCtx) (len : Int) : Nat :=
  (((ctx.bytesReceived : Int) + len) % 2 ^ 32).toNat

def OtaUpdateCtx.failed (ctx : OtaUpdateCtx) : OtaUpdateCtx :=
  { ctx with updateState := .failed }

def OtaUpdateCtx.received (ctx : OtaUpdateCtx) (chunk : Memory) (len : Int) : OtaUpdateCtx :=
  { ctx with
    receiveBuffer := ctx.receiveBuffer.writeBytes ctx.bytesReceived (chunk.bytes 0 len.toNat)
    bytesReceived := ctx.receivedAfter len
    updateState :=
      if ctx.totalSize ≤ ctx.receivedAfter len then .verifying else ctx.updateState }

/-- `edge_ota_receive_chunk` of the bytes at `chunk`. -/
def edgeOtaReceiveChunk (ctx : OtaUpdateCtx) (chunk : Memory) (len : Int) :
    OtaUpdateCtx × Bool :=
  if ctx.updateState ≠ .downloading then (ctx, false)
  else if otaMaxPayload < ctx.receivedAfter len then (ctx.failed, false)
  else if len ≤ 0 ∨ otaMaxChunk < len then (ctx, false)
  else (ctx.received chunk len, true)

/-- The hash that `edge_ota_verify_and_apply` computes in its two loops. -/
def rollingHash (bytes : List UInt8) : UInt32 :=
  bytes.foldl (fun hash byte => hash * 31 + byte.toUInt32) 0

def OtaUpdateCtx.applied (ctx : OtaUpdateCtx) : OtaUpdateCtx :=
  let written := ctx.changeBank (1 - ctx.activeBank) fun bank =>
    { bank with
      version := ctx.currentManifest.fwVersion, fwHash := ctx.currentManifest.fwHash
      valid := true, active := false }
  { written with updateState := .applying }

def edgeOtaVerifyAndApply (ctx : OtaUpdateCtx) : OtaUpdateCtx × Bool :=
  if ctx.updateState ≠ .verifying then (ctx, false)
  else if ctx.bytesReceived ≠ ctx.totalSize then (ctx.failed, false)
  else if rollingHash (ctx.receiveBuffer.bytes 0 ctx.bytesReceived) ≠
      rollingHash ctx.currentManifest.fwHash.toList then (ctx.failed, false)
  else (ctx.applied, true)

def OtaUpdateCtx.committed (ctx : OtaUpdateCtx) : OtaUpdateCtx :=
  let oldActive := ctx.activeBank
  let newActive := 1 - oldActive
  let swapped := (ctx.changeBank oldActive fun bank => { bank with active := false }).changeBank
    newActive fun bank => { bank with active := true }
  { swapped with
    activeBank := newActive, currentVersion := (swapped.banks newActive).version
    updateState := .committed }

def edgeOtaCommitUpdate (ctx : OtaUpdateCtx) : OtaUpdateCtx × Bool :=
  if ctx.updateState ≠ .applying then (ctx, false)
  else (ctx.committed, true)

def OtaUpdateCtx.rolledBack (ctx : OtaUpdateCtx) : OtaUpdateCtx :=
  let wiped := ctx.changeBank (1 - ctx.activeBank) fun _ => .cleared
  { wiped with updateState := .idle, bytesReceived := 0, manifestVerified := false }

def edgeOtaRollbackUpdate (ctx : OtaUpdateCtx) : OtaUpdateCtx × Bool :=
  if ctx.updateState = .idle ∨ ctx.updateState = .committed then (ctx, false)
  else (ctx.rolledBack, true)

def OtaUpdateCtx.repaired (ctx : OtaUpdateCtx) (srcBank dstBank : Int) : OtaUpdateCtx :=
  ctx.changeBank dstBank fun bank =>
    { bank with
      version := (ctx.banks srcBank).version, fwHash := (ctx.banks srcBank).fwHash
      valid := true }

def edgeOtaRepairCorruptedBank (ctx : OtaUpdateCtx) (srcBank dstBank : Int) : OtaUpdateCtx :=
  if srcBank < 0 ∨ otaDualBank ≤ srcBank then ctx
  else if dstBank < 0 ∨ otaDualBank ≤ dstBank then ctx
  else if (ctx.banks srcBank).valid = false then ctx
  else ctx.repaired srcBank dstBank

inductive EdgeOtaCall
  | beginUpdate (manifest : OtaManifest)
  | receiveChunk (chunk : Memory) (len : Int)
  | verifyAndApply
  | commitUpdate
  | rollbackUpdate
  | repairCorruptedBank (srcBank dstBank : Int)

/-- A call with its result; the repair returns nothing. -/
def edgeOtaCall (ctx : OtaUpdateCtx) : EdgeOtaCall → OtaUpdateCtx × Bool
  | .beginUpdate manifest => edgeOtaBeginUpdate ctx manifest
  | .receiveChunk chunk len => edgeOtaReceiveChunk ctx chunk len
  | .verifyAndApply => edgeOtaVerifyAndApply ctx
  | .commitUpdate => edgeOtaCommitUpdate ctx
  | .rollbackUpdate => edgeOtaRollbackUpdate ctx
  | .repairCorruptedBank srcBank dstBank =>
      (edgeOtaRepairCorruptedBank ctx srcBank dstBank, true)

def edgeOtaStep (ctx : OtaUpdateCtx) (call : EdgeOtaCall) : OtaUpdateCtx :=
  (edgeOtaCall ctx call).1

/-- Everything that a call can do, with its result. -/
inductive EdgeOtaMove (ctx : OtaUpdateCtx) : EdgeOtaCall → OtaUpdateCtx × Bool → Prop
  | refused (call : EdgeOtaCall) : EdgeOtaMove ctx call (ctx, false)
  | begun (m : OtaManifest) (idle : ctx.updateState = .idle)
      (verified : edgeOtaManifestVerify ctx m = true) :
      EdgeOtaMove ctx (.beginUpdate m) (ctx.begun m, true)
  | overflowed (chunk : Memory) (len : Int) (downloading : ctx.updateState = .downloading)
      (tooMuch : otaMaxPayload < ctx.receivedAfter len) :
      EdgeOtaMove ctx (.receiveChunk chunk len) (ctx.failed, false)
  | received (chunk : Memory) (len : Int) (downloading : ctx.updateState = .downloading)
      (fits : ctx.receivedAfter len ≤ otaMaxPayload) (positive : 0 < len)
      (short : len ≤ otaMaxChunk) :
      EdgeOtaMove ctx (.receiveChunk chunk len) (ctx.received chunk len, true)
  | mismatched (verifying : ctx.updateState = .verifying)
      (wrong : ctx.bytesReceived ≠ ctx.totalSize ∨
        rollingHash (ctx.receiveBuffer.bytes 0 ctx.bytesReceived) ≠
          rollingHash ctx.currentManifest.fwHash.toList) :
      EdgeOtaMove ctx .verifyAndApply (ctx.failed, false)
  | applied (verifying : ctx.updateState = .verifying)
      (whole : ctx.bytesReceived = ctx.totalSize)
      (hashed : rollingHash (ctx.receiveBuffer.bytes 0 ctx.bytesReceived) =
        rollingHash ctx.currentManifest.fwHash.toList) :
      EdgeOtaMove ctx .verifyAndApply (ctx.applied, true)
  | committed (applying : ctx.updateState = .applying) :
      EdgeOtaMove ctx .commitUpdate (ctx.committed, true)
  | rolledBack (underway : ¬(ctx.updateState = .idle ∨ ctx.updateState = .committed)) :
      EdgeOtaMove ctx .rollbackUpdate (ctx.rolledBack, true)
  | repairRefused (srcBank dstBank : Int) :
      EdgeOtaMove ctx (.repairCorruptedBank srcBank dstBank) (ctx, true)
  | repaired (srcBank dstBank : Int) (source : srcBank = 0 ∨ srcBank = 1)
      (destination : dstBank = 0 ∨ dstBank = 1) (valid : (ctx.banks srcBank).valid = true) :
      EdgeOtaMove ctx (.repairCorruptedBank srcBank dstBank) (ctx.repaired srcBank dstBank, true)

theorem newer_of_manifestVerify {ctx : OtaUpdateCtx} {m : OtaManifest}
    (verified : edgeOtaManifestVerify ctx m = true) : ctx.currentVersion < m.fwVersion := by
  by_contra older
  unfold edgeOtaManifestVerify at verified
  rw [if_pos (Nat.not_lt.mp older)] at verified
  contradiction

theorem edgeOtaCall_move (ctx : OtaUpdateCtx) (call : EdgeOtaCall) :
    EdgeOtaMove ctx call (edgeOtaCall ctx call) := by
  cases call with
  | beginUpdate m =>
      simp only [edgeOtaCall, edgeOtaBeginUpdate]
      split_ifs with busy rejected
      · exact .refused _
      · exact .refused _
      · exact .begun m (not_not.mp busy) (by simpa using rejected)
  | receiveChunk chunk len =>
      simp only [edgeOtaCall, edgeOtaReceiveChunk]
      split_ifs with elsewhere tooMuch badLength
      · exact .refused _
      · exact .overflowed chunk len (not_not.mp elsewhere) tooMuch
      · exact .refused _
      · exact .received chunk len (not_not.mp elsewhere) (by omega) (by omega) (by omega)
  | verifyAndApply =>
      simp only [edgeOtaCall, edgeOtaVerifyAndApply]
      split_ifs with elsewhere short wrong
      · exact .refused _
      · exact .mismatched (not_not.mp elsewhere) (.inl short)
      · exact .mismatched (not_not.mp elsewhere) (.inr wrong)
      · exact .applied (not_not.mp elsewhere) (not_not.mp short) (not_not.mp wrong)
  | commitUpdate =>
      simp only [edgeOtaCall, edgeOtaCommitUpdate]
      split_ifs with elsewhere
      · exact .refused _
      · exact .committed (not_not.mp elsewhere)
  | rollbackUpdate =>
      simp only [edgeOtaCall, edgeOtaRollbackUpdate]
      split_ifs with quiet
      · exact .refused _
      · exact .rolledBack quiet
  | repairCorruptedBank srcBank dstBank =>
      simp only [edgeOtaCall, edgeOtaRepairCorruptedBank]
      split_ifs with badSource badDestination invalid
      · exact .repairRefused srcBank dstBank
      · exact .repairRefused srcBank dstBank
      · exact .repairRefused srcBank dstBank
      · have source : srcBank = 0 ∨ srcBank = 1 := by
          unfold otaDualBank at badSource
          omega
        have destination : dstBank = 0 ∨ dstBank = 1 := by
          unfold otaDualBank at badDestination
          omega
        exact .repaired srcBank dstBank source destination (by simpa using invalid)

end Edge

end MiniIotRobotEdge

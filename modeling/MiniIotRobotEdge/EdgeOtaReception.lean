import MiniIotRobotEdge.EdgeOta
import MiniIotRobotEdge.StepRuns

/-!
# The banks and the receive buffer over a run

A session is the context with the chunks that were accepted since the last
accepted `edge_ota_begin_update`.  Every call keeps one active bank, which is
valid, and while an update is under way the front of the receive buffer is what
was accepted; an update that is applied has the size and the hash of its
manifest.
-/

namespace MiniIotRobotEdge

namespace Edge

open StepRuns

structure EdgeOtaSession where
  ctx : OtaUpdateCtx
  chunks : List (List UInt8)

def edgeOtaSessionStart (deviceId : List UInt8) : EdgeOtaSession := ⟨edgeOtaInit deviceId, []⟩

/-- The chunks accepted since the last accepted begin, after one more call. -/
def chunksAfter (chunks : List (List UInt8)) : EdgeOtaCall → Bool → List (List UInt8)
  | .beginUpdate _, true => []
  | .receiveChunk chunk len, true => chunks ++ [chunk.bytes 0 len.toNat]
  | _, _ => chunks

def edgeOtaSessionStep (session : EdgeOtaSession) (call : EdgeOtaCall) : EdgeOtaSession :=
  ⟨(edgeOtaCall session.ctx call).1,
    chunksAfter session.chunks call (edgeOtaCall session.ctx call).2⟩

/-- An image is on its way: in one of the states from download to application. -/
def OtaUpdateState.updating (state : OtaUpdateState) : Prop :=
  state = .downloading ∨ state = .verifying ∨ state = .applying

/-- One of the two banks is active, the one of the index, and it is valid. -/
structure OtaBanksSound (ctx : OtaUpdateCtx) : Prop where
  index : ctx.activeBank = 0 ∨ ctx.activeBank = 1
  active : ∀ bank, bank = 0 ∨ bank = 1 →
    ((ctx.banks bank).active = true ↔ bank = ctx.activeBank)
  valid : (ctx.banks ctx.activeBank).valid = true

/-- What holds in every state of a session. -/
structure EdgeOtaSound (session : EdgeOtaSession) : Prop where
  banks : OtaBanksSound session.ctx
  bounded : session.ctx.bytesReceived ≤ otaMaxPayload
  buffered : session.ctx.updateState.updating →
    session.ctx.receiveBuffer.bytes 0 session.ctx.bytesReceived = session.chunks.flatten

/-- An update that passes its verification is the one of the manifest. -/
def EdgeOtaAppliedAsManifest (session : EdgeOtaSession) (call : EdgeOtaCall) : Prop :=
  call = .verifyAndApply → (edgeOtaVerifyAndApply session.ctx).2 = true →
    session.chunks.flatten.length = session.ctx.currentManifest.fwSize ∧
      rollingHash session.chunks.flatten =
        rollingHash session.ctx.currentManifest.fwHash.toList

/-- What holds in every state, with what makes it inductive. -/
structure EdgeOtaInvariant (session : EdgeOtaSession) : Prop extends EdgeOtaSound session where
  sized : session.ctx.updateState.updating →
    session.ctx.totalSize = session.ctx.currentManifest.fwSize
  staged : session.ctx.updateState = .applying →
    (session.ctx.banks (1 - session.ctx.activeBank)).valid = true

section Banks

variable {ctx : OtaUpdateCtx}

@[simp]
theorem changeBank_self (bank : Int) (change : FirmwareBank → FirmwareBank) :
    (ctx.changeBank bank change).banks bank = change (ctx.banks bank) :=
  Function.update_self ..

theorem changeBank_other {bank other : Int} (apart : other ≠ bank)
    (change : FirmwareBank → FirmwareBank) :
    (ctx.changeBank bank change).banks other = ctx.banks other :=
  Function.update_of_ne apart ..

@[simp]
theorem changeBank_activeBank (bank : Int) (change : FirmwareBank → FirmwareBank) :
    (ctx.changeBank bank change).activeBank = ctx.activeBank :=
  rfl

theorem other_ne (bank : Int) : 1 - bank ≠ bank := by
  omega

/-- The banks after a commit: the flags are swapped, the rest is as before. -/
theorem committed_banks (ctx : OtaUpdateCtx) :
    ctx.committed.banks ctx.activeBank = { ctx.banks ctx.activeBank with active := false } ∧
      ctx.committed.banks (1 - ctx.activeBank) =
        { ctx.banks (1 - ctx.activeBank) with active := true } := by
  have apart := other_ne ctx.activeBank
  unfold OtaUpdateCtx.committed
  constructor
  · dsimp only
    rw [changeBank_other apart.symm, changeBank_self]
  · dsimp only
    rw [changeBank_self, changeBank_other apart]

namespace OtaBanksSound

/-- The bank that is not active. -/
theorem other_inactive (sound : OtaBanksSound ctx) :
    (ctx.banks (1 - ctx.activeBank)).active = false := by
  have range : 1 - ctx.activeBank = 0 ∨ 1 - ctx.activeBank = 1 := by
    have index := sound.index
    omega
  simpa using (sound.active _ range).not.mpr (other_ne ctx.activeBank)

/-- A change of one bank that keeps its flags. -/
theorem changeBank (sound : OtaBanksSound ctx) (bank : Int)
    (change : FirmwareBank → FirmwareBank)
    (sameActive : (change (ctx.banks bank)).active = (ctx.banks bank).active)
    (keepsValid : bank = ctx.activeBank → (change (ctx.banks bank)).valid = true) :
    OtaBanksSound (ctx.changeBank bank change) := by
  refine ⟨sound.index, fun other range => ?_, ?_⟩
  · by_cases same : other = bank
    · rw [same, changeBank_self, sameActive, ← same]
      exact sound.active other range
    · rw [changeBank_other same]
      exact sound.active other range
  · change ((ctx.changeBank bank change).banks ctx.activeBank).valid = true
    by_cases same : ctx.activeBank = bank
    · rw [same, changeBank_self]
      exact keepsValid same.symm
    · rw [changeBank_other same]
      exact sound.valid

theorem applied (sound : OtaBanksSound ctx) : OtaBanksSound ctx.applied := by
  have written := sound.changeBank (1 - ctx.activeBank)
    (fun bank =>
      { bank with
        version := ctx.currentManifest.fwVersion, fwHash := ctx.currentManifest.fwHash
        valid := true, active := false }) sound.other_inactive.symm fun _ => rfl
  exact ⟨written.index, written.active, written.valid⟩

theorem rolledBack (sound : OtaBanksSound ctx) : OtaBanksSound ctx.rolledBack := by
  have wiped := sound.changeBank (1 - ctx.activeBank) (fun _ => .cleared)
    sound.other_inactive.symm fun same => absurd same (other_ne ctx.activeBank)
  exact ⟨wiped.index, wiped.active, wiped.valid⟩

theorem repaired (sound : OtaBanksSound ctx) (srcBank dstBank : Int) :
    OtaBanksSound (ctx.repaired srcBank dstBank) :=
  sound.changeBank dstBank _ rfl fun _ => rfl

theorem committed (sound : OtaBanksSound ctx)
    (staged : (ctx.banks (1 - ctx.activeBank)).valid = true) : OtaBanksSound ctx.committed := by
  have index := sound.index
  have swapped := committed_banks ctx
  have newActive : ctx.committed.activeBank = 1 - ctx.activeBank := rfl
  refine ⟨?_, fun bank range => ?_, ?_⟩
  · omega
  · rw [newActive]
    by_cases old : bank = ctx.activeBank
    · rw [old, swapped.1]
      simp
      omega
    · have new : bank = 1 - ctx.activeBank := by omega
      rw [new, swapped.2]
      simp
  · rw [newActive, swapped.2]
    exact staged

end OtaBanksSound

end Banks

section Reception

variable {ctx : OtaUpdateCtx} {len : Int}

/-- An accepted length is added as it is. -/
theorem receivedAfter_eq (bounded : ctx.bytesReceived ≤ otaMaxPayload) (positive : 0 < len)
    (short : len ≤ otaMaxChunk) : ctx.receivedAfter len = ctx.bytesReceived + len.toNat := by
  unfold otaMaxPayload at bounded
  unfold otaMaxChunk at short
  unfold OtaUpdateCtx.receivedAfter
  rw [Int.emod_eq_of_lt (by omega) (by omega)]
  omega

/-- The front of the buffer grows by the chunk. -/
theorem received_bytes (chunk : Memory) (bounded : ctx.bytesReceived ≤ otaMaxPayload)
    (positive : 0 < len) (short : len ≤ otaMaxChunk) :
    (ctx.received chunk len).receiveBuffer.bytes 0 (ctx.received chunk len).bytesReceived =
      ctx.receiveBuffer.bytes 0 ctx.bytesReceived ++ chunk.bytes 0 len.toNat := by
  have kept : (ctx.receiveBuffer.writeBytes ctx.bytesReceived (chunk.bytes 0 len.toNat)).bytes 0
      ctx.bytesReceived = ctx.receiveBuffer.bytes 0 ctx.bytesReceived := by
    apply Memory.bytes_congr
    intro target _ inside
    exact Memory.writeBytes_outside (.inl (by omega))
  have written := Memory.bytes_writeBytes_self ctx.receiveBuffer ctx.bytesReceived
    (chunk.bytes 0 len.toNat)
  rw [Memory.length_bytes] at written
  simp only [OtaUpdateCtx.received, receivedAfter_eq bounded positive short]
  rw [Memory.bytes_append, Nat.zero_add, kept, written]

end Reception

theorem edgeOtaSessionStart_invariant (deviceId : List UInt8) :
    EdgeOtaInvariant (edgeOtaSessionStart deviceId) := by
  have quiet : ¬(edgeOtaSessionStart deviceId).ctx.updateState.updating := by
    simp [edgeOtaSessionStart, edgeOtaInit, OtaUpdateState.updating]
  have banks : OtaBanksSound (edgeOtaInit deviceId) := by
    refine ⟨.inl rfl, ?_, rfl⟩
    rintro bank (rfl | rfl)
    · simp [edgeOtaInit]
    · simp [edgeOtaInit]
  refine ⟨⟨banks, Nat.zero_le _, fun updating => absurd updating quiet⟩,
    fun updating => absurd updating quiet, fun applying => ?_⟩
  exact absurd (.inr (.inr applying)) quiet

/-- A failed context is not updating, so only its banks and its count matter. -/
theorem EdgeOtaInvariant.failed {session : EdgeOtaSession} (invariant : EdgeOtaInvariant session) :
    EdgeOtaInvariant ⟨session.ctx.failed, session.chunks⟩ := by
  have quiet : ¬session.ctx.failed.updateState.updating := by
    simp [OtaUpdateCtx.failed, OtaUpdateState.updating]
  have banks := invariant.banks
  refine ⟨⟨⟨banks.index, banks.active, banks.valid⟩, invariant.bounded,
    fun updating => absurd updating quiet⟩, fun updating => absurd updating quiet,
    fun applying => ?_⟩
  exact absurd (.inr (.inr applying)) quiet

theorem EdgeOtaInvariant.received {session : EdgeOtaSession}
    (invariant : EdgeOtaInvariant session) (chunk : Memory) {len : Int}
    (downloading : session.ctx.updateState = .downloading)
    (fits : session.ctx.receivedAfter len ≤ otaMaxPayload) (positive : 0 < len)
    (short : len ≤ otaMaxChunk) :
    EdgeOtaInvariant ⟨session.ctx.received chunk len,
      session.chunks ++ [chunk.bytes 0 len.toNat]⟩ := by
  have banks := invariant.banks
  have before : session.ctx.updateState.updating := .inl downloading
  have notApplying : (session.ctx.received chunk len).updateState ≠ .applying := by
    simp only [OtaUpdateCtx.received, downloading]
    split <;> simp
  refine ⟨⟨⟨banks.index, banks.active, banks.valid⟩, fits, fun _ => ?_⟩,
    fun _ => invariant.sized before, fun applying => absurd applying notApplying⟩
  rw [received_bytes chunk invariant.bounded positive short, invariant.buffered before]
  simp

/-- Every call keeps the invariant. -/
theorem EdgeOtaInvariant.step {session : EdgeOtaSession} (invariant : EdgeOtaInvariant session)
    (call : EdgeOtaCall) : EdgeOtaInvariant (edgeOtaSessionStep session call) := by
  have banks := invariant.banks
  have move := edgeOtaCall_move session.ctx call
  unfold edgeOtaSessionStep
  generalize edgeOtaCall session.ctx call = result at move ⊢
  cases move with
  | refused =>
      have same : chunksAfter session.chunks call false = session.chunks := by
        cases call <;> rfl
      rw [same]
      exact invariant
  | begun m idle verified =>
      refine ⟨⟨⟨banks.index, banks.active, banks.valid⟩, Nat.zero_le _, fun _ => rfl⟩,
        fun _ => rfl, fun applying => ?_⟩
      simp [OtaUpdateCtx.begun] at applying
  | overflowed chunk len downloading tooMuch => exact invariant.failed
  | received chunk len downloading fits positive short =>
      exact invariant.received chunk downloading fits positive short
  | mismatched verifying wrong => exact invariant.failed
  | applied verifying whole hashed =>
      have before : session.ctx.updateState.updating := .inr (.inl verifying)
      refine ⟨⟨banks.applied, invariant.bounded, fun _ => invariant.buffered before⟩,
        fun _ => invariant.sized before, fun _ => ?_⟩
      change (session.ctx.applied.banks (1 - session.ctx.activeBank)).valid = true
      simp [OtaUpdateCtx.applied]
  | committed applying =>
      have quiet : ¬session.ctx.committed.updateState.updating := by
        simp [OtaUpdateCtx.committed, OtaUpdateState.updating]
      refine ⟨⟨banks.committed (invariant.staged applying), invariant.bounded,
        fun updating => absurd updating quiet⟩, fun updating => absurd updating quiet,
        fun again => ?_⟩
      exact absurd (.inr (.inr again)) quiet
  | rolledBack underway =>
      have quiet : ¬session.ctx.rolledBack.updateState.updating := by
        simp [OtaUpdateCtx.rolledBack, OtaUpdateState.updating]
      refine ⟨⟨banks.rolledBack, Nat.zero_le _, fun updating => absurd updating quiet⟩,
        fun updating => absurd updating quiet, fun again => ?_⟩
      exact absurd (.inr (.inr again)) quiet
  | repairRefused srcBank dstBank => exact invariant
  | repaired srcBank dstBank source destination valid =>
      refine ⟨⟨banks.repaired srcBank dstBank, invariant.bounded, invariant.buffered⟩,
        invariant.sized, fun applying => ?_⟩
      by_cases same : 1 - session.ctx.activeBank = dstBank
      · change ((session.ctx.repaired srcBank dstBank).banks
          (1 - session.ctx.activeBank)).valid = true
        rw [same]
        simp [OtaUpdateCtx.repaired]
      · have kept : (session.ctx.repaired srcBank dstBank).banks
            (1 - session.ctx.activeBank) = session.ctx.banks (1 - session.ctx.activeBank) :=
          changeBank_other same _
        change ((session.ctx.repaired srcBank dstBank).banks
          (1 - session.ctx.activeBank)).valid = true
        rw [kept]
        exact invariant.staged applying

theorem EdgeOtaInvariant.appliedAsManifest {session : EdgeOtaSession}
    (invariant : EdgeOtaInvariant session) (call : EdgeOtaCall) :
    EdgeOtaAppliedAsManifest session call := by
  rintro rfl verified
  have move := edgeOtaCall_move session.ctx .verifyAndApply
  change (edgeOtaCall session.ctx .verifyAndApply).2 = true at verified
  generalize edgeOtaCall session.ctx .verifyAndApply = result at move verified
  cases move with
  | refused => simp at verified
  | mismatched => simp at verified
  | applied verifying whole hashed =>
      have updating : session.ctx.updateState.updating := .inr (.inl verifying)
      have length := congrArg List.length (invariant.buffered updating)
      rw [Memory.length_bytes] at length
      constructor
      · rw [← length, whole, invariant.sized updating]
      · rw [← invariant.buffered updating, hashed]

/-- Over every run of calls on an initialised context: the banks are sound, the
buffer holds what was accepted, and what is applied is the image of the
manifest. -/
theorem edge_ota_sound (deviceId : List UInt8) (calls : List EdgeOtaCall) :
    Always edgeOtaSessionStep EdgeOtaSound (edgeOtaSessionStart deviceId) calls ∧
      Throughout edgeOtaSessionStep EdgeOtaAppliedAsManifest (edgeOtaSessionStart deviceId)
        calls := by
  have start := edgeOtaSessionStart_invariant deviceId
  have kept : ∀ session call, EdgeOtaInvariant session →
      EdgeOtaInvariant (edgeOtaSessionStep session call) :=
    fun _ call invariant => invariant.step call
  constructor
  · have always : Always edgeOtaSessionStep EdgeOtaInvariant (edgeOtaSessionStart deviceId)
        calls := always_of_kept kept start
    exact always.imp fun _ invariant => invariant.toEdgeOtaSound
  · have anyCall : Throughout edgeOtaSessionStep (fun _ _ => True)
        (edgeOtaSessionStart deviceId) calls := throughout_of_forall fun _ _ => trivial
    exact anyCall.imp (fun session call invariant _ => kept session call invariant)
      (fun _ call invariant _ => invariant.appliedAsManifest call) start

end Edge

end MiniIotRobotEdge

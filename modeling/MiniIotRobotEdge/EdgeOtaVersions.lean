import MiniIotRobotEdge.EdgeOtaReception

/-!
# The version over a run

The version is kept in the context and in the record of the active bank.  A
begin asks for a newer version and a commit takes over both, but a repair copies
the version of any valid bank over any bank, the active one included.
-/

namespace MiniIotRobotEdge

namespace Edge

open StepRuns

/-- The version of the active bank. -/
def OtaUpdateCtx.bankVersion (ctx : OtaUpdateCtx) : Nat := (ctx.banks ctx.activeBank).version

/-- The context and the record of the active bank agree. -/
def OtaVersionsAgree (ctx : OtaUpdateCtx) : Prop := ctx.currentVersion = ctx.bankVersion

/-- The call lowers neither of the two. -/
def OtaVersionsRise (ctx : OtaUpdateCtx) (call : EdgeOtaCall) : Prop :=
  ctx.currentVersion ≤ (edgeOtaStep ctx call).currentVersion ∧
    ctx.bankVersion ≤ (edgeOtaStep ctx call).bankVersion

/-- A repair of the active bank from a valid one copies the current version. -/
def OtaRepairKeepsVersion (ctx : OtaUpdateCtx) : EdgeOtaCall → Prop
  | .repairCorruptedBank srcBank dstBank =>
      srcBank = 0 ∨ srcBank = 1 → dstBank = ctx.activeBank →
        (ctx.banks srcBank).valid = true → (ctx.banks srcBank).version = ctx.currentVersion
  | _ => True

/-- The versions agree, and those on their way in are not older. -/
structure OtaVersionInvariant (ctx : OtaUpdateCtx) : Prop where
  index : ctx.activeBank = 0 ∨ ctx.activeBank = 1
  agree : OtaVersionsAgree ctx
  newer : ctx.updateState = .downloading ∨ ctx.updateState = .verifying →
    ctx.currentVersion < ctx.currentManifest.fwVersion
  staged : ctx.updateState = .applying →
    ctx.currentVersion ≤ (ctx.banks (1 - ctx.activeBank)).version

section Moves

/-- The application writes the other bank. -/
theorem applied_bankVersion (ctx : OtaUpdateCtx) : ctx.applied.bankVersion = ctx.bankVersion := by
  unfold OtaUpdateCtx.applied OtaUpdateCtx.bankVersion
  dsimp only
  rw [changeBank_activeBank, changeBank_other (other_ne ctx.activeBank).symm]

theorem rolledBack_bankVersion (ctx : OtaUpdateCtx) :
    ctx.rolledBack.bankVersion = ctx.bankVersion := by
  unfold OtaUpdateCtx.rolledBack OtaUpdateCtx.bankVersion
  dsimp only
  rw [changeBank_activeBank, changeBank_other (other_ne ctx.activeBank).symm]

theorem committed_versions (ctx : OtaUpdateCtx) :
    ctx.committed.currentVersion = (ctx.banks (1 - ctx.activeBank)).version ∧
      ctx.committed.bankVersion = (ctx.banks (1 - ctx.activeBank)).version := by
  have version : (ctx.committed.banks (1 - ctx.activeBank)).version =
      (ctx.banks (1 - ctx.activeBank)).version := by
    rw [(committed_banks ctx).2]
  exact ⟨version, version⟩

/-- What a repair does to the two banks. -/
theorem repaired_version (ctx : OtaUpdateCtx) (srcBank dstBank bank : Int) :
    ((ctx.repaired srcBank dstBank).banks bank).version =
      if bank = dstBank then (ctx.banks srcBank).version else (ctx.banks bank).version := by
  unfold OtaUpdateCtx.repaired
  by_cases same : bank = dstBank
  · rw [if_pos same, same, changeBank_self]
  · rw [if_neg same, changeBank_other same]

theorem OtaVersionInvariant.repaired {ctx : OtaUpdateCtx} {srcBank dstBank : Int}
    (invariant : OtaVersionInvariant ctx)
    (source : srcBank = 0 ∨ srcBank = 1)
    (keeps : dstBank = ctx.activeBank → (ctx.banks srcBank).version = ctx.currentVersion) :
    OtaVersionInvariant (ctx.repaired srcBank dstBank) := by
  have agree : ctx.currentVersion = (ctx.banks ctx.activeBank).version := invariant.agree
  refine ⟨invariant.index, ?_, invariant.newer, fun applying => ?_⟩
  · change ctx.currentVersion = ((ctx.repaired srcBank dstBank).banks ctx.activeBank).version
    rw [repaired_version]
    by_cases active : ctx.activeBank = dstBank
    · rw [if_pos active, keeps active.symm]
    · rw [if_neg active, agree]
  · change ctx.currentVersion ≤
      ((ctx.repaired srcBank dstBank).banks (1 - ctx.activeBank)).version
    have staged := invariant.staged applying
    rw [repaired_version]
    by_cases other : 1 - ctx.activeBank = dstBank
    · rw [if_pos other]
      -- the source is one of the two banks, and neither is older
      have either : srcBank = ctx.activeBank ∨ srcBank = 1 - ctx.activeBank := by
        have index := invariant.index
        omega
      rcases either with rfl | rfl
      · exact agree.le
      · exact staged
    · rw [if_neg other]
      exact staged

end Moves

/-- A call that repairs the active bank from its own version at most keeps the
invariant and lowers no version. -/
theorem OtaVersionInvariant.step {ctx : OtaUpdateCtx} {call : EdgeOtaCall}
    (invariant : OtaVersionInvariant ctx) (keeps : OtaRepairKeepsVersion ctx call) :
    OtaVersionInvariant (edgeOtaStep ctx call) ∧
      ctx.currentVersion ≤ (edgeOtaStep ctx call).currentVersion := by
  have index := invariant.index
  have agree := invariant.agree
  have move := edgeOtaCall_move ctx call
  unfold edgeOtaStep
  generalize edgeOtaCall ctx call = result at move ⊢
  cases move with
  | refused => exact ⟨invariant, le_rfl⟩
  | begun m idle verified =>
      refine ⟨⟨index, agree, fun _ => newer_of_manifestVerify verified, fun applying => ?_⟩,
        le_rfl⟩
      simp [OtaUpdateCtx.begun] at applying
  | overflowed chunk len downloading tooMuch =>
      refine ⟨⟨index, agree, fun loading => ?_, fun applying => ?_⟩, le_rfl⟩
      · simp [OtaUpdateCtx.failed] at loading
      · simp [OtaUpdateCtx.failed] at applying
  | received chunk len downloading fits positive short =>
      have newer := invariant.newer (.inl downloading)
      refine ⟨⟨index, agree, fun _ => newer, fun applying => ?_⟩, le_rfl⟩
      simp only [OtaUpdateCtx.received, downloading] at applying
      split at applying
      · contradiction
      · contradiction
  | mismatched verifying wrong =>
      refine ⟨⟨index, agree, fun loading => ?_, fun applying => ?_⟩, le_rfl⟩
      · simp [OtaUpdateCtx.failed] at loading
      · simp [OtaUpdateCtx.failed] at applying
  | applied verifying whole hashed =>
      have newer := invariant.newer (.inr verifying)
      refine ⟨⟨index, ?_, fun loading => ?_, fun _ => ?_⟩, le_rfl⟩
      · exact agree.trans (applied_bankVersion ctx).symm
      · simp [OtaUpdateCtx.applied] at loading
      · change ctx.currentVersion ≤ (ctx.applied.banks (1 - ctx.activeBank)).version
        simpa [OtaUpdateCtx.applied] using newer.le
  | committed applying =>
      have versions := committed_versions ctx
      have staged := invariant.staged applying
      have newIndex : 1 - ctx.activeBank = 0 ∨ 1 - ctx.activeBank = 1 := by omega
      refine ⟨⟨newIndex, versions.1.trans versions.2.symm, fun loading => ?_, fun again => ?_⟩, ?_⟩
      · simp [OtaUpdateCtx.committed] at loading
      · simp [OtaUpdateCtx.committed] at again
      · rw [versions.1]
        exact staged
  | rolledBack underway =>
      refine ⟨⟨index, ?_, fun loading => ?_, fun applying => ?_⟩, le_rfl⟩
      · exact agree.trans (rolledBack_bankVersion ctx).symm
      · simp [OtaUpdateCtx.rolledBack] at loading
      · simp [OtaUpdateCtx.rolledBack] at applying
  | repairRefused srcBank dstBank => exact ⟨invariant, le_rfl⟩
  | repaired srcBank dstBank source destination valid =>
      exact ⟨invariant.repaired source fun active => keeps source active valid, le_rfl⟩

/-- The versions agree after a call exactly when no repair copies another
version over the active bank. -/
theorem OtaVersionInvariant.agree_step_iff {ctx : OtaUpdateCtx} {call : EdgeOtaCall}
    (invariant : OtaVersionInvariant ctx) :
    OtaVersionsAgree (edgeOtaStep ctx call) ↔ OtaRepairKeepsVersion ctx call := by
  refine ⟨fun agree => ?_, fun keeps => (invariant.step keeps).1.agree⟩
  cases call with
  | repairCorruptedBank srcBank dstBank =>
      intro source active valid
      have index := invariant.index
      have inside : ¬(srcBank < 0 ∨ otaDualBank ≤ srcBank) := by
        unfold otaDualBank
        omega
      have insideToo : ¬(dstBank < 0 ∨ otaDualBank ≤ dstBank) := by
        unfold otaDualBank
        omega
      have repaired : edgeOtaStep ctx (.repairCorruptedBank srcBank dstBank) =
          ctx.repaired srcBank dstBank := by
        simp [edgeOtaStep, edgeOtaCall, edgeOtaRepairCorruptedBank, inside, insideToo, valid]
      rw [repaired] at agree
      have copied := repaired_version ctx srcBank dstBank ctx.activeBank
      rw [if_pos active.symm] at copied
      exact copied.symm.trans agree.symm
  | _ => trivial

theorem OtaVersionInvariant.rise {ctx : OtaUpdateCtx} {call : EdgeOtaCall}
    (invariant : OtaVersionInvariant ctx) (keeps : OtaRepairKeepsVersion ctx call) :
    OtaVersionsRise ctx call := by
  have step := invariant.step keeps
  refine ⟨step.2, ?_⟩
  rw [← invariant.agree, ← step.1.agree]
  exact step.2

theorem edgeOtaInit_versions (deviceId : List UInt8) :
    OtaVersionInvariant (edgeOtaInit deviceId) := by
  refine ⟨.inl rfl, rfl, fun loading => ?_, fun applying => ?_⟩
  · simp [edgeOtaInit] at loading
  · simp [edgeOtaInit] at applying

/-- Over every run from an initialised context: the two versions agree in all
states and no call lowers one, exactly when no repair copies another version
over the active bank. -/
theorem ota_versions_agree_iff (deviceId : List UInt8) (calls : List EdgeOtaCall) :
    (Always edgeOtaStep OtaVersionsAgree (edgeOtaInit deviceId) calls ∧
        Throughout edgeOtaStep OtaVersionsRise (edgeOtaInit deviceId) calls) ↔
      Throughout edgeOtaStep OtaRepairKeepsVersion (edgeOtaInit deviceId) calls := by
  have start := edgeOtaInit_versions deviceId
  have anyCall : Throughout edgeOtaStep (fun _ _ => True) (edgeOtaInit deviceId) calls :=
    throughout_of_forall fun _ _ => trivial
  have agreeIff : Always edgeOtaStep OtaVersionsAgree (edgeOtaInit deviceId) calls ↔
      Throughout edgeOtaStep OtaRepairKeepsVersion (edgeOtaInit deviceId) calls := by
    apply anyCall.always_iff _ _ start start.agree
    · exact fun _ _ invariant _ keeps => (invariant.step keeps).1
    · exact fun _ _ invariant _ _ => invariant.agree_step_iff
  constructor
  · exact fun both => agreeIff.mp both.1
  · intro keeps
    refine ⟨agreeIff.mpr keeps, ?_⟩
    exact keeps.imp (fun _ _ invariant allowed => (invariant.step allowed).1)
      (fun _ _ invariant allowed => invariant.rise allowed) start

/-- Version 2, one byte that is its own hash. -/
def otaSecondVersion : OtaManifest where
  fwVersion := 2
  fwSize := 1
  fwHash := .ofFn fun index => if index = 31 then 7 else 0
  deviceId := .replicate 16 0
  minBootloaderVer := 1

/-- After an update to version 2 the active bank is repaired from the bank that
still holds version 1. -/
theorem repair_restores_old_version :
    ¬Always edgeOtaStep OtaVersionsAgree (edgeOtaInit [])
      [.beginUpdate otaSecondVersion, .receiveChunk (fun _ => 7) 1, .verifyAndApply,
        .commitUpdate, .repairCorruptedBank 0 1] := by
  intro always
  have agree := always.last
  revert agree
  unfold OtaVersionsAgree
  decide +kernel

end Edge

end MiniIotRobotEdge

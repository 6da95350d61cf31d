import MiniIotRobotEdge.EdgeKeyMgmt
import MiniIotRobotEdge.StepRuns

/-!
# The revocation of a key

A revoked slot is inactive and its private key is zero.  Every operation leaves
such a slot alone, except that a key may be unwrapped into it: this activates
the slot again.
-/

namespace MiniIotRobotEdge

namespace Edge

open StepRuns

inductive KeyMgmtCall
  | generateKeypair (ktype : KeyMgmtKeyType)
  | importKeypair (priv pub : Bytes)
  | rotateKey (slot : Int)
  | revokeKey (slot : Int)
  | sign (slot : Int) (hash : Bytes)
  | verify (slot : Int) (hash sig : Bytes)
  | issueDeviceCert (caSlot deviceSlot : Int)
  | findKeyByUsage (usage : UInt32)
  | wrapKey (wrappingKeySlot targetSlot : Int)
  | unwrapKey (wrappingKeySlot : Int) (wrapped : Bytes) (targetSlot : Int)

/-- The store after a call; five of the operations only read it. -/
def keyMgmtStep (km : EdgeKeyMgmtCtx) : KeyMgmtCall → EdgeKeyMgmtCtx
  | .generateKeypair ktype => (edgeKeyMgmtGenerateKeypair km ktype).1
  | .importKeypair priv pub => (edgeKeyMgmtImportKeypair km priv pub).1
  | .rotateKey slot => edgeKeyMgmtRotateKey km slot
  | .revokeKey slot => (edgeKeyMgmtRevokeKey km slot).1
  | .unwrapKey wrappingKeySlot wrapped targetSlot =>
      (edgeKeyMgmtUnwrapKey km wrappingKeySlot wrapped targetSlot).1
  | .sign .. | .verify .. | .issueDeviceCert .. | .findKeyByUsage .. | .wrapKey .. => km

/-- The call signs, verifies, wraps or issues a certificate with the key of the slot. -/
def KeyMgmtCall.SucceedsWith (km : EdgeKeyMgmtCtx) (slot : Int) : KeyMgmtCall → Prop
  | .sign used hash => used = slot ∧ (edgeKeyMgmtSign km used hash).isSome
  | .verify used hash sig => used = slot ∧ edgeKeyMgmtVerify km used hash sig = true
  | .issueDeviceCert caSlot deviceSlot =>
      (caSlot = slot ∨ deviceSlot = slot) ∧ (edgeKeyMgmtIssueDeviceCert km caSlot deviceSlot).isSome
  | .wrapKey wrappingKeySlot targetSlot =>
      (wrappingKeySlot = slot ∨ targetSlot = slot) ∧
        (edgeKeyMgmtWrapKey km wrappingKeySlot targetSlot).isSome
  | _ => False

/-- The call brings a key for the slot that was wrapped for an active slot. -/
def KeyMgmtCall.UnwrapsInto (km : EdgeKeyMgmtCtx) (slot : Int) : KeyMgmtCall → Prop
  | .unwrapKey wrappingKeySlot wrapped targetSlot =>
      targetSlot = slot ∧ km.HasSlot wrappingKeySlot ∧ 16 ≤ wrapped.length ∧
        (km.slotAt wrappingKeySlot).active = true ∧ ivMatches (km.slotAt wrappingKeySlot) wrapped
  | _ => False

/-- The slot is not active, and no byte of its private key is left. -/
def SlotRevoked (slot : Int) (km : EdgeKeyMgmtCtx) : Prop :=
  (km.slotAt slot).active = false ∧ (km.slotAt slot).privateKey = .replicate _ 0

/-- Everything that a call can do to the slots. -/
inductive KeyMgmtMove (km : EdgeKeyMgmtCtx) : KeyMgmtCall → EdgeKeyMgmtCtx → Prop
  | kept (call : KeyMgmtCall) (noUnwrap : ∀ slot, km.HasSlot slot → ¬call.UnwrapsInto km slot) :
      KeyMgmtMove km call km
  | added (call : KeyMgmtCall) (slot : KeyMgmtSlot) (room : km.keyCount < kmMaxKeySlots)
      (noUnwrap : ∀ slot, km.HasSlot slot → ¬call.UnwrapsInto km slot) :
      KeyMgmtMove km call (km.addSlot slot room)
  | rotated (slot : Int) (inUse : km.HasSlot slot) (active : (km.slotAt slot).active = true) :
      KeyMgmtMove km (.rotateKey slot) (km.putSlot slot (km.slotAt slot).rotated)
  | revoked (slot : Int) (inUse : km.HasSlot slot) :
      KeyMgmtMove km (.revokeKey slot) (km.putSlot slot (km.slotAt slot).revoked)
  | unwrapped (wrappingKeySlot : Int) (wrapped : Bytes) (targetSlot : Int)
      (inUse : km.HasSlot targetSlot)
      (unwraps : (KeyMgmtCall.unwrapKey wrappingKeySlot wrapped targetSlot).UnwrapsInto km
        targetSlot) :
      KeyMgmtMove km (.unwrapKey wrappingKeySlot wrapped targetSlot)
        (km.unwrapped wrappingKeySlot wrapped targetSlot)

theorem keyMgmtStep_move (km : EdgeKeyMgmtCtx) (call : KeyMgmtCall) :
    KeyMgmtMove km call (keyMgmtStep km call) := by
  cases call with
  | generateKeypair ktype =>
      simp only [keyMgmtStep, edgeKeyMgmtGenerateKeypair]
      split_ifs with room
      · exact .added _ _ room fun _ _ => id
      · exact .kept _ fun _ _ => id
  | importKeypair priv pub =>
      simp only [keyMgmtStep, edgeKeyMgmtImportKeypair]
      split_ifs with room
      · exact .added _ _ room fun _ _ => id
      · exact .kept _ fun _ _ => id
  | rotateKey slot =>
      simp only [keyMgmtStep, edgeKeyMgmtRotateKey]
      split_ifs with inUse inactive
      · exact .kept _ fun _ _ => id
      · exact .rotated slot inUse (by simpa using inactive)
      · exact .kept _ fun _ _ => id
  | revokeKey slot =>
      simp only [keyMgmtStep, edgeKeyMgmtRevokeKey]
      split_ifs with inUse
      · exact .revoked slot inUse
      · exact .kept _ fun _ _ => id
  | unwrapKey wrappingKeySlot wrapped targetSlot =>
      simp only [keyMgmtStep, edgeKeyMgmtUnwrapKey]
      by_cases unwraps : km.HasSlot targetSlot ∧
          (KeyMgmtCall.unwrapKey wrappingKeySlot wrapped targetSlot).UnwrapsInto km targetSlot
      · obtain ⟨inUse, _, usable, long, active, fresh⟩ := unwraps
        rw [if_neg (not_not.mpr usable), if_neg (not_not.mpr inUse), if_neg (by omega),
          if_neg (by simp [active]), if_neg (not_not.mpr fresh)]
        exact .unwrapped _ _ _ inUse ⟨rfl, usable, long, active, fresh⟩
      · have noUnwrap : ∀ slot, km.HasSlot slot →
            ¬(KeyMgmtCall.unwrapKey wrappingKeySlot wrapped targetSlot).UnwrapsInto km slot := by
          intro slot inUse into
          obtain ⟨rfl, rest⟩ := into
          exact unwraps ⟨inUse, rfl, rest⟩
        split_ifs with usable inUse short inactive fresh
        · exact .kept _ noUnwrap
        · exact .kept _ noUnwrap
        · have unwraps := noUnwrap targetSlot inUse
          exact absurd ⟨rfl, usable, by omega, by simpa using inactive, fresh⟩ unwraps
        · exact .kept _ noUnwrap
        · exact .kept _ noUnwrap
        · exact .kept _ noUnwrap
  | sign | verify | issueDeviceCert | findKeyByUsage | wrapKey => exact .kept _ fun _ _ => id

section Steps

variable {km : EdgeKeyMgmtCtx} {slot : Int} {call : KeyMgmtCall}

theorem slotAt_unwrapped (wrappingKeySlot : Int) (wrapped : Bytes) :
    ((km.unwrapped wrappingKeySlot wrapped slot).slotAt slot).active = true := by
  rw [EdgeKeyMgmtCtx.unwrapped, putSlot_self]

theorem slotAt_unwrapped_other {other wrappingKeySlot : Int} {wrapped : Bytes} (lower : 0 ≤ slot)
    (otherLower : 0 ≤ other) (different : other ≠ slot) :
    (km.unwrapped wrappingKeySlot wrapped slot).slotAt other = km.slotAt other := by
  rw [EdgeKeyMgmtCtx.unwrapped, putSlot_other lower otherLower different,
    putSlot_other lower otherLower different]

/-- A slot in use stays in use. -/
theorem hasSlot_step (inUse : km.HasSlot slot) : (keyMgmtStep km call).HasSlot slot := by
  have move := keyMgmtStep_move km call
  generalize keyMgmtStep km call = next at move
  cases move with
  | kept => exact inUse
  | added => exact ⟨inUse.1, lt_trans inUse.2 (by simp [EdgeKeyMgmtCtx.addSlot])⟩
  | rotated => exact inUse
  | revoked => exact inUse
  | unwrapped => exact inUse

/-- A call that does not unwrap into a revoked slot leaves it revoked. -/
theorem revoked_step (inUse : km.HasSlot slot) (revoked : SlotRevoked slot km)
    (elsewhere : ¬call.UnwrapsInto km slot) : SlotRevoked slot (keyMgmtStep km call) := by
  have move := keyMgmtStep_move km call
  generalize keyMgmtStep km call = next at move
  unfold SlotRevoked at revoked ⊢
  cases move with
  | kept => exact revoked
  | added => rwa [addSlot_other inUse]
  | rotated changed changedInUse active =>
      have different : slot ≠ changed := by
        rintro rfl
        simp [revoked.1] at active
      rwa [putSlot_other changedInUse.1 inUse.1 different]
  | revoked changed changedInUse =>
      by_cases same : slot = changed
      · subst same
        rw [putSlot_self]
        exact ⟨rfl, rfl⟩
      · rwa [putSlot_other changedInUse.1 inUse.1 same]
  | unwrapped wrappingKeySlot wrapped target targetInUse unwraps =>
      have different : slot ≠ target := by
        rintro rfl
        exact elsewhere unwraps
      rwa [slotAt_unwrapped_other targetInUse.1 inUse.1 different]

/-- A key unwrapped into a slot activates it. -/
theorem active_of_unwrapsInto (inUse : km.HasSlot slot) (into : call.UnwrapsInto km slot) :
    ((keyMgmtStep km call).slotAt slot).active = true := by
  have move := keyMgmtStep_move km call
  generalize keyMgmtStep km call = next at move
  cases move with
  | kept call noUnwrap => exact absurd into (noUnwrap slot inUse)
  | added call added room noUnwrap => exact absurd into (noUnwrap slot inUse)
  | rotated => exact into.elim
  | revoked => exact into.elim
  | unwrapped wrappingKeySlot wrapped target targetInUse unwraps =>
      rw [← into.1]
      exact slotAt_unwrapped wrappingKeySlot wrapped

theorem revoked_step_iff (inUse : km.HasSlot slot) (revoked : SlotRevoked slot km) :
    SlotRevoked slot (keyMgmtStep km call) ↔ ¬call.UnwrapsInto km slot := by
  constructor
  · intro still into
    have active := active_of_unwrapsInto inUse into
    rw [still.1] at active
    contradiction
  · exact revoked_step inUse revoked

/-- Nothing succeeds with a revoked key. -/
theorem not_succeedsWith (revoked : SlotRevoked slot km) : ¬call.SucceedsWith km slot := by
  have inactive := revoked.1
  cases call with
  | sign used hash =>
      rintro ⟨rfl, signed⟩
      simp [edgeKeyMgmtSign, inactive] at signed
  | verify used hash sig =>
      rintro ⟨rfl, verified⟩
      simp [edgeKeyMgmtVerify, inactive] at verified
  | issueDeviceCert caSlot deviceSlot =>
      rintro ⟨rfl | rfl, issued⟩
      · simp [edgeKeyMgmtIssueDeviceCert, inactive] at issued
      · simp [edgeKeyMgmtIssueDeviceCert, inactive] at issued
  | wrapKey wrappingKeySlot targetSlot =>
      rintro ⟨rfl | rfl, wrapped⟩
      · simp [edgeKeyMgmtWrapKey, inactive] at wrapped
      · simp [edgeKeyMgmtWrapKey, inactive] at wrapped
  | _ => exact id

theorem revokeKey_slot (accepted : (edgeKeyMgmtRevokeKey km slot).2 = true) :
    (edgeKeyMgmtRevokeKey km slot).1.HasSlot slot ∧
      SlotRevoked slot (edgeKeyMgmtRevokeKey km slot).1 := by
  unfold edgeKeyMgmtRevokeKey at accepted ⊢
  split_ifs at accepted ⊢ with inUse
  refine ⟨inUse, ?_⟩
  unfold SlotRevoked
  rw [putSlot_self]
  exact ⟨rfl, rfl⟩

end Steps

/-- A revocation lasts, and nothing succeeds with the key, exactly in the runs
that unwrap no key into the slot. -/
theorem revocation_permanent_iff (km : EdgeKeyMgmtCtx) (slot : Int) (calls : List KeyMgmtCall)
    (accepted : (edgeKeyMgmtRevokeKey km slot).2 = true) :
    (Always keyMgmtStep (SlotRevoked slot) (edgeKeyMgmtRevokeKey km slot).1 calls ∧
      Throughout keyMgmtStep (fun km call => ¬call.SucceedsWith km slot)
        (edgeKeyMgmtRevokeKey km slot).1 calls) ↔
    Throughout keyMgmtStep (fun km call => ¬call.UnwrapsInto km slot)
      (edgeKeyMgmtRevokeKey km slot).1 calls := by
  obtain ⟨inUse, revoked⟩ := revokeKey_slot accepted
  have slotKept : ∀ (km : EdgeKeyMgmtCtx) (call : KeyMgmtCall), km.HasSlot slot →
      (keyMgmtStep km call).HasSlot slot := fun km call => hasSlot_step
  have bothKept : ∀ (km : EdgeKeyMgmtCtx) (call : KeyMgmtCall),
      km.HasSlot slot ∧ SlotRevoked slot km → ¬call.UnwrapsInto km slot →
      (keyMgmtStep km call).HasSlot slot ∧ SlotRevoked slot (keyMgmtStep km call) := by
    rintro km call ⟨inUse, revoked⟩ elsewhere
    exact ⟨hasSlot_step inUse, revoked_step inUse revoked elsewhere⟩
  rw [always_iff_throughout slotKept (fun km call => revoked_step_iff) inUse revoked]
  constructor
  · exact And.left
  · intro run
    refine ⟨run, run.imp bothKept ?_ ⟨inUse, revoked⟩⟩
    rintro km call ⟨_, revoked⟩ _
    exact not_succeedsWith revoked

/-- A store with a generated key in each of the first two slots. -/
def twoKeys : EdgeKeyMgmtCtx :=
  (edgeKeyMgmtGenerateKeypair (edgeKeyMgmtGenerateKeypair edgeKeyMgmtInit .eccP256).1 .eccP256).1

/-- The store without the first key. -/
def oneRevoked : EdgeKeyMgmtCtx := (edgeKeyMgmtRevokeKey twoKeys 0).1

/-- Eight zero bytes, wrapped for the second slot. -/
def wrappedZeros : Bytes :=
  ((List.range 8).map fun i => arrayAt (generatedPublicKey 1) i ^^^ wrapMask i) ++
    List.replicate 8 0

theorem revocation_permanent_iff_rotation :
    (Always keyMgmtStep (SlotRevoked 0) oneRevoked [.rotateKey 0] ∧
      Throughout keyMgmtStep (fun km call => ¬call.SucceedsWith km 0) oneRevoked [.rotateKey 0]) ↔
    Throughout keyMgmtStep (fun km call => ¬call.UnwrapsInto km 0) oneRevoked [.rotateKey 0] :=
  revocation_permanent_iff twoKeys 0 [.rotateKey 0] rfl

theorem revoked_key_reactivated :
    ¬∀ (km : EdgeKeyMgmtCtx) (slot : Int) (calls : List KeyMgmtCall),
      (edgeKeyMgmtRevokeKey km slot).2 = true →
      Always keyMgmtStep (SlotRevoked slot) (edgeKeyMgmtRevokeKey km slot).1 calls ∧
        Throughout keyMgmtStep (fun km call => ¬call.SucceedsWith km slot)
          (edgeKeyMgmtRevokeKey km slot).1 calls := by
  intro permanent
  have revoked := (permanent twoKeys 0 [.unwrapKey 1 wrappedZeros 0] rfl).1.last.1
  have active : ((after keyMgmtStep oneRevoked [.unwrapKey 1 wrappedZeros 0]).slotAt 0).active =
      true := by decide
  exact Bool.false_ne_true (revoked.symm.trans active)

end Edge

end MiniIotRobotEdge

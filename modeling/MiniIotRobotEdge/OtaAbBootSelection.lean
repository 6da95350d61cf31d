import MiniIotRobotEdge.OtaAbUpdate

/-!
# Boot selection

Besides the state, a run keeps which slots were marked as failed and not
provisioned since.  While no operation activates such a slot again, it is never
bootable, and `ab_update_select_boot_slot` can reach it through its fall-back
only, which takes slot 0 whatever happened to it.
-/

namespace MiniIotRobotEdge

namespace Ota

variable {σ : Type}

/-- A state with the slots that failed and were not provisioned since. -/
structure AbTracked (σ : Type) where
  st : AbState σ
  failed : Fin 2 → Bool

def setFailed (failed : Fin 2 → Bool) (slot : UInt8) (value : Bool) : Fin 2 → Bool :=
  match slotIndex slot with
  | none => failed
  | some index => Function.update failed index value

/-- The slots that count as failed behind an operation: `mark_boot_failed` and
`rollback` make a slot invalid, `set_standby_bootable` provisions it again. -/
def failedAfter (st : AbState σ) (failed : Fin 2 → Bool) : AbChange → Fin 2 → Bool
  | .markBootFailed => setFailed failed st.ctx.partition.bootSlot true
  | .rollback => setFailed failed st.ctx.partition.activeSlot true
  | .setStandbyBootable _ _ _ => setFailed failed st.ctx.standbySlotCache false
  | _ => failed

def trackedStep (hal : AbUpdateHal σ) (op : AbChange) (tracked : AbTracked σ) :
    Option (AbTracked σ) :=
  (abChangeStep hal op tracked.st).map fun result =>
    { st := result.2
      failed :=
        if op.Refused tracked.st then tracked.failed
        else failedAfter tracked.st tracked.failed op }

def trackedRun (hal : AbUpdateHal σ) : List AbChange → AbTracked σ → Option (AbTracked σ)
  | [], tracked => some tracked
  | op :: rest, tracked => (trackedStep hal op tracked).bind (trackedRun hal rest)

/-- A loaded state; the slots that are invalid on flash have failed. -/
def trackedStart (st : AbState σ) : AbTracked σ where
  st := st
  failed := fun index => decide ((st.ctx.partition.slots index).state = abSlotStateInvalid)

/-- The slot number does not name a failed slot that could be booted. -/
def NotReactivated (tracked : AbTracked σ) (slot : UInt8) : Prop :=
  ∀ index, slotIndex slot = some index → tracked.failed index = true →
    (tracked.st.ctx.partition.slots index).bootable = 0

/-- There is a slot 1. -/
local instance twoSlots : NeZero 2 := ⟨by decide⟩

/-- The condition on a step: no failed slot is activated without being
provisioned, and the fall-back does not take a failed slot 0 while slot 1 has
booted. -/
def StepSound (tracked : AbTracked σ) : AbChange → Prop
  | .selectBootSlot =>
      ¬(tracked.st.ctx.partition.NoneBootable ∧ tracked.failed 0 = true ∧
        (tracked.st.ctx.partition.slots 1).bootSuccessful = 1)
  | .markBootSuccessful => NotReactivated tracked tracked.st.ctx.partition.bootSlot
  | .switchAndReboot => NotReactivated tracked tracked.st.ctx.standbySlotCache
  | .rollback =>
      ∀ index, slotIndex (otherSlot tracked.st.ctx.partition.activeSlot) = some index →
        tracked.failed index = false
  | _ => True

/-- Every step of the run meets the condition. -/
def RunSound (hal : AbUpdateHal σ) : List AbChange → AbTracked σ → Prop
  | [], _ => True
  | op :: rest, tracked =>
      StepSound tracked op ∧ ∀ next, trackedStep hal op tracked = some next → RunSound hal rest next

/-- A slot that `ab_update_select_boot_slot` selects here has not failed, or the
other slot has not booted. -/
def SelectionSafe (hal : AbUpdateHal σ) (tracked : AbTracked σ) : Prop :=
  ∀ selected, (abUpdateSelectBootSlot hal tracked.st).1 = some selected →
    tracked.failed selected = true →
      (tracked.st.ctx.partition.slots (selected + 1)).bootSuccessful ≠ 1

/-- All slot numbers of a context name slots. -/
structure IndicesFit (ctx : AbUpdateCtx) : Prop where
  activeSlot : ctx.partition.activeSlot.toNat < 2
  bootSlot : ctx.partition.bootSlot.toNat < 2
  activeSlotCache : ctx.activeSlotCache.toNat < 2
  standbySlotCache : ctx.standbySlotCache.toNat < 2

theorem IndicesFit.congr {first second : AbUpdateCtx} (fit : IndicesFit second)
    (same : SameFields first second) : IndicesFit first := by
  constructor
  · rw [same.activeSlot]
    exact fit.activeSlot
  · rw [same.bootSlot]
    exact fit.bootSlot
  · rw [same.activeSlotCache]
    exact fit.activeSlotCache
  · rw [same.standbySlotCache]
    exact fit.standbySlotCache

theorem toNat_otherSlot_lt (slot : UInt8) : (otherSlot slot).toNat < 2 := by
  unfold otherSlot abUpdateMaxSlots
  rw [UInt8.toNat_ofNat', Nat.mod_eq_of_lt (by omega)]
  omega

/-- No operation loses its slots. -/
theorem IndicesFit.changed {st : AbState σ} (fit : IndicesFit st.ctx) (hal : AbUpdateHal σ)
    {op : AbChange} (call : (AbOp.change op).IsCall) :
    ∃ changed, op.changed hal st = some changed ∧ IndicesFit changed.ctx := by
  obtain ⟨active, boot, activeCache, standbyCache⟩ := fit
  have other := toNat_otherSlot_lt
  cases op with
  | partitionInit totalSize => exact call.elim
  | selectBootSlot =>
      have sameActive := st.ctx.partition.selected_activeSlot (currentTime hal st.device)
      refine ⟨_, rfl, sameActive ▸ active, ?_, activeCache, standbyCache⟩
      exact (toNat_slotNumber _).trans_lt (Fin.isLt _)
  | markBootSuccessful => exact ⟨_, oneSlot_eq_some _ boot, boot, boot, boot, other _⟩
  | markBootFailed => exact ⟨_, oneSlot_eq_some _ boot, active, boot, activeCache, standbyCache⟩
  | setStandbyBootable versionMajor versionMinor versionPatch =>
      exact ⟨_, bothSlots_eq_some _ standbyCache activeCache, active, boot, activeCache,
        standbyCache⟩
  | switchAndReboot =>
      exact ⟨_, oneSlot_eq_some _ standbyCache, standbyCache, boot, activeCache, standbyCache⟩
  | rollback =>
      exact ⟨_, bothSlots_eq_some _ active (other _), other _, boot, other _, active⟩

/-- A failed slot cannot be booted. -/
def FailedNotBootable (slots : Fin 2 → AbSlotMetadata) (failed : Fin 2 → Bool) : Prop :=
  ∀ index, failed index = true → ¬(slots index).IsBootable

theorem FailedNotBootable.update {slots : Fin 2 → AbSlotMetadata}
    {failed failedNext : Fin 2 → Bool} (kept : FailedNotBootable slots failed) (index : Fin 2)
    {slot : AbSlotMetadata} (here : failedNext index = true → ¬slot.IsBootable)
    (others : ∀ other ≠ index, failedNext other = true → failed other = true) :
    FailedNotBootable (Function.update slots index slot) failedNext := by
  intro target isFailed
  by_cases same : target = index
  · subst same
    rw [Function.update_self]
    exact here isFailed
  · rw [Function.update_of_ne same]
    exact kept target (others target same isFailed)

theorem not_isBootable_of_state {slot : AbSlotMetadata} {state : AbSlotState}
    (hasState : slot.state = state) (other : state ≠ abSlotStateActive) : ¬slot.IsBootable :=
  fun bootable => other (hasState ▸ bootable.2)

theorem setFailed_self {failed : Fin 2 → Bool} {slot : UInt8} {value : Bool} {index : Fin 2}
    (isIndex : slotIndex slot = some index) : setFailed failed slot value =
      Function.update failed index value := by
  unfold setFailed
  rw [isIndex]

theorem chosenSlot_of_noneBootable {hdr : AbPartitionHeader} (noCandidate : hdr.NoneBootable) :
    hdr.chosenSlot = 0 := by
  unfold AbPartitionHeader.chosenSlot
  rw [if_pos noCandidate]

/-- Outside of the fall-back only a bootable slot is chosen. -/
theorem chosenSlot_isBootable {hdr : AbPartitionHeader} (candidate : ¬hdr.NoneBootable) :
    (hdr.slots hdr.chosenSlot).IsBootable := by
  unfold AbPartitionHeader.chosenSlot
  rw [if_neg candidate]
  by_cases first : (hdr.slots 0).IsBootable
  · by_cases second : (hdr.slots 1).IsBootable
    · rw [if_neg (by simp [second]), if_neg (by simp [first])]
      split_ifs <;> assumption
    · rw [if_pos ⟨first, second⟩]
      exact first
  · have second : (hdr.slots 1).IsBootable := by
      by_contra second
      exact candidate ⟨first, second⟩
    rw [if_neg (by simp [first]), if_pos ⟨first, second⟩]
    exact second

theorem revived_slots_of_ne {hdr : AbPartitionHeader} {index : Fin 2}
    (other : index ≠ hdr.chosenSlot) : hdr.revived.slots index = hdr.slots index := by
  unfold AbPartitionHeader.revived
  split
  case isTrue noCandidate =>
    rw [chosenSlot_of_noneBootable noCandidate] at other
    exact Function.update_of_ne other _ _
  case isFalse => rfl

/-- Selecting starts a slot, which then cannot be selected again. -/
theorem FailedNotBootable.selected {hdr : AbPartitionHeader} {failed : Fin 2 → Bool}
    (kept : FailedNotBootable hdr.slots failed) (now : BitVec 32) :
    FailedNotBootable (hdr.selected now).slots failed := by
  intro index isFailed
  by_cases here : index = hdr.chosenSlot
  · subst here
    have booting : ((hdr.selected now).slots hdr.chosenSlot).state = abSlotStateBooting := by
      unfold AbPartitionHeader.selected AbPartitionHeader.modifySlot
      dsimp only
      rw [Function.update_self]
    exact not_isBootable_of_state booting (by decide)
  · have same : (hdr.selected now).slots index = hdr.slots index :=
      (Function.update_of_ne here _ _).trans (revived_slots_of_ne here)
    rw [same]
    exact kept index isFailed

theorem slotIndex_otherSlot_ne {slot : UInt8} {current previous : Fin 2}
    (isCurrent : slotIndex slot = some current)
    (isPrevious : slotIndex (otherSlot slot) = some previous) : previous ≠ current := by
  unfold slotIndex at isCurrent isPrevious
  split at isCurrent
  case isFalse => simp at isCurrent
  case isTrue inside =>
    split at isPrevious
    case isFalse => simp at isPrevious
    case isTrue =>
      have other := toNat_otherSlot inside
      cases isCurrent
      cases isPrevious
      intro same
      have sameNumber := congrArg Fin.val same
      dsimp only at sameNumber
      omega

/-- What one sound operation preserves. -/
theorem FailedNotBootable.changed {hal : AbUpdateHal σ} {tracked : AbTracked σ}
    (kept : FailedNotBootable tracked.st.ctx.partition.slots tracked.failed) {op : AbChange}
    (call : (AbOp.change op).IsCall) (sound : StepSound tracked op) {changed : AbState σ}
    (isChanged : op.changed hal tracked.st = some changed) :
    FailedNotBootable changed.ctx.partition.slots
      (failedAfter tracked.st tracked.failed op) := by
  cases op with
  | partitionInit totalSize => exact call.elim
  | selectBootSlot =>
      cases isChanged
      exact kept.selected _
  | markBootSuccessful =>
      obtain ⟨index, isIndex, rfl⟩ := Option.map_eq_some_iff.mp isChanged
      apply kept.update index
      · intro isFailed bootable
        exact bootable.1 (sound index isIndex isFailed)
      · exact fun _ _ isFailed => isFailed
  | markBootFailed =>
      obtain ⟨index, isIndex, rfl⟩ := Option.map_eq_some_iff.mp isChanged
      rw [failedAfter, setFailed_self isIndex]
      apply kept.update index
      · exact fun _ => not_isBootable_of_state (rfl : _ = abSlotStateInvalid) (by decide)
      · intro other apart isFailed
        rwa [Function.update_of_ne apart] at isFailed
  | setStandbyBootable versionMajor versionMinor versionPatch =>
      obtain ⟨standby, isStandby, bound⟩ := Option.bind_eq_some_iff.mp isChanged
      obtain ⟨active, isActive, rfl⟩ := Option.map_eq_some_iff.mp bound
      rw [failedAfter, setFailed_self isStandby]
      apply FailedNotBootable.update _ active
      · exact fun _ => not_isBootable_of_state (rfl : _ = abSlotStateInactive) (by decide)
      · exact fun _ _ isFailed => isFailed
      · apply kept.update standby
        · exact fun _ => not_isBootable_of_state (rfl : _ = abSlotStateInactive) (by decide)
        · intro other apart isFailed
          rwa [Function.update_of_ne apart] at isFailed
  | switchAndReboot =>
      obtain ⟨index, isIndex, rfl⟩ := Option.map_eq_some_iff.mp isChanged
      apply kept.update index
      · intro isFailed bootable
        exact bootable.1 (sound index isIndex isFailed)
      · exact fun _ _ isFailed => isFailed
  | rollback =>
      obtain ⟨current, isCurrent, bound⟩ := Option.bind_eq_some_iff.mp isChanged
      obtain ⟨previous, isPrevious, rfl⟩ := Option.map_eq_some_iff.mp bound
      rw [failedAfter, setFailed_self isCurrent]
      apply FailedNotBootable.update _ previous
      · intro isFailed
        rw [Function.update_of_ne (slotIndex_otherSlot_ne isCurrent isPrevious),
          sound previous isPrevious] at isFailed
        simp at isFailed
      · exact fun _ _ isFailed => isFailed
      · apply kept.update current
        · exact fun _ => not_isBootable_of_state (rfl : _ = abSlotStateInvalid) (by decide)
        · intro other apart isFailed
          rwa [Function.update_of_ne apart] at isFailed

/-- What a run keeps: slots to act on, and failed slots that cannot be booted. -/
structure SelectionInvariant (tracked : AbTracked σ) : Prop where
  indices : IndicesFit tracked.st.ctx
  failed : FailedNotBootable tracked.st.ctx.partition.slots tracked.failed

theorem SelectionInvariant.step {hal : AbUpdateHal σ} {tracked : AbTracked σ}
    (invariant : SelectionInvariant tracked) {op : AbChange} (call : (AbOp.change op).IsCall)
    (sound : StepSound tracked op) :
    ∃ next, trackedStep hal op tracked = some next ∧ SelectionInvariant next := by
  obtain ⟨changed, isChanged, indices⟩ := invariant.indices.changed hal call
  unfold trackedStep
  rw [abChangeStep_eq, isChanged]
  split
  · exact ⟨_, rfl, invariant⟩
  · have same := op.finish_sameFields hal tracked.st changed
    refine ⟨_, rfl, indices.congr same, ?_⟩
    dsimp only
    rw [same.slots]
    exact invariant.failed.changed call sound isChanged

theorem SelectionInvariant.run {hal : AbUpdateHal σ} (ops : List AbChange)
    {tracked : AbTracked σ} (invariant : SelectionInvariant tracked)
    (calls : ∀ op ∈ ops, (AbOp.change op).IsCall) (sound : RunSound hal ops tracked) :
    ∃ final, trackedRun hal ops tracked = some final ∧ SelectionInvariant final := by
  induction ops generalizing tracked with
  | nil => exact ⟨tracked, rfl, invariant⟩
  | cons op rest ih =>
      obtain ⟨next, stepped, kept⟩ := invariant.step (calls op (List.mem_cons_self ..)) sound.1
      obtain ⟨final, ran, finalKept⟩ := ih kept
        (fun later mem => calls later (List.mem_cons_of_mem op mem)) (sound.2 next stepped)
      refine ⟨final, ?_, finalKept⟩
      rw [trackedRun, stepped]
      exact ran

theorem SelectionInvariant.selectionSafe {hal : AbUpdateHal σ} {tracked : AbTracked σ}
    (invariant : SelectionInvariant tracked) (sound : StepSound tracked .selectBootSlot) :
    SelectionSafe hal tracked := by
  intro selected isSelected isFailed
  have chosen : selected = tracked.st.ctx.partition.chosenSlot := by
    unfold abUpdateSelectBootSlot at isSelected
    split at isSelected
    · simp at isSelected
    · exact (Option.some.inj isSelected).symm
  have noCandidate : tracked.st.ctx.partition.NoneBootable := by
    by_contra candidate
    apply invariant.failed selected isFailed
    rw [chosen]
    exact chosenSlot_isBootable candidate
  rw [chosenSlot_of_noneBootable noCandidate] at chosen
  subst chosen
  exact fun booted => sound ⟨noCandidate, isFailed, booted⟩

theorem RunSound.append {hal : AbUpdateHal σ} {ops rest : List AbChange} {tracked : AbTracked σ}
    (sound : RunSound hal (ops ++ rest) tracked) :
    RunSound hal ops tracked ∧
      ∀ final, trackedRun hal ops tracked = some final → RunSound hal rest final := by
  induction ops generalizing tracked with
  | nil =>
      refine ⟨trivial, fun final ran => ?_⟩
      cases ran
      exact sound
  | cons op later ih =>
      obtain ⟨stepSound, laterSound⟩ := sound
      refine ⟨⟨stepSound, fun next stepped => (ih (laterSound next stepped)).1⟩, ?_⟩
      intro final ran
      obtain ⟨next, stepped, laterRan⟩ := Option.bind_eq_some_iff.mp ran
      exact (ih (laterSound next stepped)).2 final laterRan

/-- A slot that is loaded as failed is invalid. -/
theorem SelectionInvariant.start {hal : AbUpdateHal σ} {before st : AbState σ}
    (loaded : abUpdatePartitionLoad hal before = (.ok, st))
    (activeInside : st.ctx.partition.activeSlot.toNat < 2)
    (bootInside : st.ctx.partition.bootSlot.toNat < 2) : SelectionInvariant (trackedStart st) := by
  obtain ⟨cached, standby⟩ := abUpdatePartitionLoad_caches loaded
  refine ⟨⟨activeInside, bootInside, ?_, ?_⟩, ?_⟩
  · exact cached ▸ activeInside
  · exact standby ▸ toNat_otherSlot_lt _
  · intro index isFailed
    have invalid : (st.ctx.partition.slots index).state = abSlotStateInvalid :=
      of_decide_eq_true isFailed
    exact not_isBootable_of_state invalid (by decide)

/-- In a run whose steps are sound, no failed slot is selected while the other
slot has booted. -/
theorem selection_safe {hal : AbUpdateHal σ} {before st : AbState σ}
    (loaded : abUpdatePartitionLoad hal before = (.ok, st))
    (activeInside : st.ctx.partition.activeSlot.toNat < 2)
    (bootInside : st.ctx.partition.bootSlot.toNat < 2) {ops : List AbChange}
    (calls : ∀ op ∈ ops, (AbOp.change op).IsCall)
    (sound : RunSound hal (ops ++ [.selectBootSlot]) (trackedStart st)) :
    ∃ final, trackedRun hal ops (trackedStart st) = some final ∧ SelectionSafe hal final := by
  obtain ⟨opsSound, selectSound⟩ := sound.append
  have start := SelectionInvariant.start loaded activeInside bootInside
  obtain ⟨final, ran, kept⟩ := start.run ops calls opsSound
  exact ⟨final, ran, kept.selectionSafe (selectSound final ran).1⟩

theorem selection_safe_after_failure :
    ∃ final, trackedRun memoryHal [.markBootFailed] (trackedStart sampleState) = some final ∧
      SelectionSafe memoryHal final := by
  have kept : (trackedStep memoryHal .markBootFailed (trackedStart sampleState)).map
      (fun next => next.failed 0) = some false := by decide +kernel
  apply selection_safe sampleState_loaded (by decide) (by decide)
  · intro op mem
    rw [List.mem_singleton.mp mem]
    trivial
  · refine ⟨trivial, fun next stepped => ⟨?_, fun _ _ => trivial⟩⟩
    rintro ⟨_, failed, _⟩
    rw [stepped, Option.map_some, failed] at kept
    simp at kept

/-- Slot A is provisioned, switched to, booted and marked as failed; slot B has
booted before. -/
theorem sampleState_failed_update :
    (trackedRun memoryHal [.setStandbyBootable 0 0 0, .switchAndReboot, .selectBootSlot,
      .markBootFailed] (trackedStart sampleState)).map (fun final =>
        (final.failed 0, (abUpdateSelectBootSlot memoryHal final.st).1,
          (final.st.ctx.partition.slots 1).bootSuccessful)) =
      some (true, some 0, 1) := by
  decide +kernel

/-- After a failed update the failed slot is selected again. -/
theorem selection_unsafe_failed_update :
    ¬∀ (ops : List AbChange) (final : AbTracked Memory),
      abUpdatePartitionLoad memoryHal ⟨abUpdateInit, sampleFlash⟩ = (.ok, sampleState) →
      (∀ op ∈ ops, (AbOp.change op).IsCall) →
      trackedRun memoryHal ops (trackedStart sampleState) = some final →
      SelectionSafe memoryHal final := by
  intro safe
  obtain ⟨final, ran, fields⟩ := Option.map_eq_some_iff.mp sampleState_failed_update
  simp only [Prod.mk.injEq] at fields
  obtain ⟨failed, selected, booted⟩ := fields
  apply safe _ final sampleState_loaded _ ran 0 selected failed booted
  intro op mem
  simp only [List.mem_cons, List.not_mem_nil, or_false] at mem
  rcases mem with rfl | rfl | rfl | rfl <;> trivial

end Ota

end MiniIotRobotEdge

import MiniIotRobotEdge.OtaAbUpdate

/-!
# Isolation of the active slot

The active slot is kept in the header and once more in the context.  All
operations but `ab_update_switch_and_reboot` change both alike, so that
`ab_update_write_to_standby` writes into the other slot.
-/

namespace MiniIotRobotEdge

namespace Ota

/-- The context agrees with its header about the active slot. -/
structure InSync (ctx : AbUpdateCtx) : Prop where
  cache : ctx.activeSlotCache = ctx.partition.activeSlot
  inside : ctx.partition.activeSlot.toNat < 2
  standby : ctx.standbySlotCache.toNat = 1 - ctx.partition.activeSlot.toNat

/-- The range of a slot does not run over the 32 bits of an address. -/
def SlotsFit (slots : Fin 2 → AbSlotMetadata) : Prop :=
  ∀ index, (slots index).slotOffset.toNat + (slots index).slotSize.toNat ≤ 2 ^ 32

/-- The two slot numbers of the header name slots, and the slots have addresses. -/
structure AbPartitionHeader.Fits (hdr : AbPartitionHeader) : Prop where
  activeSlot : hdr.activeSlot.toNat < 2
  bootSlot : hdr.bootSlot.toNat < 2
  slots : SlotsFit hdr.slots

/-- Whatever `ab_update_write_to_standby` writes for these arguments lies in a
slot that is not the active one. -/
def WriteIsolated (ctx : AbUpdateCtx) (len : Nat) (offset : BitVec 32) : Prop :=
  ∀ index address, slotIndex ctx.standbySlotCache = some index →
    standbyWriteOffset (ctx.partition.slots index) len offset = .ok address →
    ∃ target : Fin 2, slotNumber target ≠ ctx.partition.activeSlot ∧
      (ctx.partition.slots target).slotOffset.toNat ≤ address ∧
      address + len ≤ (ctx.partition.slots target).slotOffset.toNat +
        (ctx.partition.slots target).slotSize.toNat

/-- What every call but the switch preserves. -/
structure Isolated (ctx : AbUpdateCtx) : Prop where
  inSync : InSync ctx
  bootSlot : ctx.partition.bootSlot.toNat < 2
  slots : SlotsFit ctx.partition.slots

theorem Isolated.standbyInside {ctx : AbUpdateCtx} (isolated : Isolated ctx) :
    ctx.standbySlotCache.toNat < 2 := by
  have standby := isolated.inSync.standby
  omega

theorem Isolated.congr {first second : AbUpdateCtx} (isolated : Isolated second)
    (same : SameFields first second) : Isolated first := by
  refine ⟨⟨?_, ?_, ?_⟩, ?_, ?_⟩
  · rw [same.activeSlotCache, same.activeSlot]
    exact isolated.inSync.cache
  · rw [same.activeSlot]
    exact isolated.inSync.inside
  · rw [same.standbySlotCache, same.activeSlot]
    exact isolated.inSync.standby
  · rw [same.bootSlot]
    exact isolated.bootSlot
  · intro index
    rw [same.slots]
    exact isolated.slots index

/-- A change of a slot that leaves its range alone. -/
theorem SlotsFit.update {slots : Fin 2 → AbSlotMetadata} (fit : SlotsFit slots) (index : Fin 2)
    {slot : AbSlotMetadata} (sameOffset : slot.slotOffset = (slots index).slotOffset)
    (sameSize : slot.slotSize = (slots index).slotSize) :
    SlotsFit (Function.update slots index slot) := by
  intro target
  by_cases here : target = index
  · subst here
    rw [Function.update_self, sameOffset, sameSize]
    exact fit target
  · rw [Function.update_of_ne here]
    exact fit target

theorem SlotsFit.selected {hdr : AbPartitionHeader} (fit : SlotsFit hdr.slots) (now : BitVec 32) :
    SlotsFit (hdr.selected now).slots := by
  have revived : SlotsFit hdr.revived.slots := by
    unfold AbPartitionHeader.revived
    split
    · exact SlotsFit.update fit 0 rfl rfl
    · exact fit
  exact SlotsFit.update revived hdr.chosenSlot rfl rfl

variable {σ : Type}

/-- A call other than the switch has a result to save, and keeps the slots
apart. -/
theorem Isolated.changed {hal : AbUpdateHal σ} {st : AbState σ} (isolated : Isolated st.ctx)
    {op : AbChange} (call : (AbOp.change op).IsCall) (noSwitch : op ≠ .switchAndReboot) :
    ∃ changed, op.changed hal st = some changed ∧ Isolated changed.ctx := by
  obtain ⟨⟨cache, inside, standby⟩, boot, fit⟩ := isolated
  have otherInside : (otherSlot st.ctx.partition.activeSlot).toNat < 2 := by
    rw [toNat_otherSlot inside]
    omega
  have standbyInside : st.ctx.standbySlotCache.toNat < 2 := by omega
  have cacheInside : st.ctx.activeSlotCache.toNat < 2 := by rwa [cache]
  cases op with
  | partitionInit totalSize => exact call.elim
  | switchAndReboot => exact (noSwitch rfl).elim
  | selectBootSlot =>
      have sameActive := st.ctx.partition.selected_activeSlot (currentTime hal st.device)
      refine ⟨_, rfl, ⟨cache.trans sameActive.symm, ?_, ?_⟩, ?_, SlotsFit.selected fit _⟩
      · exact sameActive ▸ inside
      · exact sameActive ▸ standby
      · exact (toNat_slotNumber _).trans_lt (Fin.isLt _)
  | markBootSuccessful =>
      exact ⟨_, oneSlot_eq_some _ boot, ⟨rfl, boot, toNat_otherSlot boot⟩, boot,
        SlotsFit.update fit _ rfl rfl⟩
  | markBootFailed =>
      exact ⟨_, oneSlot_eq_some _ boot, ⟨cache, inside, standby⟩, boot,
        SlotsFit.update fit _ rfl rfl⟩
  | setStandbyBootable versionMajor versionMinor versionPatch =>
      refine ⟨_, bothSlots_eq_some _ standbyInside cacheInside, ⟨cache, inside, standby⟩, boot, ?_⟩
      apply SlotsFit.update
      · exact SlotsFit.update fit _ rfl rfl
      · rfl
      · rfl
  | rollback =>
      refine ⟨_, bothSlots_eq_some _ inside otherInside, ⟨rfl, otherInside, ?_⟩, boot, ?_⟩
      · change st.ctx.partition.activeSlot.toNat = 1 - (otherSlot _).toNat
        rw [toNat_otherSlot inside]
        omega
      · apply SlotsFit.update
        · exact SlotsFit.update fit _ rfl rfl
        · rfl
        · rfl

/-- One call keeps the slots apart. -/
theorem Isolated.step {hal : AbUpdateHal σ} {st : AbState σ} (isolated : Isolated st.ctx)
    {op : AbOp} (call : op.IsCall) (noSwitch : op ≠ .change .switchAndReboot) :
    ∃ result, abStep hal op st = some result ∧ Isolated result.2.ctx := by
  cases op with
  | change op =>
      have changeNoSwitch : op ≠ .switchAndReboot := fun same => noSwitch (same ▸ rfl)
      obtain ⟨changed, isChanged, kept⟩ :=
        @Isolated.changed σ hal st isolated op call changeNoSwitch
      change ∃ result, abChangeStep hal op st = some result ∧ Isolated result.2.ctx
      rw [abChangeStep_eq, isChanged]
      split
      · exact ⟨_, rfl, isolated⟩
      · exact ⟨_, rfl, kept.congr (op.finish_sameFields hal st changed)⟩
  | partitionLoad => exact call.elim
  | writeToStandby data offset =>
      have standbyInside := isolated.standbyInside
      refine ⟨_, oneSlot_eq_some _ standbyInside, ?_⟩
      dsimp only
      split <;> exact isolated

/-- Every sequence of calls keeps the slots apart. -/
theorem Isolated.run {hal : AbUpdateHal σ} (ops : List AbOp) {st : AbState σ}
    (isolated : Isolated st.ctx)
    (calls : ∀ op ∈ ops, op.IsCall ∧ op ≠ .change .switchAndReboot) :
    ∃ final, abRun hal ops st = some final ∧ Isolated final.ctx := by
  induction ops generalizing st with
  | nil => exact ⟨st, rfl, isolated⟩
  | cons op rest ih =>
      obtain ⟨call, noSwitch⟩ := calls op (List.mem_cons_self ..)
      obtain ⟨result, stepped, kept⟩ := @Isolated.step σ hal st isolated op call noSwitch
      obtain ⟨final, ran, finalKept⟩ := ih kept fun later mem =>
        calls later (List.mem_cons_of_mem op mem)
      refine ⟨final, ?_, finalKept⟩
      rw [abRun, stepped]
      exact ran

/-- In an isolated context a write stays in the standby slot. -/
theorem Isolated.writeIsolated {ctx : AbUpdateCtx} (isolated : Isolated ctx) {len : Nat}
    {offset : BitVec 32} (fits : offset.toNat + len < 2 ^ 64) : WriteIsolated ctx len offset := by
  intro index address isIndex issued
  rw [slotIndex_eq_some isolated.standbyInside] at isIndex
  cases isIndex
  have fit := isolated.slots ⟨ctx.standbySlotCache.toNat, isolated.standbyInside⟩
  have standby := isolated.inSync.standby
  unfold standbyWriteOffset at issued
  rw [Nat.mod_eq_of_lt fits] at issued
  split_ifs at issued with empty full
  cases issued
  refine ⟨⟨ctx.standbySlotCache.toNat, isolated.standbyInside⟩, ?_, ?_⟩
  · intro same
    have sameNumber := congrArg UInt8.toNat same
    rw [toNat_slotNumber] at sameNumber
    dsimp only at sameNumber
    have inside := isolated.inSync.inside
    omega
  · rw [BitVec.toNat_add, Nat.mod_eq_of_lt (by omega)]
    omega

/-- A header that is loaded with slot numbers below two and slots inside of the
address range stays in step with the context in all calls but the switch, and
no write reaches the active slot. -/
theorem slots_isolated {hal : AbUpdateHal σ} {before st : AbState σ}
    (loaded : abUpdatePartitionLoad hal before = (.ok, st)) (fits : st.ctx.partition.Fits)
    {ops : List AbOp} (calls : ∀ op ∈ ops, op.IsCall ∧ op ≠ .change .switchAndReboot) :
    ∃ final, abRun hal ops st = some final ∧ InSync final.ctx ∧
      ∀ (data : List UInt8) (offset : BitVec 32), offset.toNat + data.length < 2 ^ 64 →
        WriteIsolated final.ctx data.length offset := by
  have start : Isolated st.ctx := by
    obtain ⟨cached, standby⟩ := abUpdatePartitionLoad_caches loaded
    refine ⟨⟨cached, fits.activeSlot, ?_⟩, fits.bootSlot, fits.slots⟩
    rw [standby]
    exact toNat_otherSlot fits.activeSlot
  obtain ⟨final, ran, isolated⟩ := start.run ops calls
  exact ⟨final, ran, isolated.inSync, fun data offset small => isolated.writeIsolated small⟩

theorem slots_isolated_rollback :
    ∃ final, abRun memoryHal [.change .rollback, .writeToStandby [1] 0] sampleState = some final ∧
      InSync final.ctx ∧
      ∀ (data : List UInt8) (offset : BitVec 32), offset.toNat + data.length < 2 ^ 64 →
        WriteIsolated final.ctx data.length offset := by
  have fits : sampleState.ctx.partition.Fits :=
    ⟨by decide, by decide, Fin.forall_fin_two.mpr ⟨by decide, by decide⟩⟩
  apply slots_isolated sampleState_loaded fits
  intro op mem
  rcases List.mem_pair.mp mem with rfl | rfl
  · exact ⟨trivial, by decide⟩
  · exact ⟨trivial, by decide⟩

/-- What the switch of the sample leaves in the context, and the address of the
next write to the standby slot. -/
theorem sampleState_switched :
    (abRun memoryHal [.change .switchAndReboot] sampleState).map (fun final =>
      (final.ctx.partition.activeSlot, final.ctx.activeSlotCache, final.ctx.standbySlotCache,
        standbyWriteOffset (final.ctx.partition.slots 0) 1 0,
        (final.ctx.partition.slots 1).slotOffset)) =
      some (0, 1, 0, .ok 304, 652) := by
  decide +kernel

/-- Behind the switch the next write goes to the active slot. -/
theorem slots_not_isolated_switched :
    ¬∀ (ops : List AbOp) (final : AbState Memory),
      abUpdatePartitionLoad memoryHal ⟨abUpdateInit, sampleFlash⟩ = (.ok, sampleState) →
      (∀ op ∈ ops, op.IsCall) → abRun memoryHal ops sampleState = some final →
      InSync final.ctx ∧ WriteIsolated final.ctx 1 0 := by
  intro isolated
  obtain ⟨final, ran, fields⟩ := Option.map_eq_some_iff.mp sampleState_switched
  simp only [Prod.mk.injEq] at fields
  obtain ⟨active, _, standby, address, offset⟩ := fields
  have calls : ∀ op ∈ [AbOp.change .switchAndReboot], op.IsCall := by
    intro op mem
    rw [List.mem_singleton.mp mem]
    trivial
  obtain ⟨_, write⟩ := isolated _ final sampleState_loaded calls ran
  obtain ⟨target, other, lower, _⟩ := write 0 304 (by rw [standby]; rfl) address
  rw [active] at other
  obtain rfl | rfl : target = 0 ∨ target = 1 := by omega
  · exact other (by decide)
  · rw [offset] at lower
    exact absurd lower (by decide)

end Ota

end MiniIotRobotEdge

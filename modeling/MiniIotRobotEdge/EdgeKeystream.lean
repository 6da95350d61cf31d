import MiniIotRobotEdge.EdgeCrypto

/-!
# The counter blocks of CTR and GCM

Both modes feed a run of the 16-byte counter to the cipher, GCM the counter
itself, CTR the first four bytes of it behind the nonce.  The counter goes up at
its other end, so the blocks of CTR do not change, and GCM takes its first
counter from the block `j0` of the tag by setting the two lowest bits to 2,
which is two above, one above, equal or one below.
-/

namespace MiniIotRobotEdge

namespace Edge

open ByteCounter

inductive EdgeCtrCall
  | encrypt (plain : Bytes)
  | decrypt (cipher : Bytes)

def EdgeCtrCall.text : EdgeCtrCall → Bytes
  | .encrypt plain => plain
  | .decrypt cipher => cipher

def edgeCtrCall (ctx : EdgeCryptoCtx) : EdgeCtrCall → CtrResult
  | .encrypt plain => edgeAesCtrEncrypt ctx plain
  | .decrypt cipher => edgeAesCtrDecrypt ctx cipher

/-- The blocks that a sequence of calls gives to `aes_enc`. -/
def ctrBlocks : EdgeCryptoCtx → List EdgeCtrCall → List Bytes
  | _, [] => []
  | ctx, call :: rest =>
      let result := edgeCtrCall ctx call
      result.blocks ++ ctrBlocks result.ctx rest

/-- The 16-byte blocks of a text, the last one possibly short. -/
def blockCount (text : Bytes) : Nat := (text.length + 15) / 16

def totalBlocks (calls : List EdgeCtrCall) : Nat :=
  (calls.map fun call => blockCount call.text).sum

theorem length_chunks (text : Bytes) : (chunks text).length = blockCount text := by
  simp [chunks, blockCount]

section CounterMode

/-- The block for one value of the counter. -/
def counterBlock (nonce counter : Bytes) : Bytes := ctrPrep ⟨[], counter, nonce, 0, true⟩

theorem ctrLoop_eq (ak : Bytes) (ctx : EdgeCryptoCtx) (texts : List Bytes) :
    (ctrLoop ak ctx texts).blocks =
        (List.iterate ctrInc ctx.counter texts.length).map (counterBlock ctx.nonce) ∧
      (ctrLoop ak ctx texts).ctx.counter = ctrInc^[texts.length] ctx.counter ∧
      (ctrLoop ak ctx texts).ctx.nonce = ctx.nonce ∧
      (ctrLoop ak ctx texts).ctx.initialized = ctx.initialized := by
  induction texts generalizing ctx with
  | nil => exact ⟨rfl, rfl, rfl, rfl⟩
  | cons chunk rest ih =>
      obtain ⟨blocks, counter, nonce, initialized⟩ := ih
        { ctx with counter := ctrInc ctx.counter, blockCount := ctx.blockCount + 1 }
      refine ⟨?_, counter, nonce, initialized⟩
      rw [ctrLoop, List.length_cons, List.iterate, List.map_cons]
      exact congrArg (ctrPrep ctx :: ·) blocks

theorem edgeCtrCall_eq (ctx : EdgeCryptoCtx) (call : EdgeCtrCall) :
    edgeCtrCall ctx call = edgeAesCtrEncrypt ctx call.text := by
  cases call with
  | encrypt plain => rfl
  | decrypt cipher => rfl

/-- Over the calls of a run the counter is counted off without a break. -/
theorem ctrBlocks_eq (calls : List EdgeCtrCall) (ctx : EdgeCryptoCtx)
    (ready : ctx.initialized = true) :
    ctrBlocks ctx calls =
      (List.iterate ctrInc ctx.counter (totalBlocks calls)).map (counterBlock ctx.nonce) := by
  induction calls generalizing ctx with
  | nil => rfl
  | cons call rest ih =>
      have first : edgeCtrCall ctx call =
          ctrLoop (padded 16 ctx.key) ctx (chunks call.text) := by
        simp [edgeCtrCall_eq, edgeAesCtrEncrypt, ready]
      obtain ⟨blocks, counter, nonce, initialized⟩ :=
        ctrLoop_eq (padded 16 ctx.key) ctx (chunks call.text)
      rw [length_chunks] at blocks counter
      have total : totalBlocks (call :: rest) = blockCount call.text + totalBlocks rest := by
        simp [totalBlocks]
      rw [ctrBlocks, first, ih _ (initialized.trans ready), blocks, counter, nonce, total,
        List.iterate_add, List.map_append]

/-- The first increment is out of sight: it changes the last byte of sixteen. -/
theorem counterBlock_ctrInc_zeroBlock (nonce : Bytes) :
    counterBlock nonce (ctrInc zeroBlock) = counterBlock nonce zeroBlock := by
  have highest : (ctrInc zeroBlock).take 4 = zeroBlock.take 4 := by decide
  have visible : ∀ count, (ctrInc zeroBlock).take (min count 4) =
      zeroBlock.take (min count 4) := by
    intro count
    rw [← List.take_take, ← List.take_take, highest]
  simp only [counterBlock, ctrPrep, visible]

/-- The blocks of a fresh context are distinct only when there is one at most. -/
theorem ctrBlocks_nodup_iff (key nonce : Bytes) (calls : List EdgeCtrCall) :
    (ctrBlocks (edgeCryptoInit key nonce) calls).Nodup ↔ totalBlocks calls ≤ 1 := by
  rw [ctrBlocks_eq calls _ rfl]
  constructor
  · intro distinct
    by_contra more
    obtain ⟨count, total⟩ : ∃ count, totalBlocks calls = count + 2 :=
      ⟨totalBlocks calls - 2, by omega⟩
    rw [total] at distinct
    have start : (edgeCryptoInit key nonce).counter = zeroBlock := rfl
    have repeated : counterBlock (edgeCryptoInit key nonce).nonce zeroBlock ∈
        (List.iterate ctrInc (ctrInc zeroBlock) (count + 1)).map
          (counterBlock (edgeCryptoInit key nonce).nonce) := by
      rw [List.iterate, List.map_cons, counterBlock_ctrInc_zeroBlock]
      exact List.mem_cons_self
    rw [start, List.iterate, List.map_cons] at distinct
    exact (List.nodup_cons.mp distinct).1 repeated
  · intro few
    rcases Nat.le_one_iff_eq_zero_or_eq_one.mp few with none | one
    · simp [none]
    · simp [one]

end CounterMode

section GaloisMode

@[simp]
theorem length_blockOf (byte : Nat → UInt8) : (blockOf byte).length = 16 := by
  simp [blockOf]

theorem length_ghashBits (y : Bytes) (bits : List Nat) (product : Bytes × Bytes)
    (length : product.1.length = 16) : (bits.foldl (ghashBit y) product).1.length = 16 := by
  induction bits generalizing product with
  | nil => exact length
  | cons bit rest ih =>
      apply ih
      unfold ghashBit
      dsimp only
      split
      · exact length_blockOf _
      · exact length

theorem length_gcmGhash (h data y : Bytes) (length : y.length = 16) :
    (gcmGhash h data y).length = 16 := by
  unfold gcmGhash
  induction chunks data generalizing y with
  | nil => exact length
  | cons chunk rest ih =>
      apply ih
      apply length_ghashBits
      rfl

theorem length_j0 (key iv : Bytes) : (edgeGcmInit key iv).j0.length = 16 := by
  unfold edgeGcmInit
  dsimp only
  split
  case isTrue twelve => rw [List.length_append, twelve]; rfl
  case isFalse => exact length_gcmGhash _ _ _ rfl

theorem gcmLoop_blocks (ak ctr : Bytes) (texts : List Bytes) :
    (gcmLoop ak ctr texts).2 = List.iterate ctrInc ctr texts.length := by
  induction texts generalizing ctr with
  | nil => rfl
  | cons chunk rest ih =>
      rw [gcmLoop, List.length_cons, List.iterate]
      exact congrArg (ctr :: ·) (ih (ctrInc ctr))

theorem edgeGcmEncrypt_blocks (key iv plain aad : Bytes) :
    (edgeGcmEncrypt (edgeGcmInit key iv) plain aad).blocks =
      List.iterate ctrInc (gcmFirstCounter (edgeGcmInit key iv).j0) (blockCount plain) := by
  rw [← length_chunks, ← gcmLoop_blocks (padded 16 (edgeGcmInit key iv).key)]
  rfl

/-- The two lowest bits become 2. -/
theorem toNat_firstCounter (last : UInt8) :
    ((last &&& 0xFE) ||| 2).toNat = 4 * (last.toNat / 4) + 2 := by
  have table : ∀ byte < 256, (byte &&& 0xFE) ||| 2 = 4 * (byte / 4) + 2 := by
    decide +kernel
  have found := table last.toNat last.toNat_lt
  simpa using found

theorem value_gcmFirstCounter {j0 : Bytes} (length : j0.length = 16) :
    value (gcmFirstCounter j0) + (byteAt j0 15).toNat % 4 = value j0 + 2 ∧
      (gcmFirstCounter j0).length = 16 := by
  obtain ⟨front, last, rfl⟩ : ∃ front last, j0 = front ++ [last] := by
    have nonempty : j0 ≠ [] := by
      rintro rfl
      simp at length
    exact ⟨j0.dropLast, j0.getLast nonempty, (List.dropLast_append_getLast nonempty).symm⟩
  have fifteen : front.length = 15 := by simpa using length
  have changed : gcmFirstCounter (front ++ [last]) = front ++ [(last &&& 0xFE) ||| 2] := by
    unfold gcmFirstCounter
    rw [← fifteen]
    exact modify_append front last [] _
  have lowest : byteAt (front ++ [last]) 15 = last := by
    simp [byteAt, ← fifteen]
  rw [changed, lowest, value_append, value_append, toNat_firstCounter]
  constructor
  · omega
  · simp [fifteen]

/-- The payload meets the block of the tag unless that block is one of the two
right below a first counter, or the payload ends before it. -/
theorem j0_not_mem_iff {j0 : Bytes} (length : j0.length = 16) {count : Nat}
    (short : count < 2 ^ 32 - 2) :
    j0 ∉ List.iterate ctrInc (gcmFirstCounter j0) count ↔
      (byteAt j0 15).toNat % 4 < 2 ∨ count + 2 ≤ (byteAt j0 15).toNat % 4 := by
  obtain ⟨first, firstLength⟩ := value_gcmFirstCounter length
  have reached : j0 ∈ List.iterate ctrInc (gcmFirstCounter j0) count ↔
      ∃ steps < count, value j0 = (value (gcmFirstCounter j0) + steps) % 256 ^ 16 :=
    mem_iterate_iff firstLength length
  have bound := value_lt j0
  rw [length] at bound
  rw [reached]
  constructor
  · intro apart
    by_contra meets
    apply apart
    refine ⟨(byteAt j0 15).toNat % 4 - 2, by omega, ?_⟩
    rw [Nat.mod_eq_of_lt (by omega)]
    omega
  · rintro low ⟨steps, inside, same⟩
    omega

end GaloisMode

/-- (CTR) the blocks of a run of calls on a fresh context are distinct exactly
when there is one at most.  (GCM) the payload blocks of a message are distinct,
and all other than `j0`, exactly when bit 1 of the last byte of `j0` is clear or
the message ends before the count comes to `j0`. -/
theorem keystream_blocks_distinct_iff (key nonce : Bytes) (calls : List EdgeCtrCall)
    (gcmKey iv plain aad : Bytes) (short : blockCount plain < 2 ^ 32 - 2) :
    ((ctrBlocks (edgeCryptoInit key nonce) calls).Nodup ↔ totalBlocks calls ≤ 1) ∧
      (((edgeGcmEncrypt (edgeGcmInit gcmKey iv) plain aad).blocks.Nodup ∧
          (edgeGcmInit gcmKey iv).j0 ∉
            (edgeGcmEncrypt (edgeGcmInit gcmKey iv) plain aad).blocks) ↔
        (byteAt (edgeGcmInit gcmKey iv).j0 15).toNat % 4 < 2 ∨
          blockCount plain + 2 ≤ (byteAt (edgeGcmInit gcmKey iv).j0 15).toNat % 4) := by
  refine ⟨ctrBlocks_nodup_iff key nonce calls, ?_⟩
  have length := length_j0 gcmKey iv
  have counted : (List.iterate ctrInc (gcmFirstCounter (edgeGcmInit gcmKey iv).j0)
      (blockCount plain)).Nodup :=
    nodup_iterate (value_gcmFirstCounter length).2 (by omega)
  rw [edgeGcmEncrypt_blocks, ← j0_not_mem_iff length short]
  exact and_iff_right counted

theorem keystream_blocks_distinct_single :
    ((ctrBlocks (edgeCryptoInit [] []) [.encrypt [0]]).Nodup ↔
        totalBlocks [.encrypt [0]] ≤ 1) ∧
      (((edgeGcmEncrypt (edgeGcmInit [] [1]) [] []).blocks.Nodup ∧
          (edgeGcmInit [] [1]).j0 ∉ (edgeGcmEncrypt (edgeGcmInit [] [1]) [] []).blocks) ↔
        (byteAt (edgeGcmInit [] [1]).j0 15).toNat % 4 < 2 ∨
          blockCount [] + 2 ≤ (byteAt (edgeGcmInit [] [1]).j0 15).toNat % 4) :=
  keystream_blocks_distinct_iff [] [] [.encrypt [0]] [] [1] [] [] (by decide)

/-- Two blocks of CTR repeat, and with the one-byte IV 1 the first block of a
GCM payload is the one that masks the tag. -/
theorem keystream_blocks_repeat :
    ¬(ctrBlocks (edgeCryptoInit [] []) [.encrypt (List.replicate 32 0)]).Nodup ∧
      (edgeGcmInit [] [1]).j0 ∈ (edgeGcmEncrypt (edgeGcmInit [] [1]) [0] []).blocks := by
  constructor
  · decide
  · decide +kernel

/-- With an IV of 12 bytes the payload never meets the block of the tag. -/
theorem gcm_payload_of_standard_iv (key iv plain aad : Bytes) (twelve : iv.length = 12)
    (short : blockCount plain < 2 ^ 32 - 2) :
    (edgeGcmInit key iv).j0 ∉ (edgeGcmEncrypt (edgeGcmInit key iv) plain aad).blocks := by
  have whole : iv.take 16 = iv := List.take_of_length_le (by omega)
  have lowest : byteAt (edgeGcmInit key iv).j0 15 = 1 := by
    simp [edgeGcmInit, whole, twelve, byteAt]
  rw [edgeGcmEncrypt_blocks, j0_not_mem_iff (length_j0 key iv) short, lowest]
  exact .inl (by decide)

end Edge

end MiniIotRobotEdge

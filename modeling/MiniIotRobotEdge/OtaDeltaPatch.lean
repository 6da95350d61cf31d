import MiniIotRobotEdge.ByteMemory
import MiniIotRobotEdge.PackedBytes

/-!
# Delta patches of mini-ota-update

The model of `delta_create_patch` and `delta_apply_patch` from
`delta_update.c`, with allocations that succeed.  The creator writes into a
buffer of known size, and a write outside of it has no result.  Indices are
natural numbers where they stay inside of an `int32_t` for inputs of up to
2^30 bytes; the sizes that the source computes in 32 bits are reduced.
-/

namespace MiniIotRobotEdge

namespace Ota

open PackedBytes

inductive DeltaResult
  | ok
  | errParam
  | errNomem
  | errIo
  | errHash
  | errSignature
  | errPatchCorrupt
  | errPatchApply
  | errOldMismatch
  | errNewMismatch
  | errCompress
  | errDecompress
  | errPartial
  deriving DecidableEq, Repr

def deltaOpAdd : UInt8 := 0
def deltaOpCopy : UInt8 := 1
def deltaOpSeek : UInt8 := 2

/-! ### The suffix array -/

/-- `data[index]` as an `int`. -/
def byteAt (data : List UInt8) (index : Nat) : Int := (data.getD index 0).toNat

def deltaSaCompare (data : List UInt8) (a b : Nat) : Int :=
  if byteAt data a ≠ byteAt data b then byteAt data a - byteAt data b
  else if data.length ≤ a + 1 then -1
  else if data.length ≤ b + 1 then 1
  else byteAt data (a + 1) - byteAt data (b + 1)

/-- The body of the two inner loops of `delta_sa_sort`. -/
def saCompareSwap (n k : Nat) (rank : Nat → Int) (i : Nat) (sa : Nat → Nat) (j : Nat) :
    Nat → Nat :=
  let ra := if i + k < n then rank (i + k) else -1
  let rb := if j + k < n then rank (j + k) else -1
  if rank (sa j) < rank (sa i) ∨ (rank (sa i) = rank (sa j) ∧ rb < ra) then
    Function.update (Function.update sa i (sa j)) j (sa i)
  else sa

/-- The two inner loops for one value of `k`. -/
def saPass (n k : Nat) (rank : Nat → Int) (sa : Nat → Nat) : Nat → Nat :=
  (List.range (n - 1)).foldl
    (fun sa i => (List.range' (i + 1) (n - (i + 1))).foldl (saCompareSwap n k rank i) sa) sa

/-- The ranks behind a pass. -/
def saRanks (data : List UInt8) (sa : Nat → Nat) : Nat → Int :=
  (List.range' 1 (data.length - 1)).foldl
    (fun rank i => Function.update rank (sa i)
      (rank (sa (i - 1)) + if deltaSaCompare data (sa (i - 1)) (sa i) ≠ 0 then 1 else 0))
    (Function.update (fun _ => 0) (sa 0) 0)

/-- The loop over `k`. -/
def saRounds (data : List UInt8) (k : Nat) (sa : Nat → Nat) (rank : Nat → Int) : Nat → Nat :=
  if 0 < k ∧ k < data.length then
    let next := saPass data.length k rank sa
    saRounds data (2 * k) next (saRanks data next)
  else sa
termination_by data.length - k

/-- `delta_sa_sort`: the array `sa`. -/
def deltaSaSort (data : List UInt8) : Nat → Nat :=
  saRounds data 1 (fun i => i) (byteAt data)

/-- All entries of the array are positions of the data. -/
def Positions (n : Nat) (sa : Nat → Nat) : Prop := ∀ i < n, sa i < n

theorem Positions.compareSwap {n : Nat} {sa : Nat → Nat} (positions : Positions n sa) (k : Nat)
    (rank : Nat → Int) {i j : Nat} (iInside : i < n) (jInside : j < n) :
    Positions n (saCompareSwap n k rank i sa j) := by
  unfold saCompareSwap
  dsimp only
  by_cases swap : rank (sa j) < rank (sa i) ∨ (rank (sa i) = rank (sa j) ∧
      (if j + k < n then rank (j + k) else -1) < (if i + k < n then rank (i + k) else -1))
  · rw [if_pos swap]
    intro index inside
    by_cases atJ : index = j
    · rw [atJ, Function.update_self]
      exact positions i iInside
    · rw [Function.update_of_ne atJ]
      by_cases atI : index = i
      · rw [atI, Function.update_self]
        exact positions j jInside
      · rw [Function.update_of_ne atI]
        exact positions index inside
  · rw [if_neg swap]
    exact positions

theorem Positions.foldl {n : Nat} {indices : List Nat} {step : (Nat → Nat) → Nat → Nat → Nat}
    (keeps : ∀ sa, ∀ index ∈ indices, Positions n sa → Positions n (step sa index))
    {sa : Nat → Nat} (positions : Positions n sa) : Positions n (indices.foldl step sa) := by
  induction indices generalizing sa with
  | nil => exact positions
  | cons index rest ih =>
      apply ih
      · exact fun sa later mem => keeps sa later (List.mem_cons_of_mem index mem)
      · exact keeps sa index (List.mem_cons_self ..) positions

theorem Positions.pass {n : Nat} {sa : Nat → Nat} (positions : Positions n sa) (k : Nat)
    (rank : Nat → Int) : Positions n (saPass n k rank sa) := by
  apply Positions.foldl _ positions
  intro sa i iMem kept
  have iBound := List.mem_range.mp iMem
  apply Positions.foldl _ kept
  intro sa j jMem kept
  have jBound := List.mem_range'_1.mp jMem
  exact kept.compareSwap k rank (by omega) (by omega)

theorem Positions.rounds (data : List UInt8) (k : Nat) (sa : Nat → Nat) (rank : Nat → Int)
    (positions : Positions data.length sa) : Positions data.length (saRounds data k sa rank) := by
  fun_induction saRounds data k sa rank with
  | case1 k sa rank inside next ih => exact ih (positions.pass k rank)
  | case2 => exact positions

/-- However the sort orders it, the array only holds positions of the data. -/
theorem deltaSaSort_lt (data : List UInt8) {i : Nat} (inside : i < data.length) :
    deltaSaSort data i < data.length :=
  Positions.rounds data 1 (fun i => i) (byteAt data) (fun _ below => below) i inside

/-- The loop that counts the bytes on which a suffix and the pattern agree. -/
def commonLength : List UInt8 → List UInt8 → Nat
  | first :: firsts, second :: seconds =>
      if first = second then commonLength firsts seconds + 1 else 0
  | _, _ => 0

/-- The binary search of `delta_sa_search`: `best_match` and `best_len`. -/
def saSearchLoop (sa : Nat → Nat) (data pattern : List UInt8) (lo hi : Int)
    (best : Int × Nat) : Int × Nat :=
  if lo ≤ hi then
    let mid := (lo + hi) / 2
    let spos := sa mid.toNat
    let i := commonLength (data.drop spos) pattern
    let better : Int × Nat := if best.2 < i then (spos, i) else best
    if i = pattern.length then better
    else if data.length ≤ spos + i ∨ data.getD (spos + i) 0 < pattern.getD i 0 then
      saSearchLoop sa data pattern (mid + 1) hi better
    else saSearchLoop sa data pattern lo (mid - 1) better
  else best
termination_by (hi + 1 - lo).toNat

/-- `delta_sa_search`: the position, or -1, and `*match_len`. -/
def deltaSaSearch (sa : Nat → Nat) (data pattern : List UInt8) : Int × Nat :=
  if pattern.length = 0 then (-1, 0)
  else
    let best := saSearchLoop sa data pattern 0 (data.length - 1) (-1, 0)
    (if 8 ≤ best.2 then best.1 else -1, best.2)

/-! ### The patch -/

structure DeltaPatchHeader where
  magic : BitVec 32
  version : BitVec 16
  headerSize : BitVec 16
  oldFileSize : BitVec 32
  newFileSize : BitVec 32
  patchDataSize : BitVec 32
  compressedSize : BitVec 32
  chunkCount : BitVec 32
  oldFileHash : Vector UInt8 32
  newFileHash : Vector UInt8 32
  patchHash : Vector UInt8 32
  signature : Vector UInt8 72
  flags : BitVec 32
  reserved : Vector UInt8 32
  deriving DecidableEq

/-- `sizeof(delta_patch_header_t)`; the structure is packed. -/
def deltaPatchHeaderBytes : Nat := 232

def deltaMagic : BitVec 32 := 0x42534446

def DeltaPatchHeader.bytes (hdr : DeltaPatchHeader) : List UInt8 :=
  [wordField 4 hdr.magic, wordField 2 hdr.version, wordField 2 hdr.headerSize,
    wordField 4 hdr.oldFileSize, wordField 4 hdr.newFileSize, wordField 4 hdr.patchDataSize,
    wordField 4 hdr.compressedSize, wordField 4 hdr.chunkCount, hdr.oldFileHash.toList,
    hdr.newFileHash.toList, hdr.patchHash.toList, hdr.signature.toList, wordField 4 hdr.flags,
    hdr.reserved.toList].flatten

def readPatchHeader : Reader DeltaPatchHeader := do
  let magic ← readWord 32 4
  let version ← readWord 16 2
  let headerSize ← readWord 16 2
  let oldFileSize ← readWord 32 4
  let newFileSize ← readWord 32 4
  let patchDataSize ← readWord 32 4
  let compressedSize ← readWord 32 4
  let chunkCount ← readWord 32 4
  let oldFileHash ← readBytes 32
  let newFileHash ← readBytes 32
  let patchHash ← readBytes 32
  let signature ← readBytes 72
  let flags ← readWord 32 4
  let reserved ← readBytes 32
  pure { magic, version, headerSize, oldFileSize, newFileSize, patchDataSize, compressedSize,
         chunkCount, oldFileHash, newFileHash, patchHash, signature, flags, reserved }

theorem readPatchHeader_reads (hdr : DeltaPatchHeader) : Reads readPatchHeader hdr.bytes hdr := by
  repeat' first
    | apply Reads.bind
    | exact Reads.bytes _
    | exact Reads.word _ (by decide)
    | exact Reads.pure _

theorem length_patchHeader (hdr : DeltaPatchHeader) :
    hdr.bytes.length = deltaPatchHeaderBytes := by
  simp [DeltaPatchHeader.bytes, deltaPatchHeaderBytes]

/-- One operation of a patch. -/
inductive DeltaOp
  | add (literal : List UInt8)
  | copy (len pos : Nat)
  deriving DecidableEq

/-- What the operation adds to the new file. -/
def DeltaOp.output (old : List UInt8) : DeltaOp → List UInt8
  | .add literal => literal
  | .copy len pos => (old.drop pos).take len

/-- The number of bytes of the new file that the operation covers. -/
def DeltaOp.covers : DeltaOp → Nat
  | .add literal => literal.length
  | .copy len _ => len

/-- The operation as it stands in the patch. -/
def DeltaOp.bytes : DeltaOp → List UInt8
  | .add literal => deltaOpAdd :: (littleEndian 2 literal.length ++ literal)
  | .copy len pos => deltaOpCopy :: (littleEndian 2 len ++ littleEndian 4 pos)

def DeltaOp.copyCount : DeltaOp → Nat
  | .add _ => 0
  | .copy _ _ => 1

/-- The search for the rest of the new file, at most 1024 bytes of it. -/
def deltaFound (sa : Nat → Nat) (old rest : List UInt8) : Int × Nat :=
  deltaSaSearch sa old (rest.take (if 1024 < rest.length then 1024 else rest.length))

/-- The operation that `delta_create_patch` emits for the rest of the new file. -/
def deltaNextOp (sa : Nat → Nat) (old rest : List UInt8) : DeltaOp :=
  let found := deltaFound sa old rest
  if 16 ≤ found.2 ∧ 0 ≤ found.1 then .copy found.2 found.1.toNat
  else .add (rest.take (if 128 < rest.length then 128 else rest.length))

theorem deltaNextOp_covers_pos (sa : Nat → Nat) (old : List UInt8) {rest : List UInt8}
    (nonempty : rest.length ≠ 0) : 0 < (deltaNextOp sa old rest).covers := by
  unfold deltaNextOp
  dsimp only
  by_cases found : 16 ≤ (deltaFound sa old rest).2 ∧ 0 ≤ (deltaFound sa old rest).1
  · rw [if_pos found]
    exact Nat.lt_of_lt_of_le (by decide) found.1
  · rw [if_neg found, DeltaOp.covers, List.length_take]
    split <;> omega

/-- The buffer of the patch, `ops_offset` and `copy_count`. -/
structure PatchState where
  buf : Memory
  opsOffset : Nat
  copyCount : Nat

/-- Write at `ops_start + ops_offset`, if that is inside of the buffer. -/
def emit (bufSize : Nat) (state : PatchState) (bytes : List UInt8) (copies : Nat) :
    Option PatchState :=
  if deltaPatchHeaderBytes + state.opsOffset + bytes.length ≤ bufSize then
    some
      { buf := state.buf.writeBytes (deltaPatchHeaderBytes + state.opsOffset) bytes
        opsOffset := state.opsOffset + bytes.length
        copyCount := state.copyCount + copies }
  else none

/-- The main loop of `delta_create_patch`; `rest` is `new_data + pos`. -/
def deltaEncodeLoop (sa : Nat → Nat) (old : List UInt8) (bufSize : Nat) (rest : List UInt8)
    (state : PatchState) : Option PatchState :=
  if rest.length = 0 then some state
  else
    let op := deltaNextOp sa old rest
    (emit bufSize state op.bytes op.copyCount).bind fun next =>
      deltaEncodeLoop sa old bufSize (rest.drop op.covers) next
termination_by rest.length
decreasing_by
  have covers := deltaNextOp_covers_pos sa old ‹_›
  rw [List.length_drop]
  omega

/-- `buf_size`; `max_ops * 12` is computed in 32 bits. -/
def patchBufSize (newSize : Nat) : Nat :=
  deltaPatchHeaderBytes + (newSize / 4 + 256) % 2 ^ 32 * 12 % 2 ^ 32 + newSize

/-- The header of a finished patch. -/
def patchHeader (oldSize newSize : Nat) (state : PatchState) : DeltaPatchHeader where
  magic := deltaMagic
  version := 1
  headerSize := BitVec.ofNat 16 deltaPatchHeaderBytes
  oldFileSize := BitVec.ofNat 32 oldSize
  newFileSize := BitVec.ofNat 32 newSize
  patchDataSize := BitVec.ofNat 32 state.opsOffset
  compressedSize := BitVec.ofNat 32 state.opsOffset
  chunkCount := BitVec.ofNat 32 state.copyCount
  oldFileHash := Vector.replicate 32 0
  newFileHash := Vector.replicate 32 0
  patchHash := Vector.replicate 32 0
  signature := Vector.replicate 72 0
  flags := 0
  reserved := Vector.replicate 32 0

/-- `delta_create_patch`: the error, or `*patch_out` and `*patch_size`.  There
is no result when it writes outside of the buffer. -/
def deltaCreatePatch (old new : List UInt8) : Option (Except DeltaResult (Memory × Nat)) :=
  if old.length = 0 then some (.error .errNomem)
  else
    let sa := deltaSaSort old
    let bufSize := patchBufSize new.length
    let start : PatchState := { buf := fun _ => 0, opsOffset := 0, copyCount := 0 }
    (deltaEncodeLoop sa old bufSize new start).bind fun state =>
      (emit bufSize state [deltaOpSeek] 0).map fun last =>
        .ok (last.buf.writeBytes 0 (patchHeader old.length new.length last).bytes,
          deltaPatchHeaderBytes + last.opsOffset)

/-! ### Applying a patch -/

variable {σ : Type}

/-- The functions of `delta_io_t` that are used; a read returns what it puts
into the buffer, and zero stands for success. -/
structure DeltaIo (σ : Type) where
  readPatch : Nat → σ → Int × List UInt8 × σ
  readOld : Nat → σ → Int × List UInt8 × σ
  writeNew : List UInt8 → σ → Int × σ

/-- The loop of `delta_apply_patch` over the operations that are left. -/
def deltaApplyOps (io : DeltaIo σ) (oldBuf : List UInt8) (oldFileSize : Nat) :
    List UInt8 → σ → DeltaResult × σ
  | [], state => (.ok, state)
  | op :: rest, state =>
      if op = deltaOpAdd then
        let len := ofLittleEndian (rest.take 2)
        let written := io.writeNew ((rest.drop 2).take len) state
        if written.1 ≠ 0 then (.errPatchApply, written.2)
        else deltaApplyOps io oldBuf oldFileSize (rest.drop (2 + len)) written.2
      else if op = deltaOpCopy then
        let len := ofLittleEndian (rest.take 2)
        let pos := ofLittleEndian ((rest.drop 2).take 4)
        if oldFileSize < (pos + len) % 2 ^ 32 then (.errPatchCorrupt, state)
        else
          let written := io.writeNew ((oldBuf.drop pos).take len) state
          if written.1 ≠ 0 then (.errPatchApply, written.2)
          else deltaApplyOps io oldBuf oldFileSize (rest.drop 6) written.2
      else if op = deltaOpSeek then (.ok, state)
      else (.errPatchCorrupt, state)
termination_by ops => ops.length
decreasing_by
  all_goals
    rw [List.length_drop, List.length_cons]
    omega

/-- `delta_verify_patch` with a pointer to the functions. -/
def deltaVerifyPatch : DeltaResult := .ok

/-- `delta_apply_patch`; `crypto` says whether that pointer is given. -/
def deltaApplyPatch (io : DeltaIo σ) (crypto : Bool) (state : σ) : DeltaResult × σ :=
  let headerRead := io.readPatch deltaPatchHeaderBytes state
  if headerRead.1 ≠ 0 then (.errIo, headerRead.2.2)
  else
    let header := (readPatchHeader.run headerRead.2.1).1
    if header.magic ≠ deltaMagic then (.errPatchCorrupt, headerRead.2.2)
    else if header.version ≠ 1 then (.errPatchCorrupt, headerRead.2.2)
    else
      let opsRead := io.readPatch header.patchDataSize.toNat headerRead.2.2
      if opsRead.1 ≠ 0 then (.errIo, opsRead.2.2)
      else
        let oldRead := io.readOld header.oldFileSize.toNat opsRead.2.2
        if oldRead.1 ≠ 0 then (.errIo, oldRead.2.2)
        else
          let applied := deltaApplyOps io oldRead.2.1 header.oldFileSize.toNat opsRead.2.1
            oldRead.2.2
          if applied.1 = .ok ∧ crypto = true then (deltaVerifyPatch, applied.2)
          else applied

end Ota

end MiniIotRobotEdge

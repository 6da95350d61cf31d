import MiniIotRobotEdge.OtaDeltaPatch

/-!
# Round trip of delta patches

Every match that the search reports is genuine, whatever order the suffix
array has.  The operations of a patch therefore reproduce the new file, and
they need at most twice its size and a few bytes, which the buffer has.
-/

namespace MiniIotRobotEdge

namespace Ota

open PackedBytes

theorem commonLength_le_left (first second : List UInt8) :
    commonLength first second ≤ first.length := by
  fun_induction commonLength first second with
  | case1 first firsts seconds ih => exact Nat.succ_le_succ ih
  | case2 => exact Nat.zero_le _
  | case3 => exact Nat.zero_le _

theorem commonLength_le_right (first second : List UInt8) :
    commonLength first second ≤ second.length := by
  fun_induction commonLength first second with
  | case1 first firsts seconds ih => exact Nat.succ_le_succ ih
  | case2 => exact Nat.zero_le _
  | case3 => exact Nat.zero_le _

theorem take_commonLength (first second : List UInt8) :
    first.take (commonLength first second) = second.take (commonLength first second) := by
  fun_induction commonLength first second with
  | case1 first firsts seconds ih => rw [List.take_succ_cons, List.take_succ_cons, ih]
  | case2 => rfl
  | case3 => rfl

/-- A match that agrees with the pattern on all of its length. -/
structure IsMatch (data pattern : List UInt8) (pos len : Nat) : Prop where
  inside : pos + len ≤ data.length
  short : len ≤ pattern.length
  agrees : (data.drop pos).take len = pattern.take len

/-- Nothing has been found yet, or what has been found is a match. -/
def Genuine (data pattern : List UInt8) (best : Int × Nat) : Prop :=
  (best.1 < 0 ∧ best.2 = 0) ∨ ∃ pos : Nat, best.1 = pos ∧ IsMatch data pattern pos best.2

theorem genuine_better {data pattern : List UInt8} {best : Int × Nat} (spos : Nat)
    (genuine : Genuine data pattern best) :
    Genuine data pattern
      (if best.2 < commonLength (data.drop spos) pattern then
        ((spos : Int), commonLength (data.drop spos) pattern) else best) := by
  split
  case isFalse => exact genuine
  case isTrue longer =>
    have inside := commonLength_le_left (data.drop spos) pattern
    rw [List.length_drop] at inside
    refine Or.inr ⟨spos, rfl, ?_, commonLength_le_right _ _, take_commonLength _ _⟩
    dsimp only
    omega

/-- The search reports genuine matches only. -/
theorem saSearchLoop_genuine (sa : Nat → Nat) (data pattern : List UInt8) (lo hi : Int)
    {best : Int × Nat} (genuine : Genuine data pattern best) :
    Genuine data pattern (saSearchLoop sa data pattern lo hi best) := by
  fun_induction saSearchLoop sa data pattern lo hi best with
  | case1 lo hi best inside mid spos i better whole => exact genuine_better spos genuine
  | case2 lo hi best inside mid spos i better notWhole smaller ih =>
      exact ih (genuine_better spos genuine)
  | case3 lo hi best inside mid spos i better notWhole notSmaller ih =>
      exact ih (genuine_better spos genuine)
  | case4 => exact genuine

/-- A reported position comes with a match. -/
theorem deltaSaSearch_isMatch {sa : Nat → Nat} {data pattern : List UInt8}
    (found : 0 ≤ (deltaSaSearch sa data pattern).1) :
    IsMatch data pattern (deltaSaSearch sa data pattern).1.toNat
      (deltaSaSearch sa data pattern).2 := by
  have start : Genuine data pattern (-1, 0) := Or.inl ⟨by decide, rfl⟩
  have genuine := saSearchLoop_genuine sa data pattern 0 (data.length - 1) start
  unfold deltaSaSearch at found ⊢
  split at found
  · simp at found
  · rw [if_neg ‹_›]
    dsimp only at found ⊢
    split at found
    case isFalse => simp at found
    case isTrue long =>
      rw [if_pos long]
      rcases genuine with ⟨negative, _⟩ | ⟨pos, isPos, isMatch⟩
      · omega
      · rw [isPos, Int.toNat_natCast]
        exact isMatch

/-- What an operation must satisfy to be read back from the patch. -/
def DeltaOp.Readable (old : List UInt8) : DeltaOp → Prop
  | .add literal => literal.length < 2 ^ 16
  | .copy len pos => len < 2 ^ 16 ∧ pos + len ≤ old.length

/-- The next operation covers a first part of the rest and fits into twice its
size, but for the last one, which may need three bytes more. -/
structure OpFits (old rest : List UInt8) (op : DeltaOp) : Prop where
  covers : op.covers ≤ rest.length
  output : op.output old = rest.take op.covers
  readable : op.Readable old
  size : op.bytes.length ≤ 2 * op.covers ∨
    (op.covers = rest.length ∧ op.bytes.length = rest.length + 3)

theorem length_bytes_op (op : DeltaOp) : op.bytes.length =
    match op with
    | .add literal => literal.length + 3
    | .copy _ _ => 7 := by
  cases op with
  | add literal =>
      simp only [DeltaOp.bytes, List.length_cons, List.length_append, length_littleEndian]
      omega
  | copy len pos => simp only [DeltaOp.bytes, List.length_cons, List.length_append,
      length_littleEndian]

theorem deltaNextOp_fits (sa : Nat → Nat) (old rest : List UInt8) :
    OpFits old rest (deltaNextOp sa old rest) := by
  unfold deltaNextOp
  dsimp only
  by_cases found : 16 ≤ (deltaFound sa old rest).2 ∧ 0 ≤ (deltaFound sa old rest).1
  · rw [if_pos found]
    obtain ⟨window, isWindow⟩ : ∃ window, window =
        if 1024 < rest.length then 1024 else rest.length := ⟨_, rfl⟩
    have windowLe : window ≤ 1024 ∧ window ≤ rest.length := by
      rw [isWindow]
      split <;> omega
    have isMatch : IsMatch old (rest.take window) (deltaFound sa old rest).1.toNat
        (deltaFound sa old rest).2 := by
      rw [isWindow]
      exact deltaSaSearch_isMatch found.2
    have short := isMatch.short
    rw [List.length_take] at short
    refine ⟨?_, ?_, ⟨?_, isMatch.inside⟩, Or.inl ?_⟩
    · change (deltaFound sa old rest).2 ≤ rest.length
      omega
    · change (old.drop _).take (deltaFound sa old rest).2 = rest.take (deltaFound sa old rest).2
      rw [isMatch.agrees, List.take_take, Nat.min_eq_left (by omega)]
    · omega
    · rw [length_bytes_op]
      change 7 ≤ 2 * (deltaFound sa old rest).2
      omega
  · rw [if_neg found]
    by_cases long : 128 < rest.length
    · rw [if_pos long]
      have literalLength : (rest.take 128).length = 128 := by
        rw [List.length_take]
        omega
      refine ⟨?_, ?_, ?_, Or.inl ?_⟩
      · change (rest.take 128).length ≤ rest.length
        omega
      · change rest.take 128 = rest.take (rest.take 128).length
        rw [literalLength]
      · change (rest.take 128).length < 2 ^ 16
        omega
      · rw [length_bytes_op]
        change (rest.take 128).length + 3 ≤ 2 * (rest.take 128).length
        omega
    · rw [if_neg long, List.take_length]
      refine ⟨le_rfl, ?_, ?_, Or.inr ⟨rfl, ?_⟩⟩
      · exact (List.take_length).symm
      · change rest.length < 2 ^ 16
        omega
      · rw [length_bytes_op]

/-- How many bytes the operations for a rest of this length may need. -/
def encodedBound (length : Nat) : Nat := if length = 0 then 0 else 2 * length + 3

theorem OpFits.bound {old rest : List UInt8} {op : DeltaOp} (fits : OpFits old rest op)
    (positive : 0 < op.covers) :
    op.bytes.length + encodedBound (rest.length - op.covers) ≤ encodedBound rest.length := by
  have covers := fits.covers
  unfold encodedBound
  rw [if_neg (show rest.length ≠ 0 by omega)]
  rcases fits.size with small | ⟨last, size⟩
  · split <;> omega
  · rw [if_pos (by omega)]
    omega

/-- What the creator has written: operations that can be read back, that
produce the rest of the new file and that fit into the buffer. -/
structure Encodes (old rest : List UInt8) (ops : List DeltaOp) : Prop where
  output : ops.flatMap (DeltaOp.output old) = rest
  readable : ∀ op ∈ ops, op.Readable old
  size : (ops.flatMap DeltaOp.bytes).length ≤ encodedBound rest.length

theorem Encodes.cons {old rest : List UInt8} {op : DeltaOp} {ops : List DeltaOp}
    (fits : OpFits old rest op) (positive : 0 < op.covers)
    (encodes : Encodes old (rest.drop op.covers) ops) : Encodes old rest (op :: ops) := by
  constructor
  · rw [List.flatMap_cons, encodes.output, fits.output, List.take_append_drop]
  · intro other mem
    rcases List.mem_cons.mp mem with rfl | later
    · exact fits.readable
    · exact encodes.readable other later
  · have tailSize := encodes.size
    have bound := fits.bound positive
    rw [List.length_drop] at tailSize
    rw [List.flatMap_cons, List.length_append]
    omega

/-- The main loop stays inside of the buffer and writes operations that encode
the rest of the new file. -/
theorem deltaEncodeLoop_encodes (sa : Nat → Nat) (old : List UInt8) (bufSize : Nat)
    (rest : List UInt8) (state : PatchState)
    (room : deltaPatchHeaderBytes + state.opsOffset + encodedBound rest.length ≤ bufSize) :
    ∃ ops : List DeltaOp, Encodes old rest ops ∧ ∃ copies,
      deltaEncodeLoop sa old bufSize rest state =
        some
          { buf := state.buf.writeBytes (deltaPatchHeaderBytes + state.opsOffset)
              (ops.flatMap DeltaOp.bytes)
            opsOffset := state.opsOffset + (ops.flatMap DeltaOp.bytes).length
            copyCount := copies } := by
  induction isLength : rest.length using Nat.strong_induction_on generalizing rest state with
  | _ length ih =>
      rw [deltaEncodeLoop]
      by_cases finished : rest.length = 0
      · refine ⟨[], ⟨(List.length_eq_zero_iff.mp finished).symm, by simp, by simp⟩,
          state.copyCount, ?_⟩
        rw [if_pos finished, List.flatMap_nil, Memory.writeBytes_nil]
        rfl
      · obtain ⟨op, isOp⟩ : ∃ op, op = deltaNextOp sa old rest := ⟨_, rfl⟩
        have positive : 0 < op.covers := isOp ▸ deltaNextOp_covers_pos sa old finished
        have fits : OpFits old rest op := isOp ▸ deltaNextOp_fits sa old rest
        have covers := fits.covers
        have bound := fits.bound positive
        obtain ⟨ops, encodes, copies, looped⟩ := ih (rest.drop op.covers).length
          (by rw [List.length_drop]; omega) (rest.drop op.covers)
          { buf := state.buf.writeBytes (deltaPatchHeaderBytes + state.opsOffset) op.bytes
            opsOffset := state.opsOffset + op.bytes.length
            copyCount := state.copyCount + op.copyCount }
          (by rw [List.length_drop]; dsimp only; omega) rfl
        refine ⟨op :: ops, encodes.cons fits positive, copies, ?_⟩
        rw [if_neg finished]
        dsimp only
        rw [← isOp, emit, if_pos (by omega), Option.bind_some, looped]
        dsimp only
        rw [← Nat.add_assoc, Memory.writeBytes_append, List.flatMap_cons, List.length_append,
          Nat.add_assoc]

/-- The buffer has room for the operations and the end mark. -/
theorem patchBufSize_room {newSize : Nat} (bound : newSize ≤ 2 ^ 30) :
    deltaPatchHeaderBytes + encodedBound newSize + 1 ≤ patchBufSize newSize := by
  unfold patchBufSize encodedBound
  rw [Nat.mod_eq_of_lt (show newSize / 4 + 256 < 2 ^ 32 by omega),
    Nat.mod_eq_of_lt (show (newSize / 4 + 256) * 12 < 2 ^ 32 by omega)]
  split <;> omega

/-- The operations of a patch with the end mark. -/
def patchData (ops : List DeltaOp) : List UInt8 := ops.flatMap DeltaOp.bytes ++ [deltaOpSeek]

/-- The creator writes a header and operations that encode the new file, all
inside of its buffer. -/
theorem deltaCreatePatch_encodes {old new : List UInt8} (oldNonempty : old.length ≠ 0)
    (newBound : new.length ≤ 2 ^ 30) :
    ∃ ops, Encodes old new ops ∧ ∃ last buf, last.opsOffset = (patchData ops).length ∧
      deltaCreatePatch old new =
        some (.ok (buf, deltaPatchHeaderBytes + (patchData ops).length)) ∧
      buf.bytes 0 (deltaPatchHeaderBytes + (patchData ops).length) =
        (patchHeader old.length new.length last).bytes ++ patchData ops := by
  have room := patchBufSize_room newBound
  obtain ⟨ops, encodes, copies, looped⟩ := deltaEncodeLoop_encodes (deltaSaSort old) old
    (patchBufSize new.length) new { buf := fun _ => 0, opsOffset := 0, copyCount := 0 }
    (by dsimp only; omega)
  have size := encodes.size
  let last : PatchState :=
    { buf := Memory.writeBytes (fun _ => 0) deltaPatchHeaderBytes (patchData ops)
      opsOffset := (patchData ops).length
      copyCount := copies }
  have ended : emit (patchBufSize new.length)
      { buf := Memory.writeBytes (fun _ => 0) (deltaPatchHeaderBytes + 0)
          (ops.flatMap DeltaOp.bytes)
        opsOffset := 0 + (ops.flatMap DeltaOp.bytes).length
        copyCount := copies } [deltaOpSeek] 0 = some last := by
    rw [emit, if_pos (by simp only [List.length_singleton]; omega)]
    dsimp only
    rw [Nat.zero_add, Nat.add_zero, Memory.writeBytes_append, ← List.length_append]
    rfl
  refine ⟨ops, encodes, last,
    last.buf.writeBytes 0 (patchHeader old.length new.length last).bytes, rfl, ?_, ?_⟩
  · rw [deltaCreatePatch, if_neg oldNonempty]
    dsimp only
    rw [looped, Option.bind_some, ended]
    rfl
  · have written := Memory.bytes_writeBytes_self last.buf 0
      (patchHeader old.length new.length last).bytes
    rw [length_patchHeader] at written
    have kept := Memory.bytes_writeBytes_self (fun _ => 0) deltaPatchHeaderBytes (patchData ops)
    rw [Memory.bytes_append, written, Nat.zero_add, Memory.bytes_congr, kept]
    intro target lower _
    apply Memory.writeBytes_outside
    rw [length_patchHeader]
    omega

/-- The files that the callbacks read and write, all of them with success. -/
structure DeltaStreams where
  patch : List UInt8
  old : List UInt8
  written : List (List UInt8)

def streamIo : DeltaIo DeltaStreams where
  readPatch := fun size streams =>
    (0, streams.patch.take size, { streams with patch := streams.patch.drop size })
  readOld := fun size streams =>
    (0, streams.old.take size, { streams with old := streams.old.drop size })
  writeNew := fun data streams => (0, { streams with written := streams.written ++ [data] })

theorem ofLittleEndian_take {count value : Nat} (small : value < 256 ^ count)
    (rest : List UInt8) :
    ofLittleEndian ((littleEndian count value ++ rest).take count) = value := by
  rw [List.take_left' (length_littleEndian count value), ofLittleEndian_littleEndian,
    Nat.mod_eq_of_lt small]

theorem drop_littleEndian (count value : Nat) (rest : List UInt8) :
    (littleEndian count value ++ rest).drop count = rest :=
  List.drop_left' (length_littleEndian count value)

/-- Reading back one operation. -/
theorem deltaApplyOps_op {old : List UInt8} (oldBound : old.length < 2 ^ 32) {op : DeltaOp}
    (readable : op.Readable old) (rest : List UInt8) (streams : DeltaStreams) :
    deltaApplyOps streamIo old old.length (op.bytes ++ rest) streams =
      deltaApplyOps streamIo old old.length rest
        { streams with written := streams.written ++ [op.output old] } := by
  cases op with
  | add literal =>
      have small : literal.length < 256 ^ 2 := readable
      rw [DeltaOp.bytes, List.cons_append, deltaApplyOps, if_pos rfl, List.append_assoc]
      dsimp only
      rw [ofLittleEndian_take small, drop_littleEndian, ← List.drop_drop, drop_littleEndian,
        List.take_left, List.drop_left]
      rfl
  | copy len pos =>
      obtain ⟨short, inside⟩ := readable
      have smallLen : len < 256 ^ 2 := short
      have smallPos : pos < 256 ^ 4 := by omega
      rw [DeltaOp.bytes, List.cons_append, deltaApplyOps, if_neg (by decide), if_pos rfl,
        List.append_assoc]
      dsimp only
      rw [ofLittleEndian_take smallLen, drop_littleEndian, ofLittleEndian_take smallPos,
        Nat.mod_eq_of_lt (by omega), if_neg (by omega), show (6 : Nat) = 2 + 4 from rfl,
        ← List.drop_drop, drop_littleEndian, drop_littleEndian]
      rfl

/-- Reading back the operations writes what they produce. -/
theorem deltaApplyOps_patchData {old : List UInt8} (oldBound : old.length < 2 ^ 32)
    (ops : List DeltaOp) (readable : ∀ op ∈ ops, op.Readable old) (streams : DeltaStreams) :
    deltaApplyOps streamIo old old.length (patchData ops) streams =
      (.ok, { streams with written := streams.written ++ ops.map (DeltaOp.output old) }) := by
  induction ops generalizing streams with
  | nil =>
      rw [patchData, List.flatMap_nil, List.nil_append, deltaApplyOps, if_neg (by decide),
        if_neg (by decide), if_pos rfl, List.map_nil, List.append_nil]
  | cons op ops ih =>
      have data : patchData (op :: ops) = op.bytes ++ patchData ops := by
        rw [patchData, List.flatMap_cons, List.append_assoc]
        rfl
      rw [data, deltaApplyOps_op oldBound (readable op (List.mem_cons_self ..)),
        ih fun later mem => readable later (List.mem_cons_of_mem op mem)]
      rw [List.map_cons, List.append_assoc, List.singleton_append]

theorem streamIo_readPatch (front rest old : List UInt8) (written : List (List UInt8)) :
    streamIo.readPatch front.length ⟨front ++ rest, old, written⟩ =
      (0, front, ⟨rest, old, written⟩) := by
  change (0, (front ++ rest).take front.length, _) = _
  rw [List.take_left, List.drop_left]

theorem streamIo_readOld (patch old : List UInt8) (written : List (List UInt8)) :
    streamIo.readOld old.length ⟨patch, old, written⟩ = (0, old, ⟨patch, [], written⟩) := by
  change (0, old.take old.length, _) = _
  rw [List.take_length, List.drop_length]

/-- Applying a patch with a fitting header. -/
theorem deltaApplyPatch_eq {old : List UInt8} (oldBound : old.length < 2 ^ 32)
    {hdr : DeltaPatchHeader} (magic : hdr.magic = deltaMagic) (version : hdr.version = 1)
    (oldSize : hdr.oldFileSize.toNat = old.length) {ops : List DeltaOp}
    (dataSize : hdr.patchDataSize.toNat = (patchData ops).length)
    (readable : ∀ op ∈ ops, op.Readable old) :
    deltaApplyPatch streamIo false ⟨hdr.bytes ++ patchData ops, old, []⟩ =
      (.ok, ⟨[], [], ops.map (DeltaOp.output old)⟩) := by
  have headerRead := streamIo_readPatch hdr.bytes (patchData ops) old []
  have opsRead := streamIo_readPatch (patchData ops) [] old []
  rw [length_patchHeader] at headerRead
  rw [List.append_nil] at opsRead
  unfold deltaApplyPatch
  rw [headerRead]
  dsimp only
  rw [(readPatchHeader_reads hdr).run_eq, if_neg (by decide), if_neg (not_not.mpr magic),
    if_neg (not_not.mpr version), dataSize, opsRead, if_neg (by simp)]
  dsimp only
  rw [oldSize, streamIo_readOld, if_neg (by simp), deltaApplyOps_patchData oldBound ops readable,
    if_neg (by simp), List.nil_append]

/-- A patch that is created from two files and applied to the old one produces
the new one. -/
theorem delta_roundTrips (old new : List UInt8) (oldNonempty : 1 ≤ old.length)
    (oldBound : old.length ≤ 2 ^ 30) (newBound : new.length ≤ 2 ^ 30) :
    ∃ buf patchSize, deltaCreatePatch old new = some (.ok (buf, patchSize)) ∧
      (deltaApplyPatch streamIo false ⟨buf.bytes 0 patchSize, old, []⟩).1 = .ok ∧
      (deltaApplyPatch streamIo false ⟨buf.bytes 0 patchSize, old, []⟩).2.written.flatten =
        new := by
  obtain ⟨ops, encodes, last, buf, offset, created, bytes⟩ :=
    deltaCreatePatch_encodes (show old.length ≠ 0 by omega) newBound
  have size := encodes.size
  have bound : encodedBound new.length ≤ 2 * new.length + 3 := by
    unfold encodedBound
    split <;> omega
  have dataLength : (patchData ops).length = (ops.flatMap DeltaOp.bytes).length + 1 := by
    rw [patchData, List.length_append, List.length_singleton]
  have dataSize : (patchHeader old.length new.length last).patchDataSize.toNat =
      (patchData ops).length := by
    change last.opsOffset % 2 ^ 32 = _
    rw [offset, Nat.mod_eq_of_lt (by omega)]
  have oldSize : (patchHeader old.length new.length last).oldFileSize.toNat = old.length :=
    Nat.mod_eq_of_lt (by omega)
  have applied := deltaApplyPatch_eq (by omega) rfl rfl oldSize dataSize encodes.readable
  refine ⟨buf, _, created, ?_, ?_⟩
  · rw [bytes, applied]
  · rw [bytes, applied, ← encodes.output]
    exact (List.flatMap_def ..).symm

theorem delta_roundTrips_pair :
    ∃ buf patchSize, deltaCreatePatch [1] [2, 3] = some (.ok (buf, patchSize)) ∧
      (deltaApplyPatch streamIo false ⟨buf.bytes 0 patchSize, [1], []⟩).1 = .ok ∧
      (deltaApplyPatch streamIo false ⟨buf.bytes 0 patchSize, [1], []⟩).2.written.flatten =
        [2, 3] :=
  delta_roundTrips [1] [2, 3] (by decide) (by decide) (by decide)

end Ota

end MiniIotRobotEdge

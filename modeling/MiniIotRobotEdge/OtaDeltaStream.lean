import MiniIotRobotEdge.OtaDeltaRoundTrip

/-!
# Malformed delta patches

What `delta_apply_patch` reads of its two buffers while the callbacks succeed.  The loop tests
the index only in front of an operation, so operands and literals are read behind the end of the
stream; the end of a copy is computed in 32 bits; and a stream may end without a terminator.
-/

namespace MiniIotRobotEdge

namespace Ota

open PackedBytes

/-- What the loop reads of the two buffers, as offsets with lengths, and what it passes to
`write_new`. -/
structure ApplyRun where
  result : DeltaResult
  opsReads : List (Nat × Nat) := []
  oldReads : List (Nat × Nat) := []
  written : List UInt8 := []
  deriving DecidableEq

namespace ApplyRun

def readOps (run : ApplyRun) (start length : Nat) : ApplyRun :=
  { run with opsReads := (start, length) :: run.opsReads }

def readOld (run : ApplyRun) (start length : Nat) : ApplyRun :=
  { run with oldReads := (start, length) :: run.oldReads }

def write (run : ApplyRun) (bytes : List UInt8) : ApplyRun :=
  { run with written := bytes ++ run.written }

end ApplyRun

/-- The loop of `delta_apply_patch` from the index `i` on; `write_new` reads what it is given. -/
def applyFrom (ops old : Memory) (size oldSize i : Nat) : ApplyRun :=
  if i < size then
    if ops i = deltaOpAdd then
      let len := ofLittleEndian (ops.bytes (i + 1) 2)
      ((applyFrom ops old size oldSize (i + (3 + len))).write (ops.bytes (i + 3) len)).readOps i
        (3 + len)
    else if ops i = deltaOpCopy then
      let len := ofLittleEndian (ops.bytes (i + 1) 2)
      let pos := ofLittleEndian (ops.bytes (i + 3) 4)
      if oldSize < (pos + len) % 2 ^ 32 then
        ({ result := .errPatchCorrupt } : ApplyRun).readOps i 7
      else
        (((applyFrom ops old size oldSize (i + 7)).write (old.bytes pos len)).readOld pos
          len).readOps i 7
    else if ops i = deltaOpSeek then ({ result := .ok } : ApplyRun).readOps i 1
    else ({ result := .errPatchCorrupt } : ApplyRun).readOps i 1
  else { result := .ok }
termination_by size - i

/-- `delta_apply_patch` behind its reads, with the buffers `ops` and `old_buf`. -/
def applyBuffers (header : DeltaPatchHeader) (ops old : Memory) (crypto : Bool) : ApplyRun :=
  if header.magic ≠ deltaMagic then { result := .errPatchCorrupt }
  else if header.version ≠ 1 then { result := .errPatchCorrupt }
  else
    let run := applyFrom ops old header.patchDataSize.toNat header.oldFileSize.toNat 0
    if run.result = .ok ∧ crypto = true then { run with result := deltaVerifyPatch } else run

/-- A buffer that holds the data; what lies behind it is not known. -/
def bufferOf (data : List UInt8) (behind : Memory) : Memory :=
  fun index => data.getD index (behind index)

/-! ### The format -/

/-- The bytes of a list of operations. -/
def opsBytes (ops : List DeltaOp) : List UInt8 := (ops.map DeltaOp.bytes).flatten

/-- Operations inside of the stream and the old file, up to a terminator. -/
def WellFormedStream (old stream : List UInt8) : Prop :=
  ∃ ops rest, (∀ op ∈ ops, op.Readable old) ∧ stream = opsBytes ops ++ deltaOpSeek :: rest

/-- Where no further operation can be read. -/
inductive Stuck (old : List UInt8) : List UInt8 → Prop
  | ended : Stuck old []
  | seek (rest : List UInt8) : Stuck old (deltaOpSeek :: rest)
  | unknown (op : UInt8) (rest : List UInt8) (large : 2 < op.toNat) : Stuck old (op :: rest)
  | shortAdd (rest : List UInt8) (short : rest.length < 2 + ofLittleEndian (rest.take 2)) :
      Stuck old (deltaOpAdd :: rest)
  | shortCopy (rest : List UInt8) (short : rest.length < 6) : Stuck old (deltaOpCopy :: rest)
  | outside (len pos : Nat) (rest : List UInt8) (lenLt : len < 2 ^ 16) (posLt : pos < 2 ^ 32)
      (behind : old.length < pos + len) : Stuck old ((DeltaOp.copy len pos).bytes ++ rest)

theorem op_cases (op : UInt8) :
    op = deltaOpAdd ∨ op = deltaOpCopy ∨ op = deltaOpSeek ∨ 2 < op.toNat := by
  by_cases large : 2 < op.toNat
  · exact .inr (.inr (.inr large))
  · have small : op.toNat = 0 ∨ op.toNat = 1 ∨ op.toNat = 2 := by omega
    rcases small with isOp | isOp | isOp
    · exact .inl (UInt8.toNat_inj.mp isOp)
    · exact .inr (.inl (UInt8.toNat_inj.mp isOp))
    · exact .inr (.inr (.inl (UInt8.toNat_inj.mp isOp)))

/-- The literal of an addition is inside of the stream or not. -/
theorem add_or_stuck (old rest : List UInt8) :
    (∃ (op : DeltaOp) (last : List UInt8), op.Readable old ∧
      deltaOpAdd :: rest = op.bytes ++ last) ∨ Stuck old (deltaOpAdd :: rest) := by
  by_cases short : rest.length < 2 + ofLittleEndian (rest.take 2)
  · exact .inr (.shortAdd rest short)
  · have operand : (rest.take 2).length = 2 := by
      rw [List.length_take]
      omega
    have bound := ofLittleEndian_lt (rest.take 2)
    have encoded := littleEndian_ofLittleEndian (rest.take 2)
    rw [operand] at bound encoded
    have literal : ((rest.drop 2).take (ofLittleEndian (rest.take 2))).length =
        ofLittleEndian (rest.take 2) := by
      rw [List.length_take, List.length_drop]
      omega
    refine .inl ⟨.add ((rest.drop 2).take (ofLittleEndian (rest.take 2))),
      (rest.drop 2).drop (ofLittleEndian (rest.take 2)), ?_, ?_⟩
    · rw [DeltaOp.Readable, literal]
      exact bound
    · rw [DeltaOp.bytes, literal, encoded, List.cons_append, List.append_assoc,
        List.take_append_drop, List.take_append_drop]

/-- The end of a copy is inside of the old file or not. -/
theorem copy_or_stuck (old rest : List UInt8) :
    (∃ (op : DeltaOp) (last : List UInt8), op.Readable old ∧
      deltaOpCopy :: rest = op.bytes ++ last) ∨ Stuck old (deltaOpCopy :: rest) := by
  by_cases short : rest.length < 6
  · exact .inr (.shortCopy rest short)
  · have operand : (rest.take 2).length = 2 := by
      rw [List.length_take]
      omega
    have position : ((rest.drop 2).take 4).length = 4 := by
      rw [List.length_take, List.length_drop]
      omega
    have lenLt := ofLittleEndian_lt (rest.take 2)
    have posLt := ofLittleEndian_lt ((rest.drop 2).take 4)
    have encodedLen := littleEndian_ofLittleEndian (rest.take 2)
    have encodedPos := littleEndian_ofLittleEndian ((rest.drop 2).take 4)
    rw [operand] at lenLt encodedLen
    rw [position] at posLt encodedPos
    have split : deltaOpCopy :: rest =
        (DeltaOp.copy (ofLittleEndian (rest.take 2))
          (ofLittleEndian ((rest.drop 2).take 4))).bytes ++ (rest.drop 2).drop 4 := by
      rw [DeltaOp.bytes, encodedLen, encodedPos, List.cons_append, List.append_assoc,
        List.take_append_drop, List.take_append_drop]
    rw [split]
    by_cases inside : ofLittleEndian ((rest.drop 2).take 4) + ofLittleEndian (rest.take 2) ≤
        old.length
    · exact .inl ⟨.copy _ _, _, ⟨lenLt, inside⟩, rfl⟩
    · exact .inr (.outside _ _ _ lenLt posLt (by omega))

/-- A stream starts with a readable operation or is stuck. -/
theorem op_or_stuck (old stream : List UInt8) :
    (∃ (op : DeltaOp) (rest : List UInt8), op.Readable old ∧ stream = op.bytes ++ rest) ∨
      Stuck old stream := by
  cases stream with
  | nil => exact .inr .ended
  | cons first rest =>
      rcases op_cases first with rfl | rfl | rfl | large
      · exact add_or_stuck old rest
      · exact copy_or_stuck old rest
      · exact .inr (.seek rest)
      · exact .inr (.unknown first rest large)

/-- Every stream is a list of readable operations and a stuck rest. -/
theorem exists_ops_stuck (old stream : List UInt8) :
    ∃ ops rest, (∀ op ∈ ops, op.Readable old) ∧ stream = opsBytes ops ++ rest ∧
      Stuck old rest := by
  induction length : stream.length using Nat.strong_induction_on generalizing stream with
  | _ count ih =>
      rcases op_or_stuck old stream with ⟨op, rest, readable, rfl⟩ | stuck
      · have shorter : rest.length < count := by
          rw [List.length_append, length_bytes_op] at length
          cases op <;> simp only at length <;> omega
        obtain ⟨ops, last, allReadable, rfl, stuck⟩ := ih _ shorter rest rfl
        refine ⟨op :: ops, last, ?_, ?_, stuck⟩
        · exact List.forall_mem_cons.mpr ⟨readable, allReadable⟩
        · simp [opsBytes]
      · exact ⟨[], stream, by simp, rfl, stuck⟩

theorem op_bytes_cons (op : DeltaOp) :
    ∃ rest, op.bytes = deltaOpAdd :: rest ∨ op.bytes = deltaOpCopy :: rest := by
  cases op with
  | add literal => exact ⟨_, .inl rfl⟩
  | copy len pos => exact ⟨_, .inr rfl⟩

/-- Where an operation ends does not depend on what stands behind it. -/
theorem op_bytes_append_inj {old : List UInt8} {op other : DeltaOp} {rest last : List UInt8}
    (oldLt : old.length < 2 ^ 32) (readable : op.Readable old) (otherReadable : other.Readable old)
    (same : op.bytes ++ rest = other.bytes ++ last) : op = other ∧ rest = last := by
  cases op with
  | add literal =>
      cases other with
      | add text =>
          rw [DeltaOp.bytes, DeltaOp.bytes, List.cons_append, List.cons_append] at same
          have tails := (List.cons.inj same).2
          rw [List.append_assoc, List.append_assoc] at tails
          obtain ⟨lengths, strings⟩ := List.append_inj tails (by simp)
          have sameLength := littleEndian_injective readable otherReadable lengths
          obtain ⟨literals, rests⟩ := List.append_inj strings sameLength
          exact ⟨congrArg DeltaOp.add literals, rests⟩
      | copy len pos => exact absurd (List.cons.inj same).1 (by decide)
  | copy len pos =>
      cases other with
      | add text => exact absurd (List.cons.inj same).1 (by decide)
      | copy otherLen otherPos =>
          rw [DeltaOp.bytes, DeltaOp.bytes, List.cons_append, List.cons_append] at same
          have tails := (List.cons.inj same).2
          rw [List.append_assoc, List.append_assoc] at tails
          obtain ⟨lens, positions⟩ := List.append_inj tails (by simp)
          obtain ⟨starts, rests⟩ := List.append_inj positions (by simp)
          obtain ⟨lenLt, inside⟩ := readable
          obtain ⟨otherLt, otherInside⟩ := otherReadable
          have sameLen := littleEndian_injective lenLt otherLt lens
          have samePos := littleEndian_injective (by omega) (by omega) starts
          exact ⟨by rw [sameLen, samePos], rests⟩

/-- A stream that ends behind an operation has no terminator. -/
theorem opsBytes_ne_seek {old : List UInt8} (oldLt : old.length < 2 ^ 32)
    {ops others : List DeltaOp} {rest : List UInt8} (readable : ∀ op ∈ ops, op.Readable old)
    (othersReadable : ∀ op ∈ others, op.Readable old) :
    opsBytes ops ≠ opsBytes others ++ deltaOpSeek :: rest := by
  induction others generalizing ops with
  | nil =>
      intro same
      cases ops with
      | nil => simp [opsBytes] at same
      | cons op ops =>
          obtain ⟨tail, isOp | isOp⟩ := op_bytes_cons op <;>
            simp [opsBytes, isOp, deltaOpAdd, deltaOpCopy, deltaOpSeek] at same
  | cons other others ih =>
      intro same
      cases ops with
      | nil =>
          obtain ⟨tail, isOp | isOp⟩ := op_bytes_cons other <;> simp [opsBytes, isOp] at same
      | cons op ops =>
          obtain ⟨opReadable, opsReadable⟩ := List.forall_mem_cons.mp readable
          obtain ⟨otherReadable, restReadable⟩ := List.forall_mem_cons.mp othersReadable
          have tails : op.bytes ++ opsBytes ops =
              other.bytes ++ (opsBytes others ++ deltaOpSeek :: rest) := by
            simpa [opsBytes] using same
          obtain ⟨-, rests⟩ := op_bytes_append_inj oldLt opReadable otherReadable tails
          exact ih opsReadable restReadable rests

/-! ### Runs -/

/-- The memory holds the data at the address. -/
def Holds (memory : Memory) (address : Nat) (data : List UInt8) : Prop :=
  memory.bytes address data.length = data

section Holds

variable {memory : Memory} {address : Nat} {front rest : List UInt8}

theorem Holds.append (holds : Holds memory address (front ++ rest)) :
    Holds memory address front ∧ Holds memory (address + front.length) rest := by
  unfold Holds at *
  rw [List.length_append, Memory.bytes_append] at holds
  exact List.append_inj holds (by simp)

theorem Holds.cons {first : UInt8} (holds : Holds memory address (first :: rest)) :
    memory address = first ∧ Holds memory (address + 1) rest := by
  have parts : Holds memory address [first] ∧ Holds memory (address + 1) rest := Holds.append holds
  have byte : [memory (address + 0)] = [first] := parts.1
  exact ⟨(List.cons.inj byte).1, parts.2⟩

theorem holds_bufferOf (data : List UInt8) (behind : Memory) :
    Holds (bufferOf data behind) 0 data := by
  apply List.ext_getElem
  · simp
  · intro index inside insideData
    simp [Memory.bytes, bufferOf, insideData]

/-- An operand in front of other data. -/
theorem Holds.operand {count value : Nat} (bound : value < 256 ^ count)
    (holds : Holds memory address (littleEndian count value ++ rest)) :
    ofLittleEndian (memory.bytes address count) = value := by
  have read := holds.append.1
  rw [Holds, length_littleEndian] at read
  rw [read, ofLittleEndian_littleEndian, Nat.mod_eq_of_lt bound]

end Holds

/-- All that a run reads lies in the two buffers. -/
structure ApplyRun.InBounds (size oldSize : Nat) (run : ApplyRun) : Prop where
  ops : ∀ range ∈ run.opsReads, range.1 + range.2 ≤ size
  old : ∀ range ∈ run.oldReads, range.1 + range.2 ≤ oldSize

/-- The run goes on in bounds as `next`, with `covers` bytes more. -/
structure Continues (size oldSize covers : Nat) (run next : ApplyRun) : Prop where
  result : run.result = next.result
  written : run.written.length = covers + next.written.length
  bounds : run.InBounds size oldSize ↔ next.InBounds size oldSize

section Runs

variable {ops old : Memory} {size i : Nat} {oldData : List UInt8}

theorem inBounds_readOps {oldSize start length : Nat} {run : ApplyRun}
    (inside : start + length ≤ size) :
    (run.readOps start length).InBounds size oldSize ↔ run.InBounds size oldSize := by
  constructor
  · exact fun bounds => ⟨(List.forall_mem_cons.mp bounds.ops).2, bounds.old⟩
  · exact fun bounds => ⟨List.forall_mem_cons.mpr ⟨inside, bounds.ops⟩, bounds.old⟩

theorem inBounds_readOld {oldSize start length : Nat} {run : ApplyRun}
    (inside : start + length ≤ oldSize) :
    (run.readOld start length).InBounds size oldSize ↔ run.InBounds size oldSize := by
  constructor
  · exact fun bounds => ⟨bounds.ops, (List.forall_mem_cons.mp bounds.old).2⟩
  · exact fun bounds => ⟨bounds.ops, List.forall_mem_cons.mpr ⟨inside, bounds.old⟩⟩

theorem inBounds_write {oldSize : Nat} {run : ApplyRun} (bytes : List UInt8) :
    (run.write bytes).InBounds size oldSize ↔ run.InBounds size oldSize :=
  ⟨fun bounds => ⟨bounds.ops, bounds.old⟩, fun bounds => ⟨bounds.ops, bounds.old⟩⟩

/-- A readable operation inside of the stream. -/
theorem applyFrom_op {op : DeltaOp} {rest : List UInt8} (oldLt : oldData.length < 2 ^ 32)
    (readable : op.Readable oldData) (holds : Holds ops i (op.bytes ++ rest))
    (inside : i + op.bytes.length ≤ size) :
    Continues size oldData.length op.covers (applyFrom ops old size oldData.length i)
      (applyFrom ops old size oldData.length (i + op.bytes.length)) := by
  rw [length_bytes_op] at inside ⊢
  cases op with
  | add literal =>
      rw [DeltaOp.bytes, List.cons_append, List.append_assoc] at holds
      obtain ⟨isOp, operands⟩ := holds.cons
      have len := operands.operand readable
      dsimp only at inside ⊢
      rw [applyFrom, if_pos (by omega), if_pos isOp]
      dsimp only
      rw [len, Nat.add_comm 3 literal.length]
      refine ⟨rfl, ?_, ?_⟩
      · simp [ApplyRun.readOps, ApplyRun.write, DeltaOp.covers]
      · rw [inBounds_readOps (by omega), inBounds_write]
  | copy len pos =>
      rw [DeltaOp.bytes, List.cons_append, List.append_assoc] at holds
      obtain ⟨isOp, operands⟩ := holds.cons
      obtain ⟨lenLt, copyInside⟩ := readable
      have isLen := operands.operand lenLt
      have positions := operands.append.2
      rw [length_littleEndian] at positions
      have isPos := positions.operand (by omega)
      have notAdd : ops i ≠ deltaOpAdd := by
        rw [isOp]
        decide
      have noWrap : (pos + len) % 2 ^ 32 = pos + len := Nat.mod_eq_of_lt (by omega)
      dsimp only at inside ⊢
      rw [applyFrom, if_pos (by omega), if_neg notAdd, if_pos isOp]
      dsimp only
      rw [isLen, isPos, noWrap, if_neg (by omega)]
      refine ⟨rfl, ?_, ?_⟩
      · simp [ApplyRun.readOps, ApplyRun.readOld, ApplyRun.write, DeltaOp.covers]
      · rw [inBounds_readOps inside, inBounds_readOld copyInside, inBounds_write]

theorem applyFrom_ops {list : List DeltaOp} {rest : List UInt8} (oldLt : oldData.length < 2 ^ 32)
    (readable : ∀ op ∈ list, op.Readable oldData) (holds : Holds ops i (opsBytes list ++ rest))
    (inside : i + (opsBytes list).length ≤ size) :
    Continues size oldData.length (list.map DeltaOp.covers).sum
      (applyFrom ops old size oldData.length i)
      (applyFrom ops old size oldData.length (i + (opsBytes list).length)) := by
  induction list generalizing i with
  | nil => exact ⟨rfl, by simp [opsBytes], Iff.rfl⟩
  | cons op list ih =>
      obtain ⟨opReadable, listReadable⟩ := List.forall_mem_cons.mp readable
      have isSplit : opsBytes (op :: list) = op.bytes ++ opsBytes list := rfl
      rw [isSplit, List.append_assoc] at holds
      rw [isSplit, List.length_append] at inside ⊢
      have first : Continues size oldData.length op.covers
          (applyFrom ops old size oldData.length i)
          (applyFrom ops old size oldData.length (i + op.bytes.length)) :=
        applyFrom_op oldLt opReadable holds (by omega)
      have later := ih listReadable holds.append.2 (by omega)
      rw [← Nat.add_assoc]
      refine ⟨first.result.trans later.result, ?_, first.bounds.trans later.bounds⟩
      rw [first.written, later.written, List.map_cons, List.sum_cons]
      omega

theorem applyFrom_ended (oldSize : Nat) :
    applyFrom ops old size oldSize size = { result := .ok } := by
  rw [applyFrom, if_neg (Nat.lt_irrefl size)]

theorem applyFrom_seek {rest : List UInt8} (oldSize : Nat)
    (holds : Holds ops i (deltaOpSeek :: rest)) (inside : i < size) :
    applyFrom ops old size oldSize i = ({ result := .ok } : ApplyRun).readOps i 1 := by
  have isOp := holds.cons.1
  rw [applyFrom, if_pos inside, isOp]
  rfl

theorem applyFrom_unknown {op : UInt8} {rest : List UInt8} (oldSize : Nat) (large : 2 < op.toNat)
    (holds : Holds ops i (op :: rest)) (inside : i < size) :
    applyFrom ops old size oldSize i =
      ({ result := .errPatchCorrupt } : ApplyRun).readOps i 1 := by
  have differs : ∀ known : UInt8, known.toNat ≤ 2 → op ≠ known := by
    rintro known small rfl
    omega
  rw [applyFrom, if_pos inside, holds.cons.1, if_neg (differs _ (by decide)),
    if_neg (differs _ (by decide)), if_neg (differs _ (by decide))]

/-- Operands or a literal behind the end of the stream are read there. -/
theorem applyFrom_shortAdd {rest : List UInt8} (oldSize : Nat)
    (holds : Holds ops i (deltaOpAdd :: rest))
    (short : rest.length < 2 + ofLittleEndian (rest.take 2))
    (isEnd : i + (rest.length + 1) = size) :
    ¬(applyFrom ops old size oldSize i).InBounds size oldSize := by
  obtain ⟨isOp, operands⟩ := holds.cons
  rw [applyFrom, if_pos (by omega), if_pos isOp]
  intro bounds
  have read := bounds.ops _ (List.mem_cons_self ..)
  dsimp only at read
  have whole : 2 ≤ rest.length := by omega
  rw [← List.take_append_drop 2 rest] at operands
  have operand := operands.append.1
  rw [Holds, List.length_take, Nat.min_eq_left whole] at operand
  rw [operand] at read
  omega

theorem applyFrom_shortCopy {rest : List UInt8} (oldSize : Nat)
    (holds : Holds ops i (deltaOpCopy :: rest)) (short : rest.length < 6)
    (isEnd : i + (rest.length + 1) = size) :
    ¬(applyFrom ops old size oldSize i).InBounds size oldSize := by
  have isOp := holds.cons.1
  have notAdd : ops i ≠ deltaOpAdd := by
    rw [isOp]
    decide
  rw [applyFrom, if_pos (by omega), if_neg notAdd, if_pos isOp]
  intro bounds
  have read : (i, 7).1 + (i, 7).2 ≤ size := by
    apply bounds.ops
    dsimp only
    split <;> exact List.mem_cons_self ..
  omega

/-- A copy that ends behind the old file is refused, or read when its end wraps around. -/
theorem applyFrom_outside (old : Memory) {len pos oldSize : Nat} {rest : List UInt8}
    (lenLt : len < 2 ^ 16) (posLt : pos < 2 ^ 32) (behind : oldSize < pos + len)
    (holds : Holds ops i ((DeltaOp.copy len pos).bytes ++ rest)) (inside : i < size) :
    if oldSize < (pos + len) % 2 ^ 32 then
      applyFrom ops old size oldSize i =
        ({ result := .errPatchCorrupt } : ApplyRun).readOps i 7
    else ¬(applyFrom ops old size oldSize i).InBounds size oldSize := by
  rw [DeltaOp.bytes, List.cons_append, List.append_assoc] at holds
  obtain ⟨isOp, operands⟩ := holds.cons
  have isLen := operands.operand lenLt
  have positions := operands.append.2
  rw [length_littleEndian] at positions
  have isPos := positions.operand posLt
  have notAdd : ops i ≠ deltaOpAdd := by
    rw [isOp]
    decide
  rw [applyFrom, if_pos inside, if_neg notAdd, if_pos isOp]
  dsimp only
  rw [isLen, isPos]
  split
  · rfl
  · intro bounds
    have read := bounds.old (pos, len) (List.mem_cons_self ..)
    dsimp only at read
    omega

end Runs

/-- What the loop refuses: an unknown operation, and a copy whose end in 32 bits is behind the old
file. -/
inductive Detected (old : List UInt8) : List UInt8 → Prop
  | unknown (op : UInt8) (rest : List UInt8) (large : 2 < op.toNat) : Detected old (op :: rest)
  | outside (len pos : Nat) (rest : List UInt8) (lenLt : len < 2 ^ 16) (posLt : pos < 2 ^ 32)
      (behind : old.length < (pos + len) % 2 ^ 32) :
      Detected old ((DeltaOp.copy len pos).bytes ++ rest)

/-- Behind operations that can be read, the stream has a terminator where the new file is complete,
or something that the loop refuses. -/
def StreamChecks (newSize : Nat) (old stream : List UInt8) : Prop :=
  ∃ ops rest, (∀ op ∈ ops, op.Readable old) ∧ stream = opsBytes ops ++ rest ∧
    ((rest.head? = some deltaOpSeek ∧ (ops.map DeltaOp.covers).sum = newSize) ∨ Detected old rest)

/-- What a run promises about a stream, well-formed or not. -/
structure RejectsMalformed (newSize : Nat) (old stream : List UInt8) (run : ApplyRun) : Prop where
  bounds : run.InBounds stream.length old.length
  accepted : run.result = .ok → WellFormedStream old stream ∧ run.written.length = newSize

/-- A run that stops behind its last read. -/
theorem inBounds_stop {size oldSize start length : Nat} {result : DeltaResult}
    (inside : start + length ≤ size) :
    (({ result := result } : ApplyRun).readOps start length).InBounds size oldSize := by
  rw [inBounds_readOps inside]
  exact ⟨nofun, nofun⟩

section Accepted

variable {ops behind : Memory} {old stream : List UInt8} {run : ApplyRun} {newSize : Nat}

/-- A run that is refused in bounds promises nothing else. -/
theorem rejectsMalformed_of_refused {covers start length : Nat} {next : ApplyRun}
    (continues : Continues stream.length old.length covers run next)
    (refused : next = ({ result := .errPatchCorrupt } : ApplyRun).readOps start length)
    (inside : start + length ≤ stream.length) : RejectsMalformed newSize old stream run := by
  subst refused
  refine ⟨continues.bounds.mpr (inBounds_stop inside), fun isOk => ?_⟩
  have isResult := continues.result.symm.trans isOk
  cases isResult

/-- The operations at the front of a stream are carried out. -/
theorem continues_ops (behind : Memory) {list : List DeltaOp} {rest : List UInt8}
    (oldLt : old.length < 2 ^ 32) (readable : ∀ op ∈ list, op.Readable old)
    (holds : Holds ops 0 (opsBytes list ++ rest)) :
    Continues (opsBytes list ++ rest).length old.length (list.map DeltaOp.covers).sum
      (applyFrom ops behind (opsBytes list ++ rest).length old.length 0)
      (applyFrom ops behind (opsBytes list ++ rest).length old.length
        (0 + (opsBytes list).length)) := by
  apply applyFrom_ops oldLt readable holds
  rw [List.length_append]
  omega

theorem copy_inside (list : List DeltaOp) (len pos : Nat) (last : List UInt8) :
    0 + (opsBytes list).length + 7 ≤
      (opsBytes list ++ ((DeltaOp.copy len pos).bytes ++ last)).length := by
  have seven : (DeltaOp.copy len pos).bytes.length = 7 := length_bytes_op (.copy len pos)
  rw [List.length_append, List.length_append, seven]
  omega

theorem rejectsMalformed_of_streamChecks (oldLt : old.length < 2 ^ 32)
    (holds : Holds ops 0 stream) (checks : StreamChecks newSize old stream) :
    RejectsMalformed newSize old stream (applyFrom ops behind stream.length old.length 0) := by
  obtain ⟨list, rest, readable, rfl, ends⟩ := checks
  have whole : (opsBytes list ++ rest).length = (opsBytes list).length + rest.length :=
    List.length_append
  have continues := continues_ops behind oldLt readable holds
  have tail := holds.append.2
  rcases ends with ⟨isSeek, total⟩ | detected
  · obtain ⟨last, rfl⟩ := List.head?_eq_some_iff.mp isSeek
    rw [List.length_cons] at whole
    rw [applyFrom_seek old.length tail (by omega)] at continues
    refine ⟨continues.bounds.mpr (inBounds_stop (by omega)), fun _ => ?_⟩
    refine ⟨⟨list, last, readable, rfl⟩, ?_⟩
    rw [continues.written, total]
    rfl
  · cases detected with
    | unknown op last large =>
        rw [List.length_cons] at whole
        exact rejectsMalformed_of_refused continues
          (applyFrom_unknown old.length large tail (by omega)) (by omega)
    | outside len pos last lenLt posLt wraps =>
        have isBehind : old.length < pos + len :=
          Nat.lt_of_lt_of_le wraps (Nat.mod_le _ _)
        have below := copy_inside list len pos last
        have refused := applyFrom_outside behind lenLt posLt isBehind tail
          (Nat.lt_of_lt_of_le (Nat.lt_add_of_pos_right (by decide)) below)
        rw [if_pos wraps] at refused
        exact rejectsMalformed_of_refused continues refused below

theorem streamChecks_of_rejectsMalformed (oldLt : old.length < 2 ^ 32)
    (holds : Holds ops 0 stream)
    (rejects : RejectsMalformed newSize old stream
      (applyFrom ops behind stream.length old.length 0)) : StreamChecks newSize old stream := by
  obtain ⟨list, rest, readable, rfl, stuck⟩ := exists_ops_stuck old stream
  refine ⟨list, rest, readable, rfl, ?_⟩
  have whole : (opsBytes list ++ rest).length = (opsBytes list).length + rest.length :=
    List.length_append
  have continues := continues_ops behind oldLt readable holds
  have tail := holds.append.2
  have bounds := continues.bounds.mp rejects.bounds
  cases stuck with
  | ended =>
      -- The loop ends without an error, and nothing says that the stream should go on.
      have isEnd : 0 + (opsBytes list).length = (opsBytes list ++ []).length := by simp
      rw [isEnd, applyFrom_ended] at continues
      obtain ⟨others, last, othersReadable, same⟩ := (rejects.accepted continues.result).1
      rw [List.append_nil] at same
      exact absurd same (opsBytes_ne_seek oldLt readable othersReadable)
  | seek last =>
      rw [List.length_cons] at whole
      rw [applyFrom_seek old.length tail (by omega)] at continues
      have total := (rejects.accepted continues.result).2
      rw [continues.written] at total
      exact .inl ⟨rfl, total⟩
  | unknown op last large => exact .inr (.unknown op last large)
  | shortAdd last short =>
      rw [List.length_cons] at whole
      exact absurd bounds (applyFrom_shortAdd old.length tail short (by omega))
  | shortCopy last short =>
      rw [List.length_cons] at whole
      exact absurd bounds (applyFrom_shortCopy old.length tail short (by omega))
  | outside len pos last lenLt posLt isBehind =>
      have below := copy_inside list len pos last
      have refused := applyFrom_outside behind lenLt posLt isBehind tail
        (Nat.lt_of_lt_of_le (Nat.lt_add_of_pos_right (by decide)) below)
      split at refused
      case isTrue wraps => exact .inr (.outside len pos last lenLt posLt wraps)
      case isFalse => exact absurd bounds refused

end Accepted

theorem applyBuffers_eq {header : DeltaPatchHeader} (magic : header.magic = deltaMagic)
    (version : header.version = 1) (ops old : Memory) (crypto : Bool) :
    applyBuffers header ops old crypto =
      applyFrom ops old header.patchDataSize.toNat header.oldFileSize.toNat 0 := by
  rw [applyBuffers, if_neg (not_not.mpr magic), if_neg (not_not.mpr version)]
  dsimp only
  split
  case isTrue accepted =>
    rw [deltaVerifyPatch, ← accepted.1]
  case isFalse => rfl

/-- A patch is applied in bounds, and accepted only when it is complete, exactly when its stream
checks. -/
theorem applyBuffers_rejects_iff {header : DeltaPatchHeader} (magic : header.magic = deltaMagic)
    (version : header.version = 1) {stream old : List UInt8}
    (streamLength : stream.length = header.patchDataSize.toNat)
    (oldLength : old.length = header.oldFileSize.toNat) (behind oldBehind : Memory)
    (crypto : Bool) :
    RejectsMalformed header.newFileSize.toNat old stream
        (applyBuffers header (bufferOf stream behind) (bufferOf old oldBehind) crypto) ↔
      StreamChecks header.newFileSize.toNat old stream := by
  have oldLt : old.length < 2 ^ 32 := by
    rw [oldLength]
    exact header.oldFileSize.isLt
  rw [applyBuffers_eq magic version, ← streamLength, ← oldLength]
  exact ⟨streamChecks_of_rejectsMalformed oldLt (holds_bufferOf stream behind),
    rejectsMalformed_of_streamChecks oldLt (holds_bufferOf stream behind)⟩

/-- One byte is added and the stream ends; the new file should have five. -/
theorem applyBuffers_unfinished :
    ¬RejectsMalformed 5 [9] [0, 1, 0, 7]
      (applyBuffers (patchHeader 1 5 ⟨fun _ => 0, 4, 0⟩) (bufferOf [0, 1, 0, 7] fun _ => 0)
        (bufferOf [9] fun _ => 0) false) := by
  intro rejects
  rw [applyBuffers_eq rfl rfl] at rejects
  have size : (patchHeader 1 5 ⟨fun _ => 0, 4, 0⟩).patchDataSize.toNat = 4 := by decide
  have operand : ofLittleEndian (Memory.bytes (bufferOf [0, 1, 0, 7] fun _ => 0) (0 + 1) 2) =
      1 := by
    decide
  have isOp : bufferOf [0, 1, 0, 7] (fun _ => 0) 0 = deltaOpAdd := by decide
  rw [size, applyFrom, if_pos (by decide), if_pos isOp] at rejects
  dsimp only at rejects
  rw [operand, applyFrom_ended] at rejects
  exact absurd (rejects.accepted rfl).2 (by decide)

theorem applyBuffers_rejects_iff_one :
    RejectsMalformed (patchHeader 1 1 ⟨fun _ => 0, 5, 0⟩).newFileSize.toNat [9] [0, 1, 0, 7, 2]
        (applyBuffers (patchHeader 1 1 ⟨fun _ => 0, 5, 0⟩) (bufferOf [0, 1, 0, 7, 2] fun _ => 3)
          (bufferOf [9] fun _ => 3) true) ↔
      StreamChecks (patchHeader 1 1 ⟨fun _ => 0, 5, 0⟩).newFileSize.toNat [9] [0, 1, 0, 7, 2] :=
  applyBuffers_rejects_iff rfl rfl (by decide) (by decide) (fun _ => 3) (fun _ => 3) true

/-! ### The loop on lists -/

/-- Callbacks that succeed and keep what is written. -/
def loggingIo : DeltaIo (List UInt8) where
  readPatch := fun _ log => (0, [], log)
  readOld := fun _ log => (0, [], log)
  writeNew := fun bytes log => (0, log ++ bytes)

theorem Holds.take {memory : Memory} {address count : Nat} {data : List UInt8}
    (holds : Holds memory address data) (inside : count ≤ data.length) :
    memory.bytes address count = data.take count := by
  rw [← List.take_append_drop count data] at holds
  have front := holds.append.1
  rwa [Holds, List.length_take, Nat.min_eq_left inside] at front

theorem Holds.drop {memory : Memory} {address count : Nat} {data : List UInt8}
    (holds : Holds memory address data) (inside : count ≤ data.length) :
    Holds memory (address + count) (data.drop count) := by
  rw [← List.take_append_drop count data] at holds
  have back := holds.append.2
  rwa [List.length_take, Nat.min_eq_left inside] at back

theorem Holds.slice {memory : Memory} {address start count : Nat} {data : List UInt8}
    (holds : Holds memory address data) (inside : start + count ≤ data.length) :
    memory.bytes (address + start) count = (data.drop start).take count :=
  (holds.drop (Nat.le_of_add_right_le inside)).take (by rw [List.length_drop]; omega)

theorem deltaApplyOps_add (oldData : List UInt8) (oldSize : Nat) (rest log : List UInt8) :
    deltaApplyOps loggingIo oldData oldSize (deltaOpAdd :: rest) log =
      deltaApplyOps loggingIo oldData oldSize (rest.drop (2 + ofLittleEndian (rest.take 2)))
        (log ++ (rest.drop 2).take (ofLittleEndian (rest.take 2))) := by
  rw [deltaApplyOps, if_pos rfl]
  dsimp only
  exact if_neg fun fails => fails rfl

theorem deltaApplyOps_copy {oldData : List UInt8} {oldSize : Nat} {rest : List UInt8}
    (inside : ¬oldSize < (ofLittleEndian ((rest.drop 2).take 4) +
      ofLittleEndian (rest.take 2)) % 2 ^ 32) (log : List UInt8) :
    deltaApplyOps loggingIo oldData oldSize (deltaOpCopy :: rest) log =
      deltaApplyOps loggingIo oldData oldSize (rest.drop 6)
        (log ++ (oldData.drop (ofLittleEndian ((rest.drop 2).take 4))).take
          (ofLittleEndian (rest.take 2))) := by
  rw [deltaApplyOps, if_neg (by decide), if_pos rfl]
  dsimp only
  rw [if_neg inside]
  exact if_neg fun fails => fails rfl

section Logs

variable {ops old : Memory} {size i : Nat} {oldData rest : List UInt8}

/-- An addition whose reads are in bounds writes its literal and goes on behind it. -/
theorem applyFrom_add (operands : Holds ops (i + 1) rest) (isEnd : i + (rest.length + 1) = size)
    (isOp : ops i = deltaOpAdd)
    (bounds : (applyFrom ops old size oldData.length i).InBounds size oldData.length) :
    ∃ len, len = ofLittleEndian (rest.take 2) ∧ 2 + len ≤ rest.length ∧
      (applyFrom ops old size oldData.length (i + (3 + len))).InBounds size oldData.length ∧
      applyFrom ops old size oldData.length i =
        ((applyFrom ops old size oldData.length (i + (3 + len))).write
          ((rest.drop 2).take len)).readOps i (3 + len) := by
  rw [applyFrom, if_pos (by omega), if_pos isOp] at bounds ⊢
  dsimp only at bounds ⊢
  have read := bounds.ops _ (List.mem_cons_self ..)
  dsimp only at read
  have operand : ops.bytes (i + 1) 2 = rest.take 2 := operands.take (by omega)
  rw [operand] at bounds read ⊢
  have inside : 2 + ofLittleEndian (rest.take 2) ≤ rest.length := by omega
  have literal : ops.bytes (i + 3) (ofLittleEndian (rest.take 2)) =
      (rest.drop 2).take (ofLittleEndian (rest.take 2)) := operands.slice inside
  rw [inBounds_readOps read, inBounds_write] at bounds
  exact ⟨_, rfl, inside, bounds, by rw [literal]⟩

/-- A copy whose reads are in bounds writes a part of the old file, unless the test refuses it. -/
theorem applyFrom_copy (oldHolds : Holds old 0 oldData) (operands : Holds ops (i + 1) rest)
    (isEnd : i + (rest.length + 1) = size) (isOp : ops i = deltaOpCopy)
    (bounds : (applyFrom ops old size oldData.length i).InBounds size oldData.length) :
    ∃ len pos, len = ofLittleEndian (rest.take 2) ∧ pos = ofLittleEndian ((rest.drop 2).take 4) ∧
      6 ≤ rest.length ∧
      ((oldData.length < (pos + len) % 2 ^ 32 ∧ applyFrom ops old size oldData.length i =
          ({ result := .errPatchCorrupt } : ApplyRun).readOps i 7) ∨
        (¬oldData.length < (pos + len) % 2 ^ 32 ∧
          (applyFrom ops old size oldData.length (i + 7)).InBounds size oldData.length ∧
          applyFrom ops old size oldData.length i =
            (((applyFrom ops old size oldData.length (i + 7)).write
              ((oldData.drop pos).take len)).readOld pos len).readOps i 7)) := by
  rw [applyFrom, if_pos (by omega), if_neg (by rw [isOp]; decide), if_pos isOp] at bounds ⊢
  dsimp only at bounds ⊢
  have read : (i, 7).1 + (i, 7).2 ≤ size := by
    apply bounds.ops
    split <;> exact List.mem_cons_self ..
  dsimp only at read
  have operand : ops.bytes (i + 1) 2 = rest.take 2 := operands.take (by omega)
  have position : ops.bytes (i + 3) 4 = (rest.drop 2).take 4 :=
    operands.slice (show 2 + 4 ≤ rest.length by omega)
  rw [operand, position] at bounds ⊢
  refine ⟨_, _, rfl, rfl, by omega, ?_⟩
  by_cases refused : oldData.length <
      (ofLittleEndian ((rest.drop 2).take 4) + ofLittleEndian (rest.take 2)) % 2 ^ 32
  · rw [if_pos refused]
    exact .inl ⟨refused, rfl⟩
  · rw [if_neg refused] at bounds ⊢
    rw [inBounds_readOps read] at bounds
    have oldRead := bounds.old _ (List.mem_cons_self ..)
    dsimp only at oldRead
    rw [inBounds_readOld oldRead, inBounds_write] at bounds
    have copied := oldHolds.slice oldRead
    rw [Nat.zero_add] at copied
    exact .inr ⟨refused, bounds, by rw [copied]⟩

end Logs

/-- As long as the reads are in bounds, the loop does what it does on the lists. -/
theorem deltaApplyOps_eq_applyFrom {ops old : Memory} {size i : Nat} {oldData rest log : List UInt8}
    (oldHolds : Holds old 0 oldData) (holds : Holds ops i rest) (isEnd : i + rest.length = size)
    (bounds : (applyFrom ops old size oldData.length i).InBounds size oldData.length) :
    deltaApplyOps loggingIo oldData oldData.length rest log =
      ((applyFrom ops old size oldData.length i).result,
        log ++ (applyFrom ops old size oldData.length i).written) := by
  induction length : rest.length using Nat.strong_induction_on generalizing rest i log with
  | _ count ih =>
      cases rest with
      | nil =>
          rw [List.length_nil, Nat.add_zero] at isEnd
          rw [isEnd, applyFrom_ended, deltaApplyOps, List.append_nil]
      | cons first rest =>
          obtain ⟨isOp, operands⟩ := holds.cons
          rw [List.length_cons] at isEnd length
          by_cases isAdd : first = deltaOpAdd
          · subst isAdd
            obtain ⟨len, rfl, inside, later, runs⟩ := applyFrom_add operands isEnd isOp bounds
            have behind := operands.drop inside
            rw [show i + 1 + (2 + ofLittleEndian (rest.take 2)) =
              i + (3 + ofLittleEndian (rest.take 2)) by omega] at behind
            rw [deltaApplyOps_add, runs, ih _ (by rw [List.length_drop]; omega) behind
              (by rw [List.length_drop]; omega) later rfl, List.append_assoc]
            rfl
          · by_cases isCopy : first = deltaOpCopy
            · subst isCopy
              obtain ⟨len, pos, rfl, rfl, enough, ⟨refused, runs⟩ | ⟨inside, later, runs⟩⟩ :=
                applyFrom_copy oldHolds operands isEnd isOp bounds
              · rw [runs, deltaApplyOps, if_neg isAdd, if_pos rfl]
                dsimp only
                rw [if_pos refused]
                simp [ApplyRun.readOps]
              · have behind := operands.drop enough
                rw [deltaApplyOps_copy inside, runs, ih _ (by rw [List.length_drop]; omega) behind
                  (by rw [List.length_drop]; omega) later rfl, List.append_assoc]
                rfl
            · rw [applyFrom, if_pos (by omega), isOp, deltaApplyOps, if_neg isAdd, if_neg isAdd,
                if_neg isCopy, if_neg isCopy]
              split <;> simp [ApplyRun.readOps]

end Ota

end MiniIotRobotEdge

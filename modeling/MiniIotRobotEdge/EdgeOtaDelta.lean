import MiniIotRobotEdge.ByteMemory
import MiniIotRobotEdge.PackedBytes

/-!
# The binary delta of mini-edge-security

The model of `edge_ota_compute_delta` from `edge_ota.c`.  The comment above the
function gives the format of a delta: an offset of four bytes, a length of two
bytes and the new data, again and again.  `applyDelta` reads it that way.  The
invariant of the scan says which part of the old image the records written so
far have brought up to date.
-/

namespace MiniIotRobotEdge

namespace Edge

open PackedBytes

/-- A byte of an image, 0 behind its end. -/
def firmwareByte (firmware : List UInt8) : Memory := fun position => firmware.getD position 0

/-- The bytes of `delta` below `dpos`, and the run that is being counted. -/
structure DeltaScan where
  delta : List UInt8
  runStart : Int
  runLen : Nat

/-- Write the record of the run.  The data stops where the buffer ends. -/
def writeRun (new : List UInt8) (maxDelta : Int) (scan : DeltaScan) : DeltaScan :=
  let start := scan.runStart.toNat
  let header := scan.delta ++ (littleEndian 4 start ++ littleEndian 2 scan.runLen)
  let room := (maxDelta - header.length).toNat
  ⟨header ++ ((firmwareByte new).bytes start scan.runLen).take room, -1, 0⟩

/-- The body of the loop over the positions. -/
def scanByte (old new : List UInt8) (maxDelta : Int) (scan : DeltaScan) (i : Nat) : DeltaScan :=
  if firmwareByte old i ≠ firmwareByte new i then
    if scan.runStart < 0 then { scan with runStart := i, runLen := 1 }
    else { scan with runLen := scan.runLen + 1 }
  else if 0 ≤ scan.runStart ∧ 0 < scan.runLen then writeRun new maxDelta scan
  else scan

/-- The loop from position `i` on, with so many positions left. -/
def scanBytes (old new : List UInt8) (maxDelta : Int) : Nat → Nat → DeltaScan → DeltaScan
  | 0, _, scan => scan
  | left + 1, i, scan =>
      if scan.delta.length < maxDelta - 10 then
        scanBytes old new maxDelta left (i + 1) (scanByte old new maxDelta scan i)
      else scan

/-- The whole loop, up to `max_len`. -/
def scanImages (old new : List UInt8) (maxDelta : Int) : DeltaScan :=
  scanBytes old new maxDelta (max old.length new.length) 0 ⟨[], -1, 0⟩

/-- `edge_ota_compute_delta`: the bytes written, whose number is returned. -/
def edgeOtaComputeDelta (old new : List UInt8) (maxDelta : Int) : List UInt8 :=
  let scan := scanImages old new maxDelta
  if 0 ≤ scan.runStart ∧ 0 < scan.runLen ∧ scan.delta.length < maxDelta - 6 then
    (writeRun new maxDelta scan).delta
  else scan.delta

/-- What a delta does to an image, by the format in the comment. -/
def applyDelta (firmware : Memory) (delta : List UInt8) : Memory :=
  if delta.length < 6 then firmware
  else
    let count := ofLittleEndian ((delta.drop 4).take 2)
    applyDelta
      (firmware.writeBytes (ofLittleEndian (delta.take 4)) ((delta.drop 6).take count))
      (delta.drop (6 + count))
termination_by delta.length
decreasing_by
  rw [List.length_drop]
  omega

/-- A delta that ends with the end of a record. -/
def WholeRecords (delta : List UInt8) : Prop :=
  ∀ firmware more, applyDelta firmware (delta ++ more) =
    applyDelta (applyDelta firmware delta) more

/-- The new image up to a position and the old one from there on. -/
def updatedUpTo (old new : Memory) (position : Nat) : Memory :=
  fun target => if target < position then new target else old target

/-- Among any 65536 neighbouring positions one is unchanged. -/
def ShortChanges (old new : List UInt8) : Prop :=
  ∀ start, ∃ position, start ≤ position ∧ position < start + 65536 ∧
    firmwareByte old position = firmwareByte new position

section Records

variable {firmware : Memory} {start : Nat} {data : List UInt8}

theorem applyDelta_nil (firmware : Memory) : applyDelta firmware [] = firmware := by
  rw [applyDelta, if_pos (by decide)]

/-- The front record of a delta is applied first. -/
theorem applyDelta_record (firmware : Memory) (small : start < 2 ^ 32)
    (short : data.length < 65536) (more : List UInt8) :
    applyDelta firmware (littleEndian 4 start ++ (littleEndian 2 data.length ++ (data ++ more))) =
      applyDelta (firmware.writeBytes start data) more := by
  have offsetTaken : (littleEndian 4 start ++
      (littleEndian 2 data.length ++ (data ++ more))).take 4 = littleEndian 4 start :=
    List.take_left' (length_littleEndian 4 start)
  have offsetDropped : (littleEndian 4 start ++
      (littleEndian 2 data.length ++ (data ++ more))).drop 4 =
        littleEndian 2 data.length ++ (data ++ more) :=
    List.drop_left' (length_littleEndian 4 start)
  have countTaken : (littleEndian 2 data.length ++ (data ++ more)).take 2 =
      littleEndian 2 data.length :=
    List.take_left' (length_littleEndian 2 data.length)
  have countDropped : (littleEndian 2 data.length ++ (data ++ more)).drop 2 = data ++ more :=
    List.drop_left' (length_littleEndian 2 data.length)
  have headerDropped : (littleEndian 4 start ++
      (littleEndian 2 data.length ++ (data ++ more))).drop 6 = data ++ more := by
    rw [show 6 = 4 + 2 from rfl, ← List.drop_drop, offsetDropped, countDropped]
  have long : ¬ (littleEndian 4 start ++
      (littleEndian 2 data.length ++ (data ++ more))).length < 6 := by
    simp only [List.length_append, length_littleEndian]
    omega
  rw [applyDelta, if_neg long]
  dsimp only
  rw [offsetTaken, offsetDropped, countTaken, ofLittleEndian_littleEndian,
    ofLittleEndian_littleEndian, Nat.mod_eq_of_lt (by norm_num; omega),
    Nat.mod_eq_of_lt (by norm_num; omega), headerDropped, List.take_left' rfl,
    ← List.drop_drop, headerDropped, List.drop_left' rfl]

theorem wholeRecords_nil : WholeRecords [] := by
  intro firmware more
  rw [applyDelta_nil, List.nil_append]

/-- A record behind whole records. -/
theorem WholeRecords.append {delta : List UInt8} (whole : WholeRecords delta) (start : Nat)
    (data : List UInt8) (small : start < 2 ^ 32) (short : data.length < 65536) :
    WholeRecords (delta ++ (littleEndian 4 start ++ (littleEndian 2 data.length ++ data))) ∧
      ∀ firmware, applyDelta firmware
        (delta ++ (littleEndian 4 start ++ (littleEndian 2 data.length ++ data))) =
          (applyDelta firmware delta).writeBytes start data := by
  have applied : ∀ firmware more, applyDelta firmware
      (delta ++ (littleEndian 4 start ++ (littleEndian 2 data.length ++ (data ++ more)))) =
        applyDelta ((applyDelta firmware delta).writeBytes start data) more := by
    intro firmware more
    rw [whole, applyDelta_record _ small short]
  have last : ∀ firmware, applyDelta firmware
      (delta ++ (littleEndian 4 start ++ (littleEndian 2 data.length ++ data))) =
        (applyDelta firmware delta).writeBytes start data := by
    intro firmware
    have whenLast := applied firmware []
    rwa [List.append_nil, applyDelta_nil] at whenLast
  refine ⟨fun firmware more => ?_, last⟩
  rw [last, ← applied firmware more]
  simp only [List.append_assoc]

end Records

section Scan

variable {old new : List UInt8} {maxDelta : Int} {scan : DeltaScan} {i : Nat}

/-- The state of the scan before position `i`: the run begins at `start`, and the
records written so far update everything in front of it. -/
structure Scanned (old new : List UInt8) (scan : DeltaScan) (i start : Nat) : Prop where
  whole : WholeRecords scan.delta
  updated : applyDelta (firmwareByte old) scan.delta =
    updatedUpTo (firmwareByte old) (firmwareByte new) start
  run : start + scan.runLen = i
  runStart : scan.runStart = if scan.runLen = 0 then -1 else (start : Int)
  changed : ∀ position, start ≤ position → position < i →
    firmwareByte old position ≠ firmwareByte new position

/-- An unchanged byte belongs to both images. -/
theorem updatedUpTo_succ {old new : Memory} {position : Nat}
    (same : old position = new position) :
    updatedUpTo old new position = updatedUpTo old new (position + 1) := by
  ext target
  simp only [updatedUpTo]
  by_cases isHere : target = position
  · subst isHere
    rw [if_neg (Nat.lt_irrefl _), if_pos (Nat.lt_succ_self _), same]
  · by_cases before : target < position
    · rw [if_pos before, if_pos (by omega)]
    · rw [if_neg before, if_neg (by omega)]

/-- The data of a run brings the image up to date to the end of the run. -/
theorem writeBytes_updatedUpTo (old new : Memory) (start count : Nat) :
    (updatedUpTo old new start).writeBytes start (new.bytes start count) =
      updatedUpTo old new (start + count) := by
  ext target
  by_cases inRun : start ≤ target ∧ target < start + count
  · obtain ⟨index, rfl⟩ := Nat.exists_eq_add_of_le inRun.1
    rw [Memory.writeBytes_bytes _ _ _ _ (by omega), updatedUpTo, if_pos inRun.2]
  · rw [Memory.writeBytes_outside (by rw [Memory.length_bytes]; omega), updatedUpTo,
      updatedUpTo]
    by_cases before : target < start
    · rw [if_pos before, if_pos (by omega)]
    · rw [if_neg before, if_neg (by omega)]

/-- A run of changed bytes has a length that fits into two bytes. -/
theorem Scanned.runLen_lt {start : Nat} (scanned : Scanned old new scan i start)
    (short : ShortChanges old new) : scan.runLen < 65536 := by
  by_contra long
  obtain ⟨position, lower, upper, same⟩ := short start
  have run := scanned.run
  exact scanned.changed position lower (by omega) same

theorem length_writeRun_le (new : List UInt8) (maxDelta : Int) (scan : DeltaScan) :
    (writeRun new maxDelta scan).delta.length ≤ scan.delta.length + 6 + scan.runLen := by
  simp only [writeRun, List.length_append, length_littleEndian, List.length_take,
    Memory.length_bytes]
  omega

theorem length_le_writeRun (new : List UInt8) (maxDelta : Int) (scan : DeltaScan) :
    scan.delta.length ≤ (writeRun new maxDelta scan).delta.length := by
  simp only [writeRun, List.length_append]
  omega

/-- Where room is left behind a record, all of its data has been written. -/
theorem writeRun_eq (room : (writeRun new maxDelta scan).delta.length < maxDelta) :
    (writeRun new maxDelta scan).delta =
      scan.delta ++ (littleEndian 4 scan.runStart.toNat ++ (littleEndian 2 scan.runLen ++
        (firmwareByte new).bytes scan.runStart.toNat scan.runLen)) := by
  simp only [writeRun, List.length_append, length_littleEndian, List.length_take,
    Memory.length_bytes] at room ⊢
  rw [List.take_of_length_le]
  · simp only [List.append_assoc]
  · rw [Memory.length_bytes]
    omega

/-- A record that is written whole updates the image to the end of its run. -/
theorem Scanned.writeRun {start : Nat} (scanned : Scanned old new scan i start)
    (short : ShortChanges old new) (small : i < 2 ^ 32) (isRun : 0 < scan.runLen)
    (room : (writeRun new maxDelta scan).delta.length < maxDelta) :
    Scanned old new (writeRun new maxDelta scan) i i := by
  have run := scanned.run
  have begins : scan.runStart.toNat = start := by
    rw [scanned.runStart, if_neg (by omega), Int.toNat_natCast]
  have isWritten := writeRun_eq room
  rw [begins] at isWritten
  have appended := scanned.whole.append start ((firmwareByte new).bytes start scan.runLen)
    (by omega) (by rw [Memory.length_bytes]; exact scanned.runLen_lt short)
  rw [Memory.length_bytes] at appended
  constructor
  · rw [isWritten]
    exact appended.1
  · rw [isWritten, appended.2, scanned.updated, writeBytes_updatedUpTo, run]
  · rfl
  · rfl
  · intro position lower upper
    omega

/-- One turn of the loop. -/
theorem Scanned.scanByte {start : Nat} (scanned : Scanned old new scan i start)
    (short : ShortChanges old new) (small : i < 2 ^ 32)
    (room : (scanByte old new maxDelta scan i).delta.length < maxDelta) :
    ∃ next, Scanned old new (scanByte old new maxDelta scan i) (i + 1) next := by
  have run := scanned.run
  have runStart := scanned.runStart
  by_cases differs : firmwareByte old i ≠ firmwareByte new i
  · have changed : ∀ position, start ≤ position → position < i + 1 →
        firmwareByte old position ≠ firmwareByte new position := by
      intro position lower upper
      rcases Nat.lt_succ_iff_lt_or_eq.mp upper with before | rfl
      · exact scanned.changed position lower before
      · exact differs
    refine ⟨start, ?_⟩
    rw [Edge.scanByte, if_pos differs]
    by_cases noRun : scan.runLen = 0
    · have isHere : start = i := by omega
      rw [if_pos (by rw [runStart, if_pos noRun]; decide)]
      exact ⟨scanned.whole, scanned.updated, congrArg (· + 1) isHere, by simp [isHere], changed⟩
    · rw [if_neg (by rw [runStart, if_neg noRun]; omega)]
      refine ⟨scanned.whole, scanned.updated, by dsimp only; omega, ?_, changed⟩
      rw [if_neg (Nat.succ_ne_zero _)]
      exact runStart.trans (if_neg noRun)
  · have same : firmwareByte old i = firmwareByte new i := not_not.mp differs
    rw [Edge.scanByte, if_neg differs] at room ⊢
    by_cases noRun : scan.runLen = 0
    · rw [if_neg (by omega)] at room ⊢
      have isHere : start = i := by omega
      refine ⟨i + 1, scanned.whole, ?_, by omega, by rw [runStart, if_pos noRun, if_pos noRun], ?_⟩
      · rw [scanned.updated, isHere, updatedUpTo_succ same]
      · intro position lower upper
        omega
    · rw [if_pos ⟨by rw [runStart, if_neg noRun]; omega, by omega⟩] at room ⊢
      have flushed := scanned.writeRun short small (by omega) room
      refine ⟨i + 1, flushed.whole, ?_, rfl, rfl, ?_⟩
      · rw [flushed.updated, updatedUpTo_succ same]
      · intro position lower upper
        omega

theorem length_scanByte (old new : List UInt8) (maxDelta : Int) (scan : DeltaScan) (i : Nat) :
    scan.delta.length ≤ (scanByte old new maxDelta scan i).delta.length := by
  unfold scanByte
  split
  · split <;> exact le_rfl
  · split
    · exact length_le_writeRun new maxDelta scan
    · exact le_rfl

theorem length_scanBytes (old new : List UInt8) (maxDelta : Int) (left i : Nat)
    (scan : DeltaScan) :
    scan.delta.length ≤ (scanBytes old new maxDelta left i scan).delta.length := by
  induction left generalizing i scan with
  | zero => exact le_rfl
  | succ left ih =>
      rw [scanBytes]
      split
      · exact (length_scanByte old new maxDelta scan i).trans (ih (i + 1) _)
      · exact le_rfl

/-- A loop behind which room is left has gone through every position. -/
theorem Scanned.scanBytes {left start : Nat} (scanned : Scanned old new scan i start)
    (short : ShortChanges old new) (small : i + left < 2 ^ 32)
    (room : (scanBytes old new maxDelta left i scan).delta.length < maxDelta - 10) :
    ∃ last, Scanned old new (scanBytes old new maxDelta left i scan) (i + left) last := by
  induction left generalizing i scan start with
  | zero => exact ⟨start, scanned⟩
  | succ left ih =>
      have before := length_scanBytes old new maxDelta (left + 1) i scan
      have guard : scan.delta.length < maxDelta - 10 := by omega
      rw [Edge.scanBytes, if_pos guard] at room ⊢
      have after := length_scanBytes old new maxDelta left (i + 1)
        (Edge.scanByte old new maxDelta scan i)
      have stepRoom : (Edge.scanByte old new maxDelta scan i).delta.length < maxDelta := by
        omega
      obtain ⟨next, stepped⟩ := scanned.scanByte short (by omega) stepRoom
      obtain ⟨last, done⟩ := ih stepped (by omega) room
      exact ⟨last, by rwa [Nat.add_right_comm, Nat.add_assoc] at done⟩

/-- A record never passes the end of the buffer. -/
theorem length_writeRun_le_max (room : scan.delta.length < maxDelta - 6) :
    (writeRun new maxDelta scan).delta.length ≤ maxDelta := by
  simp only [writeRun, List.length_append, length_littleEndian, List.length_take,
    Memory.length_bytes]
  omega

/-- Every position pays for at most seven bytes. -/
theorem length_scanByte_le (old new : List UInt8)
    (paid : scan.delta.length + 7 * scan.runLen ≤ 7 * i)
    (fits : scan.delta.length ≤ maxDelta.toNat) (room : scan.delta.length < maxDelta - 10) :
    (scanByte old new maxDelta scan i).delta.length +
        7 * (scanByte old new maxDelta scan i).runLen ≤ 7 * (i + 1) ∧
      (scanByte old new maxDelta scan i).delta.length ≤ maxDelta.toNat := by
  unfold scanByte
  split
  · split
    · exact ⟨by dsimp only; omega, fits⟩
    · exact ⟨by dsimp only; omega, fits⟩
  · split
    case isTrue isRun =>
      have upper := length_writeRun_le new maxDelta scan
      have inBuffer : (writeRun new maxDelta scan).delta.length ≤ maxDelta :=
        length_writeRun_le_max (by omega)
      exact ⟨by change _ + 7 * 0 ≤ _; omega, by omega⟩
    case isFalse => exact ⟨by omega, fits⟩

theorem length_scanBytes_le (old new : List UInt8) {left : Nat}
    (paid : scan.delta.length + 7 * scan.runLen ≤ 7 * i)
    (fits : scan.delta.length ≤ maxDelta.toNat) :
    (scanBytes old new maxDelta left i scan).delta.length +
        7 * (scanBytes old new maxDelta left i scan).runLen ≤ 7 * (i + left) ∧
      (scanBytes old new maxDelta left i scan).delta.length ≤ maxDelta.toNat := by
  induction left generalizing i scan with
  | zero => exact ⟨paid, fits⟩
  | succ left ih =>
      rw [scanBytes]
      split
      case isTrue room =>
        have stepped := length_scanByte_le old new paid fits room
        have done := ih stepped.1 stepped.2
        rwa [Nat.add_right_comm, Nat.add_assoc] at done
      case isFalse => exact ⟨by omega, fits⟩

end Scan

/-- An image that is updated behind its end is the new one. -/
theorem updatedUpTo_length (old new : List UInt8) :
    updatedUpTo (firmwareByte old) (firmwareByte new) (max old.length new.length) =
      firmwareByte new := by
  ext target
  simp only [updatedUpTo]
  split
  case isTrue => rfl
  case isFalse behind =>
    have oldEnds : old[target]? = none := List.getElem?_eq_none (by omega)
    have newEnds : new[target]? = none := List.getElem?_eq_none (by omega)
    rw [firmwareByte, firmwareByte, List.getD_eq_getElem?_getD, List.getD_eq_getElem?_getD,
      oldEnds, newEnds]

theorem scanned_begin (old new : List UInt8) : Scanned old new ⟨[], -1, 0⟩ 0 0 where
  whole := wholeRecords_nil
  updated := by
    rw [applyDelta_nil]
    rfl
  run := rfl
  runStart := rfl
  changed position _ upper := absurd upper (Nat.not_lt_zero position)

/-- The delta stays inside of its buffer and takes at most seven bytes for a
position.  When more than ten bytes of the buffer are left it turns the old image
into the new one. -/
theorem applyDelta_edgeOtaComputeDelta (old new : List UInt8) (maxDelta : Int)
    (oldSmall : old.length < 2 ^ 31) (newSmall : new.length < 2 ^ 31)
    (short : ShortChanges old new) :
    (edgeOtaComputeDelta old new maxDelta).length ≤ maxDelta.toNat ∧
      (edgeOtaComputeDelta old new maxDelta).length ≤ 7 * max old.length new.length ∧
      ((edgeOtaComputeDelta old new maxDelta).length < maxDelta - 10 →
        applyDelta (firmwareByte old) (edgeOtaComputeDelta old new maxDelta) =
          firmwareByte new) := by
  have sizes : (scanImages old new maxDelta).delta.length +
        7 * (scanImages old new maxDelta).runLen ≤ 7 * (0 + max old.length new.length) ∧
      (scanImages old new maxDelta).delta.length ≤ maxDelta.toNat :=
    length_scanBytes_le old new (Nat.zero_le _) (Nat.zero_le _)
  have allScanned : (scanImages old new maxDelta).delta.length < maxDelta - 10 →
      ∃ last, Scanned old new (scanImages old new maxDelta) (0 + max old.length new.length) last :=
    (scanned_begin old new).scanBytes short (by omega)
  unfold edgeOtaComputeDelta
  generalize scanImages old new maxDelta = scan at sizes allScanned ⊢
  rw [Nat.zero_add] at sizes allScanned
  have grown := length_writeRun_le new maxDelta scan
  have kept := length_le_writeRun new maxDelta scan
  dsimp only
  split
  case isTrue flush =>
    obtain ⟨_, isRun, room⟩ := flush
    have inBuffer : (writeRun new maxDelta scan).delta.length ≤ maxDelta :=
      length_writeRun_le_max room
    refine ⟨by omega, by omega, fun complete => ?_⟩
    obtain ⟨last, scanned⟩ := allScanned (by omega)
    have recordRoom : (writeRun new maxDelta scan).delta.length < maxDelta := by omega
    have flushed := scanned.writeRun short (by omega) isRun recordRoom
    rw [flushed.updated, updatedUpTo_length]
  case isFalse noFlush =>
    refine ⟨sizes.2, by omega, fun complete => ?_⟩
    obtain ⟨last, scanned⟩ := allScanned complete
    have noRun : scan.runLen = 0 := by
      by_contra isRun
      apply noFlush
      rw [scanned.runStart, if_neg isRun]
      omega
    have atEnd : last = max old.length new.length := by
      have run := scanned.run
      omega
    rw [scanned.updated, atEnd, updatedUpTo_length]

/-- Three changed bytes in two runs. -/
theorem applyDelta_edgeOtaComputeDelta_two_runs :
    applyDelta (firmwareByte [1, 2, 3, 4]) (edgeOtaComputeDelta [1, 2, 3, 4] [1, 7, 3, 5, 6] 64) =
      firmwareByte [1, 7, 3, 5, 6] := by
  have short : ShortChanges [1, 2, 3, 4] [1, 7, 3, 5, 6] :=
    fun start => ⟨start + 5, by omega, by omega, by simp [firmwareByte]⟩
  exact (applyDelta_edgeOtaComputeDelta _ _ _ (by decide) (by decide) short).2.2 (by decide)

end Edge

end MiniIotRobotEdge

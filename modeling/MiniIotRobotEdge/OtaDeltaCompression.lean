import Mathlib.Data.UInt
import Mathlib.Data.List.Basic

/-!
# Run-length compression of mini-ota-update

The model of `delta_compress` and `delta_decompress` from `delta_update.c`.
Buffers are functions from positions to bytes; the compressor starts from
whatever its output buffer contains, which matters because the control byte of
a literal is incremented without being set first.  The round trip succeeds
exactly for the byte strings whose maximal runs have between 2 and 127 bytes.
-/

namespace MiniIotRobotEdge

namespace Ota

/-- Values of type `size_t` wrap around at this value. -/
def sizeModulus : Nat := 2 ^ 64

/-- The loop that counts `run_len`, from `limit` further steps on. -/
def runLength (byte : UInt8) : Nat → List UInt8 → Nat
  | 0, _ => 0
  | _ + 1, [] => 0
  | limit + 1, next :: rest => if next = byte then runLength byte limit rest + 1 else 0

/-- The loop that copies literals from `input` while the output position `oi`
is below `limit`: the bytes copied and the input that is left. -/
def copyLiterals (limit : Nat) : Nat → List UInt8 → List UInt8 × List UInt8
  | _, [] => ([], [])
  | oi, byte :: rest =>
      if oi < limit then
        if rest.head? = some byte then ([], byte :: rest)
        else
          let (copied, left) := copyLiterals limit (oi + 1) rest
          (byte :: copied, left)
      else ([], byte :: rest)

/-- The main loop of `delta_compress`: the bytes written from position `oi` on
for the input that is left, where `output` is the buffer before the call. -/
def compressFrom (output : Nat → UInt8) (limit : Nat) (oi : Nat) (input : List UInt8) :
    List UInt8 :=
  match input with
  | [] => []
  | byte :: _ =>
      if oi < limit then
        let run := runLength byte 255 input
        if 1 < run then
          (0x80 ||| UInt8.ofNat run) :: byte ::
            compressFrom output limit (oi + 2) (input.drop run)
        else
          let literals := copyLiterals limit (oi + 2) input
          (output oi + UInt8.ofNat literals.1.length) :: 0 ::
            (literals.1 ++
              compressFrom output limit (oi + 2 + literals.1.length) literals.2)
      else []
termination_by limit - oi

/-- The buffer with `bytes` written from its start on. -/
def written (output : Nat → UInt8) (bytes : List UInt8) : Nat → UInt8 :=
  fun position => bytes[position]?.getD (output position)

/-- `delta_compress`: the return value, the output buffer and `*output_len`. -/
def deltaCompress (input : List UInt8) (output : Nat → UInt8) (outputLen : Nat) :
    Int × (Nat → UInt8) × Nat :=
  let bytes := compressFrom output ((outputLen + sizeModulus - 1) % sizeModulus) 0 input
  (0, written output bytes, bytes.length)

/-- The main loop of `delta_decompress`: the bytes written from `oi` on. -/
def decompressFrom (input : Nat → UInt8) (inputLen outputLen : Nat) (i oi : Nat) :
    List UInt8 :=
  if i < inputLen ∧ oi < outputLen then
    let ctrl := input i
    if ctrl &&& 0x80 ≠ 0 then
      let count := min (ctrl &&& 0x7F).toNat (outputLen - oi)
      List.replicate count (input (i + 1)) ++
        decompressFrom input inputLen outputLen (i + 2) (oi + count)
    else
      let count := min ctrl.toNat (outputLen - oi)
      (List.range count).map (fun j => input (i + 1 + j)) ++
        decompressFrom input inputLen outputLen (i + 1 + count) (oi + count)
  else []
termination_by inputLen - i

/-- `delta_decompress`: the return value and the bytes written, whose number
becomes `*output_len`. -/
def deltaDecompress (input : Nat → UInt8) (inputLen outputLen : Nat) : Int × List UInt8 :=
  (0, decompressFrom input inputLen outputLen 0 0)

/-- Decompression gives back what was compressed, for every output buffer and
all capacities that are large enough. -/
def RoundTrips (input : List UInt8) : Prop :=
  ∀ output outputLen decompressedLen,
    3 * input.length + 2 ≤ outputLen → outputLen < sizeModulus →
    input.length ≤ decompressedLen →
    (deltaCompress input output outputLen).1 = 0 ∧
      deltaDecompress (deltaCompress input output outputLen).2.1
        (deltaCompress input output outputLen).2.2 decompressedLen = (0, input)

/-- Every maximal run of equal bytes has between 2 and 127 of them. -/
inductive ShortRuns : List UInt8 → Prop
  | nil : ShortRuns []
  | run {byte : UInt8} {count : Nat} {rest : List UInt8} (atLeast : 2 ≤ count)
      (atMost : count ≤ 127) (maximal : rest.head? ≠ some byte) (short : ShortRuns rest) :
      ShortRuns (List.replicate count byte ++ rest)

/-- The buffer contains `bytes` from a position on. -/
def HoldsAt (buffer : Nat → UInt8) : Nat → List UInt8 → Prop
  | _, [] => True
  | position, byte :: rest => buffer position = byte ∧ HoldsAt buffer (position + 1) rest

theorem holdsAt_append {buffer : Nat → UInt8} {position : Nat} {front back : List UInt8} :
    HoldsAt buffer position (front ++ back) ↔
      HoldsAt buffer position front ∧ HoldsAt buffer (position + front.length) back := by
  induction front generalizing position with
  | nil => simp [HoldsAt]
  | cons byte front ih =>
      rw [List.cons_append, HoldsAt, HoldsAt, ih, and_assoc, List.length_cons,
        Nat.add_comm front.length 1, Nat.add_assoc]

theorem holdsAt_of_getElem {buffer : Nat → UInt8} {position : Nat} {bytes : List UInt8}
    (same : ∀ index (inside : index < bytes.length),
      buffer (position + index) = bytes[index]) : HoldsAt buffer position bytes := by
  induction bytes generalizing position with
  | nil => trivial
  | cons byte bytes ih =>
      refine ⟨same 0 (by simp), ih fun index inside => ?_⟩
      have shifted := same (index + 1) (by simpa using inside)
      rw [List.getElem_cons_succ] at shifted
      rw [← shifted, Nat.add_assoc, Nat.add_comm 1]

theorem holdsAt_written (output : Nat → UInt8) (bytes : List UInt8) :
    HoldsAt (written output bytes) 0 bytes :=
  holdsAt_of_getElem fun index inside => by simp [written, inside]

/-- The run that is counted is at the front of the input. -/
theorem runLength_spec (byte : UInt8) (limit : Nat) (input : List UInt8) :
    runLength byte limit input ≤ limit ∧
      input = List.replicate (runLength byte limit input) byte ++
        input.drop (runLength byte limit input) ∧
      (runLength byte limit input < limit →
        (input.drop (runLength byte limit input)).head? ≠ some byte) := by
  induction limit generalizing input with
  | zero => exact ⟨le_rfl, rfl, by simp [runLength]⟩
  | succ limit ih =>
      cases input with
      | nil => simp [runLength]
      | cons next rest =>
          rw [runLength]
          split
          case isTrue same =>
            subst same
            obtain ⟨bound, isSplit, maximal⟩ := ih rest
            refine ⟨by omega, ?_, fun below => maximal (by omega)⟩
            rw [List.replicate_succ, List.cons_append, List.drop_succ_cons, ← isSplit]
          case isFalse different => simpa using different

theorem runLength_replicate (byte : UInt8) {count limit : Nat} {rest : List UInt8}
    (bound : count < limit) (maximal : rest.head? ≠ some byte) :
    runLength byte limit (List.replicate count byte ++ rest) = count := by
  induction count generalizing limit with
  | zero =>
      cases limit with
      | zero => rfl
      | succ limit =>
          cases rest with
          | nil => rfl
          | cons next rest =>
              rw [List.replicate_zero, List.nil_append, runLength, if_neg (by simpa using maximal)]
  | succ count ih =>
      cases limit with
      | zero => simp at bound
      | succ limit =>
          rw [List.replicate_succ, List.cons_append, runLength, if_pos rfl,
            ih (Nat.lt_of_succ_lt_succ bound)]

/-- The control byte of a run keeps seven bits of its length. -/
theorem control_of_run {count : Nat} (bound : count ≤ 255) :
    (0x80 ||| UInt8.ofNat count) &&& 0x80 ≠ 0 ∧
      ((0x80 ||| UInt8.ofNat count) &&& 0x7F).toNat = count % 128 := by
  have checked : ∀ small < 256, (0x80 ||| UInt8.ofNat small) &&& 0x80 ≠ 0 ∧
      ((0x80 ||| UInt8.ofNat small) &&& 0x7F).toNat = small % 128 := by decide +kernel
  exact checked count (by omega)

section Decompress

variable {input other : Nat → UInt8} {inputLen outputLen i oi : Nat}

theorem decompressFrom_run {count : Nat} {byte : UInt8} (bound : count ≤ 255)
    (inside : i < inputLen) (room : oi < outputLen)
    (control : input i = 0x80 ||| UInt8.ofNat count) (value : input (i + 1) = byte) :
    decompressFrom input inputLen outputLen i oi =
      List.replicate (min (count % 128) (outputLen - oi)) byte ++
        decompressFrom input inputLen outputLen (i + 2)
          (oi + min (count % 128) (outputLen - oi)) := by
  obtain ⟨isRun, isCount⟩ := control_of_run bound
  rw [decompressFrom, if_pos ⟨inside, room⟩]
  dsimp only
  rw [control, if_pos isRun, isCount, value]

theorem decompressFrom_end : decompressFrom input inputLen outputLen inputLen oi = [] := by
  rw [decompressFrom, if_neg (by omega)]

theorem literal_le {byte : UInt8} (isLiteral : byte &&& 0x80 = 0) : byte.toNat ≤ 127 := by
  have checked : ∀ value < 256, UInt8.ofNat value &&& 0x80 = 0 → value ≤ 127 := by
    decide +kernel
  have bound := byte.toNat_lt
  apply checked byte.toNat (by simpa using bound)
  rwa [UInt8.ofNat_toNat]

theorem control_le (byte : UInt8) : (byte &&& 0x7F).toNat ≤ 127 := by
  rw [UInt8.toNat_and]
  exact Nat.and_le_right

/-- One round of the loop when the output has room for every later round. -/
theorem decompressFrom_step (input : Nat → UInt8) (inside : i < inputLen)
    (room : oi + 127 * (inputLen - i) < outputLen) :
    decompressFrom input inputLen outputLen i oi =
      if input i &&& 0x80 ≠ 0 then
        List.replicate (input i &&& 0x7F).toNat (input (i + 1)) ++
          decompressFrom input inputLen outputLen (i + 2) (oi + (input i &&& 0x7F).toNat)
      else
        (List.range (input i).toNat).map (fun j => input (i + 1 + j)) ++
          decompressFrom input inputLen outputLen (i + 1 + (input i).toNat)
            (oi + (input i).toNat) := by
  have small := control_le (input i)
  rw [decompressFrom, if_pos ⟨inside, by omega⟩]
  dsimp only
  by_cases isRun : input i &&& 0x80 = 0
  · have smallLiteral := literal_le isRun
    rw [if_neg (not_not.mpr isRun), if_neg (not_not.mpr isRun), min_eq_left (by omega)]
  · rw [if_pos isRun, if_pos isRun, min_eq_left (by omega)]

/-- With enough room the output position does not matter, and the bytes before
the input position do not either. -/
theorem decompressFrom_congr {oi' : Nat} (room : oi + 127 * (inputLen - i) < outputLen)
    (room' : oi' + 127 * (inputLen - i) < outputLen)
    (same : ∀ position, i ≤ position → input position = other position) :
    decompressFrom input inputLen outputLen i oi =
      decompressFrom other inputLen outputLen i oi' := by
  induction remaining : inputLen - i using Nat.strong_induction_on generalizing i oi oi' with
  | _ remaining ih =>
      subst remaining
      by_cases inside : i < inputLen
      case neg =>
        rw [decompressFrom, if_neg (by omega), decompressFrom, if_neg (by omega)]
      case pos =>
        have small := control_le (input i)
        rw [decompressFrom_step input inside room, decompressFrom_step other inside room',
          ← same i le_rfl, ← same (i + 1) (by omega)]
        by_cases isLiteral : input i &&& 0x80 = 0
        · have smallLiteral := literal_le isLiteral
          have sameBytes : (fun j => input (i + 1 + j)) = fun j => other (i + 1 + j) :=
            funext fun j => same _ (by omega)
          have later := ih (inputLen - (i + 1 + (input i).toNat)) (by omega)
            (by omega : oi + (input i).toNat + 127 * _ < _)
            (by omega : oi' + (input i).toNat + 127 * _ < _)
            (fun position above => same position (by omega)) rfl
          rw [if_neg (not_not.mpr isLiteral), if_neg (not_not.mpr isLiteral), sameBytes, later]
        · have later := ih (inputLen - (i + 2)) (by omega)
            (by omega : oi + (input i &&& 0x7F).toNat + 127 * _ < _)
            (by omega : oi' + (input i &&& 0x7F).toNat + 127 * _ < _)
            (fun position above => same position (by omega)) rfl
          rw [if_pos isLiteral, if_pos isLiteral, later]

end Decompress

/-- A maximal run is written as one pair of bytes. -/
theorem compressFrom_run {output : Nat → UInt8} {limit oi count : Nat} {byte : UInt8}
    {rest : List UInt8} (atLeast : 2 ≤ count) (atMost : count < 255)
    (maximal : rest.head? ≠ some byte) (room : oi < limit) :
    compressFrom output limit oi (List.replicate count byte ++ rest) =
      (0x80 ||| UInt8.ofNat count) :: byte :: compressFrom output limit (oi + 2) rest := by
  have isRun := runLength_replicate byte atMost maximal
  obtain ⟨previous, rfl⟩ : ∃ previous, count = previous + 1 := ⟨count - 1, by omega⟩
  rw [List.replicate_succ, List.cons_append] at isRun ⊢
  rw [compressFrom, if_pos room]
  dsimp only
  rw [isRun, if_pos (by omega), List.drop_succ_cons,
    List.drop_left' (List.length_replicate ..)]

/-- Strings of short runs are restored. -/
theorem ShortRuns.decompressFrom {input : List UInt8} (short : ShortRuns input)
    {output buffer : Nat → UInt8} {limit outputLen q i oi : Nat}
    (room : q + 3 * input.length < limit) (fits : oi + input.length ≤ outputLen)
    (holds : HoldsAt buffer i (compressFrom output limit q input)) :
    Ota.decompressFrom buffer (i + (compressFrom output limit q input).length) outputLen i oi =
      input := by
  induction short generalizing q i oi with
  | nil =>
      rw [compressFrom, List.length_nil, Nat.add_zero]
      exact decompressFrom_end
  | @run byte count rest atLeast atMost maximal _ ih =>
      rw [List.length_append, List.length_replicate] at room fits
      rw [compressFrom_run atLeast (by omega) maximal (by omega)] at holds ⊢
      obtain ⟨control, value, later⟩ := holds
      have isCount : min (count % 128) (outputLen - oi) = count := by omega
      rw [decompressFrom_run (by omega) (by simp) (by omega) control value, isCount]
      have restored := ih (by omega : q + 2 + 3 * rest.length < limit)
        (by omega : oi + count + rest.length ≤ outputLen) later
      have sameEnd : i + ((0x80 ||| UInt8.ofNat count) :: byte ::
          compressFrom output limit (q + 2) rest).length =
          i + 1 + 1 + (compressFrom output limit (q + 2) rest).length := by
        simp only [List.length_cons]
        omega
      rw [sameEnd, restored]

theorem ShortRuns.roundTrips {input : List UInt8} (short : ShortRuns input) :
    RoundTrips input := by
  intro output outputLen decompressedLen enough bound fits
  have limit_eq : (outputLen + sizeModulus - 1) % sizeModulus = outputLen - 1 := by
    unfold sizeModulus at *
    omega
  refine ⟨rfl, ?_⟩
  unfold deltaDecompress deltaCompress
  dsimp only
  rw [limit_eq]
  have restored := short.decompressFrom (by omega : 0 + 3 * input.length < outputLen - 1)
    (by omega : 0 + input.length ≤ decompressedLen)
    (holdsAt_written output (compressFrom output (outputLen - 1) 0 input))
  rw [Nat.zero_add] at restored
  rw [restored]

/-- The pieces in which `delta_compress` takes its input. -/
inductive Chunk
  | run (count : Nat) (byte : UInt8)
  | literal (bytes : List UInt8)

/-- The input splits into chunks the way the main loop takes them. -/
inductive Chunked : List UInt8 → List Chunk → Prop
  | nil : Chunked [] []
  | run {count : Nat} {byte : UInt8} {rest : List UInt8} {chunks : List Chunk}
      (atLeast : 2 ≤ count) (atMost : count ≤ 255)
      (maximal : count = 255 ∨ rest.head? ≠ some byte) (later : Chunked rest chunks) :
      Chunked (List.replicate count byte ++ rest) (.run count byte :: chunks)
  | literal (bytes : List UInt8) {rest : List UInt8} {chunks : List Chunk}
      (later : Chunked rest chunks) :
      Chunked (bytes ++ rest) (.literal bytes :: chunks)

/-- The bytes written for chunks from position `oi` on. -/
def encode (output : Nat → UInt8) : Nat → List Chunk → List UInt8
  | _, [] => []
  | oi, .run count byte :: chunks =>
      (0x80 ||| UInt8.ofNat count) :: byte :: encode output (oi + 2) chunks
  | oi, .literal bytes :: chunks =>
      (output oi + UInt8.ofNat bytes.length) :: 0 ::
        (bytes ++ encode output (oi + 2 + bytes.length) chunks)

theorem encode_congr {output other : Nat → UInt8} {oi : Nat} (chunks : List Chunk)
    (same : ∀ position, oi ≤ position → output position = other position) :
    encode output oi chunks = encode other oi chunks := by
  induction chunks generalizing oi with
  | nil => rfl
  | cons chunk chunks ih =>
      cases chunk with
      | run count byte =>
          rw [encode, encode, ih fun position above => same position (by omega)]
      | literal bytes =>
          rw [encode, encode, same oi le_rfl, ih fun position above => same position (by omega)]

theorem copyLiterals_split (limit oi : Nat) (input : List UInt8) :
    input = (copyLiterals limit oi input).1 ++ (copyLiterals limit oi input).2 := by
  induction input generalizing oi with
  | nil => rfl
  | cons byte rest ih =>
      rw [copyLiterals]
      split
      · split
        · rfl
        · exact congrArg (byte :: ·) (ih (oi + 1))
      · rfl

/-- `delta_compress` writes the encoding of chunks that do not depend on its
output buffer. -/
theorem exists_chunks {limit oi : Nat} (input : List UInt8)
    (room : oi + 3 * input.length < limit) :
    ∃ chunks, Chunked input chunks ∧
      ∀ output, compressFrom output limit oi input = encode output oi chunks := by
  induction length : input.length using Nat.strong_induction_on generalizing input oi with
  | _ length ih =>
      subst length
      cases input with
      | nil => exact ⟨[], .nil, fun output => by rw [compressFrom, encode]⟩
      | cons byte rest =>
          obtain ⟨bound, isSplit, maximal⟩ := runLength_spec byte 255 (byte :: rest)
          have entered : oi < limit := by omega
          by_cases isRun : 1 < runLength byte 255 (byte :: rest)
          · have shorter : ((byte :: rest).drop (runLength byte 255 (byte :: rest))).length +
                runLength byte 255 (byte :: rest) = (byte :: rest).length := by
              have total := congrArg List.length isSplit
              rw [List.length_append, List.length_replicate] at total
              omega
            obtain ⟨chunks, chunked, encoded⟩ := ih _ (by omega)
              ((byte :: rest).drop (runLength byte 255 (byte :: rest)))
              (by omega : oi + 2 + 3 * _ < limit) rfl
            refine ⟨.run (runLength byte 255 (byte :: rest)) byte :: chunks, ?_, fun output => ?_⟩
            · have run := Chunked.run isRun bound
                ((Nat.lt_or_eq_of_le bound).symm.imp_right maximal) chunked
              rwa [← isSplit] at run
            · rw [compressFrom, if_pos entered]
              dsimp only
              rw [if_pos isRun, encode, encoded]
          · have isSplit := copyLiterals_split limit (oi + 2) (byte :: rest)
            have copied : 1 ≤ (copyLiterals limit (oi + 2) (byte :: rest)).1.length := by
              have different : rest.head? ≠ some byte := by
                intro same
                cases rest with
                | nil => simp at same
                | cons next rest =>
                    obtain rfl : next = byte := by simpa using same
                    simp [runLength] at isRun
              rw [List.length_cons] at room
              rw [copyLiterals, if_pos (by omega), if_neg different]
              simp
            have total := congrArg List.length isSplit
            rw [List.length_append] at total
            obtain ⟨chunks, chunked, encoded⟩ := ih _ (by omega)
              (copyLiterals limit (oi + 2) (byte :: rest)).2
              (by omega : oi + 2 + (copyLiterals limit (oi + 2) (byte :: rest)).1.length +
                3 * _ < limit) rfl
            refine ⟨.literal (copyLiterals limit (oi + 2) (byte :: rest)).1 :: chunks, ?_,
              fun output => ?_⟩
            · have literal := Chunked.literal (copyLiterals limit (oi + 2) (byte :: rest)).1 chunked
              rwa [← isSplit] at literal
            · rw [compressFrom, if_pos entered]
              dsimp only
              rw [if_neg isRun, encode, encoded]

/-- Chunks that are all short runs are the maximal runs of the input. -/
theorem Chunked.shortRuns {input : List UInt8} {chunks : List Chunk}
    (chunked : Chunked input chunks)
    (short : ∀ chunk ∈ chunks, ∃ count byte, chunk = .run count byte ∧ count ≤ 127) :
    ShortRuns input := by
  induction chunked with
  | nil => exact .nil
  | run atLeast atMost maximal _ ih =>
      obtain ⟨count, byte, isRun, bound⟩ := short _ List.mem_cons_self
      obtain ⟨rfl, rfl⟩ := Chunk.run.inj isRun
      exact .run atLeast bound (maximal.resolve_left (by omega))
        (ih fun chunk isMember => short chunk (by simp [isMember]))
  | literal =>
      obtain ⟨count, byte, isRun, _⟩ := short _ List.mem_cons_self
      simp at isRun

/-- What `delta_decompress` makes of runs. -/
def expandRuns : List Chunk → List UInt8
  | [] => []
  | .run count byte :: chunks => List.replicate (count % 128) byte ++ expandRuns chunks
  | .literal _ :: chunks => expandRuns chunks

/-- All chunks are runs of at most 255 bytes. -/
def AllRuns (chunks : List Chunk) : Prop :=
  ∀ chunk ∈ chunks, ∃ count byte, chunk = .run count byte ∧ count ≤ 255

theorem AllRuns.tail {chunk : Chunk} {chunks : List Chunk} (runs : AllRuns (chunk :: chunks)) :
    AllRuns chunks := fun other isMember => runs other (by simp [isMember])

theorem length_encode_runs {output : Nat → UInt8} {chunks : List Chunk} (runs : AllRuns chunks)
    (oi : Nat) : (encode output oi chunks).length = 2 * chunks.length := by
  induction chunks generalizing oi with
  | nil => rfl
  | cons chunk chunks ih =>
      obtain ⟨count, byte, rfl, _⟩ := runs chunk (by simp)
      rw [encode, List.length_cons, List.length_cons, ih runs.tail, List.length_cons]
      omega

theorem encode_runs_congr {output other : Nat → UInt8} {runs : List Chunk}
    (allRuns : AllRuns runs) (oi : Nat) : encode output oi runs = encode other oi runs := by
  induction runs generalizing oi with
  | nil => rfl
  | cons chunk runs ih =>
      obtain ⟨count, byte, rfl, _⟩ := allRuns chunk (by simp)
      rw [encode, encode, ih allRuns.tail]

theorem encode_append_runs {output : Nat → UInt8} {runs : List Chunk} (allRuns : AllRuns runs)
    (oi : Nat) (chunks : List Chunk) :
    encode output oi (runs ++ chunks) =
      encode output oi runs ++ encode output (oi + 2 * runs.length) chunks := by
  induction runs generalizing oi with
  | nil => rfl
  | cons chunk runs ih =>
      obtain ⟨count, byte, rfl, _⟩ := allRuns chunk (by simp)
      rw [List.cons_append, encode, encode, ih allRuns.tail, List.cons_append, List.cons_append,
        List.length_cons]
      congr 4
      omega

/-- Runs at the front of the input are expanded on their own. -/
theorem decompressFrom_runs {runs : List Chunk} (allRuns : AllRuns runs)
    {output buffer : Nat → UInt8} {inputLen outputLen q i oi : Nat}
    (holds : HoldsAt buffer i (encode output q runs)) (inside : i + 2 * runs.length ≤ inputLen)
    (room : oi + 127 * (inputLen - i) < outputLen) :
    decompressFrom buffer inputLen outputLen i oi =
      expandRuns runs ++ decompressFrom buffer inputLen outputLen (i + 2 * runs.length)
        (oi + (expandRuns runs).length) ∧
    (expandRuns runs).length ≤ 127 * runs.length := by
  induction runs generalizing q i oi with
  | nil => exact ⟨rfl, by simp [expandRuns]⟩
  | cons chunk runs ih =>
      obtain ⟨count, byte, rfl, bound⟩ := allRuns chunk (by simp)
      rw [List.length_cons] at inside
      obtain ⟨control, value, later⟩ := holds
      have kept : min (count % 128) (outputLen - oi) = count % 128 := by omega
      obtain ⟨expanded, short⟩ := ih allRuns.tail later (by omega)
        (by omega : oi + count % 128 + 127 * (inputLen - (i + 1 + 1)) < outputLen)
      constructor
      · rw [decompressFrom_run bound (by omega) (by omega) control value, kept, expandRuns,
          List.length_append, List.length_replicate, List.length_cons, List.append_assoc]
        have samePosition : i + 2 * (runs.length + 1) = i + 1 + 1 + 2 * runs.length := by omega
        rw [samePosition, ← Nat.add_assoc, ← expanded]
      · rw [expandRuns, List.length_append, List.length_replicate, List.length_cons]
        omega

theorem length_expandRuns_le {input : List UInt8} {chunks : List Chunk}
    (chunked : Chunked input chunks) :
    (expandRuns chunks).length ≤ input.length ∧
      (AllRuns chunks → (expandRuns chunks).length = input.length →
        ∀ chunk ∈ chunks, ∃ count byte, chunk = .run count byte ∧ count ≤ 127) := by
  induction chunked with
  | nil => exact ⟨le_rfl, by simp⟩
  | @run count byte rest chunks _ _ _ _ ih =>
      obtain ⟨bound, short⟩ := ih
      rw [expandRuns, List.length_append, List.length_append, List.length_replicate,
        List.length_replicate]
      refine ⟨by omega, fun runs same chunk isMember => ?_⟩
      rcases List.mem_cons.mp isMember with rfl | isLater
      · exact ⟨count, byte, rfl, by omega⟩
      · exact short runs.tail (by omega) chunk isLater
  | @literal bytes rest chunks _ ih =>
      rw [expandRuns, List.length_append]
      refine ⟨by omega, fun runs => ?_⟩
      obtain ⟨count, byte, isRun, _⟩ := runs _ List.mem_cons_self
      simp at isRun

/-- Chunks are all runs, or there is a first literal. -/
theorem Chunked.runs_or_literal {input : List UInt8} {chunks : List Chunk}
    (chunked : Chunked input chunks) :
    AllRuns chunks ∨ ∃ runs bytes later, AllRuns runs ∧
      chunks = runs ++ .literal bytes :: later := by
  induction chunked with
  | nil => exact .inl (by simp [AllRuns])
  | @run count byte rest chunks _ atMost _ _ ih =>
      have cons : ∀ {runs}, AllRuns runs → AllRuns (.run count byte :: runs) := by
        intro runs allRuns chunk isMember
        rcases List.mem_cons.mp isMember with rfl | isLater
        · exact ⟨count, byte, rfl, atMost⟩
        · exact allRuns chunk isLater
      rcases ih with allRuns | ⟨runs, bytes, later, allRuns, rfl⟩
      · exact .inl (cons allRuns)
      · exact .inr ⟨_, bytes, later, cons allRuns, rfl⟩
  | @literal bytes rest chunks _ _ =>
      exact .inr ⟨[], bytes, chunks, by simp [AllRuns], rfl⟩

section Misleading

variable {runs later : List Chunk} {bytes : List UInt8}

/-- An output buffer that turns the control byte of a literal into the one of
a run of `count` zeros. -/
def misleading (position count : Nat) (bytes : List UInt8) : Nat → UInt8 :=
  Function.update (fun _ => 0) position
    ((0x80 ||| UInt8.ofNat count) - UInt8.ofNat bytes.length)

/-- The bytes behind the control bytes of the first literal. -/
def encodedAfter (position : Nat) (bytes : List UInt8) (later : List Chunk) : List UInt8 :=
  bytes ++ encode (fun _ => 0) (position + 2 + bytes.length) later

theorem encode_misleading (allRuns : AllRuns runs) (count : Nat) :
    encode (misleading (2 * runs.length) count bytes) 0 (runs ++ .literal bytes :: later) =
      encode (fun _ => 0) 0 runs ++ (0x80 ||| UInt8.ofNat count) :: 0 ::
        encodedAfter (2 * runs.length) bytes later := by
  have sameLater : encode (misleading (2 * runs.length) count bytes)
      (2 * runs.length + 2 + bytes.length) later =
      encode (fun _ => 0) (2 * runs.length + 2 + bytes.length) later :=
    encode_congr later fun position above => Function.update_of_ne (by omega) _ _
  have sameRuns : encode (misleading (2 * runs.length) count bytes) 0 runs =
      encode (fun _ => 0) 0 runs := encode_runs_congr allRuns 0
  have control : misleading (2 * runs.length) count bytes (2 * runs.length) +
      UInt8.ofNat bytes.length = 0x80 ||| UInt8.ofNat count := by
    rw [misleading, Function.update_self, sub_add_cancel]
  rw [encode_append_runs allRuns, encode, Nat.zero_add, sameLater, sameRuns, control,
    encodedAfter]

theorem length_encode_misleading (allRuns : AllRuns runs) (count : Nat) :
    (encode (misleading (2 * runs.length) count bytes) 0
      (runs ++ .literal bytes :: later)).length =
      2 * runs.length + 2 + (encodedAfter (2 * runs.length) bytes later).length := by
  rw [encode_misleading allRuns, List.length_append, length_encode_runs allRuns,
    List.length_cons, List.length_cons]
  omega

theorem written_misleading (allRuns : AllRuns runs) (count index : Nat) :
    written (misleading (2 * runs.length) count bytes)
      (encode (misleading (2 * runs.length) count bytes) 0 (runs ++ .literal bytes :: later))
      (2 * runs.length + 2 + index) =
      ((encodedAfter (2 * runs.length) bytes later)[index]?).getD 0 := by
  have front : (encode (fun _ => 0) 0 runs).length = 2 * runs.length :=
    length_encode_runs allRuns 0
  have offset : 2 * runs.length + 2 + index - (encode (fun _ => 0) 0 runs).length =
      index + 1 + 1 := by omega
  have untouched : misleading (2 * runs.length) count bytes (2 * runs.length + 2 + index) = 0 :=
    Function.update_of_ne (by omega) _ _
  rw [written, encode_misleading allRuns, List.getElem?_append_right (by omega), offset,
    List.getElem?_cons_succ, List.getElem?_cons_succ, untouched]

/-- The misled decompressor first expands the runs and then writes `count`
zeros. -/
theorem decompressFrom_misleading (allRuns : AllRuns runs) {count capacity : Nat}
    (small : count ≤ 127)
    (room : 127 * (2 * runs.length + 2 +
      (encodedAfter (2 * runs.length) bytes later).length) < capacity) :
    let output := misleading (2 * runs.length) count bytes
    let encoded := encode output 0 (runs ++ .literal bytes :: later)
    decompressFrom (written output encoded) encoded.length capacity 0 0 =
        expandRuns runs ++ (List.replicate count 0 ++
          decompressFrom (written output encoded) encoded.length capacity (2 * runs.length + 2)
            ((expandRuns runs).length + count)) ∧
      (expandRuns runs).length ≤ 127 * runs.length := by
  intro output encoded
  have length : encoded.length = _ := length_encode_misleading allRuns count
  have holds := holdsAt_written output encoded
  rw [show encoded = _ from encode_misleading allRuns count, holdsAt_append,
    ← show encoded = _ from encode_misleading allRuns count, length_encode_runs allRuns,
    Nat.zero_add] at holds
  obtain ⟨runsHold, control, value, _⟩ := holds
  obtain ⟨expanded, short⟩ := decompressFrom_runs allRuns runsHold
    (by omega : 0 + 2 * runs.length ≤ encoded.length)
    (by omega : 0 + 127 * (encoded.length - 0) < capacity)
  rw [Nat.zero_add, Nat.zero_add] at expanded
  have kept : min (count % 128) (capacity - (expandRuns runs).length) = count := by omega
  refine ⟨?_, short⟩
  rw [expanded, decompressFrom_run (by omega) (by omega) (by omega) control value, kept]

end Misleading

section Failure

variable {input : List UInt8} {chunks : List Chunk} {capacity : Nat}
  (encoded : ∀ output, compressFrom output (3 * input.length + 1) 0 input =
    encode output 0 chunks)
  (bound : 3 * input.length + 2 < sizeModulus) (roundTrips : RoundTrips input)

include encoded bound roundTrips

theorem RoundTrips.decompressFrom_encode (output : Nat → UInt8)
    (large : input.length ≤ capacity) :
    decompressFrom (written output (encode output 0 chunks)) (encode output 0 chunks).length
      capacity 0 0 = input := by
  obtain ⟨_, restored⟩ := roundTrips output (3 * input.length + 2) capacity le_rfl bound large
  have limit_eq : (3 * input.length + 2 + sizeModulus - 1) % sizeModulus =
      3 * input.length + 1 := by
    unfold sizeModulus at *
    omega
  unfold deltaDecompress deltaCompress at restored
  dsimp only at restored
  rw [limit_eq, encoded] at restored
  exact (Prod.mk.inj restored).2

/-- Without literals the round trip loses the upper bit of every run. -/
theorem RoundTrips.short_of_runs (chunked : Chunked input chunks) (runs : AllRuns chunks) :
    ShortRuns input := by
  have length : (encode (fun _ => 0) 0 chunks).length = 2 * chunks.length :=
    length_encode_runs runs 0
  have restored := roundTrips.decompressFrom_encode encoded bound (fun _ => 0)
    (by omega : input.length ≤ input.length + 127 * (2 * chunks.length) + 1)
  obtain ⟨expanded, _⟩ := decompressFrom_runs runs (holdsAt_written (fun _ => 0) _)
    (by omega : 0 + 2 * chunks.length ≤ (encode (fun _ => 0) 0 chunks).length)
    (by omega : 0 + 127 * ((encode (fun _ => 0) 0 chunks).length - 0) <
      input.length + 127 * (2 * chunks.length) + 1)
  rw [restored, Nat.zero_add, ← length, decompressFrom_end, List.append_nil] at expanded
  exact chunked.shortRuns ((length_expandRuns_le chunked).2 runs (by rw [← expanded]))

/-- With a literal the result depends on what the output buffer contained: two
buffers give results of different lengths. -/
theorem RoundTrips.no_literal {runs : List Chunk} {bytes : List UInt8} {later : List Chunk}
    (allRuns : AllRuns runs) (isSplit : chunks = runs ++ .literal bytes :: later) : False := by
  subst isSplit
  let back := encodedAfter (2 * runs.length) bytes later
  let capacity := input.length + 127 * (2 * runs.length + 2 + back.length) + 128
  let output := fun count => misleading (2 * runs.length) count bytes
  let buffer := fun count => written (output count)
    (encode (output count) 0 (runs ++ .literal bytes :: later))
  let rest := fun count => decompressFrom (buffer count) (2 * runs.length + 2 + back.length)
    capacity (2 * runs.length + 2) ((expandRuns runs).length + count)
  have restored : ∀ count ≤ 127,
      input.length = (expandRuns runs).length + (count + (rest count).length) := by
    intro count small
    have result := roundTrips.decompressFrom_encode encoded bound (output count)
      (by omega : input.length ≤ capacity)
    have shape := (decompressFrom_misleading allRuns small
      (by omega : 127 * (2 * runs.length + 2 + back.length) < capacity)).1
    rw [result, length_encode_misleading allRuns] at shape
    have lengths := congrArg List.length shape
    rwa [List.length_append, List.length_append, List.length_replicate] at lengths
  have short : (expandRuns runs).length ≤ 127 * runs.length :=
    (decompressFrom_misleading allRuns (by omega : 0 ≤ 127)
      (by omega : 127 * (2 * runs.length + 2 + back.length) < capacity)).2
  have sameRest : rest 1 = rest 2 := by
    apply decompressFrom_congr (by omega) (by omega)
    intro position above
    obtain ⟨index, rfl⟩ := Nat.exists_eq_add_of_le above
    rw [show buffer 1 _ = _ from written_misleading allRuns 1 index,
      show buffer 2 _ = _ from written_misleading allRuns 2 index]
  have one := restored 1 (by omega)
  have two := restored 2 (by omega)
  rw [sameRest] at one
  omega

end Failure

/-- The round trip of compression succeeds exactly for strings of short
runs. -/
theorem compression_roundTrips (input : List UInt8) (bound : 3 * input.length + 2 < sizeModulus) :
    RoundTrips input ↔ ShortRuns input := by
  refine ⟨fun roundTrips => ?_, ShortRuns.roundTrips⟩
  obtain ⟨chunks, chunked, encoded⟩ :=
    exists_chunks input (by omega : 0 + 3 * input.length < 3 * input.length + 1)
  rcases chunked.runs_or_literal with runs | ⟨runs, bytes, later, allRuns, isSplit⟩
  · exact roundTrips.short_of_runs encoded bound chunked runs
  · exact (roundTrips.no_literal encoded bound allRuns isSplit).elim

theorem compression_roundTrips_pair : RoundTrips [7, 7] := by
  have short : ShortRuns (List.replicate 2 7 ++ []) :=
    .run (by decide) (by decide) (by decide) .nil
  exact (compression_roundTrips [7, 7] (by decide)).mpr short

/-- The byte `a` compressed into a zeroed buffer comes back as a zero byte. -/
theorem compression_loses_letter : ¬RoundTrips [0x61] := by
  intro roundTrips
  have restored := (roundTrips (fun _ => 0) 5 1 (by decide) (by decide) (by decide)).2
  have compressed : compressFrom (fun _ => 0) 4 0 [0x61] = [1, 0, 0x61] := by
    simp [compressFrom, runLength, copyLiterals]
  have limit_eq : (5 + sizeModulus - 1) % sizeModulus = 4 := by decide
  unfold deltaCompress deltaDecompress at restored
  dsimp only at restored
  rw [limit_eq, compressed, decompressFrom] at restored
  simp [written] at restored

end Ota

end MiniIotRobotEdge

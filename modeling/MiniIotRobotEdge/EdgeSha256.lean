import MiniIotRobotEdge.AiSha256
import MiniIotRobotEdge.EdgeCrypto

/-!
# The hash of mini-edge-security

The model of `edge_sha256` on a little-endian machine, next to the streaming
hash of mini-edge-ai.  It copies the bytes of the message into the words as they
lie in memory, so each word is read in the other order, and it has one last
block, whatever room there is for the length.
-/

namespace MiniIotRobotEdge

namespace Edge

section Model

def edgeRotr (x : BitVec 32) (n : Nat) : BitVec 32 := (x >>> n) ||| (x <<< (32 - n))

def edgeK : List (BitVec 32) :=
  [0x428a2f98, 0x71374491, 0xb5c0fbcf, 0xe9b5dba5, 0x3956c25b, 0x59f111f1, 0x923f82a4, 0xab1c5ed5,
   0xd807aa98, 0x12835b01, 0x243185be, 0x550c7dc3, 0x72be5d74, 0x80deb1fe, 0x9bdc06a7, 0xc19bf174,
   0xe49b69c1, 0xefbe4786, 0x0fc19dc6, 0x240ca1cc, 0x2de92c6f, 0x4a7484aa, 0x5cb0a9dc, 0x76f988da,
   0x983e5152, 0xa831c66d, 0xb00327c8, 0xbf597fc7, 0xc6e00bf3, 0xd5a79147, 0x06ca6351, 0x14292967,
   0x27b70a85, 0x2e1b2138, 0x4d2c6dfc, 0x53380d13, 0x650a7354, 0x766a0abb, 0x81c2c92e, 0x92722c85,
   0xa2bfe8a1, 0xa81a664b, 0xc24b8b70, 0xc76c51a3, 0xd192e819, 0xd6990624, 0xf40e3585, 0x106aa070,
   0x19a4c116, 0x1e376c08, 0x2748774c, 0x34b0bcb5, 0x391c0cb3, 0x4ed8aa4a, 0x5b9cca4f, 0x682e6ff3,
   0x748f82ee, 0x78a5636f, 0x84c87814, 0x8cc70208, 0x90befffa, 0xa4506ceb, 0xbef9a3f7, 0xc67178f2]

/-- The byte `i` of the words before the length is written. -/
def edgeBlockByte (data : Bytes) (pos i : Nat) : UInt8 :=
  let rem := data.length - pos
  let cp := if rem < 64 then rem else 64
  if i < cp then byteAt data (pos + i) else if cp < 64 ∧ i = cp then 0x80 else 0

/-- The length in bits, in the last two words. -/
def setBitLength (w : List (BitVec 32)) (bl : Nat) : List (BitVec 32) :=
  (w.set 15 (BitVec.ofNat 32 bl)).set 14 (BitVec.ofNat 32 (bl / 2 ^ 32))

/-- The first sixteen words of a block. -/
def edgeWords (data : Bytes) (pos : Nat) : List (BitVec 32) :=
  let bl := data.length * 8
  let rem := data.length - pos
  let w := (List.range 16).map fun i =>
    Sha256.word (edgeBlockByte data pos (4 * i + 3)) (edgeBlockByte data pos (4 * i + 2))
      (edgeBlockByte data pos (4 * i + 1)) (edgeBlockByte data pos (4 * i))
  let w := if data.length < pos + 64 ∧ rem < 56 then setBitLength w bl else w
  if data.length < pos + 64 ∧ 56 ≤ rem then setBitLength w bl else w

/-- The word behind those already in the schedule. -/
def edgeNextWord (w : List (BitVec 32)) : BitVec 32 :=
  let i := w.length
  let s0 := edgeRotr (w.getD (i - 15) 0) 7 ^^^ edgeRotr (w.getD (i - 15) 0) 18 ^^^
    (w.getD (i - 15) 0 >>> 3)
  let s1 := edgeRotr (w.getD (i - 2) 0) 17 ^^^ edgeRotr (w.getD (i - 2) 0) 19 ^^^
    (w.getD (i - 2) 0 >>> 10)
  w.getD (i - 16) 0 + s0 + w.getD (i - 7) 0 + s1

def edgeRound (v : Sha256.State) (k w : BitVec 32) : Sha256.State :=
  let s1 := edgeRotr v.e 6 ^^^ edgeRotr v.e 11 ^^^ edgeRotr v.e 25
  let ch := (v.e &&& v.f) ^^^ (~~~v.e &&& v.g)
  let t1 := v.h + s1 + ch + k + w
  let s0 := edgeRotr v.a 2 ^^^ edgeRotr v.a 13 ^^^ edgeRotr v.a 22
  let maj := (v.a &&& v.b) ^^^ (v.a &&& v.c) ^^^ (v.b &&& v.c)
  { a := t1 + s0 + maj, b := v.a, c := v.b, d := v.c, e := v.d + t1, f := v.e, g := v.f, h := v.g }

/-- The schedule and the rounds of a block. -/
def edgeSha256Block (h : Sha256.State) (words : List (BitVec 32)) : Sha256.State :=
  let w := (fun w => w ++ [edgeNextWord w])^[48] words
  let v := (List.range 64).foldl (fun v i => edgeRound v (edgeK.getD i 0) (w.getD i 0)) h
  { a := h.a + v.a, b := h.b + v.b, c := h.c + v.c, d := h.d + v.d
    e := h.e + v.e, f := h.f + v.f, g := h.g + v.g, h := h.h + v.h }

/-- The loop over the blocks, from a position on. -/
def edgeSha256From (data : Bytes) (h : Sha256.State) (pos : Nat) : Sha256.State :=
  if pos ≤ data.length then
    let h := edgeSha256Block h (edgeWords data pos)
    if data.length < pos + 64 then h else edgeSha256From data h (pos + 64)
  else h
termination_by data.length + 1 - pos

def edgeSha256Start : Sha256.State where
  a := 0x6a09e667
  b := 0xbb67ae85
  c := 0x3c6ef372
  d := 0xa54ff53a
  e := 0x510e527f
  f := 0x9b05688c
  g := 0x1f83d9ab
  h := 0x5be0cd19

def edgeSha256 (data : Bytes) : Bytes := (edgeSha256From data edgeSha256Start 0).bytes

end Model

section Spec

/-- The words of a text in the other byte order. -/
def swapWords : Bytes → Bytes
  | first :: second :: third :: fourth :: rest =>
      fourth :: third :: second :: first :: swapWords rest
  | _ => []

/-- The message up to the length, where the length fits in the same block. -/
def paddedFront (data : Bytes) : Bytes :=
  data ++ 0x80 :: List.replicate ((119 - data.length % 64) % 64) 0

/-- The last block has room for the length, and all words in front of it read the
same in both byte orders. -/
def ReadsAlike (data : Bytes) : Prop :=
  data.length % 64 < 56 ∧ swapWords (paddedFront data) = paddedFront data

instance (data : Bytes) : Decidable (ReadsAlike data) := inferInstanceAs (Decidable (_ ∧ _))

/-- The last block before its words are swapped. -/
def lastChunk (data : Bytes) : Bytes :=
  data.drop (64 * (data.length / 64)) ++
    0x80 :: List.replicate (63 - data.length % 64) 0

/-- The blocks that `edge_sha256` compresses. -/
def edgeBlocks (data : Bytes) : List Bytes :=
  ((List.range (data.length / 64)).map fun index =>
      swapWords ((data.drop (64 * index)).take 64)) ++
    [(swapWords (lastChunk data)).take 56 ++ Sha256.bigEndian 8 (8 * data.length)]

/-- The blocks of the two hashes are different ones and are compressed into the
same words. -/
def BlocksCollide (data : Bytes) : Prop :=
  (edgeBlocks data).flatten ≠ Sha256.pad data ∧
    Sha256.compressBlocks (edgeBlocks data).length Sha256.initial (edgeBlocks data).flatten =
      Sha256.compressBlocks ((Sha256.pad data).length / 64) Sha256.initial (Sha256.pad data)

end Spec

section Swap

/-- A text of whole words without a first word. -/
theorem eq_nil_of_short {bytes : Bytes}
    (short : ∀ a b c d rest, bytes = a :: b :: c :: d :: rest → False)
    (whole : bytes.length % 4 = 0) : bytes = [] := by
  match bytes, short, whole with
  | [], _, _ => rfl
  | [_], _, whole => simp at whole
  | [_, _], _, whole => simp at whole
  | [_, _, _], _, whole => simp at whole
  | a :: b :: c :: d :: rest, short, _ => exact absurd rfl (short a b c d rest)

theorem swapWords_append (first second : Bytes) (whole : first.length % 4 = 0) :
    swapWords (first ++ second) = swapWords first ++ swapWords second := by
  fun_induction swapWords first with
  | case1 a b c d rest induction =>
      have shorter : rest.length % 4 = 0 := by
        simp at whole
        omega
      simp [swapWords, induction shorter]
  | case2 first short =>
      rw [eq_nil_of_short short whole]
      rfl

theorem length_swapWords (bytes : Bytes) (whole : bytes.length % 4 = 0) :
    (swapWords bytes).length = bytes.length := by
  fun_induction swapWords bytes with
  | case1 a b c d rest induction =>
      have shorter : rest.length % 4 = 0 := by
        simp at whole
        omega
      simp [induction shorter]
  | case2 bytes short =>
      rw [eq_nil_of_short short whole]

/-- The words of a swapped text are read from its other end. -/
theorem words_swapWords (bytes : Bytes) {count : Nat} (length : bytes.length = 4 * count) :
    Sha256.words (swapWords bytes) = (List.range count).map fun index =>
      Sha256.word (byteAt bytes (4 * index + 3)) (byteAt bytes (4 * index + 2))
        (byteAt bytes (4 * index + 1)) (byteAt bytes (4 * index)) := by
  induction count generalizing bytes with
  | zero =>
      rw [List.eq_nil_of_length_eq_zero length]
      rfl
  | succ count induction =>
      match bytes, length with
      | a :: b :: c :: d :: rest, length =>
          rw [swapWords, Sha256.words, induction rest (by simp at length; omega),
            List.range_succ_eq_map, List.map_cons, List.map_map]
          rfl

end Swap

section Block

/-- The rounds are those of the standard, on the words of a block. -/
theorem edgeSha256Block_eq (h : Sha256.State) {block : Bytes} (length : block.length = 64) :
    edgeSha256Block h (Sha256.words block) = Sha256.compress h block := by
  have round : edgeRound = Ai.sha256Round := by
    ext v k w
    simp only [edgeRound, Ai.sha256Round, BitVec.add_assoc]
    rfl
  rw [← Ai.sha256Transform_eq length, edgeSha256Block, Ai.sha256Transform, Ai.sha256Schedule,
    Ai.blockWords_eq length, round]
  rfl

variable (data : Bytes)

theorem length_lastChunk : (lastChunk data).length = 64 := by
  rw [lastChunk, List.length_append, List.length_drop, List.length_cons, List.length_replicate]
  omega

/-- A full block of the message. -/
theorem edgeWords_full {index : Nat} (inside : index < data.length / 64) :
    edgeWords data (64 * index) =
      Sha256.words (swapWords ((data.drop (64 * index)).take 64)) := by
  have length : ((data.drop (64 * index)).take 64).length = 4 * 16 := by
    rw [List.length_take, List.length_drop]
    omega
  have byte (i : Nat) (within : i < 64) : edgeBlockByte data (64 * index) i =
      byteAt ((data.drop (64 * index)).take 64) i := by
    have copied : ¬ data.length - 64 * index < 64 := by omega
    simp [edgeBlockByte, byteAt, copied, within]
  have open_end : ¬ data.length < 64 * index + 64 := by omega
  rw [words_swapWords _ length, edgeWords]
  simp only [open_end, false_and, if_false]
  apply List.map_congr_left
  intro word member
  rw [List.mem_range] at member
  rw [byte _ (by omega), byte _ (by omega), byte _ (by omega), byte _ (by omega)]

theorem edgeBlockByte_last {i : Nat} (within : i < 64) :
    edgeBlockByte data (64 * (data.length / 64)) i = byteAt (lastChunk data) i := by
  have rem : data.length - 64 * (data.length / 64) = data.length % 64 := by omega
  have small : data.length % 64 < 64 := Nat.mod_lt _ (by decide)
  have tail : (data.drop (64 * (data.length / 64))).length = data.length % 64 := by
    rw [List.length_drop, rem]
  rw [edgeBlockByte, rem, if_pos small, lastChunk, byteAt, byteAt, List.getD_eq_getElem?_getD,
    List.getD_eq_getElem?_getD]
  by_cases copied : i < data.length % 64
  · rw [if_pos copied, List.getElem?_append_left (by omega), List.getElem?_drop]
  · rw [if_neg copied, List.getElem?_append_right (by omega), tail]
    by_cases mark : i = data.length % 64
    · simp [mark, small]
    · obtain ⟨more, rfl⟩ := Nat.exists_eq_add_of_lt (by omega : data.length % 64 < i)
      have behind : data.length % 64 + more + 1 - data.length % 64 = more + 1 := by omega
      rw [if_neg (by omega), behind, List.getElem?_cons_succ, List.getElem?_replicate,
        if_pos (by omega)]
      rfl

/-- The length replaces the last two words. -/
theorem setBitLength_eq (w : Nat → BitVec 32) (bl : Nat) :
    setBitLength ((List.range 16).map w) bl =
      (List.range 14).map w ++ [BitVec.ofNat 32 (bl / 2 ^ 32), BitVec.ofNat 32 bl] := by
  rfl

theorem length_take_lastChunk : ((lastChunk data).take 56).length = 56 := by
  rw [List.length_take, length_lastChunk]
  rfl

theorem take_swapWords_lastChunk :
    (swapWords (lastChunk data)).take 56 = swapWords ((lastChunk data).take 56) := by
  have front := length_take_lastChunk data
  have split : swapWords (lastChunk data) =
      swapWords ((lastChunk data).take 56) ++ swapWords ((lastChunk data).drop 56) := by
    rw [← swapWords_append _ _ (by rw [front]), List.take_append_drop]
  rw [split]
  exact List.take_left' (by rw [length_swapWords _ (by rw [front]), front])

/-- Both branches of the source write the length. -/
theorem edgeWords_of_last (pos : Nat) (last : data.length < pos + 64) :
    edgeWords data pos = setBitLength ((List.range 16).map fun i =>
      Sha256.word (edgeBlockByte data pos (4 * i + 3)) (edgeBlockByte data pos (4 * i + 2))
        (edgeBlockByte data pos (4 * i + 1)) (edgeBlockByte data pos (4 * i)))
      (data.length * 8) := by
  by_cases room : data.length - pos < 56
  · simp only [edgeWords, last, room, Nat.not_le.mpr room, true_and, if_true, if_false]
  · simp only [edgeWords, last, room, Nat.not_lt.mp room, true_and, if_true, if_false]

/-- The last block of the message, with the length in it in any case. -/
theorem edgeWords_last : edgeWords data (64 * (data.length / 64)) =
    Sha256.words ((swapWords (lastChunk data)).take 56 ++
      Sha256.bigEndian 8 (8 * data.length)) := by
  have front := length_take_lastChunk data
  have swapped : (swapWords ((lastChunk data).take 56)).length = 4 * 14 := by
    rw [length_swapWords _ (by rw [front]), front]
  have byte (i : Nat) (within : i < 56) : byteAt ((lastChunk data).take 56) i =
      edgeBlockByte data (64 * (data.length / 64)) i := by
    rw [edgeBlockByte_last data (by omega)]
    simp [byteAt, within]
  have words : Sha256.words (swapWords ((lastChunk data).take 56)) = (List.range 14).map fun i =>
      Sha256.word (edgeBlockByte data (64 * (data.length / 64)) (4 * i + 3))
        (edgeBlockByte data (64 * (data.length / 64)) (4 * i + 2))
        (edgeBlockByte data (64 * (data.length / 64)) (4 * i + 1))
        (edgeBlockByte data (64 * (data.length / 64)) (4 * i)) := by
    rw [words_swapWords _ (show ((lastChunk data).take 56).length = 4 * 14 from front)]
    apply List.map_congr_left
    intro word member
    rw [List.mem_range] at member
    rw [byte _ (by omega), byte _ (by omega), byte _ (by omega), byte _ (by omega)]
  rw [take_swapWords_lastChunk, Sha256.words_append _ _ swapped, Sha256.words_bigEndian_eight,
    words, Nat.mul_comm 8, edgeWords_of_last data _ (by omega), setBitLength_eq]

end Block

section Loop

variable (data : Bytes)

@[simp]
theorem length_edgeBlocks : (edgeBlocks data).length = data.length / 64 + 1 := by
  simp [edgeBlocks]

theorem length_of_mem_edgeBlocks : ∀ block ∈ edgeBlocks data, block.length = 64 := by
  intro block member
  simp only [edgeBlocks, List.mem_append, List.mem_map, List.mem_range,
    List.mem_singleton] at member
  rcases member with ⟨index, inside, rfl⟩ | rfl
  · have length : ((data.drop (64 * index)).take 64).length = 64 := by
      rw [List.length_take, List.length_drop]
      omega
    rw [length_swapWords _ (by rw [length]), length]
  · have front := length_take_lastChunk data
    rw [take_swapWords_lastChunk, List.length_append, length_swapWords _ (by rw [front]), front,
      Sha256.length_bigEndian]

/-- The words of a turn of the loop are those of the block. -/
theorem edgeWords_eq {index : Nat} (inside : index < (edgeBlocks data).length) :
    edgeWords data (64 * index) = Sha256.words (edgeBlocks data)[index] := by
  rw [length_edgeBlocks] at inside
  by_cases last : index = data.length / 64
  · subst last
    rw [edgeWords_last]
    simp [edgeBlocks]
  · rw [edgeWords_full data (by omega)]
    simp [edgeBlocks, (by omega : index < data.length / 64)]

theorem edgeSha256From_step (index : Nat) (inside : index < (edgeBlocks data).length)
    (h : Sha256.State) : edgeSha256From data h (64 * index) =
      if data.length < 64 * index + 64 then Sha256.compress h (edgeBlocks data)[index]
      else edgeSha256From data (Sha256.compress h (edgeBlocks data)[index]) (64 * (index + 1)) := by
  have full := length_of_mem_edgeBlocks data _ (List.getElem_mem inside)
  have reached : 64 * index ≤ data.length := by
    rw [length_edgeBlocks] at inside
    omega
  rw [edgeSha256From, if_pos reached, edgeWords_eq data inside, edgeSha256Block_eq h full]
  rfl

/-- What the loop does from a block on, by induction on the blocks left. -/
theorem edgeSha256From_eq (left index : Nat) (blocks : index + left = data.length / 64)
    (h : Sha256.State) : edgeSha256From data h (64 * index) =
      ((edgeBlocks data).drop index).foldl Sha256.compress h := by
  have length := length_edgeBlocks data
  induction left generalizing index h with
  | zero =>
      rw [edgeSha256From_step data index (by omega), if_pos (by omega),
        List.drop_eq_getElem_cons (by omega : index < (edgeBlocks data).length),
        List.drop_of_length_le (by omega)]
      rfl
  | succ left induction =>
      rw [edgeSha256From_step data index (by omega), if_neg (by omega),
        List.drop_eq_getElem_cons (by omega : index < (edgeBlocks data).length), List.foldl_cons]
      exact induction (index + 1) (by omega) _

theorem edgeSha256_eq : edgeSha256 data =
    (Sha256.compressBlocks (edgeBlocks data).length Sha256.initial
      (edgeBlocks data).flatten).bytes := by
  rw [Sha256.compressBlocks_flatten (length_of_mem_edgeBlocks data), edgeSha256]
  exact congrArg Sha256.State.bytes
    (edgeSha256From_eq data (data.length / 64) 0 (Nat.zero_add _) edgeSha256Start)

end Loop

section Agreement

variable (data : Bytes)

/-- The full blocks are the swapped front of the message, by induction on their number. -/
theorem flatten_full_blocks (count : Nat) (inside : 64 * count ≤ data.length) :
    ((List.range count).map fun index =>
      swapWords ((data.drop (64 * index)).take 64)).flatten =
      swapWords (data.take (64 * count)) := by
  induction count with
  | zero => rfl
  | succ count induction =>
      have front : (data.take (64 * count)).length % 4 = 0 := by
        rw [List.length_take]
        omega
      rw [List.range_succ, List.map_append, List.flatten_append, induction (by omega), Nat.mul_succ,
        List.take_add, swapWords_append _ _ front]
      simp

/-- Where the length fits in the block of the end, the blocks are the swapped
message and the length. -/
theorem flatten_edgeBlocks (room : data.length % 64 < 56) : (edgeBlocks data).flatten =
    swapWords (paddedFront data) ++ Sha256.bigEndian 8 (8 * data.length) := by
  have whole : (data.take (64 * (data.length / 64))).length % 4 = 0 := by
    rw [List.length_take]
    omega
  have tail : (data.drop (64 * (data.length / 64))).length = data.length % 64 := by
    rw [List.length_drop]
    omega
  have zeros : (119 - data.length % 64) % 64 = 55 - data.length % 64 := by omega
  have last : (lastChunk data).take 56 = data.drop (64 * (data.length / 64)) ++
      0x80 :: List.replicate (55 - data.length % 64) 0 := by
    obtain ⟨more, split⟩ : ∃ more, 56 - data.length % 64 = more + 1 :=
      ⟨55 - data.length % 64, by omega⟩
    have rest : 55 - data.length % 64 = more := by omega
    rw [lastChunk, List.take_append, List.take_of_length_le (by omega), tail, split,
      List.take_succ_cons, List.take_replicate, rest]
    congr 3
    omega
  have front : paddedFront data =
      data.take (64 * (data.length / 64)) ++ (lastChunk data).take 56 := by
    rw [last, ← List.append_assoc, List.take_append_drop, paddedFront, zeros]
  rw [edgeBlocks, List.flatten_append, flatten_full_blocks data _ (by omega),
    take_swapWords_lastChunk, front, swapWords_append _ _ whole]
  simp

theorem pad_eq_paddedFront :
    Sha256.pad data = paddedFront data ++ Sha256.bigEndian 8 (8 * data.length) := by
  simp [Sha256.pad, paddedFront]

theorem length_paddedFront : (paddedFront data).length =
    data.length + 1 + (119 - data.length % 64) % 64 := by
  simp [paddedFront]
  omega

theorem length_flatten_edgeBlocks :
    (edgeBlocks data).flatten.length = 64 * (data.length / 64 + 1) := by
  have full : (edgeBlocks data).map List.length = List.replicate (data.length / 64 + 1) 64 := by
    rw [List.eq_replicate_iff, List.length_map, length_edgeBlocks]
    apply And.intro rfl
    intro length member
    obtain ⟨block, inside, rfl⟩ := List.mem_map.mp member
    exact length_of_mem_edgeBlocks data block inside
  rw [List.length_flatten, full, List.sum_replicate_nat, Nat.mul_comm]

/-- The two hashes compress the same blocks exactly when the message reads alike. -/
theorem edgeBlocks_eq_pad_iff :
    (edgeBlocks data).flatten = Sha256.pad data ↔ ReadsAlike data := by
  constructor
  · intro same
    have length := congrArg List.length same
    rw [length_flatten_edgeBlocks, pad_eq_paddedFront, List.length_append, length_paddedFront,
      Sha256.length_bigEndian] at length
    have room : data.length % 64 < 56 := by omega
    rw [flatten_edgeBlocks data room, pad_eq_paddedFront] at same
    exact ⟨room, List.append_cancel_right same⟩
  · rintro ⟨room, alike⟩
    rw [flatten_edgeBlocks data room, alike, pad_eq_paddedFront]

theorem length_pad_of_room (room : data.length % 64 < 56) :
    (Sha256.pad data).length / 64 = (edgeBlocks data).length := by
  rw [pad_eq_paddedFront, List.length_append, length_paddedFront, Sha256.length_bigEndian,
    length_edgeBlocks]
  omega

/-- The two hashes of a message are the same exactly when it reads alike, or its
blocks are two messages with the same hash. -/
theorem edgeSha256_eq_sha256_iff :
    edgeSha256 data = Sha256.sha256 data ↔ ReadsAlike data ∨ BlocksCollide data := by
  rw [edgeSha256_eq, Sha256.sha256]
  constructor
  · intro same
    by_cases alike : ReadsAlike data
    · exact .inl alike
    · exact .inr ⟨fun blocks => alike ((edgeBlocks_eq_pad_iff data).mp blocks),
        Sha256.bytes_injective same⟩
  · rintro (alike | ⟨-, same⟩)
    · rw [(edgeBlocks_eq_pad_iff data).mpr alike, length_pad_of_room data alike.1]
    · rw [same]

end Agreement

/-- The two hashes of the repository agree on the messages that read the same in
both byte orders; on another message they agree only by a collision. -/
theorem hashes_agree_iff (ctx : Ai.Sha256Ctx) (chunks : List Bytes)
    (bounded : chunks.flatten.length < 2 ^ 28) :
    edgeSha256 chunks.flatten =
        (Ai.sha256Final (chunks.foldl Ai.sha256Update (Ai.sha256Init ctx))).digest ↔
      ReadsAlike chunks.flatten ∨ BlocksCollide chunks.flatten := by
  rw [(Ai.sha256_streaming ctx (by omega : chunks.flatten.length < 2 ^ 61)).1]
  exact edgeSha256_eq_sha256_iff chunks.flatten

example : ReadsAlike [0x00, 0x80] := by decide

theorem hashes_agree_iff_split :
    edgeSha256 [[0x00], [0x80]].flatten =
        (Ai.sha256Final ([[0x00], [0x80]].foldl Ai.sha256Update
          (Ai.sha256Init Ai.blankSha256Ctx))).digest ↔
      ReadsAlike [[0x00], [0x80]].flatten ∨ BlocksCollide [[0x00], [0x80]].flatten :=
  hashes_agree_iff Ai.blankSha256Ctx [[0x00], [0x80]] (by decide)

/-- The hashes of the empty message differ. -/
theorem hashes_differ :
    edgeSha256 [] ≠ (Ai.sha256Final ([[]].foldl Ai.sha256Update
      (Ai.sha256Init Ai.blankSha256Ctx))).digest := by
  decide +kernel

end Edge

end MiniIotRobotEdge

import Mathlib.Data.BitVec
import Mathlib.Data.UInt

/-!
# SHA-256

The hash function of FIPS 180-4 on lists of bytes: padding, the message
schedule and the compression function.
-/

namespace MiniIotRobotEdge

namespace Sha256

/-- The eight words that a block is compressed into. -/
structure State where
  a : BitVec 32
  b : BitVec 32
  c : BitVec 32
  d : BitVec 32
  e : BitVec 32
  f : BitVec 32
  g : BitVec 32
  h : BitVec 32
  deriving DecidableEq

def initial : State where
  a := 0x6a09e667#32
  b := 0xbb67ae85#32
  c := 0x3c6ef372#32
  d := 0xa54ff53a#32
  e := 0x510e527f#32
  f := 0x9b05688c#32
  g := 0x1f83d9ab#32
  h := 0x5be0cd19#32

def roundConstants : List (BitVec 32) :=
  [0x428a2f98#32, 0x71374491#32, 0xb5c0fbcf#32, 0xe9b5dba5#32,
   0x3956c25b#32, 0x59f111f1#32, 0x923f82a4#32, 0xab1c5ed5#32,
   0xd807aa98#32, 0x12835b01#32, 0x243185be#32, 0x550c7dc3#32,
   0x72be5d74#32, 0x80deb1fe#32, 0x9bdc06a7#32, 0xc19bf174#32,
   0xe49b69c1#32, 0xefbe4786#32, 0x0fc19dc6#32, 0x240ca1cc#32,
   0x2de92c6f#32, 0x4a7484aa#32, 0x5cb0a9dc#32, 0x76f988da#32,
   0x983e5152#32, 0xa831c66d#32, 0xb00327c8#32, 0xbf597fc7#32,
   0xc6e00bf3#32, 0xd5a79147#32, 0x06ca6351#32, 0x14292967#32,
   0x27b70a85#32, 0x2e1b2138#32, 0x4d2c6dfc#32, 0x53380d13#32,
   0x650a7354#32, 0x766a0abb#32, 0x81c2c92e#32, 0x92722c85#32,
   0xa2bfe8a1#32, 0xa81a664b#32, 0xc24b8b70#32, 0xc76c51a3#32,
   0xd192e819#32, 0xd6990624#32, 0xf40e3585#32, 0x106aa070#32,
   0x19a4c116#32, 0x1e376c08#32, 0x2748774c#32, 0x34b0bcb5#32,
   0x391c0cb3#32, 0x4ed8aa4a#32, 0x5b9cca4f#32, 0x682e6ff3#32,
   0x748f82ee#32, 0x78a5636f#32, 0x84c87814#32, 0x8cc70208#32,
   0x90befffa#32, 0xa4506ceb#32, 0xbef9a3f7#32, 0xc67178f2#32]

/-- The word with the given bytes, the highest first. -/
def word (first second third fourth : UInt8) : BitVec 32 :=
  first.toBitVec ++ second.toBitVec ++ third.toBitVec ++ fourth.toBitVec

def words : List UInt8 → List (BitVec 32)
  | first :: second :: third :: fourth :: rest => word first second third fourth :: words rest
  | _ => []

def smallSigma0 (x : BitVec 32) : BitVec 32 :=
  x.rotateRight 7 ^^^ x.rotateRight 18 ^^^ (x >>> 3)

def smallSigma1 (x : BitVec 32) : BitVec 32 :=
  x.rotateRight 17 ^^^ x.rotateRight 19 ^^^ (x >>> 10)

def bigSigma0 (x : BitVec 32) : BitVec 32 :=
  x.rotateRight 2 ^^^ x.rotateRight 13 ^^^ x.rotateRight 22

def bigSigma1 (x : BitVec 32) : BitVec 32 :=
  x.rotateRight 6 ^^^ x.rotateRight 11 ^^^ x.rotateRight 25

/-- Extend the message schedule, which is kept with the newest word first. -/
def extend : Nat → List (BitVec 32) → List (BitVec 32)
  | 0, schedule => schedule
  | count + 1, schedule =>
      extend count
        ((smallSigma1 (schedule.getD 1 0) + schedule.getD 6 0 +
          smallSigma0 (schedule.getD 14 0) + schedule.getD 15 0) :: schedule)

def round (state : State) (input : BitVec 32 × BitVec 32) : State :=
  let choice := (state.e &&& state.f) ^^^ (~~~state.e &&& state.g)
  let majority := (state.a &&& state.b) ^^^ (state.a &&& state.c) ^^^ (state.b &&& state.c)
  let first := state.h + bigSigma1 state.e + choice + input.1 + input.2
  let second := bigSigma0 state.a + majority
  { a := first + second
    b := state.a
    c := state.b
    d := state.c
    e := state.d + first
    f := state.e
    g := state.f
    h := state.g }

def compress (state : State) (block : List UInt8) : State :=
  let schedule := (extend 48 (words block).reverse).reverse
  let last := (roundConstants.zip schedule).foldl round state
  { a := state.a + last.a
    b := state.b + last.b
    c := state.c + last.c
    d := state.d + last.d
    e := state.e + last.e
    f := state.f + last.f
    g := state.g + last.g
    h := state.h + last.h }

/-- The bytes of a number, the highest first. -/
def bigEndian : Nat → Nat → List UInt8
  | 0, _ => []
  | width + 1, value => bigEndian width (value / 256) ++ [UInt8.ofNat value]

def pad (message : List UInt8) : List UInt8 :=
  message ++ 0x80 :: (List.replicate ((119 - message.length % 64) % 64) 0 ++
    bigEndian 8 (8 * message.length))

def compressBlocks : Nat → State → List UInt8 → State
  | 0, state, _ => state
  | count + 1, state, data => compressBlocks count (compress state (data.take 64)) (data.drop 64)

def State.bytes (state : State) : List UInt8 :=
  [state.a, state.b, state.c, state.d, state.e, state.f, state.g, state.h].flatMap
    fun word => bigEndian 4 word.toNat

def sha256 (message : List UInt8) : List UInt8 :=
  (compressBlocks ((pad message).length / 64) initial (pad message)).bytes

/-- The bytes of a word, put together with shifts. -/
theorem word_eq_or (first second third fourth : UInt8) :
    word first second third fourth =
      (first.toBitVec.setWidth 32 <<< 24) ||| (second.toBitVec.setWidth 32 <<< 16) |||
        (third.toBitVec.setWidth 32 <<< 8) ||| fourth.toBitVec.setWidth 32 := by
  unfold word
  ext index inside
  simp only [BitVec.getElem_or, BitVec.getElem_shiftLeft, BitVec.getElem_setWidth,
    BitVec.getElem_append]
  grind

@[simp]
theorem length_extend (count : Nat) (schedule : List (BitVec 32)) :
    (extend count schedule).length = schedule.length + count := by
  induction count generalizing schedule with
  | zero => rfl
  | succ count ih =>
      rw [extend, ih, List.length_cons]
      omega

/-- A block word by word. -/
theorem words_eq_map (block : List UInt8) {count : Nat} (length : block.length = 4 * count) :
    words block = (List.range count).map fun index =>
      word (block.getD (4 * index) 0) (block.getD (4 * index + 1) 0)
        (block.getD (4 * index + 2) 0) (block.getD (4 * index + 3) 0) := by
  induction count generalizing block with
  | zero =>
      rw [List.eq_nil_of_length_eq_zero length]
      rfl
  | succ count ih =>
      obtain ⟨first, second, third, fourth, rest, rfl⟩ : ∃ first second third fourth rest,
          block = first :: second :: third :: fourth :: rest := by
        match block, length with
        | first :: second :: third :: fourth :: rest, _ =>
            exact ⟨first, second, third, fourth, rest, rfl⟩
      rw [words, ih rest (by simp at length; omega), List.range_succ_eq_map, List.map_cons,
        List.map_map]
      rfl

theorem bigEndian_eq_map (width value : Nat) :
    bigEndian width value =
      (List.range width).map fun index => UInt8.ofNat (value >>> (8 * (width - 1 - index))) := by
  induction width generalizing value with
  | zero => rfl
  | succ width ih =>
      rw [bigEndian, ih, List.range_succ, List.map_append, List.map_singleton]
      congr 1
      · apply List.map_congr_left
        intro index inside
        have bound := List.mem_range.mp inside
        have places : 8 * (width + 1 - 1 - index) = 8 + 8 * (width - 1 - index) := by omega
        have byte : value >>> 8 = value / 256 := Nat.shiftRight_eq_div_pow value 8
        rw [places, Nat.shiftRight_add, byte]
      · rw [Nat.add_sub_cancel, Nat.sub_self]
        rfl

@[simp]
theorem length_bigEndian (width value : Nat) : (bigEndian width value).length = width := by
  rw [bigEndian_eq_map, List.length_map, List.length_range]

theorem bigEndian_add (front back value : Nat) :
    bigEndian (front + back) value =
      bigEndian front (value / 256 ^ back) ++ bigEndian back value := by
  induction back generalizing value with
  | zero => simp [bigEndian]
  | succ back ih =>
      rw [← Nat.add_assoc, bigEndian, ih, bigEndian, Nat.div_div_eq_div_mul, Nat.pow_succ',
        List.append_assoc]

/-- The bytes of a number are those of its remainder. -/
theorem bigEndian_mod (width value : Nat) :
    bigEndian width (value % 256 ^ width) = bigEndian width value := by
  induction width generalizing value with
  | zero => rfl
  | succ width ih =>
      have high : value % 256 ^ (width + 1) / 256 = value / 256 % 256 ^ width := by
        rw [Nat.pow_succ', Nat.mod_mul_right_div_self]
      have low : UInt8.ofNat (value % 256 ^ (width + 1)) = UInt8.ofNat value := by
        apply UInt8.toNat_inj.mp
        rw [UInt8.toNat_ofNat', UInt8.toNat_ofNat', Nat.pow_succ']
        exact Nat.mod_mul_right_mod value 256 (256 ^ width)
      rw [bigEndian, bigEndian, high, low, ih]

theorem words_append (first second : List UInt8) {count : Nat} (length : first.length = 4 * count) :
    words (first ++ second) = words first ++ words second := by
  induction count generalizing first with
  | zero =>
      rw [List.eq_nil_of_length_eq_zero length]
      rfl
  | succ count ih =>
      match first, length with
      | a :: b :: c :: d :: rest, length =>
          rw [List.cons_append, List.cons_append, List.cons_append, List.cons_append, words, words,
            ih rest (by simp at length; omega), List.cons_append]

/-- The blocks of two strings, one behind the other. -/
theorem compressBlocks_append {first second : List UInt8} {count : Nat}
    (length : first.length = 64 * count) (state : State) (more : Nat) :
    compressBlocks (count + more) state (first ++ second) =
      compressBlocks more (compressBlocks count state first) second := by
  induction count generalizing first state with
  | zero =>
      rw [List.eq_nil_of_length_eq_zero length, Nat.zero_add]
      rfl
  | succ count ih =>
      rw [Nat.add_right_comm, compressBlocks, compressBlocks, List.take_append_of_le_length,
        List.drop_append_of_le_length, ih]
      · rw [List.length_drop]
        omega
      all_goals omega

/-- One more block. -/
theorem compressBlocks_snoc {data block : List UInt8} {count : Nat}
    (dataLength : data.length = 64 * count) (blockLength : block.length = 64) (state : State) :
    compressBlocks (count + 1) state (data ++ block) =
      compress (compressBlocks count state data) block := by
  rw [compressBlocks_append dataLength, compressBlocks, compressBlocks,
    List.take_of_length_le (by omega)]

/-- The bytes of a word, as they are cut out of it. -/
theorem bigEndian_four (x : BitVec 32) :
    bigEndian 4 x.toNat = [⟨(x >>> 24).setWidth 8⟩, ⟨(x >>> 16).setWidth 8⟩,
      ⟨(x >>> 8).setWidth 8⟩, ⟨x.setWidth 8⟩] := by
  have byte (places : Nat) : UInt8.ofNat (x.toNat >>> places) = ⟨(x >>> places).setWidth 8⟩ := by
    apply UInt8.toNat_inj.mp
    simp
  rw [bigEndian_eq_map]
  simp only [byte]
  rfl

/-- Reading back the bytes of a word. -/
theorem words_bigEndian_append (x : BitVec 32) (rest : List UInt8) :
    words (bigEndian 4 x.toNat ++ rest) = x :: words rest := by
  rw [bigEndian_four]
  change word _ _ _ _ :: words rest = _
  congr 1
  rw [word]
  ext index inside
  simp only [BitVec.getElem_append, BitVec.getElem_setWidth, BitVec.getLsbD_ushiftRight]
  grind

/-- The two words of a length. -/
theorem words_bigEndian_eight (value : Nat) : words (bigEndian 8 value) =
    [BitVec.ofNat 32 (value / 2 ^ 32), BitVec.ofNat 32 value] := by
  have four (value : Nat) : bigEndian 4 value = bigEndian 4 (BitVec.ofNat 32 value).toNat := by
    rw [BitVec.toNat_ofNat]
    exact (bigEndian_mod 4 value).symm
  rw [bigEndian_add 4 4 value, four (value / 256 ^ 4), four value, words_bigEndian_append,
    ← List.append_nil (bigEndian 4 _), words_bigEndian_append]
  rfl

theorem words_bytes (state : State) : words state.bytes =
    [state.a, state.b, state.c, state.d, state.e, state.f, state.g, state.h] := by
  simp only [State.bytes, List.flatMap_cons, words_bigEndian_append, List.flatMap_nil]
  rfl

/-- A digest tells the eight words. -/
theorem bytes_injective {first second : State} (same : first.bytes = second.bytes) :
    first = second := by
  have readings := congrArg words same
  rw [words_bytes, words_bytes] at readings
  cases first
  cases second
  simpa using readings

/-- The chain over a list of blocks. -/
theorem compressBlocks_flatten {blocks : List (List UInt8)}
    (full : ∀ block ∈ blocks, block.length = 64) (state : State) :
    compressBlocks blocks.length state blocks.flatten = blocks.foldl compress state := by
  induction blocks generalizing state with
  | nil => rfl
  | cons block rest ih =>
      have length := full block (by simp)
      rw [List.length_cons, compressBlocks, List.flatten_cons, List.take_left' length,
        List.drop_left' length, List.foldl_cons,
        ih fun other member => full other (by simp [member])]

example : (sha256 [0x61, 0x62, 0x63]).take 4 = [0xba, 0x78, 0x16, 0xbf] := by decide +kernel

example : (sha256 (List.replicate 64 0)).take 4 = [0xf5, 0xa5, 0xfd, 0x42] := by decide +kernel

end Sha256

end MiniIotRobotEdge

import Mathlib.Data.List.Induction
import Mathlib.Logic.Function.Iterate
import Mathlib.Tactic.ByContra
import MiniIotRobotEdge.Sha256
import MiniIotRobotEdge.StepRuns

/-!
# The streaming hash of mini-edge-ai

The model of `sha256_init`, `sha256_update`, `sha256_final` and `sha256_verify`
in `edge_pipeline.c`.  The context holds the words that the full blocks have
been compressed into and the bytes of the block begun.  No pointer is null.
-/

namespace MiniIotRobotEdge

namespace Ai

open StepRuns

def sha256K : List (BitVec 32) :=
  [0x428a2f98, 0x71374491, 0xb5c0fbcf, 0xe9b5dba5, 0x3956c25b, 0x59f111f1, 0x923f82a4, 0xab1c5ed5,
   0xd807aa98, 0x12835b01, 0x243185be, 0x550c7dc3, 0x72be5d74, 0x80deb1fe, 0x9bdc06a7, 0xc19bf174,
   0xe49b69c1, 0xefbe4786, 0x0fc19dc6, 0x240ca1cc, 0x2de92c6f, 0x4a7484aa, 0x5cb0a9dc, 0x76f988da,
   0x983e5152, 0xa831c66d, 0xb00327c8, 0xbf597fc7, 0xc6e00bf3, 0xd5a79147, 0x06ca6351, 0x14292967,
   0x27b70a85, 0x2e1b2138, 0x4d2c6dfc, 0x53380d13, 0x650a7354, 0x766a0abb, 0x81c2c92e, 0x92722c85,
   0xa2bfe8a1, 0xa81a664b, 0xc24b8b70, 0xc76c51a3, 0xd192e819, 0xd6990624, 0xf40e3585, 0x106aa070,
   0x19a4c116, 0x1e376c08, 0x2748774c, 0x34b0bcb5, 0x391c0cb3, 0x4ed8aa4a, 0x5b9cca4f, 0x682e6ff3,
   0x748f82ee, 0x78a5636f, 0x84c87814, 0x8cc70208, 0x90befffa, 0xa4506ceb, 0xbef9a3f7, 0xc67178f2]

def sha256Rotr (x : BitVec 32) (n : Nat) : BitVec 32 := (x >>> n) ||| (x <<< (32 - n))

/-- The word of four bytes of a block. -/
def blockWord (block : List UInt8) (i : Nat) : BitVec 32 :=
  ((block.getD (i * 4) 0).toBitVec.setWidth 32 <<< 24) |||
    ((block.getD (i * 4 + 1) 0).toBitVec.setWidth 32 <<< 16) |||
    ((block.getD (i * 4 + 2) 0).toBitVec.setWidth 32 <<< 8) |||
    (block.getD (i * 4 + 3) 0).toBitVec.setWidth 32

/-- The word behind those already in the schedule. -/
def nextWord (w : List (BitVec 32)) : BitVec 32 :=
  let i := w.length
  let s0 := sha256Rotr (w.getD (i - 15) 0) 7 ^^^ sha256Rotr (w.getD (i - 15) 0) 18 ^^^
    (w.getD (i - 15) 0 >>> 3)
  let s1 := sha256Rotr (w.getD (i - 2) 0) 17 ^^^ sha256Rotr (w.getD (i - 2) 0) 19 ^^^
    (w.getD (i - 2) 0 >>> 10)
  w.getD (i - 16) 0 + s0 + w.getD (i - 7) 0 + s1

def sha256Schedule (block : List UInt8) : List (BitVec 32) :=
  (fun w => w ++ [nextWord w])^[48] ((List.range 16).map (blockWord block))

/-- One round on the variables `a` to `h`. -/
def sha256Round (v : Sha256.State) (k w : BitVec 32) : Sha256.State :=
  let s1 := sha256Rotr v.e 6 ^^^ sha256Rotr v.e 11 ^^^ sha256Rotr v.e 25
  let ch := (v.e &&& v.f) ^^^ (~~~v.e &&& v.g)
  let t1 := v.h + s1 + ch + k + w
  let s0 := sha256Rotr v.a 2 ^^^ sha256Rotr v.a 13 ^^^ sha256Rotr v.a 22
  let maj := (v.a &&& v.b) ^^^ (v.a &&& v.c) ^^^ (v.b &&& v.c)
  let t2 := s0 + maj
  { a := t1 + t2, b := v.a, c := v.b, d := v.c, e := v.d + t1, f := v.e, g := v.f, h := v.g }

def sha256Transform (state : Sha256.State) (block : List UInt8) : Sha256.State :=
  let w := sha256Schedule block
  let v := (List.range 64).foldl (fun v i => sha256Round v (sha256K.getD i 0) (w.getD i 0)) state
  { a := state.a + v.a, b := state.b + v.b, c := state.c + v.c, d := state.d + v.d
    e := state.e + v.e, f := state.f + v.f, g := state.g + v.g, h := state.h + v.h }

structure Sha256Ctx where
  state : Sha256.State
  bitlen : UInt64
  block : Vector UInt8 64
  blockIdx : Nat
  digest : List UInt8
  finalized : Bool

/-- The buffers keep what they hold. -/
def sha256Init (ctx : Sha256Ctx) : Sha256Ctx :=
  { ctx with
    state :=
      { a := 0x6a09e667, b := 0xbb67ae85, c := 0x3c6ef372, d := 0xa54ff53a
        e := 0x510e527f, f := 0x9b05688c, g := 0x1f83d9ab, h := 0x5be0cd19 }
    bitlen := 0
    blockIdx := 0
    finalized := false }

/-- `ctx->block[ctx->block_idx++] = byte`. -/
def Sha256Ctx.put (ctx : Sha256Ctx) (byte : UInt8) : Sha256Ctx :=
  { ctx with block := ctx.block.setIfInBounds ctx.blockIdx byte, blockIdx := ctx.blockIdx + 1 }

/-- The loops that put zeros up to a position. -/
def Sha256Ctx.putZeros (ctx : Sha256Ctx) (limit : Nat) : Sha256Ctx :=
  (fun ctx => ctx.put 0)^[limit - ctx.blockIdx] ctx

/-- Compress the block and begin a new one. -/
def Sha256Ctx.flush (ctx : Sha256Ctx) : Sha256Ctx :=
  { ctx with state := sha256Transform ctx.state ctx.block.toList, blockIdx := 0 }

def updateByte (ctx : Sha256Ctx) (byte : UInt8) : Sha256Ctx :=
  let ctx := { ctx with bitlen := ctx.bitlen + 8 }.put byte
  if ctx.blockIdx = 64 then ctx.flush else ctx

def sha256Update (ctx : Sha256Ctx) (data : List UInt8) : Sha256Ctx :=
  if ctx.finalized then ctx else data.foldl updateByte ctx

/-- The bytes of a word, as they are written to the digest. -/
def digestBytes (x : BitVec 32) : List UInt8 :=
  [UInt8.ofNat (x >>> 24).toNat, UInt8.ofNat (x >>> 16).toNat, UInt8.ofNat (x >>> 8).toNat,
    UInt8.ofNat x.toNat]

/-- Write the length into the last eight bytes of the block. -/
def putLength (block : Vector UInt8 64) (bits : UInt64) : Vector UInt8 64 :=
  (List.range 8).foldl (fun block i =>
    block.setIfInBounds (56 + i) (bits >>> UInt64.ofNat (56 - 8 * i)).toUInt8) block

/-- The last block up to the length, after one more block where there is no
room for the length. -/
def Sha256Ctx.padded (ctx : Sha256Ctx) : Sha256Ctx :=
  let ctx := ctx.put 0x80
  let ctx := if 56 < ctx.blockIdx then (ctx.putZeros 64).flush else ctx
  ctx.putZeros 56

def sha256Final (ctx : Sha256Ctx) : Sha256Ctx :=
  if ctx.finalized then ctx
  else
    let ctx := ctx.padded
    let block := putLength ctx.block ctx.bitlen
    let state := sha256Transform ctx.state block.toList
    { ctx with
      block := block
      state := state
      digest := [state.a, state.b, state.c, state.d, state.e, state.f, state.g, state.h].flatMap
        digestBytes
      finalized := true }

/-- The context on the stack holds anything. -/
def sha256Verify (ctx : Sha256Ctx) (data : List UInt8) (expectedHash : Vector UInt8 32) : Nat :=
  let ctx := sha256Final (sha256Update (sha256Init ctx) data)
  if (List.range 32).any fun i => ctx.digest.getD i 0 ≠ expectedHash.toList.getD i 0 then 0 else 1

inductive Sha256Call
  | update (data : List UInt8)
  | final

def sha256Step (ctx : Sha256Ctx) : Sha256Call → Sha256Ctx
  | .update data => sha256Update ctx data
  | .final => sha256Final ctx

section Transform

/-- The table in the source is that of the standard. -/
theorem sha256K_eq : sha256K = Sha256.roundConstants := rfl

theorem blockWords_eq {block : List UInt8} (length : block.length = 64) :
    (List.range 16).map (blockWord block) = Sha256.words block := by
  rw [Sha256.words_eq_map block (show block.length = 4 * 16 from length)]
  apply List.map_congr_left
  intro index _
  rw [Sha256.word_eq_or, blockWord, Nat.mul_comm]

/-- The schedule grows as in the standard, which has its newest word in front. -/
theorem nextWord_reverse {w : List (BitVec 32)} (long : 16 ≤ w.length) :
    nextWord w.reverse = Sha256.smallSigma1 (w.getD 1 0) + w.getD 6 0 +
      Sha256.smallSigma0 (w.getD 14 0) + w.getD 15 0 := by
  have fromEnd (back : Nat) (positive : 0 < back) (inside : back ≤ 16) :
      w.reverse.getD (w.reverse.length - back) 0 = w.getD (back - 1) 0 := by
    rw [List.getD_eq_getElem?_getD, List.getD_eq_getElem?_getD, List.getElem?_reverse,
      List.length_reverse]
    · congr 2
      omega
    · rw [List.length_reverse]
      omega
  simp only [nextWord, fromEnd 2 (by decide) (by decide), fromEnd 7 (by decide) (by decide),
    fromEnd 15 (by decide) (by decide), fromEnd 16 (by decide) (by decide)]
  change w.getD 15 0 + Sha256.smallSigma0 (w.getD 14 0) + w.getD 6 0 +
    Sha256.smallSigma1 (w.getD 1 0) = _
  ac_rfl

theorem schedule_reverse (count : Nat) {w : List (BitVec 32)} (long : 16 ≤ w.length) :
    (fun w => w ++ [nextWord w])^[count] w.reverse = (Sha256.extend count w).reverse := by
  induction count generalizing w with
  | zero => rfl
  | succ count ih =>
      rw [Function.iterate_succ_apply, Sha256.extend, ← ih (by simp; omega), List.reverse_cons,
        nextWord_reverse long]

/-- A loop over the positions of two lists goes through their pairs. -/
theorem foldl_range_getD {α β : Type} (step : β → α → α → β) (fill : α) (first second : List α)
    {count : Nat} (firstLength : first.length = count) (secondLength : second.length = count)
    (start : β) :
    (List.range count).foldl (fun v i => step v (first.getD i fill) (second.getD i fill)) start =
      (first.zip second).foldl (fun v pair => step v pair.1 pair.2) start := by
  have pairs : first.zip second =
      (List.range count).map fun i => (first.getD i fill, second.getD i fill) := by
    apply List.ext_getElem
    · simp [firstLength, secondLength]
    · intro index inside _
      rw [List.length_zip] at inside
      simp [List.getElem?_eq_getElem (show index < first.length by omega),
        List.getElem?_eq_getElem (show index < second.length by omega)]
  rw [pairs, List.foldl_map]

/-- The transform is the compression function of the standard. -/
theorem sha256Transform_eq {block : List UInt8} (length : block.length = 64)
    (state : Sha256.State) : sha256Transform state block = Sha256.compress state block := by
  have wordsLength : (Sha256.words block).length = 16 := by
    rw [← blockWords_eq length, List.length_map, List.length_range]
  have schedule : sha256Schedule block =
      (Sha256.extend 48 (Sha256.words block).reverse).reverse := by
    rw [sha256Schedule, blockWords_eq length, ← schedule_reverse 48, List.reverse_reverse]
    rw [List.length_reverse, wordsLength]
  have rounds := foldl_range_getD sha256Round 0 sha256K (sha256Schedule block)
    (show sha256K.length = 64 from rfl)
    (by rw [schedule, List.length_reverse, Sha256.length_extend, List.length_reverse, wordsLength])
    state
  rw [sha256Transform, Sha256.compress, rounds, schedule, sha256K_eq]
  rfl

end Transform

section Block

theorem take_set_succ {α : Type} {list : List α} {index : Nat} (inside : index < list.length)
    (value : α) : (list.set index value).take (index + 1) = list.take index ++ [value] := by
  rw [List.take_succ_eq_append_getElem (by simpa using inside), List.getElem_set_self,
    List.take_set_of_le (Nat.le_refl index)]

/-- The bytes of the block begun. -/
def Sha256Ctx.filled (ctx : Sha256Ctx) : List UInt8 := ctx.block.toList.take ctx.blockIdx

variable {ctx : Sha256Ctx}

theorem length_filled (room : ctx.blockIdx ≤ 64) : ctx.filled.length = ctx.blockIdx := by
  rw [Sha256Ctx.filled, List.length_take, Vector.length_toList]
  omega

theorem filled_put (room : ctx.blockIdx < 64) (byte : UInt8) :
    (ctx.put byte).filled = ctx.filled ++ [byte] := by
  rw [Sha256Ctx.filled, Sha256Ctx.put, Vector.toList_setIfInBounds]
  exact take_set_succ (by simpa using room) byte

theorem flush_bitlen : ctx.flush.bitlen = ctx.bitlen := by
  rw [Sha256Ctx.flush]

theorem flush_finalized : ctx.flush.finalized = ctx.finalized := by
  rw [Sha256Ctx.flush]

/-- A loop of zeros touches the block and the position only. -/
theorem putZeros_keeps (limit : Nat) :
    (ctx.putZeros limit).state = ctx.state ∧ (ctx.putZeros limit).bitlen = ctx.bitlen := by
  unfold Sha256Ctx.putZeros
  induction limit - ctx.blockIdx with
  | zero => exact ⟨rfl, rfl⟩
  | succ count ih =>
      rw [Function.iterate_succ_apply', Sha256Ctx.put]
      exact ih

theorem filled_putZeros {limit : Nat} (above : ctx.blockIdx ≤ limit) (inside : limit ≤ 64) :
    (ctx.putZeros limit).blockIdx = limit ∧
      (ctx.putZeros limit).filled = ctx.filled ++ List.replicate (limit - ctx.blockIdx) 0 := by
  have loop (count : Nat) (fits : ctx.blockIdx + count ≤ 64) :
      ((fun ctx : Sha256Ctx => ctx.put 0)^[count] ctx).blockIdx = ctx.blockIdx + count ∧
        ((fun ctx : Sha256Ctx => ctx.put 0)^[count] ctx).filled =
          ctx.filled ++ List.replicate count 0 := by
    induction count with
    | zero => simp
    | succ count ih =>
        obtain ⟨position, bytes⟩ := ih (by omega)
        rw [Function.iterate_succ_apply']
        constructor
        · rw [Sha256Ctx.put, position, Nat.add_assoc]
        · rw [filled_put (by omega), bytes, List.append_assoc, List.replicate_succ']
  obtain ⟨position, bytes⟩ := loop (limit - ctx.blockIdx) (by omega)
  exact ⟨by rw [Sha256Ctx.putZeros, position]; omega, bytes⟩

/-- The length stands behind the first 56 bytes. -/
theorem toList_putLength (block : Vector UInt8 64) (bits : UInt64) :
    (putLength block bits).toList = block.toList.take 56 ++ Sha256.bigEndian 8 bits.toNat := by
  have loop (count : Nat) (fits : count ≤ 8) :
      ((List.range count).foldl (fun (block : Vector UInt8 64) i =>
        block.setIfInBounds (56 + i) (bits >>> UInt64.ofNat (56 - 8 * i)).toUInt8)
        block).toList.take (56 + count) =
        block.toList.take 56 ++
          (List.range count).map fun i => (bits >>> UInt64.ofNat (56 - 8 * i)).toUInt8 := by
    induction count with
    | zero => simp
    | succ count ih =>
        rw [List.range_succ, List.foldl_append, List.map_append, ← List.append_assoc,
          ← ih (by omega), List.foldl_cons, List.foldl_nil, Vector.toList_setIfInBounds]
        exact take_set_succ (by simp; omega) _
  have whole := loop 8 (Nat.le_refl 8)
  rw [List.take_of_length_le (by simp)] at whole
  rw [putLength, whole, Sha256.bigEndian_eq_map]
  rfl

end Block

section Streaming

/-- What the context holds after a message: the full blocks are compressed,
and the rest is in the block begun. -/
structure Absorbed (ctx : Sha256Ctx) (message : List UInt8) : Prop where
  opened : ctx.finalized = false
  bits : ctx.bitlen.toNat = 8 * message.length % 2 ^ 64
  room : ctx.blockIdx < 64
  blocks : ∃ count done, done.length = 64 * count ∧ message = done ++ ctx.filled ∧
    ctx.state = Sha256.compressBlocks count Sha256.initial done

variable {ctx : Sha256Ctx} {message : List UInt8}

theorem absorbed_init (ctx : Sha256Ctx) : Absorbed (sha256Init ctx) [] where
  opened := rfl
  bits := rfl
  room := Nat.zero_lt_succ 63
  blocks := ⟨0, [], rfl, rfl, rfl⟩

/-- Compressing a full block behind those compressed already. -/
theorem flush_state {done : List UInt8} {count : Nat} (doneLength : done.length = 64 * count)
    (full : ctx.blockIdx = 64)
    (compressed : ctx.state = Sha256.compressBlocks count Sha256.initial done) :
    ctx.flush.state = Sha256.compressBlocks (count + 1) Sha256.initial (done ++ ctx.filled) := by
  have block : ctx.filled = ctx.block.toList := by
    rw [Sha256Ctx.filled, full, List.take_of_length_le (by simp)]
  have length : ctx.block.toList.length = 64 := Vector.length_toList
  calc
    ctx.flush.state = sha256Transform ctx.state ctx.block.toList := rfl
    _ = Sha256.compress ctx.state ctx.block.toList := sha256Transform_eq length ctx.state
    _ = Sha256.compress (Sha256.compressBlocks count Sha256.initial done) ctx.filled := by
      rw [compressed, block]
    _ = Sha256.compressBlocks (count + 1) Sha256.initial (done ++ ctx.filled) := by
      rw [Sha256.compressBlocks_snoc doneLength (block ▸ length)]

/-- A block that is full is compressed. -/
theorem absorbed_of_filled {done : List UInt8} {count : Nat}
    (opened : ctx.finalized = false) (bits : ctx.bitlen.toNat = 8 * message.length % 2 ^ 64)
    (position : ctx.blockIdx ≤ 64) (doneLength : done.length = 64 * count)
    (split : message = done ++ ctx.filled)
    (compressed : ctx.state = Sha256.compressBlocks count Sha256.initial done) :
    Absorbed (if ctx.blockIdx = 64 then ctx.flush else ctx) message := by
  by_cases full : ctx.blockIdx = 64
  · have doneNext : (done ++ ctx.filled).length = 64 * (count + 1) := by
      rw [List.length_append, doneLength, length_filled position, full, Nat.mul_succ]
    have nothing : message = (done ++ ctx.filled) ++ [] := by rw [split, List.append_nil]
    rw [if_pos full]
    rw [← flush_finalized] at opened
    rw [← flush_bitlen] at bits
    exact ⟨opened, bits, Nat.zero_lt_succ 63, count + 1, _, doneNext, nothing,
      flush_state doneLength full compressed⟩
  · rw [if_neg full]
    exact ⟨opened, bits, Nat.lt_of_le_of_ne position full, count, done, doneLength, split,
      compressed⟩

theorem absorbed_updateByte (absorbed : Absorbed ctx message) (byte : UInt8) :
    Absorbed (updateByte ctx byte) (message ++ [byte]) := by
  obtain ⟨count, done, doneLength, split, compressed⟩ := absorbed.blocks
  have bits : (ctx.bitlen + 8).toNat = 8 * (message ++ [byte]).length % 2 ^ 64 := by
    have eight : (8 : UInt64).toNat = 8 := rfl
    rw [UInt64.toNat_add, absorbed.bits, eight, Nat.mod_add_mod, List.length_append,
      List.length_singleton, Nat.mul_add]
  have put (bitlen : UInt64) : ({ ctx with bitlen := bitlen }.put byte).filled =
      ctx.filled ++ [byte] := filled_put absorbed.room byte
  have whole : message ++ [byte] = done ++ (ctx.filled ++ [byte]) := by
    rw [← List.append_assoc, ← split]
  rw [updateByte]
  generalize ctx.bitlen + 8 = bitlen at bits
  rw [← put bitlen] at whole
  exact absorbed_of_filled absorbed.opened bits absorbed.room doneLength whole compressed

theorem absorbed_update (absorbed : Absorbed ctx message) (data : List UInt8) :
    Absorbed (sha256Update ctx data) (message ++ data) := by
  rw [sha256Update, absorbed.opened, if_neg Bool.false_ne_true]
  induction data generalizing ctx message with
  | nil => simpa using absorbed
  | cons byte rest ih =>
      have next := ih (absorbed_updateByte absorbed byte)
      rwa [List.append_assoc, List.singleton_append] at next

/-- After any chunks the context has absorbed their concatenation. -/
theorem absorbed_chunks (ctx : Sha256Ctx) (chunks : List (List UInt8)) :
    Absorbed (chunks.foldl sha256Update (sha256Init ctx)) chunks.flatten := by
  induction chunks using List.reverseRecOn with
  | nil => exact absorbed_init ctx
  | append_singleton chunks data ih =>
      have next := absorbed_update ih data
      rwa [List.foldl_append, List.foldl_cons, List.foldl_nil, List.flatten_append,
        List.flatten_singleton]

/-- The padding up to the length, whether or not it fits the block begun. -/
theorem padded_blocks (absorbed : Absorbed ctx message) :
    ctx.padded.bitlen = ctx.bitlen ∧ ctx.padded.blockIdx = 56 ∧
      ∃ count done, done.length = 64 * count ∧
        ctx.padded.state = Sha256.compressBlocks count Sha256.initial done ∧
        done ++ ctx.padded.filled =
          message ++ 0x80 :: List.replicate ((119 - message.length % 64) % 64) 0 := by
  obtain ⟨count, done, doneLength, split, compressed⟩ := absorbed.blocks
  have room := absorbed.room
  have fill : message.length % 64 = ctx.blockIdx := by
    rw [split, List.length_append, doneLength, length_filled (by omega)]
    omega
  have marked : (ctx.put 0x80).filled = ctx.filled ++ [0x80] := filled_put room 0x80
  have position : (ctx.put 0x80).blockIdx = ctx.blockIdx + 1 := rfl
  rw [Sha256Ctx.padded]
  by_cases crowded : 56 < (ctx.put 0x80).blockIdx
  · rw [if_pos crowded]
    obtain ⟨full, bytes⟩ := filled_putZeros (show (ctx.put 0x80).blockIdx ≤ 64 by omega)
      (Nat.le_refl 64)
    have next := flush_state doneLength full ((putZeros_keeps 64).1.trans compressed)
    have doneNext : (done ++ ((ctx.put 0x80).putZeros 64).filled).length = 64 * (count + 1) := by
      rw [List.length_append, doneLength, length_filled (Nat.le_of_eq full), full, Nat.mul_succ]
    have fresh (next : Sha256Ctx) (empty : next.blockIdx = 0) :
        (next.putZeros 56).blockIdx = 56 ∧
          (next.putZeros 56).filled = List.replicate 56 0 := by
      have zeros := filled_putZeros (show next.blockIdx ≤ 56 by omega) (by decide)
      rwa [empty, show next.filled = [] by rw [Sha256Ctx.filled, empty, List.take_zero]] at zeros
    obtain ⟨last, zeros⟩ := fresh ((ctx.put 0x80).putZeros 64).flush (by rw [Sha256Ctx.flush])
    refine ⟨?_, last, count + 1, _, doneNext, (putZeros_keeps 56).1.trans next, ?_⟩
    · rw [(putZeros_keeps 56).2, flush_bitlen, (putZeros_keeps 64).2, Sha256Ctx.put]
    · have zerosCount : (119 - message.length % 64) % 64 = 64 - (ctx.put 0x80).blockIdx + 56 := by
        omega
      rw [zeros, bytes, marked, zerosCount, List.replicate_add, split]
      simp
  · rw [if_neg crowded]
    obtain ⟨last, bytes⟩ := filled_putZeros (Nat.le_of_not_lt crowded) (by decide)
    refine ⟨(putZeros_keeps 56).2, last, count, done, doneLength,
      (putZeros_keeps 56).1.trans compressed, ?_⟩
    have zeros : (119 - message.length % 64) % 64 = 56 - (ctx.put 0x80).blockIdx := by omega
    rw [bytes, marked, zeros, split]
    simp

theorem digestBytes_eq : digestBytes = fun word => Sha256.bigEndian 4 word.toNat := by
  ext x : 1
  rw [Sha256.bigEndian_eq_map, digestBytes]
  simp only [BitVec.toNat_ushiftRight]
  rfl

/-- The end of a message is padded as in the standard, and the words are the
hash. -/
theorem final_digest (absorbed : Absorbed ctx message) (fits : message.length < 2 ^ 61) :
    (sha256Final ctx).digest = Sha256.sha256 message := by
  obtain ⟨bitlen, position, count, done, doneLength, compressed, split⟩ := padded_blocks absorbed
  have bits : ctx.padded.bitlen.toNat = 8 * message.length := by
    rw [bitlen, absorbed.bits, Nat.mod_eq_of_lt (by omega)]
  have last : (putLength ctx.padded.block ctx.padded.bitlen).toList =
      ctx.padded.filled ++ Sha256.bigEndian 8 (8 * message.length) := by
    rw [toList_putLength, bits, Sha256Ctx.filled, position]
  have padding : Sha256.pad message =
      done ++ (putLength ctx.padded.block ctx.padded.bitlen).toList := by
    rw [last, ← List.append_assoc, split, Sha256.pad, List.append_assoc, List.cons_append]
  have blocks : (Sha256.pad message).length / 64 = count + 1 := by
    rw [padding, List.length_append, doneLength, Vector.length_toList]
    omega
  have words : sha256Transform ctx.padded.state
      (putLength ctx.padded.block ctx.padded.bitlen).toList =
      Sha256.compressBlocks (count + 1) Sha256.initial (Sha256.pad message) := by
    rw [padding, Sha256.compressBlocks_snoc doneLength Vector.length_toList, ← compressed,
      sha256Transform_eq Vector.length_toList]
  rw [sha256Final, absorbed.opened, if_neg Bool.false_ne_true, Sha256.sha256, blocks, ← words,
    Sha256.State.bytes, digestBytes_eq]

theorem final_finalized (ctx : Sha256Ctx) : (sha256Final ctx).finalized = true := by
  by_cases finalized : ctx.finalized = true
  · rw [sha256Final, if_pos finalized, finalized]
  · rw [sha256Final, if_neg finalized]

/-- A finished context does not change any more. -/
theorem after_finalized (finalized : ctx.finalized = true) (calls : List Sha256Call) :
    after sha256Step ctx calls = ctx := by
  induction calls with
  | nil => rfl
  | cons call rest ih =>
      have kept : sha256Step ctx call = ctx := by
        cases call with
        | update data => rw [sha256Step, sha256Update, if_pos finalized]
        | final => rw [sha256Step, sha256Final, if_pos finalized]
      rw [after_cons, kept, ih]

theorem length_sha256 (message : List UInt8) : (Sha256.sha256 message).length = 32 := by
  rw [Sha256.sha256, Sha256.State.bytes]
  simp

/-- The comparison byte by byte. -/
theorem verify_iff (ctx : Sha256Ctx) {data : List UInt8} (fits : data.length < 2 ^ 61)
    (expectedHash : Vector UInt8 32) :
    sha256Verify ctx data expectedHash = 1 ↔ expectedHash.toList = Sha256.sha256 data := by
  have digest := final_digest (absorbed_update (absorbed_init ctx) data) fits
  rw [List.nil_append] at digest
  have bytes : (¬∃ i < 32,
      (Sha256.sha256 data).getD i 0 ≠ expectedHash.toList.getD i 0) ↔
      expectedHash.toList = Sha256.sha256 data := by
    constructor
    · intro same
      apply List.ext_getElem
      · rw [Vector.length_toList, length_sha256]
      · intro index inside insideData
        rw [Vector.length_toList] at inside
        have equal : (Sha256.sha256 data).getD index 0 = expectedHash.toList.getD index 0 := by
          by_contra differs
          exact same ⟨index, inside, differs⟩
        rw [List.getD_eq_getElem?_getD, List.getD_eq_getElem?_getD,
          List.getElem?_eq_getElem insideData, List.getElem?_eq_getElem (by simpa)] at equal
        exact equal.symm
    · rintro same ⟨index, _, differs⟩
      exact differs (by rw [same])
  rw [← bytes, sha256Verify, digest]
  simp

end Streaming

/-- Whatever the chunks, the digest is the hash of their concatenation, no
later call changes it, and the verification compares with it. -/
theorem sha256_streaming (ctx : Sha256Ctx) {chunks : List (List UInt8)}
    (fits : chunks.flatten.length < 2 ^ 61) :
    (sha256Final (chunks.foldl sha256Update (sha256Init ctx))).digest =
        Sha256.sha256 chunks.flatten ∧
      (∀ calls, (after sha256Step (sha256Final (chunks.foldl sha256Update (sha256Init ctx)))
        calls).digest = (sha256Final (chunks.foldl sha256Update (sha256Init ctx))).digest) ∧
      ∀ other expectedHash, sha256Verify other chunks.flatten expectedHash = 1 ↔
        expectedHash.toList =
          (sha256Final (chunks.foldl sha256Update (sha256Init ctx))).digest := by
  have digest := final_digest (absorbed_chunks ctx chunks) fits
  refine ⟨digest, fun calls => ?_, fun other expectedHash => ?_⟩
  · rw [after_finalized (final_finalized _)]
  · rw [digest]
    exact verify_iff other fits expectedHash

def blankSha256Ctx : Sha256Ctx := ⟨Sha256.initial, 0, .replicate 64 0, 0, [], false⟩

theorem sha256_streaming_test :
    (sha256Final ([[0x74, 0x65], [], [0x73, 0x74]].foldl sha256Update
      (sha256Init blankSha256Ctx))).digest =
        Sha256.sha256 [[0x74, 0x65], [], [0x73, 0x74]].flatten :=
  (sha256_streaming blankSha256Ctx (by decide)).1

example : (sha256Final ([[0x74, 0x65], [], [0x73, 0x74]].foldl sha256Update
    (sha256Init blankSha256Ctx))).digest.take 4 = [0x9f, 0x86, 0xd0, 0x81] := by
  decide +kernel

end Ai

end MiniIotRobotEdge

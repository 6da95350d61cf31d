import MiniIotRobotEdge.Aes128
import MiniIotRobotEdge.EdgeGcm

/-!
# The block cipher of mini-edge-security and FIPS 197

Each function of the cipher in `edge_crypto.c` computes its transformation of
the standard on the bytes of a state.
-/

namespace MiniIotRobotEdge

namespace Edge

open ByteField Aes128

section Tables

theorem gm2_eq_xtime (byte : UInt8) : gm2 byte = xtime byte := by
  have every : ∀ byte : BitVec 8, gm2 (.ofBitVec byte) = xtime (.ofBitVec byte) := by
    decide +kernel
  exact every byte.toBitVec

theorem gm3_eq (byte : UInt8) : gm3 byte = xtime byte ^^^ byte := by
  rw [gm3, gm2_eq_xtime]

/-- The entries of the table, taken back through the affine map. -/
private theorem substitute_checked :
    ∀ byte : BitVec 8,
      affine (affineBack (substitute (.ofBitVec byte))) = substitute (.ofBitVec byte) ∧
        (byte ≠ 0 → times (.ofBitVec byte) (affineBack (substitute (.ofBitVec byte))) = 1) := by
  decide +kernel

theorem substitute_eq_sBox (byte : UInt8) : substitute byte = sBox byte := by
  obtain ⟨back, product⟩ := substitute_checked byte.toBitVec
  by_cases zero : byte = 0
  · rw [zero, sBox, inverse_zero]
    decide
  · have inverted := inverse_eq_of_times (product fun equal => zero (UInt8.toBitVec_inj.mp equal))
    rw [sBox, inverted]
    exact back.symm

end Tables

section Rounds

/-- The sixteen bytes of a state. -/
def bytesOf (state : State) : Bytes := (store state).toList

theorem bytesOf_eq (state : State) :
    bytesOf state = [state.byte 0 0, state.byte 1 0, state.byte 2 0, state.byte 3 0,
      state.byte 0 1, state.byte 1 1, state.byte 2 1, state.byte 3 1,
      state.byte 0 2, state.byte 1 2, state.byte 2 2, state.byte 3 2,
      state.byte 0 3, state.byte 1 3, state.byte 2 3, state.byte 3 3] := by
  rw [bytesOf, store, Vector.toList_ofFn]
  rfl

theorem aesSb_bytesOf (state : State) : aesSb (bytesOf state) = bytesOf (subBytes state) := by
  have table : substitute = sBox := funext substitute_eq_sBox
  simp only [aesSb, bytesOf_eq, List.map_cons, List.map_nil, table, subBytes, State.byte_ofBytes]

theorem aesSr_bytesOf (state : State) : aesSr (bytesOf state) = bytesOf (shiftRows state) := by
  simp only [bytesOf_eq, shiftRows, State.byte_ofBytes]
  rfl

/-- The assignments of `aes_sr` to the state, in their order. -/
def aesSrAssigned (s : Bytes) : Bytes :=
  let t := byteAt s 1
  let s := s.set 1 (byteAt s 5)
  let s := s.set 5 (byteAt s 9)
  let s := s.set 9 (byteAt s 13)
  let s := s.set 13 t
  let t := byteAt s 2
  let s := s.set 2 (byteAt s 10)
  let s := s.set 10 t
  let t := byteAt s 6
  let s := s.set 6 (byteAt s 14)
  let s := s.set 14 t
  let t := byteAt s 3
  let s := s.set 3 (byteAt s 15)
  let s := s.set 15 (byteAt s 11)
  let s := s.set 11 (byteAt s 7)
  s.set 7 t

/-- No assignment reads a byte that an earlier one has replaced. -/
theorem aesSrAssigned_bytesOf (state : State) :
    aesSrAssigned (bytesOf state) = aesSr (bytesOf state) := by
  rw [bytesOf_eq]
  rfl

theorem mixColumn_eq (state : State) (column : Fin 4) :
    mixColumn (state.byte 0 column) (state.byte 1 column) (state.byte 2 column)
        (state.byte 3 column) =
      [(mixColumns state).byte 0 column, (mixColumns state).byte 1 column,
        (mixColumns state).byte 2 column, (mixColumns state).byte 3 column] := by
  simp [mixColumn, mixColumns, mixMatrix, one_times, two_times, three_times, gm2_eq_xtime, gm3_eq]

theorem aesMc_bytesOf (state : State) : aesMc (bytesOf state) = bytesOf (mixColumns state) := by
  have columns : aesMc (bytesOf state) =
      mixColumn (state.byte 0 0) (state.byte 1 0) (state.byte 2 0) (state.byte 3 0) ++
        (mixColumn (state.byte 0 1) (state.byte 1 1) (state.byte 2 1) (state.byte 3 1) ++
          (mixColumn (state.byte 0 2) (state.byte 1 2) (state.byte 2 2) (state.byte 3 2) ++
            mixColumn (state.byte 0 3) (state.byte 1 3) (state.byte 2 3) (state.byte 3 3))) := by
    rw [bytesOf_eq]
    rfl
  rw [columns, mixColumn_eq, mixColumn_eq, mixColumn_eq, mixColumn_eq, bytesOf_eq]
  rfl

theorem aesArk_bytesOf (state roundKey : State) :
    aesArk (bytesOf state) (bytesOf roundKey) = bytesOf (addRoundKey state roundKey) := by
  simp only [bytesOf_eq, addRoundKey, State.byte_ofBytes]
  rfl

end Rounds

section Keys

/-- The words of a round key after the first, each from the one in front of it. -/
def fromFirst (state : State) (first : Word) : State :=
  let second := xorWord state[1] first
  let third := xorWord state[2] second
  #v[first, second, third, xorWord state[3] third]

theorem toList_word (word : Word) : word.toList = [word[0], word[1], word[2], word[3]] := by
  apply List.ext_getElem
  · simp
  · intro index inside _
    have below : index < 4 := by simpa using inside
    interval_cases index <;> rfl

/-- The loop of `aes_ke128` over the bytes after the first word. -/
theorem foldl_fromFirst (state : State) (first : Word) :
    (List.range 12).foldl
        (fun c index => c ++ [byteAt (bytesOf state) (index + 4) ^^^ byteAt c index])
        first.toList =
      bytesOf (fromFirst state first) := by
  rw [toList_word, bytesOf_eq, bytesOf_eq]
  rfl

theorem nextRoundKey_eq (state : State) (rc : UInt8) :
    nextRoundKey (bytesOf state) rc =
      bytesOf (fromFirst state
        (xorWord state[0] (xorWord (subWord (rotWord state[3])) #v[rc, 0, 0, 0]))) := by
  rw [← foldl_fromFirst, nextRoundKey]
  congr 1
  rw [bytesOf_eq, toList_word]
  simp [byteAt, State.byte, xorWord, subWord, rotWord, substitute_eq_sBox, UInt8.xor_assoc]

theorem roundKey_succ (key : Vector UInt8 16) {round : Nat} (inside : round < 10) :
    roundKey key (round + 1) =
      fromFirst (roundKey key round)
        (xorWord (roundKey key round)[0]
          (xorWord (subWord (rotWord (roundKey key round)[3])) (rcon (round + 1)))) := by
  have multiple : (4 * round + 4) % 4 = 0 := by omega
  have quotient : (4 * round + 4) / 4 = round + 1 := by omega
  have first := keyWord_add_four key (4 * round) (by omega)
  have second := keyWord_add_four key (4 * round + 1) (by omega)
  have third := keyWord_add_four key (4 * round + 2) (by omega)
  have fourth := keyWord_add_four key (4 * round + 3) (by omega)
  rw [if_pos multiple, quotient] at first
  rw [if_neg (by omega)] at second third fourth
  -- The word in front of each one, under the index that the equation before it has.
  change _ = xorWord _ (keyWord key (4 * round + 4)) at second
  change _ = xorWord _ (keyWord key (4 * round + 1 + 4)) at third
  change _ = xorWord _ (keyWord key (4 * round + 2 + 4)) at fourth
  rw [first] at second
  rw [second] at third
  rw [third] at fourth
  simp only [fromFirst, roundKey, Vector.getElem_ofFn]
  apply Vector.ext
  intro column inside
  have next : 4 * (round + 1) + column = 4 * round + column + 4 := by omega
  rw [Vector.getElem_ofFn, next]
  interval_cases column
  · exact first
  · exact second
  · exact third
  · exact fourth

theorem nextRoundKey_bytesOf (key : Vector UInt8 16) {round : Nat} (inside : round < 10) :
    nextRoundKey (bytesOf (roundKey key round)) (byteAt roundConstants round) =
      bytesOf (roundKey key (round + 1)) := by
  have constants : #v[byteAt roundConstants round, 0, 0, 0] = rcon (round + 1) := by
    interval_cases round <;> rfl
  rw [nextRoundKey_eq, roundKey_succ key inside, constants]

theorem bytesOf_load (block : Vector UInt8 16) : bytesOf (load block) = block.toList := by
  apply List.ext_getElem
  · simp [bytesOf]
  · intro index inside _
    have below : index < 16 := by simpa [bytesOf] using inside
    interval_cases index <;> simp [bytesOf, store, load]

theorem roundKey_zero (key : Vector UInt8 16) : roundKey key 0 = load key := by
  apply State.ext_byte
  intro row column
  have word : (roundKey key 0)[column] = .ofFn fun row => key[4 * column.val + row.val] := by
    rw [roundKey, Fin.getElem_fin, Vector.getElem_ofFn, ← keyWord_of_lt key column.isLt]
    rw [Nat.mul_zero, Nat.zero_add]
  rw [load, State.byte_ofBytes, State.byte, word, Fin.getElem_fin, Vector.getElem_ofFn]
  simp only [Nat.add_comm]

theorem getD_aesKe128 (key : Vector UInt8 16) (round : Nat) (inside : round ≤ 10) :
    (aesKe128 key.toList).getD round [] = bytesOf (roundKey key round) := by
  induction round with
  | zero =>
    rw [roundKey_zero, bytesOf_load]
    rfl
  | succ round inductionHypothesis =>
    rw [← nextRoundKey_bytesOf key inside, ← inductionHypothesis (by omega), aesKe128]
    have bound : round < roundConstants.length := inside
    have listed : round < (roundConstants.scanl nextRoundKey key.toList).length := by
      rw [List.length_scanl]
      omega
    rw [List.getD_eq_getElem _ _ listed, List.getD_eq_getElem _ _ (by simpa using bound)]
    rw [List.getElem_succ_scanl, byteAt, List.getD_eq_getElem _ _ bound]

theorem aesKe128_eq (key : Vector UInt8 16) :
    aesKe128 key.toList = (List.range 11).map fun round => bytesOf (roundKey key round) := by
  have count : (aesKe128 key.toList).length = 11 := List.length_scanl
  apply List.ext_getElem
  · rw [count, List.length_map, List.length_range]
  · intro round inside _
    have same := getD_aesKe128 key round (by omega)
    rw [List.getD_eq_getElem _ _ inside] at same
    rw [same, List.getElem_map, List.getElem_range]

theorem bytesOf_roundKey (key : Vector UInt8 16) (round : Nat) :
    bytesOf (roundKey key round) =
      ((List.range 4).map (4 * round + ·)).flatMap fun index => (keyWord key index).toList := by
  have columns : List.range 4 = [0, 1, 2, 3] := rfl
  rw [columns, bytesOf_eq]
  simp only [List.map_cons, List.map_nil, List.flatMap_cons, List.flatMap_nil, toList_word,
    State.byte, roundKey, Fin.getElem_fin, Vector.getElem_ofFn]
  rfl

/-- The round keys are the 44 words of the key expansion. -/
theorem flatten_aesKe128 (key : Vector UInt8 16) :
    (aesKe128 key.toList).flatten =
      (List.range 44).flatMap fun index => (keyWord key index).toList := by
  have rounds : List.range 44 = (List.range 11).flatMap fun round =>
      (List.range 4).map (4 * round + ·) := rfl
  rw [rounds, List.flatMap_assoc, aesKe128_eq, ← List.flatMap_def]
  simp only [bytesOf_roundKey]

end Keys

section Cipher

/-- The rounds of `aes_enc` follow those of the standard. -/
theorem foldl_rounds (key : Vector UInt8 16) (rounds : List Nat) (state : State) :
    (rounds.map fun round => bytesOf (roundKey key (round + 1))).foldl
        (fun s roundKey => aesArk (aesMc (aesSr (aesSb s))) roundKey) (bytesOf state) =
      bytesOf (rounds.foldl
        (fun state round =>
          addRoundKey (mixColumns (shiftRows (subBytes state))) (roundKey key (round + 1)))
        state) := by
  induction rounds generalizing state with
  | nil => rfl
  | cons round rounds inductionHypothesis =>
    rw [List.map_cons, List.foldl_cons, List.foldl_cons, ← inductionHypothesis]
    rw [aesSb_bytesOf, aesSr_bytesOf, aesMc_bytesOf, aesArk_bytesOf]

theorem aesEnc_eq_encrypt (key block : Vector UInt8 16) :
    aesEnc key.toList block.toList = (encrypt key block).toList := by
  have middle : ((aesKe128 key.toList).drop 1).take 9 =
      (List.range 9).map fun round => bytesOf (roundKey key (round + 1)) := by
    rw [aesKe128_eq]
    rfl
  rw [aesEnc, middle, getD_aesKe128 key 0 (by omega), getD_aesKe128 key 10 (by omega)]
  rw [← bytesOf_load block, aesArk_bytesOf, foldl_rounds]
  rw [aesSb_bytesOf, aesSr_bytesOf, aesArk_bytesOf]
  rfl

/-- The functions of the cipher, the tables they use and the whole of it. -/
theorem aes_is_fips197 (key block : Vector UInt8 16) :
    aesEnc key.toList block.toList = (encrypt key block).toList ∧
      (aesKe128 key.toList).flatten =
        (List.range 44).flatMap (fun index => (keyWord key index).toList) ∧
      Nonempty (Field256 ≃ₐ[ZMod 2] GaloisField 2 8) ∧
      (∀ byte, ∃ inverted, element inverted = (element byte)⁻¹ ∧
        substitute byte = affine inverted) ∧
      ∀ state : State,
        aesSb (bytesOf state) = bytesOf (subBytes state) ∧
          aesSrAssigned (bytesOf state) = aesSr (bytesOf state) ∧
          aesSr (bytesOf state) = bytesOf (shiftRows state) ∧
          aesMc (bytesOf state) = bytesOf (mixColumns state) ∧
          (mixColumns state).matrix = mixMatrix.map element * state.matrix := by
  constructor
  · exact aesEnc_eq_encrypt key block
  constructor
  · exact flatten_aesKe128 key
  constructor
  · exact nonempty_galoisField
  constructor
  · intro byte
    exact ⟨inverse byte, element_inverse byte, substitute_eq_sBox byte⟩
  · intro state
    exact ⟨aesSb_bytesOf state, aesSrAssigned_bytesOf state, aesSr_bytesOf state,
      aesMc_bytesOf state, matrix_mixColumns state⟩

/-- The example of the standard. -/
example : aesEnc
    [0x2B, 0x7E, 0x15, 0x16, 0x28, 0xAE, 0xD2, 0xA6, 0xAB, 0xF7, 0x15, 0x88, 0x09, 0xCF, 0x4F, 0x3C]
    [0x32, 0x43, 0xF6, 0xA8, 0x88, 0x5A, 0x30, 0x8D, 0x31, 0x31, 0x98, 0xA2, 0xE0, 0x37, 0x07,
      0x34] =
      [0x39, 0x25, 0x84, 0x1D, 0x02, 0xDC, 0x09, 0xFB,
        0xDC, 0x11, 0x85, 0x97, 0x19, 0x6A, 0x0B, 0x32] := by
  decide +kernel

end Cipher

end Edge

end MiniIotRobotEdge

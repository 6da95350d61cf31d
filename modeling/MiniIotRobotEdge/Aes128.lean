import MiniIotRobotEdge.ByteField
import Mathlib.LinearAlgebra.Matrix.Notation

/-!
# AES-128

The cipher of FIPS 197 over the field of `ByteField`.  A state is its four
columns; the byte in row `r` of column `c` is byte `r + 4 * c` of the block.
-/

namespace MiniIotRobotEdge

namespace Aes128

open ByteField

/-- The affine map over the bits behind the inversion. -/
def affine (byte : UInt8) : UInt8 :=
  let bit (index : Nat) := byte.toBitVec.getLsbD (index % 8)
  ofBits fun index =>
    bit index ^^ bit (index + 4) ^^ bit (index + 5) ^^ bit (index + 6) ^^ bit (index + 7) ^^
      (0x63 : BitVec 8).getLsbD index

/-- The affine map behind the other table of the standard. -/
def affineBack (byte : UInt8) : UInt8 :=
  let bit (index : Nat) := byte.toBitVec.getLsbD (index % 8)
  ofBits fun index =>
    bit (index + 2) ^^ bit (index + 5) ^^ bit (index + 7) ^^ (0x05 : BitVec 8).getLsbD index

def sBox (byte : UInt8) : UInt8 := affine (inverse byte)

section Words

abbrev Word := Vector UInt8 4

def xorWord (first second : Word) : Word := .ofFn fun row => first[row] ^^^ second[row]

def rotWord (word : Word) : Word := .ofFn fun row => word[row + 1]

def subWord (word : Word) : Word := word.map sBox

/-- The round constant: a power of `x` in the first byte. -/
def rcon (round : Nat) : Word := #v[xtime^[round - 1] 1, 0, 0, 0]

end Words

section States

/-- The columns of a state. -/
abbrev State := Vector Word 4

def State.ofBytes (byte : Fin 4 → Fin 4 → UInt8) : State :=
  .ofFn fun column => .ofFn fun row => byte row column

def State.byte (state : State) (row column : Fin 4) : UInt8 := state[column][row]

@[simp]
theorem State.byte_ofBytes (byte : Fin 4 → Fin 4 → UInt8) (row column : Fin 4) :
    (State.ofBytes byte).byte row column = byte row column := by
  simp [State.ofBytes, State.byte]

theorem State.ext_byte {first second : State}
    (same : ∀ row column, first.byte row column = second.byte row column) : first = second := by
  apply Vector.ext
  intro column columnInside
  apply Vector.ext
  intro row rowInside
  exact same ⟨row, rowInside⟩ ⟨column, columnInside⟩

def subBytes (state : State) : State := .ofBytes fun row column => sBox (state.byte row column)

/-- Row `r` is rotated by `r` places. -/
def shiftRows (state : State) : State := .ofBytes fun row column => state.byte row (column + row)

def mixMatrix : Matrix (Fin 4) (Fin 4) UInt8 :=
  !![2, 3, 1, 1;
    1, 2, 3, 1;
    1, 1, 2, 3;
    3, 1, 1, 2]

def mixColumns (state : State) : State :=
  .ofBytes fun row column =>
    times (mixMatrix row 0) (state.byte 0 column) ^^^
      times (mixMatrix row 1) (state.byte 1 column) ^^^
      times (mixMatrix row 2) (state.byte 2 column) ^^^
      times (mixMatrix row 3) (state.byte 3 column)

def addRoundKey (state roundKey : State) : State :=
  .ofBytes fun row column => state.byte row column ^^^ roundKey.byte row column

/-- The state as a matrix over the field. -/
noncomputable def State.matrix (state : State) : Matrix (Fin 4) (Fin 4) Field256 :=
  .of fun row column => element (state.byte row column)

theorem matrix_mixColumns (state : State) :
    (mixColumns state).matrix = mixMatrix.map element * state.matrix := by
  ext row column
  simp [State.matrix, mixColumns, Matrix.mul_apply, Fin.sum_univ_four]

end States

section KeyExpansion

def wordAt (words : List Word) (index : Nat) : Word := words.getD index (.replicate 4 0)

/-- The word `w[index]` from the words in front of it. -/
def nextWord (words : List Word) (index : Nat) : Word :=
  let previous := wordAt words (index - 1)
  let added := if index % 4 = 0 then xorWord (subWord (rotWord previous)) (rcon (index / 4))
    else previous
  xorWord (wordAt words (index - 4)) added

/-- The four words of the key and `count` words behind them. -/
def expand (key : Vector UInt8 16) : Nat → List Word
  | 0 => List.ofFn fun index : Fin 4 => .ofFn fun row => key[4 * index.val + row.val]
  | count + 1 => expand key count ++ [nextWord (expand key count) (count + 4)]

/-- The word `w[index]` of the 44 words. -/
@[irreducible]
def keyWord (key : Vector UInt8 16) (index : Nat) : Word := wordAt (expand key 40) index

variable (key : Vector UInt8 16)

@[simp]
theorem length_expand (count : Nat) : (expand key count).length = count + 4 := by
  induction count with
  | zero => simp [expand]
  | succ count inductionHypothesis =>
    rw [expand, List.length_append, inductionHypothesis, List.length_singleton]

/-- A word stays when others are put behind it. -/
theorem wordAt_expand (count : Nat) {later index : Nat} (inside : index < count + 4)
    (ordered : count ≤ later) :
    wordAt (expand key later) index = wordAt (expand key count) index := by
  induction later, ordered using Nat.le_induction with
  | base => rfl
  | succ later ordered inductionHypothesis =>
    rw [← inductionHypothesis, expand, wordAt, wordAt, List.getD_append]
    rw [length_expand]
    omega

theorem keyWord_of_lt {index : Nat} (inside : index < 4) :
    keyWord key index = .ofFn fun row => key[4 * index + row.val] := by
  rw [keyWord, wordAt_expand key 0 inside (Nat.zero_le 40), expand, wordAt]
  rw [List.getD_eq_getElem _ _ (by simpa using inside), List.getElem_ofFn]

/-- The recurrence of the key expansion. -/
theorem keyWord_add_four (index : Nat) (inside : index < 40) :
    keyWord key (index + 4) = xorWord (keyWord key index)
      (if (index + 4) % 4 = 0 then
        xorWord (subWord (rotWord (keyWord key (index + 3)))) (rcon ((index + 4) / 4))
      else keyWord key (index + 3)) := by
  have kept (earlier : Nat) (before : earlier < index + 4) :
      keyWord key earlier = wordAt (expand key index) earlier := by
    rw [keyWord, wordAt_expand key index before (by omega)]
  rw [keyWord, wordAt_expand key (index + 1) (by omega) (by omega), expand]
  rw [wordAt, List.getD_append_right _ _ _ _ (by simp), length_expand, Nat.sub_self]
  rw [kept index (by omega), kept (index + 3) (by omega)]
  rfl

end KeyExpansion

section Cipher

def load (block : Vector UInt8 16) : State :=
  .ofBytes fun row column => block[row.val + 4 * column.val]

def store (state : State) : Vector UInt8 16 :=
  .ofFn fun index => state.byte (.ofNat 4 index) (.ofNat 4 (index / 4))

def roundKey (key : Vector UInt8 16) (round : Nat) : State :=
  .ofFn fun column => keyWord key (4 * round + column)

def cipher (key : Vector UInt8 16) (state : State) : State :=
  let inner := (List.range 9).foldl
    (fun state round =>
      addRoundKey (mixColumns (shiftRows (subBytes state))) (roundKey key (round + 1)))
    (addRoundKey state (roundKey key 0))
  addRoundKey (shiftRows (subBytes inner)) (roundKey key 10)

def encrypt (key block : Vector UInt8 16) : Vector UInt8 16 := store (cipher key (load block))

end Cipher

end Aes128

end MiniIotRobotEdge

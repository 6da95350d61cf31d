import MiniIotRobotEdge.Crc32
import MiniIotRobotEdge.XorRegister

/-!
# The CRC unit of mini-mcu-embedded

The model of the CRC functions in `mcu_peripheral.c`.  The register is shifted
upwards, so a word is taken in with its highest byte first.  The shift step is
linear, and a byte below the highest one is only moved until its turn comes;
whole words and their bytes therefore lead to the same register.
-/

namespace MiniIotRobotEdge

namespace Mcu

open XorRegister

/-- The static variables of the unit. -/
structure CrcUnit where
  crcResult : BitVec 32
  crcPolynomial : BitVec 32
  deriving DecidableEq, Repr

/-- One turn of the inner loops. -/
def crcShift (polynomial crc : BitVec 32) : BitVec 32 :=
  if crc.getLsbD 31 then (crc <<< 1) ^^^ polynomial else crc <<< 1

def crcInit : CrcUnit := ⟨0xFFFFFFFF#32, 0x04C11DB7#32⟩

/-- A word or a byte, combined with the register before its shifts. -/
def crcWord (polynomial crc word : BitVec 32) : BitVec 32 :=
  (crcShift polynomial)^[32] (crc ^^^ word)

def crcByte (polynomial crc : BitVec 32) (byte : UInt8) : BitVec 32 :=
  (crcShift polynomial)^[8] (crc ^^^ (byte.toBitVec.setWidth 32 <<< (24 : Nat)))

/-- What a calculation leaves, and what it returns. -/
def CrcUnit.calculated (unit : CrcUnit) (result : BitVec 32) : CrcUnit × BitVec 32 :=
  ({ unit with crcResult := result }, result)

/-- The calculation over `size` words; there are none behind a null pointer. -/
def crcCalculate (unit : CrcUnit) (data : Option (List (BitVec 32))) (sizeWords : UInt32) :
    CrcUnit × BitVec 32 :=
  match data with
  | none => (unit, 0)
  | some words =>
      unit.calculated ((words.take sizeWords.toNat).foldl (crcWord unit.crcPolynomial) 0xFFFFFFFF#32)

def crcCalculateByte (unit : CrcUnit) (data : Option (List UInt8)) (sizeBytes : UInt32) :
    CrcUnit × BitVec 32 :=
  match data with
  | none => (unit, 0)
  | some bytes =>
      unit.calculated ((bytes.take sizeBytes.toNat).foldl (crcByte unit.crcPolynomial) 0xFFFFFFFF#32)

def crcGetResult (unit : CrcUnit) : BitVec 32 := unit.crcResult

def crcSetPolynomial (unit : CrcUnit) (polynomial : BitVec 32) : CrcUnit :=
  { unit with crcPolynomial := polynomial }

/-- The bytes of a word, the highest first. -/
def bytesFromTop (word : BitVec 32) : List UInt8 := (Crc32.wordBytes word).reverse

section Steps

variable {polynomial : BitVec 32}

theorem linear_crcShift : Linear (crcShift polynomial) := by
  intro left right
  unfold crcShift
  rw [BitVec.getLsbD_xor, BitVec.shiftLeft_xor_distrib]
  cases left.getLsbD 31 <;> cases right.getLsbD 31 <;>
    simp only [Bool.xor_self, Bool.xor_true, Bool.xor_false, Bool.not_false, Bool.false_eq_true,
      if_true, if_false]
  · ac_rfl
  · ac_rfl
  · rw [BitVec.xor_comm (right <<< 1), BitVec.xor_assoc, ← BitVec.xor_assoc polynomial,
      BitVec.xor_self, BitVec.zero_xor]

/-- A word whose highest bits are clear is only shifted. -/
theorem crcShift_iterate_clear (count : Nat) {word : BitVec 32}
    (clear : ∀ index, 32 - count ≤ index → word.getLsbD index = false) (bound : count ≤ 32) :
    (crcShift polynomial)^[count] word = word <<< count := by
  induction count with
  | zero => rw [Function.iterate_zero, BitVec.shiftLeft_zero, id]
  | succ count ih =>
      have before := ih (fun index above => clear index (by omega)) (by omega)
      have top : (word <<< count).getLsbD 31 = false := by
        rw [BitVec.getLsbD_shiftLeft, clear (31 - count) (by omega), Bool.and_false]
      rw [Function.iterate_succ_apply', before, crcShift, top, if_neg Bool.false_ne_true,
        BitVec.shiftLeft_add]

/-- A byte may be taken in early, as far below the top as there are steps to go. -/
theorem crcShift_xor_byte (count place : Nat) (crc : BitVec 32) (byte : BitVec 8)
    (below : place + count = 24) :
    (crcShift polynomial)^[count] crc ^^^ (byte.setWidth 32 <<< 24) =
      (crcShift polynomial)^[count] (crc ^^^ (byte.setWidth 32 <<< place)) := by
  have clear : ∀ index, 32 - count ≤ index →
      (byte.setWidth 32 <<< place).getLsbD index = false := by
    intro index above
    rw [BitVec.getLsbD_shiftLeft, BitVec.getLsbD_setWidth,
      BitVec.getLsbD_of_ge byte _ (by omega), Bool.and_false, Bool.and_false]
  rw [linear_crcShift.iterate count, crcShift_iterate_clear count clear (by omega),
    ← BitVec.shiftLeft_add, below]

/-- Four bytes are taken in at once when each stands in its place. -/
theorem crcShift_four_bytes (crc : BitVec 32) (top second third low : BitVec 8) :
    (crcShift polynomial)^[8] ((crcShift polynomial)^[8] ((crcShift polynomial)^[8]
      ((crcShift polynomial)^[8] (crc ^^^ (top.setWidth 32 <<< 24)) ^^^
        (second.setWidth 32 <<< 24)) ^^^ (third.setWidth 32 <<< 24)) ^^^
        (low.setWidth 32 <<< 24)) =
      (crcShift polynomial)^[32] (crc ^^^ (top.setWidth 32 <<< 24) ^^^
        (second.setWidth 32 <<< 16) ^^^ (third.setWidth 32 <<< 8) ^^^ low.setWidth 32) := by
  rw [crcShift_xor_byte 8 16 _ second rfl, ← Function.iterate_add_apply _ 8 8,
    crcShift_xor_byte (8 + 8) 8 _ third rfl, ← Function.iterate_add_apply _ 8 (8 + 8),
    crcShift_xor_byte (8 + (8 + 8)) 0 _ low rfl, ← Function.iterate_add_apply _ 8 (8 + (8 + 8)),
    BitVec.shiftLeft_zero]

/-- The bytes of a word act like the word. -/
theorem foldl_bytesFromTop (crc word : BitVec 32) :
    (bytesFromTop word).foldl (crcByte polynomial) crc = crcWord polynomial crc word := by
  have bytes : bytesFromTop word = [⟨(word >>> 24).setWidth 8⟩, ⟨(word >>> 16).setWidth 8⟩,
    ⟨(word >>> 8).setWidth 8⟩, ⟨word.setWidth 8⟩] := rfl
  have join : crc ^^^ (((word >>> 24).setWidth 8).setWidth 32 <<< 24) ^^^
      (((word >>> 16).setWidth 8).setWidth 32 <<< 16) ^^^
      (((word >>> 8).setWidth 8).setWidth 32 <<< 8) ^^^ (word.setWidth 8).setWidth 32 =
      crc ^^^ word := by
    have reversed : ∀ first second third fourth : BitVec 32,
        crc ^^^ fourth ^^^ third ^^^ second ^^^ first =
          crc ^^^ (first ^^^ second ^^^ third ^^^ fourth) := by
      intros
      ac_rfl
    rw [reversed, Crc32.wordBytes_join]
  rw [bytes, List.foldl_cons, List.foldl_cons, List.foldl_cons, List.foldl_cons, List.foldl_nil,
    crcByte, crcByte, crcByte, crcByte, crcWord, ← join]
  exact crcShift_four_bytes crc _ _ _ _

/-- The bytes of all words, one word after the other. -/
theorem foldl_flatMap_bytesFromTop (words : List (BitVec 32)) (crc : BitVec 32) :
    (words.flatMap bytesFromTop).foldl (crcByte polynomial) crc =
      words.foldl (crcWord polynomial) crc := by
  induction words generalizing crc with
  | nil => rfl
  | cons word words ih =>
      rw [List.flatMap_cons, List.foldl_append, foldl_bytesFromTop, List.foldl_cons, ih]

end Steps

theorem length_flatMap_bytesFromTop (words : List (BitVec 32)) :
    (words.flatMap bytesFromTop).length = 4 * words.length := by
  induction words with
  | nil => rfl
  | cons word words ih =>
      rw [List.flatMap_cons, List.length_append, ih, List.length_cons]
      simp only [bytesFromTop, Crc32.wordBytes, List.length_reverse, List.length_cons,
        List.length_nil]
      omega

/-- Under any polynomial, words and their bytes give the same value and leave the
same result. -/
theorem crcCalculate_eq_bytes (unit : CrcUnit) (polynomial : BitVec 32)
    (words : List (BitVec 32)) (bound : words.length < 2 ^ 30) :
    let unit := crcSetPolynomial unit polynomial
    let byWords := crcCalculate unit (some words) (.ofNat words.length)
    let byBytes := crcCalculateByte unit (some (words.flatMap bytesFromTop))
      (.ofNat (4 * words.length))
    byWords.2 = byBytes.2 ∧ crcGetResult byWords.1 = crcGetResult byBytes.1 := by
  have sizeWords : (UInt32.ofNat words.length).toNat = words.length :=
    UInt32.toNat_ofNat_of_lt' (bound.trans (by decide))
  have sizeBytes : (UInt32.ofNat (4 * words.length)).toNat = 4 * words.length :=
    UInt32.toNat_ofNat_of_lt' (show 4 * words.length < 2 ^ 32 by omega)
  have allBytes : (words.flatMap bytesFromTop).take (4 * words.length) =
      words.flatMap bytesFromTop :=
    List.take_of_length_le (length_flatMap_bytesFromTop words).le
  simp only [crcCalculate, crcCalculateByte, sizeWords, sizeBytes, List.take_length, allBytes,
    foldl_flatMap_bytesFromTop, and_self]

theorem crcCalculate_eq_bytes_two :
    (crcCalculate crcInit (some [0x12345678#32, 0x9ABCDEF0#32]) 2).2 =
      (crcCalculateByte crcInit
        (some ([0x12345678#32, 0x9ABCDEF0#32].flatMap bytesFromTop)) 8).2 :=
  (crcCalculate_eq_bytes crcInit 0x04C11DB7#32 [0x12345678#32, 0x9ABCDEF0#32] (by decide)).1

end Mcu

end MiniIotRobotEdge

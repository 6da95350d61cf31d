import Mathlib.Data.BitVec
import Mathlib.Data.UInt
import Mathlib.Logic.Function.Basic

/-!
# The reflected CRC-32

The bitwise algorithm with polynomial `0xEDB88320`.  One bit step is
injective, because the polynomial has its top bit set, and four bytes together
act like one 32-bit word.  A checksum is therefore an injective function of
any four consecutive bytes of the message.
-/

namespace MiniIotRobotEdge

namespace Crc32

def polynomial : BitVec 32 := 0xEDB88320#32

/-- One round of the inner loop. -/
def bitStep (crc : BitVec 32) : BitVec 32 :=
  if crc.getLsbD 0 then (crc >>> 1) ^^^ polynomial else crc >>> 1

def bitSteps : Nat → BitVec 32 → BitVec 32
  | 0, crc => crc
  | count + 1, crc => bitSteps count (bitStep crc)

/-- One byte of the message. -/
def byteStep (crc : BitVec 32) (byte : UInt8) : BitVec 32 :=
  bitSteps 8 (crc ^^^ byte.toBitVec.setWidth 32)

def absorb (crc : BitVec 32) (message : List UInt8) : BitVec 32 :=
  message.foldl byteStep crc

def crc32 (message : List UInt8) : BitVec 32 :=
  absorb 0xFFFFFFFF#32 message ^^^ 0xFFFFFFFF#32

/-- The bytes of a word, the lowest first. -/
def wordBytes (word : BitVec 32) : List UInt8 :=
  [⟨word.setWidth 8⟩, ⟨(word >>> 8).setWidth 8⟩, ⟨(word >>> 16).setWidth 8⟩,
    ⟨(word >>> 24).setWidth 8⟩]

example : crc32 [0x31, 0x32, 0x33, 0x34, 0x35, 0x36, 0x37, 0x38, 0x39] = 0xCBF43926#32 := by
  decide +kernel

theorem absorb_append (crc : BitVec 32) (front back : List UInt8) :
    absorb crc (front ++ back) = absorb (absorb crc front) back :=
  List.foldl_append

/-- The checksum in pieces of `size` bytes with the value behind each piece. -/
def absorbVia (size : Nat) : List (BitVec 32) → BitVec 32 → List UInt8 → Option (BitVec 32)
  | [], crc, message => some (absorb crc message)
  | value :: values, crc, message =>
      if absorb crc (message.take size) = value then
        absorbVia size values value (message.drop size)
      else none

/-- Computing in pieces needs a stack for one piece only. -/
theorem absorb_eq_of_absorbVia (size : Nat) (values : List (BitVec 32)) {crc result : BitVec 32}
    {message : List UInt8} (computed : absorbVia size values crc message = some result) :
    absorb crc message = result := by
  induction values generalizing crc message with
  | nil => exact Option.some.inj computed
  | cons value values ih =>
      rw [absorbVia] at computed
      split at computed
      case isFalse => simp at computed
      case isTrue fits =>
        rw [← List.take_append_drop size message, absorb_append, fits]
        exact ih computed

/-- The top bit of the result is the bit that was shifted out. -/
theorem bitStep_top (crc : BitVec 32) : (bitStep crc).getLsbD 31 = crc.getLsbD 0 := by
  unfold bitStep
  split
  case isTrue odd =>
    rw [odd, BitVec.getLsbD_xor, BitVec.getLsbD_ushiftRight, BitVec.getLsbD_of_ge _ _ (by decide)]
    rfl
  case isFalse even =>
    rw [BitVec.getLsbD_ushiftRight, BitVec.getLsbD_of_ge _ _ (by decide)]
    simpa using even

theorem bitStep_injective : Function.Injective bitStep := by
  intro first second same
  have sameLow : first.getLsbD 0 = second.getLsbD 0 := by
    rw [← bitStep_top, ← bitStep_top, same]
  have sameHigh : first >>> 1 = second >>> 1 := by
    unfold bitStep at same
    rw [sameLow] at same
    split at same
    · exact (BitVec.xor_left_inj polynomial).mp same
    · exact same
  apply BitVec.eq_of_getLsbD_eq
  intro index inside
  cases index with
  | zero => exact sameLow
  | succ index =>
      have bit := congrArg (fun word => word.getLsbD index) sameHigh
      simpa [BitVec.getLsbD_ushiftRight, Nat.add_comm 1] using bit

theorem bitSteps_injective (count : Nat) : Function.Injective (bitSteps count) := by
  induction count with
  | zero => exact fun _ _ same => same
  | succ count ih => exact fun _ _ same => bitStep_injective (ih same)

theorem bitSteps_add (first second : Nat) (crc : BitVec 32) :
    bitSteps (first + second) crc = bitSteps second (bitSteps first crc) := by
  induction first generalizing crc with
  | zero => rw [Nat.zero_add, bitSteps]
  | succ first ih => rw [Nat.succ_add, bitSteps, bitSteps, ih]

/-- A message absorbs the state injectively. -/
theorem absorb_injective (message : List UInt8) :
    Function.Injective fun crc => absorb crc message := by
  induction message with
  | nil => exact fun _ _ same => same
  | cons byte message ih =>
      intro first second same
      have stepped : byteStep first byte = byteStep second byte := ih same
      exact (BitVec.xor_left_inj _).mp (bitSteps_injective 8 stepped)

/-- Bits above the lowest one are only shifted. -/
theorem bitStep_xor_shiftLeft (crc : BitVec 32) {high : BitVec 32}
    (room : high.getLsbD 31 = false) :
    bitStep (crc ^^^ (high <<< 1)) = bitStep crc ^^^ high := by
  have low : (crc ^^^ (high <<< 1)).getLsbD 0 = crc.getLsbD 0 := by simp
  have shifted : (high <<< 1) >>> 1 = high := by
    apply BitVec.eq_of_getLsbD_eq
    intro index inside
    rw [BitVec.getLsbD_ushiftRight, BitVec.getLsbD_shiftLeft, Nat.add_sub_cancel_left]
    by_cases top : index = 31
    · rw [top, room, Bool.and_false]
    · have below : 1 + index < 32 := by omega
      simp [below]
  unfold bitStep
  rw [low, BitVec.ushiftRight_xor_distrib, shifted]
  split
  · rw [BitVec.xor_assoc, BitVec.xor_assoc, BitVec.xor_comm high]
  · rfl

theorem bitSteps_xor_shiftLeft (count : Nat) (crc : BitVec 32) {high : BitVec 32}
    (room : ∀ index, 32 - count ≤ index → high.getLsbD index = false) (bound : count ≤ 32) :
    bitSteps count (crc ^^^ (high <<< count)) = bitSteps count crc ^^^ high := by
  induction count generalizing crc with
  | zero => rw [BitVec.shiftLeft_zero, bitSteps, bitSteps]
  | succ count ih =>
      have topClear : (high <<< count).getLsbD 31 = false := by
        rw [BitVec.getLsbD_shiftLeft, room (31 - count) (by omega), Bool.and_false]
      rw [BitVec.shiftLeft_add, bitSteps, bitStep_xor_shiftLeft crc topClear, bitSteps,
        ih (bitStep crc) (fun index above => room index (by omega)) (by omega)]

/-- One byte by the table of the 256 low bytes. -/
theorem byteStep_eq_table (crc : BitVec 32) (byte : UInt8) :
    byteStep crc byte =
      bitSteps 8 ((crc ^^^ byte.toBitVec.setWidth 32) &&& 0xFF#32) ^^^ (crc >>> 8) := by
  have mask : ∀ index < 32, (0xFF#32).getLsbD index = decide (index < 8) := by decide
  have split : crc ^^^ byte.toBitVec.setWidth 32 =
      (crc ^^^ byte.toBitVec.setWidth 32) &&& 0xFF#32 ^^^ ((crc >>> 8) <<< 8) := by
    apply BitVec.eq_of_getLsbD_eq
    intro index inside
    simp only [BitVec.getLsbD_xor, BitVec.getLsbD_and, BitVec.getLsbD_shiftLeft,
      BitVec.getLsbD_ushiftRight, BitVec.getLsbD_setWidth, mask index inside]
    by_cases low : index < 8
    · simp [low]
    · have position : 8 + (index - 8) = index := by omega
      have above : byte.toBitVec.getLsbD index = false :=
        BitVec.getLsbD_of_ge _ _ (by omega)
      simp [low, inside, position, above]
  have room : ∀ index, 32 - 8 ≤ index → (crc >>> 8).getLsbD index = false := by
    intro index above
    rw [BitVec.getLsbD_ushiftRight, BitVec.getLsbD_of_ge _ _ (by omega)]
  unfold byteStep
  conv_lhs => rw [split]
  exact bitSteps_xor_shiftLeft 8 _ room (by decide)

theorem bitSteps_xor_byte (count : Nat) (crc : BitVec 32) (byte : BitVec 8)
    (bound : count ≤ 24) :
    bitSteps count crc ^^^ byte.setWidth 32 =
      bitSteps count (crc ^^^ (byte.setWidth 32 <<< count)) := by
  refine (bitSteps_xor_shiftLeft count crc (fun index above => ?_) (by omega)).symm
  rw [BitVec.getLsbD_setWidth, BitVec.getLsbD_of_ge _ _ (by omega), Bool.and_false]

/-- The bytes of a word, put back in their places. -/
theorem wordBytes_join (word : BitVec 32) :
    (word.setWidth 8).setWidth 32 ^^^ (((word >>> 8).setWidth 8).setWidth 32 <<< 8) ^^^
      (((word >>> 16).setWidth 8).setWidth 32 <<< 16) ^^^
      (((word >>> 24).setWidth 8).setWidth 32 <<< 24) = word := by
  apply BitVec.eq_of_getLsbD_eq
  intro index inside
  simp only [BitVec.getLsbD_xor, BitVec.getLsbD_shiftLeft, BitVec.getLsbD_setWidth,
    BitVec.getLsbD_ushiftRight]
  have place : index < 8 ∨ (8 ≤ index ∧ index < 16) ∨ (16 ≤ index ∧ index < 24) ∨
      (24 ≤ index ∧ index < 32) := by omega
  rcases place with first | ⟨lower, upper⟩ | ⟨lower, upper⟩ | ⟨lower, upper⟩
  · have low : index < 16 ∧ index < 24 := by omega
    simp [inside, first, low]
  · have low : ¬index < 8 ∧ index < 24 ∧ index - 8 < 32 ∧ index - 8 < 8 := by omega
    have position : 8 + (index - 8) = index := by omega
    simp [inside, upper, low, position]
  · have low : ¬index < 8 ∧ ¬index < 16 ∧ index - 16 < 32 ∧ index - 16 < 8 ∧
        ¬index - 8 < 8 := by omega
    have position : 16 + (index - 16) = index := by omega
    simp [inside, upper, low, position]
  · have low : ¬index < 8 ∧ ¬index < 16 ∧ ¬index < 24 ∧ index - 24 < 32 ∧ index - 24 < 8 ∧
        ¬index - 8 < 8 ∧ ¬index - 16 < 8 := by omega
    have position : 24 + (index - 24) = index := by omega
    simp [inside, low, position]

/-- Four bytes act like one word. -/
theorem absorb_wordBytes (crc word : BitVec 32) :
    absorb crc (wordBytes word) = bitSteps 32 (crc ^^^ word) := by
  have third : ∀ state, bitSteps 8 (bitSteps 8 state) = bitSteps 16 state :=
    fun state => (bitSteps_add 8 8 state).symm
  have fourth : ∀ state, bitSteps 8 (bitSteps 16 state) = bitSteps 24 state :=
    fun state => (bitSteps_add 16 8 state).symm
  have last : ∀ state, bitSteps 8 (bitSteps 24 state) = bitSteps 32 state :=
    fun state => (bitSteps_add 24 8 state).symm
  unfold absorb wordBytes
  simp only [List.foldl_cons, List.foldl_nil, byteStep]
  rw [bitSteps_xor_byte 8 _ ((word >>> 8).setWidth 8) (by decide), third,
    bitSteps_xor_byte 16 _ ((word >>> 16).setWidth 8) (by decide), fourth,
    bitSteps_xor_byte 24 _ ((word >>> 24).setWidth 8) (by decide), last]
  congr 1
  conv_rhs => rw [← wordBytes_join word]
  simp only [BitVec.xor_assoc]

/-- A checksum determines every four consecutive bytes of the message, given
the other ones. -/
theorem crc32_word_injective (front back : List UInt8) :
    Function.Injective fun word => crc32 (front ++ wordBytes word ++ back) := by
  intro first second same
  have absorbed := (BitVec.xor_left_inj _).mp same
  rw [absorb_append, absorb_append, absorb_append, absorb_append, absorb_wordBytes,
    absorb_wordBytes] at absorbed
  have stepped := bitSteps_injective 32 (absorb_injective back absorbed)
  exact (BitVec.xor_right_inj _).mp stepped

end Crc32

end MiniIotRobotEdge

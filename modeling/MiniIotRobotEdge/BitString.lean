import Mathlib.Data.BitVec
import Mathlib.Data.List.GetD
import Mathlib.Data.List.Induction

/-!
# Strings of bits in words

Bits are shifted into a word one by one, so that the first one ends up highest.
As long as the string fits, its front and its end can be cut out of the word by
a shift and a mask.
-/

namespace MiniIotRobotEdge

namespace BitString

variable {width : Nat}

/-- Shift one bit into a word. -/
def push (word : BitVec width) (bit : Bool) : BitVec width :=
  (word <<< 1) ||| BitVec.ofNat width bit.toNat

/-- The word that holds a string of bits. -/
def word (width : Nat) (bits : List Bool) : BitVec width := bits.foldl push 0

/-- The word whose lowest bits are set. -/
def mask (width count : Nat) : BitVec width := BitVec.ofNat width (2 ^ count - 1)

theorem word_append_singleton (bits : List Bool) (bit : Bool) :
    word width (bits ++ [bit]) = push (word width bits) bit := by
  rw [word, List.foldl_append, List.foldl_cons, List.foldl_nil, ← word]

theorem getLsbD_push (word : BitVec width) (bit : Bool) {index : Nat} (inside : index < width) :
    (push word bit).getLsbD index = if index = 0 then bit else word.getLsbD (index - 1) := by
  rw [push, BitVec.getLsbD_or, BitVec.getLsbD_shiftLeft, BitVec.getLsbD_ofNat]
  cases index with
  | zero => cases bit <;> simp [inside]
  | succ index => cases bit <;> simp [inside, Nat.testBit_succ]

/-- The bits of the word are those of the string, from its end. -/
theorem getLsbD_word (bits : List Bool) {index : Nat} (inside : index < width) :
    (word width bits).getLsbD index = bits.reverse.getD index false := by
  induction bits using List.reverseRecOn generalizing index with
  | nil => simp [word]
  | append_singleton bits bit ih =>
      rw [word_append_singleton, getLsbD_push _ _ inside, List.reverse_append]
      cases index with
      | zero => rfl
      | succ index =>
          rw [if_neg (Nat.succ_ne_zero index), Nat.add_sub_cancel, ih (by omega)]
          rfl

theorem getLsbD_mask (count : Nat) {index : Nat} (inside : index < width) :
    (mask width count).getLsbD index = decide (index < count) := by
  rw [mask, BitVec.getLsbD_ofNat, Nat.testBit_two_pow_sub_one]
  simp [inside]

/-- Strings of one length that fit are told apart by their words. -/
theorem word_injective {first second : List Bool} (lengths : first.length = second.length)
    (fits : first.length ≤ width) (words : word width first = word width second) :
    first = second := by
  apply List.reverse_injective
  apply List.ext_getElem
  · simpa using lengths
  · intro index inside insideSecond
    rw [List.length_reverse] at inside
    have bits := congrArg (·.getLsbD index) words
    simp only [getLsbD_word _ (show index < width by omega), List.getD_eq_getElem?_getD] at bits
    rwa [List.getElem?_eq_getElem (by simpa using inside),
      List.getElem?_eq_getElem insideSecond] at bits

/-- The front of a string, cut out of its word. -/
theorem shifted_mask (front back : List Bool) (fits : (front ++ back).length ≤ width) :
    (word width (front ++ back) >>> back.length) &&& mask width front.length =
      word width front := by
  rw [List.length_append] at fits
  apply BitVec.eq_of_getLsbD_eq
  intro index inside
  rw [BitVec.getLsbD_and, BitVec.getLsbD_ushiftRight, getLsbD_mask _ inside,
    getLsbD_word _ inside]
  by_cases inFront : index < front.length
  · rw [getLsbD_word _ (by omega), List.reverse_append, List.getD_append_right _ _ _ _ (by simp),
      List.length_reverse, Nat.add_sub_cancel_left]
    simp [inFront]
  · rw [List.getD_eq_default _ _ (by simpa using inFront)]
    simp [inFront]

/-- The end of a string, cut out of its word. -/
theorem masked (front back : List Bool) :
    word width (front ++ back) &&& mask width back.length = word width back := by
  apply BitVec.eq_of_getLsbD_eq
  intro index inside
  rw [BitVec.getLsbD_and, getLsbD_mask _ inside, getLsbD_word _ inside, getLsbD_word _ inside]
  by_cases inBack : index < back.length
  · rw [List.reverse_append, List.getD_append _ _ _ _ (by simpa using inBack)]
    simp [inBack]
  · rw [List.getD_eq_default back.reverse _ (by simpa using inBack)]
    simp [inBack]

end BitString

end MiniIotRobotEdge

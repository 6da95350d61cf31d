import Mathlib.Data.BitVec
import Mathlib.Logic.Function.Iterate

/-!
# Registers that are linear in exclusive or

A register takes in one word after the other: each word is combined with the contents by
exclusive or, and the result goes through a step.  When the step is linear, the last contents
are a sum of what each word contributes alone, by its distance from the end.  Two linear
registers agree on an input exactly when the differences of these contributions cancel.
-/

namespace MiniIotRobotEdge

namespace XorRegister

variable {width : Nat} {step first second : BitVec width → BitVec width}

def Linear (step : BitVec width → BitVec width) : Prop :=
  ∀ left right, step (left ^^^ right) = step left ^^^ step right

/-- The contents after all words. -/
def feed (step : BitVec width → BitVec width) (contents : BitVec width)
    (words : List (BitVec width)) : BitVec width :=
  words.foldl (fun contents word => step (contents ^^^ word)) contents

/-- What the words contribute to the last contents. -/
def contribution (step : BitVec width → BitVec width) : List (BitVec width) → BitVec width
  | [] => 0
  | word :: words => step^[words.length + 1] word ^^^ contribution step words

/-- How differently two registers treat a word that is `count` steps away from the end. -/
def gap (first second : BitVec width → BitVec width) (count : Nat) (word : BitVec width) :
    BitVec width :=
  first^[count] word ^^^ second^[count] word

/-- The gaps of all words together. -/
def gaps (first second : BitVec width → BitVec width) : List (BitVec width) → BitVec width
  | [] => 0
  | word :: words => gap first second (words.length + 1) word ^^^ gaps first second words

theorem Linear.comp (linear : Linear first) (linear' : Linear second) :
    Linear (first ∘ second) := by
  intro left right
  rw [Function.comp, linear', linear]
  rfl

theorem Linear.iterate (linear : Linear step) (count : Nat) : Linear step^[count] := by
  induction count with
  | zero => exact fun _ _ => rfl
  | succ count ih =>
      rw [Function.iterate_succ]
      exact ih.comp linear

/-- The contents after all words are what the start and every word contribute alone. -/
theorem Linear.feed_eq (linear : Linear step) (contents : BitVec width)
    (words : List (BitVec width)) :
    feed step contents words = step^[words.length] contents ^^^ contribution step words := by
  induction words generalizing contents with
  | nil => exact (BitVec.xor_zero).symm
  | cons word words ih =>
      change feed step (step (contents ^^^ word)) words = _
      rw [ih, linear, linear.iterate, contribution, List.length_cons, BitVec.xor_assoc]
      rfl

theorem contribution_xor (words : List (BitVec width)) :
    contribution first words ^^^ contribution second words = gaps first second words := by
  induction words with
  | nil => exact BitVec.xor_self
  | cons word words ih =>
      rw [contribution, contribution, gaps, gap, ← ih]
      ac_rfl

/-- Two linear registers agree exactly when the gaps cancel. -/
theorem feed_eq_iff (linear : Linear first) (linear' : Linear second)
    (contents : BitVec width) (words : List (BitVec width)) :
    feed first contents words = feed second contents words ↔
      gap first second words.length contents ^^^ gaps first second words = 0 := by
  have sum : feed first contents words ^^^ feed second contents words =
      gap first second words.length contents ^^^ gaps first second words := by
    rw [linear.feed_eq, linear'.feed_eq, gap, ← contribution_xor]
    ac_rfl
  rw [← sum]
  exact BitVec.xor_eq_zero_iff.symm

end XorRegister

end MiniIotRobotEdge

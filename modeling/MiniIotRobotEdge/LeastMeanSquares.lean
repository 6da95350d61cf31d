import Mathlib.Algebra.BigOperators.Field
import Mathlib.Algebra.BigOperators.Ring.Finset
import Mathlib.Algebra.Order.BigOperators.Group.Finset
import Mathlib.Algebra.Order.Field.Basic
import Mathlib.Tactic.Linarith
import Mathlib.Tactic.Positivity
import Mathlib.Tactic.Ring

/-!
# The rule of least mean squares

A vector of weights answers an input by their product.  The rule moves the
weights along the input, by a rate times the error of the answer.  Where other
weights answer the input without error, the squared distance to them falls by
an amount that the squared error gives, as long as the rate is small for the
input.  A loop whose potential pays for its losses cannot have large losses
for long.
-/

namespace MiniIotRobotEdge

namespace LeastMeanSquares

section Step

variable {Place K : Type*} [CommRing K] (places : Finset Place)

/-- The answer of the weights to an input. -/
def product (input weights : Place → K) : K := ∑ place ∈ places, input place * weights place

def squaredNorm (input : Place → K) : K := ∑ place ∈ places, input place ^ 2

def squaredDistance (weights others : Place → K) : K :=
  ∑ place ∈ places, (weights place - others place) ^ 2

/-- The weights move against the error. -/
def step (rate error : K) (input weights : Place → K) (place : Place) : K :=
  weights place - rate * error * input place

variable {places} {rate error : K} {input weights others : Place → K}

theorem product_self : product places input input = squaredNorm places input :=
  Finset.sum_congr rfl fun _ _ => (pow_two _).symm

theorem product_sub :
    product places input weights - product places input others =
      ∑ place ∈ places, input place * (weights place - others place) := by
  simp only [product, mul_sub, Finset.sum_sub_distrib]

/-- An answer to any input after a step. -/
theorem product_step (other : Place → K) :
    product places other (step rate error input weights) =
      product places other weights - rate * error * product places other input := by
  rw [product, product, product, Finset.mul_sum, ← Finset.sum_sub_distrib]
  refine Finset.sum_congr rfl fun place _ => ?_
  rw [step]
  ring

/-- The squared distance to weights without error, after a step. -/
theorem squaredDistance_step
    (isError : product places input weights - product places input others = error) :
    squaredDistance places (step rate error input weights) others =
      squaredDistance places weights others -
        rate * (2 - rate * squaredNorm places input) * error ^ 2 := by
  have crossTerm : ∑ place ∈ places, input place * (weights place - others place) = error := by
    rw [← product_sub, isError]
  have expanded : squaredDistance places (step rate error input weights) others =
      squaredDistance places weights others -
        2 * (rate * error) * ∑ place ∈ places, input place * (weights place - others place) +
        (rate * error) ^ 2 * squaredNorm places input := by
    rw [squaredDistance, squaredDistance, squaredNorm, Finset.mul_sum, Finset.mul_sum,
      ← Finset.sum_sub_distrib, ← Finset.sum_add_distrib]
    refine Finset.sum_congr rfl fun place _ => ?_
    rw [step]
    ring
  rw [expanded, crossTerm]
  ring

end Step

section Order

variable {K : Type*} [Field K] [LinearOrder K] [IsStrictOrderedRing K]

theorem squaredDistance_nonneg {Place : Type*} (places : Finset Place)
    (weights others : Place → K) : 0 ≤ squaredDistance places weights others :=
  Finset.sum_nonneg fun _ _ => sq_nonneg _

theorem squaredNorm_nonneg {Place : Type*} (places : Finset Place) (input : Place → K) :
    0 ≤ squaredNorm places input :=
  Finset.sum_nonneg fun _ _ => sq_nonneg _

theorem product_le {Place : Type*} {places : Finset Place} {input other : Place → K} :
    |product places input other| ≤ (squaredNorm places input + squaredNorm places other) / 2 := by
  rw [squaredNorm, squaredNorm, ← Finset.sum_add_distrib, Finset.sum_div]
  apply (Finset.abs_sum_le_sum_abs _ _).trans
  refine Finset.sum_le_sum fun place _ => ?_
  have square := sq_nonneg (|input place| - |other place|)
  rw [abs_mul, ← sq_abs (input place), ← sq_abs (other place)]
  linarith [sub_sq |input place| |other place|]

end Order

end LeastMeanSquares

end MiniIotRobotEdge

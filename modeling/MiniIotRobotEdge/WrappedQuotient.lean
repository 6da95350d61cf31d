import Mathlib.Algebra.Order.Field.Rat
import Mathlib.Data.Nat.Cast.Field
import Mathlib.Tactic.FieldSimp
import Mathlib.Tactic.Linarith
import Mathlib.Tactic.Ring

/-!
# Quotients of wrapped products

Counters of a fixed width wrap around before a division truncates.  What a wrapped
quotient misses is the part that the wrap cuts off and the remainder of the
division.
-/

namespace MiniIotRobotEdge

namespace WrappedQuotient

variable {word value divisor bound : Nat}

/-- A wrapped quotient is right exactly when nothing has wrapped. -/
theorem div_eq_iff (divisorPos : 0 < divisor) (divisorLe : divisor ≤ word) :
    value % word / divisor = value / divisor ↔ value < word := by
  constructor
  · intro same
    by_contra wrapped
    have cut : value % word ≤ value - word := by
      rw [Nat.mod_eq_sub_mod (by omega)]
      exact Nat.mod_le _ _
    have less : value % word / divisor < value / divisor := by
      rw [Nat.div_lt_iff_lt_mul divisorPos]
      have remainder := Nat.div_add_mod' value divisor
      have small := Nat.mod_lt value divisorPos
      omega
    omega
  · intro fits
    rw [Nat.mod_eq_of_lt fits]

/-- What the wrapped quotient misses of the exact one. -/
def lost (word value divisor : Nat) : ℚ :=
  ((value % word % divisor + value / word * word : Nat) : ℚ) / divisor

theorem cast_div (word value : Nat) (divisorPos : 0 < divisor) :
    ((value % word / divisor : Nat) : ℚ) = (value : ℚ) / divisor - lost word value divisor := by
  have parts : value = value % word / divisor * divisor +
      (value % word % divisor + value / word * word) := by
    have wrapped := Nat.div_add_mod' value word
    have divided := Nat.div_add_mod' (value % word) divisor
    omega
  have castParts : (value : ℚ) = (value % word / divisor : Nat) * divisor +
      ((value % word % divisor + value / word * word : Nat) : ℚ) := by
    exact_mod_cast parts
  have nonzero : (divisor : ℚ) ≠ 0 := by exact_mod_cast divisorPos.ne'
  rw [lost, eq_sub_iff_add_eq]
  field_simp
  linarith

/-- A wrapped sum is small exactly when the sum is little more than some whole number
of words. -/
theorem mod_le_iff (value : Nat) (boundLt : bound < word) :
    value % word ≤ bound ↔ ∃ wraps, wraps * word ≤ value ∧ value ≤ wraps * word + bound := by
  constructor
  · intro small
    have split := Nat.div_add_mod' value word
    exact ⟨value / word, by omega, by omega⟩
  · rintro ⟨wraps, low, high⟩
    have split : value = wraps * word + (value - wraps * word) := by omega
    rw [split, Nat.mul_add_mod', Nat.mod_eq_of_lt (by omega)]
    omega

end WrappedQuotient

end MiniIotRobotEdge

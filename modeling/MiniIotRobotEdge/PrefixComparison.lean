import Mathlib.Data.List.Basic
import Mathlib.Data.Int.Basic

/-!
# Comparing as much as was supplied

A comparison that stops at the length its caller gives accepts every prefix of
the expected sequence, the empty one included.  Here is exactly when such a
comparison still needs the whole sequence.
-/

namespace MiniIotRobotEdge

namespace PrefixComparison

variable {α : Type*} [DecidableEq α] (bound : Nat) (len : Int) (expected supplied : Nat → α)

/-- The first `bound` items agree, as far as `len` goes. -/
def agrees : Bool := (List.range bound).all fun i => len ≤ i ∨ supplied i = expected i

/-- All items are supplied and agree. -/
def Complete : Prop := bound ≤ len ∧ ∀ i < bound, supplied i = expected i

/-- An item that is supplied and compared is another one. -/
def Differs : Prop := ∃ i < bound, i < len ∧ supplied i ≠ expected i

instance : Decidable (Complete bound len expected supplied) :=
  inferInstanceAs (Decidable (_ ∧ ∀ i < bound, _))

instance : Decidable (Differs bound len expected supplied) :=
  inferInstanceAs (Decidable (∃ i < bound, _))

theorem agrees_iff : agrees bound len expected supplied = true ↔
    ∀ i < bound, i < len → supplied i = expected i := by
  simp only [agrees, List.all_eq_true, List.mem_range, decide_eq_true_eq]
  constructor
  · intro agreed i inside within
    exact (agreed i inside).resolve_left (by omega)
  · intro agreed i inside
    by_cases within : i < len
    · exact .inr (agreed i inside within)
    · exact .inl (by omega)

theorem agrees_iff_not_differs : agrees bound len expected supplied = true ↔
    ¬ Differs bound len expected supplied := by
  rw [agrees_iff, Differs]
  push Not
  rfl

/-- Only a complete sequence is accepted exactly when the length is full or the
prefix is refused. -/
theorem needs_complete_iff :
    (agrees bound len expected supplied = true → Complete bound len expected supplied) ↔
      bound ≤ len ∨ Differs bound len expected supplied := by
  rw [agrees_iff_not_differs]
  constructor
  · intro needs
    by_cases differs : Differs bound len expected supplied
    · exact .inr differs
    · exact .inl (needs differs).1
  · rintro (full | differs) agreed
    · have same := (agrees_iff bound len expected supplied).mp
        ((agrees_iff_not_differs bound len expected supplied).mpr agreed)
      exact ⟨full, fun i inside => same i inside (by omega)⟩
    · exact absurd differs agreed

end PrefixComparison

end MiniIotRobotEdge

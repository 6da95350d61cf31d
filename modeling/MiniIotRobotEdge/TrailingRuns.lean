import Mathlib.Data.List.DropRight
import Mathlib.Data.List.Infix
import Mathlib.Tactic.Common

/-!
# The run at the end of a history

How many times in a row an observation has been made last.  A new observation
makes the run longer by one or ends it.
-/

namespace MiniIotRobotEdge

namespace TrailingRuns

variable {α : Type*} [DecidableEq α] (level : α)

/-- The length of the run of `level` at the end. -/
def trailing (history : List α) : Nat := (history.rtakeWhile (· = level)).length

@[simp]
theorem trailing_nil : trailing level [] = 0 := by simp [trailing]

@[simp]
theorem trailing_concat_self (history : List α) :
    trailing level (history ++ [level]) = trailing level history + 1 := by
  simp [trailing]

theorem trailing_concat_of_ne {observation : α} (other : observation ≠ level) (history : List α) :
    trailing level (history ++ [observation]) = 0 := by
  simp [trailing, other]

theorem trailing_append_replicate (history : List α) (count : Nat) :
    trailing level (history ++ List.replicate count level) = trailing level history + count := by
  induction count with
  | zero => simp
  | succ count induction =>
      rw [List.replicate_succ', ← List.append_assoc, trailing_concat_self, induction]
      rfl

/-- A history ends with `count` times the level exactly when the last run is as
long; by induction on the history from its end. -/
theorem replicate_suffix_iff (history : List α) (count : Nat) :
    List.replicate count level <:+ history ↔ count ≤ trailing level history := by
  induction history using List.reverseRecOn generalizing count with
  | nil => simp
  | append_singleton history observation induction =>
      cases count with
      | zero => simp
      | succ count =>
          rw [List.replicate_succ', List.suffix_concat_iff]
          by_cases same : observation = level
          · subst same
            simp [induction]
          · have end_ne : level ≠ observation := fun equal => same equal.symm
            simp [trailing_concat_of_ne level same, end_ne]

/-- A history in which another observation occurs ends with such an observation
in front of the last run. -/
theorem exists_eq_append_trailing {other : Bool} (history : List Bool) (member : other ∈ history) :
    ∃ front, history = front ++ other :: List.replicate (trailing (!other) history) (!other) := by
  induction history using List.reverseRecOn with
  | nil => simp at member
  | append_singleton history observation induction =>
      by_cases same : observation = other
      · subst same
        exact ⟨history, by simp [trailing_concat_of_ne]⟩
      · obtain rfl : observation = !other := Bool.eq_not.mpr same
        obtain ⟨front, split⟩ := induction (by simpa using member)
        exists front
        rw [trailing_concat_self, List.replicate_succ', ← List.cons_append, ← List.append_assoc,
          ← split]

/-- The last occurrence of a value with fewer than `bound` others behind it. -/
theorem exists_last_iff (other : Bool) (history : List Bool) (bound : Nat) :
    (∃ front count, history = front ++ other :: List.replicate count (!other) ∧ count < bound) ↔
      other ∈ history ∧ trailing (!other) history < bound := by
  constructor
  · rintro ⟨front, count, rfl, small⟩
    have split : front ++ other :: List.replicate count (!other) =
        (front ++ [other]) ++ List.replicate count (!other) := by simp
    rw [split, trailing_append_replicate, trailing_concat_of_ne _ (by simp), Nat.zero_add]
    exact ⟨by simp, small⟩
  · rintro ⟨member, small⟩
    obtain ⟨front, split⟩ := exists_eq_append_trailing history member
    exact ⟨front, _, split, small⟩

end TrailingRuns

end MiniIotRobotEdge

import Mathlib.Data.List.Basic

/-!
# Suffix arrays

An array that lists the suffixes of a string in the order of a dictionary.  A string occurs where
it is a prefix of a suffix, and the suffixes that start with it stand side by side, so the suffixes
next to a pattern share the longest prefixes with it.
-/

namespace MiniIotRobotEdge

namespace SuffixArrays

variable {α : Type*} [LT α]

/-- In the order of a dictionary, or the same. -/
def Before (first second : List α) : Prop := first < second ∨ first = second

/-- The array lists the positions of the suffixes, in increasing order. -/
structure IsSuffixArray (data : List α) (sa : Nat → Nat) : Prop where
  perm : ((List.range data.length).map sa).Perm (List.range data.length)
  sorted : ∀ first second, first < second → second < data.length →
    data.drop (sa first) < data.drop (sa second)

theorem before_cons {first second : α} {rest last : List α}
    (before : Before (first :: rest) (second :: last)) :
    first < second ∨ (first = second ∧ Before rest last) := by
  rcases before with less | same
  · rcases List.cons_lt_cons_iff.mp less with below | ⟨same, later⟩
    · exact .inl below
    · exact .inr ⟨same, .inl later⟩
  · obtain ⟨same, rests⟩ := List.cons.inj same
    exact .inr ⟨same, .inr rests⟩

section Between

variable [Std.Asymm fun first second : α => first < second] {front low mid high : List α}

/-- What lies between two strings with a common prefix has that prefix. -/
theorem prefix_of_between (lowFront : front <+: low) (highFront : front <+: high)
    (lowMid : Before low mid) (midHigh : Before mid high) : front <+: mid := by
  induction front generalizing low mid high with
  | nil => exact List.nil_prefix
  | cons first front ih =>
      obtain ⟨lowRest, rfl⟩ := lowFront
      obtain ⟨highRest, rfl⟩ := highFront
      rw [List.cons_append] at lowMid midHigh
      cases mid with
      | nil =>
          rcases lowMid with less | same
          · cases less
          · cases same
      | cons other mid =>
          rw [List.cons_prefix_cons]
          rcases before_cons lowMid with below | ⟨same, lowTail⟩
          · rcases before_cons midHigh with above | ⟨rfl, -⟩
            · exact absurd above (Std.Asymm.asymm _ _ below)
            · exact absurd below (Std.Asymm.asymm _ _ below)
          · subst same
            rcases before_cons midHigh with above | ⟨-, highTail⟩
            · exact absurd above (Std.Asymm.asymm _ _ above)
            · exact ⟨rfl, ih (List.prefix_append _ _) (List.prefix_append _ _) lowTail highTail⟩

end Between

section Positions

variable {sa : Nat → Nat} {n : Nat}

theorem lt_of_perm (perm : ((List.range n).map sa).Perm (List.range n)) {index : Nat}
    (inside : index < n) : sa index < n := by
  have member : sa index ∈ (List.range n).map sa :=
    List.mem_map_of_mem (List.mem_range.mpr inside)
  exact List.mem_range.mp (perm.mem_iff.mp member)

/-- Every position is listed. -/
theorem exists_index_of_perm (perm : ((List.range n).map sa).Perm (List.range n))
    {position : Nat} (inside : position < n) : ∃ index, index < n ∧ sa index = position := by
  have member := perm.mem_iff.mpr (List.mem_range.mpr inside)
  obtain ⟨index, isIndex, same⟩ := List.mem_map.mp member
  exact ⟨index, List.mem_range.mp isIndex, same⟩

end Positions

section Arrays

variable {data front : List α} {sa : Nat → Nat}

theorem IsSuffixArray.lt (isArray : IsSuffixArray data sa) {index : Nat}
    (inside : index < data.length) : sa index < data.length :=
  lt_of_perm isArray.perm inside

theorem IsSuffixArray.exists_index (isArray : IsSuffixArray data sa) {position : Nat}
    (inside : position < data.length) : ∃ index, index < data.length ∧ sa index = position :=
  exists_index_of_perm isArray.perm inside

theorem IsSuffixArray.before (isArray : IsSuffixArray data sa) {first second : Nat}
    (ordered : first ≤ second) (inside : second < data.length) :
    Before (data.drop (sa first)) (data.drop (sa second)) := by
  rcases Nat.lt_or_eq_of_le ordered with less | rfl
  · exact .inl (isArray.sorted first second less inside)
  · exact .inr rfl

/-- A string that occurs is a prefix of a listed suffix. -/
theorem IsSuffixArray.exists_prefix (isArray : IsSuffixArray data sa) (nonempty : front ≠ [])
    (occurs : front <:+: data) :
    ∃ index, index < data.length ∧ front <+: data.drop (sa index) := by
  obtain ⟨before, behind, rfl⟩ := occurs
  have inside : before.length < (before ++ front ++ behind).length := by
    have positive := List.length_pos_iff.mpr nonempty
    simp only [List.length_append]
    omega
  obtain ⟨index, below, isPosition⟩ := isArray.exists_index inside
  refine ⟨index, below, ?_⟩
  rw [isPosition, List.append_assoc, List.drop_left]
  exact List.prefix_append front behind

end Arrays

end SuffixArrays

end MiniIotRobotEdge

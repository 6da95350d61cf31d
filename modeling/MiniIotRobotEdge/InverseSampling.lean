import Mathlib.Algebra.BigOperators.Intervals
import Mathlib.Algebra.Order.BigOperators.Group.Finset

/-!
# Sampling by cumulative weights

A number picks the first place where the weights up to there have reached it.
The numbers that pick a place are an interval as long as the weight of the
place.
-/

namespace MiniIotRobotEdge

namespace InverseSampling

variable {K : Type*} [AddCommGroup K] [LinearOrder K]

/-- The weights up to a place, as a loop adds them up. -/
def cumulative (weight : Nat → K) : Nat → K
  | 0 => weight 0
  | place + 1 => cumulative weight place + weight (place + 1)

/-- The loop that looks for the place, with the places that are left. -/
def pick (cdf : Nat → K) (r : K) : Nat → Nat → Nat
  | 0, j => j
  | left + 1, j => if cdf j < r then pick cdf r left (j + 1) else j

omit [LinearOrder K] in
theorem cumulative_eq (weight : Nat → K) (place : Nat) :
    cumulative weight place = ∑ i ∈ Finset.range (place + 1), weight i := by
  induction place with
  | zero => exact (Finset.sum_range_one weight).symm
  | succ place ih => rw [cumulative, ih, ← Finset.sum_range_succ]

omit [AddCommGroup K] in
/-- The loop passes places that have not reached the number, and stops at one that has,
or at the last one. -/
theorem pick_spec (cdf : Nat → K) (r : K) (left j : Nat) :
    j ≤ pick cdf r left j ∧ pick cdf r left j ≤ j + left ∧
      (∀ i, j ≤ i → i < pick cdf r left j → cdf i < r) ∧
      (pick cdf r left j < j + left → r ≤ cdf (pick cdf r left j)) := by
  induction left generalizing j with
  | zero =>
      refine ⟨le_rfl, le_rfl, ?_, ?_⟩
      · intro i atLeast less
        exact absurd less atLeast.not_gt
      · intro less
        exact absurd less (Nat.lt_irrefl j)
  | succ left ih =>
      rw [pick]
      split
      · rename_i passed
        obtain ⟨atLeast, atMost, below, stops⟩ := ih (j + 1)
        refine ⟨by omega, by omega, ?_, ?_⟩
        · intro i started less
          rcases started.eq_or_lt with rfl | later
          · exact passed
          · exact below i later less
        · intro less
          exact stops (by omega)
      · rename_i reached
        refine ⟨le_rfl, Nat.le_add_right j _, ?_, fun _ => not_lt.mp reached⟩
        intro i atLeast less
        exact absurd less atLeast.not_gt

section Weights

variable [IsOrderedAddMonoid K] {weight : Nat → K} {count j : Nat} {r : K}

theorem sum_range_mono (nonneg : ∀ i < count, 0 ≤ weight i) {first second : Nat}
    (inOrder : first ≤ second) (inside : second ≤ count) :
    ∑ i ∈ Finset.range first, weight i ≤ ∑ i ∈ Finset.range second, weight i := by
  apply Finset.sum_le_sum_of_subset_of_nonneg (Finset.range_subset_range.mpr inOrder)
  intro i within _
  exact nonneg i ((Finset.mem_range.mp within).trans_le inside)

/-- The numbers that pick a place lie behind the weights before it, and no farther than its
own weight. -/
theorem pick_eq_iff (nonneg : ∀ i < count, 0 ≤ weight i) (someplace : 0 < count)
    (positive : 0 < r) (reached : r ≤ ∑ i ∈ Finset.range count, weight i) :
    pick (cumulative weight) r (count - 1) 0 = j ↔
      j < count ∧ ∑ i ∈ Finset.range j, weight i < r ∧
        r ≤ (∑ i ∈ Finset.range j, weight i) + weight j := by
  obtain ⟨_, atMost, below, stops⟩ := pick_spec (cumulative weight) r (count - 1) 0
  rw [Nat.zero_add] at atMost stops
  generalize pick (cumulative weight) r (count - 1) 0 = picked at *
  have behind : ∑ i ∈ Finset.range picked, weight i < r := by
    cases picked with
    | zero => exact positive
    | succ before =>
        rw [← cumulative_eq]
        exact below before (Nat.zero_le _) (Nat.lt_succ_self before)
  have within : r ≤ ∑ i ∈ Finset.range (picked + 1), weight i := by
    rcases atMost.eq_or_lt with rfl | earlier
    · rwa [Nat.sub_add_cancel someplace]
    · rw [← cumulative_eq]
      exact stops earlier
  constructor
  · rintro rfl
    exact ⟨by omega, behind, by rwa [← Finset.sum_range_succ]⟩
  · rintro ⟨inside, after, upTo⟩
    rw [← Finset.sum_range_succ] at upTo
    rcases lt_trichotomy picked j with earlier | same | later
    · exact absurd (within.trans (sum_range_mono nonneg earlier inside.le)) after.not_ge
    · exact same
    · exact absurd (upTo.trans (sum_range_mono nonneg later (by omega))) behind.not_ge

/-- A number that the weights do not reach picks the last place. -/
theorem pick_eq_last (nonneg : ∀ i < count, 0 ≤ weight i) (someplace : 0 < count)
    (missed : ∑ i ∈ Finset.range count, weight i < r) :
    pick (cumulative weight) r (count - 1) 0 = count - 1 := by
  obtain ⟨_, atMost, _, stops⟩ := pick_spec (cumulative weight) r (count - 1) 0
  rw [Nat.zero_add] at atMost stops
  rcases atMost.eq_or_lt with isLast | earlier
  · exact isLast
  · have reached := stops earlier
    rw [cumulative_eq] at reached
    have less := reached.trans (sum_range_mono nonneg (by omega) le_rfl)
    exact absurd less missed.not_ge

end Weights

end InverseSampling

end MiniIotRobotEdge

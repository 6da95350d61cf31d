import Mathlib.Algebra.BigOperators.Ring.Finset
import Mathlib.Algebra.Order.BigOperators.Group.Finset
import Mathlib.Algebra.Order.Ring.Abs
import Mathlib.Tactic.Ring

/-!
# Clusters with least squares

Items with values are assigned to clusters, and a cluster has a centre.  The
squares of the distances to the centres are least for the means, and they do not
grow when items go over to nearer centres.
-/

namespace MiniIotRobotEdge

namespace SquaredClusters

variable {ι κ K : Type*} [DecidableEq κ] {items : Finset ι} {value : ι → K} {assigned before : ι → κ}
  {centre : κ → K}

section Ring

variable [CommRing K]

/-- The squares of the distances to the centres. -/
def squares (items : Finset ι) (value : ι → K) (assigned : ι → κ) (centre : κ → K) : K :=
  ∑ i ∈ items, (value i - centre (assigned i)) ^ 2

/-- The items of a cluster. -/
def members (items : Finset ι) (assigned : ι → κ) (c : κ) : Finset ι :=
  items.filter fun i => assigned i = c

/-- The centres are the means of their clusters. -/
def IsMean (items : Finset ι) (value : ι → K) (assigned : ι → κ) (centre : κ → K) : Prop :=
  ∀ c, (members items assigned c).card * centre c = ∑ i ∈ members items assigned c, value i

/-- The distances of a cluster to its mean add up to nothing. -/
theorem IsMean.sum_members (isMean : IsMean items value assigned centre) (c : κ) :
    ∑ i ∈ members items assigned c, (value i - centre (assigned i)) = 0 := by
  have same : ∀ i ∈ members items assigned c,
      value i - centre (assigned i) = value i - centre c := by
    intro i isMember
    rw [(Finset.mem_filter.mp isMember).2]
  rw [Finset.sum_congr rfl same, Finset.sum_sub_distrib, Finset.sum_const, nsmul_eq_mul,
    isMean c, sub_self]

/-- What is the same in a cluster does not see the distances to the means. -/
theorem IsMean.sum_mul (isMean : IsMean items value assigned centre) (weight : κ → K) :
    ∑ i ∈ items, weight (assigned i) * (value i - centre (assigned i)) = 0 := by
  rw [← Finset.sum_fiberwise_of_maps_to fun i inside => Finset.mem_image_of_mem assigned inside]
  apply Finset.sum_eq_zero
  intro c _
  have same : ∀ i ∈ members items assigned c,
      weight (assigned i) * (value i - centre (assigned i)) =
        weight c * (value i - centre (assigned i)) := by
    intro i isMember
    rw [(Finset.mem_filter.mp isMember).2]
  exact (Finset.sum_congr rfl same).trans
    ((Finset.mul_sum ..).symm.trans (mul_eq_zero_of_right _ (isMean.sum_members c)))

/-- Centres and values have the same sum. -/
theorem IsMean.sum_centre (isMean : IsMean items value assigned centre) :
    ∑ i ∈ items, centre (assigned i) = ∑ i ∈ items, value i := by
  have apart := isMean.sum_mul fun _ => 1
  simp only [one_mul, Finset.sum_sub_distrib] at apart
  exact (sub_eq_zero.mp apart).symm

/-- Other centres add the squares of how far they are from the means. -/
theorem IsMean.squares_eq (isMean : IsMean items value assigned centre) (other : κ → K) :
    squares items value assigned other = squares items value assigned centre +
      ∑ i ∈ items, (centre (assigned i) - other (assigned i)) ^ 2 := by
  have cross := isMean.sum_mul fun c => 2 * (centre c - other c)
  have expand : squares items value assigned other = ∑ i ∈ items,
      ((value i - centre (assigned i)) ^ 2 + (centre (assigned i) - other (assigned i)) ^ 2 +
        2 * (centre (assigned i) - other (assigned i)) * (value i - centre (assigned i))) := by
    apply Finset.sum_congr rfl
    intro i _
    ring
  rw [expand, Finset.sum_add_distrib, cross, add_zero, Finset.sum_add_distrib, squares]

end Ring

section Order

variable [CommRing K] [LinearOrder K] [IsStrictOrderedRing K]

theorem IsMean.squares_le (isMean : IsMean items value assigned centre) (other : κ → K) :
    squares items value assigned centre ≤ squares items value assigned other := by
  rw [isMean.squares_eq other]
  exact le_add_of_nonneg_right (Finset.sum_nonneg fun i _ => sq_nonneg _)

omit [DecidableEq κ] in
theorem squares_le_of_nearer
    (nearer : ∀ i ∈ items, |value i - centre (assigned i)| ≤ |value i - centre (before i)|) :
    squares items value assigned centre ≤ squares items value before centre := by
  apply Finset.sum_le_sum
  intro i inside
  exact sq_le_sq.mpr (nearer i inside)

/-- One round: the items go to nearer centres, and the centres to the means. -/
theorem squares_le_of_round {moved : κ → K}
    (nearer : ∀ i ∈ items, |value i - centre (assigned i)| ≤ |value i - centre (before i)|)
    (isMean : IsMean items value assigned moved) :
    squares items value assigned moved ≤ squares items value before centre :=
  (isMean.squares_le centre).trans (squares_le_of_nearer nearer)

end Order

end SquaredClusters

end MiniIotRobotEdge

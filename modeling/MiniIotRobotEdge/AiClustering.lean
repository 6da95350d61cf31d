import Mathlib.Algebra.Order.Field.Basic
import Mathlib.Algebra.Order.Ring.Rat
import MiniIotRobotEdge.LoopNests
import MiniIotRobotEdge.RangeLoop
import MiniIotRobotEdge.SquaredClusters

/-!
# Weights in clusters

The model of the `model_cluster` functions in `model_compress.c`, over exact
numbers.  Every iteration assigns the weights to their nearest centroids and
then moves the centroids to the means.
-/

namespace MiniIotRobotEdge

namespace Ai

namespace Clustering

def modelCompressMaxClusters : Nat := 256

structure ModelWeightBuffer (K : Type*) where
  data : Nat → K
  count : Nat

structure ModelClusterResult (K : Type*) where
  centroids : Nat → K
  assignments : Nat → Nat
  numClusters : Nat
  numItems : Nat

variable {K : Type*} [Field K] [LinearOrder K]

/-- The loop that looks for the first of the nearest centroids. -/
def nearestCentroid (centroids : Nat → K) (k : Nat) (weight : K) : Nat :=
  ((List.range k).foldl
    (FirstMinimum.keepLess (fun _ => True) fun c => ((|weight - centroids c| : K) : WithTop K))
    (⊤, none)).2.getD 0

/-- The body of the loop that adds up the clusters. -/
def accumulateWeight (data : Nat → K) (assignments : Nat → Nat)
    (state : (Nat → K) × (Nat → Nat)) (i : Nat) : (Nat → K) × (Nat → Nat) :=
  let c := assignments i
  (Function.update state.1 c (state.1 c + data i), Function.update state.2 c (state.2 c + 1))

/-- The body of the loop that moves the centroids, with the flag `converged`. -/
def moveCentroid (newCentroids : Nat → K) (counts : Nat → Nat) (state : (Nat → K) × Bool)
    (c : Nat) : (Nat → K) × Bool :=
  let newCentroid := if 0 < counts c then newCentroids c / counts c else newCentroids c
  (Function.update state.1 c newCentroid,
    if 1 / (10 : ℕ) ^ 6 < |newCentroid - state.1 c| then false else state.2)

/-- One iteration. -/
def kmeansTurn (weights : ModelWeightBuffer K) (k : Nat) (result : ModelClusterResult K) :
    ModelClusterResult K × Bool :=
  let assignments := (List.range weights.count).foldl (fun assignments (i : Nat) =>
    Function.update assignments i (nearestCentroid result.centroids k (weights.data i)))
    result.assignments
  let (newCentroids, counts) := (List.range weights.count).foldl
    (accumulateWeight weights.data assignments) (fun _ => 0, fun _ => 0)
  let (centroids, converged) := (List.range k).foldl (moveCentroid newCentroids counts)
    (result.centroids, true)
  ({ result with assignments := assignments, centroids := centroids }, converged)

def kmeansLoop (weights : ModelWeightBuffer K) (k : Nat) :
    Nat → ModelClusterResult K → ModelClusterResult K
  | 0, result => result
  | turns + 1, result =>
      let (result, converged) := kmeansTurn weights k result
      if converged then result else kmeansLoop weights k turns result

/-- The result before the first iteration: memory is cleared, and the first weights are the
centroids. -/
def kmeansStart (weights : ModelWeightBuffer K) (k : Nat) : ModelClusterResult K where
  centroids := fun c => if c < k ∧ c < weights.count then weights.data c else 0
  assignments := fun _ => 0
  numClusters := k
  numItems := weights.count

def modelClusterKmeans (weights : ModelWeightBuffer K) (k maxIterations : Nat) :
    Option (ModelClusterResult K) :=
  if k = 0 ∨ modelCompressMaxClusters < k then none
  else some (kmeansLoop weights k maxIterations (kmeansStart weights k))

def modelClusterDecompress (result : ModelClusterResult K) : Option (List K) :=
  if result.numItems = 0 then none
  else some ((List.range result.numItems).map fun i => result.centroids (result.assignments i))

/-- The square root is a parameter. -/
def modelClusterReconstructionError (sqrtf : K → K) (original : ModelWeightBuffer K)
    (result : ModelClusterResult K) : K :=
  if original.count ≠ result.numItems then 0
  else
    let err := (List.range original.count).foldl (fun err (i : Nat) =>
      let diff := original.data i - result.centroids (result.assignments i)
      err + diff * diff) 0
    sqrtf (err / original.count)

/-! ### One iteration -/

section Turn

variable {weights : ModelWeightBuffer K} {k : Nat} {result : ModelClusterResult K}

/-- The centroid is nearest among all of them. -/
theorem nearestCentroid_spec (centroids : Nat → K) (someCentroid : 0 < k) (weight : K) :
    nearestCentroid centroids k weight < k ∧
      ∀ c < k, |weight - centroids (nearestCentroid centroids k weight)| ≤
        |weight - centroids c| := by
  have scan := FirstMinimum.scanned (fun _ => True)
    (fun c => ((|weight - centroids c| : K) : WithTop K)) ⊤ k
  rw [nearestCentroid]
  generalize (List.range k).foldl _ ((⊤ : WithTop K), none) = best at scan ⊢
  cases found : best.2 with
  | none =>
      have unmet := scan.none_le found 0 someCentroid trivial
      exact absurd (top_le_iff.mp unmet) (WithTop.coe_ne_top)
  | some place =>
      have first := scan.some_first place found
      refine ⟨first.inRange, ?_⟩
      intro c inside
      exact WithTop.coe_le_coe.mp (first.least inside trivial)

omit [LinearOrder K] in
/-- The loop adds up the members of the clusters and counts them. -/
theorem accumulateWeight_fold (data : Nat → K) (assignments : Nat → Nat) (count c : Nat) :
    let state := (List.range count).foldl (accumulateWeight data assignments)
      (fun _ => 0, fun _ => 0)
    state.1 c =
        ∑ i ∈ SquaredClusters.members (Finset.range count) assignments c, data i ∧
      state.2 c = (SquaredClusters.members (Finset.range count) assignments c).card := by
  apply RangeLoop.invariant fun turns (state : (Nat → K) × (Nat → Nat)) =>
    state.1 c = ∑ i ∈ SquaredClusters.members (Finset.range turns) assignments c, data i ∧
      state.2 c = (SquaredClusters.members (Finset.range turns) assignments c).card
  · exact ⟨rfl, rfl⟩
  · rintro turn ⟨sums, counts⟩ _ ⟨isSum, isCount⟩
    have fresh : turn ∉ SquaredClusters.members (Finset.range turn) assignments c := by
      intro isMember
      exact Finset.notMem_range_self (Finset.mem_filter.mp isMember).1
    rw [SquaredClusters.members, Finset.range_add_one, Finset.filter_insert, accumulateWeight]
    dsimp only at isSum isCount ⊢
    split
    · rename_i here
      rw [here, Function.update_self, Function.update_self, isSum, isCount]
      exact ⟨(add_comm _ _).trans (Finset.sum_insert fresh).symm,
        (Finset.card_insert_of_notMem fresh).symm⟩
    · rename_i elsewhere
      rw [Function.update_of_ne (Ne.symm elsewhere), Function.update_of_ne (Ne.symm elsewhere)]
      exact ⟨isSum, isCount⟩

/-- The loop moves every centroid once. -/
theorem moveCentroid_fold (newCentroids : Nat → K) (counts : Nat → Nat) (centroids : Nat → K)
    (k c : Nat) :
    ((List.range k).foldl (moveCentroid newCentroids counts) (centroids, true)).1 c =
      if c < k then if 0 < counts c then newCentroids c / counts c else newCentroids c
      else centroids c := by
  apply RangeLoop.invariant fun turns (state : (Nat → K) × Bool) =>
    state.1 c = if c < turns then
      if 0 < counts c then newCentroids c / counts c else newCentroids c else centroids c
  · exact (if_neg (Nat.not_lt_zero c)).symm
  · intro turn state _ sofar
    dsimp only [moveCentroid]
    by_cases here : c = turn
    · rw [here, Function.update_self, if_pos (Nat.lt_succ_self turn)]
    · rw [Function.update_of_ne here, sofar]
      exact if_congr (by omega) rfl rfl

/-- What an iteration makes of the assignments and the centroids. -/
structure Turned (weights : ModelWeightBuffer K) (k : Nat) (before after : ModelClusterResult K) :
    Prop where
  assignments : ∀ i < weights.count,
    after.assignments i = nearestCentroid before.centroids k (weights.data i)
  centroids : ∀ c < k,
    let members := SquaredClusters.members (Finset.range weights.count) after.assignments c
    after.centroids c = if 0 < members.card then (∑ i ∈ members, weights.data i) / members.card
      else ∑ i ∈ members, weights.data i
  sizes : after.numClusters = before.numClusters ∧ after.numItems = before.numItems

theorem kmeansTurn_turned (weights : ModelWeightBuffer K) (k : Nat)
    (result : ModelClusterResult K) :
    Turned weights k result (kmeansTurn weights k result).1 := by
  constructor
  case assignments =>
    intro i inside
    exact RangeLoop.update_apply id
      (fun i _ => nearestCentroid result.centroids k (weights.data i))
      (fun _ _ inOrder _ => inOrder.ne) inside
  case centroids =>
    intro c inside
    have sums := accumulateWeight_fold weights.data (kmeansTurn weights k result).1.assignments
      weights.count c
    dsimp only at sums ⊢
    rw [← sums.1, ← sums.2]
    exact (moveCentroid_fold _ _ _ k c).trans (if_pos inside)
  case sizes => exact ⟨rfl, rfl⟩

end Turn

/-! ### Runs -/

/-- The assignments name clusters. -/
def Assigned (weights : ModelWeightBuffer K) (k : Nat) (result : ModelClusterResult K) : Prop :=
  ∀ i < weights.count, result.assignments i < k

/-- The squares that the reconstruction error is the root of. -/
def squaredError (weights : ModelWeightBuffer K) (result : ModelClusterResult K) : K :=
  SquaredClusters.squares (Finset.range weights.count) weights.data result.assignments
    result.centroids

/-- The mean of the weights in a cluster, or 0 if there are none. -/
def clusterMean (weights : ModelWeightBuffer K) (result : ModelClusterResult K) (c : Nat) : K :=
  let members := SquaredClusters.members (Finset.range weights.count) result.assignments c
  if 0 < members.card then (∑ i ∈ members, weights.data i) / members.card else 0

def ModelClusterResult.recentred (result : ModelClusterResult K) (centroids : Nat → K) :
    ModelClusterResult K :=
  { result with centroids := centroids }

section Runs

variable {weights : ModelWeightBuffer K} {k : Nat} {before after result : ModelClusterResult K}

theorem Turned.assigned (turned : Turned weights k before after) (someCentroid : 0 < k) :
    Assigned weights k after := by
  intro i inside
  rw [turned.assignments i inside]
  exact (nearestCentroid_spec before.centroids someCentroid _).1

theorem kmeansLoop_succ (weights : ModelWeightBuffer K) (k turns : Nat)
    (result : ModelClusterResult K) :
    kmeansLoop weights k (turns + 1) result =
      if (kmeansTurn weights k result).2 then (kmeansTurn weights k result).1
      else kmeansLoop weights k turns (kmeansTurn weights k result).1 := rfl

/-- What every iteration leaves behind holds when the loop ends. -/
theorem kmeansLoop_invariant (motive : ModelClusterResult K → Prop)
    (turn : ∀ before after, Turned weights k before after → motive after) (turns : Nat)
    (start : motive result) : motive (kmeansLoop weights k turns result) := by
  induction turns generalizing result with
  | zero => exact start
  | succ turns ih =>
      have turned := turn _ _ (kmeansTurn_turned weights k result)
      rw [kmeansLoop_succ]
      split
      · exact turned
      · exact ih turned

/-- Behind the first iteration there is one that was the last. -/
theorem kmeansLoop_turned (weights : ModelWeightBuffer K) (k turns : Nat)
    (result : ModelClusterResult K) :
    ∃ before, Turned weights k before (kmeansLoop weights k (turns + 1) result) := by
  have turned := kmeansTurn_turned weights k result
  rw [kmeansLoop_succ]
  split
  · exact ⟨_, turned⟩
  · apply kmeansLoop_invariant fun after => ∃ before, Turned weights k before after
    · intro before after turned
      exact ⟨before, turned⟩
    · exact ⟨_, turned⟩

theorem Turned.centroid_eq (turned : Turned weights k before after) {c : Nat} (inside : c < k) :
    after.centroids c = clusterMean weights after c := by
  rw [turned.centroids c inside, clusterMean]
  split
  · rfl
  · rename_i empty
    rw [Finset.card_eq_zero.mp (Nat.eq_zero_of_not_pos empty), Finset.sum_empty]

theorem kmeansLoop_sizes (turns : Nat) (result : ModelClusterResult K) :
    (kmeansLoop weights k turns result).numItems = result.numItems := by
  induction turns generalizing result with
  | zero => rfl
  | succ turns ih =>
      rw [kmeansLoop_succ]
      split
      · rfl
      · exact ih _

variable [IsStrictOrderedRing K]

theorem Turned.isMean (turned : Turned weights k before after) (someCentroid : 0 < k) :
    SquaredClusters.IsMean (Finset.range weights.count) weights.data after.assignments
      after.centroids := by
  intro c
  by_cases populated : 0 <
      (SquaredClusters.members (Finset.range weights.count) after.assignments c).card
  · obtain ⟨i, isMember⟩ := Finset.card_pos.mp populated
    obtain ⟨inside, rfl⟩ := Finset.mem_filter.mp isMember
    have isCluster := turned.assigned someCentroid i (Finset.mem_range.mp inside)
    rw [turned.centroids _ isCluster, if_pos populated]
    exact mul_div_cancel₀ _ (Nat.cast_ne_zero.mpr populated.ne')
  · have empty := Finset.card_eq_zero.mp (Nat.eq_zero_of_not_pos populated)
    rw [empty, Finset.card_empty, Nat.cast_zero, zero_mul, Finset.sum_empty]

/-- An iteration makes the squares no larger. -/
theorem Turned.squaredError_le (turned : Turned weights k before after) (someCentroid : 0 < k)
    (assigned : Assigned weights k before) :
    squaredError weights after ≤ squaredError weights before := by
  apply SquaredClusters.squares_le_of_round _ (turned.isMean someCentroid)
  intro i inside
  rw [Finset.mem_range] at inside
  rw [turned.assignments i inside]
  exact (nearestCentroid_spec before.centroids someCentroid _).2 _ (assigned i inside)

theorem kmeansLoop_succ_le (someCentroid : 0 < k) (turns : Nat)
    (assigned : Assigned weights k result) :
    squaredError weights (kmeansLoop weights k (turns + 1) result) ≤
      squaredError weights (kmeansLoop weights k turns result) := by
  have turned := kmeansTurn_turned weights k result
  induction turns generalizing result with
  | zero =>
      have less := turned.squaredError_le someCentroid assigned
      rw [kmeansLoop_succ]
      split
      · exact less
      · exact less
  | succ turns ih =>
      rw [kmeansLoop_succ weights k (turns + 1), kmeansLoop_succ weights k turns result]
      split
      · exact le_rfl
      · exact ih (turned.assigned someCentroid) (kmeansTurn_turned weights k _)

theorem kmeansLoop_add_le (someCentroid : 0 < k) (turns more : Nat)
    (assigned : Assigned weights k result) :
    squaredError weights (kmeansLoop weights k (turns + more) result) ≤
      squaredError weights (kmeansLoop weights k turns result) := by
  induction more with
  | zero => exact le_rfl
  | succ more ih => exact (kmeansLoop_succ_le someCentroid (turns + more) assigned).trans ih

omit [LinearOrder K] [IsStrictOrderedRing K] in
/-- The error is the root of the mean square. -/
theorem modelClusterReconstructionError_eq (sqrtf : K → K)
    (sameItems : weights.count = result.numItems) :
    modelClusterReconstructionError sqrtf weights result =
      sqrtf (squaredError weights result / weights.count) := by
  have added := LoopSums.foldl_add (fun i =>
    (weights.data i - result.centroids (result.assignments i)) *
      (weights.data i - result.centroids (result.assignments i))) weights.count 0
  rw [modelClusterReconstructionError, if_neg (not_not.mpr sameItems)]
  dsimp only
  rw [added, zero_add, squaredError, SquaredClusters.squares]
  simp only [sq]

end Runs

end Clustering

end Ai

end MiniIotRobotEdge

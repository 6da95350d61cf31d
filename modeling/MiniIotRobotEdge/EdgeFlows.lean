import Mathlib.Algebra.BigOperators.Group.Finset.Piecewise
import Mathlib.Algebra.BigOperators.Pi
import Mathlib.Algebra.BigOperators.Ring.Finset
import Mathlib.Algebra.Order.BigOperators.Group.Finset
import Mathlib.Algebra.Order.BigOperators.Group.List
import Mathlib.Algebra.Order.Field.Basic
import Mathlib.Tactic.FieldSimp
import Mathlib.Tactic.Linarith
import Mathlib.Tactic.Positivity
import Mathlib.Tactic.Ring

/-!
# Flows over the edges of a graph

An edge takes an amount from its tail to its head.  What the nodes gain is
nothing on the whole.  When the edges measure how far their ends lie apart and
the nodes move along what flows to them, the squares of the errors that are left
grow smaller, as long as the nodes move little, and the nodes that do not move
are those with the least squares.
-/

namespace MiniIotRobotEdge

namespace EdgeFlows

variable {ι ε : Type*} [DecidableEq ι] {tail head : ε → ι} {edges : List ε} {nodes : Finset ι}

/-- The edges have their ends among these nodes. -/
def Among (tail head : ε → ι) (edges : List ε) (nodes : Finset ι) : Prop :=
  ∀ edge ∈ edges, tail edge ∈ nodes ∧ head edge ∈ nodes

omit [DecidableEq ι] in
theorem Among.of_cons {edge : ε} (among : Among tail head (edge :: edges) nodes) :
    (tail edge ∈ nodes ∧ head edge ∈ nodes) ∧ Among tail head edges nodes :=
  List.forall_mem_cons.mp among

section Flow

variable {M : Type*} [AddCommGroup M]

/-- What the edges bring to a node and take away from it. -/
def inflow (tail head : ε → ι) (amount : ε → M) (edges : List ε) (node : ι) : M :=
  (edges.map fun edge =>
    (if head edge = node then amount edge else 0) -
      if tail edge = node then amount edge else 0).sum

@[simp]
theorem inflow_nil (amount : ε → M) (node : ι) : inflow tail head amount [] node = 0 := rfl

theorem inflow_cons (amount : ε → M) (edge : ε) (edges : List ε) (node : ι) :
    inflow tail head amount (edge :: edges) node =
      (if head edge = node then amount edge else 0) -
        (if tail edge = node then amount edge else 0) + inflow tail head amount edges node := by
  rw [inflow, List.map_cons, List.sum_cons, inflow]

/-- Nothing flows to a node on no edge. -/
theorem inflow_eq_zero {amount : ε → M} {node : ι}
    (apart : ∀ edge ∈ edges, tail edge ≠ node ∧ head edge ≠ node) :
    inflow tail head amount edges node = 0 := by
  induction edges with
  | nil => rfl
  | cons edge edges ih =>
      obtain ⟨⟨notTail, notHead⟩, rest⟩ := List.forall_mem_cons.mp apart
      rw [inflow_cons, if_neg notHead, if_neg notTail, ih rest, sub_zero, add_zero]

/-- The nodes gain nothing on the whole. -/
theorem sum_inflow (amount : ε → M) (among : Among tail head edges nodes) :
    ∑ node ∈ nodes, inflow tail head amount edges node = 0 := by
  induction edges with
  | nil => simp only [inflow_nil, Finset.sum_const_zero]
  | cons edge edges ih =>
      obtain ⟨⟨tailInside, headInside⟩, rest⟩ := among.of_cons
      simp only [inflow_cons, Finset.sum_add_distrib, Finset.sum_sub_distrib, Finset.sum_ite_eq,
        tailInside, headInside, if_true, ih rest, sub_self, add_zero]

theorem inflow_apply {I : Type*} {K : Type*} [AddCommGroup K] (amount : ε → I → K)
    (edges : List ε) (node : ι) (axis : I) :
    inflow tail head amount edges node axis =
      inflow tail head (fun edge => amount edge axis) edges node := by
  induction edges with
  | nil => rfl
  | cons edge edges ih =>
      rw [inflow_cons, inflow_cons, Pi.add_apply, Pi.sub_apply, ih]
      split_ifs <;> rfl

end Flow

section Measurements

variable {K : Type*} [CommRing K] {measured : ε → K} {place shift : ι → K}

theorem inflow_mul_left (factor : K) (amount : ε → K) (edges : List ε) (node : ι) :
    inflow tail head (fun edge => factor * amount edge) edges node =
      factor * inflow tail head amount edges node := by
  induction edges with
  | nil => exact (mul_zero factor).symm
  | cons edge edges ih =>
      rw [inflow_cons, inflow_cons, ih, mul_add, mul_sub, mul_ite, mul_ite, mul_zero]

/-- What a value gains along the edges is what it gains at the nodes. -/
theorem sum_mul_inflow (value : ι → K) (amount : ε → K) (among : Among tail head edges nodes) :
    ∑ node ∈ nodes, value node * inflow tail head amount edges node =
      (edges.map fun edge => (value (head edge) - value (tail edge)) * amount edge).sum := by
  induction edges with
  | nil => simp only [inflow_nil, mul_zero, Finset.sum_const_zero, List.map_nil, List.sum_nil]
  | cons edge edges ih =>
      obtain ⟨⟨tailInside, headInside⟩, rest⟩ := among.of_cons
      simp only [inflow_cons, mul_add, mul_sub, mul_ite, mul_zero, Finset.sum_add_distrib,
        Finset.sum_sub_distrib, Finset.sum_ite_eq, tailInside, headInside, if_true, ih rest,
        List.map_cons, List.sum_cons, sub_mul]

/-- How many ends of edges a node is. -/
def degree (tail head : ε → ι) (edges : List ε) (node : ι) : Nat :=
  (edges.map fun edge => (if head edge = node then 1 else 0) +
    if tail edge = node then 1 else 0).sum

theorem degree_cons (edge : ε) (edges : List ε) (node : ι) :
    degree tail head (edge :: edges) node = (if head edge = node then 1 else 0) +
      (if tail edge = node then 1 else 0) + degree tail head edges node := by
  rw [degree, List.map_cons, List.sum_cons, degree]

theorem degree_le (edges : List ε) (node : ι) :
    degree tail head edges node ≤ 2 * edges.length := by
  induction edges with
  | nil => exact Nat.le_refl 0
  | cons edge edges ih =>
      rw [degree_cons, List.length_cons]
      split_ifs <;> omega

/-- A value at the ends of all edges. -/
theorem sum_ends (value : ι → K) (among : Among tail head edges nodes) :
    (edges.map fun edge => value (head edge) + value (tail edge)).sum =
      ∑ node ∈ nodes, degree tail head edges node * value node := by
  induction edges with
  | nil => simp [degree]
  | cons edge edges ih =>
      obtain ⟨⟨tailInside, headInside⟩, rest⟩ := among.of_cons
      simp only [degree_cons, Nat.cast_add, Nat.cast_ite, Nat.cast_one, Nat.cast_zero, add_mul,
        ite_mul, one_mul, zero_mul, Finset.sum_add_distrib, Finset.sum_ite_eq, tailInside,
        headInside, if_true, List.map_cons, List.sum_cons, ih rest]

/-- How much farther the head should lie from the tail. -/
def error (tail head : ε → ι) (measured : ε → K) (place : ι → K) (edge : ε) : K :=
  measured edge - (place (head edge) - place (tail edge))

def squaredError (tail head : ε → ι) (measured : ε → K) (edges : List ε) (place : ι → K) : K :=
  (edges.map fun edge => error tail head measured place edge ^ 2).sum

omit [DecidableEq ι] in
/-- The errors of nodes that have moved. -/
theorem squaredError_shifted (tail head : ε → ι) (measured : ε → K) (edges : List ε)
    (place shift : ι → K) :
    squaredError tail head measured edges (fun node => place node + shift node) =
      squaredError tail head measured edges place -
        2 * (edges.map fun edge => (shift (head edge) - shift (tail edge)) *
          error tail head measured place edge).sum +
        (edges.map fun edge => (shift (head edge) - shift (tail edge)) ^ 2).sum := by
  simp only [squaredError, error]
  induction edges with
  | nil => simp
  | cons edge edges ih =>
      simp only [List.map_cons, List.sum_cons, ih]
      ring

/-- What flows when every edge carries its error. -/
def pull (tail head : ε → ι) (measured : ε → K) (edges : List ε) (place : ι → K) : ι → K :=
  inflow tail head (error tail head measured place) edges

end Measurements

section Order

variable {K : Type*} [Field K] [LinearOrder K] [IsStrictOrderedRing K] {measured : ε → K}
  {place : ι → K}

/-- The differences along the edges, bounded by the squares at the nodes. -/
theorem sum_sq_sub_le (shift : ι → K) {bound : Nat} (among : Among tail head edges nodes)
    (bounded : ∀ node ∈ nodes, degree tail head edges node ≤ bound) :
    (edges.map fun edge => (shift (head edge) - shift (tail edge)) ^ 2).sum ≤
      2 * bound * ∑ node ∈ nodes, shift node ^ 2 := by
  have along : (edges.map fun edge => (shift (head edge) - shift (tail edge)) ^ 2).sum ≤
      (edges.map fun edge => 2 * shift (head edge) ^ 2 + 2 * shift (tail edge) ^ 2).sum := by
    apply List.sum_le_sum
    intro edge _
    have square := sq_nonneg (shift (head edge) + shift (tail edge))
    linarith [add_sq (shift (head edge)) (shift (tail edge)),
      sub_sq (shift (head edge)) (shift (tail edge))]
  refine along.trans ?_
  rw [sum_ends (fun node => 2 * shift node ^ 2) among, Finset.mul_sum]
  apply Finset.sum_le_sum
  intro node inside
  have few : (degree tail head edges node : K) ≤ bound := Nat.cast_le.mpr (bounded node inside)
  calc degree tail head edges node * (2 * shift node ^ 2)
      ≤ bound * (2 * shift node ^ 2) := mul_le_mul_of_nonneg_right few (by positivity)
    _ = 2 * bound * shift node ^ 2 := by ring

/-- Nodes that move along a part of the pull come closer to what was measured. -/
theorem squaredError_pulled_le (place : ι → K) (measured : ε → K) {bound : Nat}
    (among : Among tail head edges nodes)
    (bounded : ∀ node ∈ nodes, degree tail head edges node ≤ bound) (part : K) :
    squaredError tail head measured edges
        (fun node => place node + part * pull tail head measured edges place node) ≤
      squaredError tail head measured edges place -
        2 * part * (1 - part * bound) *
          ∑ node ∈ nodes, pull tail head measured edges place node ^ 2 := by
  have shifted := squaredError_shifted tail head measured edges place
    fun node => part * pull tail head measured edges place node
  have gained := sum_mul_inflow (fun node => part * pull tail head measured edges place node)
    (error tail head measured place) among
  have spread := sum_sq_sub_le (fun node => part * pull tail head measured edges place node) among
    bounded
  rw [shifted, ← gained]
  simp only [mul_pow, ← Finset.mul_sum] at spread
  have same : ∑ node ∈ nodes, part * pull tail head measured edges place node *
      inflow tail head (error tail head measured place) edges node =
        part * ∑ node ∈ nodes, pull tail head measured edges place node ^ 2 := by
    rw [Finset.mul_sum]
    apply Finset.sum_congr rfl
    intro node _
    rw [pull]
    ring
  rw [same]
  linarith

/-- The nodes that nothing pulls at are those with the least squares. -/
theorem pull_eq_zero_iff (among : Among tail head edges nodes) :
    (∀ node ∈ nodes, pull tail head measured edges place node = 0) ↔
      ∀ other, squaredError tail head measured edges place ≤
        squaredError tail head measured edges other := by
  constructor
  · intro still other
    have shifted := squaredError_shifted tail head measured edges place
      fun node => other node - place node
    have gained := sum_mul_inflow (fun node => other node - place node)
      (error tail head measured place) among
    have nothing : ∑ node ∈ nodes, (other node - place node) *
        inflow tail head (error tail head measured place) edges node = 0 := by
      apply Finset.sum_eq_zero
      intro node inside
      exact mul_eq_zero_of_right _ (still node inside)
    have squares : 0 ≤ (edges.map fun edge => ((other (head edge) - place (head edge)) -
        (other (tail edge) - place (tail edge))) ^ 2).sum := by
      apply List.sum_nonneg
      intro value listed
      obtain ⟨edge, _, rfl⟩ := List.mem_map.mp listed
      exact sq_nonneg _
    simp only [add_sub_cancel] at shifted
    rw [← gained, nothing] at shifted
    linarith
  · intro least
    have bound : (0 : K) < (2 * edges.length : Nat) + 1 := by positivity
    have moved := (least _).trans (squaredError_pulled_le place measured among
      (fun node _ => degree_le edges node) (1 / ((2 * edges.length : Nat) + 1)))
    have gain : 2 * (1 / ((2 * edges.length : Nat) + 1)) *
        (1 - 1 / ((2 * edges.length : Nat) + 1) * (2 * edges.length : Nat)) =
          2 * (1 / (((2 * edges.length : Nat) : K) + 1)) ^ 2 := by
      field_simp
      ring
    rw [gain] at moved
    have positive : 0 < 2 * (1 / (((2 * edges.length : Nat) : K) + 1)) ^ 2 := by positivity
    have small : ∑ node ∈ nodes, pull tail head measured edges place node ^ 2 ≤ 0 := by
      by_contra large
      have product := mul_pos positive (not_le.mp large)
      linarith
    intro node inside
    have zero := (Finset.sum_eq_zero_iff_of_nonneg fun node _ => sq_nonneg
      (pull tail head measured edges place node)).mp
        (small.antisymm (Finset.sum_nonneg fun node _ => sq_nonneg _)) node inside
    exact pow_eq_zero_iff two_ne_zero |>.mp zero

end Order

end EdgeFlows

end MiniIotRobotEdge

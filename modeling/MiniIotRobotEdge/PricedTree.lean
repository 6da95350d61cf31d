import Mathlib.Algebra.Order.Monoid.Defs
import Mathlib.Data.List.Chain
import MiniIotRobotEdge.UniqueWalk

/-!
# Trees of parents with costs

A relation leads every node of a tree to its parent, and a node costs at least
as much as its parent and the way between them.  A cost may be greater than
that: nodes can get new parents and cheaper costs while the nodes below them
keep what they have, and the tree stays a tree.
-/

namespace MiniIotRobotEdge

namespace PricedTree

open Relation

variable {ι K : Type*} {parent after : ι → ι → Prop} {members : Set ι} {root : ι}

/-- The parents lead from every member to the root. -/
structure Rooted (parent : ι → ι → Prop) (members : Set ι) (root : ι) : Prop where
  unique : Relator.RightUnique parent
  top : ∀ {other}, ¬ parent root other
  closed : ∀ {node other}, node ∈ members → parent node other → other ∈ members
  reaches : ∀ {node}, node ∈ members → ReflTransGen parent node root

/-- A walk to the root does not come from a cycle. -/
theorem Rooted.acyclic (rooted : Rooted parent members root) {node : ι} (isMember : node ∈ members) :
    ¬ TransGen parent node node := by
  intro cycle
  have caught : UniqueWalk.ReachesCycle parent root := by
    refine ReflTransGen.rec (motive := fun last _ => UniqueWalk.ReachesCycle parent last)
      ⟨node, .refl, cycle⟩ ?_ (rooted.reaches isMember)
    intro middle last _ step caught
    exact caught.tail rooted.unique step
  obtain ⟨_, step, _⟩ := caught.exists_step
  exact rooted.top step

/-- Every member but the root has a parent. -/
theorem Rooted.exists_parent (rooted : Rooted parent members root) {node : ι}
    (isMember : node ∈ members) (notRoot : node ≠ root) :
    ∃ other ∈ members, parent node other := by
  rcases ReflTransGen.cases_head (rooted.reaches isMember) with isRoot | ⟨other, step, _⟩
  · exact absurd isRoot notRoot
  · exact ⟨other, rooted.closed isMember step, step⟩

/-- The nodes on the way to the root, which starts with the given one. -/
theorem Rooted.exists_chain (rooted : Rooted parent members root) {node : ι}
    (isMember : node ∈ members) :
    ∃ rest, List.IsChain parent (node :: rest) ∧
      (node :: rest).getLast (List.cons_ne_nil node rest) = root :=
  List.exists_isChain_cons_of_relationReflTransGen (rooted.reaches isMember)

section Costs

variable [AddCommMonoid K] [PartialOrder K] [IsOrderedAddMonoid K] {cost : ι → K}
  {dist : ι → ι → K}

/-- A node costs at least as much as its parent and the way to it. -/
def Priced (parent : ι → ι → Prop) (members : Set ι) (cost : ι → K) (dist : ι → ι → K) : Prop :=
  ∀ ⦃node other⦄, node ∈ members → parent node other → cost other + dist node other ≤ cost node

/-- The length of the way along some nodes. -/
def wayLength (dist : ι → ι → K) : List ι → K
  | node :: other :: rest => dist node other + wayLength dist (other :: rest)
  | _ => 0

theorem Priced.parent_le (priced : Priced parent members cost dist)
    (nonneg : ∀ node other, 0 ≤ dist node other) {node other : ι} (isMember : node ∈ members)
    (step : parent node other) : cost other ≤ cost node :=
  (le_add_of_nonneg_right (nonneg node other)).trans (priced isMember step)

theorem Priced.walk_le (priced : Priced parent members cost dist)
    (nonneg : ∀ node other, 0 ≤ dist node other) (rooted : Rooted parent members root)
    {node last : ι} (isMember : node ∈ members) (walk : ReflTransGen parent node last) :
    last ∈ members ∧ cost last ≤ cost node := by
  induction walk with
  | refl => exact ⟨isMember, le_rfl⟩
  | tail _ step ih =>
      obtain ⟨inside, cheaper⟩ := ih
      exact ⟨rooted.closed inside step, (priced.parent_le nonneg inside step).trans cheaper⟩

/-- The cost of a node pays the way to the end of a chain of parents and the cost there. -/
theorem Priced.wayLength_le (priced : Priced parent members cost dist)
    (rooted : Rooted parent members root) {node : ι} {rest : List ι} (isMember : node ∈ members)
    (chain : List.IsChain parent (node :: rest)) :
    cost ((node :: rest).getLast (List.cons_ne_nil node rest)) + wayLength dist (node :: rest) ≤
      cost node := by
  induction rest generalizing node with
  | nil => exact (add_zero _).le
  | cons other rest ih =>
      obtain ⟨step, chain⟩ := List.isChain_cons_cons.mp chain
      have paid := ih (rooted.closed isMember step) chain
      rw [List.getLast_cons_cons, wayLength, add_left_comm, add_comm (dist node other)]
      exact (add_le_add_left paid _).trans (priced isMember step)

omit [PartialOrder K] [IsOrderedAddMonoid K] in
/-- Where every edge costs its length, a node costs the way to the end of a chain of parents. -/
theorem wayLength_eq (exact : ∀ ⦃node other⦄, node ∈ members → parent node other →
      cost other + dist node other = cost node)
    (rooted : Rooted parent members root) {node : ι} {rest : List ι} (isMember : node ∈ members)
    (chain : List.IsChain parent (node :: rest)) :
    cost ((node :: rest).getLast (List.cons_ne_nil node rest)) + wayLength dist (node :: rest) =
      cost node := by
  induction rest generalizing node with
  | nil => exact add_zero _
  | cons other rest ih =>
      obtain ⟨step, chain⟩ := List.isChain_cons_cons.mp chain
      rw [List.getLast_cons_cons, wayLength, add_left_comm, ih (rooted.closed isMember step) chain,
        add_comm, exact isMember step]

/-- A new node below a cheap one, and under it some expensive nodes: those that the new node
hangs from are too cheap to be moved. -/
theorem Rooted.reaches_of_relink (rooted : Rooted parent members root)
    (priced : Priced parent members cost dist) (nonneg : ∀ node other, 0 ≤ dist node other)
    {hook new : ι} {bound : K} (isMember : hook ∈ members) (cheap : cost hook ≤ bound)
    (hung : after new hook)
    (relinked : ∀ {node}, node ∈ members →
      (∀ {other}, parent node other → after node other) ∨ bound < cost node ∧ after node new)
    {node : ι} (inside : node ∈ members ∨ node = new) : ReflTransGen after node root := by
  have stays : ∀ {node}, node ∈ members → cost node ≤ bound → ReflTransGen after node root := by
    intro node inside affordable
    induction rooted.reaches inside using ReflTransGen.head_induction_on with
    | refl => exact .refl
    | head step _ ih =>
        rcases relinked inside with kept | ⟨dear, _⟩
        · exact .head (kept step) (ih (rooted.closed inside step)
            ((priced.parent_le nonneg inside step).trans affordable))
        · exact absurd affordable dear.not_ge
  have fromNew : ReflTransGen after new root := .head hung (stays isMember cheap)
  rcases inside with inside | rfl
  · induction rooted.reaches inside using ReflTransGen.head_induction_on with
    | refl => exact .refl
    | head step _ ih =>
        rcases relinked inside with kept | ⟨_, moved⟩
        · exact .head (kept step) (ih (rooted.closed inside step))
        · exact .head moved fromNew
  · exact fromNew

end Costs

end PricedTree

end MiniIotRobotEdge

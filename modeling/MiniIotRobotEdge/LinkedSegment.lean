import Mathlib.Data.List.Basic

/-!
# Doubly linked segments

A segment of a doubly linked list lies between the node before it and the node
after it, which may be null pointers.  A segment can be cut anywhere, a node
can be linked in behind another one, and the node behind another one can be
taken out.
-/

namespace MiniIotRobotEdge

namespace LinkedSegment

variable {Node : Type*}

/-- `nodes` are linked in order, behind `before` and in front of `after`. -/
def Segment (next prev : Node → Node) : Node → List Node → Node → Prop
  | _, [], _ => True
  | before, node :: rest, after =>
      prev node = before ∧ next node = rest.headD after ∧ Segment next prev node rest after

namespace Segment

variable {next prev next' prev' : Node → Node} {before node after : Node}
  {nodes first second : List Node}

theorem append_iff : Segment next prev before (first ++ second) after ↔
    Segment next prev before first (second.headD after) ∧
      Segment next prev (first.getLastD before) second after := by
  induction first generalizing before with
  | nil => simp [Segment]
  | cons head rest ih =>
      have follower : (rest ++ second).headD after = rest.headD (second.headD after) := by
        cases rest <;> rfl
      rw [List.cons_append, Segment, Segment, ih, follower, List.getLastD_cons]
      simp only [and_assoc]

/-- A segment around one of its nodes. -/
theorem middle_iff : Segment next prev before (first ++ node :: second) after ↔
    Segment next prev before first node ∧ prev node = first.getLastD before ∧
      next node = second.headD after ∧ Segment next prev node second after := by
  rw [append_iff, Segment, List.headD_cons]

theorem congr (segment : Segment next prev before nodes after)
    (nextEq : ∀ node ∈ nodes, next' node = next node)
    (prevEq : ∀ node ∈ nodes, prev' node = prev node) :
    Segment next' prev' before nodes after := by
  induction nodes generalizing before with
  | nil => trivial
  | cons node rest ih =>
      obtain ⟨prevNode, nextNode, restLinked⟩ := segment
      refine ⟨(prevEq node (by simp)).trans prevNode, (nextEq node (by simp)).trans nextNode, ?_⟩
      exact ih restLinked (fun other isMember => nextEq other (by simp [isMember]))
        (fun other isMember => prevEq other (by simp [isMember]))

/-- Hang a segment behind another node. -/
theorem relink (segment : Segment next prev before nodes after) {other : Node}
    (headPrev : ∀ head ∈ nodes.head?, prev' head = other)
    (nextEq : ∀ node ∈ nodes, next' node = next node)
    (prevEq : ∀ node ∈ nodes.tail, prev' node = prev node) :
    Segment next' prev' other nodes after := by
  cases nodes with
  | nil => trivial
  | cons node rest =>
      obtain ⟨_, nextNode, restLinked⟩ := segment
      refine ⟨headPrev node rfl, (nextEq node (by simp)).trans nextNode, ?_⟩
      exact restLinked.congr (fun member isMember => nextEq member (by simp [isMember])) prevEq

/-- Link a new node in behind `node`. -/
theorem insertAfter {new : Node}
    (segment : Segment next prev before (first ++ node :: second) after)
    (nodeNext : next' node = new) (newPrev : prev' new = node)
    (newNext : next' new = next node) (nodePrev : prev' node = prev node)
    (headPrev : ∀ head ∈ second.head?, prev' head = new)
    (firstEq : ∀ other ∈ first, next' other = next other ∧ prev' other = prev other)
    (secondNext : ∀ other ∈ second, next' other = next other)
    (secondPrev : ∀ other ∈ second.tail, prev' other = prev other) :
    Segment next' prev' before (first ++ node :: new :: second) after := by
  obtain ⟨firstLinked, prevNode, nextNode, secondLinked⟩ := middle_iff.mp segment
  refine middle_iff.mpr ⟨?_, nodePrev.trans prevNode, nodeNext, newPrev, ?_, ?_⟩
  · exact firstLinked.congr (fun other isMember => (firstEq other isMember).1)
      (fun other isMember => (firstEq other isMember).2)
  · exact newNext.trans nextNode
  · exact secondLinked.relink headPrev secondNext secondPrev

/-- Take the node behind `node` out. -/
theorem removeAfter {gone : Node}
    (segment : Segment next prev before (first ++ node :: gone :: second) after)
    (nodeNext : next' node = next gone) (nodePrev : prev' node = prev node)
    (headPrev : ∀ head ∈ second.head?, prev' head = node)
    (firstEq : ∀ other ∈ first, next' other = next other ∧ prev' other = prev other)
    (secondNext : ∀ other ∈ second, next' other = next other)
    (secondPrev : ∀ other ∈ second.tail, prev' other = prev other) :
    Segment next' prev' before (first ++ node :: second) after := by
  obtain ⟨firstLinked, prevNode, _, _, goneNext, secondLinked⟩ := middle_iff.mp segment
  refine middle_iff.mpr ⟨?_, nodePrev.trans prevNode, nodeNext.trans goneNext, ?_⟩
  · exact firstLinked.congr (fun other isMember => (firstEq other isMember).1)
      (fun other isMember => (firstEq other isMember).2)
  · exact secondLinked.relink headPrev secondNext secondPrev

end Segment

end LinkedSegment

end MiniIotRobotEdge

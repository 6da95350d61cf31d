import Mathlib.Data.Finset.Card
import MiniIotRobotEdge.RtosTaskScheduler
import MiniIotRobotEdge.UniqueWalk

/-!
# Cycles by depth-first search

The model of `deadlock_dfs` in `semaphore_mutex.c`.  A node is white before its
visit, gray during it and black behind it.  Gray nodes lead to the node that is
visited, so an edge to one of them closes a cycle; black nodes lead to none.
-/

namespace MiniIotRobotEdge

namespace Rtos

open Relation UniqueWalk

def white : UInt8 := 0
def gray : UInt8 := 1
def black : UInt8 := 2

/-- The loop of `deadlock_dfs` over the nodes that are left.  Indices are `uint32_t`. -/
def deadlockEdges (visit : Nat → (Nat → UInt8) → Option (Int × (Nat → UInt8)))
    (adjMatrix : Nat → Nat) (n node : Nat) :
    List Nat → (Nat → UInt8) → Option (Int × (Nat → UInt8))
  | [], visited => some (0, Function.update visited node black)
  | i :: rest, visited =>
      if adjMatrix ((node * n + i) % uint32Size) ≠ 0 then
        if visited i = gray then some (1, visited)
        else if visited i = white then
          match visit i visited with
          | none => none
          | some (result, visited) =>
              if result ≠ 0 then some (1, visited)
              else deadlockEdges visit adjMatrix n node rest visited
        else deadlockEdges visit adjMatrix n node rest visited
      else deadlockEdges visit adjMatrix n node rest visited

/-- `deadlock_dfs`, with fuel for the depth of the recursion. -/
def deadlockDfs (adjMatrix : Nat → Nat) (n : Nat) :
    Nat → Nat → (Nat → UInt8) → Option (Int × (Nat → UInt8))
  | 0, _, _ => none
  | fuel + 1, node, visited =>
      deadlockEdges (deadlockDfs adjMatrix n fuel) adjMatrix n node (List.range n)
        (Function.update visited node gray)

/-- The matrix has an edge between two of its nodes. -/
def HasEdge (adjMatrix : Nat → Nat) (n first second : Nat) : Prop :=
  first < n ∧ second < n ∧ adjMatrix (first * n + second) ≠ 0

section Search

variable {adjMatrix : Nat → Nat} {n node : Nat} {visited after : Nat → UInt8}

def Finished (visited : Nat → UInt8) (node : Nat) : Prop :=
  visited node ≠ white ∧ visited node ≠ gray

def whites (n : Nat) (visited : Nat → UInt8) : Finset Nat :=
  (Finset.range n).filter fun node => visited node = white

/-- Gray nodes lead to the node, and finished ones to no cycle. -/
structure Colored (adjMatrix : Nat → Nat) (n node : Nat) (visited : Nat → UInt8) : Prop where
  grays : ∀ other, visited other = gray → ReflTransGen (HasEdge adjMatrix n) other node
  acyclic : ∀ other, Finished visited other → ¬ReachesCycle (HasEdge adjMatrix n) other

/-- The node is visited, and of its edges only those to the rest are left. -/
structure AtNode (adjMatrix : Nat → Nat) (n node : Nat) (visited : Nat → UInt8)
    (rest : List Nat) : Prop where
  colored : Colored adjMatrix n node visited
  isGray : visited node = gray
  covered : ∀ i, HasEdge adjMatrix n node i → i ∉ rest → Finished visited i
  inside : ∀ i ∈ rest, i < n

/-- What a visit does that finds no cycle. -/
structure Settled (adjMatrix : Nat → Nat) (n node : Nat) (visited after : Nat → UInt8) :
    Prop where
  finished : Finished after node
  acyclic : ∀ other, Finished after other → ¬ReachesCycle (HasEdge adjMatrix n) other
  kept : ∀ other, other ≠ node → visited other ≠ white → after other = visited other
  grays : ∀ other, after other = gray → other ≠ node ∧ visited other = gray

inductive Outcome (adjMatrix : Nat → Nat) (n node : Nat) (visited : Nat → UInt8) :
    Option (Int × (Nat → UInt8)) → Prop
  | cycle {after : Nat → UInt8} (reaches : ReachesCycle (HasEdge adjMatrix n) node) :
      Outcome adjMatrix n node visited (some (1, after))
  | settled {after : Nat → UInt8} (settled : Settled adjMatrix n node visited after) :
      Outcome adjMatrix n node visited (some (0, after))

theorem Settled.whites_subset (settled : Settled adjMatrix n node visited after) :
    whites n after ⊆ whites n visited := by
  intro other member
  obtain ⟨inside, isWhite⟩ := Finset.mem_filter.mp member
  refine Finset.mem_filter.mpr ⟨inside, ?_⟩
  by_contra notWhite
  have differs : other ≠ node := by
    rintro rfl
    exact settled.finished.1 isWhite
  exact notWhite ((settled.kept other differs notWhite).symm.trans isWhite)

/-- A node is left without a cycle when all its successors are finished. -/
theorem AtNode.settled (atNode : AtNode adjMatrix n node visited []) :
    Settled adjMatrix n node visited (Function.update visited node black) where
  finished := by
    rw [Finished, Function.update_self]
    decide
  acyclic := by
    intro other finished
    by_cases same : other = node
    · subst same
      intro reaches
      obtain ⟨second, edge, caught⟩ := reaches.exists_step
      exact atNode.colored.acyclic second (atNode.covered second edge List.not_mem_nil) caught
    · rw [Finished, Function.update_of_ne same] at finished
      exact atNode.colored.acyclic other finished
  kept := fun other differs _ => Function.update_of_ne differs ..
  grays := by
    intro other isGray
    by_cases same : other = node
    · subst same
      rw [Function.update_self] at isGray
      exact absurd isGray (by decide)
    · rw [Function.update_of_ne same] at isGray
      exact ⟨same, isGray⟩

/-- An edge to a gray node closes a cycle. -/
theorem AtNode.reachesCycle {i : Nat} {rest : List Nat}
    (atNode : AtNode adjMatrix n node visited rest) (edge : HasEdge adjMatrix n node i)
    (isGray : visited i = gray) : ReachesCycle (HasEdge adjMatrix n) node :=
  ⟨node, .refl, .head' edge (atNode.colored.grays i isGray)⟩

/-- Gray nodes lead to the successors of the node. -/
theorem AtNode.colored_next {i : Nat} {rest : List Nat}
    (atNode : AtNode adjMatrix n node visited rest) (edge : HasEdge adjMatrix n node i) :
    Colored adjMatrix n i visited where
  grays := fun other isGray => (atNode.colored.grays other isGray).tail edge
  acyclic := atNode.colored.acyclic

/-- The next edge is done with where there is none, or where its node is finished. -/
theorem AtNode.skip {i : Nat} {rest : List Nat}
    (atNode : AtNode adjMatrix n node visited (i :: rest))
    (done : HasEdge adjMatrix n node i → Finished visited i) :
    AtNode adjMatrix n node visited rest where
  colored := atNode.colored
  isGray := atNode.isGray
  covered := by
    intro other edge notLeft
    by_cases same : other = i
    · subst same
      exact done edge
    · exact atNode.covered other edge (by simp [same, notLeft])
  inside := fun other left => atNode.inside other (List.mem_cons_of_mem i left)

/-- The visit of the next node leaves what the loop relies on. -/
theorem AtNode.visit {i : Nat} {rest : List Nat}
    (atNode : AtNode adjMatrix n node visited (i :: rest)) (isWhite : visited i = white)
    (settled : Settled adjMatrix n i visited after) : AtNode adjMatrix n node after rest where
  colored :=
    { grays := fun other isGray => atNode.colored.grays other (settled.grays other isGray).2
      acyclic := settled.acyclic }
  isGray := by
    have differs : node ≠ i := by
      rintro rfl
      exact absurd (atNode.isGray.symm.trans isWhite) (by decide)
    rw [settled.kept node differs (by rw [atNode.isGray]; decide)]
    exact atNode.isGray
  covered := by
    intro other edge notLeft
    by_cases same : other = i
    · subst same
      exact settled.finished
    · have finished := atNode.covered other edge (by simp [same, notLeft])
      rw [Finished, settled.kept other same finished.1]
      exact finished
  inside := fun other left => atNode.inside other (List.mem_cons_of_mem i left)

/-- A visit behind another one settles what both together do. -/
theorem Settled.trans {i : Nat} {between : Nat → UInt8} (isWhite : visited i = white)
    (first : Settled adjMatrix n i visited between)
    (second : Settled adjMatrix n node between after) :
    Settled adjMatrix n node visited after where
  finished := second.finished
  acyclic := second.acyclic
  kept := by
    intro other differs notWhite
    have notFirst : other ≠ i := by
      rintro rfl
      exact notWhite isWhite
    have same := first.kept other notFirst notWhite
    rw [second.kept other differs (by rwa [same]), same]
  grays := by
    intro other isOtherGray
    obtain ⟨differs, grayBetween⟩ := second.grays other isOtherGray
    exact ⟨differs, (first.grays other grayBetween).2⟩

theorem Outcome.trans {i : Nat} {between : Nat → UInt8} {result : Option (Int × (Nat → UInt8))}
    (isWhite : visited i = white) (first : Settled adjMatrix n i visited between)
    (second : Outcome adjMatrix n node between result) :
    Outcome adjMatrix n node visited result := by
  cases second with
  | cycle reaches => exact .cycle reaches
  | settled settled => exact .settled (first.trans isWhite settled)

/-- The loop over the edges that are left, for a visit that works on fewer white nodes. -/
theorem deadlockEdges_outcome {fuel : Nat} (square : n * n < uint32Size) (isNode : node < n)
    {visit : Nat → (Nat → UInt8) → Option (Int × (Nat → UInt8))}
    (visits : ∀ i visited, i < n → visited i = white → Colored adjMatrix n i visited →
      (whites n visited).card ≤ fuel → Outcome adjMatrix n i visited (visit i visited))
    {rest : List Nat} (atNode : AtNode adjMatrix n node visited rest)
    (enough : (whites n visited).card ≤ fuel) :
    Outcome adjMatrix n node visited
      (deadlockEdges visit adjMatrix n node rest visited) := by
  induction rest generalizing visited with
  | nil => exact .settled atNode.settled
  | cons i rest ih =>
      have inside := atNode.inside i List.mem_cons_self
      have noWrap : (node * n + i) % uint32Size = node * n + i := by
        have row : (node + 1) * n ≤ n * n := Nat.mul_le_mul_right n isNode
        rw [Nat.succ_mul] at row
        exact Nat.mod_eq_of_lt (by omega)
      rw [deadlockEdges, noWrap]
      split_ifs with isEdge isGray isWhite
      · exact .cycle (atNode.reachesCycle ⟨isNode, inside, isEdge⟩ isGray)
      · have edge : HasEdge adjMatrix n node i := ⟨isNode, inside, isEdge⟩
        have outcome := visits i visited inside isWhite (atNode.colored_next edge) enough
        generalize visit i visited = result at outcome ⊢
        cases outcome with
        | cycle reaches => exact .cycle (reaches.head edge)
        | settled settled =>
            have fewer := (Finset.card_le_card settled.whites_subset).trans enough
            exact (ih (atNode.visit isWhite settled) fewer).trans isWhite settled
      · exact ih (atNode.skip fun _ => ⟨isWhite, isGray⟩) enough
      · exact ih (atNode.skip fun edge => absurd edge.2.2 isEdge) enough

/-- A node that is coloured gray is no white one any more. -/
theorem whites_update_gray (isNode : node < n) (isWhite : visited node = white) :
    (whites n (Function.update visited node gray)).card < (whites n visited).card := by
  apply Finset.card_lt_card
  rw [Finset.ssubset_iff_of_subset]
  · exact ⟨node, Finset.mem_filter.mpr ⟨Finset.mem_range.mpr isNode, isWhite⟩, by
      rw [whites, Finset.mem_filter, Function.update_self]
      exact fun member => absurd member.2 (by decide)⟩
  · intro other member
    obtain ⟨inside, stillWhite⟩ := Finset.mem_filter.mp member
    rcases eq_or_ne other node with rfl | differs
    · exact Finset.mem_filter.mpr ⟨inside, isWhite⟩
    · rw [Function.update_of_ne differs] at stillWhite
      exact Finset.mem_filter.mpr ⟨inside, stillWhite⟩

/-- The visit of a node starts with all of its edges left. -/
theorem Colored.atNode (colored : Colored adjMatrix n node visited) :
    AtNode adjMatrix n node (Function.update visited node gray) (List.range n) where
  colored :=
    { grays := by
        intro other isGray
        rcases eq_or_ne other node with rfl | differs
        · exact .refl
        · rw [Function.update_of_ne differs] at isGray
          exact colored.grays other isGray
      acyclic := by
        intro other finished
        rcases eq_or_ne other node with rfl | differs
        · exact absurd (Function.update_self ..) finished.2
        · rw [Finished, Function.update_of_ne differs] at finished
          exact colored.acyclic other finished }
  isGray := Function.update_self ..
  covered := fun i edge notLeft => absurd (List.mem_range.mpr edge.2.1) notLeft
  inside := fun i left => List.mem_range.mp left

/-- The gray colour of the node itself does not show behind its visit. -/
theorem Settled.of_update
    (settled : Settled adjMatrix n node (Function.update visited node gray) after) :
    Settled adjMatrix n node visited after where
  finished := settled.finished
  acyclic := settled.acyclic
  kept := by
    intro other differs notWhite
    have kept := settled.kept other differs
    rw [Function.update_of_ne differs] at kept
    exact kept notWhite
  grays := by
    intro other isGray
    obtain ⟨differs, wasGray⟩ := settled.grays other isGray
    rw [Function.update_of_ne differs] at wasGray
    exact ⟨differs, wasGray⟩

/-- A visit of a white node finds a cycle that it reaches, or settles the node. -/
theorem deadlockDfs_outcome (square : n * n < uint32Size) {fuel : Nat} (isNode : node < n)
    (isWhite : visited node = white) (colored : Colored adjMatrix n node visited)
    (enough : (whites n visited).card ≤ fuel) :
    Outcome adjMatrix n node visited (deadlockDfs adjMatrix n fuel node visited) := by
  induction fuel generalizing node visited with
  | zero =>
      have member : node ∈ whites n visited :=
        Finset.mem_filter.mpr ⟨Finset.mem_range.mpr isNode, isWhite⟩
      exact absurd (Finset.card_pos.mpr ⟨node, member⟩) (by omega)
  | succ fuel ih =>
      have fewer := whites_update_gray isNode isWhite
      have outcome := deadlockEdges_outcome square isNode
        (fun i visited inside isWhite colored enough => ih inside isWhite colored enough)
        colored.atNode (by omega)
      rw [deadlockDfs]
      generalize deadlockEdges _ adjMatrix n node _ _ = result at outcome ⊢
      cases outcome with
      | cycle reaches => exact .cycle reaches
      | settled settled => exact .settled settled.of_update

theorem Colored.of_white (adjMatrix : Nat → Nat) (n node : Nat) :
    Colored adjMatrix n node fun _ => white where
  grays := fun _ isGray => absurd isGray (by decide)
  acyclic := fun _ finished => absurd rfl finished.1

/-- The search from a node of a graph that is all white ends, and it returns 1 exactly
when the node reaches a cycle. -/
theorem deadlockDfs_eq_one_iff (adjMatrix : Nat → Nat) {n node fuel : Nat}
    (square : n * n < uint32Size) (isNode : node < n) (enough : n ≤ fuel) :
    ∃ result visited,
      deadlockDfs adjMatrix n fuel node (fun _ => white) = some (result, visited) ∧
        (result = 0 ∨ result = 1) ∧
          (result = 1 ↔ ReachesCycle (HasEdge adjMatrix n) node) := by
  have fewer : (whites n fun _ => white).card ≤ fuel := by
    refine (Finset.card_filter_le _ _).trans ?_
    rwa [Finset.card_range]
  have outcome := deadlockDfs_outcome square isNode rfl (.of_white adjMatrix n node) fewer
  generalize deadlockDfs adjMatrix n fuel node (fun _ => white) = result at outcome ⊢
  cases outcome with
  | cycle reaches => exact ⟨1, _, rfl, .inr rfl, fun _ => reaches, fun _ => rfl⟩
  | settled settled =>
      have acyclic := settled.acyclic node settled.finished
      exact ⟨0, _, rfl, .inl rfl, fun one => absurd one (by decide),
        fun reaches => absurd reaches acyclic⟩

/-- Two tasks that wait for each other, and a third that waits for one of them. -/
theorem deadlockDfs_eq_one_iff_pair :
    3 * 3 < uint32Size ∧ 2 < 3 ∧ 3 ≤ 3 ∧
      ∃ result visited,
        deadlockDfs (fun cell => if cell ∈ [1, 3, 6] then 1 else 0) 3 3 2 (fun _ => white) =
            some (result, visited) ∧
          (result = 0 ∨ result = 1) ∧
            (result = 1 ↔
              ReachesCycle (HasEdge (fun cell => if cell ∈ [1, 3, 6] then 1 else 0) 3) 2) :=
  ⟨by decide, by decide, le_rfl,
    deadlockDfs_eq_one_iff _ (by decide) (by decide) le_rfl⟩

end Search

end Rtos

end MiniIotRobotEdge

import Mathlib.Data.List.Rotate
import Mathlib.Data.List.Nodup
import Mathlib.Logic.Function.Basic

/-!
# Circular doubly linked lists

A ring is a head pointer and two total functions `next` and `prev` on nodes.
`Ring` relates them to the list of nodes met from the head: following `next`
once rotates the list, and `prev` undoes it.  The edits of such a ring
(insertion at the tail, unlinking, moving the head) are stated pointwise on
the new link functions, so that they apply to any representation of the nodes.
-/

namespace MiniIotRobotEdge

namespace PointerRing

variable {Node : Type*}

/-- `nodes` are the nodes of the circular list at `head`, in `next` order. -/
structure Ring (next prev : Node → Node) (head : Option Node)
    (nodes : List Node) : Prop where
  head_eq : head = nodes.head?
  nodup : nodes.Nodup
  next_rotate : nodes.map next = nodes.rotate 1
  prev_next : ∀ node ∈ nodes, prev (next node) = node

namespace Ring

variable {next prev next' prev' : Node → Node} {head : Option Node}
  {nodes : List Node}

theorem nil (next prev : Node → Node) : Ring next prev none [] :=
  ⟨rfl, List.nodup_nil, rfl, by simp⟩

theorem singleton {node : Node} (nextEq : next node = node)
    (prevEq : prev node = node) : Ring next prev (some node) [node] :=
  ⟨rfl, List.nodup_singleton node, by simp [nextEq], by simp [nextEq, prevEq]⟩

theorem eq_nil_iff (ring : Ring next prev head nodes) :
    nodes = [] ↔ head = none := by
  rw [ring.head_eq, List.head?_eq_none_iff]

theorem exists_cons {first : Node} (ring : Ring next prev (some first) nodes) :
    ∃ rest, nodes = first :: rest := by
  have headEq := ring.head_eq
  cases nodes with
  | nil => simp at headEq
  | cons node rest =>
      obtain rfl : first = node := by simpa using headEq
      exact ⟨rest, rfl⟩

theorem head_mem {first : Node} (ring : Ring next prev (some first) nodes) :
    first ∈ nodes := by
  obtain ⟨rest, rfl⟩ := ring.exists_cons
  simp

theorem next_mem (ring : Ring next prev head nodes) {node : Node}
    (nodeMem : node ∈ nodes) : next node ∈ nodes := by
  have mapped := List.mem_map_of_mem (f := next) nodeMem
  rw [ring.next_rotate] at mapped
  exact List.mem_rotate.mp mapped

/-- Links outside the ring are irrelevant to it. -/
theorem congr (ring : Ring next prev head nodes)
    (nextEq : ∀ node ∈ nodes, next' node = next node)
    (prevEq : ∀ node ∈ nodes, prev' node = prev node) :
    Ring next' prev' head nodes := by
  refine ⟨ring.head_eq, ring.nodup, ?_, ?_⟩
  · rw [← ring.next_rotate]
    exact List.map_congr_left nextEq
  · intro node nodeMem
    rw [nextEq node nodeMem, prevEq _ (ring.next_mem nodeMem)]
    exact ring.prev_next node nodeMem

theorem exists_next_eq (ring : Ring next prev head nodes) {node : Node}
    (nodeMem : node ∈ nodes) : ∃ before ∈ nodes, next before = node := by
  have rotated : node ∈ nodes.rotate 1 := List.mem_rotate.mpr nodeMem
  rw [← ring.next_rotate] at rotated
  simpa using rotated

theorem prev_mem (ring : Ring next prev head nodes) {node : Node}
    (nodeMem : node ∈ nodes) : prev node ∈ nodes := by
  obtain ⟨before, beforeMem, rfl⟩ := ring.exists_next_eq nodeMem
  rwa [ring.prev_next before beforeMem]

theorem next_prev (ring : Ring next prev head nodes) {node : Node}
    (nodeMem : node ∈ nodes) : next (prev node) = node := by
  obtain ⟨before, beforeMem, rfl⟩ := ring.exists_next_eq nodeMem
  rw [ring.prev_next before beforeMem]

theorem next_injective (ring : Ring next prev head nodes) {first second : Node}
    (firstMem : first ∈ nodes) (secondMem : second ∈ nodes)
    (equal : next first = next second) : first = second := by
  rw [← ring.prev_next first firstMem, equal, ring.prev_next second secondMem]

/-- The head may be moved to any position of the ring. -/
theorem rotate (ring : Ring next prev head nodes) (count : Nat) :
    Ring next prev (nodes.rotate count).head? (nodes.rotate count) := by
  refine ⟨rfl, List.nodup_rotate.mpr ring.nodup, ?_, ?_⟩
  · rw [List.map_rotate, ring.next_rotate, List.rotate_rotate,
      List.rotate_rotate, Nat.add_comm]
  · intro node nodeMem
    exact ring.prev_next node (List.mem_rotate.mp nodeMem)

theorem of_append {before after : List Node}
    (ring : Ring next prev head (before ++ after)) :
    Ring next prev (after ++ before).head? (after ++ before) := by
  have rotated := ring.rotate before.length
  rwa [List.rotate_append_length_eq] at rotated

theorem next_cons {first second : Node} {rest : List Node}
    (ring : Ring next prev head (first :: second :: rest)) :
    next first = second := by
  have rotated := ring.next_rotate
  simp only [List.rotate_cons_succ, List.rotate_zero, List.map_cons,
    List.cons_append] at rotated
  exact (List.cons.inj rotated).1

theorem next_eq_self_iff (ring : Ring next prev head nodes) {node : Node}
    (nodeMem : node ∈ nodes) : next node = node ↔ nodes = [node] := by
  constructor
  · intro selfLink
    obtain ⟨before, after, rfl⟩ := List.append_of_mem nodeMem
    have turned := ring.of_append
    cases remaining : after ++ before with
    | nil =>
        have bothNil := List.append_eq_nil_iff.mp remaining
        simp [bothNil.1, bothNil.2]
    | cons second rest =>
        rw [List.cons_append, remaining] at turned
        have secondEq := turned.next_cons
        have distinct := turned.nodup
        rw [← secondEq, selfLink] at distinct
        simp at distinct
  · rintro rfl
    simpa using ring.next_rotate

/-- The node that follows `node` in list order, or the head after the last. -/
theorem next_of_split {first node : Node} {before after : List Node}
    (ring : Ring next prev (some first) (before ++ node :: after)) :
    next node = after.head?.getD first := by
  have turned := ring.of_append
  cases after with
  | cons second rest =>
      simp only [List.cons_append] at turned
      simpa using turned.next_cons
  | nil =>
      cases before with
      | nil =>
          have headEq : first = node := by simpa using ring.head_eq
          have single : next node = node :=
            (ring.next_eq_self_iff (by simp)).mpr (by simp)
          simpa [headEq] using single
      | cons firstNode rest =>
          have headEq : first = firstNode := by simpa using ring.head_eq
          simp only [List.cons_append, List.nil_append] at turned
          simpa [headEq] using turned.next_cons

/-- Every node of a ring is reached from its head. -/
theorem mem_of_closed {first : Node} (ring : Ring next prev (some first) nodes)
    {reached : Node → Prop} (start : reached first)
    (closed : ∀ node, reached node → reached (next node)) {node : Node}
    (nodeMem : node ∈ nodes) : reached node := by
  have ordered : ∀ before after node, nodes = before ++ node :: after → reached node := by
    intro before
    induction before using List.reverseRecOn with
    | nil =>
        intro after node split
        obtain rfl : first = node := by simpa [split] using ring.head_eq
        exact start
    | append_singleton initial last ih =>
        intro after node split
        have lastSplit : nodes = initial ++ last :: (node :: after) := by simp [split]
        have follows : next last = node := by
          rw [lastSplit] at ring
          simpa using ring.next_of_split
        rw [← follows]
        exact closed last (ih _ last lastSplit)
  obtain ⟨before, after, split⟩ := List.append_of_mem nodeMem
  exact ordered before after node split

/-- Head and links determine which nodes are on a ring. -/
theorem mem_unique {others : List Node} (ring : Ring next prev head nodes)
    (other : Ring next prev head others) {node : Node} (nodeMem : node ∈ nodes) :
    node ∈ others := by
  cases head with
  | none => simp [ring.eq_nil_iff.mpr rfl] at nodeMem
  | some first =>
      have closed : ∀ node, node ∈ others → next node ∈ others :=
        fun _ isMember => other.next_mem isMember
      exact ring.mem_of_closed other.head_mem closed nodeMem

/-- The last node in list order is the predecessor of the head. -/
theorem exists_append_last {first : Node} (ring : Ring next prev (some first) nodes) :
    ∃ initial, nodes = initial ++ [prev first] := by
  have lastLink := ring.next_prev ring.head_mem
  obtain ⟨before, after, split⟩ := List.append_of_mem (ring.prev_mem ring.head_mem)
  have after_nil : after = [] := by
    cases after with
    | nil => rfl
    | cons second tail =>
        rw [split] at ring
        have secondEq : second = first := by
          simpa [lastLink] using ring.next_of_split.symm
        have headEq := ring.head_eq
        have distinct := ring.nodup
        subst second
        cases before with
        | nil =>
            have : first = prev first := by simpa using headEq
            simp [← this] at distinct
        | cons firstNode before =>
            obtain rfl : first = firstNode := by simpa using headEq
            simp at distinct
  exact ⟨before, by rw [split, after_nil]⟩

/-- Insertion at the tail, in front of the head. -/
theorem insertLast {first : Node} (ring : Ring next prev (some first) nodes)
    {node : Node} (fresh : node ∉ nodes)
    (nodeNext : next' node = first) (lastNext : next' (prev first) = node)
    (nodePrev : prev' node = prev first) (firstPrev : prev' first = node)
    (nextEq : ∀ other ∈ nodes, other ≠ prev first → next' other = next other)
    (prevEq : ∀ other ∈ nodes, other ≠ first → prev' other = prev other) :
    Ring next' prev' (some first) (nodes ++ [node]) := by
  have firstMem := ring.head_mem
  have lastMem := ring.prev_mem firstMem
  have lastLink := ring.next_prev firstMem
  obtain ⟨rest, restEq⟩ := ring.exists_cons
  obtain ⟨initial, initialEq⟩ := ring.exists_append_last
  have initialNe : ∀ other ∈ initial, other ≠ prev first := by
    intro other otherMem equal
    have distinct := ring.nodup
    rw [initialEq, List.nodup_append] at distinct
    exact distinct.2.2 other otherMem other (by simp [equal]) rfl
  have initialMap : initial.map next = rest := by
    have rotated := ring.next_rotate
    rw [restEq, List.rotate_cons_succ, List.rotate_zero, ← restEq, initialEq,
      List.map_append, List.map_singleton, lastLink] at rotated
    exact List.append_cancel_right rotated
  refine ⟨?_, ?_, ?_, ?_⟩
  · simp [restEq]
  · rw [List.nodup_append]
    refine ⟨ring.nodup, List.nodup_singleton _, ?_⟩
    rintro other otherMem _ singleMem rfl
    exact fresh (by rwa [List.mem_singleton.mp singleMem] at otherMem)
  · have initialMap' : initial.map next' = rest := by
      rw [← initialMap]
      apply List.map_congr_left
      intro other otherMem
      exact nextEq other (by simp [initialEq, otherMem])
        (initialNe other otherMem)
    have right : (nodes ++ [node]).rotate 1 = rest ++ [node] ++ [first] := by
      rw [restEq, List.cons_append, List.rotate_cons_succ, List.rotate_zero]
    rw [right, initialEq, List.map_append, List.map_append, initialMap']
    simp [lastNext, nodeNext]
  · intro other otherMem
    rcases List.mem_append.mp otherMem with oldMem | newMem
    · by_cases otherEq : other = prev first
      · rw [otherEq, lastNext, nodePrev]
      · rw [nextEq other oldMem otherEq]
        have nextNe : next other ≠ first := by
          intro equal
          exact otherEq (ring.next_injective oldMem lastMem
            (equal.trans lastLink.symm))
        rw [prevEq _ (ring.next_mem oldMem) nextNe]
        exact ring.prev_next other oldMem
    · rw [List.mem_singleton.mp newMem, nodeNext, firstPrev]

variable [DecidableEq Node]

/-- The links of a ring behind its first node, once that node is taken out. -/
theorem map_next_unlinkFirst {node second : Node} {tail : List Node}
    (ring : Ring next prev head (node :: second :: tail)) (joinNext : next' (prev node) = second)
    (nextEq : ∀ other ∈ second :: tail, other ≠ prev node → next' other = next other) :
    (second :: tail).map next' = tail ++ [second] := by
  obtain ⟨nodeNot, -⟩ := List.nodup_cons.mp ring.nodup
  have nodeLink := ring.next_prev List.mem_cons_self
  have oldMap : (second :: tail).map next = tail ++ [node] := by
    have rotated := ring.next_rotate
    rw [List.rotate_cons_succ, List.rotate_zero, List.map_cons, List.cons_append] at rotated
    exact (List.cons.inj rotated).2
  have lastMem : prev node ∈ node :: second :: tail := ring.prev_mem List.mem_cons_self
  have redirect : (second :: tail).map next' =
      ((second :: tail).map next).map (fun target => if target = node then second else target) := by
    rw [List.map_map]
    apply List.map_congr_left
    intro other otherMem
    by_cases otherLast : other = prev node
    · rw [otherLast, joinNext, Function.comp_apply, nodeLink, if_pos rfl]
    · rw [nextEq other otherMem otherLast, Function.comp_apply, if_neg]
      intro equal
      apply otherLast (ring.next_injective (List.mem_cons_of_mem _ otherMem) lastMem _)
      rw [equal, nodeLink]
  have kept : ∀ target ∈ tail, (if target = node then second else target) = target := by
    intro target targetMem
    refine if_neg fun equal => nodeNot ?_
    exact List.mem_cons_of_mem _ (equal ▸ targetMem)
  rw [redirect, oldMap, List.map_append, List.map_singleton, if_pos rfl]
  congr 1
  rw [List.map_congr_left kept, List.map_id']

/-- What is behind the first node is a ring once that node is taken out. -/
theorem unlinkFirst {node : Node} {rest : List Node} (ring : Ring next prev head (node :: rest))
    (more : next node ≠ node) (joinNext : next' (prev node) = next node)
    (joinPrev : prev' (next node) = prev node)
    (nextEq : ∀ other ∈ rest, other ≠ prev node → next' other = next other)
    (prevEq : ∀ other ∈ rest, other ≠ next node → prev' other = prev other) :
    Ring next' prev' rest.head? rest := by
  cases rest with
  | nil => exact absurd ((ring.next_eq_self_iff (by simp)).mpr rfl) more
  | cons second tail =>
      obtain ⟨nodeNot, restDistinct⟩ := List.nodup_cons.mp ring.nodup
      have secondEq : next node = second := ring.next_cons
      refine ⟨rfl, restDistinct, ?_, ?_⟩
      · rw [List.rotate_cons_succ, List.rotate_zero]
        exact ring.map_next_unlinkFirst (joinNext.trans secondEq) nextEq
      · intro other otherMem
        have otherNe : other ≠ node := fun equal => nodeNot (equal ▸ otherMem)
        by_cases otherLast : other = prev node
        · rw [otherLast, joinNext, joinPrev]
        · rw [nextEq other otherMem otherLast]
          have oldOther := ring.prev_next other (List.mem_cons_of_mem _ otherMem)
          have nextNeNode : next other ≠ node := by
            intro equal
            rw [equal] at oldOther
            exact otherLast oldOther.symm
          have nextNeSecond : next other ≠ next node := by
            intro equal
            exact otherNe (ring.next_injective (List.mem_cons_of_mem _ otherMem) (by simp) equal)
          have nextMem : next other ∈ second :: tail := by
            rcases List.mem_cons.mp (ring.next_mem (List.mem_cons_of_mem _ otherMem)) with
              same | restMem
            · exact absurd same nextNeNode
            · exact restMem
          rw [prevEq _ nextMem nextNeSecond]
          exact oldOther

/-- The head after a node is taken out. -/
theorem head_unlink {before after : List Node} {node : Node}
    (ring : Ring next prev head (before ++ node :: after)) (more : next node ≠ node) :
    (if head = some node then some (next node) else head) = (before ++ after).head? := by
  have headEq := ring.head_eq
  cases before with
  | cons firstNode rest =>
      have firstNe : firstNode ≠ node := by
        have distinct := ring.nodup
        rintro rfl
        simp at distinct
      rw [headEq]
      simp [firstNe]
  | nil =>
      have headNode : head = some node := by simpa using headEq
      rw [headNode] at ring
      have nextEqHead : next node = after.head?.getD node := ring.next_of_split
      rw [headNode, if_pos rfl]
      cases after with
      | nil => exact absurd (by simpa using nextEqHead) more
      | cons second rest => simpa using nextEqHead

/-- Unlinking a node that is not alone: its neighbours are joined, and the
head moves on when it pointed to the node. -/
theorem unlink (ring : Ring next prev head nodes) {node : Node}
    (nodeMem : node ∈ nodes) (more : next node ≠ node)
    (joinNext : next' (prev node) = next node)
    (joinPrev : prev' (next node) = prev node)
    (nextEq : ∀ other ∈ nodes, other ≠ node → other ≠ prev node →
      next' other = next other)
    (prevEq : ∀ other ∈ nodes, other ≠ node → other ≠ next node →
      prev' other = prev other) :
    Ring next' prev' (if head = some node then some (next node) else head)
      (nodes.erase node) := by
  obtain ⟨before, after, split⟩ := List.append_of_mem nodeMem
  subst split
  -- the turned ring starts with the node, so the rest is the new ring
  have turned : Ring next prev (node :: (after ++ before)).head? (node :: (after ++ before)) :=
    ring.of_append
  obtain ⟨nodeNot, -⟩ := List.nodup_cons.mp turned.nodup
  have beforeNot : node ∉ before := fun beforeMem => nodeNot (List.mem_append_right _ beforeMem)
  have eraseEq : (before ++ node :: after).erase node = before ++ after := by
    rw [List.erase_append_right _ beforeNot, List.erase_cons_head]
  have old : ∀ other ∈ after ++ before, other ∈ before ++ node :: after ∧ other ≠ node := by
    intro other otherMem
    refine ⟨?_, fun equal => nodeNot (equal ▸ otherMem)⟩
    rcases List.mem_append.mp otherMem with afterMem | beforeMem
    · exact List.mem_append_right _ (List.mem_cons_of_mem _ afterMem)
    · exact List.mem_append_left _ beforeMem
  have others : Ring next' prev' (after ++ before).head? (after ++ before) := by
    apply turned.unlinkFirst more joinNext joinPrev
    · exact fun other otherMem => nextEq other (old other otherMem).1 (old other otherMem).2
    · exact fun other otherMem => prevEq other (old other otherMem).1 (old other otherMem).2
  rw [eraseEq, ring.head_unlink more]
  exact others.of_append

end Ring

section Loop

variable {State Result : Type*} [DecidableEq Node]

/-- A do-while loop around a ring: run `body` at `cursor`, leave early with a
result or go on until the cursor is back at `head`.  `none` is exhausted
fuel. -/
def loop (next : State → Node → Node) (body : State → Node → State ⊕ Result)
    (head : Node) : Nat → State → Node → Option (State ⊕ Result)
  | 0, _, _ => none
  | fuel + 1, state, cursor =>
      match body state cursor with
      | .inr result => some (.inr result)
      | .inl state' =>
          if next state' cursor = head then some (.inl state')
          else loop next body head fuel state' (next state' cursor)

/-- What the body keeps, the loop keeps. -/
theorem loop_invariant {next : State → Node → Node} {body : State → Node → State ⊕ Result}
    (property : State → Prop)
    (kept : ∀ state node state', property state → body state node = .inl state' →
      property state')
    {head cursor : Node} {fuel : Nat} {state last : State} (holds : property state)
    (looped : loop next body head fuel state cursor = some (.inl last)) :
    property last := by
  induction fuel generalizing state cursor with
  | zero => simp [loop] at looped
  | succ fuel ih =>
      rw [loop] at looped
      split at looped
      · simp at looped
      · rename_i state' stepped
        have holds' := kept state cursor state' holds stepped
        split at looped
        · obtain rfl : state' = last := by simpa using looped
          exact holds'
        · exact ih holds' looped

/-- More fuel does not change the outcome. -/
theorem loop_mono {next : State → Node → Node} {body : State → Node → State ⊕ Result}
    {head cursor : Node} {fuel more : Nat} {state : State} {outcome : State ⊕ Result}
    (looped : loop next body head fuel state cursor = some outcome) (le : fuel ≤ more) :
    loop next body head more state cursor = some outcome := by
  induction fuel generalizing more state cursor with
  | zero => simp [loop] at looped
  | succ fuel ih =>
      obtain ⟨more, rfl⟩ : ∃ smaller, more = smaller + 1 := ⟨more - 1, by omega⟩
      rw [loop] at looped ⊢
      split at looped
      case h_1 => exact looped
      case h_2 =>
        split at looped
        case isTrue back =>
          rw [if_pos back]
          exact looped
        case isFalse onward =>
          rw [if_neg onward]
          exact ih looped (by omega)

/-- The same loop over the explicit list of nodes. -/
def listLoop (body : State → Node → State ⊕ Result) :
    List Node → State → State ⊕ Result
  | [], state => .inl state
  | node :: rest, state =>
      match body state node with
      | .inr result => .inr result
      | .inl state' => listLoop body rest state'

variable {next : State → Node → Node} {prev : Node → Node}
  {body : State → Node → State ⊕ Result}

/-- Around a well-formed ring the loop meets the nodes in list order and needs
one unit of fuel for each. -/
theorem loop_eq_listLoop
    (nextKept : ∀ state node state', body state node = .inl state' →
      next state' = next state)
    {head : Node} {state : State} {fuel : Nat} {nodes before after : List Node}
    {cursor : Node}
    (ring : Ring (next state) prev (some head) nodes)
    (split : nodes = before ++ cursor :: after)
    (enough : after.length < fuel) :
    loop next body head fuel state cursor =
      some (listLoop body (cursor :: after) state) := by
  induction after generalizing before cursor fuel state with
  | nil =>
      obtain ⟨fuel, rfl⟩ : ∃ smaller, fuel = smaller + 1 := ⟨fuel - 1, by
        simp at enough; omega⟩
      rw [loop, listLoop]
      cases stepEq : body state cursor with
      | inr result => rfl
      | inl state' =>
          have nextEq : next state cursor = head := by
            rw [split] at ring
            simpa using ring.next_of_split
          simp [nextKept _ _ _ stepEq, nextEq, listLoop]
  | cons second rest ih =>
      obtain ⟨fuel, rfl⟩ : ∃ smaller, fuel = smaller + 1 := ⟨fuel - 1, by
        simp at enough; omega⟩
      rw [loop, listLoop]
      cases stepEq : body state cursor with
      | inr result => rfl
      | inl state' =>
          have kept := nextKept _ _ _ stepEq
          have nextEq : next state cursor = second := by
            have splitRing := ring
            rw [split] at splitRing
            simpa using splitRing.next_of_split
          have notHead : second ≠ head := by
            intro equal
            obtain ⟨tail, tailEq⟩ := ring.exists_cons
            have distinct := ring.nodup
            rw [split] at distinct tailEq
            cases before with
            | nil =>
                obtain rfl : cursor = head := by simpa using congrArg List.head? tailEq
                simp [equal] at distinct
            | cons firstNode before =>
                obtain rfl : firstNode = head := by
                  simpa using congrArg List.head? tailEq
                simp [equal] at distinct
          simp only [kept, nextEq, if_neg notHead]
          have keptRing : Ring (next state') prev (some head) nodes := by
            rw [kept]
            exact ring
          have nextSplit : nodes = (before ++ [cursor]) ++ second :: rest := by
            simp [split]
          exact ih keptRing nextSplit (by simp at enough; omega)

/-- The loop from the head, whatever fuel it ended with. -/
theorem loop_outcome
    (nextKept : ∀ state node state', body state node = .inl state' →
      next state' = next state)
    {head : Node} {state : State} {fuel : Nat} {nodes : List Node}
    {outcome : State ⊕ Result}
    (ring : Ring (next state) prev (some head) nodes)
    (looped : loop next body head fuel state head = some outcome) :
    outcome = listLoop body nodes state := by
  obtain ⟨rest, rfl⟩ := ring.exists_cons
  have enough := loop_mono looped (Nat.le_max_left fuel (rest.length + 1))
  rw [loop_eq_listLoop nextKept ring (List.nil_append _).symm (by omega)] at enough
  exact (Option.some.inj enough).symm

/-- With one unit of fuel for each node the loop from the head ends. -/
theorem loop_total
    (nextKept : ∀ state node state', body state node = .inl state' →
      next state' = next state)
    {head : Node} {state : State} {fuel : Nat} {nodes : List Node}
    (ring : Ring (next state) prev (some head) nodes) (enough : nodes.length ≤ fuel) :
    loop next body head fuel state head = some (listLoop body nodes state) := by
  obtain ⟨rest, rfl⟩ := ring.exists_cons
  apply loop_eq_listLoop nextKept ring (List.nil_append _).symm
  rw [List.length_cons] at enough
  omega

end Loop

end PointerRing

end MiniIotRobotEdge

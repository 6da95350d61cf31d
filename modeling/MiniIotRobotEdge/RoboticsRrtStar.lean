import Mathlib.Algebra.Field.Rat
import Mathlib.Algebra.Order.Field.Basic
import Mathlib.Algebra.Order.Ring.Rat
import Mathlib.Tactic.Ring
import MiniIotRobotEdge.PricedTree
import MiniIotRobotEdge.RoboticsAstar

/-!
# Path planning with rapidly exploring random trees

The model of `mr_rrt_star_plan` and `mr_rrt_plan` in `path_planning.c`.  Numbers
are exact and `DBL_MAX` is infinity, the distance of two configurations is a
parameter, and an index is `none` where the source has -1.  What `rand` answers
in a turn of the loop comes with the turn, and what the check for collisions
answers there is a parameter of the first planner.
-/

namespace MiniIotRobotEdge

namespace Robotics

namespace Rrt

def mrRrtMaxNodes : Nat := 10000

structure MrPoint2d (K : Type*) where
  x : K
  y : K
  deriving DecidableEq

structure MrConfig2d (K : Type*) where
  x : K
  y : K
  theta : K

/-- The point of a configuration. -/
def MrConfig2d.point {K : Type*} (config : MrConfig2d K) : MrPoint2d K := ⟨config.x, config.y⟩

structure MrRrtNode (K : Type*) where
  config : MrConfig2d K
  parentIdx : Option Nat
  cost : K

structure MrRrtTree (K : Type*) where
  nodes : Nat → MrRrtNode K
  numNodes : Nat
  stepSize : K
  goalBias : K

/-- What comes from outside in a turn: a number between 0 and 1, a configuration of the world,
and the check for collisions. -/
structure Draw (K : Type*) where
  bias : K
  sample : MrConfig2d K
  collides : MrPoint2d K → Bool

/-- The variables of the loop that outlive a turn. -/
structure RrtStar (K : Type*) where
  tree : MrRrtTree K
  bestGoalIdx : Option Nat
  bestGoalCost : WithTop K

variable {K : Type*} [Field K] [LinearOrder K]
  (dist : MrConfig2d K → MrConfig2d K → K)

def extendToward (source target : MrConfig2d K) (step : K) : MrConfig2d K :=
  let d := dist source target
  if d < step then target
  else
    let ratio := step / d
    { x := source.x + (target.x - source.x) * ratio
      y := source.y + (target.y - source.y) * ratio
      theta := source.theta + (target.theta - source.theta) * ratio }

def nearestNode (tree : MrRrtTree K) (cfg : MrConfig2d K) : Option Nat :=
  ((List.range tree.numNodes).foldl
    (FirstMinimum.keepLess (fun _ => True) fun i => (dist (tree.nodes i).config cfg : WithTop K))
    (⊤, none)).2

/-- The body of the loop that looks for the parent of a new node. -/
def cheaperParent (nodes : Nat → MrRrtNode K) (newCfg : MrConfig2d K) (radius : K)
    (best : K × Nat) (j : Nat) : K × Nat :=
  if dist (nodes j).config newCfg ≤ radius then
    let costViaJ := (nodes j).cost + dist (nodes j).config newCfg
    if costViaJ < best.1 then (costViaJ, j) else best
  else best

/-- What the loop behind it makes of a node. -/
def rewire (newCfg : MrConfig2d K) (radius minCost : K) (nidx : Nat) (node : MrRrtNode K) :
    MrRrtNode K :=
  let d := dist node.config newCfg
  if d ≤ radius then
    let costViaNew := minCost + d
    if costViaNew < node.cost then { node with parentIdx := some nidx, cost := costViaNew }
    else node
  else node

/-- The body of the loop of `mr_rrt_star_plan`. -/
def rrtStarTurn (goal : MrConfig2d K) (radius : K) (state : RrtStar K) (draw : Draw K) :
    RrtStar K :=
  let tree := state.tree
  let sample := if draw.bias < tree.goalBias then goal else draw.sample
  match nearestNode dist tree sample with
  | none => state
  | some nearest =>
      let newCfg := extendToward dist (tree.nodes nearest).config sample tree.stepSize
      if draw.collides newCfg.point then state
      else
        let (minCost, bestParent) :=
          (List.range tree.numNodes).foldl (cheaperParent dist tree.nodes newCfg radius)
            ((tree.nodes nearest).cost + dist (tree.nodes nearest).config newCfg, nearest)
        let nidx := tree.numNodes
        let grown := Function.update tree.nodes nidx ⟨newCfg, some bestParent, minCost⟩
        let nodes := (List.range nidx).foldl (fun nodes j =>
          Function.update nodes j (rewire dist newCfg radius minCost nidx (nodes j))) grown
        let tree := { tree with nodes := nodes, numNodes := nidx + 1 }
        let dg := dist newCfg goal
        if dg < tree.stepSize ∧ (minCost + dg : K) < state.bestGoalCost then
          ⟨tree, some nidx, (minCost + dg : K)⟩
        else { state with tree := tree }

/-- The loop takes a draw in every turn and ends when the nodes run out. -/
def rrtStarLoop (goal : MrConfig2d K) (radius : K) : List (Draw K) → RrtStar K → RrtStar K
  | [], state => state
  | draw :: draws, state =>
      if state.tree.numNodes < mrRrtMaxNodes - 1 then
        rrtStarLoop goal radius draws (rrtStarTurn dist goal radius state draw)
      else state

/-- The variables before the loop. -/
def rrtStarStart (tree : MrRrtTree K) (start : MrConfig2d K) : RrtStar K :=
  ⟨{ tree with nodes := Function.update tree.nodes 0 ⟨start, none, 0⟩, numNodes := 1 }, none, ⊤⟩

/-- The loop that follows the parents, with the room that is left in the path. -/
def pathLoop (nodes : Nat → MrRrtNode K) : Nat → Option Nat → List (MrPoint2d K)
  | room + 1, some ci => (nodes ci).config.point :: pathLoop nodes room (nodes ci).parentIdx
  | _, _ => []

/-- The result is the tree, and the waypoints if the function returns 1. -/
def mrRrtStarPlan (tree : MrRrtTree K) (start goal : MrConfig2d K) (draws : List (Draw K))
    (radius : K) : MrRrtTree K × Option (List (MrPoint2d K)) :=
  let state := rrtStarLoop dist goal radius draws (rrtStarStart tree start)
  let tree := state.tree
  match state.bestGoalIdx with
  | some bestGoalIdx =>
      let nodes := Function.update tree.nodes tree.numNodes
        ⟨goal, some bestGoalIdx, state.bestGoalCost.untopD 0⟩
      let tree := { tree with nodes := nodes, numNodes := tree.numNodes + 1 }
      (tree, some (pathLoop nodes mrPathMaxWp (some (tree.numNodes - 1))))
  | none => (tree, none)

/-! ### One node more -/

/-- The step from a node to its parent. -/
def ParentOf (nodes : Nat → MrRrtNode K) (i j : Nat) : Prop := (nodes i).parentIdx = some j

/-- The distance of two nodes. -/
def between (nodes : Nat → MrRrtNode K) (i j : Nat) : K := dist (nodes i).config (nodes j).config

/-- The nodes are a tree with the start at its root, and costs that pay for the edges. -/
structure IsTree (start : MrConfig2d K) (tree : MrRrtTree K) : Prop where
  pos : 0 < tree.numNodes
  root : tree.nodes 0 = ⟨start, none, 0⟩
  rooted : PricedTree.Rooted (ParentOf tree.nodes) {i | i < tree.numNodes} 0
  priced : PricedTree.Priced (ParentOf tree.nodes) {i | i < tree.numNodes}
    (fun i => (tree.nodes i).cost) (between dist tree.nodes)

/-- A node is added below another one, and some nodes become cheaper below it. -/
structure Grows (before after : MrRrtTree K) : Prop where
  numNodes : after.numNodes = before.numNodes + 1
  hung : ∃ hook < before.numNodes, (after.nodes before.numNodes).parentIdx = some hook ∧
    (before.nodes hook).cost +
        dist (after.nodes before.numNodes).config (before.nodes hook).config ≤
      (after.nodes before.numNodes).cost
  old : ∀ i < before.numNodes, after.nodes i = before.nodes i ∨
    (after.nodes i).config = (before.nodes i).config ∧
      (after.nodes i).parentIdx = some before.numNodes ∧
      (after.nodes i).cost < (before.nodes i).cost ∧
      (after.nodes before.numNodes).cost +
          dist (before.nodes i).config (after.nodes before.numNodes).config ≤
        (after.nodes i).cost

section Grows

variable {dist} {start : MrConfig2d K} {before after : MrRrtTree K}

theorem Grows.config_eq (grows : Grows dist before after) {i : Nat} (inside : i < before.numNodes) :
    (after.nodes i).config = (before.nodes i).config := by
  rcases grows.old i inside with same | moved
  · rw [same]
  · exact moved.1

theorem Grows.cost_le (grows : Grows dist before after) {i : Nat} (inside : i < before.numNodes) :
    (after.nodes i).cost ≤ (before.nodes i).cost := by
  rcases grows.old i inside with same | moved
  · rw [same]
  · exact moved.2.2.1.le

theorem Grows.lt_or_eq (grows : Grows dist before after) {i : Nat} (inside : i < after.numNodes) :
    i < before.numNodes ∨ i = before.numNodes := by
  rw [grows.numNodes] at inside
  exact Nat.lt_succ_iff_lt_or_eq.mp inside

variable [IsStrictOrderedRing K]

theorem IsTree.cost_nonneg (isTree : IsTree dist start before) (nonneg : ∀ a b, 0 ≤ dist a b)
    {i : Nat} (inside : i < before.numNodes) : 0 ≤ (before.nodes i).cost := by
  have atRoot := (isTree.priced.walk_le (fun _ _ => nonneg _ _) isTree.rooted inside
    (isTree.rooted.reaches inside)).2
  rwa [isTree.root] at atRoot

/-- A node that costs the new one and the way to it costs at least the new one. -/
theorem new_le (nonneg : ∀ a b, 0 ≤ dist a b) {a b : MrConfig2d K} {cost other : K}
    (enough : cost + dist a b ≤ other) : cost ≤ other :=
  (le_add_of_nonneg_right (nonneg a b)).trans enough

/-- No way is shorter than none, so the root stays. -/
theorem IsTree.root_grows (isTree : IsTree dist start before) (nonneg : ∀ a b, 0 ≤ dist a b)
    (grows : Grows dist before after) : after.nodes 0 = ⟨start, none, 0⟩ := by
  obtain ⟨hook, hookInside, _, paid⟩ := grows.hung
  rcases grows.old 0 isTree.pos with same | ⟨_, _, less, enough⟩
  · rw [same, isTree.root]
  · have newNonneg := (isTree.cost_nonneg nonneg hookInside).trans (new_le nonneg paid)
    rw [isTree.root] at less
    exact absurd (newNonneg.trans (new_le nonneg enough)) less.not_ge

/-- The nodes that the new one hangs from cost too little to be moved below it. -/
theorem IsTree.rooted_grows (isTree : IsTree dist start before) (nonneg : ∀ a b, 0 ≤ dist a b)
    (grows : Grows dist before after) :
    PricedTree.Rooted (ParentOf after.nodes) {i | i < after.numNodes} 0 := by
  obtain ⟨hook, hookInside, hung, paid⟩ := grows.hung
  constructor
  case unique =>
    intro i j other first second
    exact Option.some_inj.mp (first.symm.trans second)
  case top =>
    intro other step
    rw [ParentOf, isTree.root_grows nonneg grows] at step
    exact nomatch step
  case closed =>
    intro i j inside step
    rw [Set.mem_ofPred_eq, grows.numNodes]
    rcases grows.lt_or_eq inside with old | rfl
    · rcases grows.old i old with same | ⟨_, moved, _, _⟩
      · rw [ParentOf, same] at step
        exact Nat.lt_succ_of_lt (isTree.rooted.closed old step)
      · rw [Option.some_inj.mp (step.symm.trans moved)]
        exact Nat.lt_succ_self _
    · rw [Option.some_inj.mp (step.symm.trans hung)]
      exact Nat.lt_succ_of_lt hookInside
  case reaches =>
    intro i inside
    apply isTree.rooted.reaches_of_relink isTree.priced (fun _ _ => nonneg _ _) hookInside
      (new_le nonneg paid) hung _ (grows.lt_or_eq inside)
    intro i inside
    rcases grows.old i inside with same | ⟨_, moved, less, enough⟩
    · left
      intro other step
      rwa [ParentOf, same]
    · exact .inr ⟨(new_le nonneg enough).trans_lt less, moved⟩

/-- The costs above a node only fall. -/
theorem IsTree.priced_grows (isTree : IsTree dist start before) (grows : Grows dist before after) :
    PricedTree.Priced (ParentOf after.nodes) {i | i < after.numNodes}
      (fun i => (after.nodes i).cost) (between dist after.nodes) := by
  obtain ⟨hook, hookInside, hung, paid⟩ := grows.hung
  intro i j inside step
  dsimp only [between]
  rcases grows.lt_or_eq inside with old | rfl
  · rcases grows.old i old with same | ⟨sameConfig, moved, _, enough⟩
    · rw [ParentOf, same] at step
      have parentOld := isTree.rooted.closed old step
      rw [same, grows.config_eq parentOld]
      exact (add_le_add_left (grows.cost_le parentOld) _).trans (isTree.priced old step)
    · obtain rfl := Option.some_inj.mp (step.symm.trans moved)
      rwa [sameConfig]
  · obtain rfl := Option.some_inj.mp (step.symm.trans hung)
    rw [grows.config_eq hookInside]
    exact (add_le_add_left (grows.cost_le hookInside) _).trans paid

theorem IsTree.grows (isTree : IsTree dist start before) (nonneg : ∀ a b, 0 ≤ dist a b)
    (grows : Grows dist before after) : IsTree dist start after where
  pos := by
    rw [grows.numNodes]
    exact Nat.succ_pos _
  root := isTree.root_grows nonneg grows
  rooted := isTree.rooted_grows nonneg grows
  priced := isTree.priced_grows grows

end Grows

/-! ### The turns of the loop -/

section Turn

variable {dist} {goal newCfg : MrConfig2d K} {radius minCost : K} {before : RrtStar K}

variable (dist) in
/-- The parent that is found has the cost that comes with it. -/
theorem cheaperParent_fold (nodes : Nat → MrRrtNode K) (newCfg : MrConfig2d K) (radius : K)
    {count nearest : Nat} (inside : nearest < count) :
    let best := (List.range count).foldl (cheaperParent dist nodes newCfg radius)
      ((nodes nearest).cost + dist (nodes nearest).config newCfg, nearest)
    best.2 < count ∧ best.1 = (nodes best.2).cost + dist (nodes best.2).config newCfg := by
  apply RangeLoop.invariant fun _ (best : K × Nat) =>
    best.2 < count ∧ best.1 = (nodes best.2).cost + dist (nodes best.2).config newCfg
  · exact ⟨inside, rfl⟩
  · intro j best inRange sofar
    unfold cheaperParent
    dsimp only
    split_ifs
    · exact ⟨inRange, rfl⟩
    · exact sofar
    · exact sofar

variable (dist) in
theorem rewire_cases (newCfg : MrConfig2d K) (radius minCost : K) (nidx : Nat)
    (node : MrRrtNode K) :
    rewire dist newCfg radius minCost nidx node = node ∨
      minCost + dist node.config newCfg < node.cost ∧
        rewire dist newCfg radius minCost nidx node =
          { node with parentIdx := some nidx, cost := minCost + dist node.config newCfg } := by
  unfold rewire
  dsimp only
  split_ifs with _ less
  · exact .inr ⟨less, rfl⟩
  · exact .inl rfl
  · exact .inl rfl

omit [Field K] [LinearOrder K] in
/-- The second loop rewires the old nodes and leaves the new one alone. -/
theorem rewire_fold (nodes : Nat → MrRrtNode K) (change : MrRrtNode K → MrRrtNode K)
    (node : MrRrtNode K) (nidx : Nat) :
    let after := (List.range nidx).foldl (fun nodes j =>
      Function.update nodes j (change (nodes j))) (Function.update nodes nidx node)
    after nidx = node ∧ ∀ i < nidx, after i = change (nodes i) := by
  refine ⟨?_, fun i inside => ?_⟩
  · refine (RangeLoop.update_of_ne id (fun _ => change) fun turn inRange => inRange.ne).trans ?_
    exact Function.update_self ..
  · refine (RangeLoop.update_apply id (fun _ => change)
      (fun first second inOrder _ => inOrder.ne) inside).trans ?_
    exact congrArg change (Function.update_of_ne inside.ne ..)

/-- A turn leaves everything as it is, or one node is added, and the best way to the goal may
lead over that node then. -/
inductive Turned (dist : MrConfig2d K → MrConfig2d K → K) (goal : MrConfig2d K)
    (before : RrtStar K) : RrtStar K → Prop
  | same : Turned dist goal before before
  | added {after : RrtStar K} (grows : Grows dist before.tree after.tree)
      (best : after.bestGoalIdx = before.bestGoalIdx ∧ after.bestGoalCost = before.bestGoalCost ∨
        after.bestGoalIdx = some before.tree.numNodes ∧ after.bestGoalCost =
          ((after.tree.nodes before.tree.numNodes).cost +
            dist (after.tree.nodes before.tree.numNodes).config goal : K)) :
      Turned dist goal before after

omit [Field K] in
theorem nearestNode_lt {tree : MrRrtTree K} {cfg : MrConfig2d K} {nearest : Nat}
    (found : nearestNode dist tree cfg = some nearest) : nearest < tree.numNodes :=
  ((FirstMinimum.scanned _ _ _ _).some_first nearest found).inRange

theorem grows_rewired (symm : ∀ a b, dist a b = dist b a) {tree : MrRrtTree K}
    {nodes : Nat → MrRrtNode K} {hook : Nat} (inside : hook < tree.numNodes)
    (isCost : minCost = (tree.nodes hook).cost + dist (tree.nodes hook).config newCfg)
    (isNew : nodes tree.numNodes = ⟨newCfg, some hook, minCost⟩)
    (isOld : ∀ i < tree.numNodes,
      nodes i = rewire dist newCfg radius minCost tree.numNodes (tree.nodes i)) :
    Grows dist tree { tree with nodes := nodes, numNodes := tree.numNodes + 1 } := by
  refine ⟨rfl, ⟨hook, inside, ?_, ?_⟩, ?_⟩
  · dsimp only
    rw [isNew]
  · dsimp only
    rw [isNew, isCost, symm newCfg]
  · intro i old
    dsimp only
    rw [isNew, isOld i old]
    rcases rewire_cases dist newCfg radius minCost tree.numNodes (tree.nodes i) with
      same | ⟨less, moved⟩
    · exact .inl same
    · rw [moved]
      exact .inr ⟨rfl, rfl, less, le_rfl⟩

theorem rrtStarTurn_turned (symm : ∀ a b, dist a b = dist b a) (goal : MrConfig2d K) (radius : K)
    (before : RrtStar K) (draw : Draw K) :
    Turned dist goal before (rrtStarTurn dist goal radius before draw) := by
  unfold rrtStarTurn
  dsimp only
  split
  · exact .same
  · rename_i nearest found
    generalize extendToward dist _ _ _ = newCfg
    split
    · exact .same
    · have isBest := cheaperParent_fold dist before.tree.nodes newCfg radius
        (nearestNode_lt found)
      dsimp only at isBest
      generalize (List.range before.tree.numNodes).foldl
        (cheaperParent dist before.tree.nodes newCfg radius) _ = best at isBest ⊢
      obtain ⟨minCost, hook⟩ := best
      obtain ⟨hookInside, isCost⟩ := isBest
      have loop := rewire_fold before.tree.nodes
        (rewire dist newCfg radius minCost before.tree.numNodes) ⟨newCfg, some hook, minCost⟩
        before.tree.numNodes
      dsimp only at loop ⊢ isCost
      generalize List.foldl _ _ _ = nodes at loop ⊢
      obtain ⟨isNew, isOld⟩ := loop
      have grows := grows_rewired symm hookInside isCost isNew isOld
      split
      · refine .added grows (.inr ⟨rfl, ?_⟩)
        dsimp only
        rw [isNew]
      · exact .added grows (.inl ⟨rfl, rfl⟩)

/-- The tree, room for one more node, and a best way to the goal that is paid for. -/
structure Planned (dist : MrConfig2d K → MrConfig2d K → K) (start goal : MrConfig2d K)
    (state : RrtStar K) : Prop where
  isTree : IsTree dist start state.tree
  room : state.tree.numNodes ≤ mrRrtMaxNodes - 1
  paid : ∀ {idx}, state.bestGoalIdx = some idx → idx < state.tree.numNodes ∧
    ∃ best : K, state.bestGoalCost = best ∧
      (state.tree.nodes idx).cost + dist (state.tree.nodes idx).config goal ≤ best

theorem planned_rrtStarStart (dist : MrConfig2d K → MrConfig2d K → K) (tree : MrRrtTree K)
    (start goal : MrConfig2d K) : Planned dist start goal (rrtStarStart tree start) := by
  have root : (rrtStarStart tree start).tree.nodes 0 = ⟨start, none, 0⟩ := rfl
  have orphan : ∀ {i j : Nat}, i < 1 → ¬ ParentOf (rrtStarStart tree start).tree.nodes i j := by
    intro i j inside step
    rw [Nat.lt_one_iff.mp inside, ParentOf, root] at step
    exact nomatch step
  constructor
  case isTree =>
    refine ⟨Nat.one_pos, root, ⟨?_, orphan Nat.one_pos, ?_, ?_⟩, ?_⟩
    · intro i j other first second
      exact Option.some_inj.mp (first.symm.trans second)
    · intro i j inside step
      exact absurd step (orphan inside)
    · intro i inside
      rw [Nat.lt_one_iff.mp inside]
    · intro i j inside step
      exact absurd step (orphan inside)
  case room => exact (by decide : 1 ≤ mrRrtMaxNodes - 1)
  case paid => exact nofun

variable [IsStrictOrderedRing K] {start : MrConfig2d K}

theorem Planned.turned (planned : Planned dist start goal before)
    (nonneg : ∀ a b, 0 ≤ dist a b) (room : before.tree.numNodes < mrRrtMaxNodes - 1)
    {after : RrtStar K} (turned : Turned dist goal before after) :
    Planned dist start goal after := by
  cases turned with
  | same => exact planned
  | added grows best =>
      refine ⟨planned.isTree.grows nonneg grows, ?_, ?_⟩
      · rw [grows.numNodes]
        exact room
      · intro idx isBest
        rw [grows.numNodes]
        rcases best with ⟨sameIdx, sameCost⟩ | ⟨isNew, isCost⟩
        · obtain ⟨inside, cost, isCost, enough⟩ := planned.paid (sameIdx.symm.trans isBest)
          refine ⟨Nat.lt_succ_of_lt inside, cost, sameCost.trans isCost, ?_⟩
          rw [grows.config_eq inside]
          exact (add_le_add_left (grows.cost_le inside) _).trans enough
        · obtain rfl := Option.some_inj.mp (isNew.symm.trans isBest)
          exact ⟨Nat.lt_succ_self _, _, isCost, le_rfl⟩

theorem Planned.loop (symm : ∀ a b, dist a b = dist b a) (nonneg : ∀ a b, 0 ≤ dist a b)
    (radius : K) (draws : List (Draw K)) (planned : Planned dist start goal before) :
    Planned dist start goal (rrtStarLoop dist goal radius draws before) := by
  induction draws generalizing before with
  | nil => exact planned
  | cons draw draws ih =>
      rw [rrtStarLoop]
      split
      · rename_i room
        exact ih (planned.turned nonneg room (rrtStarTurn_turned symm goal radius before draw))
      · exact planned

end Turn

/-! ### What the planner returns -/

/-- What is expected of the tree: parents that lead to the start without a cycle, costs that pay
for the edges, and nodes inside the array. -/
structure ParentTree (dist : MrConfig2d K → MrConfig2d K → K) (tree : MrRrtTree K) : Prop where
  reaches : ∀ i < tree.numNodes, Relation.ReflTransGen (ParentOf tree.nodes) i 0
  acyclic : ∀ i < tree.numNodes, ¬ Relation.TransGen (ParentOf tree.nodes) i i
  root : (tree.nodes 0).parentIdx = none
  priced : ∀ i < tree.numNodes, i ≠ 0 → ∃ j < tree.numNodes, (tree.nodes i).parentIdx = some j ∧
    (tree.nodes j).cost + between dist tree.nodes i j ≤ (tree.nodes i).cost
  bounded : tree.numNodes ≤ mrRrtMaxNodes

/-- What is expected of the path: it has the nodes on the way from the goal to the start, as
far as there is room, and the way is no longer than the best cost. -/
structure WayToStart (dist : MrConfig2d K → MrConfig2d K → K) (start goal : MrConfig2d K)
    (tree : MrRrtTree K) (best : WithTop K) (path : List (MrPoint2d K)) (chain : List Nat) :
    Prop where
  head : chain.head? = some (tree.numNodes - 1)
  last : chain.getLast? = some 0
  parents : chain.IsChain (ParentOf tree.nodes)
  goal : (tree.nodes (tree.numNodes - 1)).config = goal
  start : (tree.nodes 0).config = start
  ends : ∀ room, pathLoop tree.nodes room (some (tree.numNodes - 1)) =
    (chain.map fun i => (tree.nodes i).config.point).take room
  path : path = (chain.map fun i => (tree.nodes i).config.point).take mrPathMaxWp
  length : ((PricedTree.wayLength (between dist tree.nodes) chain : K) : WithTop K) ≤ best

section Plan

variable {dist} {start goal : MrConfig2d K}

omit [Field K] [LinearOrder K] in
/-- The loop passes a chain of parents that ends at a node without one. -/
theorem pathLoop_eq (nodes : Nat → MrRrtNode K) {ci : Nat} {rest : List Nat}
    (chain : List.IsChain (ParentOf nodes) (ci :: rest))
    (orphan : (nodes ((ci :: rest).getLast (List.cons_ne_nil ci rest))).parentIdx = none)
    (room : Nat) : pathLoop nodes room (some ci) =
      ((ci :: rest).map fun i => (nodes i).config.point).take room := by
  induction rest generalizing ci room with
  | nil =>
      cases room with
      | zero => rfl
      | succ room =>
          rw [List.getLast_singleton] at orphan
          rw [pathLoop, orphan, pathLoop]
          · rw [List.map_singleton, List.take_succ_cons, List.take_nil]
          · exact nofun
  | cons other rest ih =>
      cases room with
      | zero => rfl
      | succ room =>
          obtain ⟨step, chain⟩ := List.isChain_cons_cons.mp chain
          rw [List.getLast_cons_cons] at orphan
          rw [pathLoop, show (nodes ci).parentIdx = some other from step, ih chain orphan room]
          rfl

theorem IsTree.parentTree {tree : MrRrtTree K} (isTree : IsTree dist start tree)
    (bounded : tree.numNodes ≤ mrRrtMaxNodes) : ParentTree dist tree where
  reaches := fun _ inside => isTree.rooted.reaches inside
  acyclic := fun _ inside => isTree.rooted.acyclic inside
  root := by rw [isTree.root]
  priced := by
    intro i inside notRoot
    obtain ⟨j, jInside, step⟩ := isTree.rooted.exists_parent inside notRoot
    exact ⟨j, jInside, step, isTree.priced inside step⟩
  bounded := bounded

/-- The goal is one node more, and no other one is changed. -/
theorem Planned.grows_goal {state : RrtStar K} (symm : ∀ a b, dist a b = dist b a)
    (planned : Planned dist start goal state) {idx : Nat} (isBest : state.bestGoalIdx = some idx) :
    Grows dist state.tree { state.tree with
      nodes := Function.update state.tree.nodes state.tree.numNodes
        ⟨goal, some idx, state.bestGoalCost.untopD 0⟩
      numNodes := state.tree.numNodes + 1 } := by
  obtain ⟨inside, best, isCost, enough⟩ := planned.paid isBest
  refine ⟨rfl, ⟨idx, inside, ?_, ?_⟩, ?_⟩
  · dsimp only
    rw [Function.update_self]
  · dsimp only
    rw [Function.update_self, isCost, symm goal]
    exact enough
  · intro i old
    exact .inl (Function.update_of_ne old.ne ..)

variable [IsStrictOrderedRing K]

theorem IsTree.wayToStart {tree : MrRrtTree K} (isTree : IsTree dist start tree)
    (isGoal : (tree.nodes (tree.numNodes - 1)).config = goal) :
    ∃ chain, WayToStart dist start goal tree (tree.nodes (tree.numNodes - 1)).cost
      (pathLoop tree.nodes mrPathMaxWp (some (tree.numNodes - 1))) chain := by
  have inside : tree.numNodes - 1 < tree.numNodes := Nat.sub_one_lt_of_lt isTree.pos
  obtain ⟨rest, parents, last⟩ := isTree.rooted.exists_chain inside
  have orphan : (tree.nodes (((tree.numNodes - 1) :: rest).getLast
      (List.cons_ne_nil _ rest))).parentIdx = none := by
    rw [last, isTree.root]
  have ends := pathLoop_eq tree.nodes parents orphan
  have paid := isTree.priced.wayLength_le isTree.rooted inside parents
  rw [last, isTree.root, zero_add] at paid
  refine ⟨(tree.numNodes - 1) :: rest, rfl, ?_, parents, isGoal, ?_, ends, ends mrPathMaxWp,
    WithTop.coe_le_coe.mpr paid⟩
  · rw [List.getLast?_eq_getLast_of_ne_nil (List.cons_ne_nil _ rest), last]
  · rw [isTree.root]

/-- The planner keeps a tree after every turn of its loop, for any draws; the path that it
returns is the way in that tree from the goal to the start. -/
theorem mrRrtStarPlan_tree (symm : ∀ a b, dist a b = dist b a) (nonneg : ∀ a b, 0 ≤ dist a b)
    (tree : MrRrtTree K) (start goal : MrConfig2d K) (draws : List (Draw K)) (radius : K) :
    ParentTree dist (rrtStarLoop dist goal radius draws (rrtStarStart tree start)).tree ∧
      ParentTree dist (mrRrtStarPlan dist tree start goal draws radius).1 ∧
      ∀ path, (mrRrtStarPlan dist tree start goal draws radius).2 = some path →
        ∃ chain, WayToStart dist start goal (mrRrtStarPlan dist tree start goal draws radius).1
          (rrtStarLoop dist goal radius draws (rrtStarStart tree start)).bestGoalCost
          path chain := by
  have planned : Planned dist start goal _ :=
    (planned_rrtStarStart dist tree start goal).loop symm nonneg radius draws
  have isLoop := planned.isTree.parentTree (planned.room.trans (Nat.sub_le ..))
  unfold mrRrtStarPlan
  generalize rrtStarLoop dist goal radius draws (rrtStarStart tree start) = state at planned isLoop ⊢
  refine ⟨isLoop, ?_⟩
  dsimp only
  split
  · rename_i idx isBest
    have isTree := planned.isTree.grows nonneg (planned.grows_goal symm isBest)
    have isNew : Function.update state.tree.nodes state.tree.numNodes
        ⟨goal, some idx, state.bestGoalCost.untopD 0⟩ (state.tree.numNodes + 1 - 1) =
        ⟨goal, some idx, state.bestGoalCost.untopD 0⟩ := Function.update_self ..
    obtain ⟨_, best, isCost, _⟩ := planned.paid isBest
    refine ⟨isTree.parentTree (Nat.succ_le_of_lt (Nat.lt_of_le_sub_one (by decide) planned.room)),
      ?_⟩
    rintro path ⟨⟩
    obtain ⟨chain, isWay⟩ := isTree.wayToStart (congrArg MrRrtNode.config isNew)
    refine ⟨chain, { isWay with length := isWay.length.trans ?_ }⟩
    dsimp only
    rw [isNew, isCost]
    exact le_rfl
  · exact ⟨isLoop, nofun⟩

end Plan

/-- A distance without square roots. -/
def taxi (a b : MrConfig2d ℚ) : ℚ := |a.x - b.x| + |a.y - b.y| + |a.theta - b.theta|

/-- Two draws: the goal lies beyond the first, and the second is no better. -/
def twoDraws : List (Draw ℚ) :=
  [⟨1, ⟨3, 0, 0⟩, fun _ => false⟩, ⟨1, ⟨3, 1, 0⟩, fun _ => false⟩]

theorem mrRrtStarPlan_tree_taxi :
    ∃ chain, WayToStart taxi ⟨0, 0, 0⟩ ⟨4, 0, 0⟩
      (mrRrtStarPlan taxi ⟨fun _ => ⟨⟨0, 0, 0⟩, none, 0⟩, 0, 4, 0⟩ ⟨0, 0, 0⟩ ⟨4, 0, 0⟩ twoDraws 2).1
      (4 : ℚ) [⟨4, 0⟩, ⟨3, 0⟩, ⟨0, 0⟩] chain := by
  have symm : ∀ a b, taxi a b = taxi b a := by
    intro a b
    rw [taxi, abs_sub_comm a.x, abs_sub_comm a.y, abs_sub_comm a.theta, taxi]
  have nonneg : ∀ a b, 0 ≤ taxi a b :=
    fun a b => add_nonneg (add_nonneg (abs_nonneg _) (abs_nonneg _)) (abs_nonneg _)
  have isPlan := (mrRrtStarPlan_tree symm nonneg ⟨fun _ => ⟨⟨0, 0, 0⟩, none, 0⟩, 0, 4, 0⟩
    ⟨0, 0, 0⟩ ⟨4, 0, 0⟩ twoDraws 2).2.2 [⟨4, 0⟩, ⟨3, 0⟩, ⟨0, 0⟩] (by decide +kernel)
  have isBest : (rrtStarLoop taxi ⟨4, 0, 0⟩ 2 twoDraws
      (rrtStarStart ⟨fun _ => ⟨⟨0, 0, 0⟩, none, 0⟩, 0, 4, 0⟩ ⟨0, 0, 0⟩)).bestGoalCost = (4 : ℚ) := by
    decide +kernel
  rwa [isBest] at isPlan

/-! ### The planner without rewiring -/

inductive MrObstacle (K : Type*)
  | circle (center : MrPoint2d K) (radius : K)
  | polygon (vertices : List (MrPoint2d K))

structure MrWorld2d (K : Type*) where
  obstacles : List (MrObstacle K)
  width : K
  height : K

section Planner

variable {K : Type*} [Field K] [LinearOrder K]
  (dist : MrConfig2d K → MrConfig2d K → K)

/-- Only circles are looked at. -/
def MrObstacle.hit (p : MrPoint2d K) : MrObstacle K → Bool
  | .circle center radius =>
      let dx := p.x - center.x
      let dy := p.y - center.y
      decide (dx * dx + dy * dy ≤ radius * radius)
  | .polygon _ => false

def mrCollisionCheckPoint (p : MrPoint2d K) (world : MrWorld2d K) : Bool :=
  if world.obstacles.any (MrObstacle.hit p) then true
  else decide (p.x < 0 ∨ world.width < p.x ∨ p.y < 0 ∨ world.height < p.y)

def MrRrtTree.push (tree : MrRrtTree K) (node : MrRrtNode K) : MrRrtTree K :=
  { tree with
    nodes := Function.update tree.nodes tree.numNodes node
    numNodes := tree.numNodes + 1 }

/-- A node at the end of the array, with its cost. -/
def MrRrtTree.hang (tree : MrRrtTree K) (config : MrConfig2d K) (hook : Nat) : MrRrtTree K :=
  tree.push ⟨config, some hook, (tree.nodes hook).cost + dist (tree.nodes hook).config config⟩

/-- What the body of the loop of `mr_rrt_plan` does with a new configuration. -/
def rrtGrow (world : MrWorld2d K) (goal : MrConfig2d K) (tree : MrRrtTree K) (nearest : Nat)
    (newCfg : MrConfig2d K) : MrRrtTree K × Bool :=
  if mrCollisionCheckPoint newCfg.point world then (tree, false)
  else
    let grown := tree.hang dist newCfg nearest
    if dist newCfg goal < tree.stepSize then (grown.hang dist goal tree.numNodes, true)
    else (grown, false)

/-- The body of the loop of `mr_rrt_plan`, and whether it has reached the goal.  The random
numbers come with the turn. -/
def rrtTurn (world : MrWorld2d K) (goal : MrConfig2d K) (tree : MrRrtTree K)
    (draw : K × MrConfig2d K) : MrRrtTree K × Bool :=
  let sample := if draw.1 < tree.goalBias then goal else draw.2
  match nearestNode dist tree sample with
  | none => (tree, false)
  | some nearest =>
      rrtGrow dist world goal tree nearest
        (extendToward dist (tree.nodes nearest).config sample tree.stepSize)

/-- The loop returns with the first turn that reaches the goal. -/
def rrtLoop (world : MrWorld2d K) (goal : MrConfig2d K) :
    List (K × MrConfig2d K) → MrRrtTree K → MrRrtTree K × Bool
  | [], tree => (tree, false)
  | draw :: draws, tree =>
      if tree.numNodes < mrRrtMaxNodes - 1 then
        match rrtTurn dist world goal tree draw with
        | (reached, true) => (reached, true)
        | (grown, false) => rrtLoop world goal draws grown
      else (tree, false)

/-- The result is the tree, and the waypoints if the function returns 1. -/
def mrRrtPlan (world : MrWorld2d K) (tree : MrRrtTree K) (start goal : MrConfig2d K)
    (draws : List (K × MrConfig2d K)) : MrRrtTree K × Option (List (MrPoint2d K)) :=
  let planned := rrtLoop dist world goal draws (rrtStarStart tree start).tree
  (planned.1, if planned.2 then
      some (pathLoop planned.1.nodes mrPathMaxWp (some (planned.1.numNodes - 1)))
    else none)

/-- The configuration a part of the way from one to the other. -/
def along (source target : MrConfig2d K) (ratio : K) : MrConfig2d K where
  x := source.x + (target.x - source.x) * ratio
  y := source.y + (target.y - source.y) * ratio
  theta := source.theta + (target.theta - source.theta) * ratio

/-- A tree whose costs are the lengths of its ways, with no edge longer than a step, and with no
collisions among the nodes before the given one. -/
structure Stepped (world : MrWorld2d K) (start : MrConfig2d K) (step : K) (checked : Nat)
    (tree : MrRrtTree K) : Prop where
  stepSize : tree.stepSize = step
  isTree : IsTree dist start tree
  exact : ∀ ⦃i j⦄, i ∈ {i | i < tree.numNodes} → ParentOf tree.nodes i j →
    (tree.nodes j).cost + between dist tree.nodes i j = (tree.nodes i).cost
  short : ∀ ⦃i j⦄, i < tree.numNodes → ParentOf tree.nodes i j →
    between dist tree.nodes i j ≤ step
  free : ∀ i, 0 < i → i < checked →
    mrCollisionCheckPoint (tree.nodes i).config.point world = false

variable {dist} {world : MrWorld2d K} {start goal : MrConfig2d K} {step : K}
  {tree : MrRrtTree K} {checked : Nat}

variable (dist) in
omit [LinearOrder K] in
theorem hang_new (tree : MrRrtTree K) (config : MrConfig2d K) (hook : Nat) :
    (tree.hang dist config hook).nodes tree.numNodes =
      ⟨config, some hook, (tree.nodes hook).cost + dist (tree.nodes hook).config config⟩ :=
  Function.update_self ..

variable (dist) in
omit [LinearOrder K] in
theorem hang_old (config : MrConfig2d K) (hook : Nat) {i : Nat} (old : i < tree.numNodes) :
    (tree.hang dist config hook).nodes i = tree.nodes i :=
  Function.update_of_ne old.ne ..

theorem grows_hang (symm : ∀ a b, dist a b = dist b a) (config : MrConfig2d K) {hook : Nat}
    (inside : hook < tree.numNodes) : Grows dist tree (tree.hang dist config hook) := by
  constructor
  case numNodes => rfl
  case hung =>
    refine ⟨hook, inside, ?_, ?_⟩
    · rw [hang_new]
    · rw [hang_new, symm config]
  case old =>
    intro i old
    exact .inl (hang_old dist config hook old)

variable [IsStrictOrderedRing K]

theorem Stepped.hang (stepped : Stepped dist world start step checked tree)
    (symm : ∀ a b, dist a b = dist b a) (nonneg : ∀ a b, 0 ≤ dist a b) {config : MrConfig2d K}
    {hook : Nat} (inside : hook < tree.numNodes)
    (near : dist (tree.nodes hook).config config ≤ step)
    (isChecked : checked ≤ tree.numNodes) :
    Stepped dist world start step checked (tree.hang dist config hook) := by
  have isNew := hang_new dist tree config hook
  have isOld : ∀ {i}, i < tree.numNodes → (tree.hang dist config hook).nodes i = tree.nodes i :=
    hang_old dist config hook
  have cases : ∀ {i j}, i < tree.numNodes + 1 → ParentOf (tree.hang dist config hook).nodes i j →
      (i < tree.numNodes ∧ j < tree.numNodes ∧ ParentOf tree.nodes i j) ∨
        i = tree.numNodes ∧ j = hook := by
    intro i j within step
    rcases Nat.lt_succ_iff_lt_or_eq.mp within with old | rfl
    · rw [ParentOf, isOld old] at step
      exact .inl ⟨old, stepped.isTree.rooted.closed old step, step⟩
    · rw [ParentOf, isNew] at step
      exact .inr ⟨rfl, (Option.some.inj step).symm⟩
  constructor
  case stepSize => exact stepped.stepSize
  case isTree => exact stepped.isTree.grows nonneg (grows_hang symm config inside)
  case exact =>
    intro i j within step
    rcases cases within step with ⟨old, parentOld, step⟩ | ⟨rfl, rfl⟩
    · rw [between, isOld old, isOld parentOld]
      exact stepped.exact old step
    · rw [between, isNew, isOld inside, symm config]
  case short =>
    intro i j within step
    rcases cases within step with ⟨old, parentOld, step⟩ | ⟨rfl, rfl⟩
    · rw [between, isOld old, isOld parentOld]
      exact stepped.short old step
    · rw [between, isNew, isOld inside, symm config]
      exact near
  case free =>
    intro i notRoot isFree
    rw [isOld (isFree.trans_le isChecked)]
    exact stepped.free i notRoot isFree

omit [IsStrictOrderedRing K] in
theorem Stepped.check (stepped : Stepped dist world start step checked tree)
    (isFree : mrCollisionCheckPoint (tree.nodes checked).config.point world = false) :
    Stepped dist world start step (checked + 1) tree := by
  refine { stepped with free := ?_ }
  intro i notRoot inside
  rcases Nat.lt_succ_iff_lt_or_eq.mp inside with earlier | rfl
  · exact stepped.free i notRoot earlier
  · exact isFree

/-- A step does not go farther than its size. -/
theorem extendToward_near
    (scales : ∀ a b ratio, 0 ≤ ratio → ratio ≤ 1 → dist a (along a b ratio) = ratio * dist a b)
    (positive : 0 < step) (source target : MrConfig2d K) :
    dist source (extendToward dist source target step) ≤ step := by
  rw [extendToward]
  dsimp only
  split_ifs with close
  · exact close.le
  · have far : step ≤ dist source target := not_lt.mp close
    have moved := scales source target (step / dist source target)
      (div_nonneg positive.le (positive.le.trans far))
      ((div_le_one (positive.trans_le far)).mpr far)
    rw [div_mul_cancel₀ _ (positive.trans_le far).ne'] at moved
    exact moved.le

/-- No node but the start is a step from the goal. -/
def Far (dist : MrConfig2d K → MrConfig2d K → K) (goal : MrConfig2d K) (step : K)
    (tree : MrRrtTree K) : Prop :=
  ∀ i, 0 < i → i < tree.numNodes → step ≤ dist (tree.nodes i).config goal

/-- What the loop leaves. -/
structure Reached (dist : MrConfig2d K → MrConfig2d K → K) (world : MrWorld2d K)
    (start goal : MrConfig2d K) (step : K) (result : MrRrtTree K × Bool) : Prop where
  stepped : Stepped dist world start step
    (if result.2 then result.1.numNodes - 1 else result.1.numNodes) result.1
  isGoal : result.2 = true → (result.1.nodes (result.1.numNodes - 1)).config = goal
  far : result.2 = false → Far dist goal step result.1

/-- A node that is a step from an old one is left out, added, or added with the goal. -/
theorem reached_grow (symm : ∀ a b, dist a b = dist b a) (nonneg : ∀ a b, 0 ≤ dist a b)
    (stepped : Stepped dist world start step tree.numNodes tree) (far : Far dist goal step tree)
    {nearest : Nat} (inside : nearest < tree.numNodes) {newCfg : MrConfig2d K}
    (near : dist (tree.nodes nearest).config newCfg ≤ step) :
    Reached dist world start goal step (rrtGrow dist world goal tree nearest newCfg) ∧
      (rrtGrow dist world goal tree nearest newCfg).1.numNodes ≤
        tree.numNodes + if (rrtGrow dist world goal tree nearest newCfg).2 then 2 else 1 := by
  have isNew : ((tree.hang dist newCfg nearest).nodes tree.numNodes).config = newCfg := by
    rw [hang_new]
  rw [rrtGrow]
  by_cases collides : mrCollisionCheckPoint newCfg.point world = true
  · rw [if_pos collides]
    exact ⟨⟨stepped, nofun, fun _ => far⟩, Nat.le_succ _⟩
  · have isFree : mrCollisionCheckPoint
        ((tree.hang dist newCfg nearest).nodes tree.numNodes).config.point world = false := by
      rw [isNew]
      exact Bool.eq_false_of_not_eq_true collides
    have grown := (stepped.hang symm nonneg inside near le_rfl).check isFree
    rw [if_neg collides, stepped.stepSize]
    dsimp only
    by_cases reaches : dist newCfg goal < step
    · have last : tree.numNodes < (tree.hang dist newCfg nearest).numNodes := Nat.lt_succ_self _
      have closer : dist ((tree.hang dist newCfg nearest).nodes tree.numNodes).config goal ≤
          step := by
        rw [isNew]
        exact reaches.le
      rw [if_pos reaches]
      constructor
      · constructor
        case stepped => exact grown.hang symm nonneg last closer le_rfl
        case isGoal =>
          intro _
          exact congrArg MrRrtNode.config (hang_new dist (tree.hang dist newCfg nearest) goal _)
        case far => exact nofun
      · exact le_rfl
    · rw [if_neg reaches]
      constructor
      · constructor
        case stepped => exact grown
        case isGoal => exact nofun
        case far =>
          intro _ i notRoot within
          rcases Nat.lt_succ_iff_lt_or_eq.mp within with old | rfl
          · rw [hang_old dist newCfg nearest old]
            exact far i notRoot old
          · rw [isNew]
            exact not_lt.mp reaches
      · exact le_rfl

theorem reached_turn (symm : ∀ a b, dist a b = dist b a) (nonneg : ∀ a b, 0 ≤ dist a b)
    (scales : ∀ a b ratio, 0 ≤ ratio → ratio ≤ 1 → dist a (along a b ratio) = ratio * dist a b)
    (positive : 0 < step) (stepped : Stepped dist world start step tree.numNodes tree)
    (far : Far dist goal step tree) (draw : K × MrConfig2d K) :
    Reached dist world start goal step (rrtTurn dist world goal tree draw) ∧
      (rrtTurn dist world goal tree draw).1.numNodes ≤
        tree.numNodes + if (rrtTurn dist world goal tree draw).2 then 2 else 1 := by
  rw [rrtTurn]
  split
  · exact ⟨⟨stepped, nofun, fun _ => far⟩, Nat.le_succ _⟩
  · rename_i nearest found
    rw [stepped.stepSize]
    exact reached_grow symm nonneg stepped far (nearestNode_lt found)
      (extendToward_near scales positive _ _)

theorem reached_loop (symm : ∀ a b, dist a b = dist b a) (nonneg : ∀ a b, 0 ≤ dist a b)
    (scales : ∀ a b ratio, 0 ≤ ratio → ratio ≤ 1 → dist a (along a b ratio) = ratio * dist a b)
    (positive : 0 < step) (draws : List (K × MrConfig2d K))
    (stepped : Stepped dist world start step tree.numNodes tree) (far : Far dist goal step tree)
    (room : tree.numNodes ≤ mrRrtMaxNodes - 1) :
    Reached dist world start goal step (rrtLoop dist world goal draws tree) ∧
      (rrtLoop dist world goal draws tree).1.numNodes ≤ mrRrtMaxNodes := by
  have idle : Reached dist world start goal step (tree, false) := ⟨stepped, nofun, fun _ => far⟩
  induction draws generalizing tree with
  | nil => exact ⟨idle, room.trans (Nat.sub_le ..)⟩
  | cons draw draws ih =>
      rw [rrtLoop]
      split
      · rename_i more
        obtain ⟨turned, count⟩ := reached_turn symm nonneg scales positive stepped far draw
        generalize rrtTurn dist world goal tree draw = result at turned count
        obtain ⟨grown, reached⟩ := result
        cases reached with
        | true =>
            refine ⟨turned, ?_⟩
            dsimp only at count ⊢
            rw [if_pos rfl] at count
            omega
        | false =>
            dsimp only at count ⊢
            rw [if_neg Bool.false_ne_true] at count
            have next := turned.stepped
            rw [if_neg Bool.false_ne_true] at next
            exact ih next (turned.far rfl) (by omega) ⟨next, nofun, turned.far⟩
      · exact ⟨idle, room.trans (Nat.sub_le ..)⟩

omit [IsStrictOrderedRing K] in
theorem stepped_start (tree : MrRrtTree K) :
    Stepped dist world start tree.stepSize 1 (rrtStarStart tree start).tree ∧
      Far dist goal tree.stepSize (rrtStarStart tree start).tree := by
  have orphan : ∀ {i j : Nat}, i < 1 → ¬ ParentOf (rrtStarStart tree start).tree.nodes i j := by
    intro i j inside isParent
    rw [Nat.lt_one_iff.mp inside] at isParent
    exact nomatch isParent
  constructor
  · constructor
    case stepSize => rfl
    case isTree => exact (planned_rrtStarStart dist tree start goal).isTree
    case exact => exact fun i j inside isParent => absurd isParent (orphan inside)
    case short => exact fun i j inside isParent => absurd isParent (orphan inside)
    case free => exact fun i notRoot inside => absurd inside (by omega)
  · exact fun i notRoot inside => absurd inside (Nat.not_lt.mpr notRoot)

omit [IsStrictOrderedRing K] in
theorem Stepped.chain (stepped : Stepped dist world start step checked tree) {first : Nat}
    {rest : List Nat} (inside : first < tree.numNodes)
    (parents : (first :: rest).IsChain (ParentOf tree.nodes)) :
    (first :: rest).IsChain (fun i j => between dist tree.nodes i j ≤ step) ∧
      ∀ i ∈ first :: rest, i < tree.numNodes := by
  induction rest generalizing first with
  | nil => exact ⟨List.isChain_singleton first, fun i isFirst => List.mem_singleton.mp isFirst ▸ inside⟩
  | cons other rest ih =>
      obtain ⟨isParent, parents⟩ := List.isChain_cons_cons.mp parents
      obtain ⟨short, within⟩ := ih (stepped.isTree.rooted.closed inside isParent) parents
      constructor
      · exact List.isChain_cons_cons.mpr ⟨stepped.short inside isParent, short⟩
      · intro i member
        rcases List.mem_cons.mp member with rfl | later
        · exact inside
        · exact within i later

end Planner

theorem taxi_along (a b : MrConfig2d ℚ) (ratio : ℚ) (nonneg : 0 ≤ ratio) :
    taxi a (along a b ratio) = ratio * taxi a b := by
  have part : ∀ x y : ℚ, |x - (x + (y - x) * ratio)| = ratio * |x - y| := by
    intro x y
    have apart : x - (x + (y - x) * ratio) = ratio * (x - y) := by ring
    rw [apart, abs_mul, abs_of_nonneg nonneg]
  rw [taxi, taxi, along]
  dsimp only
  rw [part, part, part, mul_add, mul_add]

end Rrt

end Robotics

end MiniIotRobotEdge

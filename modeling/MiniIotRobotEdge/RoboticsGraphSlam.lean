import Mathlib.Algebra.Order.Floor.Ring
import Mathlib.Data.Rat.Floor
import Mathlib.Data.Fin.VecNotation
import Mathlib.Data.List.Induction
import Mathlib.Tactic.FinCases
import MiniIotRobotEdge.EdgeFlows
import MiniIotRobotEdge.LoopNests
import MiniIotRobotEdge.RangeLoop

/-!
# Pose graphs

The model of the `mr_graph_slam` functions in `slam_system.c`.  Numbers are exact,
and π is a parameter.  Edges measure the poses of their ends relative to each
other, and every turn of the optimiser moves the ends of an edge apart by what
is missing.
-/

namespace MiniIotRobotEdge

namespace Robotics

namespace GraphSlam

def mrSlamMaxLandmarks : Nat := 1024

def mrSlamMaxParticles : Nat := 256

structure MrRobotPose (K : Type*) where
  x : K
  y : K
  theta : K
  deriving DecidableEq

structure MrPoseEdge (K : Type*) where
  fromNode : Nat
  toNode : Nat
  dx : K
  dy : K
  dtheta : K

structure MrGraphSlam (K : Type*) where
  nodes : Nat → MrRobotPose K
  numNodes : Nat
  edges : List (MrPoseEdge K)

variable {K : Type*} [Field K] [LinearOrder K] [FloorRing K]

/-- The memory is cleared first. -/
def mrGraphSlamInit (initial : Option (MrRobotPose K)) : MrGraphSlam K :=
  let nodes : Nat → MrRobotPose K := fun _ => ⟨0, 0, 0⟩
  match initial with
  | some initial => ⟨Function.update nodes 0 initial, 1, []⟩
  | none => ⟨nodes, 0, []⟩

/-- The result is the graph, and the index of the node unless there is no room for it. -/
def mrGraphSlamAddNode (gs : MrGraphSlam K) (pose : MrRobotPose K) :
    MrGraphSlam K × Option Nat :=
  if mrSlamMaxLandmarks + mrSlamMaxParticles ≤ gs.numNodes then (gs, none)
  else
    let idx := gs.numNodes
    ({ gs with nodes := Function.update gs.nodes idx pose, numNodes := idx + 1 }, some idx)

def mrGraphSlamAddEdge (gs : MrGraphSlam K) (fromNode toNode : Nat) (dx dy dtheta : K) :
    MrGraphSlam K × Bool :=
  if mrSlamMaxLandmarks * 4 ≤ gs.edges.length then (gs, false)
  else ({ gs with edges := gs.edges ++ [⟨fromNode, toNode, dx, dy, dtheta⟩] }, true)

def mrGraphSlamLoopClosure (gs : MrGraphSlam K) (nodeA nodeB : Nat) (dx dy dtheta : K) :
    MrGraphSlam K × Bool :=
  mrGraphSlamAddEdge gs nodeA nodeB dx dy dtheta

/-- `while (angle > M_PI) angle -= 2.0 * M_PI;` -/
def wrapDown (pi : K) : Nat → K → K
  | 0, angle => angle
  | turns + 1, angle => if pi < angle then wrapDown pi turns (angle - 2 * pi) else angle

/-- `while (angle < -M_PI) angle += 2.0 * M_PI;` -/
def wrapUp (pi : K) : Nat → K → K
  | 0, angle => angle
  | turns + 1, angle => if angle < -pi then wrapUp pi turns (angle + 2 * pi) else angle

/-- Both loops, with as many turns as the angle can need. -/
def wrapAngle (pi angle : K) : K :=
  let turns := ⌈|angle| / (2 * pi)⌉.toNat
  wrapUp pi turns (wrapDown pi turns angle)

def poseVector (pose : MrRobotPose K) : Fin 3 → K := ![pose.x, pose.y, pose.theta]

/-- What is missing between the ends of an edge. -/
def edgeError (pi : K) (nodes : Nat → MrRobotPose K) (edge : MrPoseEdge K) : Fin 3 → K :=
  let na := nodes edge.fromNode
  let nb := nodes edge.toNode
  ![edge.dx - (nb.x - na.x), edge.dy - (nb.y - na.y),
    edge.dtheta - wrapAngle pi (nb.theta - na.theta)]

/-- The body of the loop over the edges. -/
def accumulate (pi alpha : K) (gs : MrGraphSlam K) (dx : Nat → Fin 3 → K) (edge : MrPoseEdge K) :
    Nat → Fin 3 → K :=
  let a := edge.fromNode
  let b := edge.toNode
  if gs.numNodes ≤ a ∨ gs.numNodes ≤ b then dx
  else
    let err := edgeError pi gs.nodes edge
    let dx := Function.update dx a fun axis => dx a axis + -alpha * err axis
    Function.update dx b fun axis => dx b axis + alpha * err axis

def movePose (pose : MrRobotPose K) (d : Fin 3 → K) : MrRobotPose K :=
  ⟨pose.x + d 0, pose.y + d 1, pose.theta + d 2⟩

/-- The body of the loop over the nodes. -/
def moveNode (dx : Nat → Fin 3 → K) (state : (Nat → MrRobotPose K) × K) (i : Nat) :
    (Nat → MrRobotPose K) × K :=
  let nodes := Function.update state.1 i (movePose (state.1 i) (dx i))
  let d := dx i 0 * dx i 0 + dx i 1 * dx i 1 + dx i 2 * dx i 2
  (nodes, if state.2 < d then d else state.2)

/-- A turn of the optimiser, which returns the longest step too. -/
def optimizeTurn (pi alpha : K) (gs : MrGraphSlam K) : MrGraphSlam K × K :=
  let dx := gs.edges.foldl (accumulate pi alpha gs) fun _ _ => 0
  let moved := (List.range gs.numNodes).foldl (moveNode dx) (gs.nodes, 0)
  ({ gs with nodes := moved.1 }, moved.2)

def optimizeLoop (pi : K) : Nat → K → MrGraphSlam K → MrGraphSlam K
  | 0, _, gs => gs
  | turns + 1, alpha, gs =>
      let (gs, maxD) := optimizeTurn pi alpha gs
      if maxD < 1 / 10 ^ 6 then gs else optimizeLoop pi turns (alpha * (9 / 10)) gs

def mrGraphSlamOptimize (pi : K) (gs : MrGraphSlam K) (maxIters : Nat) : MrGraphSlam K :=
  optimizeLoop pi maxIters 1 gs

/-! ### One turn -/

/-- The edges whose ends are both there. -/
def MrGraphSlam.inside (gs : MrGraphSlam K) : List (MrPoseEdge K) :=
  gs.edges.filter fun edge => edge.fromNode < gs.numNodes ∧ edge.toNode < gs.numNodes

/-- What a turn adds to the nodes. -/
def step (pi alpha : K) (gs : MrGraphSlam K) : Nat → Fin 3 → K :=
  EdgeFlows.inflow MrPoseEdge.fromNode MrPoseEdge.toNode
    (fun edge axis => alpha * edgeError pi gs.nodes edge axis) gs.inside

omit [Field K] [LinearOrder K] [FloorRing K] in
theorem MrGraphSlam.inside_among (gs : MrGraphSlam K) :
    EdgeFlows.Among MrPoseEdge.fromNode MrPoseEdge.toNode gs.inside
      (Finset.range gs.numNodes) := by
  intro edge listed
  have ends := (List.mem_filter.mp listed).2
  rw [decide_eq_true_eq] at ends
  exact ⟨Finset.mem_range.mpr ends.1, Finset.mem_range.mpr ends.2⟩

omit [LinearOrder K] [FloorRing K] in
/-- Two entries of the steps are rewritten, which may be one and the same. -/
theorem update_ends (alpha : K) (dx : Nat → Fin 3 → K) (err : Fin 3 → K) (a b node : Nat) :
    Function.update (Function.update dx a fun axis => dx a axis + -alpha * err axis) b
        (fun axis => Function.update dx a (fun axis => dx a axis + -alpha * err axis) b axis +
          alpha * err axis) node =
      dx node + ((if b = node then fun axis => alpha * err axis else 0) -
        if a = node then fun axis => alpha * err axis else 0) := by
  funext axis
  by_cases atHead : b = node
  · subst atHead
    rw [Function.update_self, if_pos rfl]
    by_cases atTail : a = b
    · subst atTail
      rw [Function.update_self, if_pos rfl, sub_self, Pi.add_apply, Pi.zero_apply]
      ring
    · rw [Function.update_of_ne (Ne.symm atTail), if_neg atTail, sub_zero, Pi.add_apply]
  · rw [Function.update_of_ne (Ne.symm atHead), if_neg atHead, zero_sub]
    by_cases atTail : a = node
    · subst atTail
      rw [Function.update_self, if_pos rfl, Pi.add_apply, Pi.neg_apply, neg_mul]
    · rw [Function.update_of_ne (Ne.symm atTail), if_neg atTail, neg_zero, add_zero]

theorem accumulate_fold (pi alpha : K) (gs : MrGraphSlam K) (edges : List (MrPoseEdge K))
    (dx : Nat → Fin 3 → K) (node : Nat) :
    edges.foldl (accumulate pi alpha gs) dx node = dx node +
      EdgeFlows.inflow MrPoseEdge.fromNode MrPoseEdge.toNode
        (fun edge axis => alpha * edgeError pi gs.nodes edge axis)
        (edges.filter fun edge => edge.fromNode < gs.numNodes ∧ edge.toNode < gs.numNodes)
        node := by
  induction edges generalizing dx with
  | nil => rw [List.foldl_nil, List.filter_nil, EdgeFlows.inflow_nil, add_zero]
  | cons edge edges ih =>
      rw [List.foldl_cons, ih, accumulate]
      dsimp only
      split
      · rename_i outside
        have absent : ¬ (edge.fromNode < gs.numNodes ∧ edge.toNode < gs.numNodes) := by omega
        rw [List.filter_cons_of_neg (by simpa only [decide_eq_true_eq] using absent)]
      · rename_i within
        have present : edge.fromNode < gs.numNodes ∧ edge.toNode < gs.numNodes := by omega
        rw [List.filter_cons_of_pos (by simpa only [decide_eq_true_eq] using present),
          EdgeFlows.inflow_cons, ← add_assoc]
        exact congrArg (· + _) (update_ends alpha dx _ edge.fromNode edge.toNode node)

theorem step_eq (pi alpha : K) (gs : MrGraphSlam K) :
    gs.edges.foldl (accumulate pi alpha gs) (fun _ _ => 0) = step pi alpha gs := by
  funext node
  exact (accumulate_fold pi alpha gs gs.edges _ node).trans (zero_add _)

/-- The longest of the first steps, squared. -/
def longest (dx : Nat → Fin 3 → K) (count : Nat) : K :=
  (List.range count).foldl (fun maxD (i : Nat) =>
    let d := dx i 0 * dx i 0 + dx i 1 * dx i 1 + dx i 2 * dx i 2
    if maxD < d then d else maxD) 0

omit [FloorRing K] in
/-- The second loop moves the nodes, and how far depends on the steps only. -/
theorem moveNode_fold (dx : Nat → Fin 3 → K) (nodes : Nat → MrRobotPose K) (count : Nat) :
    (List.range count).foldl (moveNode dx) (nodes, 0) =
      (fun i => if i < count then movePose (nodes i) (dx i) else nodes i, longest dx count) := by
  induction count with
  | zero => rfl
  | succ count ih =>
      rw [longest, List.range_succ, List.foldl_append, List.foldl_append, ih, List.foldl_cons,
        List.foldl_cons, List.foldl_nil, List.foldl_nil, moveNode]
      dsimp only
      rw [if_neg (Nat.lt_irrefl count), ← longest]
      congr 1
      funext i
      by_cases isLast : i = count
      · rw [isLast, Function.update_self, if_pos (Nat.lt_succ_self count)]
      · rw [Function.update_of_ne isLast]
        exact if_congr (by omega) rfl rfl

theorem optimizeTurn_eq (pi alpha : K) (gs : MrGraphSlam K) :
    optimizeTurn pi alpha gs =
      ({ gs with nodes := fun i => if i < gs.numNodes then
          movePose (gs.nodes i) (step pi alpha gs i) else gs.nodes i },
        longest (step pi alpha gs) gs.numNodes) := by
  rw [optimizeTurn, step_eq, moveNode_fold]

@[simp]
theorem optimizeTurn_numNodes (pi alpha : K) (gs : MrGraphSlam K) :
    (optimizeTurn pi alpha gs).1.numNodes = gs.numNodes := rfl

@[simp]
theorem optimizeTurn_edges (pi alpha : K) (gs : MrGraphSlam K) :
    (optimizeTurn pi alpha gs).1.edges = gs.edges := rfl

theorem optimizeTurn_node (pi alpha : K) {gs : MrGraphSlam K} {i : Nat}
    (inside : i < gs.numNodes) : (optimizeTurn pi alpha gs).1.nodes i =
      movePose (gs.nodes i) (step pi alpha gs i) := by
  rw [optimizeTurn_eq]
  exact if_pos inside

theorem optimizeLoop_succ (pi : K) (turns : Nat) (alpha : K) (gs : MrGraphSlam K) :
    optimizeLoop pi (turns + 1) alpha gs =
      if (optimizeTurn pi alpha gs).2 < 1 / 10 ^ 6 then (optimizeTurn pi alpha gs).1
      else optimizeLoop pi turns (alpha * (9 / 10)) (optimizeTurn pi alpha gs).1 := rfl

/-- What no turn of the optimiser breaks holds when it ends. -/
theorem optimizeLoop_invariant (pi : K) (motive : MrGraphSlam K → Prop)
    (turn : ∀ alpha gs, motive gs → motive (optimizeTurn pi alpha gs).1) (turns : Nat)
    (alpha : K) {gs : MrGraphSlam K} (before : motive gs) :
    motive (optimizeLoop pi turns alpha gs) := by
  induction turns generalizing alpha gs with
  | zero => exact before
  | succ turns ih =>
      rw [optimizeLoop_succ]
      split
      · exact turn alpha gs before
      · exact ih _ (turn alpha gs before)

/-! ### Runs -/

/-- The functions that change a graph, with what they are called with. -/
inductive GraphCall (K : Type*)
  | addNode (pose : MrRobotPose K)
  | addEdge (fromNode toNode : Nat) (dx dy dtheta : K)
  | loopClosure (nodeA nodeB : Nat) (dx dy dtheta : K)
  | optimize (maxIters : Nat)

def graphCall (pi : K) (gs : MrGraphSlam K) : GraphCall K → MrGraphSlam K
  | .addNode pose => (mrGraphSlamAddNode gs pose).1
  | .addEdge a b dx dy dtheta => (mrGraphSlamAddEdge gs a b dx dy dtheta).1
  | .loopClosure a b dx dy dtheta => (mrGraphSlamLoopClosure gs a b dx dy dtheta).1
  | .optimize maxIters => mrGraphSlamOptimize pi gs maxIters

/-- The graph after these calls. -/
def graphAfter (pi : K) (initial : Option (MrRobotPose K)) (calls : List (GraphCall K)) :
    MrGraphSlam K :=
  calls.foldl (graphCall pi) (mrGraphSlamInit initial)

def GraphCall.pose : GraphCall K → Option (MrRobotPose K)
  | .addNode pose => some pose
  | _ => none

/-- The poses that were given, as far as there was room for them. -/
def givenPoses (initial : Option (MrRobotPose K)) (calls : List (GraphCall K)) :
    List (MrRobotPose K) :=
  (initial.toList ++ calls.filterMap GraphCall.pose).take (mrSlamMaxLandmarks + mrSlamMaxParticles)

/-- The same calls in a world that is moved. -/
def GraphCall.moved (v : Fin 3 → K) : GraphCall K → GraphCall K
  | .addNode pose => .addNode (movePose pose v)
  | call => call

/-- What holds of a graph that was made of these poses. -/
structure MadeOf (given : List (MrRobotPose K)) (gs : MrGraphSlam K) : Prop where
  numNodes : gs.numNodes = given.length
  edges : gs.edges.length ≤ mrSlamMaxLandmarks * 4
  total : ∑ i ∈ Finset.range gs.numNodes, poseVector (gs.nodes i) = (given.map poseVector).sum
  apart : ∀ i < gs.numNodes, (∀ edge ∈ gs.edges, edge.fromNode ≠ i ∧ edge.toNode ≠ i) →
    given[i]? = some (gs.nodes i)

/-- Two graphs that differ in where the world begins. -/
structure Moved (v : Fin 3 → K) (gs moved : MrGraphSlam K) : Prop where
  numNodes : moved.numNodes = gs.numNodes
  edges : moved.edges = gs.edges
  nodes : ∀ i < gs.numNodes, moved.nodes i = movePose (gs.nodes i) v

section Runs

variable {pi : K} {given : List (MrRobotPose K)} {gs other : MrGraphSlam K} {v : Fin 3 → K}

omit [LinearOrder K] [FloorRing K] in
theorem poseVector_movePose (pose : MrRobotPose K) (d : Fin 3 → K) :
    poseVector (movePose pose d) = poseVector pose + d := by
  funext axis
  fin_cases axis <;> rfl

omit [LinearOrder K] [FloorRing K] in
theorem movePose_comm (pose : MrRobotPose K) (d v : Fin 3 → K) :
    movePose (movePose pose v) d = movePose (movePose pose d) v := by
  simp only [movePose, add_right_comm]

omit [LinearOrder K] [FloorRing K] in
theorem movePose_zero (pose : MrRobotPose K) : movePose pose 0 = pose := by
  simp only [movePose, Pi.zero_apply, add_zero]

theorem MadeOf.turned (madeOf : MadeOf given gs) (alpha : K) :
    MadeOf given (optimizeTurn pi alpha gs).1 := by
  constructor
  case numNodes => exact madeOf.numNodes
  case edges => exact madeOf.edges
  case total =>
    rw [← madeOf.total]
    have nodes : ∀ i ∈ Finset.range gs.numNodes,
        poseVector ((optimizeTurn pi alpha gs).1.nodes i) =
          poseVector (gs.nodes i) + step pi alpha gs i := by
      intro i inside
      rw [optimizeTurn_node pi alpha (Finset.mem_range.mp inside), poseVector_movePose]
    rw [optimizeTurn_numNodes, Finset.sum_congr rfl nodes, Finset.sum_add_distrib, step,
      EdgeFlows.sum_inflow _ gs.inside_among, add_zero]
  case apart =>
    intro i inside apart
    rw [optimizeTurn_numNodes] at inside
    rw [optimizeTurn_edges] at apart
    have still : step pi alpha gs i = 0 :=
      EdgeFlows.inflow_eq_zero fun edge listed => apart edge (List.mem_filter.mp listed).1
    rw [optimizeTurn_node pi alpha inside, still, movePose_zero]
    exact madeOf.apart i inside apart

/-- The errors see differences only. -/
theorem Moved.step_eq (moved : Moved v gs other) (alpha : K) :
    step pi alpha other = step pi alpha gs := by
  have sameInside : other.inside = gs.inside := by
    rw [MrGraphSlam.inside, moved.edges, moved.numNodes, MrGraphSlam.inside]
  funext node
  rw [step, step, sameInside, EdgeFlows.inflow, EdgeFlows.inflow]
  congr 1
  apply List.map_congr_left
  intro edge listed
  have ends := gs.inside_among edge listed
  rw [Finset.mem_range, Finset.mem_range] at ends
  have sameError : edgeError pi other.nodes edge = edgeError pi gs.nodes edge := by
    simp only [edgeError, moved.nodes _ ends.1, moved.nodes _ ends.2, movePose,
      add_sub_add_right_eq_sub]
  rw [sameError]

theorem Moved.turned (moved : Moved v gs other) (alpha : K) :
    Moved v (optimizeTurn pi alpha gs).1 (optimizeTurn pi alpha other).1 ∧
      (optimizeTurn pi alpha other).2 = (optimizeTurn pi alpha gs).2 := by
  rw [optimizeTurn_eq, optimizeTurn_eq, moved.step_eq, moved.numNodes]
  refine ⟨⟨rfl, moved.edges, ?_⟩, rfl⟩
  intro i inside
  dsimp only at inside ⊢
  rw [if_pos inside, if_pos inside, moved.nodes i inside, movePose_comm]

theorem Moved.loop (moved : Moved v gs other) (turns : Nat) (alpha : K) :
    Moved v (optimizeLoop pi turns alpha gs) (optimizeLoop pi turns alpha other) := by
  induction turns generalizing alpha gs other with
  | zero => exact moved
  | succ turns ih =>
      obtain ⟨after, sameMax⟩ : Moved v (optimizeTurn pi alpha gs).1 (optimizeTurn pi alpha other).1 ∧
          (optimizeTurn pi alpha other).2 = (optimizeTurn pi alpha gs).2 := moved.turned alpha
      rw [optimizeLoop_succ, optimizeLoop_succ, sameMax]
      split
      · exact after
      · exact ih after _

omit [LinearOrder K] [FloorRing K] in
theorem MadeOf.addNode (madeOf : MadeOf given gs) (pose : MrRobotPose K) :
    MadeOf (given ++ [pose])
      { gs with
        nodes := Function.update gs.nodes gs.numNodes pose
        numNodes := gs.numNodes + 1 } := by
  constructor
  case numNodes => rw [List.length_append, ← madeOf.numNodes, List.length_singleton]
  case edges => exact madeOf.edges
  case total =>
    have older : ∀ i ∈ Finset.range gs.numNodes,
        poseVector (Function.update gs.nodes gs.numNodes pose i) = poseVector (gs.nodes i) := by
      intro i inside
      rw [Function.update_of_ne (Finset.mem_range.mp inside).ne]
    dsimp only
    rw [Finset.sum_range_succ, Finset.sum_congr rfl older, madeOf.total, Function.update_self,
      List.map_append, List.sum_append, List.map_singleton, List.sum_singleton]
  case apart =>
    intro i inside apart
    dsimp only at inside apart ⊢
    rcases Nat.lt_succ_iff_lt_or_eq.mp inside with older | rfl
    · rw [Function.update_of_ne older.ne, List.getElem?_append_left (madeOf.numNodes ▸ older)]
      exact madeOf.apart i older apart
    · rw [Function.update_self, madeOf.numNodes, List.getElem?_concat_length]

omit [LinearOrder K] [FloorRing K] in
theorem MadeOf.addEdge (madeOf : MadeOf given gs) (a b : Nat) (dx dy dtheta : K) :
    MadeOf given (mrGraphSlamAddEdge gs a b dx dy dtheta).1 := by
  rw [mrGraphSlamAddEdge]
  split
  · exact madeOf
  · rename_i room
    constructor
    case numNodes => exact madeOf.numNodes
    case edges =>
      rw [List.length_append, List.length_singleton]
      omega
    case total => exact madeOf.total
    case apart =>
      intro i inside apart
      exact madeOf.apart i inside fun edge listed => apart edge (List.mem_append_left _ listed)

omit [LinearOrder K] [FloorRing K] in
/-- A node that there is no room for is as if it had not been given. -/
theorem MadeOf.addedNode {room : Nat} (isRoom : room = mrSlamMaxLandmarks + mrSlamMaxParticles)
    (madeOf : MadeOf (given.take room) gs) (pose : MrRobotPose K) :
    MadeOf ((given ++ [pose]).take room) (mrGraphSlamAddNode gs pose).1 := by
  have count := madeOf.numNodes
  rw [List.length_take] at count
  rw [mrGraphSlamAddNode, ← isRoom]
  split
  · rwa [List.take_append_of_le_length (by omega)]
  · have short : given.length < room := by omega
    rw [List.take_of_length_le short.le] at madeOf
    rw [List.take_of_length_le (by rw [List.length_append, List.length_singleton]; omega)]
    exact madeOf.addNode pose

omit [LinearOrder K] [FloorRing K] in
theorem madeOf_init (initial : Option (MrRobotPose K)) :
    MadeOf (initial.toList.take (mrSlamMaxLandmarks + mrSlamMaxParticles))
      (mrGraphSlamInit initial) := by
  cases initial with
  | none =>
      constructor
      case numNodes => rfl
      case edges => exact Nat.zero_le _
      case total => rfl
      case apart => exact fun i inside => absurd inside (Nat.not_lt_zero i)
  | some pose =>
      constructor
      case numNodes => rfl
      case edges => exact Nat.zero_le _
      case total =>
        have room : 1 ≤ mrSlamMaxLandmarks + mrSlamMaxParticles := by decide
        rw [Option.toList_some, List.take_of_length_le room, List.map_singleton,
          List.sum_singleton]
        exact Finset.sum_range_one _
      case apart =>
        intro i inside _
        rw [Nat.lt_one_iff.mp inside]
        rfl

theorem madeOf_graphAfter (pi : K) (initial : Option (MrRobotPose K))
    (calls : List (GraphCall K)) :
    MadeOf (givenPoses initial calls) (graphAfter pi initial calls) := by
  induction calls using List.reverseRecOn with
  | nil =>
      rw [givenPoses, List.filterMap_nil, List.append_nil]
      exact madeOf_init initial
  | append_singleton calls call ih =>
      rw [graphAfter, List.foldl_append, ← graphAfter, List.foldl_cons, List.foldl_nil]
      rw [givenPoses, List.filterMap_append, ← List.append_assoc]
      cases call with
      | addNode pose => exact ih.addedNode rfl pose
      | addEdge a b dx dy dtheta =>
          rw [List.filterMap_cons_none rfl, List.filterMap_nil, List.append_nil]
          exact ih.addEdge a b dx dy dtheta
      | loopClosure a b dx dy dtheta =>
          rw [List.filterMap_cons_none rfl, List.filterMap_nil, List.append_nil]
          exact ih.addEdge a b dx dy dtheta
      | optimize maxIters =>
          rw [List.filterMap_cons_none rfl, List.filterMap_nil, List.append_nil]
          exact optimizeLoop_invariant pi _ (fun alpha _ before => before.turned alpha) maxIters 1
            ih

omit [LinearOrder K] [FloorRing K] in
theorem Moved.addNode (moved : Moved v gs other) (pose : MrRobotPose K) :
    Moved v (mrGraphSlamAddNode gs pose).1 (mrGraphSlamAddNode other (movePose pose v)).1 := by
  rw [mrGraphSlamAddNode, mrGraphSlamAddNode, moved.numNodes]
  split
  · exact moved
  · refine ⟨rfl, moved.edges, ?_⟩
    intro i inside
    dsimp only at inside ⊢
    rcases Nat.lt_succ_iff_lt_or_eq.mp inside with older | rfl
    · rw [Function.update_of_ne older.ne, Function.update_of_ne older.ne, moved.nodes i older]
    · rw [Function.update_self, Function.update_self]

omit [LinearOrder K] [FloorRing K] in
theorem Moved.addEdge (moved : Moved v gs other) (a b : Nat) (dx dy dtheta : K) :
    Moved v (mrGraphSlamAddEdge gs a b dx dy dtheta).1
      (mrGraphSlamAddEdge other a b dx dy dtheta).1 := by
  rw [mrGraphSlamAddEdge, mrGraphSlamAddEdge, moved.edges]
  split
  · exact moved
  · exact ⟨moved.numNodes, rfl, moved.nodes⟩

theorem moved_graphAfter (pi : K) (initial : Option (MrRobotPose K)) (calls : List (GraphCall K))
    (v : Fin 3 → K) : Moved v (graphAfter pi initial calls)
      (graphAfter pi (initial.map fun pose => movePose pose v)
        (calls.map (GraphCall.moved v))) := by
  induction calls using List.reverseRecOn with
  | nil =>
      cases initial with
      | none => exact ⟨rfl, rfl, fun i inside => absurd inside (Nat.not_lt_zero i)⟩
      | some pose =>
          refine ⟨rfl, rfl, ?_⟩
          intro i inside
          rw [Nat.lt_one_iff.mp inside]
          rfl
  | append_singleton calls call ih =>
      rw [graphAfter, graphAfter, List.map_append, List.foldl_append, List.foldl_append,
        ← graphAfter, ← graphAfter, List.map_singleton, List.foldl_cons, List.foldl_nil,
        List.foldl_cons, List.foldl_nil]
      cases call with
      | addNode pose => exact ih.addNode pose
      | addEdge a b dx dy dtheta => exact ih.addEdge a b dx dy dtheta
      | loopClosure a b dx dy dtheta => exact ih.addEdge a b dx dy dtheta
      | optimize maxIters => exact ih.loop maxIters 1

end Runs

def edgeVector (edge : MrPoseEdge K) : Fin 3 → K := ![edge.dx, edge.dy, edge.dtheta]

/-- The squared errors of the edges in one coordinate. -/
def squaredErrors (axis : Fin 3) (gs : MrGraphSlam K) : K :=
  EdgeFlows.squaredError MrPoseEdge.fromNode MrPoseEdge.toNode (fun edge => edgeVector edge axis)
    gs.inside fun i => poseVector (gs.nodes i) axis

theorem optimizeTurn_inside (pi alpha : K) (gs : MrGraphSlam K) :
    (optimizeTurn pi alpha gs).1.inside = gs.inside := rfl

/-- How many edges end at a node. -/
def MrGraphSlam.degree (gs : MrGraphSlam K) (node : Nat) : Nat :=
  EdgeFlows.degree MrPoseEdge.fromNode MrPoseEdge.toNode gs.inside node

section Squares

variable {pi : K} {gs : MrGraphSlam K} {axis : Fin 3}

/-- Outside of the angle, the step is a part of the pull. -/
theorem step_axis (flat : axis ≠ 2) (pi alpha : K) (gs : MrGraphSlam K) (node : Nat) :
    step pi alpha gs node axis =
      alpha * EdgeFlows.pull MrPoseEdge.fromNode MrPoseEdge.toNode
        (fun edge => edgeVector edge axis) gs.inside (fun i => poseVector (gs.nodes i) axis)
        node := by
  have sameError : ∀ edge, edgeError pi gs.nodes edge axis =
      EdgeFlows.error MrPoseEdge.fromNode MrPoseEdge.toNode (fun edge => edgeVector edge axis)
        (fun i => poseVector (gs.nodes i) axis) edge := by
    intro edge
    fin_cases axis
    · rfl
    · rfl
    · exact absurd rfl flat
  rw [step, EdgeFlows.inflow_apply, EdgeFlows.pull, ← EdgeFlows.inflow_mul_left]
  simp only [sameError]

/-- The squared errors depend on the nodes that are there. -/
theorem squaredErrors_turn (flat : axis ≠ 2) (pi alpha : K) (gs : MrGraphSlam K) :
    squaredErrors axis (optimizeTurn pi alpha gs).1 =
      EdgeFlows.squaredError MrPoseEdge.fromNode MrPoseEdge.toNode
        (fun edge => edgeVector edge axis) gs.inside fun i =>
          poseVector (gs.nodes i) axis + alpha * EdgeFlows.pull MrPoseEdge.fromNode
            MrPoseEdge.toNode (fun edge => edgeVector edge axis) gs.inside
              (fun i => poseVector (gs.nodes i) axis) i := by
  rw [squaredErrors, EdgeFlows.squaredError, EdgeFlows.squaredError]
  rw [optimizeTurn_inside]
  congr 1
  apply List.map_congr_left
  intro edge listed
  have ends := gs.inside_among edge listed
  rw [Finset.mem_range, Finset.mem_range] at ends
  rw [EdgeFlows.error, EdgeFlows.error, optimizeTurn_node pi alpha ends.1,
    optimizeTurn_node pi alpha ends.2, poseVector_movePose, poseVector_movePose, Pi.add_apply,
    Pi.add_apply, step_axis flat, step_axis flat]

variable [IsStrictOrderedRing K]

/-- Small steps make the errors no larger. -/
theorem squaredErrors_turn_le (flat : axis ≠ 2) {bound : Nat} {alpha : K} (positive : 0 ≤ alpha)
    (bounded : ∀ node < gs.numNodes, gs.degree node ≤ bound) (small : alpha * bound ≤ 1) :
    squaredErrors axis (optimizeTurn pi alpha gs).1 ≤ squaredErrors axis gs := by
  rw [squaredErrors_turn flat]
  apply (EdgeFlows.squaredError_pulled_le (fun i => poseVector (gs.nodes i) axis)
    (fun edge => edgeVector edge axis) gs.inside_among
    (fun node inside => bounded node (Finset.mem_range.mp inside)) alpha).trans
  apply sub_le_self
  apply mul_nonneg
  · exact mul_nonneg (mul_nonneg zero_le_two positive) (sub_nonneg.mpr small)
  · exact Finset.sum_nonneg fun node _ => sq_nonneg _

/-- One turn more makes the errors no larger if its steps are small. -/
theorem squaredErrors_loop_succ_le (flat : axis ≠ 2) {bound turns : Nat} {alpha : K}
    (positive : 0 ≤ alpha) (bounded : ∀ node < gs.numNodes, gs.degree node ≤ bound)
    (small : alpha * (9 / 10) ^ turns * bound ≤ 1) :
    squaredErrors axis (optimizeLoop pi (turns + 1) alpha gs) ≤
      squaredErrors axis (optimizeLoop pi turns alpha gs) := by
  induction turns generalizing alpha gs with
  | zero =>
      rw [pow_zero, mul_one] at small
      have turned : squaredErrors axis (optimizeTurn pi alpha gs).1 ≤ squaredErrors axis gs :=
        squaredErrors_turn_le flat positive bounded small
      rw [optimizeLoop_succ]
      split
      · exact turned
      · exact turned
  | succ turns ih =>
      rw [optimizeLoop_succ pi (turns + 1), optimizeLoop_succ pi turns alpha gs]
      split
      · exact le_rfl
      · have shrunk : 0 ≤ alpha * (9 / 10) := mul_nonneg positive (by norm_num)
        have sameDegree : (optimizeTurn pi alpha gs).1.degree = gs.degree := rfl
        rw [pow_succ', ← mul_assoc] at small
        exact ih shrunk (by rwa [sameDegree]) small

/-- Late turns make the errors no larger, however many there are. -/
theorem squaredErrors_loop_add_le (flat : axis ≠ 2) {bound turns : Nat}
    (bounded : ∀ node < gs.numNodes, gs.degree node ≤ bound)
    (late : (9 / 10 : K) ^ turns * bound ≤ 1) (more : Nat) :
    squaredErrors axis (mrGraphSlamOptimize pi gs (turns + more)) ≤
      squaredErrors axis (mrGraphSlamOptimize pi gs turns) := by
  induction more with
  | zero => exact le_rfl
  | succ more ih =>
      apply (squaredErrors_loop_succ_le flat zero_le_one bounded _).trans ih
      have shrinks : (9 / 10 : K) ^ (turns + more) ≤ (9 / 10) ^ turns :=
        pow_le_pow_of_le_one (by norm_num) (by norm_num) (Nat.le_add_right turns more)
      rw [one_mul]
      exact (mul_le_mul_of_nonneg_right shrinks (Nat.cast_nonneg bound)).trans late

/-- A turn leaves a coordinate alone exactly when its squared errors are the least ones. -/
theorem turn_still_iff (flat : axis ≠ 2) (pi : K) {alpha : K} (positive : 0 < alpha)
    (gs : MrGraphSlam K) :
    (∀ i < gs.numNodes, poseVector ((optimizeTurn pi alpha gs).1.nodes i) axis =
        poseVector (gs.nodes i) axis) ↔
      ∀ other, squaredErrors axis gs ≤ EdgeFlows.squaredError MrPoseEdge.fromNode
        MrPoseEdge.toNode (fun edge => edgeVector edge axis) gs.inside other := by
  rw [squaredErrors, ← EdgeFlows.pull_eq_zero_iff gs.inside_among]
  simp only [Finset.mem_range]
  apply forall₂_congr
  intro i inside
  rw [optimizeTurn_node pi alpha inside, poseVector_movePose, Pi.add_apply, step_axis flat,
    add_eq_left, mul_eq_zero_iff_left positive.ne']

/-! ### Whole turns of the angle -/

/-- What is measured between the poses is what lies between them, but for whole turns. -/
def MrGraphSlam.Consistent (pi : K) (gs : MrGraphSlam K) : Prop :=
  ∀ edge ∈ gs.inside,
    edge.dx = (gs.nodes edge.toNode).x - (gs.nodes edge.fromNode).x ∧
    edge.dy = (gs.nodes edge.toNode).y - (gs.nodes edge.fromNode).y ∧
    -pi < edge.dtheta ∧ edge.dtheta < pi ∧ ∃ turns : ℤ, edge.dtheta =
      (gs.nodes edge.toNode).theta - (gs.nodes edge.fromNode).theta + turns * (2 * pi)

section Angles

omit [FloorRing K]

theorem wrapDown_spec {turns : Nat} {angle : K}
    (enough : angle ≤ pi + turns * (2 * pi)) :
    wrapDown pi turns angle ≤ pi ∧
      (wrapDown pi turns angle = angle ∨ -pi < wrapDown pi turns angle) ∧
      ∃ whole : ℤ, wrapDown pi turns angle = angle + whole * (2 * pi) := by
  induction turns generalizing angle with
  | zero =>
      rw [Nat.cast_zero, zero_mul, add_zero] at enough
      exact ⟨enough, .inl rfl, 0, by rw [wrapDown, Int.cast_zero, zero_mul, add_zero]⟩
  | succ turns ih =>
      rw [wrapDown]
      split
      · rename_i large
        rw [Nat.cast_succ] at enough
        obtain ⟨below, above, whole, isWhole⟩ := @ih (angle - 2 * pi) (by linarith)
        refine ⟨below, .inr ?_, whole - 1, ?_⟩
        · rcases above with same | above
          · rw [same]
            linarith
          · exact above
        · rw [isWhole, Int.cast_sub, Int.cast_one]
          ring
      · rename_i small
        exact ⟨not_lt.mp small, .inl rfl, 0, by rw [Int.cast_zero, zero_mul, add_zero]⟩

theorem wrapUp_spec {turns : Nat} {angle : K} (enough : -pi ≤ angle + turns * (2 * pi)) :
    -pi ≤ wrapUp pi turns angle ∧
      (wrapUp pi turns angle = angle ∨ wrapUp pi turns angle < pi) ∧
      ∃ whole : ℤ, wrapUp pi turns angle = angle + whole * (2 * pi) := by
  induction turns generalizing angle with
  | zero =>
      rw [Nat.cast_zero, zero_mul, add_zero] at enough
      exact ⟨enough, .inl rfl, 0, by rw [wrapUp, Int.cast_zero, zero_mul, add_zero]⟩
  | succ turns ih =>
      rw [wrapUp]
      split
      · rename_i small
        rw [Nat.cast_succ] at enough
        obtain ⟨above, below, whole, isWhole⟩ := @ih (angle + 2 * pi) (by linarith)
        refine ⟨above, .inr ?_, whole + 1, ?_⟩
        · rcases below with same | below
          · rw [same]
            linarith
          · exact below
        · rw [isWhole, Int.cast_add, Int.cast_one]
          ring
      · rename_i large
        exact ⟨not_lt.mp large, .inl rfl, 0, by rw [Int.cast_zero, zero_mul, add_zero]⟩

end Angles

/-- The loops have turns enough, and take off whole turns of the angle. -/
theorem wrapAngle_spec (positive : 0 < pi) (angle : K) :
    -pi ≤ wrapAngle pi angle ∧ wrapAngle pi angle ≤ pi ∧
      ∃ whole : ℤ, wrapAngle pi angle = angle + whole * (2 * pi) := by
  have twice : 0 < 2 * pi := by linarith
  have enough : |angle| ≤ (⌈|angle| / (2 * pi)⌉.toNat : Nat) * (2 * pi) := by
    rw [← div_le_iff₀ twice]
    apply (Int.le_ceil _).trans
    exact_mod_cast Int.self_le_toNat _
  have bounds := abs_le.mp enough
  obtain ⟨below, kept, first, isFirst⟩ :=
    @wrapDown_spec K _ _ pi _ ⌈|angle| / (2 * pi)⌉.toNat angle (by linarith [bounds.2])
  obtain ⟨above, stays, second, isSecond⟩ :=
    @wrapUp_spec K _ _ pi _ ⌈|angle| / (2 * pi)⌉.toNat
      (wrapDown pi ⌈|angle| / (2 * pi)⌉.toNat angle) (by
        rcases kept with same | inRange
        · rw [same]
          linarith [neg_abs_le angle]
        · have := abs_nonneg angle
          linarith)
  refine ⟨above, ?_, first + second, ?_⟩
  · rcases stays with same | less
    · exact same.trans_le below
    · exact less.le
  · rw [wrapAngle, isSecond, isFirst, Int.cast_add]
    ring

/-- An angle inside of the range is the only one that differs by whole turns. -/
theorem wrapAngle_eq (positive : 0 < pi) {angle measured : K} (above : -pi < measured)
    (below : measured < pi) (same : ∃ turns : ℤ, measured = angle + turns * (2 * pi)) :
    wrapAngle pi angle = measured := by
  obtain ⟨turns, isMeasured⟩ := same
  obtain ⟨low, high, whole, isWrapped⟩ := wrapAngle_spec positive angle
  have apart : wrapAngle pi angle - measured = ((whole - turns : ℤ) : K) * (2 * pi) := by
    rw [isWrapped, isMeasured, Int.cast_sub]
    ring
  have less : ((whole - turns : ℤ) : K) * (2 * pi) < 1 * (2 * pi) := by
    rw [← apart]
    linarith
  have more : (-1 : K) * (2 * pi) < ((whole - turns : ℤ) : K) * (2 * pi) := by
    rw [← apart]
    linarith
  have twice : 0 < 2 * pi := by linarith
  have upper : whole - turns < 1 := by
    exact_mod_cast lt_of_mul_lt_mul_right less twice.le
  have lower : -1 < whole - turns := by
    exact_mod_cast lt_of_mul_lt_mul_right more twice.le
  have zero : whole - turns = 0 := by omega
  rw [zero, Int.cast_zero, zero_mul] at apart
  exact sub_eq_zero.mp apart

/-- Poses that agree with what was measured are left alone. -/
theorem MrGraphSlam.Consistent.optimize (positive : 0 < pi) (consistent : gs.Consistent pi)
    (maxIters : Nat) : mrGraphSlamOptimize pi gs maxIters = gs := by
  have still : ∀ alpha, step pi alpha gs = 0 := by
    intro alpha
    funext node
    rw [step, EdgeFlows.inflow]
    apply List.sum_eq_zero
    intro value listed
    obtain ⟨edge, listedEdge, rfl⟩ := List.mem_map.mp listed
    obtain ⟨sameX, sameY, above, below, turns⟩ := consistent edge listedEdge
    have noError : ∀ axis, edgeError pi gs.nodes edge axis = 0 := by
      intro axis
      rw [edgeError, wrapAngle_eq positive above below turns, sameX, sameY, sub_self, sub_self,
        sub_self]
      fin_cases axis <;> rfl
    simp only [noError, mul_zero]
    split_ifs <;> exact sub_self _
  have turned : ∀ alpha, (optimizeTurn pi alpha gs).1 = gs := by
    intro alpha
    rw [optimizeTurn_eq, still]
    simp only [Pi.zero_apply, movePose_zero, ite_self]
  apply optimizeLoop_invariant pi (· = gs)
  · intro alpha before same
    rw [same, turned]
  · rfl

end Squares

end GraphSlam

end Robotics

end MiniIotRobotEdge

import Mathlib.Algebra.Order.Monoid.Unbundled.WithTop
import Mathlib.Algebra.Order.Group.Defs
import Mathlib.Algebra.Order.Group.Int
import Mathlib.Algebra.Order.Group.Unbundled.Abs
import Mathlib.Logic.Relation
import MiniIotRobotEdge.RangeLoop

/-!
# Path search on a grid map

The model of `astar_core` in `path_planning.c`.  Costs are exact numbers and
`DBL_MAX` is infinity; arrays are functions of their index, and the allocation
of the nodes succeeds.  The search opens every node of the map at once, and a node that it
has not reached still has the priority and the parent that `calloc` left.
-/

namespace MiniIotRobotEdge

namespace Robotics

def mrPathMaxWp : Nat := 4096

/-- A point with whole coordinates, as the search passes them to a heuristic. -/
structure MrPoint2d where
  x : Int
  y : Int

structure MrGridMap where
  width : Nat
  height : Nat
  cells : Nat → UInt8

def mrGridMapSetCell (map : MrGridMap) (x y : Int) (v : UInt8) : MrGridMap :=
  if 0 ≤ x ∧ x < map.width ∧ 0 ≤ y ∧ y < map.height then
    { map with cells := Function.update map.cells (y * map.width + x).toNat v }
  else map

def mrGridMapGetCell (map : MrGridMap) (x y : Int) : UInt8 :=
  if 0 ≤ x ∧ x < map.width ∧ 0 ≤ y ∧ y < map.height then
    map.cells (y * map.width + x).toNat
  else 255

/-- `mr_grid_node`. -/
structure MrGridNode (α : Type*) where
  x : Int
  y : Int
  g : WithTop α
  f : WithTop α
  isOpen : Bool
  closed : Bool
  parentX : Int
  parentY : Int

abbrev Nodes (α : Type*) := Nat → MrGridNode α

/-- The arguments of `astar_core`. -/
structure Query (α : Type*) where
  map : MrGridMap
  sx : Int
  sy : Int
  gx : Int
  gy : Int
  heuristic : MrPoint2d → MrPoint2d → α
  costFn : Int → Int → Int → Int → MrGridMap → α

def dirs : List (Int × Int) :=
  [(1, 0), (0, 1), (-1, 0), (0, -1), (1, 1), (-1, 1), (1, -1), (-1, -1)]

variable {α : Type*} [AddCommGroup α] [LinearOrder α]

namespace Query

variable (query : Query α)

/-- The place of a cell in the arrays. -/
def index (x y : Int) : Nat := (y * query.map.width + x).toNat

def size : Nat := query.map.height * query.map.width

/-- The heuristic from a cell to the goal. -/
def estimate (x y : Int) : α := query.heuristic ⟨x, y⟩ ⟨query.gx, query.gy⟩

/-- The nodes that `calloc` returns and the first loop fills. -/
def blankNodes : Nodes α :=
  (List.range query.map.height).foldl (fun nodes i =>
    (List.range query.map.width).foldl (fun nodes j =>
      Function.update nodes (i * query.map.width + j)
        { nodes (i * query.map.width + j) with x := j, y := i, g := ⊤ }) nodes)
    (fun _ => ⟨0, 0, 0, 0, false, false, 0, 0⟩)

def startNodes : Nodes α :=
  let start := query.index query.sx query.sy
  Function.update query.blankNodes start
    { query.blankNodes start with g := 0, f := query.estimate query.sx query.sy }

/-- One turn of the loop that opens the nodes and looks for the least priority. -/
def scanNode (state : Nodes α × WithTop α × Option Nat) (idx : Nat) :
    Nodes α × WithTop α × Option Nat :=
  let nodes :=
    if !(state.1 idx).isOpen && !(state.1 idx).closed then
      Function.update state.1 idx { state.1 idx with isOpen := true }
    else state.1
  if (nodes idx).isOpen ∧ !(nodes idx).closed ∧ (nodes idx).f < state.2.1 then
    (nodes, (nodes idx).f, some idx)
  else (nodes, state.2)

def scanNodes (nodes : Nodes α) : Nodes α × WithTop α × Option Nat :=
  (List.range query.map.height).foldl (fun state i =>
    (List.range query.map.width).foldl (fun state j =>
      scanNode state (i * query.map.width + j)) state) (nodes, ⊤, none)

/-- One turn of the loop over the eight directions. -/
def relax (ci : Nat) (cx cy : Int) (nodes : Nodes α) (dir : Int × Int) : Nodes α :=
  let nx := cx + dir.1
  let ny := cy + dir.2
  if nx < 0 ∨ query.map.width ≤ nx ∨ ny < 0 ∨ query.map.height ≤ ny then nodes
  else
    let nidx := query.index nx ny
    if (nodes nidx).closed then nodes
    else if 200 < mrGridMapGetCell query.map nx ny then nodes
    else
      let tentG := (nodes ci).g + query.costFn cx cy nx ny query.map
      if tentG < (nodes nidx).g then
        Function.update nodes nidx { nodes nidx with
          g := tentG, f := tentG + query.estimate nx ny, parentX := cx, parentY := cy }
      else nodes

/-- The main loop, with the turns that are left. -/
def searchLoop : Nat → Nodes α → Bool × Nodes α
  | 0, nodes => (false, nodes)
  | iter + 1, nodes =>
      match query.scanNodes nodes with
      | (nodes, _, none) => (false, nodes)
      | (nodes, _, some ci) =>
          let nodes := Function.update nodes ci { nodes ci with closed := true }
          let cx := (nodes ci).x
          let cy := (nodes ci).y
          if cx = query.gx ∧ cy = query.gy then (true, nodes)
          else searchLoop iter (dirs.foldl (query.relax ci cx cy) nodes)

/-- A cell is written to the path arrays while there is room. -/
def pushCell (path : List (Int × Int)) (px py : Int) : List (Int × Int) :=
  if path.length < mrPathMaxWp then path ++ [(px, py)] else path

/-- The walk over the parents back to the start. -/
def parentWalk (nodes : Nodes α) : Nat → Int → Int → List (Int × Int) → Option (List (Int × Int))
  | 0, _, _, _ => none
  | fuel + 1, px, py, path =>
      if px ≠ query.sx ∨ py ≠ query.sy then
        let nidx := query.index px py
        parentWalk nodes fuel (nodes nidx).parentX (nodes nidx).parentY (pushCell path px py)
      else some path

end Query

/-- `astar_core`: the returned flag and the cells of the path, if the walk ends
within the fuel. -/
def astarCore (fuel : Nat) (query : Query α) : Option (Bool × List (Int × Int)) :=
  match query.searchLoop query.size query.startNodes with
  | (false, _) => some (false, [])
  | (true, nodes) =>
      (query.parentWalk nodes fuel query.gx query.gy []).map fun path =>
        (true, Query.pushCell path query.sx query.sy)

/-- Two different cells that touch at a side or at a corner. -/
def Neighbours (cell other : Int × Int) : Prop :=
  cell ≠ other ∧ |cell.1 - other.1| ≤ 1 ∧ |cell.2 - other.2| ≤ 1

instance (cell other : Int × Int) : Decidable (Neighbours cell other) :=
  inferInstanceAs (Decidable (_ ∧ _))

/-- A step to a neighbouring cell that is not an obstacle. -/
def FreeStep (map : MrGridMap) (cell next : Int × Int) : Prop :=
  Neighbours cell next ∧ mrGridMapGetCell map next.1 next.2 ≤ 200

instance (map : MrGridMap) (cell next : Int × Int) : Decidable (FreeStep map cell next) :=
  inferInstanceAs (Decidable (_ ∧ _))

namespace Query

variable (query : Query α)

def start : Int × Int := (query.sx, query.sy)

def goal : Int × Int := (query.gx, query.gy)

/-- The start and the goal are cells of the map, costs are positive and the
heuristic is never negative. -/
structure WellPosed (query : Query α) : Prop where
  startX : 0 ≤ query.sx ∧ query.sx < query.map.width
  startY : 0 ≤ query.sy ∧ query.sy < query.map.height
  goalX : 0 ≤ query.gx ∧ query.gx < query.map.width
  goalY : 0 ≤ query.gy ∧ query.gy < query.map.height
  costPos : ∀ x1 y1 x2 y2, 0 < query.costFn x1 y1 x2 y2 query.map
  heuristicNonneg : ∀ point target, 0 ≤ query.heuristic point target

/-- The cells lead from a cell back to the start over neighbours, and every cell
but the start is free. -/
structure LeadsFrom (query : Query α) (cell : Int × Int) (path : List (Int × Int)) : Prop where
  head : path.head? = some cell
  last : path.getLast? = some query.start
  neighbours : path.IsChain Neighbours
  free : ∀ member ∈ path, member ≠ query.start →
    mrGridMapGetCell query.map member.1 member.2 ≤ 200

/-- The search returns; it returns one exactly when the goal can be reached, and a
path that was not cut off leads from the goal back to the start. -/
structure Correct (query : Query α) : Prop where
  terminates : ∃ fuel result, astarCore fuel query = some result
  exact : ∀ fuel found path, astarCore fuel query = some (found, path) →
    (found = true ↔ Relation.ReflTransGen (FreeStep query.map) query.start query.goal)
  path : ∀ fuel path, astarCore fuel query = some (true, path) →
    path.length < mrPathMaxWp ∨ path.getLast? = some query.start →
      query.LeadsFrom query.goal path

end Query

/-- A column and a row are determined by the place in row-major order. -/
theorem place_inj {width x y x' y' : Int} (xIn : 0 ≤ x ∧ x < width) (xIn' : 0 ≤ x' ∧ x' < width)
    (same : y * width + x = y' * width + x') : x = x' ∧ y = y' := by
  have column : ∀ {x y : Int}, 0 ≤ x ∧ x < width → (y * width + x) % width = x := by
    intro x y inRange
    rw [Int.add_comm, Int.add_mul_emod_self_right, Int.emod_eq_of_lt inRange.1 inRange.2]
  have sameX : x = x' := by rw [← column xIn (y := y), same, column xIn']
  refine ⟨sameX, ?_⟩
  have rows : y * width = y' * width := by omega
  exact Int.eq_of_mul_eq_mul_right (by omega) rows

theorem place_toNat_inj {width x y x' y' : Int} (xIn : 0 ≤ x ∧ x < width) (yIn : 0 ≤ y)
    (xIn' : 0 ≤ x' ∧ x' < width) (yIn' : 0 ≤ y')
    (same : (y * width + x).toNat = (y' * width + x').toNat) : x = x' ∧ y = y' := by
  have row : 0 ≤ y * width := Int.mul_nonneg yIn (by omega)
  have row' : 0 ≤ y' * width := Int.mul_nonneg yIn' (by omega)
  exact place_inj xIn xIn' (by omega)

/-- Setting a cell changes what is read there and nowhere else. -/
theorem mrGridMapGetCell_set (map : MrGridMap) (x y x' y' : Int) (v : UInt8) :
    mrGridMapGetCell (mrGridMapSetCell map x y v) x' y' =
      if (0 ≤ x ∧ x < map.width ∧ 0 ≤ y ∧ y < map.height) ∧ x' = x ∧ y' = y then v
      else mrGridMapGetCell map x' y' := by
  by_cases inside : 0 ≤ x ∧ x < map.width ∧ 0 ≤ y ∧ y < map.height
  · obtain ⟨x0, xLt, y0, yLt⟩ := inside
    simp only [mrGridMapSetCell, mrGridMapGetCell, x0, xLt, y0, yLt, and_self, if_true, true_and]
    by_cases same : x' = x ∧ y' = y
    · obtain ⟨rfl, rfl⟩ := same
      simp only [x0, xLt, y0, yLt, and_self, if_true, Function.update_self]
    · rw [if_neg same]
      split
      · rename_i inside'
        rw [Function.update_of_ne]
        intro samePlace
        exact same (place_toNat_inj ⟨inside'.1, inside'.2.1⟩ inside'.2.2.1 ⟨x0, xLt⟩ y0 samePlace)
      · rfl
  · rw [mrGridMapSetCell, if_neg inside, if_neg (fun both => inside both.1)]

end Robotics

end MiniIotRobotEdge

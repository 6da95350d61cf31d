import Mathlib.Data.List.Nodup
import Mathlib.Tactic.IntervalCases
import MiniIotRobotEdge.RoboticsAstar

/-!
# The steps of the path search

What the loops of `astar_core` do to the nodes: the first one makes them blank,
the scan opens all of them and finds the first node of least priority, and the
loop over the directions rewrites the neighbours of that node.
-/

namespace MiniIotRobotEdge

namespace Robotics

variable {α : Type*}

namespace Query

variable (query : Query α)

/-- The cell at a place in the arrays. -/
def cellAt (idx : Nat) : Int × Int :=
  ((idx % query.map.width : Nat), (idx / query.map.width : Nat))

def Inside (cell : Int × Int) : Prop :=
  (0 ≤ cell.1 ∧ cell.1 < query.map.width) ∧ 0 ≤ cell.2 ∧ cell.2 < query.map.height

variable {query} {idx other ci : Nat} {cell : Int × Int}

theorem inside_cellAt (inRange : idx < query.size) : query.Inside (query.cellAt idx) := by
  have widthPos : 0 < query.map.width := by
    rcases Nat.eq_zero_or_pos query.map.width with zero | pos
    · rw [size, zero, Nat.mul_zero] at inRange
      exact absurd inRange (Nat.not_lt_zero idx)
    · exact pos
  have row : idx / query.map.width < query.map.height :=
    (Nat.div_lt_iff_lt_mul widthPos).mpr inRange
  have column : idx % query.map.width < query.map.width := Nat.mod_lt _ widthPos
  refine ⟨⟨?_, ?_⟩, ?_, ?_⟩
  · exact Int.natCast_nonneg _
  · exact Int.ofNat_lt.mpr column
  · exact Int.natCast_nonneg _
  · exact Int.ofNat_lt.mpr row

theorem index_cellAt (query : Query α) (idx : Nat) :
    query.index (query.cellAt idx).1 (query.cellAt idx).2 = idx := by
  have divided : idx / query.map.width * query.map.width + idx % query.map.width = idx :=
    Nat.div_add_mod' idx query.map.width
  simp only [index, cellAt]
  omega

theorem index_lt (inside : query.Inside cell) : query.index cell.1 cell.2 < query.size := by
  obtain ⟨⟨x0, xLt⟩, y0, yLt⟩ := inside
  obtain ⟨x, xEq⟩ := Int.eq_ofNat_of_zero_le x0
  obtain ⟨y, yEq⟩ := Int.eq_ofNat_of_zero_le y0
  rw [xEq] at xLt
  rw [yEq] at yLt
  have rows : (y + 1) * query.map.width ≤ query.map.height * query.map.width :=
    Nat.mul_le_mul_right _ (by omega)
  rw [Nat.succ_mul] at rows
  have place : query.index cell.1 cell.2 = y * query.map.width + x := by
    rw [index, xEq, yEq]
    omega
  rw [place, size]
  omega

theorem cellAt_index (inside : query.Inside cell) :
    query.cellAt (query.index cell.1 cell.2) = cell := by
  have there := inside_cellAt (index_lt inside)
  obtain ⟨sameX, sameY⟩ := place_toNat_inj there.1 there.2.1 inside.1 inside.2.1
    (index_cellAt query (query.index cell.1 cell.2))
  exact Prod.ext sameX sameY

theorem cellAt_inj (same : query.cellAt idx = query.cellAt other) : idx = other := by
  rw [← index_cellAt query idx, same, index_cellAt]

/-- What the scan does to one node. -/
def openNode (node : MrGridNode α) : MrGridNode α :=
  if !node.isOpen && !node.closed then { node with isOpen := true } else node

def openedTo (nodes : Nodes α) (count : Nat) : Nodes α :=
  fun idx => if idx < count then openNode (nodes idx) else nodes idx

theorem openNode_eq (node : MrGridNode α) :
    openNode node = { node with isOpen := (openNode node).isOpen } := by
  unfold openNode
  split
  · rfl
  · rfl

theorem isOpen_openNode {node : MrGridNode α} (notClosed : node.closed = false) :
    (openNode node).isOpen = true := by
  unfold openNode
  cases isOpen : node.isOpen
  · simp [notClosed]
  · simp [isOpen]

theorem openedTo_self (nodes : Nodes α) (count : Nat) : openedTo nodes count count = nodes count :=
  if_neg (Nat.lt_irrefl count)

theorem openedTo_succ (nodes : Nodes α) (count : Nat) :
    openedTo nodes (count + 1) =
      Function.update (openedTo nodes count) count (openNode (nodes count)) := by
  ext idx
  by_cases here : idx = count
  · subst here
    rw [Function.update_self]
    exact if_pos (Nat.lt_succ_self idx)
  · have sameTurns : idx < count + 1 ↔ idx < count := by omega
    rw [Function.update_of_ne here]
    simp only [openedTo, sameTurns]

/-- The place of the neighbour in a direction. -/
def target (query : Query α) (cell : Int × Int) (dir : Int × Int) : Option Nat :=
  if cell.1 + dir.1 < 0 ∨ query.map.width ≤ cell.1 + dir.1 ∨ cell.2 + dir.2 < 0 ∨
      query.map.height ≤ cell.2 + dir.2 then none
  else some (query.index (cell.1 + dir.1) (cell.2 + dir.2))

theorem mem_dirs {dx dy : Int} :
    (dx, dy) ∈ dirs ↔ ((0 : Int), (0 : Int)) ≠ (dx, dy) ∧ |dx| ≤ 1 ∧ |dy| ≤ 1 := by
  constructor
  · have all : ∀ dir ∈ dirs, ((0 : Int), (0 : Int)) ≠ dir ∧ |dir.1| ≤ 1 ∧ |dir.2| ≤ 1 := by decide
    exact all (dx, dy)
  · rintro ⟨notZero, dxLe, dyLe⟩
    obtain ⟨dxLow, dxHigh⟩ := abs_le.mp dxLe
    obtain ⟨dyLow, dyHigh⟩ := abs_le.mp dyLe
    interval_cases dx <;> interval_cases dy <;> revert notZero <;> decide

theorem target_eq_some {dir : Int × Int} :
    query.target cell dir = some idx ↔
      idx < query.size ∧ query.cellAt idx = (cell.1 + dir.1, cell.2 + dir.2) := by
  unfold target
  constructor
  · intro found
    split at found
    · cases found
    · rename_i notOutside
      obtain rfl := Option.some.inj found
      have inside : query.Inside (cell.1 + dir.1, cell.2 + dir.2) := by
        unfold Inside
        omega
      exact ⟨index_lt inside, cellAt_index inside⟩
  · rintro ⟨inRange, same⟩
    have inside := inside_cellAt inRange
    rw [same] at inside
    unfold Inside at inside
    rw [if_neg (by omega), ← index_cellAt query idx, same]

/-- The places of the neighbours of a cell, in the order of the directions. -/
def targets (query : Query α) (cell : Int × Int) : List Nat :=
  dirs.filterMap (query.target cell)

theorem mem_targets (inRange : idx < query.size) :
    idx ∈ query.targets cell ↔ Neighbours cell (query.cellAt idx) := by
  have difference : ∀ dir : Int × Int, query.cellAt idx = (cell.1 + dir.1, cell.2 + dir.2) ↔
      dir = ((query.cellAt idx).1 - cell.1, (query.cellAt idx).2 - cell.2) := by
    intro dir
    simp only [Prod.ext_iff]
    omega
  have isDir : idx ∈ query.targets cell ↔
      ((query.cellAt idx).1 - cell.1, (query.cellAt idx).2 - cell.2) ∈ dirs := by
    simp only [targets, List.mem_filterMap, target_eq_some, inRange, true_and, difference]
    exact exists_eq_right
  have notSame : ((0 : Int), (0 : Int)) ≠
      ((query.cellAt idx).1 - cell.1, (query.cellAt idx).2 - cell.2) ↔
      cell ≠ query.cellAt idx := by
    simp only [ne_eq, Prod.ext_iff]
    omega
  rw [isDir, mem_dirs, notSame, Neighbours, abs_sub_comm, abs_sub_comm (query.cellAt idx).2]

theorem targets_nodup : (query.targets cell).Nodup := by
  apply List.Nodup.filterMap _ (by decide)
  intro first second idx isFirst isSecond
  obtain ⟨_, firstCell⟩ := target_eq_some.mp isFirst
  obtain ⟨_, secondCell⟩ := target_eq_some.mp isSecond
  have same := firstCell.symm.trans secondCell
  simp only [Prod.ext_iff] at same ⊢
  omega

def close (nodes : Nodes α) (ci : Nat) : Nodes α :=
  Function.update nodes ci { nodes ci with closed := true }

theorem close_eq (nodes : Nodes α) (ci : Nat) : close nodes ci =
    fun idx => { nodes idx with closed := (nodes idx).closed || decide (idx = ci) } := by
  ext idx
  by_cases here : idx = ci
  · subst here
    simp [close]
  · simp [close, here]

theorem openedTo_eq (nodes : Nodes α) (count : Nat) :
    ∃ opened : Nat → Bool,
      openedTo nodes count = fun idx => { nodes idx with isOpen := opened idx } := by
  refine ⟨fun idx => (openedTo nodes count idx).isOpen, ?_⟩
  ext idx
  simp only [openedTo]
  split
  · exact openNode_eq (nodes idx)
  · rfl

section Blank

variable [AddCommGroup α]

/-- The nodes before the start is entered. -/
theorem blankNodes_apply (inRange : idx < query.size) :
    query.blankNodes idx =
      ⟨(query.cellAt idx).1, (query.cellAt idx).2, ⊤, 0, false, false, 0, 0⟩ := by
  let fill : Nat → MrGridNode α → MrGridNode α := fun idx node =>
    { node with x := (query.cellAt idx).1, y := (query.cellAt idx).2, g := ⊤ }
  have asPlaces : query.blankNodes =
      (List.range query.size).foldl (fun nodes idx =>
        Function.update nodes idx (fill idx (nodes idx)))
        (fun _ => ⟨0, 0, 0, 0, false, false, 0, 0⟩) := by
    rw [blankNodes, size, ← RangeLoop.nested]
    refine List.foldl_ext _ _ _ fun nodes i _ => List.foldl_ext _ _ _ fun nodes j inRow => ?_
    have column : j < query.map.width := List.mem_range.mp inRow
    have width : (i * query.map.width + j) % query.map.width = j := by
      rw [Nat.mul_add_mod', Nat.mod_eq_of_lt column]
    have row : (i * query.map.width + j) / query.map.width = i := by
      rw [Nat.add_comm, Nat.add_mul_div_right _ _ (by omega), Nat.div_eq_of_lt column,
        Nat.zero_add]
    simp only [fill, cellAt, width, row]
  rw [asPlaces]
  exact RangeLoop.update_apply id fill (fun _ _ before _ => Nat.ne_of_lt before) inRange

end Blank

variable [LinearOrder α]

/-- One turn of the scan opens one more node and keeps the lesser priority. -/
theorem scanNode_openedTo (nodes : Nodes α) (best : WithTop α × Option Nat) (count : Nat) :
    scanNode (openedTo nodes count, best) count =
      (openedTo nodes (count + 1),
        FirstMinimum.keepLess (fun idx => (nodes idx).closed = false) (fun idx => (nodes idx).f)
          best count) := by
  have here := openedTo_self nodes count
  have opened : (if !(nodes count).isOpen && !(nodes count).closed then
      Function.update (openedTo nodes count) count { nodes count with isOpen := true }
      else openedTo nodes count) = openedTo nodes (count + 1) := by
    rw [openedTo_succ, openNode]
    split
    · rfl
    · rw [← here, Function.update_eq_self]
  have place : openedTo nodes (count + 1) count = openNode (nodes count) :=
    if_pos (Nat.lt_succ_self count)
  have inPlay : (openNode (nodes count)).isOpen ∧ !(nodes count).closed ∧
      (nodes count).f < best.1 ↔ (nodes count).closed = false ∧ (nodes count).f < best.1 := by
    constructor
    · rintro ⟨_, notClosed, less⟩
      exact ⟨by simpa using notClosed, less⟩
    · rintro ⟨notClosed, less⟩
      exact ⟨isOpen_openNode notClosed, by simpa using notClosed, less⟩
  have closed : (openNode (nodes count)).closed = (nodes count).closed := by rw [openNode_eq]
  have priority : (openNode (nodes count)).f = (nodes count).f := by rw [openNode_eq]
  simp only [scanNode, here, opened, place, closed, priority, FirstMinimum.keepLess]
  by_cases better : (nodes count).closed = false ∧ (nodes count).f < best.1
  · rw [if_pos better, if_pos (inPlay.mpr better)]
  · rw [if_neg better, if_neg (fun both => better (inPlay.mp both))]

/-- The scan opens every node and looks for the first one of least priority that is
not closed. -/
theorem scanNodes_eq (nodes : Nodes α) :
    query.scanNodes nodes =
      (openedTo nodes query.size,
        (List.range query.size).foldl
          (FirstMinimum.keepLess (fun idx => (nodes idx).closed = false) (fun idx => (nodes idx).f))
          (⊤, none)) := by
  rw [scanNodes, RangeLoop.nested]
  change (List.range query.size).foldl scanNode (nodes, ⊤, none) = _
  induction query.size with
  | zero => rfl
  | succ count ih =>
      rw [List.range_succ, List.foldl_append, List.foldl_append, ih]
      exact scanNode_openedTo nodes _ count

/-- The node that the scan picks: not closed, of least priority, and of lesser
priority than every node before it. -/
abbrev IsPick (query : Query α) (nodes : Nodes α) : Nat → Prop :=
  FirstMinimum.IsFirst (fun idx => (nodes idx).closed = false) (fun idx => (nodes idx).f)
    query.size

/-- While a node of finite priority is not closed, the scan picks a node. -/
theorem exists_isPick {nodes : Nodes α} (inRange : idx < query.size)
    (notClosed : (nodes idx).closed = false) (finite : (nodes idx).f ≠ ⊤) :
    ∃ best ci, query.scanNodes nodes = (openedTo nodes query.size, best, some ci) ∧
      query.IsPick nodes ci := by
  have scanned := FirstMinimum.scanned (fun idx => (nodes idx).closed = false)
    (fun idx => (nodes idx).f) (⊤ : WithTop α) query.size
  rw [scanNodes_eq]
  generalize List.foldl _ ((⊤ : WithTop α), none) _ = best at scanned ⊢
  obtain ⟨least, found⟩ := best
  cases found with
  | none => exact absurd (top_le_iff.mp (scanned.none_le rfl idx inRange notClosed)) finite
  | some ci => exact ⟨least, ci, rfl, scanned.some_first ci rfl⟩

variable [AddCommGroup α]

/-- The cost of a cell over the expanded one. -/
def tentG (query : Query α) (cell : Int × Int) (node : MrGridNode α) (idx : Nat) : WithTop α :=
  node.g + query.costFn cell.1 cell.2 (query.cellAt idx).1 (query.cellAt idx).2 query.map

def rewriteNode (query : Query α) (cell : Int × Int) (node : MrGridNode α) (idx : Nat)
    (next : MrGridNode α) : MrGridNode α :=
  { next with
    g := query.tentG cell node idx
    f := query.tentG cell node idx + query.estimate (query.cellAt idx).1 (query.cellAt idx).2
    parentX := cell.1
    parentY := cell.2 }

/-- What the loop over the directions does to a neighbour of a node. -/
def relaxNode (query : Query α) (cell : Int × Int) (node : MrGridNode α) (idx : Nat)
    (next : MrGridNode α) : MrGridNode α :=
  if next.closed ∨ 200 < mrGridMapGetCell query.map (query.cellAt idx).1 (query.cellAt idx).2 ∨
      next.g ≤ query.tentG cell node idx then next
  else query.rewriteNode cell node idx next

theorem relax_eq {nodes : Nodes α} {cell dir : Int × Int} :
    query.relax ci cell.1 cell.2 nodes dir =
      match query.target cell dir with
      | none => nodes
      | some nidx =>
          Function.update nodes nidx (query.relaxNode cell (nodes ci) nidx (nodes nidx)) := by
  by_cases outside : cell.1 + dir.1 < 0 ∨ query.map.width ≤ cell.1 + dir.1 ∨
      cell.2 + dir.2 < 0 ∨ query.map.height ≤ cell.2 + dir.2
  · simp only [relax, target, if_pos outside]
  · have inside : query.Inside (cell.1 + dir.1, cell.2 + dir.2) := by
      unfold Inside
      omega
    have same := cellAt_index inside
    simp only [relax, target, if_neg outside, relaxNode, rewriteNode, tentG, same]
    split
    · rename_i closed
      rw [if_pos (.inl closed), Function.update_eq_self]
    · rename_i notClosed
      split
      · rename_i blocked
        rw [if_pos (.inr (.inl blocked)), Function.update_eq_self]
      · rename_i notBlocked
        split
        · rename_i better
          rw [if_neg]
          rintro (closed | blocked | notBetter)
          · exact notClosed closed
          · exact notBlocked blocked
          · exact absurd better (not_lt.mpr notBetter)
        · rename_i notBetter
          rw [if_pos (.inr (.inr (not_lt.mp notBetter))), Function.update_eq_self]

/-- The loop over the directions rewrites the neighbours of a node and no other. -/
theorem expand_apply {nodes : Nodes α} (ciLt : ci < query.size) (inRange : idx < query.size) :
    dirs.foldl (query.relax ci (query.cellAt ci).1 (query.cellAt ci).2) nodes idx =
      if Neighbours (query.cellAt ci) (query.cellAt idx) then
        query.relaxNode (query.cellAt ci) (nodes ci) idx (nodes idx)
      else nodes idx := by
  have asTargets : dirs.foldl (query.relax ci (query.cellAt ci).1 (query.cellAt ci).2) nodes =
      (query.targets (query.cellAt ci)).foldl (fun nodes nidx =>
        Function.update nodes nidx
          (query.relaxNode (query.cellAt ci) (nodes ci) nidx (nodes nidx))) nodes := by
    rw [targets, List.foldl_filterMap]
    apply List.foldl_ext _ _ _
    intro nodes dir _
    rw [relax_eq]
    cases query.target (query.cellAt ci) dir <;> rfl
  have notItself : ci ∉ query.targets (query.cellAt ci) :=
    fun inTargets => ((mem_targets ciLt).mp inTargets).1 rfl
  rw [asTargets,
    RangeLoop.targets_apply (query.relaxNode (query.cellAt ci)) targets_nodup notItself]
  simp only [mem_targets inRange]

end Query

end Robotics

end MiniIotRobotEdge

import Mathlib.Algebra.Order.Monoid.WithTop
import Mathlib.Data.Finset.Card
import Mathlib.Data.Finset.Range
import MiniIotRobotEdge.RoboticsAstarSteps

/-!
# What the path search finds

Nodes that the search has not reached have priority zero and are open, so they are
closed in the order of their places.  The start takes its turn among them only when
its estimate is zero, and then it reaches the free neighbours that come after it;
every other node keeps the parent that `calloc` left.
-/

namespace MiniIotRobotEdge

namespace Robotics

variable {α : Type*} [AddCommGroup α] [LinearOrder α]

namespace Query

def startIdx (query : Query α) : Nat := query.index query.sx query.sy

def goalIdx (query : Query α) : Nat := query.index query.gx query.gy

/-- A free neighbour of the start that the scan meets after it. -/
def Ahead (query : Query α) (idx : Nat) : Prop :=
  query.startIdx < idx ∧ FreeStep query.map query.start (query.cellAt idx)

/-- The node is as it was before the search. -/
def Untouched (nodes : Nodes α) (idx : Nat) : Prop :=
  (nodes idx).g = ⊤ ∧ (nodes idx).f = 0 ∧ (nodes idx).parentX = 0 ∧ (nodes idx).parentY = 0

/-- The parent of a node is a closed neighbour that costs less. -/
def HasParent (query : Query α) (nodes : Nodes α) (idx : Nat) : Prop :=
  ∃ parent < query.size, ((nodes idx).parentX, (nodes idx).parentY) = query.cellAt parent ∧
    (nodes parent).closed = true ∧ Neighbours (query.cellAt parent) (query.cellAt idx) ∧
    (nodes parent).g < (nodes idx).g

/-- A node that the search has reached. -/
def Reached (query : Query α) (nodes : Nodes α) (idx : Nat) : Prop :=
  query.Ahead idx ∧ 0 < (nodes idx).g ∧ 0 < (nodes idx).f ∧ (nodes idx).f ≠ ⊤ ∧
    query.HasParent nodes idx

/-- The invariant of the main loop. -/
structure Explored (query : Query α) (nodes : Nodes α) : Prop where
  cells : ∀ idx < query.size, ((nodes idx).x, (nodes idx).y) = query.cellAt idx
  startG : (nodes query.startIdx).g = 0
  startF : (nodes query.startIdx).f = query.estimate query.sx query.sy
  started : (nodes query.startIdx).closed = true →
    query.estimate query.sx query.sy = 0 ∧ ∀ idx < query.startIdx, (nodes idx).closed = true
  unstarted : (nodes query.startIdx).closed = false → query.estimate query.sx query.sy = 0 →
    ∀ idx < query.size, (nodes idx).closed = true → idx < query.startIdx
  others : ∀ idx < query.size, idx ≠ query.startIdx →
    Untouched nodes idx ∨ (nodes query.startIdx).closed = true ∧ query.Reached nodes idx

/-- Once the start is closed, the free neighbours after it have been reached. -/
def AllReached (query : Query α) (nodes : Nodes α) : Prop :=
  (nodes query.startIdx).closed = true → ∀ idx < query.size, query.Ahead idx → (nodes idx).g ≠ ⊤

variable {query : Query α} {nodes : Nodes α} {idx ci : Nat}

theorem Explored.opened (explored : query.Explored nodes) (count : Nat) :
    query.Explored (openedTo nodes count) := by
  obtain ⟨opened, isOpened⟩ := openedTo_eq nodes count
  rw [isOpened]
  exact ⟨explored.cells, explored.startG, explored.startF, explored.started,
    explored.unstarted, explored.others⟩

theorem Explored.untouched (explored : query.Explored nodes) (inRange : idx < query.size)
    (notStart : idx ≠ query.startIdx) (unstarted : (nodes query.startIdx).closed = false) :
    Untouched nodes idx := by
  rcases explored.others idx inRange notStart with untouched | ⟨started, _⟩
  · exact untouched
  · rw [unstarted] at started
    cases started

omit [AddCommGroup α] in
theorem HasParent.close (hasParent : query.HasParent nodes idx) (ci : Nat) :
    query.HasParent (close nodes ci) idx := by
  obtain ⟨parent, inRange, isParent, closed, neighbours, less⟩ := hasParent
  rw [close_eq]
  refine ⟨parent, inRange, isParent, ?_, neighbours, less⟩
  simp only [closed, Bool.true_or]

/-- Closing the node that the scan picks keeps the invariant. -/
theorem Explored.close (explored : query.Explored nodes) (pick : query.IsPick nodes ci)
    (atStart : ci = query.startIdx → query.estimate query.sx query.sy = 0) :
    query.Explored (close nodes ci) := by
  have startInPlay : (nodes query.startIdx).closed = false →
      query.estimate query.sx query.sy = 0 → ci ≠ query.startIdx → ci < query.startIdx := by
    intro unstarted estimateZero notStart
    have untouched := explored.untouched pick.inRange notStart unstarted
    by_contra notBefore
    have less := pick.first (show query.startIdx < ci by omega) unstarted
    rw [explored.startF, estimateZero, untouched.2.1] at less
    exact lt_irrefl _ less
  rw [close_eq]
  refine ⟨explored.cells, explored.startG, explored.startF, ?_, ?_, ?_⟩
  · intro closed
    simp only [Bool.or_eq_true, decide_eq_true_eq] at closed ⊢
    by_cases started : (nodes query.startIdx).closed = true
    · obtain ⟨estimateZero, before⟩ := explored.started started
      exact ⟨estimateZero, fun idx less => .inl (before idx less)⟩
    · obtain rfl := closed.resolve_left started
      refine ⟨atStart rfl, fun idx less => .inl ?_⟩
      by_contra notClosed
      have inPlay : (nodes idx).closed = false := by simpa using notClosed
      have untouched := explored.untouched (less.trans pick.inRange) (by omega)
        (by simpa using started)
      have greater := pick.first less inPlay
      rw [explored.startF, atStart rfl, untouched.2.1] at greater
      exact lt_irrefl _ greater
  · intro notClosed estimateZero idx inRange closed
    simp only [Bool.or_eq_false_iff, decide_eq_false_iff_not] at notClosed
    simp only [Bool.or_eq_true, decide_eq_true_eq] at closed
    rcases closed with closed | rfl
    · exact explored.unstarted notClosed.1 estimateZero idx inRange closed
    · exact startInPlay notClosed.1 estimateZero (Ne.symm notClosed.2)
  · intro idx inRange notStart
    rcases explored.others idx inRange notStart with untouched | ⟨started, reached⟩
    · exact .inl untouched
    · right
      obtain ⟨ahead, gPos, fPos, finite, hasParent⟩ := reached
      refine ⟨?_, ahead, gPos, fPos, finite, ?_⟩
      · simp only [started, Bool.true_or]
      · rw [← close_eq]
        exact hasParent.close ci

/-- The nodes after the loop over the directions. -/
def expand (query : Query α) (nodes : Nodes α) (ci : Nat) : Nodes α :=
  dirs.foldl (query.relax ci (query.cellAt ci).1 (query.cellAt ci).2) nodes

/-- A node is left as it was, or it is a free neighbour that is not closed and gets
a lesser cost and a new parent. -/
theorem expand_cases (nodes : Nodes α) (ciLt : ci < query.size) (inRange : idx < query.size) :
    query.expand nodes ci idx = nodes idx ∨
      (nodes idx).closed = false ∧ FreeStep query.map (query.cellAt ci) (query.cellAt idx) ∧
        query.tentG (query.cellAt ci) (nodes ci) idx < (nodes idx).g ∧
        query.expand nodes ci idx =
          query.rewriteNode (query.cellAt ci) (nodes ci) idx (nodes idx) := by
  rw [expand, expand_apply ciLt inRange]
  split
  · rename_i neighbours
    unfold relaxNode
    split
    · exact .inl rfl
    · rename_i passes
      simp only [not_or, UInt8.not_lt, not_le, Bool.not_eq_true] at passes
      exact .inr ⟨passes.1, ⟨neighbours, passes.2.1⟩, passes.2.2, rfl⟩
  · exact .inl rfl

/-- The cost of a free neighbour that is not closed does not exceed the one over the
expanded node. -/
theorem expand_g_le (ciLt : ci < query.size) (inRange : idx < query.size)
    (notClosed : (nodes idx).closed = false)
    (free : FreeStep query.map (query.cellAt ci) (query.cellAt idx)) :
    (query.expand nodes ci idx).g ≤ query.tentG (query.cellAt ci) (nodes ci) idx := by
  rw [expand, expand_apply ciLt inRange, if_pos free.1]
  unfold relaxNode
  split
  · rename_i stays
    rcases stays with closed | blocked | better
    · rw [notClosed] at closed
      cases closed
    · exact absurd free.2 (UInt8.not_le.mpr blocked)
    · exact better
  · exact le_rfl

theorem expand_closed (ciLt : ci < query.size) (inRange : idx < query.size) :
    (query.expand nodes ci idx).closed = (nodes idx).closed := by
  rcases expand_cases nodes ciLt inRange with same | ⟨_, _, _, same⟩
  · rw [same]
  · rw [same, rewriteNode]

theorem expand_of_closed (ciLt : ci < query.size) (inRange : idx < query.size)
    (closed : (nodes idx).closed = true) : query.expand nodes ci idx = nodes idx := by
  rcases expand_cases nodes ciLt inRange with same | ⟨notClosed, _⟩
  · exact same
  · rw [closed] at notClosed
    cases notClosed

/-- Expanding a node that has not been reached changes nothing. -/
theorem expand_of_top (ciLt : ci < query.size) (top : (nodes ci).g = ⊤)
    (inRange : idx < query.size) : query.expand nodes ci idx = nodes idx := by
  rcases expand_cases nodes ciLt inRange with same | ⟨_, _, less, _⟩
  · exact same
  · rw [tentG, top, WithTop.top_add] at less
    exact absurd less not_top_lt

/-- A parent stays the parent, since closed nodes are not rewritten. -/
theorem HasParent.expand (hasParent : query.HasParent nodes idx) (ciLt : ci < query.size)
    (same : query.expand nodes ci idx = nodes idx) :
    query.HasParent (query.expand nodes ci) idx := by
  obtain ⟨parent, parentLt, isParent, closed, neighbours, less⟩ := hasParent
  have kept := expand_of_closed ciLt parentLt closed
  refine ⟨parent, parentLt, ?_, ?_, neighbours, ?_⟩
  · rw [same, isParent]
  · rw [kept, closed]
  · rw [kept, same]
    exact less

/-- The invariant is about the nodes of the map only. -/
theorem Explored.congr {other : Nodes α} (explored : query.Explored nodes)
    (startLt : query.startIdx < query.size) (same : ∀ idx < query.size, other idx = nodes idx) :
    query.Explored other := by
  have sameStart := same query.startIdx startLt
  refine ⟨?_, ?_, ?_, ?_, ?_, ?_⟩
  · intro idx inRange
    rw [same idx inRange]
    exact explored.cells idx inRange
  · rw [sameStart, explored.startG]
  · rw [sameStart, explored.startF]
  · intro started
    rw [sameStart] at started
    obtain ⟨estimateZero, before⟩ := explored.started started
    refine ⟨estimateZero, fun idx less => ?_⟩
    rw [same idx (less.trans startLt)]
    exact before idx less
  · intro unstarted estimateZero idx inRange closed
    rw [sameStart] at unstarted
    rw [same idx inRange] at closed
    exact explored.unstarted unstarted estimateZero idx inRange closed
  · intro idx inRange notStart
    rw [sameStart]
    unfold Untouched Reached HasParent
    rw [same idx inRange]
    rcases explored.others idx inRange notStart with untouched | ⟨started, reached⟩
    · exact .inl untouched
    · obtain ⟨ahead, gPos, fPos, finite, parent, parentLt, isParent, closed, neighbours, less⟩ :=
        reached
      refine .inr ⟨started, ahead, gPos, fPos, finite, parent, parentLt, isParent, ?_,
        neighbours, ?_⟩
      · rw [same parent parentLt, closed]
      · rw [same parent parentLt]
        exact less

theorem inside_start (posed : query.WellPosed) : query.Inside query.start :=
  ⟨posed.startX, posed.startY⟩

theorem inside_goal (posed : query.WellPosed) : query.Inside query.goal :=
  ⟨posed.goalX, posed.goalY⟩

theorem startIdx_lt (posed : query.WellPosed) : query.startIdx < query.size :=
  index_lt (inside_start posed)

theorem goalIdx_lt (posed : query.WellPosed) : query.goalIdx < query.size :=
  index_lt (inside_goal posed)

theorem cellAt_startIdx (posed : query.WellPosed) : query.cellAt query.startIdx = query.start :=
  cellAt_index (inside_start posed)

theorem cellAt_goalIdx (posed : query.WellPosed) : query.cellAt query.goalIdx = query.goal :=
  cellAt_index (inside_goal posed)

theorem lt_tentG [IsOrderedAddMonoid α] (posed : query.WellPosed) (finite : (nodes ci).g ≠ ⊤)
    (idx : Nat) :
    (nodes ci).g < query.tentG (query.cellAt ci) (nodes ci) idx := by
  obtain ⟨value, isValue⟩ := WithTop.ne_top_iff_exists.mp finite
  rw [tentG, ← isValue]
  exact_mod_cast lt_add_of_pos_right value (posed.costPos _ _ _ _)

/-- The closed node becomes the parent of a neighbour that it rewrites. -/
theorem hasParent_of_rewrite [IsOrderedAddMonoid α] (posed : query.WellPosed)
    (ciLt : ci < query.size)
    (ciClosed : (nodes ci).closed = true) (finite : (nodes ci).g ≠ ⊤)
    (neighbours : Neighbours (query.cellAt ci) (query.cellAt idx))
    (rewritten : query.expand nodes ci idx =
      query.rewriteNode (query.cellAt ci) (nodes ci) idx (nodes idx)) :
    query.HasParent (query.expand nodes ci) idx := by
  refine ⟨ci, ciLt, ?_, ?_, neighbours, ?_⟩
  · rw [rewritten, rewriteNode]
  · rw [expand_closed ciLt ciLt, ciClosed]
  · rw [expand_of_closed ciLt ciLt ciClosed, rewritten, rewriteNode]
    exact lt_tentG posed finite idx

/-- Expanding a closed node keeps the invariant, if the neighbours that it can rewrite
come after the start. -/
theorem Explored.expand [IsOrderedAddMonoid α] (explored : query.Explored nodes)
    (posed : query.WellPosed)
    (ciLt : ci < query.size) (startLt : query.startIdx < query.size)
    (ciClosed : (nodes ci).closed = true) (started : (nodes query.startIdx).closed = true)
    (costNonneg : 0 ≤ (nodes ci).g) (finite : (nodes ci).g ≠ ⊤)
    (ahead : ∀ idx < query.size, (nodes idx).closed = false →
      FreeStep query.map (query.cellAt ci) (query.cellAt idx) → query.Ahead idx) :
    query.Explored (query.expand nodes ci) := by
  have startKept := expand_of_closed ciLt startLt started
  refine ⟨?_, ?_, ?_, ?_, ?_, ?_⟩
  · intro idx inRange
    rcases expand_cases nodes ciLt inRange with same | ⟨_, _, _, same⟩
    · rw [same]
      exact explored.cells idx inRange
    · rw [same, rewriteNode]
      exact explored.cells idx inRange
  · rw [startKept, explored.startG]
  · rw [startKept, explored.startF]
  · intro _
    obtain ⟨estimateZero, before⟩ := explored.started started
    refine ⟨estimateZero, fun idx less => ?_⟩
    rw [expand_closed ciLt (less.trans startLt)]
    exact before idx less
  · intro notStarted
    rw [startKept, started] at notStarted
    cases notStarted
  · intro idx inRange notStart
    rw [startKept]
    rcases expand_cases nodes ciLt inRange with same | ⟨notClosed, free, less, same⟩
    · rcases explored.others idx inRange notStart with untouched | ⟨_, reached⟩
      · left
        unfold Untouched
        rw [same]
        exact untouched
      · right
        obtain ⟨isAhead, gPos, fPos, fFinite, hasParent⟩ := reached
        refine ⟨started, isAhead, ?_, ?_, ?_, hasParent.expand ciLt same⟩
        · rw [same]
          exact gPos
        · rw [same]
          exact fPos
        · rw [same]
          exact fFinite
    · right
      have hasParent := hasParent_of_rewrite posed ciLt ciClosed finite free.1 same
      have costPos : 0 < query.tentG (query.cellAt ci) (nodes ci) idx :=
        costNonneg.trans_lt (lt_tentG posed finite idx)
      have estimateNonneg : (0 : WithTop α) ≤
          query.estimate (query.cellAt idx).1 (query.cellAt idx).2 :=
        WithTop.coe_nonneg.mpr (posed.heuristicNonneg _ _)
      refine ⟨started, ahead idx inRange notClosed free, ?_, ?_, ?_, hasParent⟩
      · rw [same]
        exact costPos
      · rw [same]
        exact add_pos_of_pos_of_nonneg costPos estimateNonneg
      · rw [same]
        exact WithTop.add_ne_top.mpr ⟨ne_top_of_lt less, WithTop.coe_ne_top⟩

/-- The start is picked only when its estimate is zero, or when it is the goal. -/
theorem Explored.estimate_zero (posed : query.WellPosed) (explored : query.Explored nodes)
    (pick : query.IsPick nodes query.startIdx) (notGoal : query.goalIdx ≠ query.startIdx)
    (goalOpen : (nodes query.goalIdx).closed = false) :
    query.estimate query.sx query.sy = 0 := by
  have untouched := explored.untouched (goalIdx_lt posed) notGoal pick.inPlay
  have least := pick.least (goalIdx_lt posed) goalOpen
  rw [explored.startF, untouched.2.1] at least
  exact le_antisymm (WithTop.coe_le_coe.mp least) (posed.heuristicNonneg _ _)

/-- The neighbours that the expansion of a picked node can rewrite come after the
start. -/
theorem Explored.ahead (posed : query.WellPosed) (explored : query.Explored nodes)
    (pick : query.IsPick nodes ci)
    (atStart : ci = query.startIdx → query.estimate query.sx query.sy = 0)
    (finite : (nodes ci).g ≠ ⊤) (inRange : idx < query.size)
    (notClosed : (Query.close nodes ci idx).closed = false)
    (free : FreeStep query.map (query.cellAt ci) (query.cellAt idx)) : query.Ahead idx := by
  have afterClose := explored.close pick atStart
  have inPlay : (nodes idx).closed = false ∧ idx ≠ ci := by
    rw [close_eq] at notClosed
    simpa using notClosed
  by_cases isStart : ci = query.startIdx
  · subst isStart
    have started : (Query.close nodes query.startIdx query.startIdx).closed = true := by
      simp [close_eq]
    have after : query.startIdx < idx := by
      by_contra notAfter
      have before := (afterClose.started started).2 idx (by omega)
      rw [notClosed] at before
      cases before
    rw [cellAt_startIdx posed] at free
    exact ⟨after, free⟩
  · rcases explored.others ci pick.inRange isStart with untouched | ⟨started, reached⟩
    · exact absurd untouched.1 finite
    · have notStart : idx ≠ query.startIdx := by
        rintro rfl
        rw [started] at inPlay
        cases inPlay.1
      rcases explored.others idx inRange notStart with untouched | ⟨_, isReached⟩
      · have least := pick.least inRange inPlay.1
        rw [untouched.2.1] at least
        exact absurd reached.2.2.1 (not_lt.mpr least)
      · exact isReached.1

/-- One turn of the main loop that does not reach the goal keeps the invariant. -/
theorem Explored.turn [IsOrderedAddMonoid α] (posed : query.WellPosed)
    (explored : query.Explored nodes) (pick : query.IsPick nodes ci)
    (atStart : ci = query.startIdx → query.estimate query.sx query.sy = 0) :
    query.Explored (query.expand (Query.close nodes ci) ci) := by
  have afterClose := explored.close pick atStart
  have sameG : (Query.close nodes ci ci).g = (nodes ci).g := by rw [close_eq]
  by_cases top : (nodes ci).g = ⊤
  · exact afterClose.congr (startIdx_lt posed) fun idx inRange =>
      expand_of_top pick.inRange (sameG.trans top) inRange
  · have ciClosed : (Query.close nodes ci ci).closed = true := by simp [close_eq]
    have started : (Query.close nodes ci query.startIdx).closed = true ∧ 0 ≤ (nodes ci).g := by
      by_cases isStart : ci = query.startIdx
      · subst isStart
        exact ⟨ciClosed, explored.startG.ge⟩
      · rcases explored.others ci pick.inRange isStart with untouched | ⟨started, reached⟩
        · exact absurd untouched.1 top
        · refine ⟨?_, reached.2.1.le⟩
          rw [close_eq]
          simp only [started, Bool.true_or]
    apply afterClose.expand posed pick.inRange (startIdx_lt posed) ciClosed started.1
    · rw [sameG]
      exact started.2
    · rw [sameG]
      exact top
    · intro idx inRange notClosed free
      exact explored.ahead posed pick atStart top inRange notClosed free

/-- The turn of the start reaches the free neighbours after it, and no turn takes a
reached node back. -/
theorem Explored.turn_allReached (posed : query.WellPosed) (explored : query.Explored nodes)
    (allReached : query.AllReached nodes) (pick : query.IsPick nodes ci)
    (atStart : ci = query.startIdx → query.estimate query.sx query.sy = 0) :
    query.AllReached (query.expand (Query.close nodes ci) ci) := by
  intro started idx inRange ahead
  rw [expand_closed pick.inRange (startIdx_lt posed)] at started
  by_cases isStart : ci = query.startIdx
  · subst isStart
    have notClosed : (Query.close nodes query.startIdx idx).closed = false := by
      have notEarlier : (nodes idx).closed = false := by
        by_contra closed
        have before := explored.unstarted pick.inPlay (atStart rfl) idx inRange
          (by simpa using closed)
        exact absurd ahead.1 (by omega)
      have notStart : idx ≠ query.startIdx := ahead.1.ne'
      simp [close_eq, notEarlier, notStart]
    have bounded := expand_g_le pick.inRange inRange notClosed
      (show FreeStep query.map (query.cellAt query.startIdx) (query.cellAt idx) from
        (cellAt_startIdx posed).symm ▸ ahead.2)
    have zero : (Query.close nodes query.startIdx query.startIdx).g = 0 := by
      rw [close_eq]
      exact explored.startG
    apply ne_top_of_le_ne_top _ bounded
    rw [tentG, zero]
    exact WithTop.add_ne_top.mpr ⟨WithTop.zero_ne_top, WithTop.coe_ne_top⟩
  · have startedBefore : (nodes query.startIdx).closed = true := by
      rw [close_eq] at started
      simpa [Ne.symm isStart] using started
    have finite : (Query.close nodes ci idx).g ≠ ⊤ := by
      rw [close_eq]
      exact allReached startedBefore idx inRange ahead
    rcases expand_cases (Query.close nodes ci) pick.inRange inRange with
      same | ⟨_, _, less, same⟩
    · rw [same]
      exact finite
    · rw [same, rewriteNode]
      exact ne_top_of_lt less

/-- How many nodes are closed. -/
def closedCount (query : Query α) (nodes : Nodes α) : Nat :=
  ((Finset.range query.size).filter fun idx => (nodes idx).closed = true).card

theorem closedCount_turn (inRange : ci < query.size) (inPlay : (nodes ci).closed = false) :
    query.closedCount (query.expand (Query.close nodes ci) ci) = query.closedCount nodes + 1 := by
  have same : (Finset.range query.size).filter (fun idx =>
      (query.expand (Query.close nodes ci) ci idx).closed = true) =
      insert ci ((Finset.range query.size).filter fun idx => (nodes idx).closed = true) := by
    ext idx
    simp only [Finset.mem_filter, Finset.mem_range, Finset.mem_insert]
    by_cases idxLt : idx < query.size
    · rw [expand_closed inRange idxLt, close_eq]
      by_cases here : idx = ci
      · simp [here, inRange]
      · simp [here]
    · have notHere : idx ≠ ci := by omega
      simp [idxLt, notHere]
  rw [closedCount, same, Finset.card_insert_of_notMem]
  · rfl
  · simp [inPlay]

omit [AddCommGroup α] [LinearOrder α] in
theorem closedCount_lt (inRange : idx < query.size) (inPlay : (nodes idx).closed = false) :
    query.closedCount nodes < query.size := by
  have fewer : (Finset.range query.size).filter (fun idx => (nodes idx).closed = true) ⊂
      Finset.range query.size := by
    refine Finset.filter_ssubset.mpr ⟨idx, Finset.mem_range.mpr inRange, ?_⟩
    simp [inPlay]
  simpa [closedCount] using Finset.card_lt_card fewer

/-- What the main loop leaves when it finds a goal other than the start. -/
structure Final (query : Query α) (nodes : Nodes α) : Prop extends query.Explored nodes where
  allReached : query.AllReached nodes
  goalClosed : (nodes query.goalIdx).closed = true

theorem Explored.f_ne_top (explored : query.Explored nodes) (inRange : idx < query.size) :
    (nodes idx).f ≠ ⊤ := by
  by_cases isStart : idx = query.startIdx
  · rw [isStart, explored.startF]
    exact WithTop.coe_ne_top
  · rcases explored.others idx inRange isStart with untouched | ⟨_, reached⟩
    · rw [untouched.2.1]
      exact WithTop.zero_ne_top
    · exact reached.2.2.2.1

/-- The scan picks a node and leaves everything but the open flags. -/
theorem exists_scanned (explored : query.Explored nodes) (allReached : query.AllReached nodes)
    (goalLt : query.goalIdx < query.size) (goalOpen : (nodes query.goalIdx).closed = false) :
    ∃ scanned best ci, query.scanNodes nodes = (scanned, best, some ci) ∧
      query.IsPick scanned ci ∧ query.Explored scanned ∧ query.AllReached scanned ∧
      (scanned query.goalIdx).closed = false ∧
      query.closedCount scanned = query.closedCount nodes := by
  obtain ⟨best, ci, scans, pick⟩ := exists_isPick goalLt goalOpen (explored.f_ne_top goalLt)
  have exploredOpened := explored.opened query.size
  obtain ⟨opened, isOpened⟩ := openedTo_eq nodes query.size
  rw [isOpened] at scans exploredOpened
  exact ⟨_, best, ci, scans, pick, exploredOpened, allReached, goalOpen, rfl⟩

theorem cell_close (explored : query.Explored nodes) (inRange : ci < query.size) :
    ((Query.close nodes ci ci).x, (Query.close nodes ci ci).y) = query.cellAt ci := by
  rw [close_eq]
  exact explored.cells ci inRange

/-- The test of the coordinates finds the node of the goal and no other. -/
theorem close_at_goal_iff (posed : query.WellPosed) (explored : query.Explored nodes)
    (inRange : ci < query.size) :
    (Query.close nodes ci ci).x = query.gx ∧ (Query.close nodes ci ci).y = query.gy ↔
      ci = query.goalIdx := by
  have isGoal : query.cellAt ci = query.goal ↔ ci = query.goalIdx := by
    rw [← cellAt_goalIdx posed]
    exact ⟨cellAt_inj, fun same => same ▸ rfl⟩
  rw [← isGoal, ← cell_close explored inRange, goal, Prod.mk.injEq]

/-- The main loop closes a node in every turn, so it comes to the goal. -/
theorem searchLoop_final [IsOrderedAddMonoid α] (posed : query.WellPosed) {iters : Nat}
    (explored : query.Explored nodes) (allReached : query.AllReached nodes)
    (goalOpen : (nodes query.goalIdx).closed = false)
    (budget : query.closedCount nodes + iters = query.size) :
    ∃ final, query.searchLoop iters nodes = (true, final) ∧
      (query.goalIdx ≠ query.startIdx → query.Final final) := by
  have goalLt := goalIdx_lt posed
  induction iters generalizing nodes with
  | zero => exact absurd (closedCount_lt goalLt goalOpen) (by omega)
  | succ iters ih =>
      obtain ⟨scanned, best, ci, scans, pick, exploredScanned, reachedScanned, goalScanned,
        sameCount⟩ := exists_scanned explored allReached goalLt goalOpen
      have cell := cell_close exploredScanned pick.inRange
      have atGoal := close_at_goal_iff posed exploredScanned pick.inRange
      by_cases found : ci = query.goalIdx
      · refine ⟨Query.close scanned ci, ?_, ?_⟩
        · rw [searchLoop, scans]
          exact if_pos (atGoal.mpr found)
        · intro notStart
          have notAtStart : ci ≠ query.startIdx := found ▸ notStart
          refine ⟨exploredScanned.close pick (fun isStart => absurd isStart notAtStart), ?_, ?_⟩
          · intro started
            rw [close_eq] at started ⊢
            apply reachedScanned
            simpa [Ne.symm notAtStart] using started
          · rw [found, close_eq]
            simp
      · have atStart : ci = query.startIdx → query.estimate query.sx query.sy = 0 := by
          rintro rfl
          exact exploredScanned.estimate_zero posed pick (Ne.symm found) goalScanned
        have goalStays :
            (query.expand (Query.close scanned ci) ci query.goalIdx).closed = false := by
          rw [expand_closed pick.inRange goalLt, close_eq]
          simpa [Ne.symm found] using goalScanned
        have budgetLeft : query.closedCount (query.expand (Query.close scanned ci) ci) + iters =
            query.size := by
          rw [closedCount_turn pick.inRange pick.inPlay]
          omega
        obtain ⟨final, ends, isFinal⟩ := ih (exploredScanned.turn posed pick atStart)
          (exploredScanned.turn_allReached posed reachedScanned pick atStart) goalStays budgetLeft
        refine ⟨final, ?_, isFinal⟩
        rw [searchLoop, scans]
        have cellX : (Query.close scanned ci ci).x = (query.cellAt ci).1 := congrArg Prod.fst cell
        have cellY : (Query.close scanned ci ci).y = (query.cellAt ci).2 := congrArg Prod.snd cell
        rw [expand, ← cellX, ← cellY] at ends
        exact (if_neg (fun both => found (atGoal.mp both))).trans ends

end Query

end Robotics

end MiniIotRobotEdge

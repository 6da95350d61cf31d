import Mathlib.Data.List.Chain
import MiniIotRobotEdge.RoboticsAstarSearch

/-!
# The paths of the path search

The walk over the parents ends at the start from a node that the search has
reached.  From every other node it goes to the corner of the map, and there it
stays unless that is the start.
-/

namespace MiniIotRobotEdge

namespace Robotics

variable {α : Type*}

theorem Neighbours.symm {cell other : Int × Int} (neighbours : Neighbours cell other) :
    Neighbours other cell := by
  obtain ⟨different, column, row⟩ := neighbours
  refine ⟨different.symm, ?_, ?_⟩
  · rwa [abs_sub_comm]
  · rwa [abs_sub_comm]

namespace Query

section Walk

variable {query : Query α} {nodes : Nodes α} {cell : Int × Int} {chain : List (Int × Int)}

def parentOf (query : Query α) (nodes : Nodes α) (cell : Int × Int) : Int × Int :=
  ((nodes (query.index cell.1 cell.2)).parentX, (nodes (query.index cell.1 cell.2)).parentY)

/-- The cells that the walk over the parents passes before the start. -/
def Follows (query : Query α) (nodes : Nodes α) : Int × Int → List (Int × Int) → Prop
  | cell, [] => cell = query.start
  | cell, first :: rest =>
      first = cell ∧ cell ≠ query.start ∧ Follows query nodes (query.parentOf nodes cell) rest

theorem pushCell_take (path : List (Int × Int)) (px py : Int) :
    pushCell (path.take mrPathMaxWp) px py = (path ++ [(px, py)]).take mrPathMaxWp := by
  unfold pushCell
  rw [List.length_take]
  split
  · have short : path.length < mrPathMaxWp := by omega
    rw [List.take_of_length_le short.le, List.take_of_length_le]
    rw [List.length_append, List.length_singleton]
    exact short
  · have full : mrPathMaxWp ≤ path.length := by omega
    rw [List.take_append_of_le_length full]

/-- The walk takes one turn for every cell before the start. -/
theorem parentWalk_eq (path : List (Int × Int)) (fuel : Nat)
    (follows : query.Follows nodes cell chain) :
    query.parentWalk nodes fuel cell.1 cell.2 (path.take mrPathMaxWp) =
      if chain.length < fuel then some ((path ++ chain).take mrPathMaxWp) else none := by
  induction chain generalizing path fuel cell with
  | nil =>
      cases fuel with
      | zero => rfl
      | succ fuel =>
          obtain rfl := follows
          rw [parentWalk, if_neg (by simp [start]), List.length_nil, if_pos (Nat.succ_pos fuel),
            List.append_nil]
  | cons first rest ih =>
      obtain ⟨rfl, notStart, follows⟩ := follows
      cases fuel with
      | zero => rfl
      | succ fuel =>
          have goesOn : first.1 ≠ query.sx ∨ first.2 ≠ query.sy := by
            by_contra both
            simp only [not_or, not_not] at both
            exact notStart (Prod.ext both.1 both.2)
          rw [parentWalk, if_pos goesOn, pushCell_take]
          rw [show (path ++ first :: rest) = (path ++ [(first.1, first.2)]) ++ rest by simp,
            List.length_cons]
          simpa only [Nat.succ_lt_succ_iff, parentOf] using
            ih (path ++ [(first.1, first.2)]) fuel follows

/-- Among cells that lead to one another and not to the start the walk never ends. -/
theorem parentWalk_none {caught : Set (Int × Int)} (notStart : query.start ∉ caught)
    (closed : ∀ cell ∈ caught, query.parentOf nodes cell ∈ caught) (fuel : Nat)
    (inCaught : cell ∈ caught) (path : List (Int × Int)) :
    query.parentWalk nodes fuel cell.1 cell.2 path = none := by
  induction fuel generalizing cell path with
  | zero => rfl
  | succ fuel ih =>
      have goesOn : cell.1 ≠ query.sx ∨ cell.2 ≠ query.sy := by
        by_contra both
        simp only [not_or, not_not] at both
        have isStart : cell = query.start := Prod.ext both.1 both.2
        exact notStart (isStart ▸ inCaught)
      rw [parentWalk, if_pos goesOn]
      exact ih (closed cell inCaught) _

theorem Follows.ne_start (follows : query.Follows nodes cell chain) {member : Int × Int}
    (inChain : member ∈ chain) : member ≠ query.start := by
  induction chain generalizing cell with
  | nil => cases inChain
  | cons first rest ih =>
      obtain ⟨rfl, notStart, follows⟩ := follows
      rcases List.mem_cons.mp inChain with rfl | inRest
      · exact notStart
      · exact ih follows inRest

end Walk

variable [AddCommGroup α] [LinearOrder α]

section Search

variable {query : Query α} {nodes : Nodes α} {idx : Nat} {chain : List (Int × Int)}

/-- How many nodes cost less than one node. -/
def rank (query : Query α) (nodes : Nodes α) (idx : Nat) : Nat :=
  ((Finset.range query.size).filter fun other => (nodes other).g < (nodes idx).g).card

omit [AddCommGroup α] in
theorem rank_lt {parent : Nat} (parentLt : parent < query.size)
    (less : (nodes parent).g < (nodes idx).g) : query.rank nodes parent < query.rank nodes idx := by
  apply Finset.card_lt_card
  refine Finset.ssubset_iff_subset_ne.mpr ⟨?_, ?_⟩
  · intro other inFilter
    simp only [Finset.mem_filter] at inFilter ⊢
    exact ⟨inFilter.1, inFilter.2.trans less⟩
  · intro same
    have inFilter : parent ∈ (Finset.range query.size).filter
        fun other => (nodes other).g < (nodes idx).g :=
      Finset.mem_filter.mpr ⟨Finset.mem_range.mpr parentLt, less⟩
    rw [← same] at inFilter
    exact lt_irrefl _ (Finset.mem_filter.mp inFilter).2

omit [AddCommGroup α] [LinearOrder α] in
theorem leadsFrom_start (query : Query α) : query.LeadsFrom query.start [query.start] := by
  refine ⟨rfl, rfl, List.isChain_singleton _, ?_⟩
  intro member isMember notStart
  exact absurd (List.mem_singleton.mp isMember) notStart

/-- From the start and from every reached node the parents lead back to the start. -/
theorem Final.follows (final : query.Final nodes) (posed : query.WellPosed)
    (inRange : idx < query.size) (isReached : idx = query.startIdx ∨ query.Reached nodes idx) :
    ∃ chain, query.Follows nodes (query.cellAt idx) chain ∧
      query.LeadsFrom (query.cellAt idx) (chain ++ [query.start]) := by
  induction rankEq : query.rank nodes idx using Nat.strong_induction_on generalizing idx with
  | _ bound ih =>
      by_cases isStart : idx = query.startIdx
      · rw [isStart, cellAt_startIdx posed]
        exact ⟨[], rfl, leadsFrom_start query⟩
      · obtain ⟨ahead, _, _, _, parent, parentLt, isParent, _, neighbours, less⟩ :=
          isReached.resolve_left isStart
        have parentReached : parent = query.startIdx ∨ query.Reached nodes parent := by
          by_cases parentStart : parent = query.startIdx
          · exact .inl parentStart
          · rcases final.others parent parentLt parentStart with untouched | ⟨_, reached⟩
            · rw [untouched.1] at less
              exact absurd less not_top_lt
            · exact .inr reached
        obtain ⟨chain, follows, leads⟩ :=
          ih _ (rankEq ▸ rank_lt parentLt less) parentLt parentReached rfl
        have isParentOf : query.parentOf nodes (query.cellAt idx) = query.cellAt parent := by
          rw [parentOf, index_cellAt, isParent]
        have notStart : query.cellAt idx ≠ query.start := by
          rw [← cellAt_startIdx posed]
          exact fun same => isStart (cellAt_inj same)
        refine ⟨query.cellAt idx :: chain, ⟨rfl, notStart, ?_⟩, rfl, ?_, ?_, ?_⟩
        · rw [isParentOf]
          exact follows
        · rw [List.cons_append, List.getLast?_cons, leads.last]
          rfl
        · apply List.IsChain.cons leads.neighbours
          intro next isNext
          obtain rfl := Option.some.inj (leads.head.symm.trans isNext)
          exact neighbours.symm
        · intro member isMember memberNot
          rcases List.mem_cons.mp isMember with rfl | inRest
          · exact ahead.2.2
          · exact leads.free member inRest memberNot

omit [AddCommGroup α] [LinearOrder α] in
/-- The cells of such a walk can be reached from the start. -/
theorem LeadsFrom.reachable {cell : Int × Int} {path : List (Int × Int)}
    (leads : query.LeadsFrom cell path) :
    Relation.ReflTransGen (FreeStep query.map) query.start cell := by
  induction path generalizing cell with
  | nil => cases leads.head
  | cons first rest ih =>
      obtain rfl := Option.some.inj leads.head
      by_cases isStart : first = query.start
      · rw [isStart]
      · cases rest with
        | nil => exact absurd (Option.some.inj leads.last) isStart
        | cons second rest =>
            obtain ⟨neighbours, chained⟩ := List.isChain_cons_cons.mp leads.neighbours
            have before : query.LeadsFrom second (second :: rest) := by
              refine ⟨rfl, ?_, chained, ?_⟩
              · rw [← leads.last, List.getLast?_cons_cons]
              · intro member isMember
                exact leads.free member (List.mem_cons_of_mem first isMember)
            exact (ih before).tail ⟨neighbours.symm, leads.free first List.mem_cons_self isStart⟩

/-- The result of a search whose parents lead from the goal to the start. -/
theorem astarCore_of_follows (found : query.searchLoop query.size query.startNodes = (true, nodes))
    (follows : query.Follows nodes query.goal chain) (fuel : Nat) :
    astarCore fuel query =
      if chain.length < fuel then some (true, (chain ++ [query.start]).take mrPathMaxWp)
      else none := by
  have walked := parentWalk_eq [] fuel follows
  rw [List.take_nil, List.nil_append] at walked
  rw [astarCore, found]
  change (query.parentWalk nodes fuel query.goal.1 query.goal.2 []).map _ = _
  rw [walked]
  split
  · rw [Option.map_some, pushCell_take]
    rfl
  · rfl

omit [AddCommGroup α] [LinearOrder α] in
/-- A path that was not cut off ends at the start. -/
theorem take_eq_of_not_cut (follows : query.Follows nodes query.goal chain)
    (notCut : ((chain ++ [query.start]).take mrPathMaxWp).length < mrPathMaxWp ∨
      ((chain ++ [query.start]).take mrPathMaxWp).getLast? = some query.start) :
    (chain ++ [query.start]).take mrPathMaxWp = chain ++ [query.start] := by
  rcases Nat.lt_or_ge chain.length mrPathMaxWp with short | long
  · apply List.take_of_length_le
    rw [List.length_append, List.length_singleton]
    exact short
  · rw [List.take_append_of_le_length long] at notCut
    rcases notCut with short | last
    · rw [List.length_take] at short
      omega
    · exact absurd rfl (follows.ne_start (List.mem_of_mem_take (List.mem_of_getLast? last)))

theorem correct_of_follows (found : query.searchLoop query.size query.startNodes = (true, nodes))
    (follows : query.Follows nodes query.goal chain)
    (leads : query.LeadsFrom query.goal (chain ++ [query.start])) : query.Correct := by
  have result := astarCore_of_follows found follows
  have isResult : ∀ {fuel : Nat} {flag : Bool} {path : List (Int × Int)},
      astarCore fuel query = some (flag, path) →
        flag = true ∧ path = (chain ++ [query.start]).take mrPathMaxWp := by
    intro fuel flag path returned
    rw [result] at returned
    split at returned
    · obtain ⟨rfl, rfl⟩ := Prod.mk.inj (Option.some.inj returned)
      exact ⟨rfl, rfl⟩
    · cases returned
  refine ⟨?_, ?_, ?_⟩
  · exact ⟨chain.length + 1, _, (result _).trans (if_pos (Nat.lt_succ_self _))⟩
  · intro fuel flag path returned
    exact ⟨fun _ => leads.reachable, fun _ => (isResult returned).1⟩
  · intro fuel path returned notCut
    obtain ⟨_, rfl⟩ := isResult returned
    rw [take_eq_of_not_cut follows notCut]
    exact leads

omit [LinearOrder α] in
/-- The nodes when the main loop begins. -/
theorem startNodes_apply (inRange : idx < query.size) :
    query.startNodes idx =
      ⟨(query.cellAt idx).1, (query.cellAt idx).2, if idx = query.startIdx then 0 else ⊤,
        if idx = query.startIdx then query.estimate query.sx query.sy else 0,
        false, false, 0, 0⟩ := by
  unfold startNodes
  change Function.update query.blankNodes query.startIdx _ idx = _
  by_cases isStart : idx = query.startIdx
  · subst isStart
    rw [Function.update_self]
    change ({ query.blankNodes query.startIdx with
      g := 0, f := query.estimate query.sx query.sy } : MrGridNode α) = _
    rw [blankNodes_apply inRange, if_pos rfl, if_pos rfl]
  · rw [Function.update_of_ne isStart, blankNodes_apply inRange, if_neg isStart, if_neg isStart]

/-- The main loop finds every goal. -/
theorem exists_final [IsOrderedAddMonoid α] (posed : query.WellPosed) :
    ∃ final, query.searchLoop query.size query.startNodes = (true, final) ∧
      (query.goalIdx ≠ query.startIdx → query.Final final) := by
  have startLt := startIdx_lt posed
  have notClosed : ∀ idx < query.size, (query.startNodes idx).closed = false := by
    intro idx inRange
    rw [startNodes_apply inRange]
  have explored : query.Explored query.startNodes := by
    refine ⟨?_, ?_, ?_, ?_, ?_, ?_⟩
    · intro idx inRange
      rw [startNodes_apply inRange]
    · rw [startNodes_apply startLt]
      exact if_pos rfl
    · rw [startNodes_apply startLt]
      exact if_pos rfl
    · intro closed
      rw [notClosed _ startLt] at closed
      cases closed
    · intro _ _ idx inRange closed
      rw [notClosed idx inRange] at closed
      cases closed
    · intro idx inRange notStart
      left
      unfold Untouched
      rw [startNodes_apply inRange]
      exact ⟨if_neg notStart, if_neg notStart, rfl, rfl⟩
  have allReached : query.AllReached query.startNodes := by
    intro closed
    rw [notClosed _ startLt] at closed
    cases closed
  have noneClosed : query.closedCount query.startNodes = 0 := by
    rw [closedCount, Finset.card_eq_zero, Finset.filter_eq_empty_iff]
    intro idx isPlace
    rw [notClosed idx (Finset.mem_range.mp isPlace)]
    exact Bool.false_ne_true
  exact searchLoop_final posed explored allReached (notClosed _ (goalIdx_lt posed)) (by omega)

theorem goalIdx_ne (posed : query.WellPosed) (notStart : query.goal ≠ query.start) :
    query.goalIdx ≠ query.startIdx := by
  intro same
  rw [← cellAt_goalIdx posed, ← cellAt_startIdx posed, same] at notStart
  exact notStart rfl

/-- A goal that the search has not reached has the corner of the map as its parent. -/
theorem Final.reached_or_corner (final : query.Final nodes) (posed : query.WellPosed)
    (notStart : query.goalIdx ≠ query.startIdx) :
    (query.estimate query.sx query.sy = 0 ∧ query.Ahead query.goalIdx) ∧
        query.Reached nodes query.goalIdx ∨
      ¬(query.estimate query.sx query.sy = 0 ∧ query.Ahead query.goalIdx) ∧
        query.parentOf nodes query.goal = (0, 0) := by
  have goalLt := goalIdx_lt posed
  rcases final.others _ goalLt notStart with untouched | ⟨started, reached⟩
  · right
    refine ⟨?_, ?_⟩
    · rintro ⟨estimateZero, ahead⟩
      by_cases started : (nodes query.startIdx).closed = true
      · exact final.allReached started _ goalLt ahead untouched.1
      · have before := final.unstarted (by simpa using started) estimateZero _ goalLt
          final.goalClosed
        exact absurd ahead.1 (by omega)
    · exact Prod.ext untouched.2.2.1 untouched.2.2.2
  · exact .inl ⟨⟨(final.started started).1, reached.1⟩, reached⟩

/-- The corner of the map is its own parent, unless it is the start. -/
theorem Final.corner (final : query.Final nodes) (posed : query.WellPosed)
    (notCorner : query.start ≠ (0, 0)) : query.parentOf nodes (0, 0) = (0, 0) := by
  have corner : query.cellAt 0 = (0, 0) := by
    simp only [cellAt, Nat.zero_mod, Nat.zero_div, Nat.cast_zero]
  have notStart : 0 ≠ query.startIdx := by
    intro same
    rw [← cellAt_startIdx posed, ← same, corner] at notCorner
    exact notCorner rfl
  have zeroLt : 0 < query.size := (Nat.zero_le _).trans_lt (startIdx_lt posed)
  have place : query.index 0 0 = 0 := by
    simp only [index, Int.zero_mul, Int.add_zero, Int.toNat_zero]
  rcases final.others 0 zeroLt notStart with untouched | ⟨_, reached⟩
  · rw [parentOf, place]
    exact Prod.ext untouched.2.2.1 untouched.2.2.2
  · exact absurd reached.1.1 (Nat.not_lt_zero _)

/-- A goal that the search has not reached sends the walk to the corner, and from there
it comes to the start only when that is the corner. -/
theorem astarCore_none [IsOrderedAddMonoid α] (posed : query.WellPosed)
    (atStart : query.goal ≠ query.start) (notCorner : query.start ≠ (0, 0))
    (notAhead : ¬(query.estimate query.sx query.sy = 0 ∧ query.Ahead query.goalIdx))
    (fuel : Nat) : astarCore fuel query = none := by
  obtain ⟨nodes, found, isFinal⟩ := exists_final posed
  have final := isFinal (goalIdx_ne posed atStart)
  have corner : query.parentOf nodes query.goal = (0, 0) := by
    rcases final.reached_or_corner posed (goalIdx_ne posed atStart) with ⟨ahead, _⟩ | ⟨_, corner⟩
    · exact absurd ahead notAhead
    · exact corner
  let caught : Set (Int × Int) := {query.goal, (0, 0)}
  have startNot : query.start ∉ caught := by
    rintro (same | same)
    · exact atStart same.symm
    · exact notCorner same
  have closed : ∀ cell ∈ caught, query.parentOf nodes cell ∈ caught := by
    rintro cell (rfl | rfl)
    · exact .inr corner
    · exact .inr (final.corner posed notCorner)
  have endless := parentWalk_none startNot closed fuel (.inl rfl : query.goal ∈ caught) []
  rw [astarCore, found]
  change (query.parentWalk nodes fuel query.goal.1 query.goal.2 []).map _ = none
  rw [endless]
  rfl

/-- The search is right when the goal is the start, and for a free neighbour of the
start when that is the corner of the map or its estimate is zero and the goal comes
after it.  For every other goal it reports a path that does not exist or never
returns. -/
theorem astarCore_correct_iff [IsOrderedAddMonoid α] (posed : query.WellPosed) :
    query.Correct ↔ query.goal = query.start ∨
      FreeStep query.map query.start query.goal ∧ (query.start = (0, 0) ∨
        query.estimate query.sx query.sy = 0 ∧ query.startIdx < query.goalIdx) := by
  obtain ⟨nodes, found, isFinal⟩ := exists_final posed
  by_cases atStart : query.goal = query.start
  · apply iff_of_true _ (.inl atStart)
    have follows : query.Follows nodes query.goal [] := atStart
    have leads : query.LeadsFrom query.goal [query.start] := by
      rw [atStart]
      exact leadsFrom_start query
    exact correct_of_follows found follows leads
  have notStart := goalIdx_ne posed atStart
  have final := isFinal notStart
  have isAhead : query.Ahead query.goalIdx ↔
      query.startIdx < query.goalIdx ∧ FreeStep query.map query.start query.goal := by
    rw [Ahead, cellAt_goalIdx posed]
  rcases final.reached_or_corner posed notStart with ⟨⟨zero, ahead⟩, reached⟩ | ⟨notAhead, corner⟩
  · obtain ⟨after, free⟩ := isAhead.mp ahead
    refine iff_of_true ?_ (.inr ⟨free, .inr ⟨zero, after⟩⟩)
    obtain ⟨chain, follows, leads⟩ := final.follows posed (goalIdx_lt posed) (.inr reached)
    rw [cellAt_goalIdx posed] at follows leads
    exact correct_of_follows found follows leads
  by_cases startCorner : query.start = (0, 0)
  · have follows : query.Follows nodes query.goal [query.goal] :=
      ⟨rfl, atStart, corner.trans startCorner.symm⟩
    constructor
    · intro correct
      have returned := (astarCore_of_follows found follows 2).trans (if_pos (by simp))
      have leads := correct.path 2 _ returned (.inl (by simp [mrPathMaxWp]))
      rw [take_eq_of_not_cut follows (.inl (by simp [mrPathMaxWp]))] at leads
      have neighbours : Neighbours query.goal query.start :=
        (List.isChain_cons_cons.mp leads.neighbours).1
      exact .inr ⟨⟨neighbours.symm, leads.free _ List.mem_cons_self atStart⟩, .inl startCorner⟩
    · rintro (same | ⟨free, _⟩)
      · exact absurd same atStart
      · refine correct_of_follows found follows ⟨rfl, rfl, ?_, ?_⟩
        · exact .cons_cons free.1.symm (.singleton _)
        · intro member isMember memberNot
          rcases List.mem_cons.mp isMember with rfl | isStart
          · exact free.2
          · exact absurd (List.mem_singleton.mp isStart) memberNot
  · apply iff_of_false
    · intro correct
      obtain ⟨fuel, result, returned⟩ := correct.terminates
      rw [astarCore_none posed atStart startCorner notAhead] at returned
      cases returned
    · rintro (same | ⟨free, same | ⟨zero, after⟩⟩)
      · exact atStart same
      · exact startCorner same
      · exact notAhead ⟨zero, isAhead.mpr ⟨after, free⟩⟩

/-- Two free cells in a row, with the steps counted. -/
def twoCells (sx gx : Int) : Query Int where
  map := ⟨2, 1, fun _ => 0⟩
  sx := sx
  sy := 0
  gx := gx
  gy := 0
  heuristic := fun point target => |point.x - target.x| + |point.y - target.y|
  costFn := fun _ _ _ _ _ => 1

theorem twoCells_wellPosed {sx gx : Int} (startIn : 0 ≤ sx ∧ sx < 2) (goalIn : 0 ≤ gx ∧ gx < 2) :
    (twoCells sx gx).WellPosed where
  startX := startIn
  startY := ⟨le_rfl, Int.zero_lt_one⟩
  goalX := goalIn
  goalY := ⟨le_rfl, Int.zero_lt_one⟩
  costPos := fun _ _ _ _ => Int.zero_lt_one
  heuristicNonneg := fun _ _ => Int.add_nonneg (abs_nonneg _) (abs_nonneg _)

theorem astarCore_correct_twoCells : (twoCells 0 1).WellPosed ∧ (twoCells 0 1).Correct := by
  have posed : (twoCells 0 1).WellPosed := twoCells_wellPosed (by decide) (by decide)
  exact ⟨posed, (astarCore_correct_iff posed).mpr (.inr ⟨by decide, .inl rfl⟩)⟩

/-- From the second cell to the first one the walk over the parents never ends. -/
theorem astarCore_endless : (twoCells 1 0).WellPosed ∧ ¬(twoCells 1 0).Correct := by
  have posed : (twoCells 1 0).WellPosed := twoCells_wellPosed (by decide) (by decide)
  refine ⟨posed, fun correct => ?_⟩
  obtain ⟨fuel, result, returned⟩ := correct.terminates
  rw [astarCore_none posed (by decide) (by decide)] at returned
  · cases returned
  · rintro ⟨_, ahead⟩
    exact absurd ahead.1 (by decide)

end Search

end Query

end Robotics

end MiniIotRobotEdge

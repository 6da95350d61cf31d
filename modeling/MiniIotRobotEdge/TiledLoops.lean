import Mathlib.Data.Nat.Init
import Mathlib.Tactic.SplitIfs
import MiniIotRobotEdge.LoopNests

/-!
# Tiled loops

A strided loop cuts a range into tiles, the last of which may be smaller.  Its
counter is a machine integer: the loop has no result when the counter passes
the limit, which is decided by the bound rounded up to a whole tile.  A
schedule lists the visits of a threefold loop nest; it covers a box when every
place is visited once for each `k`, in order, and then the order of the places
does not matter to the array that the visits rewrite.
-/

namespace MiniIotRobotEdge

namespace TiledLoops

open LoopNests

section Strides

/-- The number of tiles of `step` places over `bound` places. -/
def tileCount (step bound : Nat) : Nat := (bound + step - 1) / step

/-- The number of places in the tile that begins at `start`. -/
def tileSize (step bound start : Nat) : Nat :=
  if bound - start < step then bound - start else step

/-- `bound` rounded up to whole tiles. -/
def roundUp (step bound : Nat) : Nat := tileCount step bound * step

variable {step bound : Nat}

theorem lt_tileCount_iff (positive : 0 < step) (bound tile : Nat) :
    tile < tileCount step bound ↔ tile * step < bound := by
  rw [tileCount, ← Nat.succ_le_iff, Nat.le_div_iff_mul_le positive, Nat.succ_mul]
  omega

theorem le_roundUp (positive : 0 < step) : bound ≤ roundUp step bound := by
  have last := (lt_tileCount_iff positive bound (tileCount step bound)).not
  rw [roundUp]
  omega

theorem roundUp_mono (positive : 0 < step) {smaller : Nat} (le : smaller ≤ bound) :
    roundUp step smaller ≤ roundUp step bound := by
  apply Nat.mul_le_mul_right
  exact Nat.div_le_div_right (by omega)

theorem tileSize_le (step bound start : Nat) : tileSize step bound start ≤ bound - start := by
  rw [tileSize]
  split_ifs <;> omega

/-- `for (i = start; i < bound; i += step)` with a counter below the limit. -/
def stridedLoop {State : Type*} (limit step bound : Nat) (body : State → Nat → Option State) :
    Nat → Nat → State → Option State
  | 0, _, state => some state
  | fuel + 1, i, state =>
      if i < bound then
        (body state i).bind fun state =>
          if i + step < limit then stridedLoop limit step bound body fuel (i + step) state
          else none
      else some state

/-- The loop from 0; there are at most `bound` turns. -/
def stridedFor {State : Type*} (limit step bound : Nat) (body : State → Nat → Option State)
    (state : State) : Option State :=
  stridedLoop limit step bound body bound 0 state

variable {State : Type*} {limit : Nat} {body : State → Nat → Option State}

theorem stridedLoop_some (positive : 0 < step) (fits : roundUp step bound < limit)
    (turn : State → Nat → State) {left tile fuel : Nat}
    (total : tile + left = tileCount step bound) (enough : left ≤ fuel) (state : State) :
    stridedLoop limit step bound (fun state i => some (turn state i)) fuel (tile * step) state =
      some ((List.range left).foldl (fun state k => turn state ((tile + k) * step)) state) := by
  induction left generalizing tile fuel state with
  | zero =>
      have done : ¬tile * step < bound := by
        rw [← lt_tileCount_iff positive]
        omega
      cases fuel with
      | zero => rfl
      | succ fuel => rw [stridedLoop, if_neg done, List.range_zero, List.foldl_nil]
  | succ left ih =>
      obtain ⟨fuel, rfl⟩ := Nat.exists_eq_add_one_of_ne_zero (show fuel ≠ 0 by omega)
      have inside : tile < tileCount step bound := by omega
      have next : tile * step + step < limit := by
        have within := Nat.mul_le_mul_right step (Nat.succ_le_of_lt inside)
        rw [Nat.succ_mul] at within
        exact Nat.lt_of_le_of_lt within fits
      rw [stridedLoop, if_pos ((lt_tileCount_iff positive bound tile).mp inside),
        Option.bind_some, if_pos next, ← Nat.succ_mul, ih (by omega) (by omega),
        List.range_succ_eq_map, List.foldl_cons, List.foldl_map, Nat.add_zero]
      simp only [Nat.succ_eq_add_one, Nat.add_assoc, Nat.add_comm 1]

theorem tileCount_le (positive : 0 < step) (bound : Nat) : tileCount step bound ≤ bound := by
  by_contra more
  have last := (lt_tileCount_iff positive bound bound).mp (not_le.mp more)
  have least := Nat.le_mul_of_pos_right bound positive
  omega

/-- A loop whose counter stays below the limit is a fold over its tiles. -/
theorem stridedFor_some (positive : 0 < step) (fits : roundUp step bound < limit)
    (turn : State → Nat → State) (state : State) :
    stridedFor limit step bound (fun state i => some (turn state i)) state =
      some ((List.range (tileCount step bound)).foldl
        (fun state tile => turn state (tile * step)) state) := by
  have loop := stridedLoop_some positive fits turn (Nat.zero_add (tileCount step bound))
    (tileCount_le positive bound) state
  rw [Nat.zero_mul] at loop
  rw [stridedFor, loop]
  simp only [Nat.zero_add]

theorem stridedLoop_eq_none (positive : 0 < step) (passes : limit ≤ roundUp step bound)
    {left tile fuel : Nat} (total : tile + (left + 1) = tileCount step bound)
    (enough : left + 1 ≤ fuel) (state : State) :
    stridedLoop limit step bound body fuel (tile * step) state = none := by
  induction left generalizing tile fuel state with
  | zero =>
      obtain ⟨fuel, rfl⟩ := Nat.exists_eq_add_one_of_ne_zero (show fuel ≠ 0 by omega)
      have past : ¬tile * step + step < limit := by
        rw [roundUp, ← total, Nat.zero_add, Nat.succ_mul] at passes
        omega
      have inside := (lt_tileCount_iff positive bound tile).mp (by omega)
      rw [stridedLoop, if_pos inside]
      simp only [if_neg past, Option.bind_fun_none]
  | succ left ih =>
      obtain ⟨fuel, rfl⟩ := Nat.exists_eq_add_one_of_ne_zero (show fuel ≠ 0 by omega)
      have inside := (lt_tileCount_iff positive bound tile).mp (by omega)
      rw [stridedLoop, if_pos inside, ← Nat.succ_mul]
      cases body state (tile * step) with
      | none => rfl
      | some next =>
          rw [Option.bind_some, ih (by omega) (by omega), ite_self]

/-- A counter that passes the limit leaves no result. -/
theorem stridedFor_eq_none_of_limit (positive : 0 < step) (nonempty : 0 < bound)
    (passes : limit ≤ roundUp step bound) (state : State) :
    stridedFor limit step bound body state = none := by
  have first := (lt_tileCount_iff positive bound 0).mpr (by omega)
  have within := tileCount_le positive bound
  have total : 0 + (tileCount step bound - 1 + 1) = tileCount step bound := by omega
  have enough : tileCount step bound - 1 + 1 ≤ bound := by omega
  rw [stridedFor, ← Nat.zero_mul step]
  exact stridedLoop_eq_none positive passes total enough state

/-- A first turn without a result leaves none. -/
theorem stridedFor_eq_none_of_first (nonempty : 0 < bound) {state : State}
    (fails : body state 0 = none) : stridedFor limit step bound body state = none := by
  obtain ⟨fuel, rfl⟩ := Nat.exists_eq_add_one_of_ne_zero nonempty.ne'
  rw [stridedFor, stridedLoop, if_pos nonempty, fails, Option.bind_none]

end Strides

section Selection

variable {α : Type*}

theorem flatMap_ite (turns : List Nat) (condition : Prop) [Decidable condition]
    (inner : Nat → List α) :
    (turns.flatMap fun turn => if condition then inner turn else []) =
      if condition then turns.flatMap inner else [] := by
  split_ifs with holds
  · rfl
  · exact List.flatMap_eq_nil_iff.mpr fun _ _ => rfl

/-- Only one turn of a loop has something to add. -/
theorem flatMap_of_unique {count : Nat} {inner : Nat → List α} (chosen : Nat)
    (inRange : chosen < count)
    (others : ∀ turn, turn ≠ chosen → inner turn = []) :
    (List.range count).flatMap inner = inner chosen := by
  induction count with
  | zero => contradiction
  | succ count ih =>
      rw [List.range_succ, List.flatMap_append, List.flatMap_singleton]
      obtain rfl | earlier := Nat.eq_or_lt_of_le (Nat.lt_succ_iff.mp inRange)
      · have none : (List.range chosen).flatMap inner = [] :=
          List.flatMap_eq_nil_iff.mpr fun turn listed =>
            others turn (List.mem_range.mp listed).ne
        rw [none, List.nil_append]
      · rw [ih earlier, others count earlier.ne', List.append_nil]

/-- The turn that reaches a place, of those that start at `start`. -/
theorem flatMap_place (count start place : Nat) (inner : List α) :
    ((List.range count).flatMap fun turn => if start + turn = place then inner else []) =
      if start ≤ place ∧ place < start + count then inner else [] := by
  split_ifs with inside
  · rw [flatMap_of_unique (place - start) (by omega) fun turn other => if_neg (by omega),
      if_pos (by omega)]
  · exact List.flatMap_eq_nil_iff.mpr fun turn listed => if_neg fun reached => inside (by
      have bound := List.mem_range.mp listed
      omega)

theorem flatMap_index (count place : Nat) (inner : List α) :
    ((List.range count).flatMap fun turn => if turn = place then inner else []) =
      if place < count then inner else [] := by
  simpa using flatMap_place count 0 place inner

/-- Every place is in one tile. -/
theorem flatMap_tile {step bound : Nat} (positive : 0 < step) (place : Nat) (inner : List α) :
    ((List.range (tileCount step bound)).flatMap fun tile =>
      if tile * step ≤ place ∧ place < tile * step + tileSize step bound (tile * step)
        then inner else []) =
      if place < bound then inner else [] := by
  split_ifs with inside
  · have floor := Nat.div_mul_le_self place step
    have ceiling := Nat.lt_div_mul_add (a := place) positive
    rw [flatMap_of_unique (place / step)
      ((lt_tileCount_iff positive bound _).mpr (by omega)), if_pos]
    · rw [tileSize]
      split_ifs <;> omega
    · intro tile other
      refine if_neg fun ⟨start, stop⟩ => other ?_
      have size : tileSize step bound (tile * step) ≤ step := by
        rw [tileSize]
        split_ifs <;> omega
      exact (Nat.div_eq_of_lt_le start (by rw [Nat.succ_mul]; omega)).symm
  · refine List.flatMap_eq_nil_iff.mpr fun tile listed => if_neg fun ⟨start, stop⟩ => inside ?_
    have size := tileSize_le step bound (tile * step)
    have first := (lt_tileCount_iff positive bound tile).mp (List.mem_range.mp listed)
    omega

/-- The tiles, one behind the other, are the whole range. -/
theorem flatMap_tiles {step bound : Nat} (positive : 0 < step) :
    ((List.range (tileCount step bound)).flatMap fun tile =>
      (List.range (tileSize step bound (tile * step))).map fun place => tile * step + place) =
      List.range bound := by
  have upTo : ∀ count ≤ tileCount step bound, ((List.range count).flatMap fun tile =>
      (List.range (tileSize step bound (tile * step))).map fun place => tile * step + place) =
      List.range (min (count * step) bound) := by
    intro count
    induction count with
    | zero =>
        intro _
        rw [Nat.zero_mul, Nat.zero_min]
        rfl
    | succ count ih =>
        intro within
        have first := (lt_tileCount_iff positive bound count).mp within
        have total : min ((count + 1) * step) bound =
            count * step + tileSize step bound (count * step) := by
          rw [tileSize, Nat.succ_mul]
          split_ifs <;> omega
        rw [List.range_succ, List.flatMap_append, List.flatMap_singleton, ih (by omega), total,
          min_eq_left first.le, List.range_add]
  have all := upTo (tileCount step bound) le_rfl
  have enough : bound ≤ tileCount step bound * step := le_roundUp positive
  rwa [min_eq_right enough] at all

end Selection

section Schedules

/-- One turn of a threefold nest. -/
structure Visit where
  i : Nat
  j : Nat
  k : Nat

/-- The `k` of each visit to a place, in the order of the visits. -/
def visitsTo (schedule : List Visit) (i j : Nat) : List Nat :=
  schedule.flatMap fun visit => if visit.i = i then if visit.j = j then [visit.k] else [] else []

/-- Every place of the window is visited for each `k` in order, and no other one. -/
def Covers (rows columns depth : Nat) (schedule : List Visit) : Prop :=
  ∀ i j, visitsTo schedule i j =
    if i < rows then if j < columns then List.range depth else [] else []

theorem visitsTo_flatMap {Turn : Type*} (turns : List Turn) (inner : Turn → List Visit)
    (i j : Nat) :
    visitsTo (turns.flatMap inner) i j = turns.flatMap fun turn => visitsTo (inner turn) i j := by
  rw [visitsTo, List.flatMap_assoc]
  rfl

def Visit.shift (i j k : Nat) (visit : Visit) : Visit := ⟨i + visit.i, j + visit.j, k + visit.k⟩

variable {rows columns depth : Nat} {schedule : List Visit}

/-- A covering schedule in another corner of the array. -/
theorem Covers.visitsTo_shift (covers : Covers rows columns depth schedule)
    (row column first i j : Nat) :
    visitsTo (schedule.map (Visit.shift row column first)) i j =
      if row ≤ i ∧ i < row + rows then
        if column ≤ j ∧ j < column + columns then
          (List.range depth).map fun k => first + k
        else []
      else [] := by
  rw [visitsTo, List.flatMap_map]
  by_cases behind : row ≤ i ∧ column ≤ j
  · have moved : (schedule.flatMap fun visit =>
        if (visit.shift row column first).i = i then
          if (visit.shift row column first).j = j then [(visit.shift row column first).k] else []
        else []) =
        (visitsTo schedule (i - row) (j - column)).map fun k => first + k := by
      rw [visitsTo, List.map_flatMap]
      congr 1
      funext visit
      have sameRow : row + visit.i = i ↔ visit.i = i - row := by omega
      have sameColumn : column + visit.j = j ↔ visit.j = j - column := by omega
      simp only [Visit.shift, sameRow, sameColumn]
      split_ifs <;> rfl
    have inRow : row ≤ i ∧ i < row + rows ↔ i - row < rows := by omega
    have inColumn : column ≤ j ∧ j < column + columns ↔ j - column < columns := by omega
    rw [moved, covers]
    simp only [inRow, inColumn]
    split_ifs <;> rfl
  · have never : (schedule.flatMap fun visit =>
        if (visit.shift row column first).i = i then
          if (visit.shift row column first).j = j then [(visit.shift row column first).k] else []
        else []) = [] := by
      refine List.flatMap_eq_nil_iff.mpr fun visit _ => ?_
      rcases not_and_or.mp behind with above | before
      · have other : (visit.shift row column first).i ≠ i := fun same : row + visit.i = i => by omega
        rw [if_neg other]
      · have other : (visit.shift row column first).j ≠ j :=
          fun same : column + visit.j = j => by omega
        rw [if_neg other, ite_self]
    rw [never]
    by_cases inRow : row ≤ i ∧ i < row + rows
    · rw [if_pos inRow, if_neg (by omega)]
    · rw [if_neg inRow]

theorem Covers.inside (covers : Covers rows columns depth schedule) {visit : Visit}
    (listed : visit ∈ schedule) : visit.i < rows ∧ visit.j < columns := by
  have reached : visit.k ∈ visitsTo schedule visit.i visit.j :=
    List.mem_flatMap.mpr ⟨visit, listed, by rw [if_pos rfl, if_pos rfl]; exact List.mem_cons_self⟩
  rw [covers] at reached
  split_ifs at reached with row column
  · exact ⟨row, column⟩
  · contradiction
  · contradiction

/-- Row by row, and each place for all `k` at once. -/
def plainSchedule (rows columns depth : Nat) : List Visit :=
  (List.range rows).flatMap fun i =>
    (List.range columns).flatMap fun j => (List.range depth).map fun k => ⟨i, j, k⟩

/-- Tile by tile, and each tile for one `k` after the other. -/
def tileSchedule (height width rows columns depth : Nat) : List Visit :=
  (List.range (tileCount height rows)).flatMap fun tileRow =>
    (List.range (tileCount width columns)).flatMap fun tileColumn =>
      (List.range depth).flatMap fun k =>
        (List.range (tileSize height rows (tileRow * height))).flatMap fun row =>
          (List.range (tileSize width columns (tileColumn * width))).map fun column =>
            ⟨tileRow * height + row, tileColumn * width + column, k⟩

/-- Block by block, where each block has a schedule of its own. -/
def blockSchedule (height width length rows columns depth : Nat)
    (inner : Nat → Nat → Nat → List Visit) : List Visit :=
  (List.range (tileCount height rows)).flatMap fun blockRow =>
    (List.range (tileCount width columns)).flatMap fun blockColumn =>
      (List.range (tileCount length depth)).flatMap fun blockStep =>
        (inner (tileSize height rows (blockRow * height))
          (tileSize width columns (blockColumn * width))
          (tileSize length depth (blockStep * length))).map
            (Visit.shift (blockRow * height) (blockColumn * width) (blockStep * length))

/-- The visits of one line for one `k`. -/
theorem visitsTo_line (width row column k i j : Nat) :
    visitsTo ((List.range width).map fun right => ⟨row, column + right, k⟩) i j =
      if row = i then if column ≤ j ∧ j < column + width then [k] else [] else [] := by
  simp only [visitsTo, List.flatMap_map, flatMap_ite, flatMap_place]

theorem plainSchedule_covers (rows columns depth : Nat) :
    Covers rows columns depth (plainSchedule rows columns depth) := by
  intro i j
  simp only [plainSchedule, visitsTo, List.flatMap_assoc, List.flatMap_map, flatMap_ite,
    flatMap_index, List.flatMap_singleton']

theorem tileSchedule_covers {height width : Nat} (high : 0 < height) (wide : 0 < width)
    (rows columns depth : Nat) :
    Covers rows columns depth (tileSchedule height width rows columns depth) := by
  intro i j
  simp only [tileSchedule, visitsTo_flatMap, visitsTo_line, flatMap_ite, flatMap_place,
    List.flatMap_singleton', flatMap_tile wide, flatMap_tile high]

theorem blockSchedule_covers {height width length : Nat} (high : 0 < height) (wide : 0 < width)
    (long : 0 < length) (rows columns depth : Nat) {inner : Nat → Nat → Nat → List Visit}
    (covers : ∀ rows columns depth, Covers rows columns depth (inner rows columns depth)) :
    Covers rows columns depth (blockSchedule height width length rows columns depth inner) := by
  intro i j
  simp only [blockSchedule, visitsTo_flatMap, (covers _ _ _).visitsTo_shift, flatMap_ite,
    flatMap_tiles long, flatMap_tile wide, flatMap_tile high]

section Array

variable {Value : Type*} (ld : Nat) (change : Visit → Value → Value)

/-- The visits of a schedule rewrite the entries `i * ld + j`. -/
def runSchedule (schedule : List Visit) (values : Nat → Value) : Nat → Value :=
  schedule.foldl (fun values visit =>
    Function.update values (visit.i * ld + visit.j)
      (change visit (values (visit.i * ld + visit.j)))) values

theorem filter_eq_map_visitsTo (schedule : List Visit) (i j : Nat) :
    (schedule.filter fun visit => visit.i = i ∧ visit.j = j) =
      (visitsTo schedule i j).map fun k => ⟨i, j, k⟩ := by
  induction schedule with
  | nil => rfl
  | cons visit rest ih =>
      rw [visitsTo, List.flatMap_cons, List.map_append, ← visitsTo, ← ih]
      by_cases here : visit.i = i ∧ visit.j = j
      · obtain ⟨rfl, rfl⟩ := here
        rw [List.filter_cons_of_pos (by simp), if_pos rfl, if_pos rfl]
        rfl
      · rw [List.filter_cons_of_neg (by simpa using here)]
        split_ifs with row column
        · exact absurd ⟨row, column⟩ here
        · rfl
        · rfl

theorem place_injective {i j row column : Nat} (inside : j < ld) (alsoInside : column < ld)
    (same : i * ld + j = row * ld + column) : i = row ∧ j = column := by
  have quotient : ∀ row column, column < ld → (row * ld + column) / ld = row := by
    intro row column within
    rw [Nat.mul_comm, Nat.mul_add_div (by omega), Nat.div_eq_of_lt within, Nat.add_zero]
  have rows : i = row := by rw [← quotient i j inside, same, quotient row column alsoInside]
  subst rows
  exact ⟨rfl, by omega⟩

variable {ld} (wide : columns ≤ ld)

include wide in
theorem runSchedule_inside (covers : Covers rows columns depth schedule) (values : Nat → Value)
    {i j : Nat} (row : i < rows) (column : j < columns) :
    runSchedule ld change schedule values (i * ld + j) =
      (List.range depth).foldl (fun value k => change ⟨i, j, k⟩ value) (values (i * ld + j)) := by
  have aimed : (schedule.filter fun visit => visit.i * ld + visit.j = i * ld + j) =
      schedule.filter fun visit => visit.i = i ∧ visit.j = j := by
    apply List.filter_congr
    intro visit listed
    have inside := covers.inside listed
    have same : visit.i * ld + visit.j = i * ld + j ↔ visit.i = i ∧ visit.j = j := by
      constructor
      · exact place_injective ld (by omega) (by omega)
      · rintro ⟨rfl, rfl⟩
        rfl
    rw [decide_eq_decide]
    exact same
  rw [runSchedule, foldl_update_apply change, aimed, filter_eq_map_visitsTo, covers, if_pos row,
    if_pos column, List.foldl_map]

theorem runSchedule_outside (covers : Covers rows columns depth schedule) (values : Nat → Value)
    {target : Nat} (outside : ∀ i j, i < rows → j < columns → i * ld + j ≠ target) :
    runSchedule ld change schedule values target = values target := by
  have none : (schedule.filter fun visit => visit.i * ld + visit.j = target) = [] := by
    rw [List.filter_eq_nil_iff]
    intro visit listed reached
    have inside := covers.inside listed
    exact outside visit.i visit.j inside.1 inside.2 (by simpa using reached)
  rw [runSchedule, foldl_update_apply change, none, List.foldl_nil]

include wide in
/-- Covering schedules leave the same array. -/
theorem runSchedule_eq {other : List Visit} (covers : Covers rows columns depth schedule)
    (alsoCovers : Covers rows columns depth other) (values : Nat → Value) :
    runSchedule ld change schedule values = runSchedule ld change other values := by
  funext target
  by_cases reached : ∃ i j, i < rows ∧ j < columns ∧ i * ld + j = target
  · obtain ⟨i, j, row, column, rfl⟩ := reached
    rw [runSchedule_inside change wide covers values row column,
      runSchedule_inside change wide alsoCovers values row column]
  · have outside : ∀ i j, i < rows → j < columns → i * ld + j ≠ target :=
      fun i j row column same => reached ⟨i, j, row, column, same⟩
    rw [runSchedule_outside change covers values outside,
      runSchedule_outside change alsoCovers values outside]

end Array

end Schedules

end TiledLoops

end MiniIotRobotEdge

import Mathlib.Algebra.BigOperators.Group.List.Basic
import Mathlib.Algebra.BigOperators.Intervals
import Mathlib.Data.List.Range
import Mathlib.Logic.Function.Basic

/-!
# Nested loops over arrays

A nest of loops is one loop over the list of its turns.  What matters about a
turn is which entry it rewrites: an entry sees the turns aimed at it and no
others, in their order.  A quantity to which every turn adds its gain ends at
the sum of the gains.
-/

namespace MiniIotRobotEdge

namespace LoopNests

variable {State Turn : Type*}

/-- A quantity that grows by `gain` in each turn. -/
theorem measure_foldl {M : Type*} [AddMonoid M] (measure : State → M)
    {body : State → Turn → State} {gain : Turn → M} {turns : List Turn}
    (grows : ∀ state, ∀ turn ∈ turns, measure (body state turn) = measure state + gain turn)
    (initial : State) :
    measure (turns.foldl body initial) = measure initial + (turns.map gain).sum := by
  induction turns generalizing initial with
  | nil => rw [List.foldl_nil, List.map_nil, List.sum_nil, add_zero]
  | cons turn rest ih =>
      have first := grows initial turn List.mem_cons_self
      have later := ih fun state other listed => grows state other (List.mem_cons_of_mem turn listed)
      rw [List.foldl_cons, later, first, List.map_cons, List.sum_cons, add_assoc]

theorem sum_map_flatMap {M : Type*} [AddMonoid M] {Inner : Type*} (turns : List Turn)
    (inner : Turn → List Inner) (gain : Inner → M) :
    ((turns.flatMap inner).map gain).sum =
      (turns.map fun turn => ((inner turn).map gain).sum).sum := by
  induction turns with
  | nil => rfl
  | cons turn rest ih =>
      rw [List.flatMap_cons, List.map_append, List.sum_append, ih, List.map_cons, List.sum_cons]

/-- Two counters, the second one running through `columns` places for each
value of the first, count through all places in order. -/
theorem range_flatMap_range {Inner : Type*} (rows columns : Nat) (inner : Nat → List Inner) :
    (List.range rows).flatMap (fun i =>
      (List.range columns).flatMap fun j => inner (i * columns + j)) =
      (List.range (rows * columns)).flatMap inner := by
  induction rows with
  | zero => simp only [List.range_zero, List.flatMap_nil, Nat.zero_mul]
  | succ rows ih =>
      rw [List.range_succ, List.flatMap_append, ih, Nat.succ_mul, List.range_add,
        List.flatMap_append, List.flatMap_singleton, List.flatMap_map]

theorem range_flatMap_map_range {Inner : Type*} (rows columns : Nat) (inner : Nat → Inner) :
    (List.range rows).flatMap (fun i =>
      (List.range columns).map fun j => inner (i * columns + j)) =
      (List.range (rows * columns)).map inner := by
  simp only [List.map_eq_flatMap]
  exact range_flatMap_range rows columns fun place => [inner place]

/-- Four counters, the last one the fastest, count through all places in order. -/
theorem range_flatMap_four_map_range {Inner : Type*} (blocks planes rows columns : Nat)
    (inner : Nat → Inner) :
    ((List.range blocks).flatMap fun i => (List.range planes).flatMap fun j =>
      (List.range rows).flatMap fun k => (List.range columns).map fun l =>
        inner (((i * planes + j) * rows + k) * columns + l)) =
      (List.range (blocks * planes * rows * columns)).map inner := by
  rw [← range_flatMap_map_range (blocks * planes * rows), ← range_flatMap_range (blocks * planes),
    ← range_flatMap_range blocks]

section Update

variable {Index Value : Type*} [DecidableEq Index] {index : Turn → Index}

/-- An entry sees the turns aimed at it. -/
theorem foldl_update_apply (change : Turn → Value → Value) (turns : List Turn)
    (values : Index → Value) (target : Index) :
    turns.foldl (fun values turn =>
      Function.update values (index turn) (change turn (values (index turn)))) values target =
      (turns.filter fun turn => index turn = target).foldl (fun value turn => change turn value)
        (values target) := by
  induction turns generalizing values with
  | nil => rfl
  | cons turn rest ih =>
      rw [List.foldl_cons, ih]
      by_cases aimed : index turn = target
      · rw [List.filter_cons_of_pos (by simpa using aimed), List.foldl_cons, ← aimed,
          Function.update_self]
      · rw [List.filter_cons_of_neg (by simpa using aimed), Function.update_of_ne (Ne.symm aimed)]

/-- Where no entry is written twice, each one keeps what was written to it. -/
theorem foldl_write_apply {value : Turn → Value} {turns : List Turn}
    (distinct : (turns.map index).Nodup) (values : Index → Value) {turn : Turn}
    (listed : turn ∈ turns) :
    turns.foldl (fun values turn => Function.update values (index turn) (value turn)) values
      (index turn) = value turn := by
  induction turns generalizing values with
  | nil => contradiction
  | cons head rest ih =>
      rw [List.map_cons, List.nodup_cons] at distinct
      rw [List.foldl_cons]
      rcases List.mem_cons.mp listed with rfl | later
      · have none : rest.filter (fun other => index other = index turn) = [] := by
          rw [List.filter_eq_nil_iff]
          intro other inRest same
          exact distinct.1 (List.mem_map.mpr ⟨other, inRest, by simpa using same⟩)
        rw [foldl_update_apply (fun turn _ => value turn), none, List.foldl_nil,
          Function.update_self]
      · exact ih distinct.2 _ later

end Update

end LoopNests

/-!
## Arrays of sums

Loops that work out one entry of an array after the other, each of them a sum
over inner loops.  A loop that adds a term in every turn ends at the sum of its
terms, and a nest that writes every entry once leaves in each what was written
there.
-/

namespace LoopSums

open LoopNests

section Sums

variable {M : Type*} [AddCommMonoid M]

/-- A loop that adds something in every turn. -/
theorem foldl_gain {body : M → Nat → M} {gain : Nat → M} {count : Nat}
    (adds : ∀ sum turn, turn < count → body sum turn = sum + gain turn) (initial : M) :
    (List.range count).foldl body initial = initial + ∑ turn ∈ Finset.range count, gain turn := by
  induction count with
  | zero => simp
  | succ count ih =>
      rw [List.range_succ, List.foldl_append, List.foldl_cons, List.foldl_nil,
        ih fun sum turn inRange => adds sum turn (Nat.lt_succ_of_lt inRange),
        adds _ count (Nat.lt_succ_self count), Finset.sum_range_succ, add_assoc]

theorem foldl_add (term : Nat → M) (count : Nat) (initial : M) :
    (List.range count).foldl (fun sum turn => sum + term turn) initial =
      initial + ∑ turn ∈ Finset.range count, term turn :=
  foldl_gain (fun _ _ _ => rfl) initial

/-- A sum over the places of a table, row by row. -/
theorem sum_range_mul (rows columns : Nat) (term : Nat → M) :
    ∑ place ∈ Finset.range (rows * columns), term place =
      ∑ i ∈ Finset.range rows, ∑ j ∈ Finset.range columns, term (i * columns + j) := by
  induction rows with
  | zero => simp
  | succ rows ih => rw [Nat.succ_mul, Finset.sum_range_add, ih, Finset.sum_range_succ]

end Sums

section Writes

variable {Index Value Turn : Type*} [DecidableEq Index]

/-- An entry that is reached holds what the turns that reach it agree on. -/
theorem foldl_write_of_agree {index : Turn → Index} {value : Turn → Value} {turns : List Turn}
    {target : Index} {written : Value}
    (agree : ∀ turn ∈ turns, index turn = target → value turn = written)
    (reached : ∃ turn ∈ turns, index turn = target) (values : Index → Value) :
    turns.foldl (fun values turn => Function.update values (index turn) (value turn)) values
      target = written := by
  rw [foldl_update_apply fun turn _ => value turn]
  rcases List.eq_nil_or_concat (turns.filter fun turn => index turn = target) with
    none | ⟨front, last, split⟩
  · obtain ⟨turn, listed, here⟩ := reached
    exact absurd here (by simpa using List.filter_eq_nil_iff.mp none turn listed)
  · have lastReaches : last ∈ turns.filter fun turn => index turn = target := by
      rw [split, List.concat_eq_append]
      exact List.mem_concat_self
    obtain ⟨listed, here⟩ := List.mem_filter.mp lastReaches
    rw [split, List.concat_eq_append, List.foldl_append]
    exact agree last listed (by simpa using here)

/-- Three loops that write every entry once. -/
theorem write_three {index : Nat → Nat → Nat → Index} {planes rows columns : Nat}
    (distinct : ∀ i j k i' j' k', i < planes → j < rows → k < columns → i' < planes → j' < rows →
      k' < columns → index i j k = index i' j' k' → i = i' ∧ j = j' ∧ k = k')
    (value : Nat → Nat → Nat → Value) (values : Index → Value) {i j k : Nat}
    (plane : i < planes) (row : j < rows) (column : k < columns) :
    (List.range planes).foldl (fun values i =>
      (List.range rows).foldl (fun values j =>
        (List.range columns).foldl (fun values k =>
          Function.update values (index i j k) (value i j k)) values) values) values
      (index i j k) = value i j k := by
  let turns : List (Nat × Nat × Nat) :=
    (List.range planes).flatMap fun i => (List.range rows).flatMap fun j =>
      (List.range columns).map fun k => (i, j, k)
  have inTurns : ∀ turn : Nat × Nat × Nat, turn ∈ turns ↔
      turn.1 < planes ∧ turn.2.1 < rows ∧ turn.2.2 < columns := by
    intro turn
    simp only [turns, List.mem_flatMap, List.mem_map, List.mem_range]
    constructor
    · rintro ⟨i, plane, j, row, k, column, rfl⟩
      exact ⟨plane, row, column⟩
    · rintro ⟨plane, row, column⟩
      exact ⟨turn.1, plane, turn.2.1, row, turn.2.2, column, rfl⟩
  have asOne : ∀ values : Index → Value,
      (List.range planes).foldl (fun values i =>
        (List.range rows).foldl (fun values j =>
          (List.range columns).foldl (fun values k =>
            Function.update values (index i j k) (value i j k)) values) values) values =
      turns.foldl (fun values turn => Function.update values (index turn.1 turn.2.1 turn.2.2)
        (value turn.1 turn.2.1 turn.2.2)) values := by
    intro values
    simp only [turns, List.foldl_flatMap, List.foldl_map]
  rw [asOne]
  apply foldl_write_of_agree
  · intro turn listed same
    obtain ⟨otherPlane, otherRow, otherColumn⟩ := (inTurns turn).mp listed
    obtain ⟨samePlane, sameRow, sameColumn⟩ :=
      distinct _ _ _ _ _ _ otherPlane otherRow otherColumn plane row column same
    rw [samePlane, sameRow, sameColumn]
  · exact ⟨(i, j, k), (inTurns (i, j, k)).mpr ⟨plane, row, column⟩, rfl⟩

theorem write_two {index : Nat → Nat → Index} {rows columns : Nat}
    (distinct : ∀ j k j' k', j < rows → k < columns → j' < rows → k' < columns →
      index j k = index j' k' → j = j' ∧ k = k')
    (value : Nat → Nat → Value) (values : Index → Value) {j k : Nat} (row : j < rows)
    (column : k < columns) :
    (List.range rows).foldl (fun values j =>
      (List.range columns).foldl (fun values k =>
        Function.update values (index j k) (value j k)) values) values (index j k) = value j k := by
  have asThree : (List.range 1).foldl (fun values _ =>
      (List.range rows).foldl (fun values j =>
        (List.range columns).foldl (fun values k =>
          Function.update values (index j k) (value j k)) values) values) values (index j k) =
      value j k := by
    refine write_three (i := 0) (fun i j k i' j' k' plane row column plane' row' column' same => ?_)
      (fun _ => value) values Nat.one_pos row column
    obtain ⟨sameRow, sameColumn⟩ := distinct j k j' k' row column row' column' same
    exact ⟨by omega, sameRow, sameColumn⟩
  exact asThree

/-- Entries that no turn writes keep their values. -/
theorem write_two_outside {index : Nat → Nat → Index} {rows columns : Nat} {target : Index}
    (outside : ∀ j k, j < rows → k < columns → index j k ≠ target) (value : Nat → Nat → Value)
    (values : Index → Value) :
    (List.range rows).foldl (fun values j =>
      (List.range columns).foldl (fun values k =>
        Function.update values (index j k) (value j k)) values) values target = values target := by
  have kept : ∀ turns : List Nat, (∀ j ∈ turns, j < rows) → ∀ values : Index → Value,
      turns.foldl (fun values j =>
        (List.range columns).foldl (fun values k =>
          Function.update values (index j k) (value j k)) values) values target =
        values target := by
    intro turns
    induction turns with
    | nil => exact fun _ _ => rfl
    | cons j rest ih =>
        intro inRange values
        have none : ((List.range columns).filter fun k => index j k = target) = [] := by
          rw [List.filter_eq_nil_iff]
          intro k listed same
          exact outside j k (inRange j List.mem_cons_self) (List.mem_range.mp listed)
            (by simpa using same)
        rw [List.foldl_cons, ih fun other listed => inRange other (List.mem_cons_of_mem j listed),
          foldl_update_apply fun k _ => value j k, none, List.foldl_nil]
  exact kept (List.range rows) (fun _ => List.mem_range.mp) values

end Writes

end LoopSums

end MiniIotRobotEdge

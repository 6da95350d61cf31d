import Mathlib.Data.List.Range
import Mathlib.Logic.Function.Basic
import Mathlib.Order.Lattice

/-!
# Counting loops

A loop `for (i = 0; i < n; ++i)` is a fold over `List.range n`.  Its invariant
relates the number of turns done to the state, and a loop that rewrites one
entry of an array in every turn rewrites those entries and no others.
-/

namespace MiniIotRobotEdge

namespace RangeLoop

variable {State : Type*} {body : State → Nat → State} {initial : State} {count : Nat}

/-- The invariant rule for counting loops. -/
theorem invariant (motive : Nat → State → Prop) (base : motive 0 initial)
    (step : ∀ turn state, turn < count → motive turn state → motive (turn + 1) (body state turn)) :
    motive count ((List.range count).foldl body initial) := by
  induction count with
  | zero => exact base
  | succ count ih =>
      rw [List.range_succ, List.foldl_append]
      exact step count _ (Nat.lt_succ_self count)
        (ih fun turn state inRange => step turn state (Nat.lt_succ_of_lt inRange))

/-- Two nested loops go through the places of a table row by row. -/
theorem nested (body : State → Nat → State) (initial : State) (rows columns : Nat) :
    (List.range rows).foldl (fun state i =>
      (List.range columns).foldl (fun state j => body state (i * columns + j)) state) initial =
      (List.range (rows * columns)).foldl body initial := by
  induction rows with
  | zero => simp only [List.range_zero, List.foldl_nil, Nat.zero_mul]
  | succ rows ih =>
      rw [List.range_succ, List.foldl_append, ih, Nat.succ_mul, List.range_add,
        List.foldl_append, List.foldl_map]
      rfl

section Update

variable {Index Value : Type*} [DecidableEq Index] (index : Nat → Index)
  (change : Nat → Value → Value) {values : Index → Value}

/-- Entries that no turn rewrites keep their values. -/
theorem update_of_ne {target : Index} (untouched : ∀ turn < count, index turn ≠ target) :
    (List.range count).foldl (fun values turn =>
      Function.update values (index turn) (change turn (values (index turn)))) values target =
      values target := by
  induction count with
  | zero => rfl
  | succ count ih =>
      rw [List.range_succ, List.foldl_append, List.foldl_cons, List.foldl_nil,
        Function.update_of_ne (untouched count (Nat.lt_succ_self count)).symm]
      exact ih fun turn inRange => untouched turn (Nat.lt_succ_of_lt inRange)

/-- Every turn finds the entry that it rewrites as it was before the loop. -/
theorem update_apply (distinct : ∀ first second, first < second → second < count →
    index first ≠ index second) {turn : Nat} (inRange : turn < count) :
    (List.range count).foldl (fun values turn =>
      Function.update values (index turn) (change turn (values (index turn)))) values
        (index turn) = change turn (values (index turn)) := by
  induction count with
  | zero => exact absurd inRange (Nat.not_lt_zero turn)
  | succ count ih =>
      rw [List.range_succ, List.foldl_append, List.foldl_cons, List.foldl_nil]
      rcases Nat.lt_succ_iff_lt_or_eq.mp inRange with earlier | rfl
      · rw [Function.update_of_ne (distinct turn count earlier (Nat.lt_succ_self count))]
        exact ih (fun first second inOrder bound =>
          distinct first second inOrder (Nat.lt_succ_of_lt bound)) earlier
      · rw [Function.update_self, update_of_ne index change fun other before =>
          distinct other turn before (Nat.lt_succ_self turn)]

/-- A loop over distinct targets rewrites each of them once.  The entry that every
turn reads is none of them. -/
theorem targets_apply (change : Value → Index → Value → Value) {targets : List Index}
    {read : Index} (distinct : targets.Nodup) (notRead : read ∉ targets) (target : Index) :
    targets.foldl (fun values target =>
      Function.update values target (change (values read) target (values target))) values target =
      if target ∈ targets then change (values read) target (values target)
      else values target := by
  induction targets generalizing values with
  | nil => simp only [List.foldl_nil, List.not_mem_nil, if_false]
  | cons head rest ih =>
      have readNe : read ≠ head := fun same => notRead (same ▸ List.mem_cons_self)
      have notInRest : read ∉ rest := fun inRest => notRead (List.mem_cons_of_mem head inRest)
      have headNotMem : head ∉ rest := (List.nodup_cons.mp distinct).1
      rw [List.foldl_cons, ih (List.nodup_cons.mp distinct).2 notInRest,
        Function.update_of_ne readNe]
      by_cases isHead : target = head
      · subst isHead
        rw [if_neg headNotMem, Function.update_self, if_pos List.mem_cons_self]
      · rw [Function.update_of_ne isHead]
        simp only [List.mem_cons, isHead, false_or]

end Update

end RangeLoop

/-!
## The first minimum of a scan

A loop that remembers the least value it has met, and the place where it met it
first, over the places that are still in play.
-/

namespace FirstMinimum

variable {Value : Type*} [LinearOrder Value] {live : Nat → Prop} [DecidablePred live]
  {value : Nat → Value} {top : Value} {count place other : Nat}

/-- One turn of the scan. -/
def keepLess (live : Nat → Prop) [DecidablePred live] (value : Nat → Value)
    (best : Value × Option Nat) (place : Nat) : Value × Option Nat :=
  if live place ∧ value place < best.1 then (value place, some place) else best

/-- A place in play has the least value, and every earlier one has a greater value. -/
structure IsFirst (live : Nat → Prop) (value : Nat → Value) (count place : Nat) : Prop where
  inRange : place < count
  inPlay : live place
  least : ∀ {other}, other < count → live other → value place ≤ value other
  first : ∀ {other}, other < place → live other → value place < value other

/-- What the scan knows after some turns. -/
structure Scanned (live : Nat → Prop) (value : Nat → Value) (top : Value) (count : Nat)
    (best : Value × Option Nat) : Prop where
  none_best : best.2 = none → best.1 = top
  none_le : best.2 = none → ∀ other < count, live other → top ≤ value other
  some_best : ∀ place, best.2 = some place → best.1 = value place
  some_first : ∀ place, best.2 = some place → IsFirst live value count place

theorem scanned_step {best : Value × Option Nat} (scanned : Scanned live value top count best) :
    Scanned live value top (count + 1) (keepLess live value best count) := by
  unfold keepLess
  split
  · rename_i better
    refine ⟨nofun, nofun, ?_, ?_⟩
    · rintro place ⟨⟩
      rfl
    · rintro place ⟨⟩
      have below : ∀ {other}, other < count → live other → value count < value other := by
        intro other inRange isLive
        cases found : best.2 with
        | none =>
            have least := scanned.none_le found other inRange isLive
            rw [scanned.none_best found] at better
            exact better.2.trans_le least
        | some place =>
            have least := (scanned.some_first place found).least inRange isLive
            rw [scanned.some_best place found] at better
            exact better.2.trans_le least
      refine ⟨Nat.lt_succ_self count, better.1, ?_, below⟩
      intro other inRange isLive
      rcases Nat.lt_succ_iff_lt_or_eq.mp inRange with earlier | rfl
      · exact (below earlier isLive).le
      · exact le_rfl
  · rename_i notBetter
    have kept : live count → best.1 ≤ value count :=
      fun isLive => not_lt.mp fun better => notBetter ⟨isLive, better⟩
    refine ⟨scanned.none_best, ?_, scanned.some_best, ?_⟩
    · intro found other inRange isLive
      rcases Nat.lt_succ_iff_lt_or_eq.mp inRange with earlier | rfl
      · exact scanned.none_le found other earlier isLive
      · exact scanned.none_best found ▸ kept isLive
    · intro place found
      have first := scanned.some_first place found
      refine ⟨Nat.lt_succ_of_lt first.inRange, first.inPlay, ?_, first.first⟩
      intro other inRange isLive
      rcases Nat.lt_succ_iff_lt_or_eq.mp inRange with earlier | rfl
      · exact first.least earlier isLive
      · exact scanned.some_best place found ▸ kept isLive

/-- The scan returns the first minimum of the values below its start value. -/
theorem scanned (live : Nat → Prop) [DecidablePred live] (value : Nat → Value) (top : Value)
    (count : Nat) :
    Scanned live value top count
      ((List.range count).foldl (keepLess live value) (top, none)) := by
  apply RangeLoop.invariant (Scanned live value top)
  · refine ⟨fun _ => rfl, ?_, ?_, ?_⟩
    · intro _ other inRange
      exact absurd inRange (Nat.not_lt_zero other)
    · rintro place ⟨⟩
    · rintro place ⟨⟩
  · intro turn best _ sofar
    exact scanned_step sofar

end FirstMinimum

end MiniIotRobotEdge

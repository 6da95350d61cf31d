import Mathlib.Algebra.BigOperators.Group.List.Basic
import Mathlib.Algebra.Ring.Int.Defs
import Mathlib.Data.List.Induction
import MiniIotRobotEdge.ControlPlcLadder
import MiniIotRobotEdge.StepRuns

/-!
# The counters of the ladder programs

What the counters show after any history of inputs and resets.  The edges of
the inputs are moves up and down; a counter is exact as long as its flags are
clear, and its flags are clear as long as the moves stay within 16 bits.
-/

namespace MiniIotRobotEdge

namespace Control

open StepRuns

def plcCounterReset (counter : PlcCounter) : PlcCounter :=
  { counter with accumulated := 0, done := false, overflow := false, underflow := false }

/-- A scan, with the levels that the two inputs have in it, or a reset. -/
inductive PlcCounterCall
  | scan (up down : Bool)
  | reset

def plcCounterCall (counter : PlcCounter) : PlcCounterCall → PlcCounter
  | .scan up down => plcUpdateCounter { counter with countUpInput := up, countDownInput := down }
  | .reset => plcCounterReset counter

/-- The levels of the inputs in the last scan, and the moves since the last reset. -/
structure Tally where
  up : Bool
  down : Bool
  moves : List Int

def PlcCounterType.countsUp : PlcCounterType → Bool
  | .ctd => false
  | _ => true

def PlcCounterType.countsDown : PlcCounterType → Bool
  | .ctu => false
  | _ => true

/-- The edges that a counter of this type sees in a scan, the edge up first. -/
def edges (type : PlcCounterType) (tally : Tally) (up down : Bool) : List Int :=
  (if type.countsUp && (up && !tally.up) then [1] else []) ++
    if type.countsDown && (down && !tally.down) then [-1] else []

def Tally.call (type : PlcCounterType) (tally : Tally) : PlcCounterCall → Tally
  | .scan up down => ⟨up, down, tally.moves ++ edges type tally up down⟩
  | .reset => { tally with moves := [] }

/-- What there is to count in a history. -/
def tallied (type : PlcCounterType) (calls : List PlcCounterCall) : Tally :=
  after (Tally.call type) ⟨false, false, []⟩ calls

/-- Every part of the way stays within 16 bits. -/
def InRange (moves : List Int) : Prop :=
  ∀ front, front <+: moves → 0 ≤ front.sum ∧ front.sum ≤ 65535

/-- The flags of a counter are clear. -/
def PlcCounter.Clear (counter : PlcCounter) : Prop :=
  counter.overflow = false ∧ counter.underflow = false

/-! ### Moves -/

/-- What the counter has of some moves. -/
structure Moved (counter : PlcCounter) (moves : List Int) : Prop where
  clear_iff : counter.Clear ↔ InRange moves
  exact : counter.Clear → (counter.accumulated : Int) = moves.sum
  bounded : counter.accumulated ≤ 65535

section Moves

variable {counter : PlcCounter} {moves : List Int}

theorem inRange_nil : InRange [] := by
  intro front isPrefix
  rw [List.prefix_nil.mp isPrefix, List.sum_nil]
  decide

theorem inRange_concat (moves : List Int) (move : Int) : InRange (moves ++ [move]) ↔
    InRange moves ∧ 0 ≤ moves.sum + move ∧ moves.sum + move ≤ 65535 := by
  have total : (moves ++ [move]).sum = moves.sum + move := by
    rw [List.sum_append, List.sum_singleton]
  constructor
  · intro inRange
    refine ⟨?_, total ▸ inRange _ List.prefix_rfl⟩
    intro front isPrefix
    exact inRange front (isPrefix.trans (List.prefix_append moves [move]))
  · rintro ⟨inRange, last⟩ front isPrefix
    rcases List.prefix_concat_iff.mp isPrefix with rfl | shorter
    · exact total ▸ last
    · exact inRange front shorter

theorem moved_fresh (clear : counter.Clear) (zero : counter.accumulated = 0) :
    Moved counter [] := by
  constructor
  case clear_iff => exact ⟨fun _ => inRange_nil, fun _ => clear⟩
  case exact =>
    intro _
    rw [zero]
    rfl
  case bounded =>
    rw [zero]
    exact Nat.zero_le _

/-- Only the count and the flags matter. -/
theorem Moved.of_same (moved : Moved counter moves) {other : PlcCounter}
    (accumulated : other.accumulated = counter.accumulated)
    (overflow : other.overflow = counter.overflow)
    (underflow : other.underflow = counter.underflow) : Moved other moves := by
  have sameClear : other.Clear ↔ counter.Clear := by
    rw [PlcCounter.Clear, PlcCounter.Clear, overflow, underflow]
  constructor
  case clear_iff => exact sameClear.trans moved.clear_iff
  case exact =>
    intro clear
    rw [accumulated]
    exact moved.exact (sameClear.mp clear)
  case bounded =>
    rw [accumulated]
    exact moved.bounded

/-- A flag that is set stays set, and more moves do not bring the others back. -/
theorem Moved.stuck (moved : Moved counter moves) (move : Int) {other : PlcCounter}
    (set : ¬ other.Clear) (bounded : other.accumulated ≤ 65535)
    (outside : counter.Clear → ¬ (0 ≤ moves.sum + move ∧ moves.sum + move ≤ 65535)) :
    Moved other (moves ++ [move]) := by
  constructor
  case clear_iff =>
    rw [inRange_concat]
    constructor
    · intro clear
      exact absurd clear set
    · rintro ⟨inRange, last⟩
      exact absurd last (outside (moved.clear_iff.mpr inRange))
  case exact => exact fun clear => absurd clear set
  case bounded => exact bounded

/-- A move that is counted. -/
theorem Moved.counted (moved : Moved counter moves) (move : Int) {other : PlcCounter}
    (overflow : other.overflow = counter.overflow)
    (underflow : other.underflow = counter.underflow) (bounded : other.accumulated ≤ 65535)
    (isMoved : (other.accumulated : Int) = counter.accumulated + move) :
    Moved other (moves ++ [move]) := by
  have sameClear : other.Clear ↔ counter.Clear := by
    rw [PlcCounter.Clear, PlcCounter.Clear, overflow, underflow]
  constructor
  case clear_iff =>
    rw [sameClear, moved.clear_iff, inRange_concat]
    constructor
    · intro inRange
      have sum := moved.exact (moved.clear_iff.mpr inRange)
      exact ⟨inRange, by omega, by omega⟩
    · exact And.left
  case exact =>
    intro clear
    rw [isMoved, moved.exact (sameClear.mp clear), List.sum_append, List.sum_singleton]
  case bounded => exact bounded

theorem Moved.countUp (moved : Moved counter moves) :
    Moved (counter.countUp true) (moves ++ [1]) := by
  have bounded := moved.bounded
  rw [PlcCounter.countUp]
  cases overflow : counter.overflow with
  | true =>
      have set : ¬ counter.Clear := fun clear => Bool.noConfusion (overflow.symm.trans clear.1)
      exact moved.stuck 1 set bounded fun clear => absurd clear set
  | false =>
      rw [if_pos (by decide)]
      split
      · rename_i room
        exact moved.counted 1 overflow.symm rfl (by dsimp only; omega) rfl
      · rename_i full
        refine moved.stuck 1 (fun clear => nomatch clear.1) bounded ?_
        intro clear
        have sum := moved.exact clear
        omega

theorem Moved.countDown (moved : Moved counter moves) :
    Moved (counter.countDown true) (moves ++ [-1]) := by
  have bounded := moved.bounded
  rw [PlcCounter.countDown]
  cases underflow : counter.underflow with
  | true =>
      have set : ¬ counter.Clear := fun clear => Bool.noConfusion (underflow.symm.trans clear.2)
      exact moved.stuck (-1) set bounded fun clear => absurd clear set
  | false =>
      rw [if_pos (by decide)]
      split
      · rename_i positive
        exact moved.counted (-1) rfl underflow.symm (by dsimp only; omega) (by dsimp only; omega)
      · rename_i zero
        refine moved.stuck (-1) (fun clear => nomatch clear.2) bounded ?_
        intro clear
        have sum := moved.exact clear
        omega

end Moves

/-! ### Scans -/

/-- The output that belongs to a count. -/
def PlcCounter.reached (type : PlcCounterType) (counter : PlcCounter) : Bool :=
  if type = .ctd then decide (counter.accumulated = 0)
  else decide (counter.preset ≤ counter.accumulated)

/-- A scan counts the edges that a counter of this type sees. -/
def PlcCounter.count (counter : PlcCounter) (type : PlcCounterType) (up down : Bool) : PlcCounter :=
  ({ counter with
      countUpInput := up, countDownInput := down, prevCu := up, prevCd := down }.countUp
        (type.countsUp && (up && !counter.prevCu))).countDown
          (type.countsDown && (down && !counter.prevCd))

theorem plcCounterCall_scan (counter : PlcCounter) (up down : Bool) :
    plcCounterCall counter (.scan up down) =
      { counter.count counter.type up down with
        done := (counter.count counter.type up down).reached counter.type } := by
  obtain ⟨name, type, preset, accumulated, done, overflow, underflow, upInput, downInput, prevCu,
    prevCd⟩ := counter
  cases type with
  | ctu => rfl
  | ctd => rfl
  | ctud => rfl

/-- What the counts leave alone. -/
theorem countUp_frame (counter : PlcCounter) (rising : Bool) :
    (counter.countUp rising).type = counter.type ∧
      (counter.countUp rising).preset = counter.preset ∧
      (counter.countUp rising).prevCu = counter.prevCu ∧
      (counter.countUp rising).prevCd = counter.prevCd := by
  rw [PlcCounter.countUp]
  split_ifs <;> exact ⟨rfl, rfl, rfl, rfl⟩

theorem countDown_frame (counter : PlcCounter) (rising : Bool) :
    (counter.countDown rising).type = counter.type ∧
      (counter.countDown rising).preset = counter.preset ∧
      (counter.countDown rising).prevCu = counter.prevCu ∧
      (counter.countDown rising).prevCd = counter.prevCd := by
  rw [PlcCounter.countDown]
  split_ifs <;> exact ⟨rfl, rfl, rfl, rfl⟩

theorem count_frame (counter : PlcCounter) (type : PlcCounterType) (up down : Bool) :
    (counter.count type up down).type = counter.type ∧
      (counter.count type up down).preset = counter.preset ∧
      (counter.count type up down).prevCu = up ∧
      (counter.count type up down).prevCd = down := by
  obtain ⟨downType, downPreset, downUp, downDown⟩ := countDown_frame
    ({ counter with
      countUpInput := up, countDownInput := down, prevCu := up, prevCd := down }.countUp
        (type.countsUp && (up && !counter.prevCu))) (type.countsDown && (down && !counter.prevCd))
  obtain ⟨upType, upPreset, upUp, upDown⟩ := countUp_frame
    { counter with
      countUpInput := up, countDownInput := down, prevCu := up, prevCd := down }
        (type.countsUp && (up && !counter.prevCu))
  exact ⟨downType.trans upType, downPreset.trans upPreset, downUp.trans upUp,
    downDown.trans upDown⟩

/-- What a counter shows of a history. -/
structure Tallied (type : PlcCounterType) (preset : Nat) (counter : PlcCounter) (tally : Tally) :
    Prop where
  type : counter.type = type
  preset : counter.preset = preset
  up : counter.prevCu = tally.up
  down : counter.prevCd = tally.down
  moved : Moved counter tally.moves

section Scans

variable {type : PlcCounterType} {preset : Nat} {counter : PlcCounter} {tally : Tally}

theorem Moved.count {moves : List Int} (moved : Moved counter moves) (type : PlcCounterType)
    (up down : Bool) : Moved (counter.count type up down)
      (moves ++ edges type ⟨counter.prevCu, counter.prevCd, moves⟩ up down) := by
  have seen : Moved { counter with
      countUpInput := up, countDownInput := down, prevCu := up, prevCd := down } moves :=
    moved.of_same rfl rfl rfl
  have afterUp : ∀ rising, Moved ({ counter with
      countUpInput := up, countDownInput := down, prevCu := up, prevCd := down }.countUp rising)
        (moves ++ if rising then [1] else []) := by
    intro rising
    cases rising with
    | false => rwa [if_neg (by decide), List.append_nil]
    | true => exact seen.countUp
  have afterDown : ∀ {counter moves} rising, Moved counter moves →
      Moved (counter.countDown rising) (moves ++ if rising then [-1] else []) := by
    intro counter moves rising moved
    cases rising with
    | false => rwa [if_neg (by decide), List.append_nil]
    | true => exact moved.countDown
  have both := afterDown (type.countsDown && (down && !counter.prevCd))
    (afterUp (type.countsUp && (up && !counter.prevCu)))
  rwa [List.append_assoc] at both

theorem Tallied.call (shows : Tallied type preset counter tally) (call : PlcCounterCall) :
    Tallied type preset (plcCounterCall counter call) (tally.call type call) := by
  cases call with
  | scan up down =>
      obtain ⟨sameType, samePreset, isUp, isDown⟩ := count_frame counter counter.type up down
      have counted := shows.moved.count counter.type up down
      rw [plcCounterCall_scan]
      constructor
      case type => exact sameType.trans shows.type
      case preset => exact samePreset.trans shows.preset
      case up => exact isUp
      case down => exact isDown
      case moved =>
        rw [shows.up, shows.down, shows.type] at counted
        rw [shows.type]
        exact counted.of_same rfl rfl rfl
  | reset =>
      constructor
      case type => exact shows.type
      case preset => exact shows.preset
      case up => exact shows.up
      case down => exact shows.down
      case moved => exact moved_fresh ⟨rfl, rfl⟩ rfl

theorem tallied_after {rung : PlcRung} {name : List Char}
    (added : (plcAddCounter rung name type preset).counters = rung.counters ++ [counter])
    (calls : List PlcCounterCall) :
    Tallied type preset (after plcCounterCall counter calls) (tallied type calls) := by
  induction calls using List.reverseRecOn with
  | nil =>
      rw [plcAddCounter] at added
      split at added
      · have length := congrArg List.length added
        simp at length
      · obtain rfl := List.singleton_inj.mp (List.append_cancel_left added)
        exact ⟨rfl, rfl, rfl, rfl, moved_fresh ⟨rfl, rfl⟩ rfl⟩
  | append_singleton calls call ih =>
      rw [after, tallied, after, List.foldl_append, List.foldl_append]
      exact ih.call call

/-- A counter that counts down starts at its end. -/
theorem count_ctd (zero : counter.accumulated = 0) (up down : Bool) :
    (counter.count .ctd up down).accumulated = 0 := by
  rw [PlcCounter.count]
  simp only [PlcCounterType.countsUp, Bool.false_and, PlcCounter.countUp, Bool.false_eq_true,
    if_false, PlcCounter.countDown]
  split_ifs with falling positive
  · exact absurd zero positive.ne'
  · exact zero
  · exact zero

theorem ctd_after (calls : List PlcCounterCall) (isCtd : counter.type = .ctd)
    (zero : counter.accumulated = 0) :
    (after plcCounterCall counter calls).accumulated = 0 := by
  induction calls generalizing counter with
  | nil => exact zero
  | cons call calls ih =>
      cases call with
      | scan up down =>
          have sameType := (count_frame counter counter.type up down).1
          apply ih
          · rw [plcCounterCall_scan]
            exact sameType.trans isCtd
          · rw [plcCounterCall_scan, isCtd]
            exact count_ctd zero up down
      | reset => exact ih isCtd rfl

/-- A counter that has overflown does not count up any more, and one that has underflown does
not count down. -/
theorem count_stuck (type : PlcCounterType) (up down : Bool) :
    (counter.overflow = true → (counter.count type up down).overflow = true ∧
      (counter.count type up down).accumulated ≤ counter.accumulated) ∧
    (counter.underflow = true → (counter.count type up down).underflow = true ∧
      counter.accumulated ≤ (counter.count type up down).accumulated) := by
  rw [PlcCounter.count]
  constructor
  · intro overflow
    simp only [PlcCounter.countUp, overflow, Bool.not_true, Bool.and_false, Bool.false_eq_true,
      if_false, PlcCounter.countDown]
    split_ifs
    · exact ⟨rfl, Nat.sub_le ..⟩
    · exact ⟨rfl, Nat.le_refl _⟩
    · exact ⟨rfl, Nat.le_refl _⟩
  · intro underflow
    simp only [PlcCounter.countUp]
    split_ifs
    · simp only [PlcCounter.countDown, underflow, Bool.not_true, Bool.and_false,
        Bool.false_eq_true, if_false]
      exact ⟨trivial, Nat.le_succ _⟩
    · simp only [PlcCounter.countDown, underflow, Bool.not_true, Bool.and_false,
        Bool.false_eq_true, if_false]
      exact ⟨trivial, Nat.le_refl _⟩
    · simp only [PlcCounter.countDown, underflow, Bool.not_true, Bool.and_false,
        Bool.false_eq_true, if_false]
      exact ⟨trivial, Nat.le_refl _⟩

theorem after_stuck {calls : List PlcCounterCall} (noReset : .reset ∉ calls) :
    (counter.overflow = true →
      (after plcCounterCall counter calls).accumulated ≤ counter.accumulated) ∧
    (counter.underflow = true →
      counter.accumulated ≤ (after plcCounterCall counter calls).accumulated) := by
  induction calls generalizing counter with
  | nil => exact ⟨fun _ => Nat.le_refl _, fun _ => Nat.le_refl _⟩
  | cons call calls ih =>
      obtain ⟨notReset, rest⟩ := not_or.mp (mt List.mem_cons.mpr noReset)
      cases call with
      | reset => exact absurd rfl notReset
      | scan up down =>
          obtain ⟨full, empty⟩ := @count_stuck counter counter.type up down
          have next := @ih (plcCounterCall counter (.scan up down)) rest
          rw [after_cons]
          rw [plcCounterCall_scan] at next ⊢
          exact ⟨fun overflow => (next.1 (full overflow).1).trans (full overflow).2,
            fun underflow => (empty underflow).2.trans (next.2 (empty underflow).1)⟩

end Scans

/-- Over every history of inputs and resets, the flags of a counter are clear exactly as long as
the edges since the last reset stay within 16 bits, and then it shows how many of them go up
more than down; a scan shows whether the count has reached its end.  A flag that is set stops
its direction until the next reset, and a counter that counts down is at its end from the
start. -/
theorem plcCounter_counts (rung : PlcRung) (name : List Char) (type : PlcCounterType)
    (preset : Nat) (counter : PlcCounter) (calls : List PlcCounterCall)
    (added : (plcAddCounter rung name type preset).counters = rung.counters ++ [counter]) :
    ((after plcCounterCall counter calls).Clear ↔ InRange (tallied type calls).moves) ∧
      ((after plcCounterCall counter calls).Clear →
        ((after plcCounterCall counter calls).accumulated : Int) =
          (tallied type calls).moves.sum) ∧
      (∀ up down, (after plcCounterCall counter (calls ++ [.scan up down])).done =
        if type = .ctd then
          decide ((after plcCounterCall counter (calls ++ [.scan up down])).accumulated = 0)
        else decide (preset ≤
          (after plcCounterCall counter (calls ++ [.scan up down])).accumulated)) ∧
      (∀ more, .reset ∉ more →
        ((after plcCounterCall counter calls).overflow = true →
          (after plcCounterCall counter (calls ++ more)).accumulated ≤
            (after plcCounterCall counter calls).accumulated) ∧
        ((after plcCounterCall counter calls).underflow = true →
          (after plcCounterCall counter calls).accumulated ≤
            (after plcCounterCall counter (calls ++ more)).accumulated)) ∧
      (type = .ctd → (after plcCounterCall counter calls).accumulated = 0) := by
  have shows := tallied_after added calls
  refine ⟨shows.moved.clear_iff, shows.moved.exact, ?_, ?_, ?_⟩
  · intro up down
    have later := tallied_after added (calls ++ [.scan up down])
    have isScan : after plcCounterCall counter (calls ++ [.scan up down]) =
        plcCounterCall (after plcCounterCall counter calls) (.scan up down) :=
      List.foldl_append ..
    rw [← later.preset, isScan, plcCounterCall_scan, shows.type]
    rfl
  · intro more noReset
    have joined : after plcCounterCall counter (calls ++ more) =
        after plcCounterCall (after plcCounterCall counter calls) more :=
      List.foldl_append ..
    rw [joined]
    exact after_stuck noReset
  · rintro rfl
    have start := tallied_after added []
    have zero := start.moved.exact (start.moved.clear_iff.mpr inRange_nil)
    exact ctd_after calls start.type (Int.natCast_eq_zero.mp zero)

/-- Two edges up and one down. -/
theorem plcCounter_counts_three :
    ((after plcCounterCall ⟨['C'], .ctud, 2, 0, false, false, false, false, false, false, false⟩
      [.scan true false, .scan false true, .scan true true]).accumulated : Int) = 1 :=
  (plcCounter_counts ⟨[], [], [], [], false⟩ ['C'] .ctud 2
    ⟨['C'], .ctud, 2, 0, false, false, false, false, false, false, false⟩
    [.scan true false, .scan false true, .scan true true] rfl).2.1 ⟨rfl, rfl⟩

end Control

end MiniIotRobotEdge

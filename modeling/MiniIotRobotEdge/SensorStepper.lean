import Mathlib.Algebra.Order.Ring.Rat
import Mathlib.Data.Fintype.Basic

/-!
# Stepper motors

The model of the `mhi_stepper_motor` functions in `actuator_driver.c`, and of a
rotor that follows the coils.  Positions do not overflow.  A rotor has eight
angles in a turn of the field; it goes to the nearest place at the angle that
the coils have, and stays where it is when the field points the other way.
-/

namespace MiniIotRobotEdge

namespace Sensor

inductive MhiStepMode
  | full | half | micro4 | micro8 | micro16 | micro32
  deriving DecidableEq

/-- The levels of the pins `coil_a1`, `coil_a2`, `coil_b1` and `coil_b2`. -/
structure Coils where
  a1 : Bool
  a2 : Bool
  b1 : Bool
  b2 : Bool
  deriving DecidableEq

structure MhiStepperMotor where
  mode : MhiStepMode
  position : Int
  targetPosition : Int
  speedStepsPerS : ℚ
  stepIntervalUs : UInt32
  enabled : Bool
  emergencyStop : Bool
  lastStepUs : UInt32

/-- A row of `s_step_full`. -/
def sStepFull : Fin 8 → Coils
  | 0 => ⟨true, false, true, false⟩
  | 1 => ⟨true, false, false, true⟩
  | 2 => ⟨false, true, false, true⟩
  | 3 => ⟨false, true, true, false⟩
  | 4 => ⟨false, true, true, false⟩
  | 5 => ⟨false, true, false, true⟩
  | 6 => ⟨true, false, false, true⟩
  | 7 => ⟨true, false, true, false⟩

/-- A row of `s_step_half`. -/
def sStepHalf : Fin 8 → Coils
  | 0 => ⟨true, false, false, false⟩
  | 1 => ⟨true, false, true, false⟩
  | 2 => ⟨false, false, true, false⟩
  | 3 => ⟨false, true, true, false⟩
  | 4 => ⟨false, true, false, false⟩
  | 5 => ⟨false, true, false, true⟩
  | 6 => ⟨false, false, false, true⟩
  | 7 => ⟨true, false, false, true⟩

def mhiStepperMotorInit : MhiStepperMotor where
  mode := .full
  position := 0
  targetPosition := 0
  speedStepsPerS := 100
  stepIntervalUs := 10000
  enabled := false
  emergencyStop := false
  lastStepUs := 0

def mhiStepperMotorDeinit (motor : MhiStepperMotor) : MhiStepperMotor :=
  { motor with enabled := false }

def mhiStepperMotorSetMode (motor : MhiStepperMotor) (mode : MhiStepMode) : MhiStepperMotor :=
  { motor with mode := mode }

def mhiStepperMotorMoveTo (motor : MhiStepperMotor) (position : Int) : MhiStepperMotor :=
  { motor with targetPosition := position, enabled := true }

def mhiStepperMotorMoveSteps (motor : MhiStepperMotor) (steps : Int) : MhiStepperMotor :=
  { motor with targetPosition := motor.position + steps, enabled := true }

def mhiStepperMotorSetSpeed (motor : MhiStepperMotor) (stepsPerS : ℚ) : MhiStepperMotor :=
  if stepsPerS ≤ 0 then motor
  else
    { motor with
      speedStepsPerS := stepsPerS
      stepIntervalUs := UInt32.ofNat (1000000 / stepsPerS).floor.toNat }

def mhiStepperMotorEmergencyStop (motor : MhiStepperMotor) : MhiStepperMotor :=
  { motor with emergencyStop := true, enabled := false }

/-- The row of the table that belongs to a position: `position & 0x07u`. -/
def stepIdx (position : Int) : Fin 8 := ⟨(position % 8).toNat, by omega⟩

def stepTable : MhiStepMode → Fin 8 → Coils
  | .full => sStepFull
  | _ => sStepHalf

/-- The motor, and the levels that are written unless the function returns before. -/
def mhiStepperMotorTick (globalEstop : Bool) (motor : MhiStepperMotor) (nowUs : UInt32) :
    MhiStepperMotor × Option Coils :=
  if !motor.enabled || motor.emergencyStop || globalEstop then (motor, none)
  else if motor.position = motor.targetPosition then ({ motor with enabled := false }, none)
  else if nowUs - motor.lastStepUs < motor.stepIntervalUs then (motor, none)
  else
    let direction := if motor.position < motor.targetPosition then 1 else -1
    let position := motor.position + direction
    ({ motor with lastStepUs := nowUs, position := position },
      some (stepTable motor.mode (stepIdx position)))

/-! ### The rotor -/

/-- The angle of the field, in eighths of a turn, if there is a field. -/
def Coils.angle : Coils → Option Int
  | ⟨true, false, false, false⟩ => some 0
  | ⟨true, false, true, false⟩ => some 1
  | ⟨false, false, true, false⟩ => some 2
  | ⟨false, true, true, false⟩ => some 3
  | ⟨false, true, false, false⟩ => some 4
  | ⟨false, true, false, true⟩ => some 5
  | ⟨false, false, false, true⟩ => some 6
  | ⟨true, false, false, true⟩ => some 7
  | _ => none

/-- Where the field takes a rotor. -/
def follow (rotor : Int) (coils : Coils) : Int :=
  match coils.angle with
  | none => rotor
  | some angle =>
      let ahead := (angle - rotor) % 8
      if ahead < 4 then rotor + ahead else if 4 < ahead then rotor + ahead - 8 else rotor

/-- The functions that are called, with what they are called with. -/
inductive StepperCall
  | deinit
  | setMode (mode : MhiStepMode)
  | moveTo (position : Int)
  | moveSteps (steps : Int)
  | setSpeed (stepsPerS : ℚ)
  | emergencyStop
  | emergencyStopAll
  | emergencyResumeAll
  | tick (nowUs : UInt32)

/-- The motor, the flag `s_global_estop` and the rotor. -/
structure Bench where
  motor : MhiStepperMotor
  globalEstop : Bool
  rotor : Int

def stepperCall (bench : Bench) : StepperCall → Bench
  | .deinit => { bench with motor := mhiStepperMotorDeinit bench.motor }
  | .setMode mode => { bench with motor := mhiStepperMotorSetMode bench.motor mode }
  | .moveTo position => { bench with motor := mhiStepperMotorMoveTo bench.motor position }
  | .moveSteps steps => { bench with motor := mhiStepperMotorMoveSteps bench.motor steps }
  | .setSpeed stepsPerS => { bench with motor := mhiStepperMotorSetSpeed bench.motor stepsPerS }
  | .emergencyStop => { bench with motor := mhiStepperMotorEmergencyStop bench.motor }
  | .emergencyStopAll => { bench with globalEstop := true }
  | .emergencyResumeAll => { bench with globalEstop := false }
  | .tick nowUs =>
      let (motor, written) := mhiStepperMotorTick bench.globalEstop bench.motor nowUs
      { bench with motor := motor, rotor := (written.map (follow bench.rotor)).getD bench.rotor }

/-- A motor that has not moved. -/
def benchStart : Bench := ⟨mhiStepperMotorInit, false, 0⟩

def benchAfter (bench : Bench) (calls : List StepperCall) : Bench := calls.foldl stepperCall bench

/-! ### One step -/

/-- What a tick does: nothing but disable the motor, or one step towards the target. -/
inductive Ticked (globalEstop : Bool) (nowUs : UInt32) (motor : MhiStepperMotor) :
    MhiStepperMotor × Option Coils → Prop
  | rests (enabled : Bool) (still : motor.enabled = false → enabled = false) :
      Ticked globalEstop nowUs motor ({ motor with enabled := enabled }, none)
  | steps (direction : Int)
      (runs : motor.enabled = true ∧ motor.emergencyStop = false ∧ globalEstop = false)
      (late : motor.stepIntervalUs ≤ nowUs - motor.lastStepUs)
      (towards : direction = 1 ∧ motor.position < motor.targetPosition ∨
        direction = -1 ∧ motor.targetPosition < motor.position) :
      Ticked globalEstop nowUs motor
        ({ motor with lastStepUs := nowUs, position := motor.position + direction },
          some (stepTable motor.mode (stepIdx (motor.position + direction))))

theorem mhiStepperMotorTick_ticked (globalEstop : Bool) (motor : MhiStepperMotor)
    (nowUs : UInt32) :
    Ticked globalEstop nowUs motor (mhiStepperMotorTick globalEstop motor nowUs) := by
  unfold mhiStepperMotorTick
  split
  · exact .rests motor.enabled id
  · rename_i runs
    simp only [Bool.or_eq_true, Bool.not_eq_true', not_or, Bool.not_eq_false,
      Bool.not_eq_true] at runs
    split
    · exact .rests false fun _ => rfl
    · rename_i apart
      split
      · exact .rests motor.enabled id
      · rename_i late
        rw [UInt32.not_lt] at late
        refine .steps _ ⟨runs.1.1, runs.1.2, runs.2⟩ late ?_
        split
        · rename_i ahead
          exact .inl ⟨rfl, ahead⟩
        · rename_i behind
          exact .inr ⟨rfl, lt_of_le_of_ne (not_lt.mp behind) (Ne.symm apart)⟩

theorem angle_half : ∀ i : Fin 8, (sStepHalf i).angle = some (i.val : Int) := by decide

theorem stepIdx_val (position : Int) : ((stepIdx position).val : Int) = position % 8 := by
  simp only [stepIdx]
  omega

/-- In half steps the rotor is taken along. -/
theorem follow_half (position : Int) {direction : Int} (unit : direction = 1 ∨ direction = -1) :
    follow position (sStepHalf (stepIdx (position + direction))) = position + direction := by
  rw [follow, angle_half]
  dsimp only
  rw [stepIdx_val]
  rcases unit with rfl | rfl
  · split_ifs <;> omega
  · split_ifs <;> omega

/-- Where full steps leave the rotor: the table goes down and up again. -/
def fullPlace : Fin 8 → Int
  | 0 => 1 | 1 => -1 | 2 => -3 | 3 => -5 | 4 => -5 | 5 => -3 | 6 => -1 | 7 => 1

theorem follow_full_up : ∀ i, follow (fullPlace i) (sStepFull (i + 1)) = fullPlace (i + 1) := by
  decide

theorem follow_full_down : ∀ i, follow (fullPlace (i + 1)) (sStepFull i) = fullPlace i := by
  decide

theorem follow_full_first : follow 0 (sStepFull 1) = fullPlace 1 ∧
    follow 0 (sStepFull 7) = fullPlace 7 := by
  decide

theorem fullPlace_bounds : ∀ i, -5 ≤ fullPlace i ∧ fullPlace i ≤ 1 := by
  decide

theorem stepIdx_add_one (position : Int) : stepIdx (position + 1) = stepIdx position + 1 := by
  apply Fin.ext
  rw [Fin.val_add]
  simp only [stepIdx, Fin.val_one]
  omega

/-- The places of the rotor when the motor makes full steps only. -/
def OnFullPlace (bench : Bench) : Prop :=
  bench.rotor = fullPlace (stepIdx bench.motor.position) ∨
    bench.motor.position = 0 ∧ bench.rotor = 0

theorem OnFullPlace.follow {bench : Bench} (onPlace : OnFullPlace bench) {direction : Int}
    (unit : direction = 1 ∨ direction = -1) :
    Sensor.follow bench.rotor (sStepFull (stepIdx (bench.motor.position + direction))) =
      fullPlace (stepIdx (bench.motor.position + direction)) := by
  rcases onPlace with isPlace | ⟨atStart, isStart⟩
  · rw [isPlace]
    rcases unit with rfl | rfl
    · rw [stepIdx_add_one]
      exact follow_full_up _
    · have back : stepIdx bench.motor.position = stepIdx (bench.motor.position + -1) + 1 := by
        rw [← stepIdx_add_one, Int.neg_add_cancel_right]
      rw [back]
      exact follow_full_down _
  · rw [atStart, isStart]
    rcases unit with rfl | rfl
    · exact follow_full_first.1
    · exact follow_full_first.2

/-! ### Runs -/

section Runs

variable {bench : Bench} {calls : List StepperCall}

theorem benchAfter_concat (bench : Bench) (calls : List StepperCall) (call : StepperCall) :
    benchAfter bench (calls ++ [call]) = stepperCall (benchAfter bench calls) call :=
  List.foldl_append ..

/-- What every call of a run keeps holds behind it. -/
theorem benchAfter_invariant (motive : Bench → Prop)
    (kept : ∀ bench, ∀ call ∈ calls, motive bench → motive (stepperCall bench call))
    (start : motive bench) : motive (benchAfter bench calls) := by
  induction calls generalizing bench with
  | nil => exact start
  | cons call calls ih =>
      apply ih
      · intro bench other listed
        exact kept bench other (List.mem_cons_of_mem call listed)
      · exact kept bench call List.mem_cons_self start

/-- The rotor is where the motor counts it. -/
def Tracks (bench : Bench) : Prop := bench.motor.mode ≠ .full ∧ bench.rotor = bench.motor.position

theorem Tracks.call (tracks : Tracks bench) {call : StepperCall}
    (notFull : call ≠ .setMode .full) : Tracks (stepperCall bench call) := by
  cases call with
  | setMode mode => exact ⟨fun isFull => notFull (congrArg _ isFull), tracks.2⟩
  | setSpeed stepsPerS =>
      dsimp only [stepperCall, mhiStepperMotorSetSpeed]
      split
      · exact tracks
      · exact tracks
  | tick nowUs =>
      have ticked := mhiStepperMotorTick_ticked bench.globalEstop bench.motor nowUs
      rw [stepperCall]
      generalize mhiStepperMotorTick bench.globalEstop bench.motor nowUs = outcome at ticked ⊢
      cases ticked with
      | rests => exact tracks
      | steps direction _ _ towards =>
          obtain ⟨notFullMode, isPosition⟩ := tracks
          have halfTable : stepTable bench.motor.mode = sStepHalf := by
            cases mode : bench.motor.mode with
            | full => exact absurd mode notFullMode
            | half => rfl
            | micro4 => rfl
            | micro8 => rfl
            | micro16 => rfl
            | micro32 => rfl
          refine ⟨notFullMode, ?_⟩
          dsimp only [Option.map_some, Option.getD_some]
          rw [halfTable, isPosition]
          exact follow_half _ (towards.imp And.left And.left)
  | deinit => exact tracks
  | moveTo => exact tracks
  | moveSteps => exact tracks
  | emergencyStop => exact tracks
  | emergencyStopAll => exact tracks
  | emergencyResumeAll => exact tracks

/-- Full steps only. -/
def FullSteps (bench : Bench) : Prop := bench.motor.mode = .full ∧ OnFullPlace bench

theorem FullSteps.call (fullSteps : FullSteps bench) {call : StepperCall}
    (onlyFull : ∀ mode, call = .setMode mode → mode = .full) :
    FullSteps (stepperCall bench call) := by
  cases call with
  | setMode mode => exact ⟨onlyFull mode rfl, fullSteps.2⟩
  | setSpeed stepsPerS =>
      dsimp only [stepperCall, mhiStepperMotorSetSpeed]
      split
      · exact fullSteps
      · exact fullSteps
  | tick nowUs =>
      have ticked := mhiStepperMotorTick_ticked bench.globalEstop bench.motor nowUs
      rw [stepperCall]
      generalize mhiStepperMotorTick bench.globalEstop bench.motor nowUs = outcome at ticked ⊢
      cases ticked with
      | rests => exact fullSteps
      | steps direction _ _ towards =>
          refine ⟨fullSteps.1, .inl ?_⟩
          dsimp only [Option.map_some, Option.getD_some]
          rw [fullSteps.1]
          exact fullSteps.2.follow (towards.imp And.left And.left)
  | deinit => exact fullSteps
  | moveTo => exact fullSteps
  | moveSteps => exact fullSteps
  | emergencyStop => exact fullSteps
  | emergencyStopAll => exact fullSteps
  | emergencyResumeAll => exact fullSteps

theorem FullSteps.bounds (fullSteps : FullSteps bench) : -5 ≤ bench.rotor ∧ bench.rotor ≤ 1 := by
  rcases fullSteps.2 with isPlace | ⟨_, isStart⟩
  · rw [isPlace]
    exact fullPlace_bounds _
  · rw [isStart]
    decide

/-- A stopped motor at a place. -/
def StoppedAt (position rotor : Int) (bench : Bench) : Prop :=
  bench.motor.emergencyStop = true ∧ bench.motor.position = position ∧ bench.rotor = rotor

theorem StoppedAt.call {position rotor : Int} (stopped : StoppedAt position rotor bench)
    (call : StepperCall) : StoppedAt position rotor (stepperCall bench call) := by
  cases call with
  | setSpeed stepsPerS =>
      dsimp only [stepperCall, mhiStepperMotorSetSpeed]
      split
      · exact stopped
      · exact stopped
  | tick nowUs =>
      have ticked := mhiStepperMotorTick_ticked bench.globalEstop bench.motor nowUs
      rw [stepperCall]
      generalize mhiStepperMotorTick bench.globalEstop bench.motor nowUs = outcome at ticked ⊢
      cases ticked with
      | rests => exact stopped
      | steps direction runs =>
          rw [stopped.1] at runs
          exact nomatch runs.2.1
  | emergencyStop => exact ⟨rfl, stopped.2⟩
  | setMode => exact stopped
  | deinit => exact stopped
  | moveTo => exact stopped
  | moveSteps => exact stopped
  | emergencyStopAll => exact stopped
  | emergencyResumeAll => exact stopped

end Runs

/-- In half steps the rotor goes where the motor counts it, over every run.  In full steps it
never leaves the first turn of the field, wherever the motor counts it.  An emergency stop of
the motor is final. -/
theorem stepper_runs (calls : List StepperCall) :
    (∀ mode, mode ≠ .full → .setMode .full ∉ calls →
        (benchAfter benchStart (.setMode mode :: calls)).rotor =
          (benchAfter benchStart (.setMode mode :: calls)).motor.position) ∧
      ((∀ mode, .setMode mode ∈ calls → mode = .full) →
        -5 ≤ (benchAfter benchStart calls).rotor ∧ (benchAfter benchStart calls).rotor ≤ 1) ∧
      ∀ bench, (benchAfter bench (.emergencyStop :: calls)).motor.position = bench.motor.position ∧
        (benchAfter bench (.emergencyStop :: calls)).rotor = bench.rotor := by
  refine ⟨?_, ?_, ?_⟩
  · intro mode notFull noneFull
    have started : Tracks (stepperCall benchStart (.setMode mode)) := ⟨notFull, rfl⟩
    have tracks : Tracks (benchAfter (stepperCall benchStart (.setMode mode)) calls) := by
      apply benchAfter_invariant Tracks _ started
      intro bench call listed before
      exact before.call fun isFull => noneFull (isFull ▸ listed)
    exact tracks.2
  · intro onlyFull
    have started : FullSteps benchStart := ⟨rfl, .inr ⟨rfl, rfl⟩⟩
    have fullSteps : FullSteps (benchAfter benchStart calls) := by
      apply benchAfter_invariant FullSteps _ started
      intro bench call listed before
      exact before.call fun mode isMode => onlyFull mode (isMode ▸ listed)
    exact fullSteps.bounds
  · intro bench
    have started : StoppedAt bench.motor.position bench.rotor
        (stepperCall bench .emergencyStop) := ⟨rfl, rfl, rfl⟩
    have stopped : StoppedAt bench.motor.position bench.rotor
        (benchAfter (stepperCall bench .emergencyStop) calls) :=
      benchAfter_invariant _ (fun _ call _ before => before.call call) started
    exact stopped.2

/-! ### Arrival -/

/-- Ticks that are an interval apart from each other, on a clock that wraps around. -/
def Late (intervalUs : UInt32) : UInt32 → List UInt32 → Prop
  | _, [] => True
  | last, now :: rest => intervalUs ≤ now - last ∧ Late intervalUs now rest

/-- A motor that no emergency stop holds. -/
def Runs (bench : Bench) : Prop :=
  bench.motor.enabled = true ∧ bench.motor.emergencyStop = false ∧ bench.globalEstop = false

/-- How many steps there are to the target. -/
def stepsLeft (motor : MhiStepperMotor) : Nat := (motor.targetPosition - motor.position).natAbs

section Arrival

variable {bench : Bench} {ticks : List UInt32} {nowUs : UInt32}

theorem Runs.not_held (runs : Runs bench) :
    ¬ (!bench.motor.enabled || bench.motor.emergencyStop || bench.globalEstop) = true := by
  rw [runs.1, runs.2.1, runs.2.2]
  decide

/-- A tick that is late enough is one step less. -/
theorem Runs.tick (runs : Runs bench) (apart : 0 < stepsLeft bench.motor)
    (late : bench.motor.stepIntervalUs ≤ nowUs - bench.motor.lastStepUs) :
    Runs (stepperCall bench (.tick nowUs)) ∧
      (stepperCall bench (.tick nowUs)).motor.stepIntervalUs = bench.motor.stepIntervalUs ∧
      (stepperCall bench (.tick nowUs)).motor.lastStepUs = nowUs ∧
      (stepperCall bench (.tick nowUs)).motor.targetPosition = bench.motor.targetPosition ∧
      stepsLeft (stepperCall bench (.tick nowUs)).motor + 1 = stepsLeft bench.motor := by
  have notThere : bench.motor.position ≠ bench.motor.targetPosition := by
    intro there
    rw [stepsLeft, there, Int.sub_self] at apart
    exact Nat.lt_irrefl 0 apart
  rw [stepperCall, mhiStepperMotorTick, if_neg runs.not_held, if_neg notThere,
    if_neg (UInt32.not_lt.mpr late)]
  refine ⟨runs, rfl, rfl, rfl, ?_⟩
  dsimp only [stepsLeft]
  split
  · omega
  · omega

theorem Runs.tick_all (runs : Runs bench)
    (late : Late bench.motor.stepIntervalUs bench.motor.lastStepUs ticks)
    (enough : ticks.length ≤ stepsLeft bench.motor) :
    Runs (benchAfter bench (ticks.map .tick)) ∧
      (benchAfter bench (ticks.map .tick)).motor.targetPosition = bench.motor.targetPosition ∧
      stepsLeft (benchAfter bench (ticks.map .tick)).motor + ticks.length =
        stepsLeft bench.motor := by
  induction ticks generalizing bench with
  | nil => exact ⟨runs, rfl, rfl⟩
  | cons nowUs ticks ih =>
      rw [List.length_cons] at enough ⊢
      obtain ⟨nextRuns, sameInterval, lastStep, sameTarget, fewer⟩ :=
        runs.tick (by omega) late.1
      have nextLate : Late (stepperCall bench (.tick nowUs)).motor.stepIntervalUs
          (stepperCall bench (.tick nowUs)).motor.lastStepUs ticks := by
        rw [sameInterval, lastStep]
        exact late.2
      obtain ⟨lastRuns, lastTarget, left⟩ := ih nextRuns nextLate (by omega)
      exact ⟨lastRuns, lastTarget.trans sameTarget, by
        rw [List.map_cons]
        exact (congrArg Nat.succ left).trans fewer⟩

end Arrival

end Sensor

end MiniIotRobotEdge

import Mathlib.Algebra.Group.Nat.Defs
import Mathlib.Data.List.Basic
import Mathlib.Logic.Function.Basic
import Mathlib.Tactic.SplitIfs
import MiniIotRobotEdge.StepRuns

/-!
# The ladder programs of mini-industrial-control

The model of `plc_ladder.c`: how a program is built, and one scan cycle.  The
state of an output is kept in every coil that drives it, and read back from the
first coil found; the image table of the outputs, one bit an address, is the
abstract model.  A scan keeps the two in agreement exactly when, on every
address, the last coil that assigns a value assigns the one of the first coil.
-/

namespace MiniIotRobotEdge

namespace Control

open StepRuns

def plcMaxRungs : Nat := 128
def plcMaxContacts : Nat := 16
def plcMaxCoils : Nat := 16
def plcMaxTimers : Nat := 32
def plcMaxCounters : Nat := 32
def plcMaxNameLen : Nat := 32
def plcScanPeriodMs : Nat := 10

inductive PlcContactType
  | no
  | nc
  deriving DecidableEq, Repr

inductive PlcCoilType
  | output
  | internal
  | latchSet
  | latchReset
  deriving DecidableEq, Repr

inductive PlcTimerType
  | ton
  | tof
  | tp
  deriving DecidableEq, Repr

inductive PlcCounterType
  | ctu
  | ctd
  | ctud
  deriving DecidableEq, Repr

inductive PlcScanPhase
  | inputs
  | program
  | outputs
  | housekeeping
  deriving DecidableEq, Repr

structure PlcContact where
  name : List Char
  type : PlcContactType
  address : Nat
  state : Bool
  deriving DecidableEq, Repr

structure PlcCoil where
  name : List Char
  type : PlcCoilType
  address : Nat
  state : Bool
  prevState : Bool
  deriving DecidableEq, Repr

structure PlcTimer where
  name : List Char
  type : PlcTimerType
  presetMs : Nat
  accumulatedMs : Nat
  timing : Bool
  done : Bool
  inputState : Bool
  deriving DecidableEq, Repr

structure PlcCounter where
  name : List Char
  type : PlcCounterType
  preset : Nat
  accumulated : Nat
  done : Bool
  overflow : Bool
  underflow : Bool
  countUpInput : Bool
  countDownInput : Bool
  prevCu : Bool
  prevCd : Bool
  deriving DecidableEq, Repr

structure PlcRung where
  contacts : List PlcContact
  coils : List PlcCoil
  timers : List PlcTimer
  counters : List PlcCounter
  powerFlow : Bool
  deriving DecidableEq, Repr

structure PlcProgram where
  rungs : List PlcRung
  scanCounter : Nat
  currentPhase : PlcScanPhase
  fault : Bool
  deriving DecidableEq, Repr

def plcInit : PlcProgram := ⟨[], 0, .inputs, false⟩

def plcAddRung (plc : PlcProgram) : PlcProgram :=
  if plcMaxRungs ≤ plc.rungs.length then plc
  else { plc with rungs := plc.rungs ++ [⟨[], [], [], [], false⟩] }

def plcAddContact (rung : PlcRung) (name : List Char) (type : PlcContactType) (address : Nat) :
    PlcRung :=
  if plcMaxContacts ≤ rung.contacts.length then rung
  else { rung with contacts := rung.contacts ++
      [⟨name.take (plcMaxNameLen - 1), type, address, false⟩] }

def plcAddCoil (rung : PlcRung) (name : List Char) (type : PlcCoilType) (address : Nat) :
    PlcRung :=
  if plcMaxCoils ≤ rung.coils.length then rung
  else { rung with coils := rung.coils ++
      [⟨name.take (plcMaxNameLen - 1), type, address, false, false⟩] }

def plcAddTimer (rung : PlcRung) (name : List Char) (type : PlcTimerType) (presetMs : Nat) :
    PlcRung :=
  if plcMaxTimers ≤ rung.timers.length then rung
  else { rung with timers := rung.timers ++
      [⟨name.take (plcMaxNameLen - 1), type, presetMs, 0, false, false, false⟩] }

def plcAddCounter (rung : PlcRung) (name : List Char) (type : PlcCounterType) (preset : Nat) :
    PlcRung :=
  if plcMaxCounters ≤ rung.counters.length then rung
  else { rung with counters := rung.counters ++
      [⟨name.take (plcMaxNameLen - 1), type, preset, 0, false, false, false, false, false, false,
        false⟩] }

def plcWriteInput (plc : PlcProgram) (address : Nat) (value : Bool) : PlcProgram :=
  { plc with rungs := plc.rungs.map fun rung =>
      { rung with contacts := rung.contacts.map fun contact =>
          if contact.address = address then { contact with state := value } else contact } }

/-- `plc_read_output`: the state of the first coil on the address. -/
def plcReadOutput (plc : PlcProgram) (address : Nat) : Bool :=
  match plc.rungs.findSome? fun rung => rung.coils.find? fun coil => coil.address == address with
  | some coil => coil.state
  | none => false

def plcEvaluateContact (contact : PlcContact) : Bool :=
  match contact.type with
  | .no => contact.state
  | .nc => !contact.state

/-- One more scan period on a running timer. -/
def PlcTimer.elapse (timer : PlcTimer) : PlcTimer :=
  { timer with accumulatedMs := (timer.accumulatedMs + plcScanPeriodMs) % 2 ^ 32 }

def plcUpdateTimer (timer : PlcTimer) : PlcTimer :=
  let inputOn := timer.inputState
  let start := { timer with timing := true, accumulatedMs := 0 }
  match timer.type with
  | .ton =>
      if inputOn then
        let running := (if timer.timing then timer else start).elapse
        if running.presetMs ≤ running.accumulatedMs then
          { running with accumulatedMs := running.presetMs, done := true }
        else running
      else { timer with timing := false, accumulatedMs := 0, done := false }
  | .tof =>
      if inputOn then { timer with timing := false, accumulatedMs := 0, done := true }
      else
        let running := (if timer.timing then timer else start).elapse
        if running.presetMs ≤ running.accumulatedMs then
          { running with accumulatedMs := running.presetMs, done := false }
        else running
  | .tp =>
      let begun := if inputOn && !timer.timing then { start with done := true } else timer
      let running :=
        if begun.timing then
          if begun.elapse.presetMs ≤ begun.elapse.accumulatedMs then
            { begun with accumulatedMs := begun.presetMs, done := false, timing := false }
          else begun.elapse
        else begun
      if inputOn then running else { running with timing := false }

def PlcCounter.countUp (counter : PlcCounter) (rising : Bool) : PlcCounter :=
  if rising && !counter.overflow then
    if counter.accumulated < 2 ^ 16 - 1 then
      { counter with accumulated := counter.accumulated + 1 }
    else { counter with overflow := true }
  else counter

def PlcCounter.countDown (counter : PlcCounter) (rising : Bool) : PlcCounter :=
  if rising && !counter.underflow then
    if 0 < counter.accumulated then { counter with accumulated := counter.accumulated - 1 }
    else { counter with underflow := true }
  else counter

def plcUpdateCounter (counter : PlcCounter) : PlcCounter :=
  let cuRising := counter.countUpInput && !counter.prevCu
  let cdRising := counter.countDownInput && !counter.prevCd
  let seen := { counter with prevCu := counter.countUpInput, prevCd := counter.countDownInput }
  match counter.type with
  | .ctu =>
      let counted := seen.countUp cuRising
      { counted with done := decide (counted.preset ≤ counted.accumulated) }
  | .ctd =>
      let counted := seen.countDown cdRising
      { counted with done := decide (counted.accumulated = 0) }
  | .ctud =>
      let counted := (seen.countUp cuRising).countDown cdRising
      { counted with done := decide (counted.preset ≤ counted.accumulated) }

/-- The power that the contacts of a rung let through. -/
def rungPower (rung : PlcRung) : Bool :=
  rung.contacts.foldl (fun power contact => power && plcEvaluateContact contact) true

def plcEvaluateRung (rung : PlcRung) : PlcRung :=
  { rung with
    powerFlow := rungPower rung
    timers := rung.timers.map fun timer =>
      plcUpdateTimer { timer with inputState := rungPower rung }
    counters := rung.counters.map plcUpdateCounter }

/-- The body of the loop of `plc_update_outputs`. -/
def updateCoil (powerFlow : Bool) (coil : PlcCoil) : PlcCoil :=
  { coil with
    prevState := coil.state
    state :=
      match coil.type with
      | .output => powerFlow
      | .internal => powerFlow
      | .latchSet => if powerFlow then true else coil.state
      | .latchReset => if powerFlow then false else coil.state }

def plcUpdateOutputs (plc : PlcProgram) : PlcProgram :=
  { plc with rungs := plc.rungs.map fun rung =>
      { rung with coils := rung.coils.map (updateCoil rung.powerFlow) } }

def plcScanCycle (plc : PlcProgram) : PlcProgram :=
  if plc.fault then plc
  else
    let evaluated :=
      { plc with rungs := plc.rungs.map plcEvaluateRung, currentPhase := .outputs }
    let updated := plcUpdateOutputs evaluated
    { updated with
      currentPhase := .housekeeping, scanCounter := (updated.scanCounter + 1) % 2 ^ 16 }

/-- The calls that build a program; the number selects the rung that an earlier
`plc_add_rung` returned. -/
inductive PlcBuildCall
  | addRung
  | addContact (rung : Nat) (name : List Char) (type : PlcContactType) (address : Nat)
  | addCoil (rung : Nat) (name : List Char) (type : PlcCoilType) (address : Nat)
  | addTimer (rung : Nat) (name : List Char) (type : PlcTimerType) (presetMs : Nat)
  | addCounter (rung : Nat) (name : List Char) (type : PlcCounterType) (preset : Nat)
  deriving DecidableEq, Repr

def plcBuild (plc : PlcProgram) : PlcBuildCall → PlcProgram
  | .addRung => plcAddRung plc
  | .addContact rung name type address =>
      { plc with rungs := plc.rungs.modify rung fun r => plcAddContact r name type address }
  | .addCoil rung name type address =>
      { plc with rungs := plc.rungs.modify rung fun r => plcAddCoil r name type address }
  | .addTimer rung name type presetMs =>
      { plc with rungs := plc.rungs.modify rung fun r => plcAddTimer r name type presetMs }
  | .addCounter rung name type preset =>
      { plc with rungs := plc.rungs.modify rung fun r => plcAddCounter r name type preset }

/-- The calls on a finished program. -/
inductive PlcCall
  | writeInput (address : Nat) (value : Bool)
  | scanCycle
  deriving DecidableEq, Repr

def plcExec (plc : PlcProgram) : PlcCall → PlcProgram
  | .writeInput address value => plcWriteInput plc address value
  | .scanCycle => plcScanCycle plc

end Control

end MiniIotRobotEdge

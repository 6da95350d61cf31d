import Mathlib.Algebra.Group.Nat.Defs
import Mathlib.Data.List.Basic
import Mathlib.Tactic.ByContra
import Mathlib.Tactic.SplitIfs
import Mathlib.Tactic.Tauto
import MiniIotRobotEdge.StepRuns

/-!
# The safety controller of mini-industrial-control

The model of `safety_plc.c`: dual channels, safety functions and safe outputs.
An emergency stop and an evaluation switch off the first `num_safe_outputs`
outputs, but nothing ever sets that number, so that it stays zero and no output
is switched off.  What the stop leaves on, and which functions are tripped, is
decided by the calls around it.
-/

namespace MiniIotRobotEdge

namespace Control

open StepRuns

def safetyMaxChannels : Nat := 64
def safetyMaxFunctions : Nat := 32
def safetyMaxSafeOutputs : Nat := 32
def safetyMaxNameLen : Nat := 32

inductive SafetySilLevel
  | sil1
  | sil2
  | sil3
  | sil4
  deriving DecidableEq, Repr

inductive SafetyFunctionType
  | estop
  | doorInterlock
  | lightCurtain
  | twoHand
  | zeroSpeed
  | overspeed
  | safeTorque
  | safePosition
  deriving DecidableEq, Repr

inductive SafetyCommProtocol
  | profisafe
  | cipSafety
  | failsafeIo
  | safeEthercat
  deriving DecidableEq, Repr

structure SafetyDualChannel where
  channelId : Nat
  healthy : Bool
  deriving DecidableEq, Repr

structure SafetyFunction where
  name : List Char
  type : SafetyFunctionType
  silLevel : SafetySilLevel
  active : Bool
  tripped : Bool
  healthy : Bool
  resetRequired : Nat
  lastTripTimeMs : Nat
  lastResetTimeMs : Nat
  deriving DecidableEq, Repr

/-- `safety_controller_t`; the lists stand for the used parts of the arrays. -/
structure SafetyController where
  channels : List SafetyDualChannel
  functions : List SafetyFunction
  safeOutputs : Fin safetyMaxSafeOutputs → Bool
  numSafeOutputs : Nat
  commProtocol : SafetyCommProtocol
  estopActive : Bool
  totalTripCount : Nat
  systemHealthy : Bool

def safetyInit : SafetyController where
  channels := []
  functions := []
  safeOutputs := fun _ => false
  numSafeOutputs := 0
  commProtocol := .failsafeIo
  estopActive := false
  totalTripCount := 0
  systemHealthy := true

def safetyAddDualChannel (sc : SafetyController) : SafetyController × Nat :=
  if safetyMaxChannels ≤ sc.channels.length then (sc, 0)
  else
    ({ sc with channels := sc.channels ++ [⟨sc.channels.length + 1, true⟩] },
      sc.channels.length + 1)

/-- `safety_add_function`; the name is `none` when the pointer is null. -/
def safetyAddFunction (sc : SafetyController) (name : Option (List Char))
    (type : SafetyFunctionType) (sil : SafetySilLevel) : SafetyController × Nat :=
  match name with
  | none => (sc, 0)
  | some name =>
      if safetyMaxFunctions ≤ sc.functions.length then (sc, 0)
      else
        ({ sc with functions := sc.functions ++
            [{ name := name.take (safetyMaxNameLen - 1), type := type, silLevel := sil
               active := false, tripped := false, healthy := true, resetRequired := 0
               lastTripTimeMs := 0, lastResetTimeMs := 0 }] },
          sc.functions.length + 1)

def safetyRemoveFunction (sc : SafetyController) (funcId : Nat) : SafetyController × Bool :=
  if funcId = 0 ∨ sc.functions.length < funcId then (sc, false)
  else ({ sc with functions := sc.functions.eraseIdx (funcId - 1) }, true)

/-- The loop `for (j = 0; j < sc->num_safe_outputs; j++) sc->safe_outputs[j] = false`. -/
def clearSafeOutputs (sc : SafetyController) : SafetyController :=
  { sc with safeOutputs := fun output =>
      if output.val < sc.numSafeOutputs then false else sc.safeOutputs output }

def SafetyFunction.trip (time : Nat) (sf : SafetyFunction) : SafetyFunction :=
  { sf with tripped := true, lastTripTimeMs := time }

def SafetyFunction.reset (time : Nat) (sf : SafetyFunction) : SafetyFunction :=
  { sf with tripped := false, resetRequired := 0, lastResetTimeMs := time }

/-- Change the functions of one type. -/
def updateType (type : SafetyFunctionType) (update : SafetyFunction → SafetyFunction)
    (functions : List SafetyFunction) : List SafetyFunction :=
  functions.map fun sf => if sf.type = type then update sf else sf

def safetyEstopTrigger (sc : SafetyController) (time : Nat) : SafetyController :=
  clearSafeOutputs
    { sc with
      estopActive := true
      totalTripCount := (sc.totalTripCount + 1) % 2 ^ 32
      functions := updateType .estop (SafetyFunction.trip time) sc.functions }

def safetyEstopRelease (sc : SafetyController) : SafetyController :=
  { sc with
    estopActive := false
    functions := updateType .estop (fun sf => { sf with active := true }) sc.functions }

/-- The common body of the door interlock and the light curtain: every function
of the type is tripped, or made active when the guard is closed. -/
def guardInput (type : SafetyFunctionType) (sc : SafetyController) (closed : Bool) (time : Nat) :
    SafetyController :=
  if closed then
    { sc with functions := updateType type (fun sf => { sf with active := true }) sc.functions }
  else
    { sc with
      functions := updateType type (SafetyFunction.trip time) sc.functions
      totalTripCount := (sc.totalTripCount +
        (sc.functions.filter fun sf => sf.type = type).length) % 2 ^ 32 }

def safetyDoorInterlock : SafetyController → Bool → Nat → SafetyController :=
  guardInput .doorInterlock

def safetyLightCurtain : SafetyController → Bool → Nat → SafetyController :=
  guardInput .lightCurtain

def safetySetOutput (sc : SafetyController) (outputId : Nat) (state : Bool) : SafetyController :=
  if inside : outputId < safetyMaxSafeOutputs then
    { sc with safeOutputs := Function.update sc.safeOutputs ⟨outputId, inside⟩ state }
  else sc

def safetyGetOutput (sc : SafetyController) (outputId : Nat) : Bool :=
  if inside : outputId < safetyMaxSafeOutputs then sc.safeOutputs ⟨outputId, inside⟩ else false

/-- `safety_evaluate`: the outputs are cleared once for every tripped function. -/
def safetyEvaluate (sc : SafetyController) : SafetyController :=
  sc.functions.foldl (fun current sf => if sf.tripped then clearSafeOutputs current else current) sc

def safetyResetFunction (sc : SafetyController) (funcId time : Nat) : SafetyController :=
  if funcId = 0 ∨ sc.functions.length < funcId then sc
  else { sc with functions := sc.functions.modify (funcId - 1) (SafetyFunction.reset time) }

def safetyResetAllFunctions (sc : SafetyController) (time : Nat) : SafetyController :=
  { sc with functions := sc.functions.map (SafetyFunction.reset time) }

inductive SafetyCall
  | addDualChannel
  | addFunction (name : Option (List Char)) (type : SafetyFunctionType) (sil : SafetySilLevel)
  | removeFunction (funcId : Nat)
  | setOutput (outputId : Nat) (state : Bool)
  | doorInterlock (closed : Bool) (time : Nat)
  | lightCurtain (clear : Bool) (time : Nat)
  | resetFunction (funcId time : Nat)
  | resetAllFunctions (time : Nat)
  | estopTrigger (time : Nat)
  | estopRelease
  | evaluate
  deriving DecidableEq, Repr

def safetyExec (sc : SafetyController) : SafetyCall → SafetyController
  | .addDualChannel => (safetyAddDualChannel sc).1
  | .addFunction name type sil => (safetyAddFunction sc name type sil).1
  | .removeFunction funcId => (safetyRemoveFunction sc funcId).1
  | .setOutput outputId state => safetySetOutput sc outputId state
  | .doorInterlock closed time => safetyDoorInterlock sc closed time
  | .lightCurtain clear time => safetyLightCurtain sc clear time
  | .resetFunction funcId time => safetyResetFunction sc funcId time
  | .resetAllFunctions time => safetyResetAllFunctions sc time
  | .estopTrigger time => safetyEstopTrigger sc time
  | .estopRelease => safetyEstopRelease sc
  | .evaluate => safetyEvaluate sc

/-- A controller, and whether an output was switched on since the last
evaluation or emergency stop. -/
structure WatchedController where
  controller : SafetyController
  commanded : Bool

def watchedStart : WatchedController := ⟨safetyInit, false⟩

def watchedStep (watched : WatchedController) (call : SafetyCall) : WatchedController where
  controller := safetyExec watched.controller call
  commanded :=
    match call with
    | .setOutput _ true => true
    | .evaluate | .estopTrigger _ => false
    | _ => watched.commanded

/-- Every safe output is off. -/
def AllOff (sc : SafetyController) : Prop :=
  ∀ outputId < safetyMaxSafeOutputs, safetyGetOutput sc outputId = false

def EstopsTripped (functions : List SafetyFunction) : Prop :=
  ∀ sf ∈ functions, sf.type = .estop → sf.tripped = true

/-- The stop is active and no output has been switched on since. -/
def WatchedController.Stopped (watched : WatchedController) : Prop :=
  watched.controller.estopActive = true ∧ watched.commanded = false

/-- The emergency stop dominates: while stopped, the outputs are off and the
emergency stop functions are tripped. -/
def EstopDominates (watched : WatchedController) : Prop :=
  watched.Stopped → AllOff watched.controller ∧ EstopsTripped watched.controller.functions

/-- The calls that keep the emergency stop dominant. -/
def KeepsStop (watched : WatchedController) : SafetyCall → Prop
  | .estopTrigger _ => AllOff watched.controller
  | .evaluate => watched.controller.estopActive = true →
      AllOff watched.controller ∧ EstopsTripped watched.controller.functions
  | .addFunction name type _ => watched.Stopped → type = .estop →
      name = none ∨ safetyMaxFunctions ≤ watched.controller.functions.length
  | .resetFunction funcId _ => watched.Stopped → funcId ≠ 0 →
      ∀ sf ∈ watched.controller.functions[funcId - 1]?, sf.type ≠ .estop
  | .resetAllFunctions _ => watched.Stopped →
      ∀ sf ∈ watched.controller.functions, sf.type ≠ .estop
  | _ => True

section Functions

variable {functions : List SafetyFunction} {update : SafetyFunction → SafetyFunction}

theorem estopsTripped_append {added : SafetyFunction} (untripped : added.tripped = false) :
    EstopsTripped (functions ++ [added]) ↔ EstopsTripped functions ∧ added.type ≠ .estop := by
  unfold EstopsTripped
  constructor
  · intro tripped
    refine ⟨fun sf member => tripped sf (List.mem_append_left _ member), fun isEstop => ?_⟩
    have raised := tripped added (by simp) isEstop
    simp [untripped] at raised
  · rintro ⟨tripped, other⟩ sf member isEstop
    rcases List.mem_append.mp member with old | new
    · exact tripped sf old isEstop
    · obtain rfl := List.mem_singleton.mp new
      exact absurd isEstop other

theorem EstopsTripped.sublist {fewer : List SafetyFunction} (tripped : EstopsTripped functions)
    (sub : fewer.Sublist functions) : EstopsTripped fewer :=
  fun sf member => tripped sf (sub.subset member)

/-- Updates that neither change the type nor untrip keep the functions tripped. -/
theorem EstopsTripped.updateType (tripped : EstopsTripped functions) (type : SafetyFunctionType)
    (sameType : ∀ sf, (update sf).type = sf.type)
    (keeps : ∀ sf, sf.tripped = true → (update sf).tripped = true) :
    EstopsTripped (Control.updateType type update functions) := by
  intro sf member isEstop
  obtain ⟨old, oldMember, rfl⟩ := List.mem_map.mp member
  split_ifs at isEstop ⊢ with selected
  · exact keeps old (tripped old oldMember ((sameType old).symm.trans isEstop))
  · exact tripped old oldMember isEstop

theorem estopsTripped_trip (time : Nat) :
    EstopsTripped (Control.updateType .estop (SafetyFunction.trip time) functions) := by
  intro sf member isEstop
  obtain ⟨old, oldMember, rfl⟩ := List.mem_map.mp member
  split_ifs at isEstop ⊢ with selected
  · rfl
  · exact absurd isEstop selected

/-- Resetting one function leaves the stop in force exactly when it is another
kind of function. -/
theorem estopsTripped_reset {index time : Nat} (tripped : EstopsTripped functions) :
    EstopsTripped (functions.modify index (SafetyFunction.reset time)) ↔
      ∀ sf ∈ functions[index]?, sf.type ≠ .estop := by
  constructor
  · intro after sf found isEstop
    have changed : (functions.modify index (SafetyFunction.reset time))[index]? =
        some (sf.reset time) := by
      rw [List.getElem?_modify_eq, Option.mem_def.mp found]
      rfl
    have raised := after _ (List.mem_of_getElem? changed) isEstop
    simp [SafetyFunction.reset] at raised
  · intro other sf member isEstop
    obtain ⟨position, found⟩ := List.mem_iff_getElem?.mp member
    rw [List.getElem?_modify] at found
    obtain ⟨old, oldFound, rfl⟩ := Option.map_eq_some_iff.mp found
    by_cases same : index = position
    · subst same
      rw [if_pos rfl] at isEstop
      exact absurd isEstop (other old oldFound)
    · rw [if_neg same] at isEstop ⊢
      exact tripped old (List.mem_of_getElem? oldFound) isEstop

theorem estopsTripped_resetAll {time : Nat} :
    EstopsTripped (functions.map (SafetyFunction.reset time)) ↔
      ∀ sf ∈ functions, sf.type ≠ .estop := by
  constructor
  · intro after sf member isEstop
    have raised := after _ (List.mem_map_of_mem member) isEstop
    simp [SafetyFunction.reset] at raised
  · intro other sf member isEstop
    obtain ⟨old, oldMember, rfl⟩ := List.mem_map.mp member
    exact absurd isEstop (other old oldMember)

end Functions

section Steps

variable {sc : SafetyController}

/-- With no outputs counted nothing is cleared. -/
theorem clearSafeOutputs_eq (uncounted : sc.numSafeOutputs = 0) : clearSafeOutputs sc = sc := by
  have kept : (fun output : Fin safetyMaxSafeOutputs =>
      if output.val < sc.numSafeOutputs then false else sc.safeOutputs output) =
        sc.safeOutputs := by
    ext output
    rw [if_neg (by omega)]
  unfold clearSafeOutputs
  rw [kept]

theorem safetyEvaluate_eq (uncounted : sc.numSafeOutputs = 0) : safetyEvaluate sc = sc := by
  unfold safetyEvaluate
  induction sc.functions with
  | nil => rfl
  | cons sf rest ih =>
      rw [List.foldl_cons, clearSafeOutputs_eq uncounted, ite_self]
      exact ih

/-- The calls never count an output. -/
theorem safetyExec_numSafeOutputs (sc : SafetyController) (call : SafetyCall) :
    (safetyExec sc call).numSafeOutputs = sc.numSafeOutputs := by
  cases call with
  | addDualChannel =>
      simp only [safetyExec, safetyAddDualChannel]
      split_ifs <;> rfl
  | addFunction name type sil =>
      cases name with
      | none => rfl
      | some name =>
          simp only [safetyExec, safetyAddFunction]
          split_ifs <;> rfl
  | removeFunction funcId =>
      simp only [safetyExec, safetyRemoveFunction]
      split_ifs <;> rfl
  | setOutput outputId state =>
      simp only [safetyExec, safetySetOutput]
      split_ifs <;> rfl
  | doorInterlock closed time => cases closed <;> rfl
  | lightCurtain clear time => cases clear <;> rfl
  | resetFunction funcId time =>
      simp only [safetyExec, safetyResetFunction]
      split_ifs <;> rfl
  | resetAllFunctions time => rfl
  | estopTrigger time => rfl
  | estopRelease => rfl
  | evaluate =>
      simp only [safetyExec, safetyEvaluate]
      induction sc.functions generalizing sc with
      | nil => rfl
      | cons sf rest ih =>
          rw [List.foldl_cons, ih]
          split_ifs <;> rfl

theorem allOff_iff : AllOff sc ↔ ∀ output, sc.safeOutputs output = false := by
  unfold AllOff safetyGetOutput
  constructor
  · intro off output
    simpa using off output.val output.isLt
  · intro off outputId inside
    rw [dif_pos inside]
    exact off _

theorem allOff_setOutput (off : AllOff sc) (outputId : Nat) :
    AllOff (safetySetOutput sc outputId false) := by
  rw [allOff_iff] at off ⊢
  intro output
  unfold safetySetOutput
  split_ifs with inside
  · by_cases same : output = ⟨outputId, inside⟩
    · simp [same]
    · simp [Function.update_of_ne same, off output]
  · exact off output

end Steps

/-- A guard input trips functions or makes them active, and resets none. -/
theorem EstopDominates.guardInput {sc : SafetyController} {commanded : Bool}
    (dominates : EstopDominates ⟨sc, commanded⟩) (type : SafetyFunctionType) (closed : Bool)
    (time : Nat) : EstopDominates ⟨Control.guardInput type sc closed time, commanded⟩ := by
  intro stopped
  unfold Control.guardInput at stopped ⊢
  split_ifs at stopped ⊢ with isClosed
  · obtain ⟨off, tripped⟩ := dominates stopped
    exact ⟨off, tripped.updateType type (fun _ => rfl) fun _ raised => raised⟩
  · obtain ⟨off, tripped⟩ := dominates stopped
    exact ⟨off, tripped.updateType type (fun _ => rfl) fun _ _ => rfl⟩

/-- A step from a state in which the stop dominates keeps it dominant exactly
under the condition on the call. -/
theorem estopDominates_step {watched : WatchedController} (call : SafetyCall)
    (uncounted : watched.controller.numSafeOutputs = 0) (dominates : EstopDominates watched) :
    EstopDominates (watchedStep watched call) ↔ KeepsStop watched call := by
  obtain ⟨sc, commanded⟩ := watched
  -- Most calls change the functions only.
  have functionsOnly : ∀ (functions : List SafetyFunction) (trips : Nat),
      EstopDominates ⟨{ sc with functions := functions, totalTripCount := trips }, commanded⟩ ↔
        (WatchedController.Stopped ⟨sc, commanded⟩ → EstopsTripped functions) := by
    intro functions trips
    exact ⟨fun after stopped => (after stopped).2,
      fun tripped stopped => ⟨(dominates stopped).1, tripped stopped⟩⟩
  cases call with
  | addDualChannel =>
      simp only [watchedStep, safetyExec, safetyAddDualChannel]
      split_ifs <;> exact iff_of_true dominates trivial
  | addFunction name type sil =>
      cases name with
      | none => exact iff_of_true dominates fun _ _ => .inl rfl
      | some name =>
          simp only [watchedStep, safetyExec, safetyAddFunction, KeepsStop]
          split_ifs with full
          · exact iff_of_true dominates fun _ _ => .inr full
          · refine (functionsOnly _ _).trans (forall_congr' fun stopped => ?_)
            rw [estopsTripped_append rfl]
            simp [(dominates stopped).2, full]
  | removeFunction funcId =>
      simp only [watchedStep, safetyExec, safetyRemoveFunction]
      split_ifs with invalid
      · exact iff_of_true dominates trivial
      · refine iff_of_true ((functionsOnly _ _).mpr fun stopped => ?_) trivial
        exact (dominates stopped).2.sublist (List.eraseIdx_sublist _ _)
  | setOutput outputId state =>
      apply iff_of_true _ trivial
      cases state with
      | true => exact fun stopped => absurd stopped.2 (by simp [watchedStep])
      | false =>
          intro stopped
          have same : (safetySetOutput sc outputId false).estopActive = sc.estopActive ∧
              (safetySetOutput sc outputId false).functions = sc.functions := by
            unfold safetySetOutput
            split_ifs <;> exact ⟨rfl, rfl⟩
          have before := dominates ⟨same.1.symm.trans stopped.1, stopped.2⟩
          exact ⟨allOff_setOutput before.1 outputId, same.2 ▸ before.2⟩
  | doorInterlock closed time =>
      exact iff_of_true (dominates.guardInput .doorInterlock closed time) trivial
  | lightCurtain clear time =>
      exact iff_of_true (dominates.guardInput .lightCurtain clear time) trivial
  | resetFunction funcId time =>
      simp only [watchedStep, safetyExec, safetyResetFunction, KeepsStop]
      split_ifs with invalid
      · apply iff_of_true dominates
        intro _ nonzero sf found
        have beyond : sc.functions.length ≤ funcId - 1 := by omega
        rw [List.getElem?_eq_none beyond] at found
        simp at found
      · have nonzero : funcId ≠ 0 := by omega
        refine (functionsOnly _ _).trans (forall_congr' fun stopped => ?_)
        rw [estopsTripped_reset (dominates stopped).2]
        exact ⟨fun other _ => other, fun other => other nonzero⟩
  | resetAllFunctions time =>
      exact (functionsOnly _ _).trans (forall_congr' fun _ => estopsTripped_resetAll)
  | estopTrigger time =>
      simp only [watchedStep, safetyExec, safetyEstopTrigger, KeepsStop]
      rw [clearSafeOutputs_eq (by exact uncounted)]
      exact ⟨fun after => (after ⟨rfl, rfl⟩).1, fun off _ => ⟨off, estopsTripped_trip time⟩⟩
  | estopRelease =>
      exact iff_of_true (fun stopped => absurd stopped.1 (by simp [watchedStep, safetyExec,
        safetyEstopRelease])) trivial
  | evaluate =>
      simp only [watchedStep, safetyExec, KeepsStop]
      rw [safetyEvaluate_eq uncounted]
      exact ⟨fun after active => after ⟨active, rfl⟩, fun kept stopped => kept stopped.1⟩

/-- The emergency stop dominates in every state of a run exactly when every call
of the run keeps it dominant. -/
theorem estop_dominates_iff (calls : List SafetyCall) :
    Always watchedStep EstopDominates watchedStart calls ↔
      Throughout watchedStep KeepsStop watchedStart calls := by
  have base : EstopDominates watchedStart := fun stopped => by
    simp [WatchedController.Stopped, watchedStart, safetyInit] at stopped
  have uncounted : watchedStart.controller.numSafeOutputs = 0 := rfl
  refine always_iff_throughout (fun watched call none => ?_) (fun watched call none dominates =>
    estopDominates_step call none dominates) uncounted base
  exact (safetyExec_numSafeOutputs watched.controller call).trans none

/-- An output that was switched on is still on after the stop. -/
theorem estop_leaves_output_on :
    ¬∀ calls, Always watchedStep EstopDominates watchedStart calls := by
  intro dominates
  have stopped := (dominates [.setOutput 3 true, .estopTrigger 0]).last ⟨rfl, rfl⟩
  have off := stopped.1 3 (by decide)
  exact absurd off (by decide)

end Control

end MiniIotRobotEdge

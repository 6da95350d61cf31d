import Mathlib.Algebra.Group.Nat.Defs
import Mathlib.Data.List.Induction
import Mathlib.Data.List.Range
import Mathlib.Tactic.ByContra
import Mathlib.Tactic.SplitIfs
import MiniIotRobotEdge.StepRuns

/-!
# The two-hand control of mini-industrial-control

The model of the two-hand functions of `safety_plc.c`.  A press of one button starts the timer
and is forgotten in the same call, because the other button is not pressed yet.  So the output
comes on only when both buttons are pressed in one call.
-/

namespace MiniIotRobotEdge

namespace Control

open StepRuns

/-- `safety_two_hand_t`. -/
structure SafetyTwoHand where
  buttonLeft : Bool
  buttonRight : Bool
  prevLeft : Bool
  prevRight : Bool
  maxTimeBetweenMs : Nat
  timerMs : Nat
  output : Bool
  validSequence : Bool

/-- A call of `safety_two_hand_update`; the code sees the time modulo `2 ^ 32`. -/
structure TwoHandCall where
  left : Bool
  right : Bool
  timeMs : Nat

def safetyTwoHandInit (maxTimeMs : Nat) : SafetyTwoHand where
  buttonLeft := false
  buttonRight := false
  prevLeft := false
  prevRight := false
  maxTimeBetweenMs := maxTimeMs
  timerMs := 0
  output := false
  validSequence := false

def safetyTwoHandUpdate (th : SafetyTwoHand) (call : TwoHandCall) : SafetyTwoHand :=
  let currentTimeMs := call.timeMs % 2 ^ 32
  let th := { th with
    prevLeft := th.buttonLeft
    prevRight := th.buttonRight
    buttonLeft := call.left
    buttonRight := call.right }
  let leftRising := call.left && !th.prevLeft
  let rightRising := call.right && !th.prevRight
  let th :=
    if leftRising && rightRising then
      { th with validSequence := true, output := true, timerMs := currentTimeMs }
    else if leftRising then
      { th with timerMs := currentTimeMs, validSequence := true }
    else if rightRising then
      if th.validSequence then
        let elapsed := (currentTimeMs + (2 ^ 32 - th.timerMs)) % 2 ^ 32
        if elapsed ≤ th.maxTimeBetweenMs then { th with output := true } else th
      else th
    else th
  if !call.left || !call.right then { th with output := false, validSequence := false } else th

def safetyTwoHandOutput (th : SafetyTwoHand) : Bool := th.output

/-- The state after `safety_two_hand_init` and a sequence of calls. -/
def twoHandAfter (maxTimeMs : Nat) (calls : List TwoHandCall) : SafetyTwoHand :=
  after safetyTwoHandUpdate (safetyTwoHandInit maxTimeMs) calls

section History

variable (pressed : TwoHandCall → Bool) (calls : List TwoHandCall)

/-- A button is pressed in a call and was not in the call before. -/
def rises : Nat → Bool
  | 0 => calls[0]?.any pressed
  | i + 1 => calls[i + 1]?.any pressed && !calls[i]?.any pressed

/-- The call with the most recent rising edge of a button. -/
def lastRise : Option Nat := ((List.range calls.length).filter (rises pressed calls)).getLast?

def lastRiseTime : Option Nat :=
  (lastRise pressed calls).bind fun i => calls[i]?.map TwoHandCall.timeMs

def pressedNow : Bool := calls.getLast?.any pressed

end History

/-- Two times at most `maxTimeMs` apart, in either order. -/
def WithinTime (maxTimeMs : Nat) : Option Nat → Option Nat → Prop
  | some first, some second => first ≤ second + maxTimeMs ∧ second ≤ first + maxTimeMs
  | _, _ => False

/-- Both buttons are pressed, with rising edges at most `maxTimeMs` apart. -/
def TwoHandPressed (maxTimeMs : Nat) (calls : List TwoHandCall) : Prop :=
  pressedNow TwoHandCall.left calls ∧ pressedNow TwoHandCall.right calls ∧
    WithinTime maxTimeMs (lastRiseTime TwoHandCall.left calls)
      (lastRiseTime TwoHandCall.right calls)

/-- The same with the edges in two different calls. -/
def OneHandFirst (maxTimeMs : Nat) (calls : List TwoHandCall) : Prop :=
  TwoHandPressed maxTimeMs calls ∧
    lastRise TwoHandCall.left calls ≠ lastRise TwoHandCall.right calls

section Edges

variable {pressed : TwoHandCall → Bool} {calls : List TwoHandCall} {call : TwoHandCall}

theorem pressedNow_append : pressedNow pressed (calls ++ [call]) = pressed call := by
  simp [pressedNow]

theorem rises_append {i : Nat} (inside : i < calls.length) :
    rises pressed (calls ++ [call]) i = rises pressed calls i := by
  cases i with
  | zero => rw [rises, rises, List.getElem?_append_left inside]
  | succ i =>
      rw [rises, rises, List.getElem?_append_left inside,
        List.getElem?_append_left (Nat.lt_of_succ_lt inside)]

theorem rises_length :
    rises pressed (calls ++ [call]) calls.length = (pressed call && !pressedNow pressed calls) := by
  cases calls using List.reverseRecOn with
  | nil => simp [rises, pressedNow]
  | append_singleton front last => simp [rises, pressedNow]

/-- The last call is the most recent edge, or leaves it where it was. -/
theorem lastRise_append : lastRise pressed (calls ++ [call]) =
    if pressed call && !pressedNow pressed calls then some calls.length
    else lastRise pressed calls := by
  have earlier : (List.range calls.length).filter (rises pressed (calls ++ [call])) =
      (List.range calls.length).filter (rises pressed calls) :=
    List.filter_congr fun i inside => rises_append (List.mem_range.mp inside)
  rw [lastRise, List.length_append, List.length_singleton, List.range_succ, List.filter_append,
    earlier, List.filter_singleton, rises_length]
  cases isRise : pressed call && !pressedNow pressed calls with
  | true =>
      rw [cond_true, if_pos rfl, List.getLast?_append, List.getLast?_singleton]
      rfl
  | false =>
      rw [cond_false, List.append_nil, if_neg Bool.false_ne_true]
      rfl

theorem lastRise_lt {i : Nat} (found : lastRise pressed calls = some i) : i < calls.length := by
  have member := List.mem_of_getLast? found
  exact List.mem_range.mp (List.mem_filter.mp member).1

/-- A pressed button has a rising edge. -/
theorem lastRise_of_pressed (isPressed : pressedNow pressed calls) :
    ∃ i, lastRise pressed calls = some i := by
  induction calls using List.reverseRecOn with
  | nil => simp [pressedNow] at isPressed
  | append_singleton front last ih =>
      rw [pressedNow_append] at isPressed
      rw [lastRise_append, isPressed]
      cases before : pressedNow pressed front with
      | false => exact ⟨front.length, rfl⟩
      | true => exact ih before

end Edges

section Updates

variable (th : SafetyTwoHand) (call : TwoHandCall)

@[simp]
theorem buttonLeft_update : (safetyTwoHandUpdate th call).buttonLeft = call.left := by
  simp only [safetyTwoHandUpdate]
  split_ifs <;> rfl

@[simp]
theorem buttonRight_update : (safetyTwoHandUpdate th call).buttonRight = call.right := by
  simp only [safetyTwoHandUpdate]
  split_ifs <;> rfl

theorem valid_update (valid : (safetyTwoHandUpdate th call).validSequence = true) :
    call.left = true ∧ call.right = true := by
  simp only [safetyTwoHandUpdate] at valid
  split_ifs at valid <;> simp_all

/-- A valid sequence is never found by the branch of the other hand: it needs both buttons. -/
theorem output_update
    (valid : th.validSequence = true → th.buttonLeft = true ∧ th.buttonRight = true) :
    (safetyTwoHandUpdate th call).output = (call.left && call.right &&
      (th.output || (!th.buttonLeft && !th.buttonRight))) := by
  cases sequence : th.validSequence with
  | true =>
      obtain ⟨left, right⟩ := valid sequence
      cases isLeft : call.left <;> cases isRight : call.right <;>
        simp [safetyTwoHandUpdate, left, right, isLeft, isRight]
  | false =>
      cases isLeft : call.left <;> cases isRight : call.right <;>
        cases wasLeft : th.buttonLeft <;> cases wasRight : th.buttonRight <;>
        simp [safetyTwoHandUpdate, sequence, isLeft, isRight, wasLeft, wasRight]

end Updates

section Runs

variable {maxTimeMs : Nat} {calls : List TwoHandCall}

/-- What the state says about the calls so far. -/
structure TwoHandKept (calls : List TwoHandCall) (th : SafetyTwoHand) : Prop where
  left : th.buttonLeft = pressedNow TwoHandCall.left calls
  right : th.buttonRight = pressedNow TwoHandCall.right calls
  /-- The output is on when the most recent edges came in one call. -/
  output : th.output = true ↔ pressedNow TwoHandCall.left calls ∧
    pressedNow TwoHandCall.right calls ∧
    lastRise TwoHandCall.left calls = lastRise TwoHandCall.right calls
  valid : th.validSequence = true → th.buttonLeft = true ∧ th.buttonRight = true

theorem TwoHandKept.update {th : SafetyTwoHand} (kept : TwoHandKept calls th)
    (call : TwoHandCall) : TwoHandKept (calls ++ [call]) (safetyTwoHandUpdate th call) := by
  obtain ⟨left, right, output, valid⟩ := kept
  refine ⟨?_, ?_, ?_, fun isValid => ?_⟩
  · rw [buttonLeft_update, pressedNow_append]
  · rw [buttonRight_update, pressedNow_append]
  · rw [output_update th call valid, pressedNow_append, pressedNow_append, lastRise_append,
      lastRise_append, ← left, ← right]
    have earlier : ∀ pressed, lastRise pressed calls ≠ some calls.length :=
      fun pressed found => Nat.lt_irrefl _ (lastRise_lt found)
    rw [← left, ← right] at output
    cases isLeft : call.left <;> cases isRight : call.right <;>
      cases wasLeft : th.buttonLeft <;> cases wasRight : th.buttonRight <;>
      simp_all [eq_comm (a := some calls.length)]
  · rw [buttonLeft_update, buttonRight_update]
    exact valid_update th call isValid

theorem twoHandKept (maxTimeMs : Nat) (calls : List TwoHandCall) :
    TwoHandKept calls (twoHandAfter maxTimeMs calls) := by
  induction calls using List.reverseRecOn with
  | nil => exact ⟨rfl, rfl, by simp [twoHandAfter, after, safetyTwoHandInit, pressedNow],
      by simp [twoHandAfter, after, safetyTwoHandInit]⟩
  | append_singleton front last ih =>
      rw [twoHandAfter, after, List.foldl_append]
      exact ih.update last

/-- The output is right after a sequence of calls exactly when it is not due with one hand
first. -/
theorem twoHandOutput_iff (maxTimeMs : Nat) (calls : List TwoHandCall) :
    (safetyTwoHandOutput (twoHandAfter maxTimeMs calls) = true ↔
      TwoHandPressed maxTimeMs calls) ↔ ¬ OneHandFirst maxTimeMs calls := by
  have output := (twoHandKept maxTimeMs calls).output
  have pressed : safetyTwoHandOutput (twoHandAfter maxTimeMs calls) = true →
      TwoHandPressed maxTimeMs calls := by
    intro isOn
    obtain ⟨left, right, same⟩ := output.mp isOn
    refine ⟨left, right, ?_⟩
    obtain ⟨i, found⟩ := lastRise_of_pressed left
    have inside := lastRise_lt found
    rw [lastRiseTime, lastRiseTime, ← same, found, Option.bind_some,
      List.getElem?_eq_getElem inside]
    exact ⟨Nat.le_add_right _ _, Nat.le_add_right _ _⟩
  rw [safetyTwoHandOutput] at pressed ⊢
  constructor
  · rintro agrees ⟨isPressed, apart⟩
    exact apart (output.mp (agrees.mpr isPressed)).2.2
  · intro together
    refine ⟨pressed, fun isPressed => output.mpr ⟨isPressed.1, isPressed.2.1, ?_⟩⟩
    by_contra apart
    exact together ⟨isPressed, apart⟩

/-- The sequence of the unit test: the right hand follows after 100 ms. -/
theorem twoHandOutput_off :
    safetyTwoHandOutput (twoHandAfter 500 [⟨true, false, 0⟩, ⟨true, true, 100⟩]) = false ∧
      TwoHandPressed 500 [⟨true, false, 0⟩, ⟨true, true, 100⟩] := by
  refine ⟨by decide, by decide, by decide, ?_⟩
  have left : lastRiseTime TwoHandCall.left [⟨true, false, 0⟩, ⟨true, true, 100⟩] = some 0 := by
    decide
  have right : lastRiseTime TwoHandCall.right [⟨true, false, 0⟩, ⟨true, true, 100⟩] =
      some 100 := by
    decide
  rw [left, right]
  exact ⟨by decide, by decide⟩

end Runs

end Control

end MiniIotRobotEdge

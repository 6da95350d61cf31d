import Mathlib.Data.Nat.ModEq
import Mathlib.Logic.Function.Basic
import Mathlib.Tactic.Common

/-!
# Polling sensors in turn

The model of `mhi_sensor_manager_service` in `sensor_polling.c` of
mini-hardware-interface.  A call looks for the first sensor from the current one
on whose interval has passed, reads it, and goes on to the sensor behind it.
What the sensors would deliver comes with the call.  A sensor that is due comes
nearer with every call that reads another one.
-/

namespace MiniIotRobotEdge

namespace Sensor

section Functions

variable {V : Type*}

/-- `mhi_sensor_t`; a sensor whose function `read` is null is not readable. -/
structure MhiSensor (V : Type*) where
  readable : Bool
  pollIntervalMs : UInt32
  lastPollMs : UInt32
  valueCount : Nat
  rawValues : Nat → V
  filteredValues : Option (Nat → V)

structure MhiSensorManager (V : Type*) where
  sensors : Nat → MhiSensor V
  count : Nat
  currentIndex : Nat

/-- A call, with what each sensor delivers when it is read. -/
structure ServiceCall (V : Type*) where
  nowMs : UInt32
  delivered : Nat → List V

def MhiSensor.Due (s : MhiSensor V) (nowMs : UInt32) : Prop :=
  s.readable = true ∧ s.pollIntervalMs ≤ nowMs - s.lastPollMs

instance (s : MhiSensor V) (nowMs : UInt32) : Decidable (s.Due nowMs) :=
  inferInstanceAs (Decidable (_ ∧ _))

def MhiSensor.poll (s : MhiSensor V) (nowMs : UInt32) (values : List V) : MhiSensor V :=
  let raw : Nat → V := fun position => (values[position]?).getD (s.rawValues position)
  { s with
    lastPollMs := nowMs
    valueCount := values.length
    rawValues := raw
    filteredValues :=
      if values.length = 0 then s.filteredValues
      else s.filteredValues.map fun old position =>
        if position < values.length then raw position else old position }

/-- The loop, with the number of tries left.  The result names the sensor read. -/
def serviceLoop (call : ServiceCall V) :
    Nat → MhiSensorManager V → MhiSensorManager V × Option Nat
  | 0, mgr => (mgr, none)
  | tries + 1, mgr =>
      if (mgr.sensors mgr.currentIndex).Due call.nowMs then
        ({ mgr with
            sensors := Function.update mgr.sensors mgr.currentIndex
              ((mgr.sensors mgr.currentIndex).poll call.nowMs (call.delivered mgr.currentIndex)) },
          some mgr.currentIndex)
      else
        serviceLoop call tries { mgr with currentIndex := (mgr.currentIndex + 1) % mgr.count }

def mhiSensorManagerService (mgr : MhiSensorManager V) (call : ServiceCall V) :
    MhiSensorManager V × Option Nat :=
  if mgr.count = 0 then (mgr, none)
  else
    let turned := serviceLoop call mgr.count mgr
    (if turned.1.currentIndex < turned.1.count then
        { turned.1 with currentIndex := (turned.1.currentIndex + 1) % turned.1.count }
      else turned.1, turned.2)

/-- The sensors that a list of calls reads, one entry for each call. -/
def servicedBy : MhiSensorManager V → List (ServiceCall V) → List (Option Nat)
  | _, [] => []
  | mgr, call :: rest =>
      (mhiSensorManagerService mgr call).2 :: servicedBy (mhiSensorManagerService mgr call).1 rest

end Functions

section Turns

variable {V : Type*} {mgr : MhiSensorManager V} {call : ServiceCall V}

/-- The sensor some places ahead of the current one. -/
def MhiSensorManager.ahead (mgr : MhiSensorManager V) (offset : Nat) : Nat :=
  (mgr.currentIndex + offset) % mgr.count

theorem ahead_zero (inside : mgr.currentIndex < mgr.count) : mgr.ahead 0 = mgr.currentIndex := by
  rw [MhiSensorManager.ahead, Nat.add_zero, Nat.mod_eq_of_lt inside]

/-- The sensor at the offset is read: it is due, and those in front of it are not. -/
structure ReadsAt (mgr : MhiSensorManager V) (call : ServiceCall V) (offset : Nat)
    (next : MhiSensorManager V) : Prop where
  due : (mgr.sensors (mgr.ahead offset)).Due call.nowMs
  first : ∀ earlier < offset, ¬(mgr.sensors (mgr.ahead earlier)).Due call.nowMs
  count : next.count = mgr.count
  sensors : next.sensors = Function.update mgr.sensors (mgr.ahead offset)
    ((mgr.sensors (mgr.ahead offset)).poll call.nowMs (call.delivered (mgr.ahead offset)))

/-- By induction on the tries left. -/
theorem serviceLoop_spec (call : ServiceCall V) (tries : Nat) (inside : mgr.currentIndex < mgr.count) :
    (∃ offset < tries, (serviceLoop call tries mgr).2 = some (mgr.ahead offset) ∧
        (serviceLoop call tries mgr).1.currentIndex = mgr.ahead offset ∧
        ReadsAt mgr call offset (serviceLoop call tries mgr).1) ∨
      ((∀ offset < tries, ¬(mgr.sensors (mgr.ahead offset)).Due call.nowMs) ∧
        serviceLoop call tries mgr = ({ mgr with currentIndex := mgr.ahead tries }, none)) := by
  induction tries generalizing mgr with
  | zero =>
      refine Or.inr ⟨fun _ none => absurd none (Nat.not_lt_zero _), ?_⟩
      rw [serviceLoop, ahead_zero inside]
  | succ tries ih =>
      have here := ahead_zero inside
      rw [serviceLoop]
      by_cases due : (mgr.sensors mgr.currentIndex).Due call.nowMs
      · rw [if_pos due]
        refine Or.inl ⟨0, Nat.succ_pos tries, by rw [here], here.symm, ?_⟩
        exact ⟨here.symm ▸ due, fun _ none => absurd none (Nat.not_lt_zero _), rfl, by rw [here]⟩
      · rw [if_neg due]
        have positive : 0 < mgr.count := Nat.zero_lt_of_lt inside
        have shifted : ∀ offset, MhiSensorManager.ahead
            { mgr with currentIndex := (mgr.currentIndex + 1) % mgr.count } offset =
            mgr.ahead (offset + 1) := by
          intro offset
          simp only [MhiSensorManager.ahead, Nat.mod_add_mod]
          congr 1
          omega
        have later := @ih { mgr with currentIndex := (mgr.currentIndex + 1) % mgr.count }
          (Nat.mod_lt _ positive)
        simp only [shifted] at later
        have before : ∀ {offset}, (∀ earlier < offset,
            ¬(mgr.sensors (mgr.ahead (earlier + 1))).Due call.nowMs) →
            ∀ earlier < offset + 1, ¬(mgr.sensors (mgr.ahead earlier)).Due call.nowMs := by
          intro offset notDue earlier inRange
          cases earlier with
          | zero => rwa [here]
          | succ earlier => exact notDue earlier (Nat.lt_of_succ_lt_succ inRange)
        rcases later with ⟨offset, inRange, served, index, reads⟩ | ⟨none, left⟩
        · refine Or.inl ⟨offset + 1, Nat.succ_lt_succ inRange, served, index, ?_⟩
          obtain ⟨offsetDue, first, count, sensors⟩ := reads
          simp only [shifted] at offsetDue first sensors
          exact ⟨offsetDue, before first, count, sensors⟩
        · exact Or.inr ⟨before none, left⟩

/-- A call reads the first sensor that is due and goes on behind it, or reads none. -/
theorem service_spec (call : ServiceCall V) (inside : mgr.currentIndex < mgr.count) :
    (∃ offset < mgr.count, (mhiSensorManagerService mgr call).2 = some (mgr.ahead offset) ∧
        (mhiSensorManagerService mgr call).1.currentIndex = mgr.ahead (offset + 1) ∧
        ReadsAt mgr call offset (mhiSensorManagerService mgr call).1) ∨
      ((∀ offset < mgr.count, ¬(mgr.sensors (mgr.ahead offset)).Due call.nowMs) ∧
        mhiSensorManagerService mgr call =
          ({ mgr with currentIndex := mgr.ahead 1 }, none)) := by
  have positive : 0 < mgr.count := Nat.zero_lt_of_lt inside
  have inRing : ∀ offset, mgr.ahead offset < mgr.count := fun _ => Nat.mod_lt _ positive
  have next : ∀ offset, (mgr.ahead offset + 1) % mgr.count = mgr.ahead (offset + 1) := by
    intro offset
    rw [MhiSensorManager.ahead, MhiSensorManager.ahead, Nat.mod_add_mod, Nat.add_assoc]
  rw [mhiSensorManagerService, if_neg positive.ne']
  rcases serviceLoop_spec call mgr.count inside with
    ⟨offset, inRange, served, index, reads⟩ | ⟨none, left⟩
  · refine Or.inl ⟨offset, inRange, served, ?_, ?_⟩
    all_goals
      dsimp only
      rw [if_pos (by rw [index, reads.count]; exact inRing offset)]
    · rw [index, reads.count, next]
    · exact ⟨reads.due, reads.first, reads.count, reads.sensors⟩
  · refine Or.inr ⟨none, ?_⟩
    have turned : mgr.ahead mgr.count = mgr.currentIndex := by
      rw [MhiSensorManager.ahead, Nat.add_mod_right, Nat.mod_eq_of_lt inside]
    rw [left, turned]
    dsimp only
    rw [if_pos inside]
    rfl

/-- By induction on the calls: a due sensor that is not read is nearer afterwards. -/
theorem mem_servicedBy {sensor : MhiSensor V} {offset : Nat} {calls : List (ServiceCall V)}
    (inside : mgr.currentIndex < mgr.count) (inRing : offset < mgr.count)
    (isSensor : mgr.sensors (mgr.ahead offset) = sensor)
    (due : ∀ call ∈ calls, sensor.Due call.nowMs) (long : offset < calls.length) :
    some (mgr.ahead offset) ∈ servicedBy mgr calls := by
  induction calls generalizing mgr offset with
  | nil => exact absurd long (Nat.not_lt_zero _)
  | cons call rest ih =>
      have positive : 0 < mgr.count := Nat.zero_lt_of_lt inside
      rw [servicedBy]
      rcases service_spec call inside with
        ⟨other, otherInRing, served, index, reads⟩ | ⟨none, _⟩
      · rcases Nat.lt_trichotomy other offset with before | rfl | behind
        · have place : (mhiSensorManagerService mgr call).1.ahead (offset - other - 1) =
              mgr.ahead offset := by
            rw [MhiSensorManager.ahead, index, reads.count, MhiSensorManager.ahead,
              MhiSensorManager.ahead, Nat.mod_add_mod]
            congr 1
            omega
          have apart : mgr.ahead offset ≠ mgr.ahead other := by
            intro same
            have congruent : mgr.currentIndex + offset ≡ mgr.currentIndex + other [MOD mgr.count] :=
              same
            have equal := (congruent.add_left_cancel' mgr.currentIndex).eq_of_lt_of_lt inRing
              otherInRing
            exact before.ne equal.symm
          refine List.mem_cons_of_mem _ ?_
          rw [← place]
          refine ih ?_ (by rw [reads.count]; omega) ?_ ?_ ?_
          · rw [index, reads.count]
            exact Nat.mod_lt _ positive
          · rw [place, reads.sensors, Function.update_of_ne apart, isSensor]
          · exact fun later listed => due later (List.mem_cons_of_mem call listed)
          · rw [List.length_cons] at long
            omega
        · rw [served]
          exact List.mem_cons_self
        · exact absurd (isSensor ▸ due call List.mem_cons_self) (reads.first offset behind)
      · exact absurd (isSensor ▸ due call List.mem_cons_self) (none offset inRing)

theorem exists_ahead (inside : mgr.currentIndex < mgr.count) {index : Nat}
    (inRing : index < mgr.count) : ∃ offset < mgr.count, mgr.ahead offset = index := by
  by_cases behind : mgr.currentIndex ≤ index
  · refine ⟨index - mgr.currentIndex, by omega, ?_⟩
    rw [MhiSensorManager.ahead, Nat.add_sub_cancel' behind, Nat.mod_eq_of_lt inRing]
  · refine ⟨index + mgr.count - mgr.currentIndex, by omega, ?_⟩
    rw [MhiSensorManager.ahead, Nat.add_sub_cancel' (by omega), Nat.add_mod_right,
      Nat.mod_eq_of_lt inRing]

end Turns

/-- A call reads one due sensor, and none only when none is due.  A sensor that is due
throughout as many calls as there are sensors is read by one of them. -/
theorem mhiSensorManagerService_fair {V : Type*} {mgr : MhiSensorManager V}
    (inside : mgr.currentIndex < mgr.count) :
    (∀ call : ServiceCall V,
      (mhiSensorManagerService mgr call).1.currentIndex <
          (mhiSensorManagerService mgr call).1.count ∧
        ((mhiSensorManagerService mgr call).2 = none →
          (∀ index < mgr.count, ¬(mgr.sensors index).Due call.nowMs) ∧
            (mhiSensorManagerService mgr call).1.sensors = mgr.sensors) ∧
        ∀ index, (mhiSensorManagerService mgr call).2 = some index →
          index < mgr.count ∧ (mgr.sensors index).Due call.nowMs ∧
            (mhiSensorManagerService mgr call).1.sensors = Function.update mgr.sensors index
              ((mgr.sensors index).poll call.nowMs (call.delivered index))) ∧
      ∀ index < mgr.count, ∀ calls : List (ServiceCall V), mgr.count ≤ calls.length →
        (∀ call ∈ calls, (mgr.sensors index).Due call.nowMs) →
          some index ∈ servicedBy mgr calls := by
  have positive : 0 < mgr.count := Nat.zero_lt_of_lt inside
  refine ⟨fun call => ?_, fun index inRing calls long due => ?_⟩
  · rcases service_spec call inside with
      ⟨offset, inRing, served, index, reads⟩ | ⟨none, left⟩
    · refine ⟨?_, fun idle => ?_, fun other isOther => ?_⟩
      · rw [index, reads.count]
        exact Nat.mod_lt _ positive
      · rw [served] at idle
        exact absurd idle (Option.some_ne_none _)
      · rw [served] at isOther
        obtain rfl := Option.some.inj isOther
        exact ⟨Nat.mod_lt _ positive, reads.due, reads.sensors⟩
    · rw [left]
      refine ⟨Nat.mod_lt _ positive, fun _ => ⟨fun index inRing => ?_, rfl⟩, fun _ some => ?_⟩
      · obtain ⟨offset, offsetInRing, rfl⟩ := exists_ahead inside inRing
        exact none offset offsetInRing
      · exact absurd some.symm (Option.some_ne_none _)
  · obtain ⟨offset, offsetInRing, rfl⟩ := exists_ahead inside inRing
    exact mem_servicedBy inside offsetInRing rfl due (by omega)

/-- Two sensors that are always due. -/
theorem mhiSensorManagerService_fair_two :
    some 1 ∈ servicedBy ⟨fun _ => ⟨true, 0, 0, 0, fun _ => 0, none⟩, 2, 0⟩
      [⟨5, fun _ => [1]⟩, (⟨6, fun _ => [2]⟩ : ServiceCall Nat)] :=
  (mhiSensorManagerService_fair (by decide)).2 1 (by decide) _ (by decide) (by decide)

end Sensor

end MiniIotRobotEdge

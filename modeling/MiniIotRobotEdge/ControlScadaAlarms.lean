import Mathlib.Algebra.Ring.Int.Defs
import Mathlib.Data.Int.Order.Basic
import Mathlib.Order.Lattice
import Mathlib.Tactic.ByContra
import Mathlib.Tactic.SplitIfs
import Mathlib.Tactic.Tauto
import MiniIotRobotEdge.StepRuns

/-!
# The alarms of mini-industrial-control

The model of the alarm part of `scada_collect.c`, over any linearly ordered
domain of values with addition.  An excursion of an alarm begins with the check
that sees the value back beyond the limit by the hysteresis; `WatchedAlarm`
remembers whether there was such a check and whether the alarm was acknowledged
since.  The checks never read the hysteresis, and no transition leaves the
acknowledged state.
-/

namespace MiniIotRobotEdge

namespace Control

open StepRuns

def scadaMaxTags : Nat := 256
def scadaMaxAlarms : Nat := 128
def scadaMaxTagNameLen : Nat := 48

inductive ScadaAlarmLevel
  | none
  | lolo
  | lo
  | hi
  | hihi
  | roc
  | deviation
  deriving DecidableEq, Repr

inductive ScadaAlarmState
  | normal
  | active
  | acked
  | returned
  | shelved
  deriving DecidableEq, Repr

/-- The fields of `scada_tag_t` that the alarms and the tag writes use. -/
structure ScadaTag (V : Type*) where
  name : List Char
  currentValue : V
  prevValue : V

structure ScadaAlarm (V : Type*) where
  name : List Char
  level : ScadaAlarmLevel
  limit : V
  hysteresis : V
  state : ScadaAlarmState
  activationTimeMs : Nat
  ackTimeMs : Nat
  returnTimeMs : Nat
  enabled : Bool
  tagIndex : Nat

structure ScadaCollector (V : Type*) where
  tags : List (ScadaTag V)
  alarms : List (ScadaAlarm V)

section Model

variable {V : Type*} [LinearOrder V] [Add V] [Zero V]

def scadaInitCollector : ScadaCollector V := ⟨[], []⟩

def scadaAddTag (collector : ScadaCollector V) (name : List Char) : ScadaCollector V :=
  if scadaMaxTags ≤ collector.tags.length then collector
  else { collector with
    tags := collector.tags ++ [⟨name.take (scadaMaxTagNameLen - 1), 0, 0⟩] }

def scadaAddAlarm (collector : ScadaCollector V) (name : List Char) (tagIndex : Nat)
    (level : ScadaAlarmLevel) (limit hysteresis : V) : ScadaCollector V :=
  if scadaMaxAlarms ≤ collector.alarms.length then collector
  else { collector with alarms := collector.alarms ++
      [{ name := name.take (scadaMaxTagNameLen - 1), level := level, limit := limit
         hysteresis := hysteresis, state := .normal, activationTimeMs := 0, ackTimeMs := 0
         returnTimeMs := 0, enabled := true, tagIndex := tagIndex }] }

def scadaWriteTagValue (collector : ScadaCollector V) (tagIndex : Nat) (value : V) :
    ScadaCollector V :=
  { collector with tags := collector.tags.modify tagIndex fun tag =>
      { tag with prevValue := tag.currentValue, currentValue := value } }

/-- `collector->tags[alarm->tag_index].current_value`; a tag that was never
added is all zeros. -/
def ScadaCollector.value (collector : ScadaCollector V) (alarm : ScadaAlarm V) : V :=
  (collector.tags[alarm.tagIndex]?.map ScadaTag.currentValue).getD 0

/-- The level is one of the four that are compared with the limit. -/
def ScadaAlarmLevel.limited : ScadaAlarmLevel → Bool
  | .hihi | .hi | .lo | .lolo => true
  | .none | .roc | .deviation => false

/-- `in_alarm` of `scada_check_alarms`. -/
def ScadaAlarm.inAlarm (alarm : ScadaAlarm V) (value : V) : Bool :=
  match alarm.level with
  | .hihi | .hi => decide (alarm.limit < value)
  | .lo | .lolo => decide (value < alarm.limit)
  | .none | .roc | .deviation => false

def ScadaAlarm.activate (alarm : ScadaAlarm V) (time : Nat) : ScadaAlarm V :=
  { alarm with state := .active, activationTimeMs := time }

/-- The body of the loop of `scada_check_alarms`. -/
def checkAlarm (time : Nat) (value : V) (alarm : ScadaAlarm V) : ScadaAlarm V :=
  if alarm.enabled = false then alarm
  else if alarm.level.limited = false then alarm
  else if alarm.inAlarm value = true ∧ alarm.state = .normal then alarm.activate time
  else if alarm.inAlarm value = true ∧ alarm.state = .returned then
    if alarm.level = .hi ∨ alarm.level = .hihi then
      if alarm.limit < value then alarm.activate time else alarm
    else if value < alarm.limit then alarm.activate time
    else alarm
  else if alarm.inAlarm value = false ∧ alarm.state = .active then
    { alarm with state := .returned, returnTimeMs := time }
  else alarm

def scadaCheckAlarms (collector : ScadaCollector V) (time : Nat) : ScadaCollector V :=
  { collector with
    alarms := collector.alarms.map fun alarm => checkAlarm time (collector.value alarm) alarm }

def acknowledgeAlarm (time : Nat) (alarm : ScadaAlarm V) : ScadaAlarm V :=
  if alarm.state = .active then { alarm with state := .acked, ackTimeMs := time } else alarm

/-- `scada_acknowledge_alarm` with its result. -/
def scadaAcknowledgeAlarm (collector : ScadaCollector V) (alarmIndex time : Nat) :
    ScadaCollector V × Bool :=
  ({ collector with alarms := collector.alarms.modify alarmIndex (acknowledgeAlarm time) },
    collector.alarms[alarmIndex]?.any fun alarm => alarm.state = .active)

/-- The calls that set a collector up. -/
inductive ScadaSetupCall (V : Type*)
  | addTag (name : List Char)
  | addAlarm (name : List Char) (tagIndex : Nat) (level : ScadaAlarmLevel) (limit hysteresis : V)

def scadaSetup (collector : ScadaCollector V) : ScadaSetupCall V → ScadaCollector V
  | .addTag name => scadaAddTag collector name
  | .addAlarm name tagIndex level limit hysteresis =>
      scadaAddAlarm collector name tagIndex level limit hysteresis

/-- The calls of a run. -/
inductive ScadaCall (V : Type*)
  | writeTagValue (tagIndex : Nat) (value : V)
  | checkAlarms (time : Nat)
  | acknowledgeAlarm (alarmIndex time : Nat)

def scadaExec (collector : ScadaCollector V) : ScadaCall V → ScadaCollector V
  | .writeTagValue tagIndex value => scadaWriteTagValue collector tagIndex value
  | .checkAlarms time => scadaCheckAlarms collector time
  | .acknowledgeAlarm alarmIndex time => (scadaAcknowledgeAlarm collector alarmIndex time).1

/-- The value is back beyond the limit by the hysteresis. -/
def ScadaAlarm.cleared (alarm : ScadaAlarm V) (value : V) : Bool :=
  match alarm.level with
  | .hihi | .hi => decide (value + alarm.hysteresis ≤ alarm.limit)
  | .lo | .lolo => decide (alarm.limit + alarm.hysteresis ≤ value)
  | .none | .roc | .deviation => false

/-- A collector with the history of one of its alarms: whether some check has
seen the value cleared, and whether the alarm was acknowledged since the last
check that did. -/
structure WatchedAlarm (V : Type*) where
  collector : ScadaCollector V
  seenCleared : Bool
  acknowledged : Bool

/-- The watched alarm and the value of its tag. -/
def WatchedAlarm.alarm (watched : WatchedAlarm V) (index : Nat) : Option (ScadaAlarm V) :=
  watched.collector.alarms[index]?

/-- A check now would see the value of the alarm cleared. -/
def WatchedAlarm.seesCleared (watched : WatchedAlarm V) (index : Nat) : Bool :=
  (watched.alarm index).any fun alarm => alarm.cleared (watched.collector.value alarm)

def watchedAlarmStep (index : Nat) (watched : WatchedAlarm V) (call : ScadaCall V) :
    WatchedAlarm V where
  collector := scadaExec watched.collector call
  seenCleared :=
    match call with
    | .checkAlarms _ => watched.seenCleared || watched.seesCleared index
    | _ => watched.seenCleared
  acknowledged :=
    match call with
    | .checkAlarms _ => watched.acknowledged && !watched.seesCleared index
    | .acknowledgeAlarm alarmIndex time =>
        watched.acknowledged ||
          (alarmIndex == index && (scadaAcknowledgeAlarm watched.collector alarmIndex time).2)
    | .writeTagValue _ _ => watched.acknowledged

/-- A check that sees the value beyond the limit, after an earlier one saw it
cleared, leaves the alarm active unless it was acknowledged in between. -/
def Reactivates (index : Nat) (watched : WatchedAlarm V) (call : ScadaCall V) : Prop :=
  ∀ alarm ∈ watched.alarm index, ∀ time, call = .checkAlarms time →
    alarm.inAlarm (watched.collector.value alarm) = true → watched.seenCleared = true →
    watched.acknowledged = false →
    ((watchedAlarmStep index watched call).alarm index).map ScadaAlarm.state = some .active

/-- An active alarm does not return before the value is cleared. -/
def HoldsActive (index : Nat) (watched : WatchedAlarm V) (call : ScadaCall V) : Prop :=
  ∀ alarm ∈ watched.alarm index, alarm.state = .active →
    alarm.cleared (watched.collector.value alarm) = false →
    ((watchedAlarmStep index watched call).alarm index).map ScadaAlarm.state ≠ some .returned

/-- The checks that treat the alarm as its hysteresis asks for. -/
def CheckInOrder (index : Nat) (watched : WatchedAlarm V) : ScadaCall V → Prop
  | .checkAlarms _ => ∀ alarm ∈ watched.alarm index,
      (alarm.state = .active → alarm.inAlarm (watched.collector.value alarm) = true ∨
        alarm.cleared (watched.collector.value alarm) = true) ∧
      (alarm.state = .acked → alarm.inAlarm (watched.collector.value alarm) = true →
        watched.acknowledged = true)
  | _ => True

/-- What every run keeps of the watched alarm. -/
structure AlarmKept (index : Nat) (watched : WatchedAlarm V) : Prop where
  enabled : ∀ alarm ∈ watched.alarm index, alarm.enabled = true
  unshelved : ∀ alarm ∈ watched.alarm index, alarm.state ≠ .shelved
  unlimited : ∀ alarm ∈ watched.alarm index, alarm.level.limited = false → alarm.state = .normal
  acked : ∀ alarm ∈ watched.alarm index, alarm.state = .acked →
    watched.acknowledged = true ∨ watched.seenCleared = true

end Model

/-- The state of an alarm after a check, by what the check sees. -/
def checkedState : Bool → ScadaAlarmState → ScadaAlarmState
  | true, .normal | true, .returned => .active
  | false, .active => .returned
  | _, state => state

/-- What a check makes of the state, against the two demands on it. -/
theorem checkedState_iff {inAlarm cleared seen acknowledged : Bool} {state : ScadaAlarmState}
    (unshelved : state ≠ .shelved) (acked : state = .acked → acknowledged = true ∨ seen = true) :
    ((inAlarm = true → seen = true → acknowledged = false → checkedState inAlarm state = .active) ∧
      (state = .active → cleared = false → checkedState inAlarm state ≠ .returned)) ↔
    ((state = .active → inAlarm = true ∨ cleared = true) ∧
      (state = .acked → inAlarm = true → acknowledged = true)) := by
  cases state with
  | normal => cases inAlarm <;> simp [checkedState]
  | active => cases inAlarm <;> simp [checkedState]
  | acked => cases inAlarm <;> cases acknowledged <;> simp_all [checkedState]
  | returned => cases inAlarm <;> simp [checkedState]
  | shelved => exact absurd rfl unshelved

section Alarm

variable {V : Type*} [LinearOrder V] {alarm : ScadaAlarm V} {time : Nat} {value : V}

theorem inAlarm_of_unlimited (unlimited : alarm.level.limited = false) :
    alarm.inAlarm value = false := by
  unfold ScadaAlarm.inAlarm
  cases level : alarm.level <;> simp_all [ScadaAlarmLevel.limited]

theorem checkAlarm_state (time : Nat) (value : V) (enabled : alarm.enabled = true)
    (unlimited : alarm.level.limited = false → alarm.state = .normal) :
    (checkAlarm time value alarm).state = checkedState (alarm.inAlarm value) alarm.state := by
  unfold checkAlarm
  rw [if_neg (by simp [enabled])]
  by_cases limited : alarm.level.limited = false
  · rw [if_pos limited, inAlarm_of_unlimited limited, unlimited limited]
    rfl
  rw [if_neg limited]
  have beyond : alarm.inAlarm value = true →
      (alarm.level = .hi ∨ alarm.level = .hihi) ∧ alarm.limit < value ∨
        ¬(alarm.level = .hi ∨ alarm.level = .hihi) ∧ value < alarm.limit := by
    unfold ScadaAlarm.inAlarm
    cases alarm.level <;> simp
  cases inAlarm : alarm.inAlarm value with
  | false => cases state : alarm.state <;> simp [checkedState, state]
  | true =>
      cases state : alarm.state <;> simp [checkedState, ScadaAlarm.activate, state]
      rcases beyond inAlarm with ⟨high, above⟩ | ⟨low, below⟩
      · simp [high, above]
      · simp [low, below]

/-- A check changes the state of an alarm and two of its times. -/
theorem checkAlarm_fields : (checkAlarm time value alarm).enabled = alarm.enabled ∧
    (checkAlarm time value alarm).level = alarm.level := by
  unfold checkAlarm ScadaAlarm.activate
  split_ifs <;> exact ⟨rfl, rfl⟩

omit [LinearOrder V] in
theorem acknowledgeAlarm_fields : (acknowledgeAlarm time alarm).enabled = alarm.enabled ∧
    (acknowledgeAlarm time alarm).level = alarm.level := by
  unfold acknowledgeAlarm
  split_ifs <;> exact ⟨rfl, rfl⟩

omit [LinearOrder V] in
theorem acknowledgeAlarm_state : (acknowledgeAlarm time alarm).state =
    if alarm.state = .active then .acked else alarm.state := by
  unfold acknowledgeAlarm
  split_ifs <;> rfl

end Alarm

section Steps

variable {V : Type*} [LinearOrder V] [Add V] [Zero V] {index : Nat} {watched : WatchedAlarm V}

theorem alarm_check (time : Nat) :
    (watchedAlarmStep index watched (.checkAlarms time)).alarm index =
      (watched.alarm index).map fun alarm =>
        checkAlarm time (watched.collector.value alarm) alarm :=
  List.getElem?_map

theorem alarm_acknowledge (alarmIndex time : Nat) :
    (watchedAlarmStep index watched (.acknowledgeAlarm alarmIndex time)).alarm index =
      (watched.alarm index).map fun alarm =>
        if alarmIndex = index then acknowledgeAlarm time alarm else alarm := by
  unfold WatchedAlarm.alarm watchedAlarmStep scadaExec scadaAcknowledgeAlarm
  dsimp only
  rw [List.getElem?_modify]
  split_ifs <;> rfl

theorem AlarmKept.check (kept : AlarmKept index watched) (time : Nat) :
    AlarmKept index (watchedAlarmStep index watched (.checkAlarms time)) := by
  have states : ∀ alarm ∈ watched.alarm index,
      (checkAlarm time (watched.collector.value alarm) alarm).state =
        checkedState (alarm.inAlarm (watched.collector.value alarm)) alarm.state :=
    fun alarm found =>
      checkAlarm_state _ _ (kept.enabled alarm found) (kept.unlimited alarm found)
  constructor
  all_goals
    intro changed found
    rw [alarm_check] at found
    obtain ⟨alarm, before, rfl⟩ := Option.map_eq_some_iff.mp found
  · exact checkAlarm_fields.1.trans (kept.enabled alarm before)
  · rw [states alarm before]
    have unshelved := kept.unshelved alarm before
    cases alarm.inAlarm (watched.collector.value alarm) <;> cases state : alarm.state <;>
      simp_all [checkedState]
  · intro unlimited
    rw [checkAlarm_fields.2] at unlimited
    rw [states alarm before, inAlarm_of_unlimited unlimited, kept.unlimited alarm before unlimited]
    rfl
  · intro acked
    have already : alarm.state = .acked := by
      rw [states alarm before] at acked
      cases inAlarm : alarm.inAlarm (watched.collector.value alarm) <;>
        cases state : alarm.state <;> simp_all [checkedState]
    have history := kept.acked alarm before already
    simp only [watchedAlarmStep, Bool.and_eq_true, Bool.or_eq_true, Bool.not_eq_true']
    cases watched.seesCleared index <;> tauto

/-- Another alarm is acknowledged, or none. -/
theorem AlarmKept.acknowledgeOther (kept : AlarmKept index watched) {alarmIndex : Nat}
    (other : alarmIndex ≠ index) (time : Nat) :
    AlarmKept index (watchedAlarmStep index watched (.acknowledgeAlarm alarmIndex time)) := by
  have unchanged : (watchedAlarmStep index watched
      (.acknowledgeAlarm alarmIndex time)).alarm index = watched.alarm index := by
    rw [alarm_acknowledge]
    simp [other]
  refine ⟨?_, ?_, ?_, ?_⟩ <;> rw [unchanged]
  · exact kept.enabled
  · exact kept.unshelved
  · exact kept.unlimited
  · intro alarm found acked
    rcases kept.acked alarm found acked with earlier | seen
    · exact .inl (by simp [watchedAlarmStep, earlier])
    · exact .inr seen

theorem AlarmKept.acknowledge (kept : AlarmKept index watched) (time : Nat) :
    AlarmKept index (watchedAlarmStep index watched (.acknowledgeAlarm index time)) := by
  constructor
  all_goals
    intro changed found
    rw [alarm_acknowledge] at found
    obtain ⟨alarm, before, rfl⟩ := Option.map_eq_some_iff.mp found
    rw [if_pos rfl]
  · exact acknowledgeAlarm_fields.1.trans (kept.enabled alarm before)
  · rw [acknowledgeAlarm_state]
    split_ifs
    · simp
    · exact kept.unshelved alarm before
  · rw [acknowledgeAlarm_fields.2, acknowledgeAlarm_state]
    intro unlimited
    rw [if_neg (by simp [kept.unlimited alarm before unlimited])]
    exact kept.unlimited alarm before unlimited
  · rw [acknowledgeAlarm_state]
    split_ifs with active
    · have result : (scadaAcknowledgeAlarm watched.collector index time).2 = true := by
        have found : watched.collector.alarms[index]? = some alarm := before
        simp [scadaAcknowledgeAlarm, found, active]
      intro _
      exact .inl (by simp [watchedAlarmStep, result])
    · intro acked
      rcases kept.acked alarm before acked with earlier | seen
      · exact .inl (by simp [watchedAlarmStep, earlier])
      · exact .inr seen

theorem alarmKept_step (call : ScadaCall V) (kept : AlarmKept index watched) :
    AlarmKept index (watchedAlarmStep index watched call) := by
  cases call with
  | writeTagValue tagIndex value =>
      exact ⟨kept.enabled, kept.unshelved, kept.unlimited, kept.acked⟩
  | checkAlarms time => exact kept.check time
  | acknowledgeAlarm alarmIndex time =>
      by_cases same : alarmIndex = index
      · rw [same]
        exact kept.acknowledge time
      · exact kept.acknowledgeOther same time

/-- A step meets both demands on the alarm exactly when it is a check in order,
or no check. -/
theorem excursion_step (call : ScadaCall V) (kept : AlarmKept index watched) :
    (Reactivates index watched call ∧ HoldsActive index watched call) ↔
      CheckInOrder index watched call := by
  cases call with
  | writeTagValue tagIndex value =>
      refine iff_of_true ⟨?_, ?_⟩ trivial
      · rintro alarm _ time call
        cases call
      · intro alarm found active _
        have same : (watchedAlarmStep index watched (.writeTagValue tagIndex value)).alarm index =
            some alarm := found
        simp [same, active]
  | acknowledgeAlarm alarmIndex time =>
      refine iff_of_true ⟨?_, ?_⟩ trivial
      · rintro alarm _ time call
        cases call
      · intro alarm found active _
        rw [alarm_acknowledge, Option.mem_def.mp found, Option.map_some, Option.map_some]
        split_ifs
        · simp [acknowledgeAlarm_state, active]
        · simp [active]
  | checkAlarms time =>
      have decided : ∀ alarm ∈ watched.alarm index, ((watchedAlarmStep index watched
          (.checkAlarms time)).alarm index).map ScadaAlarm.state =
            some (checkedState (alarm.inAlarm (watched.collector.value alarm)) alarm.state) := by
        intro alarm found
        rw [alarm_check, Option.mem_def.mp found, Option.map_some, Option.map_some,
          checkAlarm_state _ _ (kept.enabled alarm found) (kept.unlimited alarm found)]
      constructor
      · rintro ⟨reactivates, holds⟩ alarm found
        apply (checkedState_iff (kept.unshelved alarm found) (kept.acked alarm found)).mp
        constructor
        · intro inAlarm seen unacknowledged
          have active := reactivates alarm found time rfl inAlarm seen unacknowledged
          rw [decided alarm found] at active
          exact Option.some.inj active
        · intro active uncleared returned
          apply holds alarm found active uncleared
          rw [decided alarm found, returned]
      · intro inOrder
        have demands : ∀ alarm ∈ watched.alarm index, _ := fun alarm found =>
          (checkedState_iff (kept.unshelved alarm found) (kept.acked alarm found)).mpr
            (inOrder alarm found)
        constructor
        · intro alarm found _ _ inAlarm seen unacknowledged
          rw [decided alarm found, (demands alarm found).1 inAlarm seen unacknowledged]
        · intro alarm found active uncleared
          rw [decided alarm found]
          exact fun returned =>
            (demands alarm found).2 active uncleared (Option.some.inj returned)

end Steps

section Runs

variable {V : Type*} [LinearOrder V] [Add V] [Zero V]

/-- A collector that has been set up, with one of its alarms watched. -/
def watchedSetup (setups : List (ScadaSetupCall V)) : WatchedAlarm V :=
  ⟨after scadaSetup scadaInitCollector setups, false, false⟩

/-- Alarms that were added and never checked. -/
def FreshAlarms (collector : ScadaCollector V) : Prop :=
  ∀ alarm ∈ collector.alarms, alarm.enabled = true ∧ alarm.state = .normal

omit [LinearOrder V] [Add V] in
theorem freshAlarms_setup (collector : ScadaCollector V) (call : ScadaSetupCall V)
    (fresh : FreshAlarms collector) : FreshAlarms (scadaSetup collector call) := by
  cases call with
  | addTag name =>
      unfold scadaSetup scadaAddTag
      dsimp only
      split_ifs <;> exact fresh
  | addAlarm name tagIndex level limit hysteresis =>
      unfold scadaSetup scadaAddAlarm
      dsimp only
      split_ifs
      · exact fresh
      · intro alarm member
        rcases List.mem_append.mp member with old | new
        · exact fresh alarm old
        · obtain rfl := List.mem_singleton.mp new
          exact ⟨rfl, rfl⟩

omit [LinearOrder V] [Add V] in
theorem alarmKept_setup (setups : List (ScadaSetupCall V)) (index : Nat) :
    AlarmKept index (watchedSetup setups) := by
  have fresh : FreshAlarms (after scadaSetup scadaInitCollector setups) :=
    (always_of_kept freshAlarms_setup (by simp [FreshAlarms, scadaInitCollector])).last
  have normal : ∀ alarm ∈ (watchedSetup setups).alarm index,
      alarm.enabled = true ∧ alarm.state = .normal :=
    fun alarm found => fresh alarm (List.mem_of_getElem? found)
  refine ⟨fun alarm found => (normal alarm found).1, fun alarm found => ?_,
    fun alarm found _ => (normal alarm found).2, fun alarm found acked => ?_⟩
  · simp [(normal alarm found).2]
  · simp [(normal alarm found).2] at acked

/-- In a run of any collector, an alarm comes back with every excursion and
stays until the value is cleared exactly when every check finds it in order. -/
theorem alarm_excursions_iff (setups : List (ScadaSetupCall V)) (index : Nat)
    (calls : List (ScadaCall V)) :
    Throughout (watchedAlarmStep index) (fun watched call =>
        Reactivates index watched call ∧ HoldsActive index watched call)
      (watchedSetup setups) calls ↔
      Throughout (watchedAlarmStep index) (CheckInOrder index) (watchedSetup setups) calls :=
  throughout_iff (fun _ call kept _ _ => alarmKept_step call kept)
    (fun _ call kept => excursion_step call kept) (alarmKept_setup setups index)

end Runs

/-- A tag, and an alarm above 80 with a hysteresis of 2. -/
def hiAlarm : List (ScadaSetupCall Int) := [.addTag [], .addAlarm [] 0 .hi 80 2]

/-- The second excursion of an acknowledged alarm is silent, and an alarm
returns at 79, above 78. -/
theorem alarm_excursions_missed :
    (¬∀ calls, Throughout (watchedAlarmStep 0) (Reactivates 0) (watchedSetup hiAlarm) calls) ∧
      ¬∀ calls, Throughout (watchedAlarmStep 0) (HoldsActive 0) (watchedSetup hiAlarm) calls := by
  constructor
  · intro reactivates
    obtain ⟨_, _, _, _, _, _, last, _⟩ := reactivates [.writeTagValue 0 85, .checkAlarms 1,
      .acknowledgeAlarm 0 2, .writeTagValue 0 70, .checkAlarms 3, .writeTagValue 0 85,
      .checkAlarms 4]
    have active := last _ rfl 4 rfl (by decide) (by decide) (by decide)
    exact absurd active (by decide)
  · intro holds
    obtain ⟨_, _, _, last, _⟩ := holds [.writeTagValue 0 85, .checkAlarms 1, .writeTagValue 0 79,
      .checkAlarms 2]
    exact last _ rfl (by decide) (by decide) (by decide)

end Control

end MiniIotRobotEdge

import MiniIotRobotEdge.ControlPlcLadder
import MiniIotRobotEdge.TrailingRuns

/-!
# The delay timers of the ladder programs

What an on-delay and an off-delay timer show after any history of inputs: both
count the scans of the run at the end of the history, up to the preset.
-/

namespace MiniIotRobotEdge

namespace Control

open StepRuns TrailingRuns

/-- One scan of a timer, with the power of its rung as the input. -/
def plcTimerScan (timer : PlcTimer) (input : Bool) : PlcTimer :=
  plcUpdateTimer { timer with inputState := input }

/-- The evaluation of a rung is a scan of each of its timers. -/
theorem plcEvaluateRung_timers (rung : PlcRung) : (plcEvaluateRung rung).timers =
    rung.timers.map fun timer => plcTimerScan timer (rungPower rung) := by
  rw [plcEvaluateRung]
  rfl

/-- The timer as it is set up. -/
def plcNewTimer (name : List Char) (type : PlcTimerType) (presetMs : Nat) : PlcTimer :=
  ⟨name.take (plcMaxNameLen - 1), type, presetMs, 0, false, false, false⟩

/-- The timer that `plc_add_timer` has put behind the others. -/
theorem eq_plcNewTimer {rung : PlcRung} {name : List Char} {type : PlcTimerType} {presetMs : Nat}
    {timer : PlcTimer}
    (added : (plcAddTimer rung name type presetMs).timers = rung.timers ++ [timer]) :
    timer = plcNewTimer name type presetMs := by
  rw [plcAddTimer] at added
  split_ifs at added with full
  · have length := congrArg List.length added
    simp at length
  · simpa [plcNewTimer] using (List.append_cancel_left added).symm

/-- The scans that a preset takes, the last one included. -/
def presetScans (presetMs : Nat) : Nat := max 1 ((presetMs + 9) / 10)

theorem presetScans_le_iff (presetMs count : Nat) :
    presetScans presetMs ≤ count ↔ 0 < count ∧ presetMs ≤ 10 * count := by
  rw [presetScans]
  omega

section Counting

/-- The time of a running timer, which starts from zero, is one scan longer. -/
def PlcTimer.running (timer : PlcTimer) : PlcTimer :=
  (if timer.timing then timer else { timer with timing := true, accumulatedMs := 0 }).elapse

/-- A scan that counts: the output changes when the preset is reached. -/
def PlcTimer.count (timer : PlcTimer) (reached : Bool) : PlcTimer :=
  if timer.running.presetMs ≤ timer.running.accumulatedMs then
    { timer.running with accumulatedMs := timer.running.presetMs, done := reached }
  else timer.running

/-- A scan that does not count. -/
def PlcTimer.rest (timer : PlcTimer) (done : Bool) : PlcTimer :=
  { timer with timing := false, accumulatedMs := 0, done := done }

theorem plcTimerScan_ton {timer : PlcTimer} (isTon : timer.type = .ton) (input : Bool) :
    plcTimerScan timer input = if input then { timer with inputState := input }.count true
      else { timer with inputState := input }.rest false := by
  simp only [plcTimerScan, plcUpdateTimer, isTon, PlcTimer.count, PlcTimer.running, PlcTimer.rest]

theorem plcTimerScan_tof {timer : PlcTimer} (isTof : timer.type = .tof) (input : Bool) :
    plcTimerScan timer input = if input then { timer with inputState := input }.rest true
      else { timer with inputState := input }.count false := by
  simp only [plcTimerScan, plcUpdateTimer, isTof, PlcTimer.count, PlcTimer.running, PlcTimer.rest]

variable (timer : PlcTimer)

@[simp]
theorem running_type : timer.running.type = timer.type := by
  rw [PlcTimer.running]
  split_ifs <;> rfl

@[simp]
theorem running_presetMs : timer.running.presetMs = timer.presetMs := by
  rw [PlcTimer.running]
  split_ifs <;> rfl

@[simp]
theorem running_done : timer.running.done = timer.done := by
  rw [PlcTimer.running]
  split_ifs <;> rfl

@[simp]
theorem running_timing : timer.running.timing = true := by
  rw [PlcTimer.running]
  split_ifs with timing
  · exact timing
  · rfl

@[simp]
theorem count_type (reached : Bool) : (timer.count reached).type = timer.type := by
  rw [PlcTimer.count]
  split_ifs <;> simp

/-- A timer that has counted so many scans in a row, up to its preset. -/
structure Counted (timer : PlcTimer) (preset scans : Nat) : Prop where
  presetMs : timer.presetMs = preset
  accumulatedMs : timer.accumulatedMs = min (10 * scans) preset
  timing : timer.timing = decide (0 < scans)

variable {timer} {preset scans : Nat}

theorem Counted.withInput (counted : Counted timer preset scans) (input : Bool) :
    Counted { timer with inputState := input } preset scans :=
  ⟨counted.presetMs, counted.accumulatedMs, counted.timing⟩

theorem Counted.rest (counted : Counted timer preset scans) (done : Bool) :
    Counted (timer.rest done) preset 0 :=
  ⟨counted.presetMs, by simp [PlcTimer.rest], by simp [PlcTimer.rest]⟩

theorem Counted.running (counted : Counted timer preset scans) (bounded : preset ≤ 2 ^ 32 - 11) :
    timer.running.accumulatedMs = min (10 * scans) preset + 10 := by
  by_cases started : 0 < scans
  · have timing : timer.timing = true := by simp [counted.timing, started]
    rw [PlcTimer.running, if_pos timing, PlcTimer.elapse, counted.accumulatedMs, plcScanPeriodMs]
    exact Nat.mod_eq_of_lt (by omega)
  · have timing : timer.timing = false := by simp [counted.timing, started]
    obtain rfl : scans = 0 := by omega
    simp [PlcTimer.running, timing, PlcTimer.elapse, plcScanPeriodMs]

/-- One more scan in the row. -/
theorem Counted.count (counted : Counted timer preset scans) (bounded : preset ≤ 2 ^ 32 - 11)
    (reached : Bool) : Counted (timer.count reached) preset (scans + 1) := by
  have time := counted.running bounded
  have presetMs := counted.presetMs
  rw [PlcTimer.count, running_presetMs, presetMs, time]
  split_ifs with full
  · constructor
    · simpa using presetMs
    · simp
      omega
    · simp
  · constructor
    · simpa using presetMs
    · rw [time]
      omega
    · simp

/-- The output after one more scan in the row. -/
theorem Counted.count_done (counted : Counted timer preset scans) (bounded : preset ≤ 2 ^ 32 - 11)
    (reached : Bool) : (timer.count reached).done =
      if preset ≤ 10 * (scans + 1) then reached else timer.done := by
  have full : preset ≤ min (10 * scans) preset + 10 ↔ preset ≤ 10 * (scans + 1) := by omega
  rw [PlcTimer.count, running_presetMs, counted.presetMs, counted.running bounded]
  simp only [full]
  split_ifs
  · rfl
  · exact running_done timer

theorem Counted.le (counted : Counted timer preset scans) :
    timer.accumulatedMs ≤ preset := by
  rw [counted.accumulatedMs]
  exact Nat.min_le_right _ _

end Counting

section Histories

variable {preset : Nat} {timer : PlcTimer}

/-- What an on-delay timer is after a history. -/
structure OnDelay (timer : PlcTimer) (preset : Nat) (history : List Bool) : Prop where
  type : timer.type = .ton
  counted : Counted timer preset (trailing true history)
  done : timer.done = decide (presetScans preset ≤ trailing true history)

/-- What an off-delay timer is after a history. -/
structure OffDelay (timer : PlcTimer) (preset : Nat) (history : List Bool) : Prop where
  type : timer.type = .tof
  counted : Counted timer preset (trailing false history)
  done : timer.done = decide (true ∈ history ∧ trailing false history < presetScans preset)

theorem counted_plcNewTimer (name : List Char) (type : PlcTimerType) :
    Counted (plcNewTimer name type preset) preset 0 :=
  ⟨rfl, by simp [plcNewTimer], rfl⟩

@[simp]
theorem presetScans_ne_zero : presetScans preset ≠ 0 := by
  rw [presetScans]
  omega

theorem onDelay_nil (name : List Char) : OnDelay (plcNewTimer name .ton preset) preset [] :=
  ⟨rfl, counted_plcNewTimer name .ton, by simp [plcNewTimer]⟩

theorem offDelay_nil (name : List Char) : OffDelay (plcNewTimer name .tof preset) preset [] :=
  ⟨rfl, counted_plcNewTimer name .tof, by simp [plcNewTimer]⟩

theorem OnDelay.scan {history : List Bool} (delay : OnDelay timer preset history)
    (bounded : preset ≤ 2 ^ 32 - 11) (input : Bool) :
    OnDelay (plcTimerScan timer input) preset (history ++ [input]) := by
  have counted := delay.counted.withInput input
  rw [plcTimerScan_ton delay.type]
  cases input with
  | false =>
      rw [if_neg (by decide)]
      constructor
      · exact delay.type
      · rw [trailing_concat_of_ne true (by decide)]
        exact counted.rest false
      · rw [trailing_concat_of_ne true (by decide)]
        simp [PlcTimer.rest]
  | true =>
      rw [if_pos rfl]
      constructor
      · rw [count_type]
        exact delay.type
      · rw [trailing_concat_self]
        exact counted.count bounded true
      · rw [trailing_concat_self, counted.count_done bounded, delay.done]
        simp only [presetScans_le_iff]
        split_ifs with full
        · simp [full]
        · have before : ¬ preset ≤ 10 * trailing true history := by omega
          simp [full, before]

theorem OffDelay.scan {history : List Bool} (delay : OffDelay timer preset history)
    (bounded : preset ≤ 2 ^ 32 - 11) (input : Bool) :
    OffDelay (plcTimerScan timer input) preset (history ++ [input]) := by
  have counted := delay.counted.withInput input
  rw [plcTimerScan_tof delay.type]
  cases input with
  | false =>
      rw [if_neg (by decide)]
      constructor
      · rw [count_type]
        exact delay.type
      · rw [trailing_concat_self]
        exact counted.count bounded false
      · rw [trailing_concat_self, counted.count_done bounded, delay.done]
        simp only [← not_le, presetScans_le_iff]
        split_ifs with full
        · simp [full]
        · have before : ¬ preset ≤ 10 * trailing false history := by omega
          simp [full, before]
  | true =>
      rw [if_pos rfl]
      constructor
      · exact delay.type
      · rw [trailing_concat_of_ne false (by decide)]
        exact counted.rest true
      · rw [trailing_concat_of_ne false (by decide)]
        simp [PlcTimer.rest, ← not_le]

theorem onDelay_after (name : List Char) (bounded : preset ≤ 2 ^ 32 - 11) (inputs : List Bool) :
    OnDelay (after plcTimerScan (plcNewTimer name .ton preset) inputs) preset inputs := by
  induction inputs using List.reverseRecOn with
  | nil => exact onDelay_nil name
  | append_singleton inputs input induction =>
      rw [after, List.foldl_append]
      exact induction.scan bounded input

theorem offDelay_after (name : List Char) (bounded : preset ≤ 2 ^ 32 - 11) (inputs : List Bool) :
    OffDelay (after plcTimerScan (plcNewTimer name .tof preset) inputs) preset inputs := by
  induction inputs using List.reverseRecOn with
  | nil => exact offDelay_nil name
  | append_singleton inputs input induction =>
      rw [after, List.foldl_append]
      exact induction.scan bounded input

end Histories

/-- An on-delay timer is done when the input has been on for as many scans as
the preset takes, and an off-delay timer is done from an input that is on until
as many scans without one. -/
theorem plcTimers_done_iff (rung : PlcRung) (name : List Char) (type : PlcTimerType)
    (presetMs : Nat) (timer : PlcTimer) (inputs : List Bool)
    (added : (plcAddTimer rung name type presetMs).timers = rung.timers ++ [timer])
    (bounded : presetMs ≤ 2 ^ 32 - 11) :
    let last := after plcTimerScan timer inputs
    let scans := max 1 ((presetMs + 9) / 10)
    (type = .ton → (last.done = true ↔ List.replicate scans true <:+ inputs) ∧
      last.accumulatedMs ≤ presetMs) ∧
    (type = .tof → (last.done = true ↔
        ∃ front count, inputs = front ++ true :: List.replicate count false ∧ count < scans) ∧
      last.accumulatedMs ≤ presetMs) := by
  rw [eq_plcNewTimer added]
  constructor
  · rintro rfl
    have delay := onDelay_after name bounded inputs
    rw [delay.done, decide_eq_true_eq, replicate_suffix_iff]
    exact ⟨Iff.rfl, delay.counted.le⟩
  · rintro rfl
    have delay := offDelay_after name bounded inputs
    rw [delay.done, decide_eq_true_eq]
    exact ⟨(exists_last_iff true inputs _).symm, delay.counted.le⟩

theorem plcTimers_done_iff_first :
    let rung : PlcRung := ⟨[], [], [], [], false⟩
    let timer := plcNewTimer ['T', '1'] .ton 25
    let last := after plcTimerScan timer [false, true, true, true]
    let scans := max 1 ((25 + 9) / 10)
    (plcAddTimer rung ['T', '1'] .ton 25).timers = rung.timers ++ [timer] ∧
    (last.done = true ↔ List.replicate scans true <:+ [false, true, true, true]) ∧
      last.accumulatedMs ≤ 25 :=
  ⟨rfl, (plcTimers_done_iff ⟨[], [], [], [], false⟩ ['T', '1'] .ton 25
    (plcNewTimer ['T', '1'] .ton 25) [false, true, true, true] rfl (by decide)).1 rfl⟩

end Control

end MiniIotRobotEdge

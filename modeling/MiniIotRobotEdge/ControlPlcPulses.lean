import MiniIotRobotEdge.ControlPlcTimers

/-!
# The pulse timer of the ladder programs

A pulse ends when its time is up.  An input that goes off before stops the time
and leaves the output on; an input that stays on behind the end starts the next
pulse; and the largest presets are never reached, because the time wraps around.
-/

namespace MiniIotRobotEdge

namespace Control

open StepRuns

section Model

variable (name : List Char) (presetMs : Nat) (inputs : Nat → Bool)

/-- A pulse timer after so many scans of a stream of inputs. -/
def pulseTimer (scans : Nat) : PlcTimer :=
  after plcTimerScan (plcNewTimer name .tp presetMs) ((List.range scans).map inputs)

/-- The input of the scan is on, and that of the scan before is not. -/
def Rising (inputs : Nat → Bool) (scan : Nat) : Prop :=
  inputs scan = true ∧ ∀ before, scan = before + 1 → inputs before = false

/-- The scans that a preset lasts. -/
def pulseScans : Nat := (presetMs + 9) / 10

/-- A pulse starts at a rising edge alone, and a pulse that starts is over in time. -/
structure PulsesKept : Prop where
  starts : ∀ scan, (pulseTimer name presetMs inputs scan).done = false →
    (pulseTimer name presetMs inputs (scan + 1)).done = true → Rising inputs scan
  ends : ∀ scan, Rising inputs scan → (pulseTimer name presetMs inputs scan).done = false →
    ∃ later, scan < later ∧ later ≤ scan + 1 + pulseScans presetMs ∧
      (pulseTimer name presetMs inputs later).done = false

/-- The input stays on up to the last scan of a pulse that it starts, and then
goes off for a scan; and the preset can be reached. -/
structure PulseFits (scan : Nat) : Prop where
  reachable : presetMs < 2 ^ 32 - 5
  holds : ∀ index, index + 1 < pulseScans presetMs → inputs (scan + index) = true
  pauses : ¬ (inputs (scan + pulseScans presetMs - 1) = true ∧
    inputs (scan + pulseScans presetMs) = true)

end Model

section Scan

variable {timer : PlcTimer}

theorem pulseTimer_zero (name : List Char) (presetMs : Nat) (inputs : Nat → Bool) :
    pulseTimer name presetMs inputs 0 = plcNewTimer name .tp presetMs :=
  rfl

theorem pulseTimer_succ (name : List Char) (presetMs : Nat) (inputs : Nat → Bool) (scan : Nat) :
    pulseTimer name presetMs inputs (scan + 1) =
      plcTimerScan (pulseTimer name presetMs inputs scan) (inputs scan) := by
  simp [pulseTimer, after, List.range_succ]

/-- A pulse timer is at rest: what a scan without an input leaves of it. -/
theorem plcTimerScan_rest (isPulse : timer.type = .tp) (resting : timer.timing = false) :
    plcTimerScan timer false = { timer with inputState := false } := by
  cases timer
  subst isPulse resting
  rfl

theorem plcTimerScan_pass (isPulse : timer.type = .tp) (resting : timer.timing = false)
    (short : timer.presetMs ≤ 10) :
    plcTimerScan timer true =
      { timer with inputState := true, accumulatedMs := timer.presetMs, done := false } := by
  cases timer
  subst isPulse resting
  simp at short
  simp [plcTimerScan, plcUpdateTimer, PlcTimer.elapse, plcScanPeriodMs, short]

/-- A scan that starts a pulse. -/
theorem plcTimerScan_start (isPulse : timer.type = .tp) (resting : timer.timing = false)
    (long : 10 < timer.presetMs) :
    plcTimerScan timer true =
      { timer with inputState := true, timing := true, accumulatedMs := 10, done := true } := by
  cases timer
  subst isPulse resting
  simp at long
  simp [plcTimerScan, plcUpdateTimer, PlcTimer.elapse, plcScanPeriodMs, long]

/-- A scan of a running pulse that is not over. -/
theorem plcTimerScan_continue (isPulse : timer.type = .tp) (running : timer.timing = true)
    (more : (timer.accumulatedMs + 10) % 2 ^ 32 < timer.presetMs) (input : Bool) :
    plcTimerScan timer input =
      { timer with
        inputState := input, timing := input
        accumulatedMs := (timer.accumulatedMs + 10) % 2 ^ 32 } := by
  cases timer
  subst isPulse running
  simp at more
  have unfinished := Nat.not_le.mpr more
  cases input <;> simp [plcTimerScan, plcUpdateTimer, PlcTimer.elapse, plcScanPeriodMs, unfinished]

/-- The last scan of a pulse. -/
theorem plcTimerScan_end (isPulse : timer.type = .tp) (running : timer.timing = true)
    (full : timer.presetMs ≤ (timer.accumulatedMs + 10) % 2 ^ 32) (input : Bool) :
    plcTimerScan timer input =
      { timer with
        inputState := input, timing := false, accumulatedMs := timer.presetMs, done := false } := by
  cases timer
  subst isPulse running
  simp at full
  cases input <;> simp [plcTimerScan, plcUpdateTimer, PlcTimer.elapse, plcScanPeriodMs, full]

/-- What a scan makes of a pulse timer. -/
inductive PulseScan (timer : PlcTimer) (input : Bool) (next : PlcTimer) : Prop
  | rests (resting : timer.timing = false) (off : input = false) (timing : next.timing = false)
      (done : next.done = timer.done)
  | passes (resting : timer.timing = false) (on : input = true) (short : timer.presetMs ≤ 10)
      (timing : next.timing = false) (done : next.done = false)
  | starts (resting : timer.timing = false) (on : input = true) (timing : next.timing = true)
      (time : next.accumulatedMs = 10) (done : next.done = true)
  | continues (running : timer.timing = true)
      (more : (timer.accumulatedMs + 10) % 2 ^ 32 < timer.presetMs) (timing : next.timing = input)
      (time : next.accumulatedMs = (timer.accumulatedMs + 10) % 2 ^ 32)
      (done : next.done = timer.done)
  | ends (running : timer.timing = true)
      (full : timer.presetMs ≤ (timer.accumulatedMs + 10) % 2 ^ 32)
      (timing : next.timing = false) (done : next.done = false)

theorem pulseScan (isPulse : timer.type = .tp) (input : Bool) :
    PulseScan timer input (plcTimerScan timer input) := by
  cases running : timer.timing with
  | false =>
      cases input with
      | false =>
          rw [plcTimerScan_rest isPulse running]
          exact .rests running rfl running rfl
      | true =>
          by_cases short : timer.presetMs ≤ 10
          · rw [plcTimerScan_pass isPulse running short]
            exact .passes running rfl short running rfl
          · rw [plcTimerScan_start isPulse running (by omega)]
            exact .starts running rfl rfl rfl rfl
  | true =>
      by_cases full : timer.presetMs ≤ (timer.accumulatedMs + 10) % 2 ^ 32
      · rw [plcTimerScan_end isPulse running full]
        exact .ends running full rfl rfl
      · rw [plcTimerScan_continue isPulse running (by omega)]
        exact .continues running (by omega) rfl rfl rfl

/-- A scan keeps what the timer is and its preset. -/
theorem plcTimerScan_presetMs (isPulse : timer.type = .tp) (input : Bool) :
    (plcTimerScan timer input).type = .tp ∧
      (plcTimerScan timer input).presetMs = timer.presetMs := by
  cases timer
  subst isPulse
  simp only [plcTimerScan, plcUpdateTimer]
  split_ifs <;> exact ⟨rfl, rfl⟩

end Scan

section Runs

variable (name : List Char) (presetMs : Nat) (inputs : Nat → Bool)

theorem pulseTimer_presetMs (scan : Nat) : (pulseTimer name presetMs inputs scan).type = .tp ∧
    (pulseTimer name presetMs inputs scan).presetMs = presetMs := by
  induction scan with
  | zero => exact ⟨rfl, rfl⟩
  | succ scan induction =>
      rw [pulseTimer_succ]
      have kept := plcTimerScan_presetMs induction.1 (inputs scan)
      exact ⟨kept.1, kept.2.trans induction.2⟩

/-- What the next scan makes of the timer in a run. -/
theorem pulseTimer_scan (scan : Nat) : PulseScan (pulseTimer name presetMs inputs scan)
    (inputs scan) (pulseTimer name presetMs inputs (scan + 1)) := by
  rw [pulseTimer_succ]
  exact pulseScan (pulseTimer_presetMs name presetMs inputs scan).1 (inputs scan)

variable {name} {presetMs} {inputs}

/-- The output is on, and no pulse has been running for longer. -/
structure Lasts (timer : PlcTimer) (scans : Nat) : Prop where
  done : timer.done = true
  time : timer.timing = true → timer.accumulatedMs ≤ 10 * scans

theorem Lasts.scan {scan scans : Nat} (lasts : Lasts (pulseTimer name presetMs inputs scan) scans)
    (early : 10 * (scans + 1) < presetMs) :
    Lasts (pulseTimer name presetMs inputs (scan + 1)) (scans + 1) := by
  have preset := (pulseTimer_presetMs name presetMs inputs scan).2
  cases pulseTimer_scan name presetMs inputs scan with
  | rests resting off timing done => exact ⟨done.trans lasts.done, by simp [timing]⟩
  | passes resting on short timing done => omega
  | starts resting on timing time done => exact ⟨done, fun _ => by omega⟩
  | continues running more timing time done =>
      have before := lasts.time running
      have wrapped :=
        Nat.mod_le ((pulseTimer name presetMs inputs scan).accumulatedMs + 10) (2 ^ 32)
      exact ⟨done.trans lasts.done, fun _ => by omega⟩
  | ends running full timing done =>
      have before := lasts.time running
      have wrapped :=
        Nat.mod_le ((pulseTimer name presetMs inputs scan).accumulatedMs + 10) (2 ^ 32)
      omega

/-- The output stays on until the time can be up, whatever the input does. -/
theorem Lasts.run {scan scans : Nat} (lasts : Lasts (pulseTimer name presetMs inputs scan) scans)
    (more : Nat) (early : 10 * (scans + more) < presetMs) :
    Lasts (pulseTimer name presetMs inputs (scan + more)) (scans + more) := by
  induction more with
  | zero => exact lasts
  | succ more induction => exact (induction (by omega)).scan (by omega)

/-- So many scans after its start, a pulse that has not been released runs. -/
structure Pulsing (timer : PlcTimer) (scans : Nat) : Prop where
  timing : timer.timing = true
  time : timer.accumulatedMs = 10 * scans
  done : timer.done = true

/-- No pulse is running. -/
structure Idle (timer : PlcTimer) : Prop where
  timing : timer.timing = false
  done : timer.done = false

theorem idle_zero : Idle (pulseTimer name presetMs inputs 0) := by
  rw [pulseTimer_zero]
  exact ⟨rfl, rfl⟩

theorem Idle.scan_off {scan : Nat} (idle : Idle (pulseTimer name presetMs inputs scan))
    (off : inputs scan = false) : Idle (pulseTimer name presetMs inputs (scan + 1)) := by
  cases pulseTimer_scan name presetMs inputs scan with
  | rests resting off timing done => exact ⟨timing, done.trans idle.done⟩
  | passes resting on short timing done => exact ⟨timing, done⟩
  | starts resting on timing time done => simp [on] at off
  | continues running more timing time done => simp [idle.timing] at running
  | ends running full timing done => exact ⟨timing, done⟩

theorem pulsing_start {scan : Nat}
    (resting : (pulseTimer name presetMs inputs scan).timing = false)
    (on : inputs scan = true) (long : 10 < presetMs) :
    Pulsing (pulseTimer name presetMs inputs (scan + 1)) 1 := by
  have preset := (pulseTimer_presetMs name presetMs inputs scan).2
  cases pulseTimer_scan name presetMs inputs scan with
  | rests resting off timing done => simp [on] at off
  | passes resting on short timing done => omega
  | starts resting on timing time done => exact ⟨timing, time, done⟩
  | continues running more timing time done => simp [resting] at running
  | ends running full timing done => simp [resting] at running

theorem Pulsing.scan_on {scan scans : Nat}
    (pulsing : Pulsing (pulseTimer name presetMs inputs scan) scans) (on : inputs scan = true)
    (early : 10 * (scans + 1) < presetMs) (bounded : presetMs < 2 ^ 32) :
    Pulsing (pulseTimer name presetMs inputs (scan + 1)) (scans + 1) := by
  have preset := (pulseTimer_presetMs name presetMs inputs scan).2
  have before := pulsing.time
  cases pulseTimer_scan name presetMs inputs scan with
  | rests resting off timing done => simp [on] at off
  | passes resting on short timing done => simp [pulsing.timing] at resting
  | starts resting on timing time done => simp [pulsing.timing] at resting
  | continues running more timing time done =>
      exact ⟨timing.trans on, by omega, done.trans pulsing.done⟩
  | ends running full timing done => omega

theorem Pulsing.scan_end {scan scans : Nat}
    (pulsing : Pulsing (pulseTimer name presetMs inputs scan) scans)
    (full : presetMs ≤ 10 * (scans + 1)) (bounded : 10 * (scans + 1) < 2 ^ 32) :
    Idle (pulseTimer name presetMs inputs (scan + 1)) := by
  have preset := (pulseTimer_presetMs name presetMs inputs scan).2
  have before := pulsing.time
  cases pulseTimer_scan name presetMs inputs scan with
  | rests resting off timing done => simp [pulsing.timing] at resting
  | passes resting on short timing done => exact ⟨timing, done⟩
  | starts resting on timing time done => simp [pulsing.timing] at resting
  | continues running more timing time done => omega
  | ends running full timing done => exact ⟨timing, done⟩

/-- A pulse with its input on, by induction on the scans since its start. -/
theorem pulsing_of_on {scan : Nat} (resting : (pulseTimer name presetMs inputs scan).timing = false)
    (bounded : presetMs < 2 ^ 32) {scans : Nat} (positive : 1 ≤ scans)
    (early : 10 * scans < presetMs) (on : ∀ index < scans, inputs (scan + index) = true) :
    Pulsing (pulseTimer name presetMs inputs (scan + scans)) scans := by
  induction scans, positive using Nat.le_induction with
  | base => exact pulsing_start resting (on 0 (by omega)) (by omega)
  | succ scans positive induction =>
      have pulsing := induction (by omega) fun index inside => on index (by omega)
      exact pulsing.scan_on (on scans (by omega)) (by omega) bounded

/-- Where the input holds, the pulse is over when its time is up. -/
theorem idle_of_fits {scan : Nat} (resting : (pulseTimer name presetMs inputs scan).timing = false)
    (long : 10 < presetMs) (reachable : presetMs < 2 ^ 32 - 5)
    (holds : ∀ index, index + 1 < pulseScans presetMs → inputs (scan + index) = true) :
    Idle (pulseTimer name presetMs inputs (scan + pulseScans presetMs)) := by
  obtain ⟨more, scans⟩ : ∃ more, pulseScans presetMs = more + 1 :=
    ⟨pulseScans presetMs - 1, by rw [pulseScans]; omega⟩
  have time : presetMs ≤ 10 * (more + 1) ∧ 10 * (more + 1) < presetMs + 10 := by
    rw [← scans, pulseScans]
    omega
  rw [scans] at holds ⊢
  have pulsing := pulsing_of_on resting (by omega) (by omega : 1 ≤ more) (by omega)
    fun index inside => holds index (by omega)
  exact pulsing.scan_end time.1 (by omega)

/-- A pulse that is released in time leaves the output on for too long. -/
theorem done_of_released {scan : Nat}
    (resting : (pulseTimer name presetMs inputs scan).timing = false)
    (on : inputs scan = true) (long : 10 < presetMs) {index : Nat}
    (early : index + 1 < pulseScans presetMs) (released : inputs (scan + index) = false)
    {later : Nat} (behind : scan < later) (inside : later ≤ scan + 1 + pulseScans presetMs) :
    (pulseTimer name presetMs inputs later).done = true := by
  have started := pulsing_start resting on long
  have lasts : Lasts (pulseTimer name presetMs inputs (scan + 1)) 1 :=
    ⟨started.done, fun _ => by rw [started.time]⟩
  have positive : index ≠ 0 := by
    rintro rfl
    simp [on] at released
  have scans : 10 * (pulseScans presetMs - 1) < presetMs := by
    rw [pulseScans]
    omega
  by_cases before : later ≤ scan + index + 1
  · obtain ⟨more, rfl⟩ := Nat.exists_eq_add_of_le (by omega : scan + 1 ≤ later)
    exact (lasts.run more (by omega)).done
  · have output := lasts.run index (by omega)
    rw [Nat.add_right_comm] at output
    have stopped : (pulseTimer name presetMs inputs (scan + index + 1)).timing = false := by
      cases pulseTimer_scan name presetMs inputs (scan + index) with
      | rests resting off timing done => exact timing
      | passes resting on short timing done => exact timing
      | starts resting on timing time done => simp [on] at released
      | continues running more timing time done => exact timing.trans released
      | ends running full timing done => exact timing
    have stuck : Lasts (pulseTimer name presetMs inputs (scan + index + 1)) 0 :=
      ⟨output.done, by simp [stopped]⟩
    obtain ⟨more, rfl⟩ := Nat.exists_eq_add_of_le (by omega : scan + index + 1 ≤ later)
    exact (stuck.run more (by omega)).done

/-- The time of a pulse that cannot end: the whole tens since its start, or what
is left of them after it has wrapped around. -/
structure Wrapping (timer : PlcTimer) (scans : Nat) : Prop where
  done : timer.done = true
  time : timer.timing = true →
    (timer.accumulatedMs % 10 = 0 ∧ timer.accumulatedMs ≤ 10 * scans) ∨
      (429496730 ≤ scans ∧ timer.accumulatedMs + 4294967296 ≤ 10 * scans)

theorem time_cases (time : Nat) (bounded : time ≤ 2 ^ 32 + 100) :
    (time + 10 < 2 ^ 32 ∧ (time + 10) % 2 ^ 32 = time + 10) ∨
      (2 ^ 32 ≤ time + 10 ∧ (time + 10) % 2 ^ 32 + 2 ^ 32 = time + 10) := by
  omega

theorem Wrapping.scan {scan scans : Nat}
    (wrapping : Wrapping (pulseTimer name presetMs inputs scan) scans)
    (unreachable : 2 ^ 32 - 5 ≤ presetMs) (early : scans ≤ 429496731) :
    Wrapping (pulseTimer name presetMs inputs (scan + 1)) (scans + 1) := by
  have preset := (pulseTimer_presetMs name presetMs inputs scan).2
  cases pulseTimer_scan name presetMs inputs scan with
  | rests resting off timing done => exact ⟨done.trans wrapping.done, by simp [timing]⟩
  | passes resting on short timing done => omega
  | starts resting on timing time done => exact ⟨done, fun _ => by omega⟩
  | continues running more timing time done =>
      have before := wrapping.time running
      have next := time_cases (pulseTimer name presetMs inputs scan).accumulatedMs (by omega)
      rw [← time] at next
      exact ⟨done.trans wrapping.done, fun _ => by omega⟩
  | ends running full timing done =>
      have before := wrapping.time running
      have next := time_cases (pulseTimer name presetMs inputs scan).accumulatedMs (by omega)
      omega

theorem Wrapping.run {scan scans : Nat}
    (wrapping : Wrapping (pulseTimer name presetMs inputs scan) scans)
    (unreachable : 2 ^ 32 - 5 ≤ presetMs) (more : Nat) (early : scans + more ≤ 429496732) :
    Wrapping (pulseTimer name presetMs inputs (scan + more)) (scans + more) := by
  induction more with
  | zero => exact wrapping
  | succ more induction => exact (induction (by omega)).scan unreachable (by omega)

/-- One of the largest presets leaves the output on for too long. -/
theorem done_of_unreachable {scan : Nat}
    (resting : (pulseTimer name presetMs inputs scan).timing = false)
    (on : inputs scan = true) (unreachable : 2 ^ 32 - 5 ≤ presetMs) (bounded : presetMs < 2 ^ 32)
    {later : Nat} (behind : scan < later) (inside : later ≤ scan + 1 + pulseScans presetMs) :
    (pulseTimer name presetMs inputs later).done = true := by
  have started := pulsing_start resting on (by omega)
  have wrapping : Wrapping (pulseTimer name presetMs inputs (scan + 1)) 1 :=
    ⟨started.done, fun _ => by rw [started.time]; omega⟩
  have scans : pulseScans presetMs = 429496730 := by
    rw [pulseScans]
    omega
  obtain ⟨more, rfl⟩ := Nat.exists_eq_add_of_le (by omega : scan + 1 ≤ later)
  exact (wrapping.run unreachable more (by omega)).done

/-- A pulse that starts must fit its input. -/
theorem PulsesKept.fits (kept : PulsesKept name presetMs inputs) {scan : Nat}
    (idle : Idle (pulseTimer name presetMs inputs scan)) (rising : Rising inputs scan)
    (long : 10 < presetMs) (bounded : presetMs < 2 ^ 32) : PulseFits presetMs inputs scan := by
  obtain ⟨later, behind, inside, off⟩ := kept.ends scan rising idle.done
  have reachable : presetMs < 2 ^ 32 - 5 := by
    by_contra unreachable
    have output := done_of_unreachable idle.timing rising.1 (by omega) bounded behind inside
    simp [output] at off
  have holds : ∀ index, index + 1 < pulseScans presetMs → inputs (scan + index) = true := by
    intro index early
    by_contra released
    have output := done_of_released idle.timing rising.1 long early (by simpa using released)
      behind inside
    simp [output] at off
  refine ⟨reachable, holds, ?_⟩
  rintro ⟨last, next⟩
  have expired := idle_of_fits idle.timing long reachable holds
  have again := pulsing_start expired.timing next long
  have edge := (kept.starts _ expired.done again.done).2 (scan + pulseScans presetMs - 1) (by
    rw [pulseScans]
    omega)
  simp [last] at edge

/-- Between the pulses the timer is idle and its input has gone off; a pulse has
been running since a rising edge. -/
inductive PulsePhase (name : List Char) (presetMs : Nat) (inputs : Nat → Bool) (scan : Nat) : Prop
  | between (idle : Idle (pulseTimer name presetMs inputs scan))
      (edge : inputs scan = true → Rising inputs scan)
  | during (first scans : Nat) (since : scan = first + scans) (positive : 1 ≤ scans)
      (early : scans < pulseScans presetMs) (rising : Rising inputs first)
      (pulsing : Pulsing (pulseTimer name presetMs inputs scan) scans)

theorem pulsePhase_zero : PulsePhase name presetMs inputs 0 :=
  .between idle_zero fun on => ⟨on, by simp⟩

theorem PulsePhase.scan {scan : Nat} (phase : PulsePhase name presetMs inputs scan)
    (fits : ∀ first ≤ scan, Rising inputs first → PulseFits presetMs inputs first)
    (long : 10 < presetMs) (bounded : presetMs < 2 ^ 32) :
    PulsePhase name presetMs inputs (scan + 1) := by
  have lower : presetMs ≤ 10 * pulseScans presetMs ∧ 10 * pulseScans presetMs < presetMs + 10 := by
    rw [pulseScans]
    omega
  cases phase with
  | between idle edge =>
      cases input : inputs scan with
      | false =>
          refine .between (idle.scan_off input) fun on => ⟨on, ?_⟩
          intro before equal
          obtain rfl : scan = before := by omega
          exact input
      | true =>
          exact .during scan 1 rfl le_rfl (by omega) (edge input)
            (pulsing_start idle.timing input long)
  | during first scans since positive early rising pulsing =>
      have fit := fits first (by omega) rising
      by_cases last : scans + 1 = pulseScans presetMs
      · have reachable := fit.reachable
        refine .between (pulsing.scan_end (by omega) (by omega)) fun on => ⟨on, ?_⟩
        intro before equal
        by_contra held
        apply fit.pauses
        rw [← last, ← Nat.add_assoc, Nat.add_sub_cancel, ← since]
        obtain rfl : scan = before := by omega
        exact ⟨by simpa using held, on⟩
      · have on := fit.holds scans (by omega)
        rw [← since] at on
        exact .during first (scans + 1) (by omega) (by omega) (by omega) rising
          (pulsing.scan_on on (by omega) bounded)

theorem pulsePhase_of_fits (fits : ∀ scan, Rising inputs scan → PulseFits presetMs inputs scan)
    (long : 10 < presetMs) (bounded : presetMs < 2 ^ 32) (scan : Nat) :
    PulsePhase name presetMs inputs scan := by
  induction scan with
  | zero => exact pulsePhase_zero
  | succ scan induction => exact induction.scan (fun first _ => fits first) long bounded

/-- While the pulses are kept every edge fits, and the phases follow. -/
theorem PulsesKept.phase (kept : PulsesKept name presetMs inputs) (long : 10 < presetMs)
    (bounded : presetMs < 2 ^ 32) (scan : Nat) : PulsePhase name presetMs inputs scan ∧
      ∀ first < scan, Rising inputs first → PulseFits presetMs inputs first := by
  induction scan with
  | zero => exact ⟨pulsePhase_zero, by simp⟩
  | succ scan induction =>
      obtain ⟨phase, before⟩ := induction
      have now : Rising inputs scan → PulseFits presetMs inputs scan := by
        intro rising
        cases phase with
        | between idle edge => exact kept.fits idle rising long bounded
        | during first scans since positive early edge pulsing =>
            have fit := before first (by omega) edge
            have on := fit.holds (scans - 1) (by omega)
            rw [rising.2 (first + (scans - 1)) (by omega)] at on
            cases on
      have all : ∀ first < scan + 1, Rising inputs first → PulseFits presetMs inputs first := by
        intro first inside rising
        by_cases last : first = scan
        · subst last
          exact now rising
        · exact before first (by omega) rising
      exact ⟨phase.scan (fun first inside => all first (by omega)) long bounded, all⟩

theorem pulsesKept_of_fits (fits : ∀ scan, Rising inputs scan → PulseFits presetMs inputs scan)
    (long : 10 < presetMs) (bounded : presetMs < 2 ^ 32) : PulsesKept name presetMs inputs := by
  constructor
  · intro scan off output
    have phase : PulsePhase name presetMs inputs scan := pulsePhase_of_fits fits long bounded scan
    cases phase with
    | during first scans since positive early rising pulsing => simp [pulsing.done] at off
    | between idle edge =>
        apply edge
        by_contra resting
        have next := idle.scan_off (by simpa using resting)
        simp [next.done] at output
  · intro scan rising off
    have fit := fits scan rising
    have phase : PulsePhase name presetMs inputs scan := pulsePhase_of_fits fits long bounded scan
    cases phase with
    | during first scans since positive early rising pulsing => simp [pulsing.done] at off
    | between idle edge =>
        have expired := idle_of_fits idle.timing long fit.reachable fit.holds
        have behind : scan < scan + pulseScans presetMs := by
          rw [pulseScans]
          omega
        exact ⟨scan + pulseScans presetMs, behind, by omega, expired.done⟩

/-- A preset of one scan or less never shows. -/
theorem idle_of_short (short : presetMs ≤ 10) (scan : Nat) :
    Idle (pulseTimer name presetMs inputs scan) := by
  induction scan with
  | zero => exact idle_zero
  | succ scan idle =>
      have preset := (pulseTimer_presetMs name presetMs inputs scan).2
      cases input : inputs scan with
      | false => exact idle.scan_off input
      | true =>
          rw [pulseTimer_succ, input,
            plcTimerScan_pass (pulseTimer_presetMs name presetMs inputs scan).1 idle.timing
              (by omega)]
          exact ⟨idle.timing, rfl⟩

theorem pulsesKept_of_short (short : presetMs ≤ 10) : PulsesKept name presetMs inputs := by
  constructor
  · intro scan off output
    simp [(idle_of_short short (scan + 1)).done] at output
  · intro scan rising off
    exact ⟨scan + 1, by omega, by omega, (idle_of_short short (scan + 1)).done⟩

end Runs

/-- The pulses are kept exactly when the preset is not longer than one scan, or
every rising edge of the input stays on for the pulse and pauses behind it. -/
theorem pulsesKept_iff (name : List Char) (presetMs : Nat) (inputs : Nat → Bool)
    (bounded : presetMs < 2 ^ 32) : PulsesKept name presetMs inputs ↔
      presetMs ≤ 10 ∨ ∀ scan, Rising inputs scan → PulseFits presetMs inputs scan := by
  constructor
  · intro kept
    by_cases short : presetMs ≤ 10
    · exact .inl short
    · right
      intro scan rising
      exact (kept.phase (by omega) bounded (scan + 1)).2 scan (by omega) rising
  · intro condition
    by_cases short : presetMs ≤ 10
    · exact pulsesKept_of_short short
    · exact pulsesKept_of_fits (condition.resolve_left short) (by omega) bounded

theorem pulsesKept_iff_hundred : PulsesKept ['T', '3'] 100 (fun scan => decide (scan < 9)) ↔
    100 ≤ 10 ∨ ∀ scan, Rising (fun scan => decide (scan < 9)) scan →
      PulseFits 100 (fun scan => decide (scan < 9)) scan :=
  pulsesKept_iff ['T', '3'] 100 (fun scan => decide (scan < 9)) (by decide)

/-- An input that is on for one scan leaves the output on, and one that is always
on starts a second pulse. -/
theorem pulses_stuck_and_repeated :
    ¬ PulsesKept ['T', '3'] 100 (fun scan => decide (scan = 0)) ∧
    ¬ PulsesKept ['T', '3'] 20 (fun _ => true) := by
  constructor
  · intro kept
    obtain ⟨later, behind, inside, off⟩ := kept.ends 0 ⟨rfl, by simp⟩ rfl
    have on : ∀ later ≤ 11, 0 < later →
        (pulseTimer ['T', '3'] 100 (fun scan => decide (scan = 0)) later).done = true := by
      decide +kernel
    simp [on later (by simpa [pulseScans] using inside) behind] at off
  · intro kept
    have edge := (kept.starts 2 (by decide +kernel) (by decide +kernel)).2 1 rfl
    cases edge

end Control

end MiniIotRobotEdge

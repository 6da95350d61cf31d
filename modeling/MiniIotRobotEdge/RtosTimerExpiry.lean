import MiniIotRobotEdge.RtosTimerCommands

/-!
# Expiry of the software timers

A command makes its timer due at the tick count plus the delay, modulo the size of a
word, and the daemon compares the two with an ordinary `<=`.  The comparison passes only
when the delay has elapsed exactly if the sum has not wrapped around.
-/

namespace MiniIotRobotEdge

namespace Rtos

open GuardedRun

/-- The ticks from one tick count to another. -/
def elapsedTicks (start now : Nat) : Nat := (now + (uint32Size - start)) % uint32Size

theorem elapsedTicks_of_le {start now : Nat} (le : start ≤ now) (inRange : now < uint32Size) :
    elapsedTicks start now = now - start := by
  have split : now + (uint32Size - start) = uint32Size + (now - start) := by omega
  rw [elapsedTicks, split, Nat.add_mod_left, Nat.mod_eq_of_lt (by omega)]

/-- No pass of the daemon finds a timer due before its delay has elapsed, if and only if the
sum of the tick count and the delay fits. -/
theorem dueTest_sound_iff {start delay : Nat} (startLt : start < uint32Size)
    (delayLt : delay < uint32Size) :
    (∀ now, now < uint32Size → (start + delay) % uint32Size ≤ now →
      delay ≤ elapsedTicks start now) ↔ start + delay < uint32Size := by
  constructor
  · intro sound
    by_contra wraps
    have wrapped : (start + delay) % uint32Size = start + delay - uint32Size := by
      rw [Nat.mod_eq_sub_mod (by omega), Nat.mod_eq_of_lt (by omega)]
    have early := sound start startLt (by omega)
    rw [elapsedTicks_of_le (Nat.le_refl start) startLt] at early
    omega
  · intro fits now nowLt due
    rw [Nat.mod_eq_of_lt fits] at due
    rw [elapsedTicks_of_le (by omega) nowLt]
    omega

/-- The daemon carries out a command for a timer, or calls it back. -/
def Concerns (t : TimerId) : TimerEvent → Prop
  | .processed request _ => request.timer = some t
  | .invoked timer .. => timer = t
  | .enqueued _ => False

/-- The last event that concerns a timer is a command, carried out at a tick count. -/
def LastRequest (t : TimerId) (request : TimerRequest) (tick : Nat)
    (trace : List TimerEvent) : Prop :=
  ∃ since earlier, trace = since ++ .processed request tick :: earlier ∧
    request.timer = some t ∧ ∀ event ∈ since, ¬Concerns t event

namespace LastRequest

variable {t : TimerId} {request : TimerRequest} {tick : Nat} {trace : List TimerEvent}
  {event : TimerEvent}

theorem tail (last : LastRequest t request tick (event :: trace)) :
    event = .processed request tick ∨ (LastRequest t request tick trace ∧ ¬Concerns t event) := by
  obtain ⟨since, earlier, split, isTimer, quiet⟩ := last
  cases since with
  | nil => exact .inl (List.cons.inj split).1
  | cons first since =>
      obtain ⟨rfl, rest⟩ := List.cons.inj split
      exact .inr ⟨⟨since, earlier, rest, isTimer,
        fun other isSince => quiet other (List.mem_cons_of_mem _ isSince)⟩,
        quiet event List.mem_cons_self⟩

theorem timer_eq (last : LastRequest t request tick trace) : request.timer = some t := by
  obtain ⟨_, _, _, isTimer, _⟩ := last
  exact isTimer

end LastRequest

/-- A timer that is called back for the first time since a command has waited for the
delay of the command. -/
def NeverEarly (trace : List TimerEvent) : Prop :=
  ∀ later earlier t type callback param now request tick,
    trace = later ++ .invoked t type callback param now :: earlier →
      LastRequest t request tick earlier → request.period ≤ elapsedTicks tick now

theorem NeverEarly.cons {trace : List TimerEvent} {event : TimerEvent}
    (never : NeverEarly trace)
    (waited : ∀ t type callback param now request tick,
      event = .invoked t type callback param now → LastRequest t request tick trace →
        request.period ≤ elapsedTicks tick now) : NeverEarly (event :: trace) := by
  intro later earlier t type callback param now request tick split last
  cases later with
  | nil =>
      obtain ⟨isEvent, rfl⟩ := List.cons.inj split
      exact waited t type callback param now request tick isEvent last
  | cons first later =>
      exact never later earlier t type callback param now request tick (List.cons.inj split).2 last

/-- A command that makes its timer due in the future: a start, a reset, or a new period for
an active timer. -/
def Schedules (system : TimerSystem) (request : TimerRequest) (t : TimerId) : Prop :=
  request.type = .start ∨ request.type = .reset ∨
    request.type = .changePeriod ∧ (system.timer t).active = true

/-- The commands that the daemon carries out do not make a timer due behind the wrap of the
tick counter. -/
def DueBeforeWrap (system : TimerSystem) : TimerAction → Prop
  | .daemon => system.pc = .commands → ∀ cmd t, system.cmdQueueHead = some cmd →
      (system.cmd cmd).timer = some t → Schedules system (system.cmd cmd).toTimerRequest t →
        system.tickCount + (system.cmd cmd).period < uint32Size
  | _ => True

/-- The tick count of the pass that the daemon is in. -/
def DaemonPc.now : DaemonPc → Option Nat
  | .scanning now _ | .inCallback now _ _ => some now
  | .commands | .delaying => none

/-- The invariant of the daemon. -/
structure DueKept (system : TimerSystem) (trace : List TimerEvent) : Prop where
  inRange : system.tickCount < uint32Size
  pass : ∀ now, system.pc.now = some now → now < uint32Size
  due : ∀ t request tick, (system.timer t).active = true → (system.timer t).callback ≠ none →
    LastRequest t request tick trace → (system.timer t).expiryTick = tick + request.period ∧
      tick + request.period < uint32Size
  inCallback : ∀ now t nextTimer request tick, system.pc = .inCallback now t nextTimer →
    ¬LastRequest t request tick trace
  never : NeverEarly trace

namespace DueKept

variable {system after : TimerSystem} {trace events : List TimerEvent}

/-- A step without events after which the timers are due as before. -/
theorem of_quiet (kept : DueKept system trace) (inRange : after.tickCount < uint32Size)
    (pass : ∀ now, after.pc.now = some now → now < uint32Size)
    (due : ∀ t, (after.timer t).active = true → (after.timer t).callback ≠ none →
      SameDue (system.timer t) (after.timer t) ∨
        ∀ request tick, ¬LastRequest t request tick trace)
    (inCallback : ∀ now t nextTimer, after.pc = .inCallback now t nextTimer →
      ∀ request tick, ¬LastRequest t request tick trace) : DueKept after trace where
  inRange := inRange
  pass := pass
  due t request tick active callback last := by
    rcases due t active callback with same | notLast
    · have before := kept.due t request tick (same.active ▸ active) (same.callback ▸ callback) last
      rw [same.expiryTick]
      exact before
    · exact absurd last (notLast request tick)
  inCallback now t nextTimer request tick isCallback :=
    inCallback now t nextTimer isCallback request tick
  never := kept.never

theorem sameDue_expired {now : Nat} {t other : TimerId} (differs : other ≠ t) :
    SameDue (system.timer other) ((timerExpired system now t).timer other) := by
  rw [timerExpired]
  exact sameDue_modifyTimer _ differs

theorem timerExpired_callback {now : Nat} {t : TimerId} :
    ((timerExpired system now t).timer t).callback = (system.timer t).callback := by
  rw [timerExpired, TimerSystem.modifyTimer]
  dsimp only
  rw [Function.update_self]
  split <;> rfl

theorem command (kept : DueKept system trace) {cmd : CmdId} (atCommands : system.pc = .commands)
    (isHead : system.cmdQueueHead = some cmd) (fits : DueBeforeWrap system .daemon)
    (carriedOut : CarriedOut system cmd after) :
    DueKept (timerCmdFree after cmd)
      (.processed (system.cmd cmd).toTimerRequest system.tickCount :: trace) := by
  have frame := carriedOut.kept
  rw [atCommands] at frame
  have others : ∀ t request tick, SameDue (system.timer t) (after.timer t) →
      (system.cmd cmd).timer ≠ some t → (after.timer t).active = true →
      (after.timer t).callback ≠ none →
      LastRequest t request tick
        (.processed (system.cmd cmd).toTimerRequest system.tickCount :: trace) →
      (after.timer t).expiryTick = tick + request.period ∧ tick + request.period < uint32Size := by
    intro t request tick same notFor active callback last
    rcases last.tail with isEvent | ⟨before, _⟩
    · obtain ⟨rfl, rfl⟩ := TimerEvent.processed.inj isEvent
      exact absurd last.timer_eq notFor
    · rw [same.expiryTick]
      exact kept.due t request tick (same.active ▸ active) (same.callback ▸ callback) before
  refine ⟨?_, fun now isNow => ?_, fun t request tick active callback last => ?_, ?_, ?_⟩
  · exact frame.2 ▸ kept.inRange
  · rw [show (timerCmdFree after cmd).pc = .commands from frame.1] at isNow
    simp [DaemonPc.now] at isNow
  · rcases carriedOut with ⟨noTimer, rfl⟩ | ⟨target, fuel, isTimer, processed⟩
    · exact others t request tick (sameDue_dequeue t) (by simp [noTimer]) active callback last
    · by_cases same : t = target
      · subst same
        obtain ⟨expiry, schedules⟩ := timerProcessCommand_active processed active
        have isLast : .processed (system.cmd cmd).toTimerRequest system.tickCount =
            TimerEvent.processed request tick :=
          last.tail.resolve_right fun both => both.2 isTimer
        obtain ⟨rfl, rfl⟩ := TimerEvent.processed.inj isLast
        have wasActive : ((timerDequeueCmd system).2.timer t).active = (system.timer t).active :=
          (sameDue_dequeue t).active
        rw [wasActive] at schedules
        have small := fits atCommands cmd t isHead isTimer schedules
        rw [timerDequeueCmd_kept.2, Nat.mod_eq_of_lt small] at expiry
        exact ⟨expiry, small⟩
      · refine others t request tick
          ((sameDue_dequeue t).trans (timerProcessCommand_other processed same)) ?_ active
          callback last
        rw [isTimer]
        exact fun isTarget => same (Option.some.inj isTarget).symm
  · intro now t nextTimer request tick isCallback
    rw [show (timerCmdFree after cmd).pc = .commands from frame.1] at isCallback
    simp at isCallback
  · exact kept.never.cons fun t type callback param now request tick isInvoked => by
      simp at isInvoked

theorem invoke (kept : DueKept system trace) {now : Nat} {t : TimerId} {callback : TimerCallback}
    (scanning : system.pc = .scanning now (some t)) (active : (system.timer t).active = true)
    (isDue : (system.timer t).expiryTick ≤ now)
    (isCallback : (system.timer t).callback = some callback) :
    DueKept (system.setPc (.inCallback now t (system.timer t).next))
      (.invoked t (system.timer t).type callback (system.timer t).param now :: trace) := by
  have nowLt : now < uint32Size := kept.pass now (by rw [scanning]; rfl)
  refine ⟨kept.inRange, fun other isNow => ?_, fun other request tick isActive notNull last => ?_,
    fun now' t' nextTimer request tick inCallback last => ?_,
    kept.never.cons fun t' type callback' param now' request tick isInvoked last => ?_⟩
  · obtain rfl : now = other := Option.some.inj isNow
    exact nowLt
  · exact kept.due other request tick isActive notNull (last.tail.resolve_left (by simp)).1
  · obtain ⟨rfl, rfl, rfl⟩ := DaemonPc.inCallback.inj inCallback
    exact (last.tail.resolve_left (by simp)).2 rfl
  · obtain ⟨rfl, rfl, rfl, rfl, rfl⟩ := TimerEvent.invoked.inj isInvoked
    obtain ⟨expiry, small⟩ := kept.due t request tick active (by simp [isCallback]) last
    rw [elapsedTicks_of_le (by omega) nowLt]
    omega

theorem daemon (kept : DueKept system trace) (fits : DueBeforeWrap system .daemon)
    (step : DaemonStep system after events) : DueKept after (events ++ trace) := by
  have same : ∀ t, SameDue (system.timer t) (system.timer t) := fun _ => ⟨rfl, rfl, rfl, rfl⟩
  cases step with
  | command atCommands isHead carriedOut => exact kept.command atCommands isHead fits carriedOut
  | invoke scanning active isDue isCallback => exact kept.invoke scanning active isDue isCallback
  | noCommand atCommands =>
      refine kept.of_quiet kept.inRange (fun now isNow => ?_) (fun t _ _ => .inl (same t)) ?_
      · obtain rfl : system.tickCount = now := Option.some.inj isNow
        exact kept.inRange
      · exact fun now t nextTimer inCallback => by simp [TimerSystem.setPc] at inCallback
  | @silent now t scanning noCallback =>
      refine kept.of_quiet kept.inRange (fun other isNow => ?_) (fun other active notNull => ?_) ?_
      · exact kept.pass other (scanning ▸ isNow)
      · by_cases isTimer : other = t
        · rw [isTimer] at notNull
          exact absurd (timerExpired_callback.trans noCallback) notNull
        · exact .inl (sameDue_expired isTimer)
      · exact fun now t nextTimer inCallback => by simp [TimerSystem.setPc] at inCallback
  | skip scanning _ =>
      refine kept.of_quiet kept.inRange (fun now isNow => ?_) (fun t _ _ => .inl (same t)) ?_
      · exact kept.pass now (scanning ▸ isNow)
      · exact fun now t nextTimer inCallback => by simp [TimerSystem.setPc] at inCallback
  | @callbackDone now t nextTimer inCallback =>
      refine kept.of_quiet kept.inRange (fun other isNow => ?_) (fun other _ _ => ?_) ?_
      · exact kept.pass other (inCallback ▸ isNow)
      · by_cases isTimer : other = t
        · rw [isTimer]
          exact .inr fun request tick => kept.inCallback now t nextTimer request tick inCallback
        · exact .inl (sameDue_expired isTimer)
      · exact fun now t nextTimer inCallback => by simp [TimerSystem.setPc] at inCallback
  | passDone scanning =>
      refine kept.of_quiet kept.inRange (fun now isNow => ?_) (fun t _ _ => .inl (same t)) ?_
      · simp [TimerSystem.setPc, DaemonPc.now] at isNow
      · exact fun now t nextTimer inCallback => by simp [TimerSystem.setPc] at inCallback
  | awake delaying =>
      refine kept.of_quiet kept.inRange (fun now isNow => ?_) (fun t _ _ => .inl (same t)) ?_
      · simp [TimerSystem.setPc, DaemonPc.now] at isNow
      · exact fun now t nextTimer inCallback => by simp [TimerSystem.setPc] at inCallback

theorem enqueued (kept : DueKept system trace) (request : TimerRequest) :
    DueKept system (.enqueued request :: trace) where
  inRange := kept.inRange
  pass := kept.pass
  due t other tick active callback last :=
    kept.due t other tick active callback (last.tail.resolve_left (by simp)).1
  inCallback now t nextTimer other tick isCallback last :=
    kept.inCallback now t nextTimer other tick isCallback (last.tail.resolve_left (by simp)).1
  never := kept.never.cons fun t type callback param now other tick isInvoked => by
    simp at isInvoked

theorem create (kept : DueKept system trace) (allocated : Option TimerId)
    (callback : Option TimerCallback) (param : Pointer) (periodTicks : Nat) (type : TimerType) :
    DueKept (timerCreate system allocated callback param periodTicks type).2 trace := by
  unfold timerCreate
  split
  · exact kept
  · exact kept
  · split
    · exact kept
    · rename_i t _
      refine kept.of_quiet kept.inRange kept.pass (fun other active _ => .inl ?_) ?_
      · dsimp only at active ⊢
        by_cases same : other = t
        · rw [same, Function.update_self] at active
          simp at active
        · rw [Function.update_of_ne same]
          exact ⟨rfl, rfl, rfl, rfl⟩
      · exact fun now other nextTimer inCallback request tick =>
          kept.inCallback now other nextTimer request tick inCallback

theorem exec (kept : DueKept system trace) {fuel : Nat} {action : TimerAction}
    (fits : DueBeforeWrap system action)
    (executed : execTimer fuel system action = some (after, events)) :
    DueKept after (events ++ trace) := by
  cases action with
  | create allocated callback param periodTicks type =>
      obtain ⟨rfl, rfl⟩ := Prod.mk.inj (Option.some.inj executed)
      exact kept.create allocated callback param periodTicks type
  | call allocated call =>
      have same : timerCall system allocated call = (after, events) := Option.some.inj executed
      obtain ⟨timers, sent⟩ := timerCall_sameTimers system allocated call
      rw [same] at timers sent
      have quiet : DueKept after trace := by
        refine kept.of_quiet ?_ (fun now isNow => ?_) (fun t _ _ => .inl ?_) ?_
        · exact timers.tickCount ▸ kept.inRange
        · exact kept.pass now (timers.pc ▸ isNow)
        · rw [timers.timer]
          exact ⟨rfl, rfl, rfl, rfl⟩
        · exact fun now t nextTimer inCallback request tick =>
            kept.inCallback now t nextTimer request tick (timers.pc ▸ inCallback)
      obtain rfl | ⟨request, rfl⟩ := sent
      · exact quiet
      · exact quiet.enqueued request
  | daemon => exact kept.daemon fits (timerDaemon_cases executed)
  | tick =>
      obtain ⟨rfl, rfl⟩ := Prod.mk.inj (Option.some.inj executed)
      refine kept.of_quiet (Nat.mod_lt _ (by decide)) kept.pass
        (fun t _ _ => .inl ⟨rfl, rfl, rfl, rfl⟩) ?_
      exact fun now t nextTimer inCallback request tick =>
        kept.inCallback now t nextTimer request tick inCallback

end DueKept

/-- In every run whose commands make their timers due before the tick counter wraps around, no
timer is called back early. -/
theorem timers_neverEarly {initial : TimerSystem} (fresh : initial.Initial)
    {current : GuardedRun.Traced TimerSystem TimerEvent}
    (run : Reachable execTimer DueBeforeWrap initial current) : NeverEarly current.trace := by
  have kept : DueKept current.state current.trace := by
    apply run.invariant (fun current => DueKept current.state current.trace)
    · refine ⟨fresh.inRange, fun now isNow => ?_, fun t request tick active => ?_, ?_, ?_⟩
      · rw [fresh.atCommands] at isNow
        simp [DaemonPc.now] at isNow
      · simp [fresh.inactive t] at active
      · rintro now t nextTimer request tick _ ⟨since, earlier, split, _⟩
        simp at split
      · intro later earlier t type callback param now request tick split
        simp at split
    · exact fun fuel before action after events before fits executed => before.exec fits executed
  exact kept.never

def dueBeforeWrapGuard (system : TimerSystem) : TimerAction → Bool
  | .daemon =>
      match system.cmdQueueHead with
      | none => true
      | some cmd => system.tickCount + (system.cmd cmd).period < uint32Size
  | _ => true

theorem dueBeforeWrap_of_guard (system : TimerSystem) (action : TimerAction)
    (guarded : dueBeforeWrapGuard system action = true) : DueBeforeWrap system action := by
  cases action with
  | daemon =>
      intro _ cmd t isHead _ _
      rw [dueBeforeWrapGuard, isHead] at guarded
      exact of_decide_eq_true guarded
  | create | call | tick => trivial

/-- A timer with a delay of two ticks is called back after two ticks. -/
theorem timers_neverEarly_twoTicks :
    ∃ current, Reachable execTimer DueBeforeWrap (startedTimers 4294967290) current ∧
      current.trace.head? = some (.invoked 8 .oneShot (.user 0) 5 4294967292) ∧
      NeverEarly current.trace := by
  obtain ⟨current, run, invoked⟩ :=
    GuardedRun.exists_reachable execTimer (startedTimers 4294967290) dueBeforeWrap_of_guard 4
      [.create (some 8) (some (.user 0)) 5 3 .oneShot, .call (some 100) (.start (some 8) 2),
        .daemon, .tick, .tick, .daemon, .daemon]
      (fun current => current.trace.head? =
        some (.invoked 8 .oneShot (.user 0) 5 4294967292)) (by decide +kernel)
  exact ⟨current, run, invoked, timers_neverEarly (startedTimers_initial (by decide)) run⟩

/-- Just before the tick counter wraps around, a timer with a delay of ten ticks is called back
at the tick at which it is started. -/
theorem timers_neverEarly_wrapped :
    ¬∀ current, Reachable execTimer AnyStep (startedTimers 4294967295) current →
      NeverEarly current.trace := by
  intro never
  obtain ⟨current, run, traced⟩ :=
    exists_anyStep execTimer (startedTimers 4294967295) 4
      [.create (some 8) (some (.user 0)) 5 3 .oneShot, .call (some 100) (.start (some 8) 10),
        .daemon, .daemon, .daemon]
      (fun current => current.trace =
        [.invoked 8 .oneShot (.user 0) 5 4294967295, .processed ⟨.start, some 8, 10⟩ 4294967295,
          .enqueued ⟨.start, some 8, 10⟩]) (by decide +kernel)
  have waited := never current run [] _ 8 .oneShot (.user 0) 5 4294967295 ⟨.start, some 8, 10⟩
    4294967295 traced ⟨[], _, rfl, rfl, by simp⟩
  revert waited
  decide

end Rtos

end MiniIotRobotEdge

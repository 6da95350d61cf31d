import MiniIotRobotEdge.RtosTimerCommands

/-!
# One-shot timers

A one-shot timer that is active, with the daemon outside of its callback, has been
started or reset since it was last called back or stopped.  So every callback belongs to
a start or reset of its own.
-/

namespace MiniIotRobotEdge

namespace Rtos

open GuardedRun

/-- The daemon carries out a start or a reset of a timer. -/
def arms (t : TimerId) : TimerEvent → Bool
  | .processed request _ =>
      request.timer = some t ∧ (request.type = .start ∨ request.type = .reset)
  | _ => false

def stops (t : TimerId) : TimerEvent → Bool
  | .processed request _ => request.timer = some t ∧ request.type = .stop
  | _ => false

/-- The daemon calls a one-shot timer back. -/
def callsBack (t : TimerId) : TimerEvent → Bool
  | .invoked timer .oneShot _ _ _ => timer = t
  | _ => false

theorem not_disarms {t : TimerId} {event : TimerEvent} (isArming : arms t event = true) :
    stops t event = false ∧ callsBack t event = false := by
  cases event with
  | processed request tick =>
      obtain ⟨_, starts⟩ := of_decide_eq_true isArming
      refine ⟨decide_eq_false fun ⟨_, isStop⟩ => ?_, rfl⟩
      rw [isStop] at starts
      simp at starts
  | enqueued | invoked => simp [arms] at isArming

/-- A start or reset of the timer is among the events, without a callback or a stop
since; the newest event comes first. -/
def ArmedBy (t : TimerId) (trace : List TimerEvent) : Prop :=
  ∃ since arming earlier, trace = since ++ arming :: earlier ∧ arms t arming = true ∧
    ∀ event ∈ since, stops t event = false ∧ callsBack t event = false

namespace ArmedBy

variable {t : TimerId} {trace : List TimerEvent} {event : TimerEvent}

theorem cons (armed : ArmedBy t trace)
    (keeps : stops t event = false ∧ callsBack t event = false) : ArmedBy t (event :: trace) := by
  obtain ⟨since, arming, earlier, rfl, isArming, quiet⟩ := armed
  refine ⟨event :: since, arming, earlier, rfl, isArming, ?_⟩
  simpa [keeps] using quiet

theorem of_arms (isArming : arms t event = true) (trace : List TimerEvent) :
    ArmedBy t (event :: trace) :=
  ⟨[], event, trace, rfl, isArming, by simp⟩

/-- What is armed now was armed before the newest event, or is armed by it. -/
theorem tail (armed : ArmedBy t (event :: trace)) :
    arms t event = true ∨
      (ArmedBy t trace ∧ stops t event = false ∧ callsBack t event = false) := by
  obtain ⟨since, arming, earlier, split, isArming, quiet⟩ := armed
  cases since with
  | nil =>
      obtain ⟨rfl, _⟩ := List.cons.inj split
      exact .inl isArming
  | cons first since =>
      obtain ⟨rfl, rest⟩ := List.cons.inj split
      exact .inr ⟨⟨since, arming, earlier, rest, isArming,
        fun other isSince => quiet other (List.mem_cons_of_mem _ isSince)⟩,
        quiet event List.mem_cons_self⟩

/-- The start or reset comes after every stop and every callback. -/
theorem exists_after {between earlier : List TimerEvent}
    (armed : ArmedBy t (between ++ event :: earlier))
    (disarms : stops t event = true ∨ callsBack t event = true) :
    ∃ arming ∈ between, arms t arming = true := by
  induction between with
  | nil =>
      rcases armed.tail with isArming | ⟨_, notStop, notCallback⟩
      · simp [not_disarms isArming] at disarms
      · simp [notStop, notCallback] at disarms
  | cons first between ih =>
      rcases armed.tail with isArming | ⟨before, _⟩
      · exact ⟨first, List.mem_cons_self, isArming⟩
      · obtain ⟨arming, isBetween, isArming⟩ := ih before
        exact ⟨arming, List.mem_cons_of_mem _ isBetween, isArming⟩

end ArmedBy

/-- Every callback of a one-shot timer belongs to a start or a reset. -/
def OneShotsMatched (trace : List TimerEvent) : Prop :=
  ∀ later event earlier t, trace = later ++ event :: earlier → callsBack t event = true →
    ArmedBy t earlier

theorem OneShotsMatched.cons {trace : List TimerEvent} {event : TimerEvent}
    (matched : OneShotsMatched trace)
    (armed : ∀ t, callsBack t event = true → ArmedBy t trace) :
    OneShotsMatched (event :: trace) := by
  intro later other earlier t split isCallback
  cases later with
  | nil =>
      obtain ⟨rfl, rfl⟩ := List.cons.inj split
      exact armed t isCallback
  | cons first later => exact matched later other earlier t (List.cons.inj split).2 isCallback

/-- There are no more callbacks than starts and resets, and one fewer while the timer is
armed. -/
theorem OneShotsMatched.count_le {trace : List TimerEvent} (matched : OneShotsMatched trace)
    (t : TimerId) : trace.countP (callsBack t) ≤ trace.countP (arms t) ∧
      (ArmedBy t trace → trace.countP (callsBack t) < trace.countP (arms t)) := by
  induction trace with
  | nil =>
      refine ⟨Nat.le_refl _, ?_⟩
      rintro ⟨since, arming, earlier, split, _⟩
      simp at split
  | cons event rest ih =>
      have before : OneShotsMatched rest := fun later other earlier t split =>
        matched (event :: later) other earlier t (by rw [split, List.cons_append])
      obtain ⟨noMore, fewer⟩ := ih before
      rw [List.countP_cons, List.countP_cons]
      by_cases isArming : arms t event = true
      · simp only [not_disarms isArming, isArming, if_true, Bool.false_eq_true, if_false]
        exact ⟨by omega, fun _ => by omega⟩
      · rw [if_neg isArming]
        by_cases isCallback : callsBack t event = true
        · have armedBefore := fewer (matched [] event rest t rfl isCallback)
          rw [if_pos isCallback]
          refine ⟨by omega, fun armed => ?_⟩
          obtain ⟨_, _, notCallback⟩ := armed.tail.resolve_left isArming
          simp [isCallback] at notCallback
        · rw [if_neg isCallback]
          refine ⟨by omega, fun armed => ?_⟩
          obtain ⟨armedBefore, _⟩ := armed.tail.resolve_left isArming
          have := fewer armedBefore
          omega

/-- The daemon is not in a callback of the timer. -/
def OutsideCallback (pc : DaemonPc) (t : TimerId) : Prop :=
  ∀ now nextTimer, pc ≠ .inCallback now t nextTimer

/-- The invariant of the daemon. -/
structure OneShotsKept (system : TimerSystem) (trace : List TimerEvent) : Prop where
  armed : ∀ t, (system.timer t).active = true → (system.timer t).type = .oneShot →
    OutsideCallback system.pc t → ArmedBy t trace
  matched : OneShotsMatched trace

namespace OneShotsKept

variable {system after : TimerSystem} {trace events : List TimerEvent}

/-- A step without events that starts no timer. -/
theorem of_quiet (kept : OneShotsKept system trace)
    (due : ∀ t, (after.timer t).active = true → (after.timer t).type = .oneShot →
      OutsideCallback after.pc t → (system.timer t).active = true ∧
        (system.timer t).type = .oneShot ∧ OutsideCallback system.pc t) :
    OneShotsKept after trace where
  armed t active oneShot outside := by
    obtain ⟨wasActive, wasOneShot, wasOutside⟩ := due t active oneShot outside
    exact kept.armed t wasActive wasOneShot wasOutside
  matched := kept.matched

/-- What remains of a timer after its callback is not an active one-shot timer. -/
theorem timerExpired_cases {now : Nat} {t other : TimerId}
    (active : ((timerExpired system now t).timer other).active = true)
    (oneShot : ((timerExpired system now t).timer other).type = .oneShot) :
    other ≠ t ∧ (system.timer other).active = true ∧ (system.timer other).type = .oneShot := by
  rw [timerExpired, TimerSystem.modifyTimer] at active oneShot
  dsimp only at active oneShot
  by_cases same : other = t
  · rw [same, Function.update_self] at active oneShot
    split at active
    · rename_i autoReload
      rw [if_pos autoReload] at oneShot
      simp [autoReload] at oneShot
    · simp at active
  · rw [Function.update_of_ne same] at active oneShot
    exact ⟨same, active, oneShot⟩

theorem command (kept : OneShotsKept system trace) {cmd : CmdId}
    (atCommands : system.pc = .commands)
    (carriedOut : CarriedOut system cmd after) :
    OneShotsKept (timerCmdFree after cmd)
      (.processed (system.cmd cmd).toTimerRequest system.tickCount :: trace) := by
  have outside : ∀ t, OutsideCallback system.pc t := by
    intro t now nextTimer
    simp [atCommands]
  -- A timer that the command does not concern is active only if it was.
  have others : ∀ t, SameDue (system.timer t) (after.timer t) → (system.cmd cmd).timer ≠ some t →
      (after.timer t).active = true → (after.timer t).type = .oneShot →
      ArmedBy t (.processed (system.cmd cmd).toTimerRequest system.tickCount :: trace) := by
    intro t same notFor active oneShot
    refine ArmedBy.cons ?_ ⟨decide_eq_false fun both => notFor both.1, rfl⟩
    exact kept.armed t (same.active ▸ active) (same.type ▸ oneShot) (outside t)
  refine ⟨fun t active oneShot _ => ?_, kept.matched.cons fun t isCallback => by
    simp [callsBack] at isCallback⟩
  rcases carriedOut with ⟨noTimer, rfl⟩ | ⟨target, fuel, isTimer, processed⟩
  · exact others t (sameDue_dequeue t) (by simp [noTimer]) active oneShot
  · by_cases same : t = target
    · subst same
      obtain ⟨_, starts | starts | ⟨changes, wasActive⟩⟩ :=
        timerProcessCommand_active processed active
      · refine .of_arms ?_ trace
        exact decide_eq_true ⟨isTimer, .inl starts⟩
      · refine .of_arms ?_ trace
        exact decide_eq_true ⟨isTimer, .inr starts⟩
      · have sameType := (timerProcessCommand_type processed t).1
        have dequeued : SameDue (system.timer t) _ := sameDue_dequeue t
        refine ArmedBy.cons ?_ ⟨decide_eq_false fun both => ?_, rfl⟩
        · exact kept.armed t (dequeued.active ▸ wasActive)
            (dequeued.type.symm.trans (sameType.symm.trans oneShot)) (outside t)
        · simp [changes] at both
    · have unchanged := (sameDue_dequeue t).trans (timerProcessCommand_other processed same)
      apply others t unchanged _ active oneShot
      rw [isTimer]
      exact fun isTarget => same (Option.some.inj isTarget).symm

theorem daemon (kept : OneShotsKept system trace) (step : DaemonStep system after events) :
    OneShotsKept after (events ++ trace) := by
  cases step with
  | noCommand atCommands =>
      refine kept.of_quiet fun t active oneShot _ => ⟨active, oneShot, fun now nextTimer => ?_⟩
      simp [atCommands]
  | command atCommands _ carriedOut => exact kept.command atCommands carriedOut
  | @invoke now t callback scanning active _ _ =>
      have outside : ∀ other, OutsideCallback system.pc other := fun other now nextTimer => by
        simp [scanning]
      have isCallback : ∀ other, callsBack other (.invoked t (system.timer t).type callback
          (system.timer t).param now) = true → (system.timer t).type = .oneShot ∧ t = other := by
        intro other
        cases (system.timer t).type <;> simp [callsBack]
      refine ⟨fun other wasActive oneShot outsideNow => ?_,
        kept.matched.cons fun other calledBack => ?_⟩
      · refine (kept.armed other wasActive oneShot (outside other)).cons ⟨rfl, ?_⟩
        apply Bool.eq_false_iff.mpr
        intro calledBack
        obtain ⟨_, rfl⟩ := isCallback other calledBack
        exact outsideNow now _ rfl
      · obtain ⟨oneShot, rfl⟩ := isCallback other calledBack
        exact kept.armed t active oneShot (outside t)
  | silent scanning _ =>
      apply kept.of_quiet
      intro t active oneShot _
      obtain ⟨_, wasActive, wasOneShot⟩ := timerExpired_cases active oneShot
      exact ⟨wasActive, wasOneShot, fun now nextTimer => by simp [scanning]⟩
  | skip scanning _ =>
      refine kept.of_quiet fun t active oneShot _ => ⟨active, oneShot, fun now nextTimer => ?_⟩
      simp [scanning]
  | callbackDone inCallback =>
      apply kept.of_quiet
      intro t active oneShot _
      obtain ⟨differs, wasActive, wasOneShot⟩ := timerExpired_cases active oneShot
      refine ⟨wasActive, wasOneShot, fun now nextTimer same => differs ?_⟩
      rw [inCallback] at same
      exact (DaemonPc.inCallback.inj same).2.1.symm
  | passDone scanning =>
      refine kept.of_quiet fun t active oneShot _ => ⟨active, oneShot, fun now nextTimer => ?_⟩
      simp [scanning]
  | awake delaying =>
      refine kept.of_quiet fun t active oneShot _ => ⟨active, oneShot, fun now nextTimer => ?_⟩
      simp [delaying]

theorem create (kept : OneShotsKept system trace) (allocated : Option TimerId)
    (callback : Option TimerCallback) (param : Pointer) (periodTicks : Nat) (type : TimerType) :
    OneShotsKept (timerCreate system allocated callback param periodTicks type).2 trace := by
  unfold timerCreate
  split
  · exact kept
  · exact kept
  · split
    · exact kept
    · rename_i t _
      apply kept.of_quiet
      intro other active oneShot outside
      dsimp only at active oneShot
      by_cases same : other = t
      · rw [same, Function.update_self] at active
        simp at active
      · rw [Function.update_of_ne same] at active oneShot
        exact ⟨active, oneShot, outside⟩

theorem exec (kept : OneShotsKept system trace) {fuel : Nat} {action : TimerAction}
    (executed : execTimer fuel system action = some (after, events)) :
    OneShotsKept after (events ++ trace) := by
  cases action with
  | create allocated callback param periodTicks type =>
      obtain ⟨rfl, rfl⟩ := Prod.mk.inj (Option.some.inj executed)
      exact kept.create allocated callback param periodTicks type
  | call allocated call =>
      have same : timerCall system allocated call = (after, events) := Option.some.inj executed
      obtain ⟨timers, sent⟩ := timerCall_sameTimers system allocated call
      rw [same] at timers sent
      have quiet : OneShotsKept after trace := by
        apply kept.of_quiet
        intro other active oneShot outside
        rw [timers.timer] at active oneShot
        rw [timers.pc] at outside
        exact ⟨active, oneShot, outside⟩
      obtain rfl | ⟨request, rfl⟩ := sent
      · exact quiet
      · refine ⟨fun other active oneShot outside => ?_, ?_⟩
        · exact (quiet.armed other active oneShot outside).cons ⟨rfl, rfl⟩
        · exact quiet.matched.cons fun other isCallback => by simp [callsBack] at isCallback
  | daemon => exact kept.daemon (timerDaemon_cases executed)
  | tick =>
      obtain ⟨rfl, rfl⟩ := Prod.mk.inj (Option.some.inj executed)
      exact kept.of_quiet fun other active oneShot outside => ⟨active, oneShot, outside⟩

end OneShotsKept

/-- What holds of the callbacks of one-shot timers. -/
structure OneShotTrace (trace : List TimerEvent) : Prop where
  /-- There are at most as many callbacks as starts and resets. -/
  atMostOnce : ∀ t, trace.countP (callsBack t) ≤ trace.countP (arms t)
  /-- Between two callbacks there is a start or a reset. -/
  restarted : ∀ later second between first earlier t,
    trace = later ++ second :: (between ++ first :: earlier) → callsBack t second = true →
      callsBack t first = true → ∃ arming ∈ between, arms t arming = true
  /-- Between a stop and a callback there is a start or a reset. -/
  afterStop : ∀ later callback between stop earlier t,
    trace = later ++ callback :: (between ++ stop :: earlier) → callsBack t callback = true →
      stops t stop = true → ∃ arming ∈ between, arms t arming = true
  /-- The commands carried out are the first of those sent, in the same order. -/
  inOrder : (processedRequests trace).reverse <+: (sentRequests trace).reverse

/-- In every run, a one-shot timer is called back at most once for a start or reset, never
between a stop and the next start or reset, and commands take effect in order. -/
theorem oneShotTimers {initial : TimerSystem} (fresh : initial.Initial)
    {current : GuardedRun.Traced TimerSystem TimerEvent}
    (run : Reachable execTimer FreshMemory initial current) : OneShotTrace current.trace := by
  have kept : OneShotsKept current.state current.trace := by
    apply run.invariant (fun current => OneShotsKept current.state current.trace)
    · refine ⟨fun t active _ _ => ?_, fun later event earlier t split => ?_⟩
      · simp [fresh.inactive t] at active
      · simp at split
    · exact fun fuel before action after events before _ executed => before.exec executed
  obtain ⟨cmds, pending⟩ := pendingCmds_of_reachable fresh run
  refine ⟨fun t => (kept.matched.count_le t).1, ?_, ?_, ?_⟩
  · intro later second between first earlier t split isSecond isFirst
    exact (kept.matched later second _ t split isSecond).exists_after (.inr isFirst)
  · intro later callback between stop earlier t split isCallback isStop
    exact (kept.matched later callback _ t split isCallback).exists_after (.inl isStop)
  · rw [pending.sent, List.reverse_append]
    exact List.prefix_append _ _

/-- A timer that starts itself again in its callback is called back twice. -/
theorem oneShotTimers_restarted :
    ∃ current, Reachable execTimer FreshMemory (startedTimers 0) current ∧
      current.trace.countP (callsBack 8) = 2 ∧ OneShotTrace current.trace := by
  obtain ⟨current, run, twice⟩ :=
    GuardedRun.exists_reachable execTimer (startedTimers 0) freshMemory_of_guard 4
      [.create (some 8) (some (.user 0)) 5 3 .oneShot, .call (some 100) (.start (some 8) 1),
        .daemon, .tick, .daemon, .daemon, .call (some 100) (.start (some 8) 0), .daemon,
        .daemon, .daemon, .daemon, .daemon, .daemon]
      (fun current => current.trace.countP (callsBack 8) = 2) (by decide +kernel)
  exact ⟨current, run, twice, oneShotTimers (startedTimers_initial (by decide)) run⟩

end Rtos

end MiniIotRobotEdge

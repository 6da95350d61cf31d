import MiniIotRobotEdge.RtosTimerChain
import MiniIotRobotEdge.RtosTimerExpiry

/-!
# Runs of a timer chain

Every timer of a chain calls the function of the program back, and
`timer_chain_callback` is never installed.  So only the timer that the creation starts
is ever called back, and a chain is served exactly if it has a single step.
-/

namespace MiniIotRobotEdge

namespace Rtos

open PointerChain GuardedRun

/-- The steps of a run in which the only calls are those of `timer_chain_callback`. -/
inductive ChainAction
  | daemon
  | tick
  | chainCallback (allocated : Option CmdId)
  deriving DecidableEq, Repr

def execChain (fuel : Nat) (system : ChainSystem) :
    ChainAction → Option (ChainSystem × List TimerEvent)
  | .daemon =>
      (timerDaemon fuel system.timers).map fun (timers, events) =>
        ({ system with timers := timers }, events)
  | .tick =>
      (execTimer fuel system.timers .tick).map fun (timers, events) =>
        ({ system with timers := timers }, events)
  | .chainCallback allocated =>
      match system.timers.pc with
      | .inCallback _ t _ =>
          if (system.timers.timer t).callback = some .timerChainCallback then
            some (timerChainCallback system allocated (system.timers.timer t).param)
          else none
      | _ => none

/-- A callback of a timer. -/
structure ChainCall where
  callback : TimerCallback
  param : Pointer
  now : Nat
  deriving DecidableEq, Repr

/-- The callbacks of some timers in a run, oldest first. -/
def chainCalls (isChain : TimerId → Bool) (trace : List TimerEvent) : List ChainCall :=
  (trace.filterMap fun
    | .invoked t _ callback param now => if isChain t then some ⟨callback, param, now⟩ else none
    | _ => none).reverse

/-- The timers of a chain. -/
def isChainTimer (steps : ChainSteps) (memory : ChainMemory) (t : TimerId) : Bool :=
  (List.range steps.count).any fun i => memory.timer i = some t

/-- The callbacks and parameters that a chain is created for. -/
def chainExpected (steps : ChainSteps) : List (Option TimerCallback × Pointer) :=
  (List.range steps.count).map fun i => ((steps.callbacks i).map .user, steps.params i)

/-- What the creation of a chain promises of the runs that follow. -/
structure ChainServed (steps : ChainSteps) (memory : ChainMemory) (created : ChainSystem) :
    Prop where
  /-- The callbacks are those of the steps so far, each with its parameter. -/
  inOrder : ∀ current, Reachable execChain AnyStep created current →
    ((chainCalls (isChainTimer steps memory) current.trace).map fun call =>
      (some call.callback, call.param)) <+: chainExpected steps
  /-- A callback waits for its time after the one before. -/
  spaced : ∀ current, Reachable execChain AnyStep created current → ∀ i first second,
    (chainCalls (isChainTimer steps memory) current.trace)[i]? = some first →
      (chainCalls (isChainTimer steps memory) current.trace)[i + 1]? = some second →
        steps.times (i + 1) ≤ elapsedTicks first.now second.now
  /-- From every state the run can go on until all callbacks have been made. -/
  completed : ∀ current, Reachable execChain AnyStep created current →
    ∃ later, Relation.ReflTransGen (Step execChain AnyStep) current later ∧
      ((chainCalls (isChainTimer steps memory) later.trace).map fun call =>
        (some call.callback, call.param)) = chainExpected steps

section Quiet

variable {isChain : TimerId → Bool} {system after : TimerSystem} {events trace : List TimerEvent}
  {call : ChainCall} {started : TimerId}

@[simp] theorem chainCalls_nil : chainCalls isChain [] = [] := rfl

theorem chainCalls_processed (request : TimerRequest) (tick : Nat) :
    chainCalls isChain (.processed request tick :: trace) = chainCalls isChain trace := rfl

theorem chainCalls_enqueued (request : TimerRequest) :
    chainCalls isChain (.enqueued request :: trace) = chainCalls isChain trace := rfl

theorem chainCalls_invoked {t : TimerId} (type : TimerType) (callback : TimerCallback)
    (param : Pointer) (now : Nat) :
    chainCalls isChain (.invoked t type callback param now :: trace) =
      chainCalls isChain trace ++ if isChain t then [⟨callback, param, now⟩] else [] := by
  unfold chainCalls
  rw [List.filterMap_cons]
  by_cases onChain : isChain t = true
  · simp [onChain]
  · simp [onChain]

/-- The daemon is not in a callback of the chain. -/
def OutsideChain (isChain : TimerId → Bool) (pc : DaemonPc) : Prop :=
  ∀ now t nextTimer, pc = .inCallback now t nextTimer → isChain t = false

theorem OutsideChain.of_ne {pc : DaemonPc}
    (differs : ∀ now t nextTimer, pc ≠ .inCallback now t nextTimer) : OutsideChain isChain pc :=
  fun now t nextTimer inCallback => absurd inCallback (differs now t nextTimer)

/-- What a chain run never changes of the timers. -/
structure SameStatic (before after : TimerSystem) : Prop where
  list : after.timerList = before.timerList
  type : ∀ t, (after.timer t).type = (before.timer t).type
  callback : ∀ t, (after.timer t).callback = (before.timer t).callback
  param : ∀ t, (after.timer t).param = (before.timer t).param
  next : ∀ t, (after.timer t).next = (before.timer t).next

theorem SameStatic.modifyTimer (t : TimerId) {change : SwTimer → SwTimer}
    (kept : ∀ timer, (change timer).type = timer.type ∧
      (change timer).callback = timer.callback ∧ (change timer).param = timer.param ∧
      (change timer).next = timer.next) :
    SameStatic system (system.modifyTimer t change) := by
  have same : ∀ other, ((system.modifyTimer t change).timer other).type =
        (system.timer other).type ∧
      ((system.modifyTimer t change).timer other).callback = (system.timer other).callback ∧
      ((system.modifyTimer t change).timer other).param = (system.timer other).param ∧
      ((system.modifyTimer t change).timer other).next = (system.timer other).next := by
    intro other
    rw [TimerSystem.modifyTimer]
    dsimp only
    by_cases isTimer : other = t
    · rw [isTimer, Function.update_self]
      exact kept (system.timer t)
    · rw [Function.update_of_ne isTimer]
      exact ⟨rfl, rfl, rfl, rfl⟩
  exact ⟨rfl, fun other => (same other).1, fun other => (same other).2.1,
    fun other => (same other).2.2.1, fun other => (same other).2.2.2⟩

theorem SameStatic.timerExpired (now : Nat) (t : TimerId) :
    SameStatic system (timerExpired system now t) :=
  .modifyTimer t fun timer => by split <;> exact ⟨rfl, rfl, rfl, rfl⟩

theorem SameStatic.setPc (same : SameStatic system after) (pc : DaemonPc) :
    SameStatic system (after.setPc pc) :=
  ⟨same.list, same.type, same.callback, same.param, same.next⟩

theorem SameStatic.refl (system : TimerSystem) : SameStatic system system :=
  ⟨rfl, fun _ => rfl, fun _ => rfl, fun _ => rfl, fun _ => rfl⟩

/-- A step that does not concern the chain. -/
structure ChainSame (isChain : TimerId → Bool) (before after : TimerSystem) : Prop where
  head : after.cmdQueueHead = before.cmdQueueHead
  cmd : after.cmd = before.cmd
  timer : ∀ t, isChain t = true → after.timer t = before.timer t
  outside : OutsideChain isChain after.pc

theorem timerExpired_other {now : Nat} {t other : TimerId} (differs : other ≠ t) :
    (timerExpired system now t).timer other = system.timer other := by
  rw [timerExpired, TimerSystem.modifyTimer]
  exact Function.update_of_ne differs _ _

/-- The daemon carries out a command, calls a timer of the chain back, or does not concern
the chain. -/
theorem chainStep_cases (outside : OutsideChain isChain system.pc)
    (callable : ∀ t, isChain t = true → (system.timer t).callback ≠ none)
    (step : DaemonStep system after events) :
    (∃ cmd, system.pc = .commands ∧ system.cmdQueueHead = some cmd) ∨
      (∃ now t callback, isChain t = true ∧ (system.timer t).active = true ∧
        (system.timer t).callback = some callback ∧
        after = system.setPc (.inCallback now t (system.timer t).next) ∧
        events = [.invoked t (system.timer t).type callback (system.timer t).param now]) ∨
      (SameStatic system after ∧ ChainSame isChain system after ∧
        ∀ trace, chainCalls isChain (events ++ trace) = chainCalls isChain trace) := by
  have keep : ∀ pc, OutsideChain isChain pc → ChainSame isChain system (system.setPc pc) :=
    fun pc outsideNow => ⟨rfl, rfl, fun _ _ => rfl, outsideNow⟩
  have expire : ∀ now t nextTimer, isChain t = false →
      ChainSame isChain system ((timerExpired system now t).setPc (.scanning now nextTimer)) := by
    intro now t nextTimer notChain
    refine ⟨rfl, rfl, fun other onChain => ?_, .of_ne (by simp [TimerSystem.setPc])⟩
    apply timerExpired_other
    intro same
    simp [← same, onChain] at notChain
  cases step with
  | command atCommands isHead _ => exact .inl ⟨_, atCommands, isHead⟩
  | @invoke now t callback scanning active isDue isCallback =>
      by_cases onChain : isChain t = true
      · exact .inr (.inl ⟨now, t, callback, onChain, active, isCallback, rfl, rfl⟩)
      · refine .inr (.inr ⟨.setPc (.refl system) _, keep _ ?_, fun trace => ?_⟩)
        · intro now' t' nextTimer inCallback
          obtain ⟨_, rfl, _⟩ := DaemonPc.inCallback.inj inCallback
          exact Bool.eq_false_iff.mpr onChain
        · rw [List.singleton_append, chainCalls_invoked, if_neg onChain, List.append_nil]
  | @silent now t scanning noCallback =>
      have notChain : isChain t = false :=
        Bool.eq_false_iff.mpr fun onChain => callable t onChain noCallback
      exact .inr (.inr ⟨(SameStatic.timerExpired now t).setPc _, expire now t _ notChain,
        fun _ => rfl⟩)
  | @callbackDone now t nextTimer inCallback =>
      exact .inr (.inr ⟨(SameStatic.timerExpired now t).setPc _,
        expire now t _ (outside now t nextTimer inCallback), fun _ => rfl⟩)
  | noCommand | skip | passDone | awake =>
      exact .inr (.inr ⟨.setPc (.refl system) _, keep _ (.of_ne (by simp)), fun _ => rfl⟩)

end Quiet

/-- The callbacks that no chain run changes. -/
structure ChainCallbacks (isChain : TimerId → Bool) (system : TimerSystem) : Prop where
  callable : ∀ t, isChain t = true → (system.timer t).callback ≠ none
  user : ∀ t, (system.timer t).callback ≠ some .timerChainCallback

/-- No timer of the chain will be called back again. -/
structure ChainIdle (isChain : TimerId → Bool) (system : TimerSystem) : Prop where
  noCommand : system.cmdQueueHead = none
  outside : OutsideChain isChain system.pc
  inactive : ∀ t, isChain t = true → (system.timer t).active = false

/-- What the daemon is still to do for the one timer of the chain that is started. -/
inductive ChainPhase (isChain : TimerId → Bool) (started : TimerId) (system : TimerSystem) :
    List ChainCall → Prop
  /-- The start is on the queue. -/
  | pending {cmd : CmdId} : system.cmdQueueHead = some cmd →
      system.cmd cmd = ⟨⟨.start, some started, 0⟩, none⟩ → OutsideChain isChain system.pc →
      (∀ t, isChain t = true → (system.timer t).active = false) →
      ChainPhase isChain started system []
  /-- The timer has been started. -/
  | active : system.cmdQueueHead = none → (system.timer started).active = true →
      (system.timer started).expiryTick < uint32Size → OutsideChain isChain system.pc →
      (∀ t, isChain t = true → t ≠ started → (system.timer t).active = false) →
      ChainPhase isChain started system []
  /-- The timer is being called back. -/
  | calling {now : Nat} {nextTimer : Option TimerId} {call : ChainCall} :
      system.cmdQueueHead = none → system.pc = .inCallback now started nextTimer →
      (∀ t, isChain t = true → t ≠ started → (system.timer t).active = false) →
      (system.timer started).callback = some call.callback →
      (system.timer started).param = call.param → ChainPhase isChain started system [call]
  | finished {call : ChainCall} : ChainIdle isChain system →
      (system.timer started).callback = some call.callback →
      (system.timer started).param = call.param → ChainPhase isChain started system [call]

section Phases

variable {isChain : TimerId → Bool} {system after : TimerSystem} {events trace : List TimerEvent}
  {started : TimerId}

theorem ChainCallbacks.of_static (callbacks : ChainCallbacks isChain system)
    (same : SameStatic system after) : ChainCallbacks isChain after where
  callable t onChain := by
    rw [same.callback]
    exact callbacks.callable t onChain
  user t := by
    rw [same.callback]
    exact callbacks.user t

theorem ChainIdle.of_same (idle : ChainIdle isChain system)
    (same : ChainSame isChain system after) : ChainIdle isChain after where
  noCommand := same.head.trans idle.noCommand
  outside := same.outside
  inactive t onChain := by
    rw [same.timer t onChain]
    exact idle.inactive t onChain

theorem ChainIdle.daemon (idle : ChainIdle isChain system)
    (callbacks : ChainCallbacks isChain system) (step : DaemonStep system after events) :
    SameStatic system after ∧ ChainIdle isChain after ∧
      ∀ trace, chainCalls isChain (events ++ trace) = chainCalls isChain trace := by
  rcases chainStep_cases idle.outside callbacks.callable step with
    ⟨cmd, _, isHead⟩ | ⟨now, t, callback, onChain, active, _⟩ | ⟨static, same, sameCalls⟩
  · simp [idle.noCommand] at isHead
  · simp [idle.inactive t onChain] at active
  · exact ⟨static, idle.of_same same, sameCalls⟩

/-- The daemon carries out the start of the chain. -/
theorem startChain_step {cmd : CmdId} (atCommands : system.pc = .commands)
    (isHead : system.cmdQueueHead = some cmd)
    (content : system.cmd cmd = ⟨⟨.start, some started, 0⟩, none⟩)
    (step : DaemonStep system after events) :
    SameStatic system after ∧ after.cmdQueueHead = none ∧
      (after.timer started).active = true ∧
      (after.timer started).expiryTick < uint32Size ∧
      (∀ t, t ≠ started → after.timer t = system.timer t) ∧ after.pc = .commands ∧
      after.tickCount = system.tickCount ∧
      ∃ request, events = [.processed request system.tickCount] := by
  cases step with
  | noCommand _ isNone => simp [isHead] at isNone
  | @command first next _ isFirst carriedOut =>
      obtain rfl : cmd = first := Option.some.inj (isHead.symm.trans isFirst)
      rw [CarriedOut, content] at carriedOut
      obtain ⟨impossible, _⟩ | ⟨t, fuel, isTimer, processed⟩ := carriedOut
      · simp at impossible
      · obtain rfl : started = t := Option.some.inj isTimer
        have isNext := (Option.some.inj processed).symm
        have dequeued : (timerDequeueCmd system).2 =
            { system with
              cmdQueueHead := none
              cmdQueueTail := none
              cmd := Function.update system.cmd cmd { system.cmd cmd with next := none } } := by
          rw [timerDequeueCmd, isHead]
          dsimp only
          rw [content, if_pos rfl]
        have static : SameStatic (timerDequeueCmd system).2 next := by
          rw [isNext]
          exact .modifyTimer started fun _ => ⟨rfl, rfl, rfl, rfl⟩
        rw [dequeued] at isNext static
        refine ⟨⟨static.list, static.type, static.callback, static.param, static.next⟩, ?_⟩
        rw [isNext, TimerSystem.modifyTimer]
        refine ⟨rfl, ?_, ?_, fun t differs => ?_, atCommands, rfl, _, rfl⟩
        · change (Function.update system.timer started _ started).active = true
          rw [Function.update_self]
        · change (Function.update system.timer started _ started).expiryTick < uint32Size
          rw [Function.update_self]
          exact Nat.mod_lt _ (by decide)
        · exact Function.update_of_ne differs _ _
  | invoke scanning | silent scanning | skip scanning | passDone scanning =>
      simp [atCommands] at scanning
  | callbackDone inCallback => simp [atCommands] at inCallback
  | awake delaying => simp [atCommands] at delaying

theorem timerExpired_oneShot {now : Nat} {t : TimerId}
    (oneShot : (system.timer t).type = .oneShot) :
    ((timerExpired system now t).timer t).active = false := by
  rw [timerExpired, TimerSystem.modifyTimer]
  dsimp only
  rw [Function.update_self, if_neg (by simp [oneShot])]

/-- The step behind a callback. -/
theorem callbackDone_step {now : Nat} {t : TimerId} {nextTimer : Option TimerId}
    (inCallback : system.pc = .inCallback now t nextTimer)
    (step : DaemonStep system after events) :
    after = (timerExpired system now t).setPc (.scanning now nextTimer) ∧ events = [] := by
  cases step with
  | callbackDone isCallback =>
      obtain ⟨rfl, rfl, rfl⟩ := DaemonPc.inCallback.inj (inCallback.symm.trans isCallback)
      exact ⟨rfl, rfl⟩
  | noCommand atCommands | command atCommands => simp [inCallback] at atCommands
  | invoke scanning | silent scanning | skip scanning | passDone scanning =>
      simp [inCallback] at scanning
  | awake delaying => simp [inCallback] at delaying

/-- The invariant of a run after a chain has been created and its first timer started. -/
structure ChainKept (isChain : TimerId → Bool) (started : TimerId) (system : TimerSystem)
    (calls : List ChainCall) : Prop where
  onChain : isChain started = true
  oneShot : (system.timer started).type = .oneShot
  callbacks : ChainCallbacks isChain system
  phase : ChainPhase isChain started system calls

theorem ChainKept.daemon (kept : ChainKept isChain started system (chainCalls isChain trace))
    (step : DaemonStep system after events) :
    SameStatic system after ∧
      ChainKept isChain started after (chainCalls isChain (events ++ trace)) := by
  obtain ⟨onChain, oneShot, callbacks, phase⟩ := kept
  have finish : SameStatic system after →
      ChainPhase isChain started after (chainCalls isChain (events ++ trace)) →
      SameStatic system after ∧
        ChainKept isChain started after (chainCalls isChain (events ++ trace)) :=
    fun static next => ⟨static, onChain, (static.type started).trans oneShot,
      callbacks.of_static static, next⟩
  generalize callsEq : chainCalls isChain trace = calls at phase
  cases phase with
  | @pending cmd isHead content outside inactive =>
      rcases chainStep_cases outside callbacks.callable step with
        ⟨_, atCommands, _⟩ | ⟨now, t, callback, isTimer, active, _⟩ | ⟨static, same, sameCalls⟩
      · obtain ⟨static, noCommand, active, expiry, others, pc, _, request, rfl⟩ :=
          startChain_step atCommands isHead content step
        apply finish static
        rw [List.singleton_append, chainCalls_processed, callsEq]
        refine .active noCommand active expiry (.of_ne (by simp [pc])) fun t isTimer differs => ?_
        rw [others t differs]
        exact inactive t isTimer
      · simp [inactive t isTimer] at active
      · apply finish static
        rw [sameCalls, callsEq]
        refine .pending (same.head.trans isHead) (same.cmd ▸ content) same.outside
          fun t isTimer => ?_
        rw [same.timer t isTimer]
        exact inactive t isTimer
  | active noCommand active expiry outside inactive =>
      rcases chainStep_cases outside callbacks.callable step with
        ⟨_, _, isHead⟩ | ⟨now, t, callback, isTimer, wasActive, isCallback, rfl, rfl⟩ |
          ⟨static, same, sameCalls⟩
      · simp [noCommand] at isHead
      · have isStarted : t = started := by
          by_contra differs
          simp [inactive t isTimer differs] at wasActive
        subst isStarted
        apply finish (.setPc (.refl system) _)
        rw [List.singleton_append, chainCalls_invoked, if_pos isTimer, callsEq, List.nil_append]
        exact .calling noCommand rfl inactive isCallback rfl
      · apply finish static
        rw [sameCalls, callsEq]
        refine .active (same.head.trans noCommand) ?_ ?_ same.outside fun t isTimer differs => ?_
        · rw [same.timer started onChain]
          exact active
        · rw [same.timer started onChain]
          exact expiry
        · rw [same.timer t isTimer]
          exact inactive t isTimer differs
  | @calling now nextTimer call noCommand inCallback inactive isCallback isParam =>
      obtain ⟨rfl, rfl⟩ := callbackDone_step inCallback step
      have static : SameStatic system ((timerExpired system now started).setPc
          (.scanning now nextTimer)) := (SameStatic.timerExpired now started).setPc _
      apply finish static
      rw [List.nil_append, callsEq]
      refine .finished ⟨noCommand, .of_ne (by simp [TimerSystem.setPc]), fun t isTimer => ?_⟩
        ((static.callback started).trans isCallback) ((static.param started).trans isParam)
      by_cases isStarted : t = started
      · rw [isStarted]
        exact timerExpired_oneShot oneShot
      · change ((timerExpired system now started).timer t).active = false
        rw [timerExpired_other isStarted]
        exact inactive t isTimer isStarted
  | @finished call idle isCallback isParam =>
      obtain ⟨static, idleNow, sameCalls⟩ := idle.daemon callbacks step
      apply finish static
      rw [sameCalls, callsEq]
      exact .finished idleNow ((static.callback started).trans isCallback)
        ((static.param started).trans isParam)

end Phases

/-- The list of timers, and what is left of it in a pass. -/
structure ChainLinked (nodes : List TimerId) (system : TimerSystem) : Prop where
  path : Path system.link system.timerList nodes
  cursor : ∀ t, system.pc.cursor = some t → Terminates system.link t

theorem SameStatic.link {system after : TimerSystem} (same : SameStatic system after) :
    after.link = system.link := funext same.next

theorem ChainLinked.daemon {nodes : List TimerId} {system after : TimerSystem}
    {events : List TimerEvent} (linked : ChainLinked nodes system)
    (static : SameStatic system after) (step : DaemonStep system after events) :
    ChainLinked nodes after := by
  have behind : ∀ now t, system.pc = .scanning now (some t) →
      Terminates system.link (system.timer t).next := by
    intro now t scanning
    obtain ⟨rest, path⟩ := linked.cursor (some t) (by rw [scanning]; rfl)
    cases path with
    | node rest => exact ⟨_, rest⟩
  refine ⟨?_, ?_⟩
  · rw [static.link, static.list]
    exact linked.path
  · rw [static.link]
    intro t isCursor
    cases step with
    | noCommand =>
        obtain rfl : system.timerList = t := Option.some.inj isCursor
        exact ⟨nodes, linked.path⟩
    | @command cmd next atCommands _ carriedOut =>
        rw [show (timerCmdFree next cmd).pc = .commands from carriedOut.kept.1.trans atCommands]
          at isCursor
        simp [DaemonPc.cursor] at isCursor
    | invoke scanning | silent scanning | skip scanning =>
        obtain rfl := Option.some.inj isCursor
        exact behind _ _ scanning
    | @callbackDone now timer nextTimer inCallback =>
        obtain rfl : nextTimer = t := Option.some.inj isCursor
        exact linked.cursor nextTimer (by rw [inCallback]; rfl)
    | passDone | awake => simp [TimerSystem.setPc, DaemonPc.cursor] at isCursor

/-- The daemon always has a next step while the only command is a start. -/
theorem timerDaemon_total {system : TimerSystem}
    (starts : ∀ cmd, system.cmdQueueHead = some cmd → (system.cmd cmd).type = .start) :
    ∃ after events, timerDaemon 0 system = some (after, events) := by
  unfold timerDaemon
  split
  case h_1 atCommands =>
    cases isHead : system.cmdQueueHead with
    | none =>
        rw [timerDequeueCmd, isHead]
        exact ⟨_, _, rfl⟩
    | some cmd =>
        rw [timerDequeueCmd, isHead]
        dsimp only
        rw [Function.update_self]
        dsimp only
        rw [starts cmd isHead]
        split
        · exact ⟨_, _, rfl⟩
        · exact ⟨_, _, rfl⟩
  case h_2 now t scanning =>
    dsimp only
    split
    · split <;> exact ⟨_, _, rfl⟩
    · exact ⟨_, _, rfl⟩
  all_goals exact ⟨_, _, rfl⟩

section Runs

variable {isChain : TimerId → Bool} {started : TimerId} {nodes : List TimerId}
  {initial : ChainSystem} {current : GuardedRun.Traced ChainSystem TimerEvent}

theorem ChainCallbacks.not_inChainCallback {system : ChainSystem}
    (callbacks : ChainCallbacks isChain system.timers) (fuel : Nat) (allocated : Option CmdId) :
    execChain fuel system (.chainCallback allocated) = none := by
  rw [execChain]
  split
  · exact if_neg (callbacks.user _)
  · rfl

/-- The invariant of a chain run. -/
structure ChainRun (isChain : TimerId → Bool) (started : TimerId) (nodes : List TimerId)
    (callback : TimerCallback) (param : Pointer)
    (current : GuardedRun.Traced ChainSystem TimerEvent) : Prop where
  kept : ChainKept isChain started current.state.timers (chainCalls isChain current.trace)
  linked : ChainLinked nodes current.state.timers
  inRange : current.state.timers.tickCount < uint32Size
  callback : (current.state.timers.timer started).callback = some callback
  param : (current.state.timers.timer started).param = param

namespace ChainRun

variable {callback : TimerCallback} {param : Pointer}
  {next : GuardedRun.Traced ChainSystem TimerEvent}

theorem daemon (run : ChainRun isChain started nodes callback param current)
    {after : TimerSystem} {events : List TimerEvent}
    (step : DaemonStep current.state.timers after events) :
    ChainRun isChain started nodes callback param
      ⟨{ current.state with timers := after }, events ++ current.trace⟩ := by
  obtain ⟨static, kept⟩ := run.kept.daemon step
  exact ⟨kept, run.linked.daemon static step, step.tickCount ▸ run.inRange,
    (static.callback started).trans run.callback, (static.param started).trans run.param⟩

theorem tick (run : ChainRun isChain started nodes callback param current) {tickCount : Nat}
    (inRange : tickCount < uint32Size) :
    ChainRun isChain started nodes callback param
      ⟨{ current.state with timers := { current.state.timers with tickCount := tickCount } },
        current.trace⟩ := by
  obtain ⟨⟨onChain, oneShot, callbacks, phase⟩, linked, _, isCallback, isParam⟩ := run
  refine ⟨⟨onChain, oneShot, ⟨callbacks.callable, callbacks.user⟩, ?_⟩,
    ⟨linked.path, linked.cursor⟩, inRange, isCallback, isParam⟩
  generalize chainCalls isChain current.trace = calls at phase
  cases phase with
  | pending isHead content outside inactive => exact .pending isHead content outside inactive
  | active noCommand active expiry outside inactive =>
      exact .active noCommand active expiry outside inactive
  | calling noCommand inCallback inactive isCall isArg =>
      exact .calling noCommand inCallback inactive isCall isArg
  | finished idle isCall isArg =>
      exact .finished ⟨idle.noCommand, idle.outside, idle.inactive⟩ isCall isArg

theorem step (run : ChainRun isChain started nodes callback param current)
    (stepped : Step execChain AnyStep current next) :
    ChainRun isChain started nodes callback param next := by
  obtain ⟨fuel, action, events, _, executed, traced⟩ := stepped
  obtain ⟨state, trace⟩ := next
  dsimp only at executed traced
  subst traced
  cases action with
  | daemon =>
      obtain ⟨⟨after, happened⟩, stepped, isState⟩ := Option.map_eq_some_iff.mp executed
      obtain ⟨rfl, rfl⟩ := Prod.mk.inj isState
      exact run.daemon (timerDaemon_cases stepped)
  | tick =>
      obtain ⟨rfl, rfl⟩ := Prod.mk.inj (Option.some.inj executed)
      exact run.tick (Nat.mod_lt _ (by decide))
  | chainCallback allocated =>
      rw [run.kept.callbacks.not_inChainCallback] at executed
      simp at executed

theorem steps (run : ChainRun isChain started nodes callback param current)
    (stepped : Relation.ReflTransGen (Step execChain AnyStep) current next) :
    ChainRun isChain started nodes callback param next := by
  induction stepped with
  | refl => exact run
  | tail _ step ih => exact ih.step step

/-- There is no callback of the chain so far, or only that of the timer started. -/
theorem calls_cases (run : ChainRun isChain started nodes callback param current) :
    chainCalls isChain current.trace = [] ∨
      ∃ now, chainCalls isChain current.trace = [⟨callback, param, now⟩] := by
  obtain ⟨⟨_, _, _, phase⟩, _, _, isCallback, isParam⟩ := run
  have same : ∀ call : ChainCall,
      (current.state.timers.timer started).callback = some call.callback →
      (current.state.timers.timer started).param = call.param →
      ∃ now, [call] = [⟨callback, param, now⟩] := by
    rintro ⟨callback', param', now⟩ isCall isArg
    obtain rfl : callback = callback' := Option.some.inj (isCallback.symm.trans isCall)
    obtain rfl : param = param' := isParam.symm.trans isArg
    exact ⟨now, rfl⟩
  generalize chainCalls isChain current.trace = calls at phase
  cases phase with
  | pending | active => exact .inl rfl
  | calling _ _ _ isCall isArg => exact .inr (same _ isCall isArg)
  | finished _ isCall isArg => exact .inr (same _ isCall isArg)

/-- A callback of the chain has been made. -/
def Called (isChain : TimerId → Bool) (current : GuardedRun.Traced ChainSystem TimerEvent) : Prop :=
  chainCalls isChain current.trace ≠ []

theorem exists_daemon (run : ChainRun isChain started nodes callback param current) :
    ∃ after events, DaemonStep current.state.timers after events ∧
      Step execChain AnyStep current
        ⟨{ current.state with timers := after }, events ++ current.trace⟩ := by
  have starts : ∀ cmd, current.state.timers.cmdQueueHead = some cmd →
      (current.state.timers.cmd cmd).type = .start := by
    intro cmd isHead
    have phase := run.kept.phase
    generalize chainCalls isChain current.trace = calls at phase
    cases phase with
    | pending isFirst content =>
        obtain rfl := Option.some.inj (isHead.symm.trans isFirst)
        rw [content]
    | active noCommand | calling noCommand => simp [noCommand] at isHead
    | finished idle => simp [idle.noCommand] at isHead
  obtain ⟨after, events, stepped⟩ := timerDaemon_total starts
  refine ⟨after, events, timerDaemon_cases stepped, 0, .daemon, events, trivial, ?_, rfl⟩
  rw [execChain, stepped]
  rfl

/-- The pass goes on behind one timer, or calls the chain back. -/
theorem scan_turn (run : ChainRun isChain started nodes callback param current) {now : Nat}
    {t : TimerId} (scanning : current.state.timers.pc = .scanning now (some t)) :
    ∃ later, Relation.ReflTransGen (Step execChain AnyStep) current later ∧
      (Called isChain later ∨
        later.state.timers.pc = .scanning now (current.state.timers.timer t).next ∧
        SameStatic current.state.timers later.state.timers ∧
        later.state.timers.tickCount = current.state.timers.tickCount ∧
        later.state.timers.timer started = current.state.timers.timer started ∧
        (t = started → ¬((current.state.timers.timer started).active = true ∧
          (current.state.timers.timer started).expiryTick ≤ now))) := by
  obtain ⟨after, events, step, stepped⟩ := run.exists_daemon
  have tickCount := step.tickCount
  have onChain := run.kept.onChain
  cases step with
  | @invoke now' t' callback' isScanning active isDue isCallback =>
      obtain ⟨rfl, isTimer⟩ := DaemonPc.scanning.inj (scanning.symm.trans isScanning)
      obtain rfl := Option.some.inj isTimer
      by_cases isOurs : isChain t = true
      · refine ⟨_, .single stepped, .inl ?_⟩
        rw [Called, List.singleton_append, chainCalls_invoked, if_pos isOurs]
        simp
      · have differs : started ≠ t := fun same => isOurs (same ▸ onChain)
        obtain ⟨second, others, secondStep, secondStepped⟩ :=
          (run.step stepped).exists_daemon
        obtain ⟨rfl, rfl⟩ := callbackDone_step rfl secondStep
        refine ⟨_, .tail (.single stepped) secondStepped, .inr ⟨rfl, ?_, rfl, ?_, ?_⟩⟩
        · exact (SameStatic.timerExpired now t).setPc _
        · exact timerExpired_other differs
        · exact fun same => absurd same.symm differs
  | @silent now' t' isScanning noCallback =>
      obtain ⟨rfl, isTimer⟩ := DaemonPc.scanning.inj (scanning.symm.trans isScanning)
      obtain rfl := Option.some.inj isTimer
      have differs : started ≠ t := by
        rintro rfl
        exact run.kept.callbacks.callable started onChain noCallback
      refine ⟨_, .single stepped, .inr ⟨rfl, (SameStatic.timerExpired now t).setPc _, rfl,
        timerExpired_other differs, fun same => absurd same.symm differs⟩⟩
  | @skip now' t' isScanning notDue =>
      obtain ⟨rfl, isTimer⟩ := DaemonPc.scanning.inj (scanning.symm.trans isScanning)
      obtain rfl := Option.some.inj isTimer
      refine ⟨_, .single stepped, .inr ⟨rfl, .setPc (.refl _) _, rfl, rfl, ?_⟩⟩
      rintro rfl
      exact notDue
  | noCommand atCommands | command atCommands => simp [scanning] at atCommands
  | passDone finished => simp [scanning] at finished
  | callbackDone inCallback => simp [scanning] at inCallback
  | awake delaying => simp [scanning] at delaying

/-- A pass ends, and calls the chain back if its timer is due. -/
theorem scan (run : ChainRun isChain started nodes callback param current) {now : Nat}
    {cursor : Option TimerId} {rest : List TimerId}
    (scanning : current.state.timers.pc = .scanning now cursor)
    (path : Path current.state.timers.link cursor rest) :
    ∃ later, Relation.ReflTransGen (Step execChain AnyStep) current later ∧
      (Called isChain later ∨
        later.state.timers.pc = .delaying ∧
        (started ∈ rest → ¬((current.state.timers.timer started).active = true ∧
          (current.state.timers.timer started).expiryTick ≤ now))) := by
  induction rest generalizing current cursor with
  | nil =>
      obtain rfl := path.eq_none
      obtain ⟨after, events, step, stepped⟩ := run.exists_daemon
      refine ⟨_, .single stepped, .inr ⟨?_, by simp⟩⟩
      cases step with
      | passDone => rfl
      | noCommand atCommands | command atCommands => simp [scanning] at atCommands
      | invoke isScanning | silent isScanning | skip isScanning => simp [scanning] at isScanning
      | callbackDone inCallback => simp [scanning] at inCallback
      | awake delaying => simp [scanning] at delaying
  | cons t rest ih =>
      obtain ⟨rfl, behind⟩ := path.tail
      obtain ⟨middle, before, called | ⟨pc, static, _, same, notDue⟩⟩ := run.scan_turn scanning
      · exact ⟨middle, before, .inl called⟩
      · have behindNow : Path middle.state.timers.link
            (current.state.timers.timer t).next rest := by
          rw [static.link]
          exact behind
        obtain ⟨later, after, called | ⟨finished, notLater⟩⟩ :=
          ih (run.steps before) pc behindNow
        · exact ⟨later, before.trans after, .inl called⟩
        · refine ⟨later, before.trans after, .inr ⟨finished, fun onRest => ?_⟩⟩
          rw [same] at notLater
          rcases List.mem_cons.mp onRest with isTimer | onRest
          · exact notDue isTimer.symm
          · exact notLater onRest

/-- From every state the daemon comes back to its queue, or calls the chain back. -/
theorem reach_commands (run : ChainRun isChain started nodes callback param current) :
    ∃ later, Relation.ReflTransGen (Step execChain AnyStep) current later ∧
      (Called isChain later ∨ later.state.timers.pc = .commands) := by
  have awake : ∀ {middle : GuardedRun.Traced ChainSystem TimerEvent},
      ChainRun isChain started nodes callback param middle →
      middle.state.timers.pc = .delaying →
      ∃ later, Relation.ReflTransGen (Step execChain AnyStep) middle later ∧
        (Called isChain later ∨ later.state.timers.pc = .commands) := by
    intro middle runMiddle delaying
    obtain ⟨after, events, step, stepped⟩ := runMiddle.exists_daemon
    refine ⟨_, .single stepped, .inr ?_⟩
    cases step with
    | awake => rfl
    | noCommand atCommands | command atCommands => simp [delaying] at atCommands
    | invoke scanning | silent scanning | skip scanning | passDone scanning =>
        simp [delaying] at scanning
    | callbackDone inCallback => simp [delaying] at inCallback
  have scanned : ∀ {middle : GuardedRun.Traced ChainSystem TimerEvent} {now : Nat}
      {t : Option TimerId}, ChainRun isChain started nodes callback param middle →
      middle.state.timers.pc = .scanning now t →
      ∃ later, Relation.ReflTransGen (Step execChain AnyStep) middle later ∧
        (Called isChain later ∨ later.state.timers.pc = .commands) := by
    intro middle now t runMiddle scanning
    obtain ⟨rest, path⟩ := runMiddle.linked.cursor t (by rw [scanning]; rfl)
    obtain ⟨later, before, called | ⟨delaying, _⟩⟩ := runMiddle.scan scanning path
    · exact ⟨later, before, .inl called⟩
    · obtain ⟨last, after, ended⟩ := awake (runMiddle.steps before) delaying
      exact ⟨last, before.trans after, ended⟩
  cases isPc : current.state.timers.pc with
  | commands => exact ⟨current, .refl, .inr isPc⟩
  | delaying => exact awake run isPc
  | scanning now t => exact scanned run isPc
  | inCallback now t nextTimer =>
      obtain ⟨after, events, step, stepped⟩ := run.exists_daemon
      obtain ⟨rfl, rfl⟩ := callbackDone_step isPc step
      obtain ⟨last, after, ended⟩ := scanned (run.step stepped) rfl
      exact ⟨last, .head stepped after, ended⟩

/-- The tick count can be advanced up to the wrap. -/
theorem reach_tick (current : GuardedRun.Traced ChainSystem TimerEvent) {tickCount : Nat}
    (le : current.state.timers.tickCount ≤ tickCount) (inRange : tickCount < uint32Size) :
    Relation.ReflTransGen (Step execChain AnyStep) current
      ⟨{ current.state with timers := { current.state.timers with tickCount := tickCount } },
        current.trace⟩ := by
  induction tickCount, le using Nat.le_induction with
  | base => exact .refl
  | succ tickCount _ ih =>
      refine .tail (ih (by omega)) ⟨0, .tick, [], trivial, ?_, rfl⟩
      rw [execChain, execTimer]
      dsimp only
      rw [Nat.mod_eq_of_lt inRange]
      rfl

/-- While the start is pending or carried out, the run can go on until the chain is called
back. -/
theorem reach_called (run : ChainRun isChain started nodes callback param current)
    (listed : started ∈ nodes) :
    ∃ later, Relation.ReflTransGen (Step execChain AnyStep) current later ∧
      Called isChain later := by
  -- Once the start has been carried out, the last tick count before the wrap is late enough.
  have fromActive : ∀ {middle : GuardedRun.Traced ChainSystem TimerEvent},
      ChainRun isChain started nodes callback param middle →
      middle.state.timers.pc = .commands → middle.state.timers.cmdQueueHead = none →
      (middle.state.timers.timer started).active = true →
      (middle.state.timers.timer started).expiryTick < uint32Size →
      ∃ later, Relation.ReflTransGen (Step execChain AnyStep) middle later ∧
        Called isChain later := by
    intro middle runMiddle atCommands noCommand active expiry
    have inRange := runMiddle.inRange
    have small : middle.state.timers.tickCount ≤ uint32Size - 1 := by omega
    have ticked := reach_tick middle small (by omega)
    obtain ⟨after, events, step, stepped⟩ := (runMiddle.steps ticked).exists_daemon
    have scanRun := (runMiddle.steps ticked).step stepped
    cases step with
    | noCommand =>
        obtain ⟨later, passed, called | ⟨_, notDue⟩⟩ := scanRun.scan rfl scanRun.linked.path
        · exact ⟨later, (ticked.tail stepped).trans passed, called⟩
        · exact absurd ⟨active, Nat.le_sub_one_of_lt expiry⟩ (notDue listed)
    | command _ isHead => exact absurd (noCommand.symm.trans isHead) (by simp)
    | invoke scanning | silent scanning | skip scanning | passDone scanning =>
        exact absurd (atCommands.symm.trans scanning) (by simp)
    | callbackDone inCallback => exact absurd (atCommands.symm.trans inCallback) (by simp)
    | awake delaying => exact absurd (atCommands.symm.trans delaying) (by simp)
  obtain ⟨middle, before, called | atCommands⟩ := run.reach_commands
  · exact ⟨middle, before, called⟩
  · have runMiddle := run.steps before
    have phase := runMiddle.kept.phase
    generalize callsEq : chainCalls isChain middle.trace = calls at phase
    cases phase with
    | pending isHead content outside inactive =>
        obtain ⟨after, events, step, stepped⟩ := runMiddle.exists_daemon
        obtain ⟨_, noCommand, active, expiry, _, pc, _, _⟩ :=
          startChain_step atCommands isHead content step
        obtain ⟨later, behind, called⟩ :=
          fromActive (runMiddle.step stepped) pc noCommand active expiry
        exact ⟨later, (before.tail stepped).trans behind, called⟩
    | active noCommand active expiry outside inactive =>
        obtain ⟨later, behind, called⟩ :=
          fromActive runMiddle atCommands noCommand active expiry
        exact ⟨later, before.trans behind, called⟩
    | calling | finished => exact ⟨middle, before, by simp [Called, callsEq]⟩

end ChainRun

end Runs

/-- The state in which a chain is created: the list of timers is finite and live, no command
is pending, and `malloc_rtos` returns unused memory. -/
structure ChainReady (system : ChainSystem) (memory : ChainMemory) : Prop where
  inRange : system.timers.tickCount < uint32Size
  listed : ∃ nodes, Path system.timers.link system.timers.timerList nodes ∧
    ∀ t ∈ nodes, t ∈ system.timers.liveTimers
  cursor : ∀ t, system.timers.pc.cursor = some t → ∃ rest,
    Path system.timers.link t rest ∧ ∀ other ∈ rest, other ∈ system.timers.liveTimers
  inCallback : ∀ now t nextTimer, system.timers.pc = .inCallback now t nextTimer →
    t ∈ system.timers.liveTimers
  noCommand : system.timers.cmdQueueHead = none
  noLast : system.timers.cmdQueueTail = none
  user : ∀ t, (system.timers.timer t).callback ≠ some .timerChainCallback
  fresh : ∀ i t, memory.timer i = some t → t ∉ system.timers.liveTimers
  distinct : ∀ i j t, memory.timer i = some t → memory.timer j = some t → i = j
  distinctNodes : ∀ i j address, memory.node i = some address →
    memory.node j = some address → i = j

section Creation

variable {steps : ChainSteps} {memory : ChainMemory} {system after : ChainSystem}
  {events : List TimerEvent}

theorem isChainTimer_iff {t : TimerId} :
    isChainTimer steps memory t = true ↔ ∃ i < steps.count, memory.timer i = some t := by
  simp [isChainTimer]

/-- What a successful creation leaves, before the start of the first timer is sent. -/
theorem timerChainCreate_cases (ready : ChainReady system memory)
    (created : timerChainCreate system steps memory = (1, after, events)) :
    ∃ (built : ChainSystem) (nodes : List TimerId) (started : TimerId),
      steps.count ≠ 0 ∧
      ChainBuilt steps memory steps.count nodes system.timers built.timers ∧
      memory.timer 0 = some started ∧
      (steps.count = 1 → (built.timers.timer started).param = steps.params 0) ∧
      after = { built with
        timers := (timerStart built.timers (memory.cmd 0) (some started) 0).2.1 } := by
  rw [timerChainCreate] at created
  split at created
  case isTrue => simp at created
  case isFalse notEmpty =>
    split at created
    · simp at created
    · rename_i prev node allocated
      obtain ⟨addresses, path, length, _⟩ := allocChainNodes_path ready.distinctNodes allocated
      obtain ⟨olds, oldPath, oldLive⟩ := ready.listed
      have start : ChainBuilt steps memory (steps.count - steps.count) olds system.timers
          system.timers := by
        rw [Nat.sub_self]
        exact ⟨.refl _, rfl, rfl, oldPath, oldLive, ready.cursor, ready.user, by simp,
          fun i _ => ready.fresh i⟩
      split at created
      · simp at created
      · rename_i built finished
        have fromNodes := @createChainTimers_created steps memory ready.distinct steps.count
          (Nat.le_refl _) olds system.timers
          { system with node := node, timerChainHead := prev } built prev addresses start
        obtain ⟨nodes, all⟩ := fromNodes path length finished
        cases addresses with
        | nil => exact absurd length.symm notEmpty
        | cons address rest =>
            obtain ⟨rfl, _⟩ := path.tail
            obtain ⟨t, isTimer, isFirst, param⟩ := all.first address rest rfl
            rw [Nat.sub_self] at isTimer param
            have isHead : (built.timerChainHead.bind fun head => (built.node head).timer) =
                some t := by
              rw [all.head]
              exact isFirst
            rw [isHead] at created
            dsimp only at created
            refine ⟨built, nodes, t, notEmpty, all.built, isTimer, param, ?_⟩
            exact (Prod.mk.inj (Prod.mk.inj created).2).1.symm

theorem timerStart_none (timers : TimerSystem) (t : TimerId) :
    (timerStart timers none (some t) 0).2.1 = timers := rfl

/-- The start of a timer while no command is pending. -/
theorem timerStart_first {timers : TimerSystem} (noLast : timers.cmdQueueTail = none)
    (cmd : CmdId) (t : TimerId) :
    (timerStart timers (some cmd) (some t) 0).2.1 =
      { timers with
        cmd := Function.update timers.cmd cmd ⟨⟨.start, some t, 0⟩, none⟩
        liveCmds := insert cmd timers.liveCmds
        cmdQueueHead := some cmd
        cmdQueueTail := some cmd } := by
  rw [timerStart, timerSend]
  dsimp only
  rw [timerEnqueueCmd]
  dsimp only
  rw [noLast]
  simp

theorem ChainBuilt.inactive {nodes : List TimerId} {before timers : TimerSystem}
    (built : ChainBuilt steps memory steps.count nodes before timers) {t : TimerId}
    (onChain : isChainTimer steps memory t = true) : (timers.timer t).active = false := by
  obtain ⟨i, small, isTimer⟩ := isChainTimer_iff.mp onChain
  obtain ⟨other, _, isOther, _, _, _, inactive, _⟩ := built.created i small
  obtain rfl : t = other := Option.some.inj (isTimer.symm.trans isOther)
  exact inactive

theorem ChainBuilt.callbacks {nodes : List TimerId} {before timers : TimerSystem}
    (built : ChainBuilt steps memory steps.count nodes before timers) :
    ChainCallbacks (isChainTimer steps memory) timers where
  callable t onChain := by
    obtain ⟨i, small, isTimer⟩ := isChainTimer_iff.mp onChain
    obtain ⟨other, function, isOther, _, _, isCallback, _⟩ := built.created i small
    obtain rfl : t = other := Option.some.inj (isTimer.symm.trans isOther)
    simp [isCallback]
  user := built.user

theorem ChainReady.outside (ready : ChainReady system memory) :
    OutsideChain (isChainTimer steps memory) system.timers.pc := by
  intro now t nextTimer inCallback
  apply Bool.eq_false_iff.mpr
  intro onChain
  obtain ⟨i, _, isTimer⟩ := isChainTimer_iff.mp onChain
  exact ready.fresh i t isTimer (ready.inCallback now t nextTimer inCallback)

/-- Without memory for the start no timer of the chain is ever called back. -/
theorem timerChainCreate_idle (ready : ChainReady system memory)
    (created : timerChainCreate system steps memory = (1, after, events))
    (noMemory : memory.cmd 0 = none) {current : GuardedRun.Traced ChainSystem TimerEvent}
    (run : Reachable execChain AnyStep after current) :
    chainCalls (isChainTimer steps memory) current.trace = [] := by
  obtain ⟨built, nodes, started, _, chain, _, _, rfl⟩ := timerChainCreate_cases ready created
  rw [noMemory, timerStart_none] at run
  have kept : ChainIdle (isChainTimer steps memory) current.state.timers ∧
      ChainCallbacks (isChainTimer steps memory) current.state.timers ∧
      chainCalls (isChainTimer steps memory) current.trace = [] := by
    refine run.invariant (fun current =>
      ChainIdle (isChainTimer steps memory) current.state.timers ∧
        ChainCallbacks (isChainTimer steps memory) current.state.timers ∧
        chainCalls (isChainTimer steps memory) current.trace = []) ?_ ?_
    · refine ⟨⟨chain.commands.head.trans ready.noCommand, ?_, fun t => chain.inactive⟩,
        chain.callbacks, rfl⟩
      rw [chain.pc]
      exact ready.outside
    · rintro fuel before action next happened ⟨idle, callbacks, none⟩ _ executed
      cases action with
      | daemon =>
          obtain ⟨⟨timers, reported⟩, stepped, isState⟩ := Option.map_eq_some_iff.mp executed
          obtain ⟨rfl, rfl⟩ := Prod.mk.inj isState
          obtain ⟨static, idleNow, sameCalls⟩ :=
            idle.daemon callbacks (timerDaemon_cases stepped)
          exact ⟨idleNow, callbacks.of_static static, (sameCalls _).trans none⟩
      | tick =>
          obtain ⟨rfl, rfl⟩ := Prod.mk.inj (Option.some.inj executed)
          exact ⟨⟨idle.noCommand, idle.outside, idle.inactive⟩,
            ⟨callbacks.callable, callbacks.user⟩, none⟩
      | chainCallback allocated =>
          rw [callbacks.not_inChainCallback] at executed
          simp at executed
  exact kept.2.2

/-- With memory for the start the timer of the last step created is the one that runs. -/
theorem timerChainCreate_run (ready : ChainReady system memory)
    (created : timerChainCreate system steps memory = (1, after, events)) {cmd : CmdId}
    (hasMemory : memory.cmd 0 = some cmd) :
    ∃ nodes started function param, started ∈ nodes ∧ steps.callbacks 0 = some function ∧
      (steps.count = 1 → param = steps.params 0) ∧
      ChainRun (isChainTimer steps memory) started nodes (.user function) param ⟨after, []⟩ := by
  obtain ⟨built, nodes, started, notEmpty, chain, isStarted, isParam, rfl⟩ :=
    timerChainCreate_cases ready created
  obtain ⟨t, function, isTimer, listed, isFunction, isCallback, _, oneShot⟩ :=
    chain.created 0 (Nat.pos_of_ne_zero notEmpty)
  obtain rfl : started = t := Option.some.inj (isStarted.symm.trans isTimer)
  rw [hasMemory, timerStart_first (chain.commands.tail.trans ready.noLast)]
  have onChain : isChainTimer steps memory started = true :=
    isChainTimer_iff.mpr ⟨0, Nat.pos_of_ne_zero notEmpty, isTimer⟩
  have callbacks := chain.callbacks
  have inRange := chain.tickCount ▸ ready.inRange
  refine ⟨nodes, started, function, _, listed, isFunction, isParam,
    ⟨onChain, oneShot, ⟨callbacks.callable, callbacks.user⟩, ?_⟩,
    ⟨chain.path, fun t isCursor => ?_⟩, inRange, isCallback, rfl⟩
  · refine .pending rfl (Function.update_self ..) ?_ fun t => chain.inactive
    dsimp only
    rw [chain.pc]
    exact ready.outside
  · obtain ⟨rest, path, _⟩ := chain.cursor t isCursor
    exact ⟨rest, path⟩

theorem chainExpected_length (steps : ChainSteps) :
    (chainExpected steps).length = steps.count := by
  simp [chainExpected]

/-- No more than one timer of a chain is ever called back, and none without memory. -/
theorem ChainServed.single (ready : ChainReady system memory)
    (created : timerChainCreate system steps memory = (1, after, events))
    (served : ChainServed steps memory after) : steps.count = 1 ∧ memory.cmd 0 ≠ none := by
  obtain ⟨_, _, _, notEmpty, _⟩ := timerChainCreate_cases ready created
  obtain ⟨later, run, complete⟩ := served.completed ⟨after, []⟩ .refl
  have length := congrArg List.length complete
  rw [List.length_map, chainExpected_length] at length
  cases isCmd : memory.cmd 0 with
  | none =>
      rw [timerChainCreate_idle ready created isCmd run] at length
      exact absurd length.symm notEmpty
  | some cmd =>
      obtain ⟨nodes, started, function, param, _, _, _, start⟩ :=
        timerChainCreate_run ready created isCmd
      refine ⟨?_, by simp⟩
      rcases (start.steps run).calls_cases with noCall | ⟨now, oneCall⟩
      · rw [noCall] at length
        exact absurd length.symm notEmpty
      · rw [oneCall] at length
        exact length.symm

/-- A chain is served exactly if it has a single step and there is memory for its start. -/
theorem timerChain_served_iff (ready : ChainReady system memory)
    (created : timerChainCreate system steps memory = (1, after, events)) :
    ChainServed steps memory after ↔ steps.count = 1 ∧ memory.cmd 0 ≠ none := by
  constructor
  · exact ChainServed.single ready created
  · rintro ⟨single, hasMemory⟩
    obtain ⟨cmd, isCmd⟩ := Option.ne_none_iff_exists'.mp hasMemory
    obtain ⟨nodes, started, function, param, listed, isFunction, isParam, start⟩ :=
      timerChainCreate_run ready created isCmd
    obtain rfl := isParam single
    have expected : chainExpected steps = [(some (.user function), steps.params 0)] := by
      simp [chainExpected, single, isFunction]
    refine ⟨fun current run => ?_, fun current run i first second _ isSecond => ?_,
      fun current run => ?_⟩
    · rw [expected]
      rcases (start.steps run).calls_cases with noCall | ⟨now, oneCall⟩
      · simp [noCall]
      · simp [oneCall]
    · rcases (start.steps run).calls_cases with noCall | ⟨now, oneCall⟩
      · simp [noCall] at isSecond
      · simp [oneCall] at isSecond
    · obtain ⟨later, behind, called⟩ := (start.steps run).reach_called listed
      refine ⟨later, behind, ?_⟩
      rw [expected]
      rcases ((start.steps run).steps behind).calls_cases with noCall | ⟨now, oneCall⟩
      · exact absurd noCall called
      · simp [oneCall]

end Creation

/-- Chains over the timers of a fresh system. -/
def freshChain (count : Nat) : ChainSystem × ChainSteps × ChainMemory :=
  (⟨startedTimers 0, fun _ => ⟨none, none⟩, none⟩,
    ⟨fun i => i + 2, fun i => some (i + 7), fun i => i + 70, count⟩,
    ⟨fun i => some (i + 1000), fun i => some (i + 10), fun i => some (i + 100)⟩)

theorem freshChain_ready (count : Nat) :
    ChainReady (freshChain count).1 (freshChain count).2.2 where
  inRange := Nat.two_pow_pos 32
  listed := ⟨[], .null, by simp⟩
  cursor t isCursor := by simp [freshChain, startedTimers, DaemonPc.cursor] at isCursor
  inCallback now t nextTimer inCallback := by simp [freshChain, startedTimers] at inCallback
  noCommand := rfl
  noLast := rfl
  user t := by simp [freshChain, startedTimers]
  fresh i t _ := by simp [freshChain, startedTimers]
  distinct i j t isFirst isSecond := by
    obtain rfl := Option.some.inj isFirst
    exact Nat.add_right_cancel (Option.some.inj isSecond).symm
  distinctNodes i j address isFirst isSecond := by
    obtain rfl := Option.some.inj isFirst
    exact Nat.add_right_cancel (Option.some.inj isSecond).symm

/-- The system that a chain over the timers of a fresh system leaves. -/
def createdChain (count : Nat) : ChainSystem :=
  (timerChainCreate (freshChain count).1 (freshChain count).2.1 (freshChain count).2.2).2.1

/-- A chain of one step is served. -/
theorem timerChain_served_single :
    (timerChainCreate (freshChain 1).1 (freshChain 1).2.1 (freshChain 1).2.2).1 = 1 ∧
      ChainServed (freshChain 1).2.1 (freshChain 1).2.2 (createdChain 1) :=
  ⟨by decide, (timerChain_served_iff (freshChain_ready 1)
    (Prod.ext rfl (Prod.ext rfl rfl))).mpr (by decide)⟩

/-- Of two steps only the first is ever called back. -/
theorem timerChain_served_two :
    (timerChainCreate (freshChain 2).1 (freshChain 2).2.1 (freshChain 2).2.2).1 = 1 ∧
      (∀ i, (freshChain 2).2.1.times i ≠ 0) ∧
      ¬ChainServed (freshChain 2).2.1 (freshChain 2).2.2 (createdChain 2) := by
  refine ⟨by decide, fun i => Nat.succ_ne_zero (i + 1), fun served => ?_⟩
  have single := served.single (freshChain_ready 2) (Prod.ext rfl (Prod.ext rfl rfl))
  exact absurd single.1 (by decide)

end Rtos

end MiniIotRobotEdge

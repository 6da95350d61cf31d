import MiniIotRobotEdge.GuardedRun
import MiniIotRobotEdge.RtosSoftwareTimers

/-!
# Commands of the software timers

The command queue is a linked list with a pointer to its last node.  As long as
`malloc_rtos` returns unused memory, it holds the commands that have been sent and not
yet carried out, in the order in which they were sent.  A one-shot timer is called back
only while it is active, and between a callback and the next start or reset it is not.
-/

namespace MiniIotRobotEdge

namespace Rtos

open PointerChain GuardedRun

/-- What the daemon does with the first command of the queue, before it frees the command. -/
def CarriedOut (system : TimerSystem) (cmd : CmdId) (after : TimerSystem) : Prop :=
  (system.cmd cmd).timer = none ∧ after = (timerDequeueCmd system).2 ∨
    ∃ t fuel, (system.cmd cmd).timer = some t ∧
      timerProcessCommand fuel (timerDequeueCmd system).2 t (system.cmd cmd).period
        (system.cmd cmd).type = some after

/-- What a step of the daemon can do. -/
inductive DaemonStep (system : TimerSystem) : TimerSystem → List TimerEvent → Prop
  | noCommand : system.pc = .commands → system.cmdQueueHead = none →
      DaemonStep system (system.setPc (.scanning system.tickCount system.timerList)) []
  | command {cmd : CmdId} {after : TimerSystem} :
      system.pc = .commands → system.cmdQueueHead = some cmd →
      CarriedOut system cmd after →
      DaemonStep system (timerCmdFree after cmd)
        [.processed (system.cmd cmd).toTimerRequest system.tickCount]
  | invoke {now : Nat} {t : TimerId} {callback : TimerCallback} :
      system.pc = .scanning now (some t) → (system.timer t).active = true →
      (system.timer t).expiryTick ≤ now → (system.timer t).callback = some callback →
      DaemonStep system (system.setPc (.inCallback now t (system.timer t).next))
        [.invoked t (system.timer t).type callback (system.timer t).param now]
  | silent {now : Nat} {t : TimerId} :
      system.pc = .scanning now (some t) → (system.timer t).callback = none →
      DaemonStep system
        ((timerExpired system now t).setPc (.scanning now (system.timer t).next)) []
  | skip {now : Nat} {t : TimerId} :
      system.pc = .scanning now (some t) →
      ¬((system.timer t).active = true ∧ (system.timer t).expiryTick ≤ now) →
      DaemonStep system (system.setPc (.scanning now (system.timer t).next)) []
  | callbackDone {now : Nat} {t : TimerId} {nextTimer : Option TimerId} :
      system.pc = .inCallback now t nextTimer →
      DaemonStep system ((timerExpired system now t).setPc (.scanning now nextTimer)) []
  | passDone {now : Nat} : system.pc = .scanning now none →
      DaemonStep system (system.setPc .delaying) []
  | awake : system.pc = .delaying → DaemonStep system (system.setPc .commands) []

theorem timerDaemon_cases {fuel : Nat} {system after : TimerSystem} {events : List TimerEvent}
    (stepped : timerDaemon fuel system = some (after, events)) :
    DaemonStep system after events := by
  unfold timerDaemon at stepped
  split at stepped
  case h_1 atCommands =>
    cases isHead : system.cmdQueueHead with
    | none =>
        have dequeued : timerDequeueCmd system = (none, system) := by
          rw [timerDequeueCmd, isHead]
        rw [dequeued] at stepped
        obtain ⟨rfl, rfl⟩ := Prod.mk.inj (Option.some.inj stepped)
        exact .noCommand atCommands isHead
    | some cmd =>
        have dequeued : timerDequeueCmd system = (some cmd, (timerDequeueCmd system).2) := by
          rw [timerDequeueCmd, isHead]
        have content : ((timerDequeueCmd system).2.cmd cmd).toTimerRequest =
            (system.cmd cmd).toTimerRequest := by
          rw [timerDequeueCmd, isHead]
          dsimp only
          rw [Function.update_self]
        have sameTick : (timerDequeueCmd system).2.tickCount = system.tickCount := by
          rw [timerDequeueCmd, isHead]
        rw [dequeued] at stepped
        dsimp only at stepped
        rw [content, sameTick] at stepped
        split at stepped
        · rename_i noTimer
          obtain ⟨rfl, rfl⟩ := Prod.mk.inj (Option.some.inj stepped)
          exact .command atCommands isHead (.inl ⟨noTimer, rfl⟩)
        · rename_i t isTimer
          obtain ⟨next, carriedOut, finished⟩ := Option.map_eq_some_iff.mp stepped
          obtain ⟨rfl, rfl⟩ := Prod.mk.inj finished
          exact .command atCommands isHead (.inr ⟨t, fuel, isTimer, carriedOut⟩)
  case h_2 now t scanning =>
    dsimp only at stepped
    split at stepped
    case isTrue due =>
      split at stepped
      · rename_i callback isCallback
        obtain ⟨rfl, rfl⟩ := Prod.mk.inj (Option.some.inj stepped)
        exact .invoke scanning due.1 due.2 isCallback
      · rename_i noCallback
        obtain ⟨rfl, rfl⟩ := Prod.mk.inj (Option.some.inj stepped)
        exact .silent scanning noCallback
    case isFalse notDue =>
      obtain ⟨rfl, rfl⟩ := Prod.mk.inj (Option.some.inj stepped)
      exact .skip scanning notDue
  case h_3 inCallback =>
    obtain ⟨rfl, rfl⟩ := Prod.mk.inj (Option.some.inj stepped)
    exact .callbackDone inCallback
  case h_4 finished =>
    obtain ⟨rfl, rfl⟩ := Prod.mk.inj (Option.some.inj stepped)
    exact .passDone finished
  case h_5 delaying =>
    obtain ⟨rfl, rfl⟩ := Prod.mk.inj (Option.some.inj stepped)
    exact .awake delaying

/-- A step that leaves the commands and their queue alone. -/
structure SameCommands (before after : TimerSystem) : Prop where
  cmd : after.cmd = before.cmd
  live : after.liveCmds = before.liveCmds
  head : after.cmdQueueHead = before.cmdQueueHead
  tail : after.cmdQueueTail = before.cmdQueueTail

theorem SameCommands.refl (system : TimerSystem) : SameCommands system system :=
  ⟨rfl, rfl, rfl, rfl⟩

/-- The fields of a timer that decide when it is called back. -/
structure SameDue (before after : SwTimer) : Prop where
  active : after.active = before.active
  type : after.type = before.type
  expiryTick : after.expiryTick = before.expiryTick
  callback : after.callback = before.callback

theorem SameDue.trans {first second third : SwTimer} (left : SameDue first second)
    (right : SameDue second third) : SameDue first third :=
  ⟨right.active.trans left.active, right.type.trans left.type,
    right.expiryTick.trans left.expiryTick, right.callback.trans left.callback⟩

section Kept

variable {system after : TimerSystem} {fuel : Nat} {t : TimerId}

theorem unlinkTimer_cases (unlinked : unlinkTimer fuel system t = some after) :
    SameCommands system after ∧ after.pc = system.pc ∧ after.tickCount = system.tickCount ∧
      ∀ other, SameDue (system.timer other) (after.timer other) := by
  unfold unlinkTimer at unlinked
  split at unlinked
  · simp at unlinked
  · obtain rfl := Option.some.inj unlinked
    exact ⟨.refl _, rfl, rfl, fun _ => ⟨rfl, rfl, rfl, rfl⟩⟩
  · obtain rfl := Option.some.inj unlinked
    exact ⟨⟨rfl, rfl, rfl, rfl⟩, rfl, rfl, fun _ => ⟨rfl, rfl, rfl, rfl⟩⟩
  · rename_i previous _
    obtain rfl := Option.some.inj unlinked
    refine ⟨⟨rfl, rfl, rfl, rfl⟩, rfl, rfl, fun other => ?_⟩
    rw [TimerSystem.modifyTimer]
    dsimp only
    by_cases same : other = previous
    · rw [same, Function.update_self]
      exact ⟨rfl, rfl, rfl, rfl⟩
    · rw [Function.update_of_ne same]
      exact ⟨rfl, rfl, rfl, rfl⟩

theorem timerProcessCommand_kept {period : Nat} {type : TimerCmdType}
    (processed : timerProcessCommand fuel system t period type = some after) :
    SameCommands system after ∧ after.pc = system.pc ∧ after.tickCount = system.tickCount := by
  unfold timerProcessCommand at processed
  split at processed
  case h_5 =>
    obtain ⟨unlinked, isUnlinked, rfl⟩ := Option.map_eq_some_iff.mp processed
    obtain ⟨commands, pc, tickCount, _⟩ := unlinkTimer_cases isUnlinked
    exact ⟨⟨commands.cmd, commands.live, commands.head, commands.tail⟩, pc, tickCount⟩
  all_goals
    obtain rfl := Option.some.inj processed
    exact ⟨⟨rfl, rfl, rfl, rfl⟩, rfl, rfl⟩

theorem timerDequeueCmd_kept : (timerDequeueCmd system).2.pc = system.pc ∧
    (timerDequeueCmd system).2.tickCount = system.tickCount := by
  rw [timerDequeueCmd]
  split <;> exact ⟨rfl, rfl⟩

theorem CarriedOut.kept {cmd : CmdId} (carriedOut : CarriedOut system cmd after) :
    after.pc = system.pc ∧ after.tickCount = system.tickCount := by
  have dequeued : (timerDequeueCmd system).2.pc = system.pc ∧ _ := timerDequeueCmd_kept
  rcases carriedOut with ⟨_, rfl⟩ | ⟨t, fuel, _, processed⟩
  · exact dequeued
  · obtain ⟨_, pc, tickCount⟩ := timerProcessCommand_kept processed
    exact ⟨pc.trans dequeued.1, tickCount.trans dequeued.2⟩

theorem sameDue_modifyTimer {other : TimerId} (change : SwTimer → SwTimer) (differs : other ≠ t) :
    SameDue (system.timer other) ((system.modifyTimer t change).timer other) := by
  rw [TimerSystem.modifyTimer]
  dsimp only
  rw [Function.update_of_ne differs]
  exact ⟨rfl, rfl, rfl, rfl⟩

theorem sameDue_dequeue (other : TimerId) :
    SameDue (system.timer other) ((timerDequeueCmd system).2.timer other) := by
  rw [timerDequeueCmd]
  split <;> exact ⟨rfl, rfl, rfl, rfl⟩

/-- A command only concerns its own timer. -/
theorem timerProcessCommand_other {period : Nat} {type : TimerCmdType} {other : TimerId}
    (processed : timerProcessCommand fuel system t period type = some after)
    (differs : other ≠ t) : SameDue (system.timer other) (after.timer other) := by
  unfold timerProcessCommand at processed
  split at processed
  case h_5 =>
    obtain ⟨unlinked, isUnlinked, rfl⟩ := Option.map_eq_some_iff.mp processed
    have stopped : SameDue (system.timer other)
        ((system.modifyTimer t fun timer => { timer with active := false }).timer other) :=
      sameDue_modifyTimer _ differs
    exact stopped.trans ((unlinkTimer_cases isUnlinked).2.2.2 other)
  all_goals
    obtain rfl := Option.some.inj processed
    exact sameDue_modifyTimer _ differs

/-- A timer is active after a command if the command starts it, or if it was active and
the command gives it a new period. -/
theorem timerProcessCommand_active {period : Nat} {type : TimerCmdType}
    (processed : timerProcessCommand fuel system t period type = some after)
    (active : (after.timer t).active = true) :
    (after.timer t).expiryTick = (system.tickCount + period) % uint32Size ∧
      (type = .start ∨ type = .reset ∨
        type = .changePeriod ∧ (system.timer t).active = true) := by
  unfold timerProcessCommand at processed
  split at processed
  case h_5 =>
    obtain ⟨unlinked, isUnlinked, rfl⟩ := Option.map_eq_some_iff.mp processed
    have same := ((unlinkTimer_cases isUnlinked).2.2.2 t).active
    rw [show (unlinked.timer t).active = true from active, TimerSystem.modifyTimer] at same
    simp at same
  all_goals
    obtain rfl := Option.some.inj processed
    rw [TimerSystem.modifyTimer] at active ⊢
    dsimp only at active ⊢
    rw [Function.update_self] at active ⊢
  case h_1 => exact ⟨rfl, .inl rfl⟩
  case h_2 => exact ⟨rfl, .inr (.inl rfl)⟩
  case h_3 => simp at active
  case h_4 => exact ⟨if_pos active, .inr (.inr ⟨rfl, active⟩)⟩

/-- No command changes the type or the callback of a timer. -/
theorem timerProcessCommand_type {period : Nat} {type : TimerCmdType}
    (processed : timerProcessCommand fuel system t period type = some after) (other : TimerId) :
    (after.timer other).type = (system.timer other).type ∧
      (after.timer other).callback = (system.timer other).callback := by
  by_cases isTimer : other = t
  · subst isTimer
    unfold timerProcessCommand at processed
    split at processed
    case h_5 =>
      obtain ⟨unlinked, isUnlinked, rfl⟩ := Option.map_eq_some_iff.mp processed
      have same := (unlinkTimer_cases isUnlinked).2.2.2 other
      have type := same.type
      have callback := same.callback
      rw [TimerSystem.modifyTimer] at type callback
      dsimp only at type callback
      rw [Function.update_self] at type callback
      exact ⟨type, callback⟩
    all_goals
      obtain rfl := Option.some.inj processed
      rw [TimerSystem.modifyTimer]
      dsimp only
      rw [Function.update_self]
      exact ⟨rfl, rfl⟩
  · have same := timerProcessCommand_other processed isTimer
    exact ⟨same.type, same.callback⟩

end Kept

theorem DaemonStep.tickCount {system after : TimerSystem} {events : List TimerEvent}
    (step : DaemonStep system after events) : after.tickCount = system.tickCount := by
  cases step with
  | command _ _ carriedOut => exact carriedOut.kept.2
  | _ => rfl

/-- The requests that have been sent, newest first. -/
def sentRequests (trace : List TimerEvent) : List TimerRequest :=
  trace.filterMap fun
    | .enqueued request => some request
    | _ => none

/-- The requests that the daemon has carried out, newest first. -/
def processedRequests (trace : List TimerEvent) : List TimerRequest :=
  trace.filterMap fun
    | .processed request _ => some request
    | _ => none

/-- The queue holds the commands that are still to be carried out, oldest first. -/
structure PendingCmds (cmds : List CmdId) (system : TimerSystem) (trace : List TimerEvent) :
    Prop where
  path : Path (fun cmd => (system.cmd cmd).next) system.cmdQueueHead cmds
  tail : system.cmdQueueTail = cmds.getLast?
  live : ∀ cmd ∈ cmds, cmd ∈ system.liveCmds
  sent : sentRequests trace =
    (cmds.map fun cmd => (system.cmd cmd).toTimerRequest).reverse ++ processedRequests trace

namespace PendingCmds

variable {cmds : List CmdId} {system after : TimerSystem} {trace : List TimerEvent}

theorem of_same (pending : PendingCmds cmds system trace) (same : SameCommands system after) :
    PendingCmds cmds after trace where
  path := by
    rw [same.cmd, same.head]
    exact pending.path
  tail := same.tail.trans pending.tail
  live cmd onQueue := by
    rw [same.live]
    exact pending.live cmd onQueue
  sent := by
    rw [same.cmd]
    exact pending.sent

/-- A new command goes to the end of the queue. -/
theorem send (pending : PendingCmds cmds system trace) {cmd : CmdId}
    (fresh : cmd ∉ system.liveCmds) (t : TimerId) (type : TimerCmdType) (period : Nat) :
    PendingCmds (cmds ++ [cmd]) (timerSend system (some cmd) (some t) type period).2.1
      ((timerSend system (some cmd) (some t) type period).2.2 ++ trace) := by
  have outside : cmd ∉ cmds := fun onQueue => fresh (pending.live cmd onQueue)
  have contents : ∀ (nodes : CmdId → TimerCmd), (∀ other ∈ cmds,
      (nodes other).toTimerRequest = (system.cmd other).toTimerRequest) →
      (nodes cmd).toTimerRequest = ⟨type, some t, period⟩ →
      sentRequests (.enqueued ⟨type, some t, period⟩ :: trace) =
        ((cmds ++ [cmd]).map fun other => (nodes other).toTimerRequest).reverse ++
          processedRequests (.enqueued ⟨type, some t, period⟩ :: trace) := by
    intro nodes sameOthers isRequest
    change ⟨type, some t, period⟩ :: sentRequests trace = _ ++ processedRequests trace
    rw [List.map_append, List.map_congr_left sameOthers, pending.sent]
    simp [isRequest]
  have liveAfter : ∀ other ∈ cmds ++ [cmd], other ∈ insert cmd system.liveCmds := by
    intro other onQueue
    rcases List.mem_append.mp onQueue with before | isCmd
    · exact Finset.mem_insert_of_mem (pending.live other before)
    · simp [List.mem_singleton.mp isCmd]
  rw [timerSend, timerEnqueueCmd]
  dsimp only
  cases isTail : system.cmdQueueTail with
  | none =>
      have isEmpty : cmds = [] := by
        rw [← List.getLast?_eq_none_iff, ← pending.tail, isTail]
      subst isEmpty
      refine ⟨?_, rfl, liveAfter, contents _ (by simp) (by simp)⟩
      refine .node ?_
      simp only [Function.update_self]
      exact .null
  | some last =>
      obtain ⟨front, rfl⟩ := List.getLast?_eq_some_iff.mp (pending.tail.symm.trans isTail)
      have differs : cmd ≠ last := fun same => outside (by simp [same])
      refine ⟨?_, by simp, liveAfter, contents _ (fun other onQueue => ?_) ?_⟩
      · have appended := pending.path.appendLast outside
        rw [List.append_assoc]
        refine Eq.mp (congrArg (fun link => Path link _ _) ?_) appended
        ext other
        by_cases isLast : other = last
        · simp [isLast]
        · by_cases isCmd : other = cmd
          · simp [isCmd, differs]
          · simp [isLast, isCmd]
      · have notCmd : other ≠ cmd := fun same => outside (same ▸ onQueue)
        by_cases isLast : other = last
        · simp [isLast, differs.symm]
        · simp [isLast, notCmd]
      · simp [differs]

/-- The daemon takes the first command of the queue. -/
theorem dequeue {cmd : CmdId} {rest : List CmdId}
    (pending : PendingCmds (cmd :: rest) system trace) (tick : Nat)
    (same : SameCommands (timerDequeueCmd system).2 after) :
    PendingCmds rest (timerCmdFree after cmd)
      (.processed (system.cmd cmd).toTimerRequest tick :: trace) := by
  have distinct := List.nodup_cons.mp pending.path.nodup
  obtain ⟨isHead, behind⟩ := pending.path.tail
  have dequeued : (timerDequeueCmd system).2 =
      { system with
        cmdQueueHead := (system.cmd cmd).next
        cmdQueueTail := if (system.cmd cmd).next = none then none else system.cmdQueueTail
        cmd := Function.update system.cmd cmd { system.cmd cmd with next := none } } := by
    rw [timerDequeueCmd, isHead]
  rw [dequeued] at same
  have links : (fun other => (after.cmd other).next) =
      Function.update (fun other => (system.cmd other).next) cmd none := by
    ext other
    rw [same.cmd]
    by_cases isCmd : other = cmd
    · simp [isCmd]
    · simp [isCmd]
  have contents : ∀ other ∈ rest, after.cmd other = system.cmd other := by
    intro other onQueue
    have differs : other ≠ cmd := fun isCmd => distinct.1 (isCmd ▸ onQueue)
    rw [same.cmd]
    exact Function.update_of_ne differs _ _
  refine ⟨?_, ?_, ?_, ?_⟩
  · change Path (fun other => (after.cmd other).next) after.cmdQueueHead rest
    rw [links, same.head]
    exact behind.update_of_not_mem distinct.1 none
  · change after.cmdQueueTail = rest.getLast?
    rw [same.tail]
    dsimp only
    cases rest with
    | nil => rw [if_pos behind.eq_none, List.getLast?_nil]
    | cons second rest =>
        rw [behind.tail.1, if_neg (by simp), pending.tail, List.getLast?_cons_cons]
  · intro other onQueue
    have differs : other ≠ cmd := fun isCmd => distinct.1 (isCmd ▸ onQueue)
    have alive := pending.live other (List.mem_cons_of_mem _ onQueue)
    change other ∈ after.liveCmds.erase cmd
    rw [same.live]
    exact Finset.mem_erase.mpr ⟨differs, alive⟩
  · have sent := pending.sent
    change sentRequests trace = (rest.map fun other => (after.cmd other).toTimerRequest).reverse ++
      ((system.cmd cmd).toTimerRequest :: processedRequests trace)
    rw [List.map_congr_left fun other onQueue => by rw [contents other onQueue], sent]
    simp

end PendingCmds

theorem timerSend_cases (system : TimerSystem) (allocated : Option CmdId) (t : Option TimerId)
    (type : TimerCmdType) (period : Nat) :
    (timerSend system allocated t type period).2 = (system, []) ∨
      ∃ cmd timer, allocated = some cmd ∧ t = some timer := by
  cases t with
  | none => exact .inl rfl
  | some timer =>
      cases allocated with
      | none => exact .inl rfl
      | some cmd => exact .inr ⟨cmd, timer, rfl, rfl⟩

/-- A call does nothing, or it sends a command. -/
theorem timerCall_cases (system : TimerSystem) (allocated : Option CmdId) (call : TimerCall) :
    timerCall system allocated call = (system, []) ∨ ∃ cmd t type period,
      allocated = some cmd ∧
        timerCall system allocated call = (timerSend system (some cmd) (some t) type period).2 := by
  have sends : ∀ t type period,
      timerCall system allocated call = (timerSend system allocated t type period).2 →
      timerCall system allocated call = (system, []) ∨ ∃ cmd t type period,
        allocated = some cmd ∧ timerCall system allocated call =
          (timerSend system (some cmd) (some t) type period).2 := by
    intro t type period isSend
    rcases timerSend_cases system allocated t type period with nothing | ⟨cmd, timer, rfl, rfl⟩
    · exact .inl (isSend.trans nothing)
    · exact .inr ⟨cmd, timer, type, period, rfl, isSend⟩
  cases call with
  | start t delayTicks => exact sends t _ _ rfl
  | stop t => exact sends t _ _ rfl
  | reset t delayTicks => exact sends t _ _ rfl
  | changePeriod t newPeriodTicks =>
      by_cases isZero : newPeriodTicks = 0
      · refine .inl ?_
        rw [timerCall, timerChangePeriod, if_pos isZero]
      · apply sends t .changePeriod newPeriodTicks
        rw [timerCall, timerChangePeriod, if_neg isZero]
  | delete t => exact sends t _ _ rfl

/-- A step that leaves the timers and the daemon alone. -/
structure SameTimers (before after : TimerSystem) : Prop where
  timer : after.timer = before.timer
  list : after.timerList = before.timerList
  pc : after.pc = before.pc
  tickCount : after.tickCount = before.tickCount

theorem timerCall_sameTimers (system : TimerSystem) (allocated : Option CmdId)
    (call : TimerCall) : SameTimers system (timerCall system allocated call).1 ∧
      ((timerCall system allocated call).2 = [] ∨
        ∃ request, (timerCall system allocated call).2 = [.enqueued request]) := by
  rcases timerCall_cases system allocated call with nothing |
    ⟨cmd, t, type, period, rfl, isSend⟩
  · rw [nothing]
    exact ⟨⟨rfl, rfl, rfl, rfl⟩, .inl rfl⟩
  · rw [isSend, timerSend, timerEnqueueCmd]
    dsimp only
    refine ⟨?_, .inr ⟨_, rfl⟩⟩
    split <;> exact ⟨rfl, rfl, rfl, rfl⟩

/-- `malloc_rtos` returns memory that is not in use. -/
def FreshMemory (system : TimerSystem) : TimerAction → Prop
  | .call (some cmd) _ => cmd ∉ system.liveCmds
  | .create (some t) .. => t ∉ system.liveTimers
  | _ => True

def freshMemoryGuard (system : TimerSystem) : TimerAction → Bool
  | .call (some cmd) _ => cmd ∉ system.liveCmds
  | .create (some t) .. => t ∉ system.liveTimers
  | _ => true

theorem freshMemory_of_guard (system : TimerSystem) (action : TimerAction)
    (guarded : freshMemoryGuard system action = true) : FreshMemory system action := by
  unfold freshMemoryGuard at guarded
  unfold FreshMemory
  split
  · exact of_decide_eq_true guarded
  · exact of_decide_eq_true guarded
  · trivial

namespace PendingCmds

variable {cmds : List CmdId} {system after : TimerSystem} {trace events : List TimerEvent}

theorem daemon (pending : PendingCmds cmds system trace) (step : DaemonStep system after events) :
    ∃ rest, PendingCmds rest after (events ++ trace) := by
  cases step with
  | @command cmd after _ isHead carriedOut =>
      have path := pending.path
      rw [isHead] at path
      cases cmds with
      | nil => exact absurd path.eq_none (Option.some_ne_none cmd)
      | cons first rest =>
          obtain rfl : cmd = first := Option.some.inj path.tail.1
          refine ⟨rest, pending.dequeue _ ?_⟩
          rcases carriedOut with ⟨_, rfl⟩ | ⟨t, fuel, _, processed⟩
          · exact .refl _
          · exact (timerProcessCommand_kept processed).1
  | noCommand => exact ⟨cmds, pending.of_same ⟨rfl, rfl, rfl, rfl⟩⟩
  | invoke =>
      have same : PendingCmds cmds _ trace := pending.of_same ⟨rfl, rfl, rfl, rfl⟩
      exact ⟨cmds, same.path, same.tail, same.live, same.sent⟩
  | silent => exact ⟨cmds, pending.of_same ⟨rfl, rfl, rfl, rfl⟩⟩
  | skip => exact ⟨cmds, pending.of_same ⟨rfl, rfl, rfl, rfl⟩⟩
  | callbackDone => exact ⟨cmds, pending.of_same ⟨rfl, rfl, rfl, rfl⟩⟩
  | passDone => exact ⟨cmds, pending.of_same ⟨rfl, rfl, rfl, rfl⟩⟩
  | awake => exact ⟨cmds, pending.of_same ⟨rfl, rfl, rfl, rfl⟩⟩

theorem sameCommands_create (allocated : Option TimerId) (callback : Option TimerCallback)
    (param : Pointer) (periodTicks : Nat) (type : TimerType) :
    SameCommands system (timerCreate system allocated callback param periodTicks type).2 := by
  unfold timerCreate
  split
  · exact .refl _
  · exact .refl _
  · split
    · exact .refl _
    · exact ⟨rfl, rfl, rfl, rfl⟩

theorem exec (pending : PendingCmds cmds system trace) {fuel : Nat} {action : TimerAction}
    (fresh : FreshMemory system action)
    (executed : execTimer fuel system action = some (after, events)) :
    ∃ rest, PendingCmds rest after (events ++ trace) := by
  cases action with
  | create allocated callback param periodTicks type =>
      obtain ⟨rfl, rfl⟩ := Prod.mk.inj (Option.some.inj executed)
      exact ⟨cmds, pending.of_same (sameCommands_create ..)⟩
  | call allocated call =>
      have same : timerCall system allocated call = (after, events) := Option.some.inj executed
      rcases timerCall_cases system allocated call with nothing |
        ⟨cmd, t, type, period, rfl, isSend⟩
      · obtain ⟨rfl, rfl⟩ := Prod.mk.inj (nothing.symm.trans same)
        exact ⟨cmds, pending⟩
      · have sent := pending.send fresh t type period
        rw [← isSend, same] at sent
        exact ⟨_, sent⟩
  | daemon => exact pending.daemon (timerDaemon_cases executed)
  | tick =>
      obtain ⟨rfl, rfl⟩ := Prod.mk.inj (Option.some.inj executed)
      exact ⟨cmds, pending.of_same ⟨rfl, rfl, rfl, rfl⟩⟩

end PendingCmds

/-- In every run the daemon has carried out the first of the requests, in the order in which
they were sent, and the others are on the queue. -/
theorem pendingCmds_of_reachable {initial : TimerSystem} (fresh : initial.Initial)
    {current : GuardedRun.Traced TimerSystem TimerEvent}
    (run : Reachable execTimer FreshMemory initial current) :
    ∃ cmds, PendingCmds cmds current.state current.trace := by
  apply run.invariant (fun current => ∃ cmds, PendingCmds cmds current.state current.trace)
  · refine ⟨[], ?_, fresh.noLast, by simp, rfl⟩
    rw [fresh.noCommands]
    exact .null
  · rintro fuel before action after events ⟨cmds, pending⟩ allowed executed
    exact pending.exec allowed executed

/-- The timers after `timer_daemon_init`, at a tick count. -/
def startedTimers (tickCount : Nat) : TimerSystem where
  tickCount := tickCount
  timer := fun _ => {}
  liveTimers := ∅
  timerList := none
  nextTimerId := 1
  cmd := fun _ => ⟨⟨.stop, none, 0⟩, none⟩
  liveCmds := ∅
  cmdQueueHead := none
  cmdQueueTail := none
  timerDaemonInitialized := true
  pc := .commands

theorem startedTimers_initial {tickCount : Nat} (inRange : tickCount < uint32Size) :
    (startedTimers tickCount).Initial :=
  ⟨inRange, rfl, fun _ => rfl, rfl, rfl, rfl, rfl⟩

end Rtos

end MiniIotRobotEdge

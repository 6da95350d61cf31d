import MiniIotRobotEdge.PointerChain
import MiniIotRobotEdge.RtosTaskScheduler

/-!
# The software timers of mini-rtos

The model of `software_timer.c`.  The calls of the interface allocate a command and put
it at the end of a linked queue; the daemon takes the commands off, walks the list of
timers once, and sleeps.  A step of the daemon is one command or one timer, and every
other task, interrupt or tick comes in between.  While a callback runs, the daemon waits
in front of the timer it belongs to, so that the callback may make any calls itself.
-/

namespace MiniIotRobotEdge

namespace Rtos

open PointerChain

/-- The address of a `sw_timer_t`. -/
abbrev TimerId := Nat

/-- The address of a `timer_cmd_t`. -/
abbrev CmdId := Nat

/-- A `void *`. -/
abbrev Pointer := Nat

inductive TimerType
  | oneShot
  | autoReload
  deriving DecidableEq, Repr

/-- A `timer_callback_t`: a function of the program, or `timer_chain_callback`. -/
inductive TimerCallback
  | user (function : Nat)
  | timerChainCallback
  deriving DecidableEq, Repr

structure SwTimer where
  id : Nat := 0
  type : TimerType := .oneShot
  callback : Option TimerCallback := none
  param : Pointer := 0
  periodTicks : Nat := 0
  expiryTick : Nat := 0
  active : Bool := false
  next : Option TimerId := none
  deriving DecidableEq, Repr

inductive TimerCmdType
  | start
  | stop
  | reset
  | changePeriod
  | delete
  deriving DecidableEq, Repr

/-- What a command asks for. -/
structure TimerRequest where
  type : TimerCmdType
  timer : Option TimerId
  period : Nat
  deriving DecidableEq, Repr

structure TimerCmd extends TimerRequest where
  next : Option CmdId
  deriving DecidableEq, Repr

/-- Where the daemon is. -/
inductive DaemonPc
  /-- Before `timer_dequeue_cmd`. -/
  | commands
  /-- In `timer_process_expiry`, at the timer `t`. -/
  | scanning (now : Nat) (t : Option TimerId)
  /-- In the callback of a timer, with `next_timer` saved. -/
  | inCallback (now : Nat) (t : TimerId) (nextTimer : Option TimerId)
  /-- In `task_delay(1)`. -/
  | delaying
  deriving DecidableEq, Repr

inductive TimerEvent
  | enqueued (request : TimerRequest)
  /-- The daemon has carried out a command, at a tick count. -/
  | processed (request : TimerRequest) (tick : Nat)
  /-- The daemon has called back, in the pass of a tick count. -/
  | invoked (timer : TimerId) (type : TimerType) (callback : TimerCallback) (param : Pointer)
      (now : Nat)
  deriving DecidableEq, Repr

/-- The static variables, the tick count, and the allocated timers and commands. -/
structure TimerSystem where
  tickCount : Nat
  timer : TimerId → SwTimer
  liveTimers : Finset TimerId
  timerList : Option TimerId
  nextTimerId : Nat
  cmd : CmdId → TimerCmd
  liveCmds : Finset CmdId
  cmdQueueHead : Option CmdId
  cmdQueueTail : Option CmdId
  timerDaemonInitialized : Bool
  pc : DaemonPc

namespace TimerSystem

def modifyTimer (system : TimerSystem) (t : TimerId) (change : SwTimer → SwTimer) :
    TimerSystem :=
  { system with timer := Function.update system.timer t (change (system.timer t)) }

def setPc (system : TimerSystem) (pc : DaemonPc) : TimerSystem := { system with pc := pc }

/-- The `next` links of the timers. -/
def link (system : TimerSystem) (t : TimerId) : Option TimerId := (system.timer t).next

end TimerSystem

/-- `timer_create` for the memory that `malloc_rtos` gives it. -/
def timerCreate (system : TimerSystem) (allocated : Option TimerId)
    (callback : Option TimerCallback) (param : Pointer) (periodTicks : Nat) (type : TimerType) :
    Option TimerId × TimerSystem :=
  match callback, allocated with
  | none, _ | _, none => (none, system)
  | some cb, some t =>
      if periodTicks = 0 ∨ system.timerDaemonInitialized = false then (none, system)
      else
        (some t,
          { system with
            timer := Function.update system.timer t
              { id := system.nextTimerId
                type := type
                callback := some cb
                param := param
                periodTicks := periodTicks
                expiryTick := 0
                active := false
                next := system.timerList }
            liveTimers := insert t system.liveTimers
            timerList := some t
            nextTimerId := (system.nextTimerId + 1) % uint32Size })

def timerEnqueueCmd (system : TimerSystem) (cmd : CmdId) : TimerSystem :=
  let nodes := Function.update system.cmd cmd { system.cmd cmd with next := none }
  match system.cmdQueueTail with
  | some tail =>
      { system with
        cmd := Function.update nodes tail { nodes tail with next := some cmd }
        cmdQueueTail := some cmd }
  | none =>
      { system with cmd := nodes, cmdQueueHead := some cmd, cmdQueueTail := some cmd }

def timerDequeueCmd (system : TimerSystem) : Option CmdId × TimerSystem :=
  match system.cmdQueueHead with
  | none => (none, system)
  | some cmd =>
      let head := (system.cmd cmd).next
      (some cmd,
        { system with
          cmdQueueHead := head
          cmdQueueTail := if head = none then none else system.cmdQueueTail
          cmd := Function.update system.cmd cmd { system.cmd cmd with next := none } })

def timerCmdFree (system : TimerSystem) (cmd : CmdId) : TimerSystem :=
  { system with liveCmds := system.liveCmds.erase cmd }

/-- The common part of the calls that send a command, with their result. -/
def timerSend (system : TimerSystem) (allocated : Option CmdId) (timer : Option TimerId)
    (type : TimerCmdType) (period : Nat) : Int × TimerSystem × List TimerEvent :=
  match timer, allocated with
  | none, _ | _, none => (-1, system, [])
  | some t, some cmd =>
      let request : TimerRequest := { type := type, timer := some t, period := period }
      let system := { system with
        cmd := Function.update system.cmd cmd { toTimerRequest := request, next := none }
        liveCmds := insert cmd system.liveCmds }
      (1, timerEnqueueCmd system cmd, [.enqueued request])

def timerStart (system : TimerSystem) (allocated : Option CmdId) (t : Option TimerId)
    (delayTicks : Nat) : Int × TimerSystem × List TimerEvent :=
  timerSend system allocated t .start delayTicks

def timerStop (system : TimerSystem) (allocated : Option CmdId) (t : Option TimerId) :
    Int × TimerSystem × List TimerEvent :=
  timerSend system allocated t .stop 0

def timerReset (system : TimerSystem) (allocated : Option CmdId) (t : Option TimerId)
    (delayTicks : Nat) : Int × TimerSystem × List TimerEvent :=
  timerSend system allocated t .reset delayTicks

def timerChangePeriod (system : TimerSystem) (allocated : Option CmdId) (t : Option TimerId)
    (newPeriodTicks : Nat) : Int × TimerSystem × List TimerEvent :=
  if newPeriodTicks = 0 then (-1, system, [])
  else timerSend system allocated t .changePeriod newPeriodTicks

/-- `timer_delete`, which returns nothing. -/
def timerDelete (system : TimerSystem) (allocated : Option CmdId) (t : Option TimerId) :
    TimerSystem × List TimerEvent :=
  (timerSend system allocated t .delete 0).2

/-- Take a timer out of `timer_list`. -/
def unlinkTimer (fuel : Nat) (system : TimerSystem) (t : TimerId) : Option TimerSystem :=
  match search system.link t fuel none system.timerList with
  | none => none
  | some none => some system
  | some (some none) => some { system with timerList := system.link t }
  | some (some (some previous)) =>
      some (system.modifyTimer previous fun timer => { timer with next := system.link t })

/-- One turn of the loop of `timer_process_commands`, for a command with a timer. -/
def timerProcessCommand (fuel : Nat) (system : TimerSystem) (t : TimerId) (period : Nat) :
    TimerCmdType → Option TimerSystem
  | .start | .reset =>
      some (system.modifyTimer t fun timer =>
        { timer with active := true, expiryTick := (system.tickCount + period) % uint32Size })
  | .stop =>
      some (system.modifyTimer t fun timer => { timer with active := false, expiryTick := 0 })
  | .changePeriod =>
      some (system.modifyTimer t fun timer =>
        { timer with
          periodTicks := period
          expiryTick :=
            if timer.active then (system.tickCount + period) % uint32Size
            else timer.expiryTick })
  | .delete =>
      let system := system.modifyTimer t fun timer => { timer with active := false }
      (unlinkTimer fuel system t).map fun system =>
        { system with liveTimers := system.liveTimers.erase t }

/-- What `timer_process_expiry` does with a timer after its callback. -/
def timerExpired (system : TimerSystem) (now : Nat) (t : TimerId) : TimerSystem :=
  system.modifyTimer t fun timer =>
    if timer.type = .autoReload then
      { timer with expiryTick := (now + timer.periodTicks) % uint32Size }
    else { timer with active := false, expiryTick := 0 }

/-- The next step of `timer_daemon`. -/
def timerDaemon (fuel : Nat) (system : TimerSystem) :
    Option (TimerSystem × List TimerEvent) :=
  match system.pc with
  | .commands =>
      match timerDequeueCmd system with
      | (none, system) =>
          some (system.setPc (.scanning system.tickCount system.timerList), [])
      | (some cmd, system) =>
          let request := (system.cmd cmd).toTimerRequest
          match request.timer with
          | none => some (timerCmdFree system cmd, [.processed request system.tickCount])
          | some t =>
              (timerProcessCommand fuel system t request.period request.type).map
                fun after => (timerCmdFree after cmd, [.processed request system.tickCount])
  | .scanning now (some t) =>
      let timer := system.timer t
      if timer.active = true ∧ timer.expiryTick ≤ now then
        match timer.callback with
        | some callback =>
            some (system.setPc (.inCallback now t timer.next),
              [.invoked t timer.type callback timer.param now])
        | none => some ((timerExpired system now t).setPc (.scanning now timer.next), [])
      else some (system.setPc (.scanning now timer.next), [])
  | .inCallback now t nextTimer =>
      some ((timerExpired system now t).setPc (.scanning now nextTimer), [])
  | .scanning _ none => some (system.setPc .delaying, [])
  | .delaying => some (system.setPc .commands, [])

inductive TimerCall
  | start (t : Option TimerId) (delayTicks : Nat)
  | stop (t : Option TimerId)
  | reset (t : Option TimerId) (delayTicks : Nat)
  | changePeriod (t : Option TimerId) (newPeriodTicks : Nat)
  | delete (t : Option TimerId)
  deriving DecidableEq, Repr

/-- A call for the memory that `malloc_rtos` gives it, also from a callback or an
interrupt. -/
def timerCall (system : TimerSystem) (allocated : Option CmdId) :
    TimerCall → TimerSystem × List TimerEvent
  | .start t delayTicks => (timerStart system allocated t delayTicks).2
  | .stop t => (timerStop system allocated t).2
  | .reset t delayTicks => (timerReset system allocated t delayTicks).2
  | .changePeriod t newPeriodTicks => (timerChangePeriod system allocated t newPeriodTicks).2
  | .delete t => timerDelete system allocated t

inductive TimerAction
  | create (allocated : Option TimerId) (callback : Option TimerCallback) (param : Pointer)
      (periodTicks : Nat) (type : TimerType)
  | call (allocated : Option CmdId) (call : TimerCall)
  | daemon
  | tick
  deriving DecidableEq, Repr

/-- One step of the system, with the events it causes. -/
def execTimer (fuel : Nat) (system : TimerSystem) :
    TimerAction → Option (TimerSystem × List TimerEvent)
  | .create allocated callback param periodTicks type =>
      some ((timerCreate system allocated callback param periodTicks type).2, [])
  | .call allocated call => some (timerCall system allocated call)
  | .daemon => timerDaemon fuel system
  | .tick => some ({ system with tickCount := (system.tickCount + 1) % uint32Size }, [])

/-- After `timer_daemon_init`: no timers, no commands, at an arbitrary tick count. -/
structure TimerSystem.Initial (system : TimerSystem) : Prop where
  inRange : system.tickCount < uint32Size
  noTimers : system.timerList = none
  inactive : ∀ t, (system.timer t).active = false
  noCommands : system.cmdQueueHead = none
  noLast : system.cmdQueueTail = none
  started : system.timerDaemonInitialized = true
  atCommands : system.pc = .commands

end Rtos

end MiniIotRobotEdge

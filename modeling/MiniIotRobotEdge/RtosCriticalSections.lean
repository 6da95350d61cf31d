import MiniIotRobotEdge.CriticalCode

/-!
# Critical sections of mini-rtos

The control flow of the queue, semaphore, mutex, read-write lock, event-group,
timer and trace functions.  A test or an action is named by what the source
tests or does there; what it means is left to the interpretation, so that all
paths are covered, also those that the other tasks open while a task sleeps.
Walks over a list that contain no critical section are one action each.
-/

namespace MiniIotRobotEdge

namespace Rtos

namespace Critical

open CriticalCode

/-- The conditions of the functions below. -/
inductive Test
  | argumentMissing
  | allocationFailed
  | bufferMissing
  | nameGiven
  | wokenGiven
  | ticksZero
  | timeoutZero
  | timeoutFinite
  | timeoutElapsed
  | taskLeft
  | sendersBlocked
  | receiversBlocked
  | queueFull
  | queueEmpty
  | registryHeadIsQueue
  | registryNotFound
  | registryFound
  | setUnavailable
  | setQueueLeft
  | setNotFound
  | setFound
  | setQueueReady
  | countZero
  | countBelowMax
  | tasksBlocked
  | mutexHeld
  | ownerIsSelf
  | stillRecursive
  | lockRefused
  | holderBlocked
  | wouldDeadlock
  | writerBlocksReader
  | lockBusy
  | noReaders
  | lastReaderWithWriter
  | writerInactive
  | noWriterBlocked
  | writersBlocked
  | readersBlocked
  | conditionMet
  | clearOnExit
  | clearAnyOnly
  | stateReady
  | always
  | daemonMissing
  | periodZero
  | timerInactive
  | expiryAhead
  | stepLeft
  | nodeLeft
  | timerMissing
  | chainLeft
  | nodeHasTimer
  | textGiven
  | bufferWrapped
  | eventLeft
  | totalPositive
  | user (number : Nat)

/-- The statements of the functions below that touch no critical section. -/
inductive Act
  | suspendCurrent
  | triggerPendsv
  | readTicks
  | allocate
  | release
  | initialise
  | copyName
  | readField
  | readyNext
  | setWoken
  | blockSender
  | blockReceiver
  | unlinkSender
  | unlinkReceiver
  | queueCopyIn
  | queueCopyOut
  | queuePeekCopy
  | unblockSender
  | unblockReceiver
  | resetIndices
  | registryPush
  | registryPop
  | registryAdvance
  | registryUnlink
  | registryCountDown
  | setAppend
  | setReplace
  | nextQueue
  | countDown
  | countUp
  | semaphoreBlockTask
  | semaphoreUnlink
  | semaphoreUnblockTask
  | takeOwnership
  | recursiveUp
  | recursiveDown
  | priorityInherit
  | priorityRestore
  | mutexBlockTask
  | mutexUnlink
  | releaseOwnership
  | handOver
  | nextHolder
  | readersUp
  | readersDown
  | blockReaderTask
  | unlinkReader
  | writerWaitingOn
  | writerWaitingOff
  | blockWriterTask
  | unlinkWriter
  | writerActiveOn
  | writerActiveOff
  | unblockOneWriter
  | unblockAllReaders
  | setBits
  | clearBits
  | unblockAllReady
  | clearAwaited
  | clearAwaitedSet
  | blockSelf
  | unlinkSelf
  | linkTimer
  | fillCommand
  | enqueueCommand
  | linkNode
  | setChainHead
  | nextNode
  | unlinkNode
  | writeEvent
  | copyText
  | clearText
  | advanceWriteIndex
  | countOverflow
  | clearTrace
  | copyEvent
  | readCounters
  | clearCounters
  | computeUsage
  | clearUsage
  | user (number : Nat)

abbrev Program := Code Test Act

/-- `if (test) return`. -/
def returnIf (test : Test) : Program := .cond test .ret .skip

/-- `if (test) action`. -/
def actIf (test : Test) (action : Act) : Program := .cond test (.act action) .skip

/-- Statements between `task_enter_critical` and `task_exit_critical`. -/
def guarded (statements : List Program) : Program :=
  .seq .enter (.seq (.block statements) .exit)

def taskDelay : Program :=
  .block [returnIf .ticksZero, guarded [.act .suspendCurrent], .act .triggerPendsv]

/-- `task_delay(1)` as it stands in the wait loops. -/
def delayOneTick : Program := .seq .sleep (.call taskDelay)

/-- The time-out of a wait: unlink the task and return. -/
def returnOnTimeout (unlink : Program) : Program :=
  .cond .timeoutFinite
    (.block [.act .readTicks, .cond .timeoutElapsed (.block [guarded [unlink], .ret]) .skip]) .skip

/-- The wait loop that the blocking functions share.  It is entered and left
inside of the critical section. -/
def waitWhile (busy : Test) (giveUp block unlink : Program) : Program :=
  .loop busy (.block
    [.cond .timeoutZero (.block [giveUp, .exit, .ret]) .skip, block, .exit, delayOneTick,
      returnOnTimeout unlink, .enter])

/-- A function that only reads. -/
def getter : Program := .block [returnIf .argumentMissing, .act .readField, .ret]

/-- A function that allocates and fills one object. -/
def creator : Program :=
  .block [.act .allocate, returnIf .allocationFailed, .act .initialise,
    actIf .nameGiven .copyName, .ret]

/-! ### Queues -/

def queueCreate : Program :=
  .block [returnIf .argumentMissing, .act .allocate, returnIf .allocationFailed,
    .act .initialise, .act .allocate,
    .cond .bufferMissing (.block [.act .release, .ret]) .skip, .act .initialise,
    actIf .nameGiven .copyName, .ret]

def queueRegistryRemove : Program :=
  .block [returnIf .argumentMissing,
    guarded [
      .cond .registryHeadIsQueue (.act .registryPop)
        (.block [.loop .registryNotFound (.act .registryAdvance),
          actIf .registryFound .registryUnlink]),
      .act .registryCountDown]]

def queueDelete : Program :=
  .block [returnIf .argumentMissing,
    guarded [.loop .taskLeft (.act .readyNext), .loop .taskLeft (.act .readyNext),
      .call queueRegistryRemove],
    .act .release, .act .release]

def queueSend : Program :=
  .block [.act .readTicks, returnIf .argumentMissing, .enter,
    waitWhile .queueFull .skip (.act .blockSender) (.act .unlinkSender),
    .act .queueCopyIn, actIf .receiversBlocked .unblockReceiver, .exit, .ret]

def queueReceive : Program :=
  .block [.act .readTicks, returnIf .argumentMissing, .enter,
    waitWhile .queueEmpty .skip (.act .blockReceiver) (.act .unlinkReceiver),
    .act .queueCopyOut, actIf .sendersBlocked .unblockSender, .exit, .ret]

def queueSendFromIsr : Program :=
  .block [returnIf .argumentMissing, returnIf .queueFull, .act .queueCopyIn,
    .cond .receiversBlocked (.block [.act .unblockReceiver, actIf .wokenGiven .setWoken]) .skip,
    .ret]

def queueReceiveFromIsr : Program :=
  .block [returnIf .argumentMissing, returnIf .queueEmpty, .act .queueCopyOut,
    .cond .sendersBlocked (.block [.act .unblockSender, actIf .wokenGiven .setWoken]) .skip,
    .ret]

def queueMessagesWaiting : Program := getter
def queueSpacesAvailable : Program := getter

def queueReset : Program :=
  .block [returnIf .argumentMissing, guarded [.act .resetIndices]]

def queueRegistryAdd : Program :=
  .block [returnIf .argumentMissing, guarded [.act .registryPush]]

def queueRegistryCount : Program := .block [.act .readField, .ret]

def queueSetCreate : Program :=
  .block [returnIf .argumentMissing, .act .allocate, returnIf .allocationFailed,
    .act .allocate, .cond .bufferMissing (.block [.act .release, .ret]) .skip,
    .act .initialise, .ret]

def queueSetAdd : Program :=
  .block [returnIf .setUnavailable, guarded [.act .setAppend]]

def queueSetRemove : Program :=
  .block [returnIf .argumentMissing,
    guarded [.loop .setNotFound (.act .nextQueue), actIf .setFound .setReplace]]

def queueSetSelect : Program :=
  .block [returnIf .argumentMissing,
    .loop .setQueueLeft (.block [returnIf .setQueueReady, .act .nextQueue]), .ret]

def queueSendPriority : Program := .block [.call queueSend, .ret]

def queuePeek : Program :=
  .block [returnIf .argumentMissing, .enter,
    .cond .queueEmpty (.block [.exit, .ret]) .skip, .act .queuePeekCopy, .exit, .ret]

def queueFlush : Program :=
  .block [returnIf .argumentMissing,
    guarded [.act .resetIndices, .loop .taskLeft (.act .readyNext)], .ret]

/-! ### Semaphores and mutexes -/

def semaphoreCreateCounting : Program := .seq (returnIf .argumentMissing) creator
def semaphoreCreateBinary : Program := .block [.call semaphoreCreateCounting, .ret]

/-- Make all blocked tasks ready and free the object. -/
def deleteWithTasks : Program :=
  .block [returnIf .argumentMissing, guarded [.loop .taskLeft (.act .readyNext)], .act .release]

def semaphoreDelete : Program := deleteWithTasks

def semaphoreTake : Program :=
  .block [.act .readTicks, returnIf .argumentMissing, .enter,
    waitWhile .countZero .skip (.act .semaphoreBlockTask) (.act .semaphoreUnlink),
    .act .countDown, .exit, .ret]

def semaphoreGive : Program :=
  .block [returnIf .argumentMissing,
    guarded [actIf .countBelowMax .countUp, actIf .tasksBlocked .semaphoreUnblockTask], .ret]

def semaphoreGiveFromIsr : Program :=
  .block [returnIf .argumentMissing, actIf .countBelowMax .countUp,
    .cond .tasksBlocked (.block [.act .semaphoreUnblockTask, actIf .wokenGiven .setWoken]) .skip,
    .ret]

def semaphoreGetCount : Program := getter

def mutexCreate : Program := creator
def mutexDelete : Program := deleteWithTasks

def mutexLock : Program :=
  .block [.act .readTicks, returnIf .argumentMissing, .enter,
    .cond .mutexHeld .skip (.block [.act .takeOwnership, .exit, .ret]),
    .cond .ownerIsSelf (.block [.act .recursiveUp, .exit, .ret]) .skip,
    waitWhile .mutexHeld .skip (.block [.act .priorityInherit, .act .mutexBlockTask])
      (.act .mutexUnlink),
    .act .takeOwnership, .exit, .ret]

def mutexUnlock : Program :=
  .block [returnIf .argumentMissing, .enter,
    .cond .ownerIsSelf .skip (.block [.exit, .ret]),
    .act .recursiveDown,
    .cond .stillRecursive (.block [.exit, .ret]) .skip,
    .act .priorityRestore, .act .releaseOwnership, actIf .tasksBlocked .handOver, .exit, .ret]

def mutexLockRecursive : Program := .block [.call mutexLock, .ret]
def mutexUnlockRecursive : Program := .block [.call mutexUnlock, .ret]
def mutexGetOwner : Program := getter

/-- `gatekeeper_call` with the function that it is given. -/
def gatekeeperCall (fn : Program) : Program :=
  .block [returnIf .argumentMissing, .call mutexLock, returnIf .lockRefused, .call fn,
    .call mutexUnlock, .ret]

def mutexDeadlockCheck : Program :=
  .block [returnIf .argumentMissing, returnIf .ownerIsSelf,
    .loop .holderBlocked (.block [returnIf .wouldDeadlock, returnIf .ownerIsSelf,
      .act .nextHolder]), .ret]

def mutexPriorityCeilingCheck : Program := .ret

/-! ### Read-write locks -/

def rwlockCreate : Program := creator
def rwlockDelete : Program :=
  .block [returnIf .argumentMissing,
    guarded [.loop .readersBlocked (.act .readyNext), .loop .writersBlocked (.act .readyNext)],
    .act .release]

def rwlockReadLock : Program :=
  .block [returnIf .argumentMissing, .act .readTicks, .enter,
    waitWhile .writerBlocksReader .skip (.act .blockReaderTask) (.act .unlinkReader),
    .act .readersUp, .exit, .ret]

def rwlockReadUnlock : Program :=
  .block [returnIf .noReaders,
    guarded [.act .readersDown, actIf .lastReaderWithWriter .unblockOneWriter], .ret]

def rwlockWriteLock : Program :=
  .block [returnIf .argumentMissing, .act .readTicks, .enter, .act .writerWaitingOn,
    waitWhile .lockBusy (actIf .noWriterBlocked .writerWaitingOff) (.act .blockWriterTask)
      (.block [.act .unlinkWriter, actIf .noWriterBlocked .writerWaitingOff]),
    .act .writerActiveOn, .act .writerWaitingOff, .exit, .ret]

def rwlockWriteUnlock : Program :=
  .block [returnIf .writerInactive,
    guarded [.act .writerActiveOff,
      .cond .writersBlocked (.act .unblockOneWriter)
        (actIf .readersBlocked .unblockAllReaders)], .ret]

def rwlockGetReaderCount : Program := getter
def rwlockIsWriteLocked : Program := getter
def rwlockReadTrylock : Program := .block [.call rwlockReadLock, .ret]
def rwlockWriteTrylock : Program := .block [.call rwlockWriteLock, .ret]

/-! ### Event groups -/

def eventGroupCreate : Program := creator
def eventGroupDelete : Program := deleteWithTasks

def eventGroupSetBits : Program :=
  .block [returnIf .argumentMissing,
    guarded [.act .setBits, actIf .tasksBlocked .unblockAllReady], .ret]

def eventGroupSetBitsFromIsr : Program :=
  .block [returnIf .argumentMissing, .act .setBits,
    .cond .tasksBlocked (.block [.act .unblockAllReady, actIf .wokenGiven .setWoken]) .skip,
    .ret]

def eventGroupClearBits : Program :=
  .block [returnIf .argumentMissing, guarded [.act .clearBits], .ret]

/-- Its wait loop stands outside of the critical section, unlike the others. -/
def eventGroupWaitBits : Program :=
  .block [returnIf .argumentMissing, .act .readTicks, .enter,
    .cond .conditionMet
      (.block [.act .readField,
        .cond .clearOnExit (.cond .clearAnyOnly (.act .clearAwaitedSet) (.act .clearAwaited)) .skip,
        .exit, .ret]) .skip,
    .act .blockSelf, .exit,
    .loop .always (.block [delayOneTick, returnOnTimeout (.act .unlinkSelf),
      .cond .stateReady (.block [guarded [.act .readField], .ret]) .skip])]

def eventGroupGetBits : Program := getter

def eventGroupSync : Program :=
  .block [returnIf .argumentMissing, .call eventGroupSetBits, .call eventGroupWaitBits, .ret]

/-! ### Timers -/

def timerCreate : Program :=
  .block [returnIf .argumentMissing, returnIf .daemonMissing, .act .allocate,
    returnIf .allocationFailed, .act .initialise, actIf .nameGiven .copyName,
    guarded [.act .linkTimer], .ret]

/-- A function that sends a command to the timer daemon. -/
def timerCommand (check : Test) : Program :=
  .block [returnIf check, .act .allocate, returnIf .allocationFailed, .act .fillCommand,
    guarded [.act .enqueueCommand], .ret]

def timerStart : Program := timerCommand .argumentMissing
def timerStop : Program := timerCommand .argumentMissing
def timerReset : Program := timerCommand .argumentMissing
def timerChangePeriod : Program := timerCommand .periodZero
def timerDelete : Program := timerCommand .argumentMissing

/-- A command that is sent from an interrupt. -/
def timerCommandFromIsr : Program :=
  .block [returnIf .argumentMissing, .act .allocate, returnIf .allocationFailed,
    .act .fillCommand, .act .enqueueCommand, actIf .wokenGiven .setWoken, .ret]

def timerStartFromIsr : Program := timerCommandFromIsr
def timerStopFromIsr : Program := timerCommandFromIsr
def timerResetFromIsr : Program := timerCommandFromIsr

def timerIsActive : Program := getter
def timerGetId : Program := getter

def timerGetRemaining : Program :=
  .block [returnIf .timerInactive, .act .readTicks,
    .cond .expiryAhead (.block [.act .readField, .ret]) .skip, .ret]

def timerChainCreate : Program :=
  .block [returnIf .argumentMissing,
    .loop .stepLeft (.block [.act .allocate, returnIf .allocationFailed, .act .linkNode]),
    .act .setChainHead,
    .loop .nodeLeft (.block [.call timerCreate,
      .cond .timerMissing
        (.block [.loop .chainLeft (.block [.act .unlinkNode,
            .cond .nodeHasTimer (.call timerDelete) .skip, .act .release]), .ret]) .skip,
      .act .nextNode]),
    .cond .nodeHasTimer (.call timerStart) .skip, .ret]

/-! ### Trace -/

def traceInit : Program := .act .clearTrace

def traceEvent : Program :=
  guarded [.act .writeEvent, .act .clearText, .act .advanceWriteIndex,
    actIf .bufferWrapped .countOverflow]

def traceEventText : Program :=
  guarded [.act .writeEvent, .cond .textGiven (.act .copyText) (.act .clearText),
    .act .advanceWriteIndex, actIf .bufferWrapped .countOverflow]

def traceEventCount : Program := .block [.act .readField, .ret]

def traceDump : Program :=
  .block [returnIf .argumentMissing,
    guarded [.act .readCounters, .loop .eventLeft (.act .copyEvent)], .ret]

def traceClear : Program := guarded [.act .clearTrace]

def cpuStatsGet : Program :=
  .block [guarded [.act .readCounters],
    .cond .totalPositive (.act .computeUsage) (.act .clearUsage), .ret]

def cpuStatsReset : Program := guarded [.act .clearCounters]

/-- The functions of the interface. -/
inductive Api
  | queueCreate | queueDelete | queueSend | queueReceive | queueSendFromIsr
  | queueReceiveFromIsr | queueMessagesWaiting | queueSpacesAvailable | queueReset
  | queueRegistryAdd | queueRegistryRemove | queueRegistryCount | queueSetCreate | queueSetAdd
  | queueSetRemove | queueSetSelect | queueSendPriority | queuePeek | queueFlush
  | semaphoreCreateBinary | semaphoreCreateCounting | semaphoreDelete | semaphoreTake
  | semaphoreGive | semaphoreGiveFromIsr | semaphoreGetCount
  | mutexCreate | mutexDelete | mutexLock | mutexUnlock | mutexLockRecursive
  | mutexUnlockRecursive | mutexGetOwner | gatekeeperCall | mutexDeadlockCheck
  | mutexPriorityCeilingCheck
  | rwlockCreate | rwlockDelete | rwlockReadLock | rwlockReadUnlock | rwlockWriteLock
  | rwlockWriteUnlock | rwlockGetReaderCount | rwlockIsWriteLocked | rwlockReadTrylock
  | rwlockWriteTrylock
  | eventGroupCreate | eventGroupDelete | eventGroupSetBits | eventGroupSetBitsFromIsr
  | eventGroupClearBits | eventGroupWaitBits | eventGroupGetBits | eventGroupSync
  | timerCreate | timerStart | timerStop | timerReset | timerChangePeriod | timerDelete
  | timerStartFromIsr | timerStopFromIsr | timerResetFromIsr | timerIsActive | timerGetId
  | timerGetRemaining | timerChainCreate
  | traceInit | traceEvent | traceEventText | traceEventCount | traceDump | traceClear
  | cpuStatsGet | cpuStatsReset

/-- The code of a function; `fn` is what a caller of `gatekeeper_call` passes. -/
def Api.code (fn : Program) : Api → Program
  | .queueCreate => Critical.queueCreate
  | .queueDelete => Critical.queueDelete
  | .queueSend => Critical.queueSend
  | .queueReceive => Critical.queueReceive
  | .queueSendFromIsr => Critical.queueSendFromIsr
  | .queueReceiveFromIsr => Critical.queueReceiveFromIsr
  | .queueMessagesWaiting => Critical.queueMessagesWaiting
  | .queueSpacesAvailable => Critical.queueSpacesAvailable
  | .queueReset => Critical.queueReset
  | .queueRegistryAdd => Critical.queueRegistryAdd
  | .queueRegistryRemove => Critical.queueRegistryRemove
  | .queueRegistryCount => Critical.queueRegistryCount
  | .queueSetCreate => Critical.queueSetCreate
  | .queueSetAdd => Critical.queueSetAdd
  | .queueSetRemove => Critical.queueSetRemove
  | .queueSetSelect => Critical.queueSetSelect
  | .queueSendPriority => Critical.queueSendPriority
  | .queuePeek => Critical.queuePeek
  | .queueFlush => Critical.queueFlush
  | .semaphoreCreateBinary => Critical.semaphoreCreateBinary
  | .semaphoreCreateCounting => Critical.semaphoreCreateCounting
  | .semaphoreDelete => Critical.semaphoreDelete
  | .semaphoreTake => Critical.semaphoreTake
  | .semaphoreGive => Critical.semaphoreGive
  | .semaphoreGiveFromIsr => Critical.semaphoreGiveFromIsr
  | .semaphoreGetCount => Critical.semaphoreGetCount
  | .mutexCreate => Critical.mutexCreate
  | .mutexDelete => Critical.mutexDelete
  | .mutexLock => Critical.mutexLock
  | .mutexUnlock => Critical.mutexUnlock
  | .mutexLockRecursive => Critical.mutexLockRecursive
  | .mutexUnlockRecursive => Critical.mutexUnlockRecursive
  | .mutexGetOwner => Critical.mutexGetOwner
  | .gatekeeperCall => Critical.gatekeeperCall fn
  | .mutexDeadlockCheck => Critical.mutexDeadlockCheck
  | .mutexPriorityCeilingCheck => Critical.mutexPriorityCeilingCheck
  | .rwlockCreate => Critical.rwlockCreate
  | .rwlockDelete => Critical.rwlockDelete
  | .rwlockReadLock => Critical.rwlockReadLock
  | .rwlockReadUnlock => Critical.rwlockReadUnlock
  | .rwlockWriteLock => Critical.rwlockWriteLock
  | .rwlockWriteUnlock => Critical.rwlockWriteUnlock
  | .rwlockGetReaderCount => Critical.rwlockGetReaderCount
  | .rwlockIsWriteLocked => Critical.rwlockIsWriteLocked
  | .rwlockReadTrylock => Critical.rwlockReadTrylock
  | .rwlockWriteTrylock => Critical.rwlockWriteTrylock
  | .eventGroupCreate => Critical.eventGroupCreate
  | .eventGroupDelete => Critical.eventGroupDelete
  | .eventGroupSetBits => Critical.eventGroupSetBits
  | .eventGroupSetBitsFromIsr => Critical.eventGroupSetBitsFromIsr
  | .eventGroupClearBits => Critical.eventGroupClearBits
  | .eventGroupWaitBits => Critical.eventGroupWaitBits
  | .eventGroupGetBits => Critical.eventGroupGetBits
  | .eventGroupSync => Critical.eventGroupSync
  | .timerCreate => Critical.timerCreate
  | .timerStart => Critical.timerStart
  | .timerStop => Critical.timerStop
  | .timerReset => Critical.timerReset
  | .timerChangePeriod => Critical.timerChangePeriod
  | .timerDelete => Critical.timerDelete
  | .timerStartFromIsr => Critical.timerStartFromIsr
  | .timerStopFromIsr => Critical.timerStopFromIsr
  | .timerResetFromIsr => Critical.timerResetFromIsr
  | .timerIsActive => Critical.timerIsActive
  | .timerGetId => Critical.timerGetId
  | .timerGetRemaining => Critical.timerGetRemaining
  | .timerChainCreate => Critical.timerChainCreate
  | .traceInit => Critical.traceInit
  | .traceEvent => Critical.traceEvent
  | .traceEventText => Critical.traceEventText
  | .traceEventCount => Critical.traceEventCount
  | .traceDump => Critical.traceDump
  | .traceClear => Critical.traceClear
  | .cpuStatsGet => Critical.cpuStatsGet
  | .cpuStatsReset => Critical.cpuStatsReset

/-- `gatekeeper_call` is balanced when the function it calls is. -/
theorem gatekeeperCall_balanced {fn : Program} (balanced : Balanced fn) :
    Balanced (gatekeeperCall fn) := by
  have locked : depthAfter 0 (.call mutexLock) 0 = some (some 0) := rfl
  have unlocked : depthAfter 0 (.call mutexUnlock) 0 = some (some 0) := rfl
  apply balanced_of_returns
  apply depthAfter_seq rfl
  apply depthAfter_seq locked
  apply depthAfter_seq rfl
  apply depthAfter_seq balanced
  apply depthAfter_seq unlocked
  rfl

theorem code_balanced {fn : Program} (balanced : Balanced fn) (api : Api) :
    Balanced (api.code fn) := by
  cases api with
  | gatekeeperCall => exact gatekeeperCall_balanced balanced
  | _ => exact rfl

/-- In every run of a function of the interface, `critical_nesting` returns to
its value at entry, a delay is reached with that value, and no section is left
that was not entered. -/
theorem critical_sections_balanced {σ : Type} (fn : Program) (balanced : Balanced fn) (api : Api)
    (world : World Test Act σ) (fuel : Nat) (data : σ) (entry : BitVec 32) :
    LogSound entry (exec world fuel (.call (api.code fn)) ⟨data, entry, []⟩).2.log ∧
      ((exec world fuel (.call (api.code fn)) ⟨data, entry, []⟩).1 ≠ .running →
        (exec world fuel (.call (api.code fn)) ⟨data, entry, []⟩).2.nesting = entry) :=
  (code_balanced balanced api).exec world fuel data entry

/-- A queue that stays empty for some ticks. -/
def emptyForTicks : World Test Act Nat where
  test := fun test ticks =>
    match test with
    | .queueEmpty => 0 < ticks
    | .timeoutFinite => true
    | _ => false
  act := fun action ticks =>
    match action with
    | .triggerPendsv => ticks - 1
    | _ => ticks

theorem critical_sections_balanced_gatekeeper :
    Balanced queueReceive ∧
      (exec emptyForTicks 80 (.call (gatekeeperCall queueReceive)) ⟨2, 3, []⟩).2.nesting = 3 :=
  ⟨by decide, (critical_sections_balanced queueReceive (by decide) .gatekeeperCall emptyForTicks 80
    2 3).2 (by decide)⟩

end Critical

end Rtos

end MiniIotRobotEdge

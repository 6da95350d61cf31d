import MiniIotRobotEdge.RtosHeapCapacity
import MiniIotRobotEdge.RtosQueueCreation
import MiniIotRobotEdge.RtosSyncRuns

/-!
# The bytes that the message queues copy

Whatever tasks and interrupt handlers do, a queue is changed by a send into a
queue that is not full, a receive from one that is not empty, and a reset
(`QueueStep`).  The ranges that sends and receives copy lie inside the payload
of the buffer exactly when neither the product of the two sizes nor the
rounding of `malloc_rtos` wraps around.
-/

namespace MiniIotRobotEdge

namespace Rtos

open Relation

/-- The sizes and the counters of a queue. -/
def Queue.counters (queue : Queue) : Nat × Nat × Nat × Nat × Nat :=
  (queue.itemSize, queue.maxItems, queue.head, queue.tail, queue.count)

namespace Queue

/-- The byte range of `queue_copy_in`: the offset in the buffer and the length. -/
def copyInRange (queue : Queue) : Nat × Nat := (queue.offset queue.head, queue.itemSize)

/-- The byte range of `queue_copy_out`. -/
def copyOutRange (queue : Queue) : Nat × Nat := (queue.offset queue.tail, queue.itemSize)

end Queue

/-- The range that a call copies when its loop condition lets it pass. -/
def Call.copied (system : SyncSystem) (queue : Nat) : Call → List (Nat × Nat)
  | .queueSend object _ _ =>
      if object = queue ∧ (system.queues queue).isFull = false then
        [(system.queues queue).copyInRange]
      else []
  | .queueReceive object _ =>
      if object = queue ∧ (system.queues queue).isEmpty = false then
        [(system.queues queue).copyOutRange]
      else []
  | _ => []

def IsrCall.copied (system : SyncSystem) (queue : Nat) : IsrCall → List (Nat × Nat)
  | .queueSendFromIsr object _ =>
      if object = queue ∧ (system.queues queue).isFull = false then
        [(system.queues queue).copyInRange]
      else []
  | .queueReceiveFromIsr object =>
      if object = queue ∧ (system.queues queue).isEmpty = false then
        [(system.queues queue).copyOutRange]
      else []
  | _ => []

/-- The ranges of a queue's buffer that a step copies.  The loop condition is
tested when a call is entered and after every sleep. -/
def copiedRanges (system : SyncSystem) (queue : Nat) : Action → List (Nat × Nat)
  | .run task =>
      match system.pc task with
      | .entering call _ | .retrying call _ => call.copied system queue
      | _ => []
  | .interrupt call => call.copied system queue
  | _ => []

/-- What a step does to a queue. -/
inductive QueueStep (before after : Queue) : Prop
  | keep (same : after.counters = before.counters)
  | send (data : List UInt8) (space : before.isFull = false)
      (sent : after.counters = (before.copyIn data).counters)
  | receive (filled : before.isEmpty = false)
      (received : after.counters = before.copyOut.2.counters)
  | reset (cleared : after.counters = before.reset.counters)

/-- A change that leaves the counters of all queues alone. -/
def CountersKept (before after : SyncSystem) : Prop :=
  ∀ queue, (after.queues queue).counters = (before.queues queue).counters

namespace CountersKept

variable {first second third : SyncSystem}

theorem refl (system : SyncSystem) : CountersKept system system := fun _ => rfl

theorem trans (left : CountersKept first second) (right : CountersKept second third) :
    CountersKept first third := fun queue => (right queue).trans (left queue)

/-- Only the queues matter. -/
theorem of_eq (same : second.queues = first.queues) : CountersKept first second :=
  fun queue => by rw [same]

variable (system : SyncSystem)

theorem modifyTask (task : TaskId) (change : Tcb → Tcb) :
    CountersKept system (system.modifyTask task change) := .of_eq rfl

theorem modifyRwlock (rwlock : Nat) (change : Rwlock → Rwlock) :
    CountersKept system (system.modifyRwlock rwlock change) := .of_eq rfl

theorem modifyQueue {object : Nat} {change : Queue → Queue}
    (kept : ∀ queue, (change queue).counters = queue.counters) :
    CountersKept system (system.modifyQueue object change) := by
  intro queue
  unfold SyncSystem.modifyQueue
  by_cases same : queue = object
  · subst same
    simp [kept]
  · simp [Function.update_of_ne same]

theorem setHead (list : WaitList) (head : Option TaskId) :
    CountersKept system (system.setHead list head) := by
  cases list with
  | senders object =>
      rw [SyncSystem.setHead]
      exact .modifyQueue system fun _ => rfl
  | receivers object =>
      rw [SyncSystem.setHead]
      exact .modifyQueue system fun _ => rfl
  | _ => exact .of_eq rfl

theorem blockTask (list : WaitList) (task : TaskId) :
    CountersKept system (blockTask system list task) :=
  (CountersKept.of_eq rfl).trans (.setHead _ _ _)

theorem unblockTask (list : WaitList) : CountersKept system (unblockTask system list) := by
  unfold Rtos.unblockTask
  split
  · exact .refl system
  · exact (CountersKept.setHead _ _ _).trans (.of_eq rfl)

theorem semaphoreGive (sem : Nat) : CountersKept system (semaphoreGive system sem) :=
  (CountersKept.of_eq rfl).trans (.unblockTask _ _)

theorem mutexPriorityInherit (mutex : Nat) (blocker : TaskId) :
    CountersKept system (mutexPriorityInherit system mutex blocker) := by
  unfold Rtos.mutexPriorityInherit
  split
  · exact .refl system
  · dsimp only
    split <;> exact .of_eq rfl

theorem mutexRelease (mutex : Nat) : CountersKept system (mutexRelease system mutex) := by
  unfold Rtos.mutexRelease Rtos.mutexPriorityRestore
  split
  · exact .of_eq rfl
  · dsimp only
    split <;> exact .of_eq rfl

theorem mutexUnlock (mutex : Nat) (task : TaskId) :
    CountersKept system (mutexUnlock system mutex task).1 := by
  unfold Rtos.mutexUnlock
  split
  · exact .refl system
  · dsimp only
    have released : CountersKept system
        (Rtos.mutexRelease (Rtos.mutexDecrement system mutex) mutex) :=
      (CountersKept.of_eq rfl).trans (.mutexRelease _ _)
    split
    · exact .of_eq rfl
    · split
      · exact released
      · exact released.trans ((CountersKept.setHead _ _ _).trans (.of_eq rfl))

theorem rwlockUnblockOneWriter (rwlock : Nat) :
    CountersKept system (rwlockUnblockOneWriter system rwlock) := by
  unfold Rtos.rwlockUnblockOneWriter
  split
  · exact .refl system
  · exact (CountersKept.unblockTask _ _).trans (.of_eq rfl)

theorem rwlockReadUnlock (rwlock : Nat) :
    CountersKept system (rwlockReadUnlock system rwlock) := by
  unfold Rtos.rwlockReadUnlock
  dsimp only
  split
  · exact (CountersKept.of_eq rfl).trans (.rwlockUnblockOneWriter _ _)
  · exact .of_eq rfl

variable {system} {after : SyncSystem} {fuel : Nat}

theorem rwlockUnblockAllReaders {rwlock : Nat}
    (woken : rwlockUnblockAllReaders fuel system rwlock = some after) :
    CountersKept system after := by
  apply rwlockUnblockAllReaders_keeps _ (CountersKept.refl system) woken
  intro current kept
  exact kept.trans ((CountersKept.unblockTask _ _).trans (.modifyRwlock _ _ _))

theorem rwlockWriteUnlock {rwlock : Nat}
    (unlocked : rwlockWriteUnlock fuel system rwlock = some after) :
    CountersKept system after := by
  unfold Rtos.rwlockWriteUnlock at unlocked
  dsimp only at unlocked
  split at unlocked
  · obtain rfl := Option.some.inj unlocked
    exact (CountersKept.of_eq rfl).trans (.rwlockUnblockOneWriter _ _)
  · exact (CountersKept.modifyRwlock _ _ _).trans (.rwlockUnblockAllReaders unlocked)

theorem readyAll {cursor : Option TaskId} (woken : readyAll fuel system cursor = some after) :
    CountersKept system after := by
  apply readyAll_keeps _ (CountersKept.refl system) woken
  intro current task kept
  exact kept.trans (.modifyTask _ _ _)

theorem removeFromList {list : WaitList} {task : TaskId} {clearsTask : Bool}
    (removed : removeFromList fuel system list task clearsTask = some after) :
    CountersKept system after := by
  apply removeFromList_keeps _ _ (CountersKept.refl system) removed
  · intro previous
    cases previous with
    | none => exact .setHead _ _ _
    | some previous => exact .of_eq rfl
  · intro current kept
    exact kept.trans (.of_eq rfl)

end CountersKept

section Steps

variable {queue fuel start : Nat} {system before after : SyncSystem} {task : TaskId} {call : Call}
  {events : List Event}

theorem QueueStep.of_kept (kept : CountersKept before after) (queue : Nat) :
    QueueStep (before.queues queue) (after.queues queue) := .keep (kept queue)

theorem QueueStep.kept {first second third : Queue} (step : QueueStep first second)
    (same : third.counters = second.counters) : QueueStep first third := by
  cases step with
  | keep before => exact .keep (same.trans before)
  | send data space sent => exact .send data space (same.trans sent)
  | receive filled received => exact .receive filled (same.trans received)
  | reset cleared => exact .reset (same.trans cleared)

theorem QueueStep.modifyQueue {object : Nat} {change : Queue → Queue}
    (step : QueueStep (system.queues object) (change (system.queues object))) (queue : Nat) :
    QueueStep (system.queues queue) ((system.modifyQueue object change).queues queue) := by
  unfold SyncSystem.modifyQueue
  by_cases same : queue = object
  · subst same
    simpa using step
  · simpa [Function.update_of_ne same] using QueueStep.keep rfl

/-- The section that sends. -/
theorem QueueStep.sent {object : Nat} (space : (system.queues object).isFull = false)
    (data : List UInt8) (queue : Nat) :
    QueueStep (system.queues queue)
      ((unblockTaskFromQueue (system.modifyQueue object fun object => object.copyIn data) object
        false).queues queue) := by
  have copied : QueueStep (system.queues queue)
      ((system.modifyQueue object fun object => object.copyIn data).queues queue) :=
    .modifyQueue (.send data space rfl) queue
  exact copied.kept (CountersKept.unblockTask _ _ queue)

/-- The section that receives. -/
theorem QueueStep.received {object : Nat} (filled : (system.queues object).isEmpty = false)
    (queue : Nat) :
    QueueStep (system.queues queue)
      ((unblockTaskFromQueue (system.modifyQueue object fun object => object.copyOut.2) object
        true).queues queue) := by
  have copied : QueueStep (system.queues queue)
      ((system.modifyQueue object fun object => object.copyOut.2).queues queue) :=
    .modifyQueue (.receive filled rfl) queue
  exact copied.kept (CountersKept.unblockTask _ _ queue)

theorem QueueStep.cleared (object queue : Nat) :
    QueueStep (system.queues queue) ((system.modifyQueue object Queue.reset).queues queue) :=
  .modifyQueue (.reset rfl) queue

/-- What the parts of the wait loops do to the queues. -/
theorem waitLoop_queueStep {loop : WaitLoop} (found : waitLoop task call = some loop)
    (system : SyncSystem) :
    CountersKept system (loop.giveUp system) ∧ CountersKept system (loop.beforeBlock system) ∧
      (loop.busy system = false → ∀ queue,
        QueueStep (system.queues queue) ((loop.acquire system).1.queues queue)) := by
  cases call <;> simp only [waitLoop, Option.some.injEq, reduceCtorEq] at found <;> subst found
  case queueSend object data timeout =>
    exact ⟨.refl _, .refl _, fun space => .sent space data⟩
  case queueReceive object timeout =>
    exact ⟨.refl _, .refl _, fun filled => .received filled⟩
  case mutexLock =>
    exact ⟨.refl _, .mutexPriorityInherit _ _ _, fun _ => .of_kept (.of_eq rfl)⟩
  case semaphoreTake | rwlockReadLock | rwlockWriteLock =>
    exact ⟨.of_eq rfl, .refl _, fun _ => .of_kept (.of_eq rfl)⟩

theorem testLoop_queueStep {loop : WaitLoop} (found : waitLoop task call = some loop)
    (tested : testLoop system task call start loop = (after, events)) :
    QueueStep (system.queues queue) (after.queues queue) := by
  obtain ⟨giveUp, beforeBlock, acquire⟩ := waitLoop_queueStep found system
  rcases testLoop_cases tested with
    ⟨_, _, rfl, _⟩ | ⟨_, _, rfl, _⟩ | ⟨free, rfl, _⟩
  · exact .of_kept giveUp queue
  · exact .of_kept (beforeBlock.trans (.blockTask _ _ _)) queue
  · exact acquire free queue

theorem queueFlush_queueStep {object flushed : Nat}
    (done : queueFlush fuel system object = some (flushed, after)) :
    QueueStep (system.queues queue) (after.queues queue) := by
  unfold queueFlush at done
  dsimp only at done
  split at done
  · simp at done
  · rename_i woken
    obtain ⟨rfl, rfl⟩ : _ = flushed ∧ _ = after := by simpa using done
    exact (QueueStep.cleared object queue).kept
      ((CountersKept.readyAll woken).trans (.setHead _ _ _) queue)

theorem enterCall_queueStep
    (entered : enterCall fuel system task call start = some (after, events)) :
    QueueStep (system.queues queue) (after.queues queue) := by
  have left : ∀ {changed : SyncSystem} {result : Int} {others : List Event},
      finish changed task call result others = (after, events) →
      QueueStep (system.queues queue) (changed.queues queue) →
      QueueStep (system.queues queue) (after.queues queue) := by
    intro changed result others finished step
    obtain ⟨rfl, -⟩ := Prod.mk.inj finished
    exact step
  cases call with
  | semaphoreTake | queueSend | queueReceive | rwlockReadLock =>
      exact testLoop_queueStep rfl (Option.some.inj entered)
  | rwlockWriteLock rwlock timeout =>
      have step : QueueStep ((system.modifyRwlock rwlock fun object =>
          { object with writerWaiting := 1 }).queues queue) (after.queues queue) :=
        testLoop_queueStep rfl (Option.some.inj entered)
      exact step
  | semaphoreGive object =>
      exact left (Option.some.inj entered) (.of_kept (.semaphoreGive _ _) queue)
  | queueReset object =>
      exact left (Option.some.inj entered) (.cleared object queue)
  | queueFlush =>
      obtain ⟨⟨flushed, changed⟩, flush, finished⟩ := Option.map_eq_some_iff.mp entered
      exact left finished (queueFlush_queueStep flush)
  | rwlockReadUnlock =>
      exact left (Option.some.inj entered) (.of_kept (.rwlockReadUnlock _ _) queue)
  | rwlockWriteUnlock =>
      obtain ⟨changed, unlocked, finished⟩ := Option.map_eq_some_iff.mp entered
      exact left finished (.of_kept (.rwlockWriteUnlock unlocked) queue)
  | mutexUnlock mutex =>
      exact left (Option.some.inj entered) (.of_kept (.mutexUnlock _ _ _) queue)
  | mutexLock mutex timeout =>
      rw [enterCall] at entered
      split at entered
      · exact left (Option.some.inj entered) (.of_kept (.of_eq rfl) queue)
      · split at entered
        · exact left (Option.some.inj entered) (.of_kept (.of_eq rfl) queue)
        · exact testLoop_queueStep rfl (Option.some.inj entered)

theorem runIsr_queueStep (call : IsrCall) :
    QueueStep (system.queues queue) ((runIsr system call).1.queues queue) := by
  cases call with
  | semaphoreGiveFromIsr object => exact .of_kept (.semaphoreGive _ _) queue
  | queueSendFromIsr object data =>
      unfold runIsr
      dsimp only
      split
      case isTrue => exact .keep rfl
      case isFalse space =>
        exact .sent (Bool.eq_false_iff.mpr space) data queue
  | queueReceiveFromIsr object =>
      unfold runIsr
      dsimp only
      split
      case isTrue => exact .keep rfl
      case isFalse filled =>
        exact .received (Bool.eq_false_iff.mpr filled) queue

/-- Every step keeps the counters of a queue, sends, receives or resets. -/
theorem exec_queueStep {action : Action}
    (stepped : exec fuel before action = some (after, events)) (queue : Nat) :
    QueueStep (before.queues queue) (after.queues queue) := by
  cases exec_cases stepped with
  | refused task call _ _ => exact .keep rfl
  | invoke task call _ _ => exact .keep rfl
  | interrupt call => exact runIsr_queueStep call
  | tick _ => exact .keep rfl
  | run task ran =>
      cases runTask_cases ran with
      | entering call start _ entered =>
        have step : QueueStep ((dispatch before task).queues queue) (after.queues queue) :=
          enterCall_queueStep entered
        exact step
      | delaying call start _ _ => exact .keep rfl
      | sleeping call start _ _ => exact .keep rfl
      | retrying call start _ found tested =>
        have step : QueueStep ((dispatch before task).queues queue) (after.queues queue) :=
          testLoop_queueStep found tested
        exact step
      | @expiring removed _ call start _ found removal =>
        have gaveUp := (waitLoop_queueStep found removed).1
        have unlinked : CountersKept (dispatch before task) _ := .removeFromList removal
        exact .of_kept (unlinked.trans gaveUp) queue

end Steps

section Counters

variable {queue before after : Queue}

theorem Queue.counters_eq_iff {first second : Queue} :
    first.counters = second.counters ↔ first.itemSize = second.itemSize ∧
      first.maxItems = second.maxItems ∧ first.head = second.head ∧
      first.tail = second.tail ∧ first.count = second.count := by
  simp [Queue.counters]

/-- Only the counters matter. -/
theorem Queue.Consistent.congr (consistent : before.Consistent)
    (same : after.counters = before.counters) : after.Consistent := by
  obtain ⟨itemSize, maxItems, head, tail, count⟩ := Queue.counters_eq_iff.mp same
  exact
    { positive := maxItems ▸ consistent.positive
      bound := maxItems ▸ consistent.bound
      fits := by
        rw [itemSize, maxItems]
        exact consistent.fits
      tail := by
        rw [tail, maxItems]
        exact consistent.tail
      count := by
        rw [count, maxItems]
        exact consistent.count
      head := by
        rw [head, tail, count, maxItems]
        exact consistent.head }

theorem Queue.not_isFull_iff : queue.isFull = false ↔ queue.count < queue.maxItems := by
  simp [Queue.isFull]

theorem Queue.not_isEmpty_iff : queue.isEmpty = false ↔ 0 < queue.count := by
  simp [Queue.isEmpty, Nat.pos_iff_ne_zero]

theorem QueueStep.consistent (step : QueueStep before after) (consistent : before.Consistent) :
    after.Consistent := by
  cases step with
  | keep same => exact consistent.congr same
  | send data space sent =>
      exact (consistent.copyIn (Queue.not_isFull_iff.mp space) data).1.congr sent
  | receive filled received =>
      exact (consistent.copyOut (Queue.not_isEmpty_iff.mp filled)).1.congr received
  | reset cleared => exact consistent.reset.1.congr cleared

theorem QueueStep.sizes (step : QueueStep before after) :
    after.itemSize = before.itemSize ∧ after.maxItems = before.maxItems := by
  cases step with
  | keep same | send _ _ same | receive _ same | reset same =>
      obtain ⟨itemSize, maxItems, -⟩ := Queue.counters_eq_iff.mp same
      exact ⟨itemSize, maxItems⟩

/-- A slot of a consistent queue ends before the buffer does. -/
theorem Queue.Consistent.slot_inside (consistent : queue.Consistent) {position : Nat}
    (inside : position < queue.maxItems) :
    queue.offset position + queue.itemSize ≤ queue.itemSize * queue.maxItems := by
  rw [consistent.offset_eq inside]
  exact slot_le queue.itemSize inside

theorem copiedRanges_cases {system : SyncSystem} {object : Nat} {action : Action}
    {range : Nat × Nat} (copied : range ∈ copiedRanges system object action) :
    range = (system.queues object).copyInRange ∨ range = (system.queues object).copyOutRange := by
  have ofCall : ∀ {call : Call}, range ∈ call.copied system object →
      range = (system.queues object).copyInRange ∨
        range = (system.queues object).copyOutRange := by
    intro call member
    cases call <;> simp only [Call.copied, List.not_mem_nil] at member
    case queueSend => exact .inl (List.mem_singleton.mp (List.mem_ite_nil_right.mp member).2)
    case queueReceive => exact .inr (List.mem_singleton.mp (List.mem_ite_nil_right.mp member).2)
  cases action with
  | invoke | tick => simp [copiedRanges] at copied
  | run task =>
      simp only [copiedRanges] at copied
      split at copied
      · exact ofCall copied
      · exact ofCall copied
      · simp at copied
  | interrupt call =>
      cases call <;> simp only [copiedRanges, IsrCall.copied, List.not_mem_nil] at copied
      case queueSendFromIsr =>
        exact .inl (List.mem_singleton.mp (List.mem_ite_nil_right.mp copied).2)
      case queueReceiveFromIsr =>
        exact .inr (List.mem_singleton.mp (List.mem_ite_nil_right.mp copied).2)

/-- A consistent queue copies inside of its slots. -/
theorem Queue.Consistent.copied_inside {system : SyncSystem} {object : Nat} {action : Action}
    {range : Nat × Nat} (consistent : (system.queues object).Consistent)
    (copied : range ∈ copiedRanges system object action) :
    range.1 + range.2 ≤ (system.queues object).itemSize * (system.queues object).maxItems := by
  rcases copiedRanges_cases copied with rfl | rfl
  · exact consistent.slot_inside consistent.head_lt
  · exact consistent.slot_inside consistent.tail

end Counters

section Creation

variable {system : HeapSystem} {chain : HeapRegion → List Block}

/-- A queue as `queue_create` leaves it in memory, with its sizes taken as they are. -/
structure FreshQueue (after : Heap) (q width capacity : Nat) : Prop where
  itemSize : queueItemSize after.memory q = width
  maxItems : queueMaxItems after.memory q = capacity
  head : queueHead after.memory q = 0
  tail : queueTail after.memory q = 0
  count : queueCount after.memory q = 0
  small : payloadSize after.memory (queueBuffer after.memory q) + 39 < uint32Size
  enough : width * capacity + 39 < uint32Size →
    width * capacity ≤ payloadSize after.memory (queueBuffer after.memory q)

theorem initQueue_outside {memory : Memory} {q buffer itemSize maxItems address : Nat}
    {name : Option (List UInt8)} (outside : address < q ∨ q + queueStructSize ≤ address) :
    initQueue memory q buffer itemSize maxItems name address = memory address := by
  unfold queueStructSize at outside
  cases name with
  | none =>
      simp (disch := omega) only [initQueue, setQueueBuffer, setQueueItemSize, setQueueMaxItems,
        setQueueIsrSafe, Memory.store_outside]
  | some name =>
      have length : ((List.range 15).map (fun index => name.getD index 0) ++ [0]).length = 16 := by
        simp
      simp (disch := omega) only [initQueue, setQueueBuffer, setQueueItemSize, setQueueMaxItems,
        setQueueIsrSafe, setQueueName, Memory.store_outside, Memory.writeBytes_outside]

/-- A write into one payload keeps the size of another. -/
theorem HeapInvariant.write_payloadSize (invariant : HeapInvariant system chain) {changed : Memory}
    {ptr other : Nat} (isLive : ptr ∈ system.live) (otherLive : other ∈ system.live)
    (kept : ∀ address, address < ptr ∨ ptr + payloadSize system.heap.memory ptr ≤ address →
      changed address = system.heap.memory address) :
    payloadSize changed other = payloadSize system.heap.memory other := by
  obtain ⟨region, regionMem, block, blockMem, -, -, isOther, isStop⟩ := invariant.payload otherLive
  have written := invariant.write isLive kept
  obtain ⟨home, homeMem, owner, ownerMem, -, -, isSame, sameStop⟩ := written.payload otherLive
  obtain ⟨-, rfl⟩ := invariant.block_unique regionMem blockMem homeMem ownerMem (by omega)
  dsimp only at sameStop
  omega

/-- A payload is smaller than its region. -/
theorem HeapInvariant.payloadSize_small (invariant : HeapInvariant system chain) {ptr : Nat}
    (isLive : ptr ∈ system.live) : payloadSize system.heap.memory ptr + 39 < uint32Size := by
  have holds : HoldsRequest system.heap ptr (payloadSize system.heap.memory ptr) :=
    ⟨invariant.wellFormed.inside ptr isLive, Nat.le_of_eq rfl⟩
  exact holds.small rfl invariant

theorem HeapInvariant.freshQueue (invariant : HeapInvariant system chain)
    {fuel itemSize maxItems q : Nat} {after : Heap} {name : Option (List UInt8)}
    (itemLt : itemSize < uint32Size) (maxLt : maxItems < uint32Size)
    (created : Rtos.queueCreate fuel system.heap itemSize maxItems name = some (q, after))
    (notNull : q ≠ 0) : 0 < itemSize ∧ 0 < maxItems ∧ FreshQueue after q itemSize maxItems := by
  obtain ⟨itemsPositive, maxPositive, first, second, buffer, allocated, bufferAllocated,
    bufferNotNull, rfl⟩ := queueCreate_cases created notNull
  obtain ⟨⟨last, bufferInvariant⟩, enough, structRoom, cleared⟩ :=
    invariant.queuePayloads allocated bufferAllocated notNull bufferNotNull
  have bufferLive : buffer ∈ buffer :: q :: system.live := List.mem_cons_self ..
  have structLive : q ∈ buffer :: q :: system.live :=
    List.mem_cons_of_mem buffer (List.mem_cons_self ..)
  have isBuffer : queueBuffer (initQueue second.memory q buffer itemSize maxItems name) q =
      buffer := initQueue_buffer (bufferInvariant.address_lt bufferLive)
  have sameSize : payloadSize (initQueue second.memory q buffer itemSize maxItems name) buffer =
      payloadSize second.memory buffer := by
    apply bufferInvariant.write_payloadSize structLive bufferLive
    intro address outside
    dsimp only at outside ⊢
    exact initQueue_outside (by omega)
  have zero : ∀ offset width, 16 ≤ offset → offset + width ≤ 48 →
      (initQueue second.memory q buffer itemSize maxItems name).load (q + offset) width = 0 := by
    intro offset width lower upper
    rw [initQueue_kept lower upper]
    exact cleared offset width (by unfold queueStructSize; omega)
  refine ⟨itemsPositive, maxPositive, ?_⟩
  exact
    { itemSize := initQueue_itemSize itemLt
      maxItems := initQueue_maxItems maxLt
      head := zero 16 4 (by omega) (by omega)
      tail := zero 20 4 (by omega) (by omega)
      count := zero 24 4 (by omega) (by omega)
      small := by
        rw [isBuffer, sameSize]
        exact bufferInvariant.payloadSize_small bufferLive
      enough := fun fits => by
        have noWrap : itemSize * maxItems % uint32Size = itemSize * maxItems :=
          Nat.mod_eq_of_lt (by omega)
        rw [noWrap] at enough
        rw [isBuffer, sameSize]
        exact enough fits }

end Creation

section Runs

variable {initial : SyncSystem} {object : Nat}

/-- What sends and receives copy, in every run, lies in a payload of the size. -/
def CopiesInside (initial : SyncSystem) (queue payload : Nat) : Prop :=
  ∀ current, Traced.Reachable Traced.AnyStep initial current → ∀ fuel action after events,
    exec fuel current.system action = some (after, events) →
      ∀ range ∈ copiedRanges current.system queue action, range.1 + range.2 ≤ payload

theorem consistent_of_reachable (consistent : (initial.queues object).Consistent)
    {current : Traced} (run : Traced.Reachable Traced.AnyStep initial current) :
    (current.system.queues object).Consistent ∧
      (current.system.queues object).itemSize = (initial.queues object).itemSize ∧
      (current.system.queues object).maxItems = (initial.queues object).maxItems := by
  induction run with
  | refl => exact ⟨consistent, rfl, rfl⟩
  | tail _ step ih =>
      obtain ⟨kept, itemSize, maxItems⟩ := ih
      obtain ⟨_, _, _, -, executed, -⟩ := step
      have moved := exec_queueStep executed object
      obtain ⟨sameItem, sameMax⟩ := moved.sizes
      exact ⟨moved.consistent kept, sameItem.trans itemSize, sameMax.trans maxItems⟩

theorem runIsr_send_counters {system : SyncSystem} (space : (system.queues object).isFull = false)
    (data : List UInt8) :
    ((runIsr system (.queueSendFromIsr object data)).1.queues object).counters =
      ((system.queues object).copyIn data).counters := by
  rw [runIsr, if_neg (Bool.eq_false_iff.mp space)]
  apply (CountersKept.unblockTask _ _ object).trans
  dsimp only [SyncSystem.modifyQueue]
  rw [Function.update_self]

/-- The queue after a number of sends in a row. -/
theorem exists_sent {itemSize maxItems : Nat} (maxLt : maxItems < uint32Size)
    (fresh : (initial.queues object).counters = (itemSize, maxItems, 0, 0, 0)) {sends : Nat}
    (below : sends < maxItems) :
    ∃ current, Traced.Reachable Traced.AnyStep initial current ∧
      (current.system.queues object).counters = (itemSize, maxItems, sends, 0, sends) := by
  induction sends with
  | zero => exact ⟨⟨initial, []⟩, .refl, fresh⟩
  | succ sends ih =>
      obtain ⟨current, run, counters⟩ := ih (by omega)
      obtain ⟨isItem, isMax, isHead, isTail, isCount⟩ : _ ∧ _ ∧ _ ∧ _ ∧ _ := by
        simpa [Queue.counters] using counters
      have space : (current.system.queues object).isFull = false := by
        rw [Queue.not_isFull_iff]
        omega
      refine ⟨⟨(runIsr current.system (.queueSendFromIsr object [])).1, _⟩,
        run.tail ⟨0, .interrupt (.queueSendFromIsr object []), _, trivial, rfl, rfl⟩, ?_⟩
      rw [runIsr_send_counters space, Queue.counters, Queue.copyIn]
      dsimp only
      have noWrap : (sends + 1) % uint32Size = sends + 1 := Nat.mod_eq_of_lt (by omega)
      rw [isItem, isMax, isHead, isTail, isCount, noWrap, Nat.mod_eq_of_lt below]

/-- If every run copies inside of a payload, the slots up to the first overflow do. -/
theorem CopiesInside.slot {itemSize maxItems payload : Nat} (maxLt : maxItems < uint32Size)
    (fresh : (initial.queues object).counters = (itemSize, maxItems, 0, 0, 0))
    (inside : CopiesInside initial object payload) {sends : Nat} (below : sends < maxItems)
    (noWrap : sends * itemSize < uint32Size) : sends * itemSize + itemSize ≤ payload := by
  obtain ⟨current, run, counters⟩ := exists_sent maxLt fresh below
  obtain ⟨isItem, isMax, isHead, -, isCount⟩ : _ ∧ _ ∧ _ ∧ _ ∧ _ := by
    simpa [Queue.counters] using counters
  have space : (current.system.queues object).isFull = false := by
    rw [Queue.not_isFull_iff]
    omega
  have copied : (current.system.queues object).copyInRange ∈
      copiedRanges current.system object (.interrupt (.queueSendFromIsr object [])) := by
    simp [copiedRanges, IsrCall.copied, space]
  have range := inside current run 0 (.interrupt (.queueSendFromIsr object [])) _ _ rfl _ copied
  rw [Queue.copyInRange, Queue.offset, isHead, isItem, Nat.mod_eq_of_lt noWrap] at range
  exact range

/-- Slots that end inside of a payload do not wrap around. -/
theorem fits_of_copiesInside {itemSize maxItems payload : Nat} (positive : 0 < itemSize)
    (maxPositive : 0 < maxItems) (maxLt : maxItems < uint32Size)
    (fresh : (initial.queues object).counters = (itemSize, maxItems, 0, 0, 0))
    (small : payload + 39 < uint32Size) (inside : CopiesInside initial object payload) :
    itemSize * maxItems + 39 < uint32Size := by
  by_cases product : itemSize * maxItems < uint32Size
  · -- The last slot ends where the buffer should.
    obtain ⟨before, rfl⟩ : ∃ before, maxItems = before + 1 := ⟨maxItems - 1, by omega⟩
    have split : itemSize * (before + 1) = before * itemSize + itemSize := by ring
    have slot := inside.slot maxLt fresh (Nat.lt_add_one before) (by omega)
    omega
  · -- The last slot whose offset is below 2^32 ends behind every payload.
    have below : (uint32Size - 1) / itemSize < maxItems := by
      rw [Nat.div_lt_iff_lt_mul positive, Nat.mul_comm]
      unfold uint32Size at *
      omega
    have offsetLt := Nat.div_mul_le_self (uint32Size - 1) itemSize
    have slot := inside.slot maxLt fresh below (by unfold uint32Size at *; omega)
    have behind := Nat.lt_div_mul_add (a := uint32Size - 1) positive
    unfold uint32Size at *
    omega

theorem copiesInside_of_fits {payload : Nat} (consistent : (initial.queues object).Consistent)
    (enough : (initial.queues object).itemSize * (initial.queues object).maxItems ≤ payload) :
    CopiesInside initial object payload := by
  intro current run fuel action after events executed range copied
  obtain ⟨kept, itemSize, maxItems⟩ := consistent_of_reachable consistent run
  have slot := kept.copied_inside copied
  rw [itemSize, maxItems] at slot
  exact Nat.le_trans slot enough

end Runs

/-- On a heap of types 2 to 5, what the calls copy to and from a queue lies in the payload of its
buffer, in every run, exactly when the size of the buffer does not wrap around. -/
theorem queue_copies_inside_iff (heap : Heap) {start size type : Nat} (positive : 0 < start)
    (sizeLt : size < uint32Size) (addressLt : start + size < uintptrSize)
    (aligned : AlignedInside start size) (typed : heapType2 ≤ type ∧ type ≤ heapType5)
    {system : HeapSystem}
    (run : HeapSystem.Reachable ContainedCall (.init heap start size type) system)
    {fuel itemSize maxItems q : Nat} {after : Heap} {name : Option (List UInt8)}
    (itemLt : itemSize < uint32Size) (maxLt : maxItems < uint32Size)
    (created : queueCreate fuel system.heap itemSize maxItems name = some (q, after))
    (notNull : q ≠ 0) {initial : SyncSystem} {queue : Nat}
    (placed : QueueAt after.memory q (queueBuffer after.memory q) (initial.queues queue)) :
    CopiesInside initial queue (payloadSize after.memory (queueBuffer after.memory q)) ↔
      itemSize * maxItems + 39 < uint32Size := by
  obtain ⟨chain, invariant⟩ := heapInvariant_of_contained id
    (heapInvariant_init heap positive sizeLt addressLt aligned typed) run
  obtain ⟨itemsPositive, maxPositive, fresh⟩ :=
    invariant.freshQueue itemLt maxLt created notNull
  have isItem := placed.itemSize.symm.trans fresh.itemSize
  have isMax := placed.maxItems.symm.trans fresh.maxItems
  have isHead := placed.head.symm.trans fresh.head
  have isTail := placed.tail.symm.trans fresh.tail
  have isCount := placed.count.symm.trans fresh.count
  constructor
  · intro inside
    have counters : (initial.queues queue).counters = (itemSize, maxItems, 0, 0, 0) := by
      rw [Queue.counters, isItem, isMax, isHead, isTail, isCount]
    exact fits_of_copiesInside itemsPositive maxPositive maxLt counters fresh.small inside
  · intro fits
    have consistent : (initial.queues queue).Consistent :=
      { positive := isMax ▸ maxPositive
        bound := isMax ▸ maxLt
        fits := by
          rw [isItem, isMax]
          omega
        tail := by
          rw [isTail, isMax]
          exact maxPositive
        count := by
          rw [isCount]
          exact Nat.zero_le _
        head := by
          rw [isHead, isTail, isCount, Nat.zero_mod] }
    apply copiesInside_of_fits consistent
    rw [isItem, isMax]
    exact fresh.enough fits

/-- The queue that lies at an address. -/
def queueOf (memory : Memory) (q : Nat) : Queue where
  buffer := fun offset => memory (queueBuffer memory q + offset)
  itemSize := queueItemSize memory q
  maxItems := queueMaxItems memory q
  head := queueHead memory q
  tail := queueTail memory q
  count := queueCount memory q

theorem queueAt_queueOf {memory : Memory} {q : Nat} (senders : queueBlockedSenders memory q = 0)
    (receivers : queueBlockedReceivers memory q = 0) :
    QueueAt memory q (queueBuffer memory q) (queueOf memory q) where
  buffer := rfl
  itemSize := rfl
  maxItems := rfl
  head := rfl
  tail := rfl
  count := rfl
  senders := senders
  receivers := receivers
  bytes := fun _ _ => rfl

theorem queue_copies_inside_iff_three :
    ∃ q after, queueCreate 4 (HeapSystem.init staticHeap 4096 1024 heapType4).heap 2 3 none =
        some (q, after) ∧ q ≠ 0 ∧
      (CopiesInside { twoTasks with queues := fun _ => queueOf after.memory q } 0
          (payloadSize after.memory (queueBuffer after.memory q)) ↔ 2 * 3 + 39 < uint32Size) := by
  obtain ⟨⟨q, after⟩, created, notNull, senders, receivers⟩ :
      ∃ result ∈ queueCreate 4 (HeapSystem.init staticHeap 4096 1024 heapType4).heap 2 3 none,
        result.1 ≠ 0 ∧ queueBlockedSenders result.2.memory result.1 = 0 ∧
          queueBlockedReceivers result.2.memory result.1 = 0 := by
    decide +kernel
  have aligned : AlignedInside 4096 1024 := by
    unfold AlignedInside
    decide
  exact ⟨q, after, created, notNull,
    queue_copies_inside_iff staticHeap (by decide) (by decide) (by decide) aligned (by decide) .refl
      (by decide) (by decide) created notNull (queueAt_queueOf senders receivers)⟩

/-- A product of two more than four gigabytes gets a payload of eight bytes, and the third send
ends behind it. -/
theorem queue_copies_outside :
    ¬∀ q after, queueCreate 4 (HeapSystem.init staticHeap 4096 256 heapType4).heap 3 1431655766
        none = some (q, after) → q ≠ 0 →
      CopiesInside { twoTasks with queues := fun _ => queueOf after.memory q } 0
        (payloadSize after.memory (queueBuffer after.memory q)) := by
  intro holds
  obtain ⟨⟨q, after⟩, created, notNull, fresh, payload⟩ :
      ∃ result ∈ queueCreate 4 (HeapSystem.init staticHeap 4096 256 heapType4).heap 3 1431655766
          none,
        result.1 ≠ 0 ∧ (queueOf result.2.memory result.1).counters = (3, 1431655766, 0, 0, 0) ∧
          payloadSize result.2.memory (queueBuffer result.2.memory result.1) = 8 := by
    decide +kernel
  have inside := holds q after created notNull
  dsimp only at fresh payload
  rw [payload] at inside
  have third : 2 * 3 + 3 ≤ 8 := inside.slot (by decide) fresh (by decide) (by decide)
  omega

end Rtos

end MiniIotRobotEdge

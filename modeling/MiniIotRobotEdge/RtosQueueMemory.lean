import MiniIotRobotEdge.RtosMemoryHeap

/-!
# Message queues in the memory of mini-rtos

The calls of `ipc_queue.c` with a zero timeout, on a `queue_t` and a buffer
that `queue_create` has taken from the heap.  Both lie in the same memory as
everything else, and every field is read where the call reads it, so a buffer
that is too small or shared shows in the fields.  Structures are laid out for
64-bit pointers, and the null pointer is address zero.
-/

namespace MiniIotRobotEdge

namespace Rtos

/-- `sizeof(queue_t)`. -/
def queueStructSize : Nat := 80

section Fields

variable (memory : Memory) (q value : Nat)

def queueBuffer : Nat := memory.load q 8
def queueItemSize : Nat := memory.load (q + 8) 4
def queueMaxItems : Nat := memory.load (q + 12) 4
def queueHead : Nat := memory.load (q + 16) 4
def queueTail : Nat := memory.load (q + 20) 4
def queueCount : Nat := memory.load (q + 24) 4
def queueBlockedSenders : Nat := memory.load (q + 32) 8
def queueBlockedReceivers : Nat := memory.load (q + 40) 8

def setQueueBuffer : Memory := memory.store q 8 value
def setQueueItemSize : Memory := memory.store (q + 8) 4 value
def setQueueMaxItems : Memory := memory.store (q + 12) 4 value
def setQueueHead : Memory := memory.store (q + 16) 4 value
def setQueueTail : Memory := memory.store (q + 20) 4 value
def setQueueCount : Memory := memory.store (q + 24) 4 value
def setQueueIsrSafe : Memory := memory.store (q + 48) 1 value

end Fields

/-- `strncpy(q->name, name, 15); q->name[15] = '\0';` -/
def setQueueName (memory : Memory) (q : Nat) (name : List UInt8) : Memory :=
  memory.writeBytes (q + 49)
    ((List.range 15).map (fun index => name.getD index 0) ++ [0])

/-- `queue_create` returns the pointer and the new heap. -/
def queueCreate (fuel : Nat) (heap : Heap) (itemSize maxItems : Nat)
    (name : Option (List UInt8)) : Option (Nat × Heap) :=
  if itemSize = 0 ∨ maxItems = 0 then some (0, heap)
  else
    match mallocRtos fuel heap queueStructSize with
    | none => none
    | some (q, heap) =>
        if q = 0 then some (0, heap)
        else
          let heap := { heap with memory := heap.memory.fill q queueStructSize 0 }
          match mallocRtos fuel heap (itemSize * maxItems % uint32Size) with
          | none => none
          | some (buffer, heap) =>
              let memory := setQueueBuffer heap.memory q buffer
              if buffer = 0 then some (0, freeRtos { heap with memory := memory } q)
              else
                let memory := setQueueItemSize memory q itemSize
                let memory := setQueueMaxItems memory q maxItems
                let memory := setQueueIsrSafe memory q 1
                let memory :=
                  match name with
                  | none => memory
                  | some name => setQueueName memory q name
                some (q, { heap with memory := memory })

def queueIsFull (memory : Memory) (q : Nat) : Bool :=
  queueMaxItems memory q ≤ queueCount memory q

def queueIsEmpty (memory : Memory) (q : Nat) : Bool := queueCount memory q = 0

/-- The bytes that `memcpy` takes from the caller's item; those that the item
does not have are read as zero. -/
def itemBytes (itemSize : Nat) (data : List UInt8) : List UInt8 :=
  (List.range itemSize).map fun index => data.getD index 0

/-- The address of an item position; the product is a `uint32_t`. -/
def slotAddress (memory : Memory) (q position : Nat) : Nat :=
  queueBuffer memory q + position * queueItemSize memory q % uint32Size

def queueCopyIn (memory : Memory) (q : Nat) (data : List UInt8) : Memory :=
  let memory := memory.writeBytes (slotAddress memory q (queueHead memory q))
    (itemBytes (queueItemSize memory q) data)
  let memory := setQueueHead memory q
    ((queueHead memory q + 1) % uint32Size % queueMaxItems memory q)
  setQueueCount memory q ((queueCount memory q + 1) % uint32Size)

/-- The oldest item's bytes, as `queue_copy_out` and `queue_peek` copy them. -/
def oldestItem (memory : Memory) (q : Nat) : List UInt8 :=
  memory.bytes (slotAddress memory q (queueTail memory q)) (queueItemSize memory q)

/-- `queue_copy_out` after its copy. -/
def queueCopyOut (memory : Memory) (q : Nat) : Memory :=
  let memory := setQueueTail memory q
    ((queueTail memory q + 1) % uint32Size % queueMaxItems memory q)
  setQueueCount memory q ((queueCount memory q + (uint32Size - 1)) % uint32Size)

/-- The fields of a `struct tcb` that the queue writes. -/
def setTaskReady (memory : Memory) (task : Nat) : Memory :=
  (memory.store (task + 28) 4 0).store (task + 64) 8 0

def taskBlockNext (memory : Memory) (task : Nat) : Nat := memory.load (task + 72) 8

/-- `unblock_task_from_queue`, where `list` is the address of the list's head
pointer. -/
def unblockFromQueue (memory : Memory) (list : Nat) : Memory :=
  let task := memory.load list 8
  if task = 0 then memory
  else
    let memory := memory.store list 8 (taskBlockNext memory task)
    (setTaskReady memory task).store (task + 72) 8 0

/-- The loop of `queue_flush` over the blocked receivers. -/
def readyReceivers : Nat → Memory → Nat → Option Memory
  | _, memory, 0 => some memory
  | 0, _, _ + 1 => none
  | fuel + 1, memory, task =>
      readyReceivers fuel (setTaskReady memory task) (taskBlockNext memory task)

/-- The calls with a zero timeout. -/
inductive QueueOp
  | send (data : List UInt8)
  | sendFromIsr (data : List UInt8)
  | receive
  | receiveFromIsr
  | peek
  | reset
  | flush
  deriving DecidableEq, Repr

/-- What a call gives back: its result, the bytes it delivers, and the flag of
the interrupt variants.  `queue_reset` has no result. -/
structure QueueOutcome where
  result : Nat := 0
  delivered : Option (List UInt8) := none
  woken : Bool := false
  deriving DecidableEq, Repr

/-- `queue_send`, and `queue_send_from_isr` with its flag. -/
def queueSend (memory : Memory) (q : Nat) (data : List UInt8) (fromIsr : Bool) :
    Memory × QueueOutcome :=
  if queueIsFull memory q then (memory, { result := 0 })
  else
    let memory := queueCopyIn memory q data
    if queueBlockedReceivers memory q ≠ 0 then
      (unblockFromQueue memory (q + 40), { result := 1, woken := fromIsr })
    else (memory, { result := 1 })

/-- `queue_receive`, and `queue_receive_from_isr` with its flag. -/
def queueReceive (memory : Memory) (q : Nat) (fromIsr : Bool) : Memory × QueueOutcome :=
  if queueIsEmpty memory q then (memory, { result := 0 })
  else
    let delivered := oldestItem memory q
    let memory := queueCopyOut memory q
    if queueBlockedSenders memory q ≠ 0 then
      (unblockFromQueue memory (q + 32),
        { result := 1, delivered := some delivered, woken := fromIsr })
    else (memory, { result := 1, delivered := some delivered })

def queuePeek (memory : Memory) (q : Nat) : QueueOutcome :=
  if queueIsEmpty memory q then { result := 0 }
  else { result := 1, delivered := some (oldestItem memory q) }

def queueReset (memory : Memory) (q : Nat) : Memory :=
  setQueueCount (setQueueTail (setQueueHead memory q 0) q 0) q 0

/-- `queue_flush` on the queue at `q`. -/
def queueFlushAt (fuel : Nat) (memory : Memory) (q : Nat) : Option (Memory × QueueOutcome) :=
  let flushed := queueCount memory q
  let memory := queueReset memory q
  (readyReceivers fuel memory (queueBlockedReceivers memory q)).map fun memory =>
    (memory.store (q + 40) 8 0, { result := flushed })

def queueMessagesWaiting (memory : Memory) (q : Nat) : Nat := queueCount memory q

def queueSpacesAvailable (memory : Memory) (q : Nat) : Nat :=
  (queueMaxItems memory q + (uint32Size - queueCount memory q)) % uint32Size

def queueExec (fuel : Nat) (memory : Memory) (q : Nat) : QueueOp → Option (Memory × QueueOutcome)
  | .send data => some (queueSend memory q data false)
  | .sendFromIsr data => some (queueSend memory q data true)
  | .receive => some (queueReceive memory q false)
  | .receiveFromIsr => some (queueReceive memory q true)
  | .peek => some (memory, queuePeek memory q)
  | .reset => some (queueReset memory q, {})
  | .flush => queueFlushAt fuel memory q

/-- A sequence of calls, with what they give back. -/
def queueRun (fuel : Nat) (memory : Memory) (q : Nat) :
    List QueueOp → Option (Memory × List QueueOutcome)
  | [] => some (memory, [])
  | op :: rest =>
      (queueExec fuel memory q op).bind fun (memory, outcome) =>
        (queueRun fuel memory q rest).map fun (memory, outcomes) =>
          (memory, outcome :: outcomes)

end Rtos

end MiniIotRobotEdge

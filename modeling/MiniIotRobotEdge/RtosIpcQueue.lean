import MiniIotRobotEdge.RtosTaskScheduler

/-!
# Message queues of mini-rtos

The circular buffer of `ipc_queue.c`.  A queue owns the bytes from its buffer
pointer on; positions are computed in `uint32_t`.  The functions here are the
parts of the queue calls that run inside one critical section.
-/

namespace MiniIotRobotEdge

namespace Rtos

/-- `queue_t`, with `buffer offset` the byte at that offset of the buffer. -/
structure Queue where
  buffer : Nat → UInt8
  itemSize : Nat
  maxItems : Nat
  head : Nat := 0
  tail : Nat := 0
  count : Nat := 0
  blockedSenders : Option TaskId := none
  blockedReceivers : Option TaskId := none

namespace Queue

def isFull (queue : Queue) : Bool := queue.maxItems ≤ queue.count

def isEmpty (queue : Queue) : Bool := queue.count = 0

/-- The byte offset of an item position. -/
def offset (queue : Queue) (position : Nat) : Nat :=
  position * queue.itemSize % uint32Size

/-- The `item_size` bytes at an item position. -/
def itemAt (queue : Queue) (position : Nat) : List UInt8 :=
  (List.range queue.itemSize).map fun index =>
    queue.buffer (queue.offset position + index)

/-- `queue_copy_in`; bytes that the caller's item does not have are read as
zero. -/
def copyIn (queue : Queue) (data : List UInt8) : Queue :=
  { queue with
    buffer := fun address =>
      if queue.offset queue.head ≤ address ∧
          address < queue.offset queue.head + queue.itemSize then
        (data[address - queue.offset queue.head]?).getD 0
      else queue.buffer address
    head := (queue.head + 1) % uint32Size % queue.maxItems
    count := (queue.count + 1) % uint32Size }

/-- `queue_copy_out`: the bytes delivered and the queue afterwards. -/
def copyOut (queue : Queue) : List UInt8 × Queue :=
  (queue.itemAt queue.tail,
    { queue with
      tail := (queue.tail + 1) % uint32Size % queue.maxItems
      count := (queue.count + (uint32Size - 1)) % uint32Size })

/-- `queue_reset`. -/
def reset (queue : Queue) : Queue :=
  { queue with head := 0, tail := 0, count := 0 }

end Queue

end Rtos

end MiniIotRobotEdge

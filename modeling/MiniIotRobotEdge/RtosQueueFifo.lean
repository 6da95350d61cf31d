import MiniIotRobotEdge.CircularBuffer
import MiniIotRobotEdge.RtosIpcQueue
import MiniIotRobotEdge.RtosQueueMemory

/-!
# The message queue is a bounded list

A queue of `max_items` items is meant to be a list of at most that many items:
sends append to it and receives take its first element.  `Queue.exec` are the
calls with a zero timeout on a queue that owns its buffer; they are shown to
do what the list does.  `QueueAt` says that a queue in memory is such a queue,
which needs its structure and its buffer not to overlap.
-/

namespace MiniIotRobotEdge

namespace Rtos

open CircularBuffer

/-- The bounded list that a queue implements. -/
def fifoExec (itemSize capacity : Nat) (items : List (List UInt8)) :
    QueueOp → List (List UInt8) × QueueOutcome
  | .send data | .sendFromIsr data =>
      if items.length < capacity then (items ++ [itemBytes itemSize data], { result := 1 })
      else (items, { result := 0 })
  | .receive | .receiveFromIsr =>
      match items with
      | [] => ([], { result := 0 })
      | oldest :: rest => (rest, { result := 1, delivered := some oldest })
  | .peek =>
      match items with
      | [] => ([], { result := 0 })
      | oldest :: rest => (oldest :: rest, { result := 1, delivered := some oldest })
  | .reset => ([], {})
  | .flush => ([], { result := items.length })

def fifoRun (itemSize capacity : Nat) (items : List (List UInt8)) :
    List QueueOp → List (List UInt8) × List QueueOutcome
  | [] => (items, [])
  | op :: rest =>
      let (items, outcome) := fifoExec itemSize capacity items op
      let (items, outcomes) := fifoRun itemSize capacity items rest
      (items, outcome :: outcomes)

namespace Queue

/-- The calls on a queue that owns its buffer and has no blocked tasks. -/
def exec (queue : Queue) : QueueOp → Queue × QueueOutcome
  | .send data | .sendFromIsr data =>
      if queue.isFull then (queue, { result := 0 }) else (queue.copyIn data, { result := 1 })
  | .receive | .receiveFromIsr =>
      if queue.isEmpty then (queue, { result := 0 })
      else (queue.copyOut.2, { result := 1, delivered := some queue.copyOut.1 })
  | .peek =>
      if queue.isEmpty then (queue, { result := 0 })
      else (queue, { result := 1, delivered := some (queue.itemAt queue.tail) })
  | .reset => (queue.reset, {})
  | .flush => (queue.reset, { result := queue.count })

/-- The items of a queue, oldest first. -/
def items (queue : Queue) : List (List UInt8) :=
  contents queue.itemAt queue.maxItems queue.tail queue.count

/-- The counters of a queue are those of a circular buffer whose bytes can be
addressed. -/
structure Consistent (queue : Queue) : Prop where
  positive : 0 < queue.maxItems
  bound : queue.maxItems < uint32Size
  fits : queue.itemSize * queue.maxItems < uint32Size
  tail : queue.tail < queue.maxItems
  count : queue.count ≤ queue.maxItems
  head : queue.head = (queue.tail + queue.count) % queue.maxItems

variable {queue : Queue}

theorem Consistent.head_lt (consistent : queue.Consistent) : queue.head < queue.maxItems := by
  rw [consistent.head]
  exact Nat.mod_lt _ consistent.positive

/-- A slot ends before the buffer does. -/
theorem slot_le (itemSize : Nat) {position maxItems : Nat} (inside : position < maxItems) :
    position * itemSize + itemSize ≤ itemSize * maxItems := by
  calc position * itemSize + itemSize = itemSize * (position + 1) := by ring
    _ ≤ itemSize * maxItems := Nat.mul_le_mul_left _ inside

/-- Different slots do not overlap. -/
theorem slots_apart (itemSize : Nat) {first second : Nat} (differ : first < second) :
    first * itemSize + itemSize ≤ second * itemSize := by
  calc first * itemSize + itemSize = (first + 1) * itemSize := by ring
    _ ≤ second * itemSize := Nat.mul_le_mul_right _ differ

theorem Consistent.offset_eq (consistent : queue.Consistent) {position : Nat}
    (inside : position < queue.maxItems) : queue.offset position = position * queue.itemSize := by
  have room := slot_le queue.itemSize inside
  have fits := consistent.fits
  exact Nat.mod_eq_of_lt (by omega)

theorem itemAt_copyIn (queue : Queue) (data : List UInt8) (position : Nat) :
    (queue.copyIn data).itemAt position = (List.range queue.itemSize).map fun index =>
      if queue.offset queue.head ≤ queue.offset position + index ∧
          queue.offset position + index < queue.offset queue.head + queue.itemSize then
        (data[queue.offset position + index - queue.offset queue.head]?).getD 0
      else queue.buffer (queue.offset position + index) :=
  rfl

theorem itemAt_copyIn_self (queue : Queue) (data : List UInt8) :
    (queue.copyIn data).itemAt queue.head = itemBytes queue.itemSize data := by
  rw [itemAt_copyIn]
  apply List.map_congr_left
  intro index inside
  have bound := List.mem_range.mp inside
  rw [if_pos ⟨Nat.le_add_right _ _, Nat.add_lt_add_left bound _⟩, Nat.add_sub_cancel_left,
    List.getD_eq_getElem?_getD]

theorem Consistent.itemAt_copyIn_other (consistent : queue.Consistent) (data : List UInt8)
    {position : Nat} (inside : position < queue.maxItems) (differs : position ≠ queue.head) :
    (queue.copyIn data).itemAt position = queue.itemAt position := by
  rw [itemAt_copyIn]
  apply List.map_congr_left
  intro index isIndex
  have bound := List.mem_range.mp isIndex
  rw [consistent.offset_eq inside, consistent.offset_eq consistent.head_lt, if_neg]
  rcases Nat.lt_or_gt_of_ne differs with before | behind
  · have apart := slots_apart queue.itemSize before
    omega
  · have apart := slots_apart queue.itemSize behind
    omega

/-- A send appends its item. -/
theorem Consistent.copyIn (consistent : queue.Consistent) (space : queue.count < queue.maxItems)
    (data : List UInt8) : (queue.copyIn data).Consistent ∧
      (queue.copyIn data).items = queue.items ++ [itemBytes queue.itemSize data] := by
  have bound := consistent.bound
  have countEq : (queue.copyIn data).count = queue.count + 1 :=
    Nat.mod_eq_of_lt (by omega)
  have headEq : (queue.copyIn data).head = (queue.tail + (queue.count + 1)) % queue.maxItems := by
    have headLt := consistent.head_lt
    have noWrap : (queue.head + 1) % uint32Size = queue.head + 1 :=
      Nat.mod_eq_of_lt (by omega)
    change (queue.head + 1) % uint32Size % queue.maxItems = _
    rw [noWrap, consistent.head, Nat.mod_add_mod, Nat.add_assoc]
  refine ⟨⟨consistent.positive, bound, consistent.fits, consistent.tail, ?_, ?_⟩, ?_⟩
  · rw [countEq]
    exact space
  · rw [countEq]
    exact headEq
  · change contents (queue.copyIn data).itemAt queue.maxItems queue.tail
      (queue.copyIn data).count = _
    rw [countEq]
    refine contents_push space ?_ fun position inside differs => ?_
    · rw [← consistent.head]
      exact itemAt_copyIn_self queue data
    · rw [← consistent.head] at differs
      exact consistent.itemAt_copyIn_other data inside differs

/-- A receive takes the first item. -/
theorem Consistent.copyOut (consistent : queue.Consistent) (nonempty : 0 < queue.count) :
    queue.copyOut.2.Consistent ∧
      queue.items = queue.copyOut.1 :: queue.copyOut.2.items := by
  have bound := consistent.bound
  have full := consistent.count
  have tailLt := consistent.tail
  have countEq : queue.copyOut.2.count = queue.count - 1 := by
    change (queue.count + (uint32Size - 1)) % uint32Size = _
    unfold uint32Size at *
    omega
  have tailEq : queue.copyOut.2.tail = (queue.tail + 1) % queue.maxItems := by
    have noWrap : (queue.tail + 1) % uint32Size = queue.tail + 1 :=
      Nat.mod_eq_of_lt (by omega)
    change (queue.tail + 1) % uint32Size % queue.maxItems = _
    rw [noWrap]
  refine ⟨⟨consistent.positive, bound, consistent.fits, ?_, ?_, ?_⟩, ?_⟩
  · rw [tailEq]
    exact Nat.mod_lt _ consistent.positive
  · rw [countEq]
    exact Nat.le_trans (Nat.sub_le _ _) full
  · rw [tailEq, countEq]
    have sameHead : queue.tail + 1 + (queue.count - 1) = queue.tail + queue.count := by omega
    change queue.head = ((queue.tail + 1) % queue.maxItems + (queue.count - 1)) % queue.maxItems
    rw [consistent.head, Nat.mod_add_mod, sameHead]
  · change contents queue.itemAt queue.maxItems queue.tail queue.count =
      queue.itemAt queue.tail ::
        contents queue.itemAt queue.maxItems queue.copyOut.2.tail queue.copyOut.2.count
    rw [tailEq, countEq]
    exact contents_pop nonempty tailLt

theorem Consistent.reset (consistent : queue.Consistent) :
    queue.reset.Consistent ∧ queue.reset.items = [] := by
  refine ⟨⟨consistent.positive, consistent.bound, consistent.fits, consistent.positive,
    Nat.zero_le _, ?_⟩, rfl⟩
  exact (Nat.zero_mod _).symm

/-- A call leaves a consistent queue of the same shape and does what the
bounded list does. -/
structure DoesAsList (queue : Queue) (op : QueueOp) (after : Queue × QueueOutcome) : Prop where
  consistent : after.1.Consistent
  itemSize : after.1.itemSize = queue.itemSize
  maxItems : after.1.maxItems = queue.maxItems
  fifo : fifoExec queue.itemSize queue.maxItems queue.items op = (after.1.items, after.2)

theorem length_items (queue : Queue) : queue.items.length = queue.count :=
  length_contents

theorem items_eq_nil (empty : queue.count = 0) : queue.items = [] :=
  List.eq_nil_of_length_eq_zero (queue.length_items.trans empty)

theorem Consistent.send (consistent : queue.Consistent) (data : List UInt8) :
    DoesAsList queue (.send data) (queue.exec (.send data)) := by
  rw [Queue.exec]
  by_cases full : queue.maxItems ≤ queue.count
  · rw [if_pos (by simpa [isFull] using full)]
    refine ⟨consistent, rfl, rfl, ?_⟩
    rw [fifoExec, queue.length_items, if_neg (Nat.not_lt.mpr full)]
  · have space := Nat.lt_of_not_le full
    obtain ⟨stays, appended⟩ := consistent.copyIn space data
    rw [if_neg (by simpa [isFull] using space)]
    refine ⟨stays, rfl, rfl, ?_⟩
    rw [fifoExec, queue.length_items, if_pos space, appended]

theorem Consistent.receive (consistent : queue.Consistent) :
    DoesAsList queue .receive (queue.exec .receive) := by
  rw [Queue.exec]
  by_cases empty : queue.count = 0
  · rw [if_pos (by simpa [isEmpty] using empty)]
    refine ⟨consistent, rfl, rfl, ?_⟩
    rw [items_eq_nil empty]
    rfl
  · obtain ⟨stays, taken⟩ := consistent.copyOut (Nat.pos_of_ne_zero empty)
    rw [if_neg (by simpa [isEmpty] using empty)]
    refine ⟨stays, rfl, rfl, ?_⟩
    rw [taken]
    rfl

theorem Consistent.peek (consistent : queue.Consistent) :
    DoesAsList queue .peek (queue.exec .peek) := by
  rw [Queue.exec]
  by_cases empty : queue.count = 0
  · rw [if_pos (by simpa [isEmpty] using empty)]
    refine ⟨consistent, rfl, rfl, ?_⟩
    rw [items_eq_nil empty]
    rfl
  · obtain ⟨_, taken⟩ := consistent.copyOut (Nat.pos_of_ne_zero empty)
    rw [if_neg (by simpa [isEmpty] using empty)]
    refine ⟨consistent, rfl, rfl, ?_⟩
    rw [taken]
    rfl

/-- The calls on a queue do what the bounded list does. -/
theorem Consistent.exec (consistent : queue.Consistent) (op : QueueOp) :
    DoesAsList queue op (queue.exec op) := by
  cases op with
  | send data => exact consistent.send data
  | sendFromIsr data =>
      obtain ⟨stays, itemSize, maxItems, fifo⟩ := consistent.send data
      exact ⟨stays, itemSize, maxItems, fifo⟩
  | receive => exact consistent.receive
  | receiveFromIsr =>
      obtain ⟨stays, itemSize, maxItems, fifo⟩ := consistent.receive
      exact ⟨stays, itemSize, maxItems, fifo⟩
  | peek => exact consistent.peek
  | reset =>
      obtain ⟨stays, emptied⟩ := consistent.reset
      exact ⟨stays, rfl, rfl, by rw [fifoExec, Queue.exec, emptied]⟩
  | flush =>
      obtain ⟨stays, emptied⟩ := consistent.reset
      exact ⟨stays, rfl, rfl, by rw [fifoExec, Queue.exec, emptied, queue.length_items]⟩

end Queue

/-- The structure and the buffer of a queue do not overlap. -/
def QueueApart (q base size : Nat) : Prop :=
  q + queueStructSize ≤ base ∨ base + size ≤ q

/-- The queue at `q` in memory, with its buffer at `base`. -/
structure QueueAt (memory : Memory) (q base : Nat) (queue : Queue) : Prop where
  buffer : queueBuffer memory q = base
  itemSize : queueItemSize memory q = queue.itemSize
  maxItems : queueMaxItems memory q = queue.maxItems
  head : queueHead memory q = queue.head
  tail : queueTail memory q = queue.tail
  count : queueCount memory q = queue.count
  senders : queueBlockedSenders memory q = 0
  receivers : queueBlockedReceivers memory q = 0
  bytes : ∀ offset, offset < queue.itemSize * queue.maxItems →
    memory (base + offset) = queue.buffer offset

namespace QueueAt

variable {memory changed : Memory} {q base : Nat} {queue : Queue}

/-- The fields are read from the structure only. -/
theorem congr (placed : QueueAt memory q base queue)
    (same : ∀ address, q ≤ address → address < q + queueStructSize →
      changed address = memory address)
    {content : Nat → UInt8}
    (bytes : ∀ offset, offset < queue.itemSize * queue.maxItems →
      changed (base + offset) = content offset) :
    QueueAt changed q base { queue with buffer := content } := by
  have loads : ∀ offset width, offset + width ≤ queueStructSize →
      changed.load (q + offset) width = memory.load (q + offset) width := by
    intro offset width inside
    exact Memory.load_congr fun address lower upper => same address (by omega) (by omega)
  exact
    { buffer := (loads 0 8 (by decide)).trans placed.buffer
      itemSize := (loads 8 4 (by decide)).trans placed.itemSize
      maxItems := (loads 12 4 (by decide)).trans placed.maxItems
      head := (loads 16 4 (by decide)).trans placed.head
      tail := (loads 20 4 (by decide)).trans placed.tail
      count := (loads 24 4 (by decide)).trans placed.count
      senders := (loads 32 8 (by decide)).trans placed.senders
      receivers := (loads 40 8 (by decide)).trans placed.receivers
      bytes := bytes }

section Setters

variable (placed : QueueAt memory q base queue)
  (apart : QueueApart q base (queue.itemSize * queue.maxItems))
include placed apart

/-- A field of the structure is no part of the buffer. -/
theorem bytes_store {offset width value : Nat} (inside : offset + width ≤ queueStructSize)
    (index : Nat) (bound : index < queue.itemSize * queue.maxItems) :
    memory.store (q + offset) width value (base + index) = queue.buffer index := by
  unfold QueueApart at apart
  rw [Memory.store_outside (by omega)]
  exact placed.bytes index bound

/-- One of the three counters is assigned. -/
theorem storeCounter {offset value : Nat} (isCounter : offset = 16 ∨ offset = 20 ∨ offset = 24)
    (bound : value < uint32Size) :
    QueueAt (memory.store (q + offset) 4 value) q base
      { queue with
        head := if offset = 16 then value else queue.head
        tail := if offset = 20 then value else queue.tail
        count := if offset = 24 then value else queue.count } := by
  have fixed : ∀ other width, other + width ≤ offset ∨ offset + 4 ≤ other →
      (memory.store (q + offset) 4 value).load (q + other) width =
        memory.load (q + other) width := by
    intro other width elsewhere
    exact Memory.load_store_apart (by omega)
  have counter : ∀ other, other = 16 ∨ other = 20 ∨ other = 24 →
      (memory.store (q + offset) 4 value).load (q + other) 4 =
        if offset = other then value else memory.load (q + other) 4 := by
    intro other otherCounter
    split
    case isTrue same =>
      rw [same, Memory.load_store_self]
      exact Nat.mod_eq_of_lt bound
    case isFalse differs => exact fixed other 4 (by omega)
  exact
    { buffer := (fixed 0 8 (by omega)).trans placed.buffer
      itemSize := (fixed 8 4 (by omega)).trans placed.itemSize
      maxItems := (fixed 12 4 (by omega)).trans placed.maxItems
      head := by
        rw [queueHead, counter 16 (by simp), ← placed.head]
        rfl
      tail := by
        rw [queueTail, counter 20 (by simp), ← placed.tail]
        rfl
      count := by
        rw [queueCount, counter 24 (by simp), ← placed.count]
        rfl
      senders := (fixed 32 8 (by omega)).trans placed.senders
      receivers := (fixed 40 8 (by omega)).trans placed.receivers
      bytes := placed.bytes_store apart (by unfold queueStructSize; omega) }

theorem setHead {value : Nat} (bound : value < uint32Size) :
    QueueAt (setQueueHead memory q value) q base { queue with head := value } :=
  placed.storeCounter apart (.inl rfl) bound

theorem setTail {value : Nat} (bound : value < uint32Size) :
    QueueAt (setQueueTail memory q value) q base { queue with tail := value } :=
  placed.storeCounter apart (.inr (.inl rfl)) bound

theorem setCount {value : Nat} (bound : value < uint32Size) :
    QueueAt (setQueueCount memory q value) q base { queue with count := value } :=
  placed.storeCounter apart (.inr (.inr rfl)) bound

/-- `q->blocked_receivers = NULL;` -/
theorem clearReceivers : QueueAt (memory.store (q + 40) 8 0) q base queue := by
  have fixed : ∀ other width, other + width ≤ 40 →
      (memory.store (q + 40) 8 0).load (q + other) width = memory.load (q + other) width := by
    intro other width elsewhere
    exact Memory.load_store_apart (by omega)
  exact
    { buffer := (fixed 0 8 (by omega)).trans placed.buffer
      itemSize := (fixed 8 4 (by omega)).trans placed.itemSize
      maxItems := (fixed 12 4 (by omega)).trans placed.maxItems
      head := (fixed 16 4 (by omega)).trans placed.head
      tail := (fixed 20 4 (by omega)).trans placed.tail
      count := (fixed 24 4 (by omega)).trans placed.count
      senders := (fixed 32 8 (by omega)).trans placed.senders
      receivers := Memory.load_store_self 0
      bytes := placed.bytes_store apart (by decide) }

end Setters

theorem slotAddress_eq (placed : QueueAt memory q base queue) (position : Nat) :
    slotAddress memory q position = base + queue.offset position := by
  rw [slotAddress, placed.buffer, placed.itemSize]
  rfl

/-- A slot is a part of the buffer. -/
theorem slot_inside (consistent : queue.Consistent) {position : Nat}
    (inside : position < queue.maxItems) :
    queue.offset position + queue.itemSize ≤ queue.itemSize * queue.maxItems := by
  rw [consistent.offset_eq inside]
  exact Queue.slot_le queue.itemSize inside

theorem oldestItem_eq (placed : QueueAt memory q base queue) (consistent : queue.Consistent) :
    oldestItem memory q = queue.itemAt queue.tail := by
  have room := slot_inside consistent consistent.tail
  rw [oldestItem, placed.slotAddress_eq, placed.itemSize, placed.tail]
  apply List.map_congr_left
  intro index isIndex
  have bound := List.mem_range.mp isIndex
  rw [Nat.add_assoc]
  exact placed.bytes _ (by omega)

theorem copyIn (placed : QueueAt memory q base queue)
    (apart : QueueApart q base (queue.itemSize * queue.maxItems))
    (consistent : queue.Consistent) (data : List UInt8) :
    QueueAt (queueCopyIn memory q data) q base (queue.copyIn data) := by
  have room := slot_inside consistent consistent.head_lt
  have length : (itemBytes queue.itemSize data).length = queue.itemSize := by simp [itemBytes]
  have written : QueueAt (memory.writeBytes (base + queue.offset queue.head)
      (itemBytes queue.itemSize data)) q base
      { queue with buffer := (queue.copyIn data).buffer } := by
    refine placed.congr (fun address lower upper => ?_) fun offset bound => ?_
    · unfold QueueApart at apart
      exact Memory.writeBytes_outside (by omega)
    · change (if _ then _ else _) = if _ then _ else _
      rw [length]
      by_cases inSlot : queue.offset queue.head ≤ offset ∧
          offset < queue.offset queue.head + queue.itemSize
      · rw [if_pos (by omega), if_pos inSlot, Nat.add_sub_add_left]
        simp only [itemBytes, List.getD_eq_getElem?_getD]
        rw [List.getElem?_map, List.getElem?_range (by omega)]
        rfl
      · rw [if_neg (by omega), if_neg inSlot]
        exact placed.bytes offset bound
  have headBound : (queue.head + 1) % uint32Size % queue.maxItems < uint32Size :=
    Nat.lt_trans (Nat.mod_lt _ consistent.positive) consistent.bound
  have countBound : (queue.count + 1) % uint32Size < uint32Size :=
    Nat.mod_lt _ (by decide)
  have counted := (written.setHead apart headBound).setCount apart countBound
  unfold queueCopyIn
  rw [placed.slotAddress_eq, placed.head, placed.itemSize]
  dsimp only
  rw [written.head, written.maxItems, (written.setHead apart headBound).count]
  exact counted

theorem copyOut (placed : QueueAt memory q base queue)
    (apart : QueueApart q base (queue.itemSize * queue.maxItems))
    (consistent : queue.Consistent) :
    QueueAt (queueCopyOut memory q) q base queue.copyOut.2 := by
  have tailBound : (queue.tail + 1) % uint32Size % queue.maxItems < uint32Size :=
    Nat.lt_trans (Nat.mod_lt _ consistent.positive) consistent.bound
  have countBound : (queue.count + (uint32Size - 1)) % uint32Size < uint32Size :=
    Nat.mod_lt _ (by decide)
  have moved := placed.setTail apart tailBound
  have counted := moved.setCount apart countBound
  unfold queueCopyOut
  rw [placed.tail, placed.maxItems]
  dsimp only
  rw [moved.count]
  exact counted

theorem reset (placed : QueueAt memory q base queue)
    (apart : QueueApart q base (queue.itemSize * queue.maxItems)) :
    QueueAt (queueReset memory q) q base queue.reset := by
  have zero : 0 < uint32Size := by decide
  have headed := placed.setHead apart zero
  have tailed := headed.setTail apart zero
  exact tailed.setCount apart zero

theorem isFull_eq (placed : QueueAt memory q base queue) :
    queueIsFull memory q = queue.isFull := by
  rw [queueIsFull, placed.maxItems, placed.count]
  rfl

theorem isEmpty_eq (placed : QueueAt memory q base queue) :
    queueIsEmpty memory q = queue.isEmpty := by
  rw [queueIsEmpty, placed.count]
  rfl

theorem send (placed : QueueAt memory q base queue)
    (apart : QueueApart q base (queue.itemSize * queue.maxItems))
    (consistent : queue.Consistent) (data : List UInt8) (fromIsr : Bool) :
    ∃ after, queueSend memory q data fromIsr = (after, (queue.exec (.send data)).2) ∧
      QueueAt after q base (queue.exec (.send data)).1 := by
  rw [queueSend, placed.isFull_eq, Queue.exec]
  split
  · exact ⟨memory, rfl, placed⟩
  · have copied := placed.copyIn apart consistent data
    dsimp only
    rw [if_neg (not_not.mpr copied.receivers)]
    exact ⟨_, rfl, copied⟩

theorem receive (placed : QueueAt memory q base queue)
    (apart : QueueApart q base (queue.itemSize * queue.maxItems))
    (consistent : queue.Consistent) (fromIsr : Bool) :
    ∃ after, queueReceive memory q fromIsr = (after, (queue.exec .receive).2) ∧
      QueueAt after q base (queue.exec .receive).1 := by
  rw [queueReceive, placed.isEmpty_eq, Queue.exec]
  split
  · exact ⟨memory, rfl, placed⟩
  · have copied := placed.copyOut apart consistent
    dsimp only
    rw [if_neg (not_not.mpr copied.senders), placed.oldestItem_eq consistent]
    exact ⟨_, rfl, copied⟩

/-- The calls on a queue in memory do what they do on a queue that owns its
buffer. -/
theorem exec (placed : QueueAt memory q base queue)
    (apart : QueueApart q base (queue.itemSize * queue.maxItems))
    (consistent : queue.Consistent) (fuel : Nat) (op : QueueOp) :
    ∃ after, queueExec fuel memory q op = some (after, (queue.exec op).2) ∧
      QueueAt after q base (queue.exec op).1 := by
  cases op with
  | send data =>
      obtain ⟨after, sent, stays⟩ := placed.send apart consistent data false
      exact ⟨after, congrArg some sent, stays⟩
  | sendFromIsr data =>
      obtain ⟨after, sent, stays⟩ := placed.send apart consistent data true
      exact ⟨after, congrArg some sent, stays⟩
  | receive =>
      obtain ⟨after, received, stays⟩ := placed.receive apart consistent false
      exact ⟨after, congrArg some received, stays⟩
  | receiveFromIsr =>
      obtain ⟨after, received, stays⟩ := placed.receive apart consistent true
      exact ⟨after, congrArg some received, stays⟩
  | peek =>
      rw [queueExec, queuePeek, placed.isEmpty_eq, placed.oldestItem_eq consistent, Queue.exec]
      split
      · exact ⟨memory, rfl, placed⟩
      · exact ⟨memory, rfl, placed⟩
  | reset => exact ⟨_, rfl, placed.reset apart⟩
  | flush =>
      have emptied := placed.reset apart
      refine ⟨(queueReset memory q).store (q + 40) 8 0, ?_, emptied.clearReceivers apart⟩
      rw [queueExec, queueFlushAt, emptied.receivers, placed.count, readyReceivers]
      rfl

/-- A sequence of calls on a queue in memory gives back what the same sequence
gives back on the bounded list. -/
theorem run (placed : QueueAt memory q base queue)
    (apart : QueueApart q base (queue.itemSize * queue.maxItems))
    (consistent : queue.Consistent) (fuel : Nat) (ops : List QueueOp) :
    ∃ after last, queueRun fuel memory q ops =
        some (after, (fifoRun queue.itemSize queue.maxItems queue.items ops).2) ∧
      QueueAt after q base last ∧ last.Consistent ∧ last.maxItems = queue.maxItems ∧
      last.items = (fifoRun queue.itemSize queue.maxItems queue.items ops).1 := by
  induction ops generalizing memory queue with
  | nil => exact ⟨memory, queue, rfl, placed, consistent, rfl, rfl⟩
  | cons op rest ih =>
      obtain ⟨next, executed, stays⟩ := placed.exec apart consistent fuel op
      obtain ⟨consistentNext, itemSize, maxItems, fifo⟩ := consistent.exec op
      have apartNext : QueueApart q base
          ((queue.exec op).1.itemSize * (queue.exec op).1.maxItems) := by
        rw [itemSize, maxItems]
        exact apart
      obtain ⟨after, last, ran, placedLast, consistentLast, lastItems, isItems⟩ :=
        ih stays apartNext consistentNext
      rw [itemSize, maxItems] at ran isItems
      refine ⟨after, last, ?_, placedLast, consistentLast, lastItems.trans maxItems, ?_⟩
      · rw [queueRun, executed, fifoRun, fifo]
        dsimp only [Option.bind_some]
        rw [ran]
        rfl
      · rw [fifoRun, fifo]
        exact isItems

end QueueAt

end Rtos

end MiniIotRobotEdge

import MiniIotRobotEdge.CircularBuffer
import MiniIotRobotEdge.RangeLoop
import MiniIotRobotEdge.StepRuns

/-!
# The ring buffer of mini-edge-ai

The model of the ring buffer in `edge_pipeline.c`.  Its bytes from the tail on
are a queue of bounded length: a write appends all of its bytes or none, and a
read takes the oldest bytes, as many as there are.
-/

namespace MiniIotRobotEdge

namespace Ai

open AnsweredRuns CircularBuffer

def ringbufCapacity : Nat := 4096

structure RingBuffer where
  buf : Nat → UInt8
  head : Nat
  tail : Nat
  count : Nat

/-- The bytes are left as they are. -/
def ringbufInit (rb : RingBuffer) : RingBuffer := { rb with head := 0, tail := 0, count := 0 }

/-- One turn of the loop of `ringbuf_write`. -/
def ringbufPut (src : Nat → UInt8) (rb : RingBuffer) (i : Nat) : RingBuffer :=
  { rb with
    buf := Function.update rb.buf rb.head (src i)
    head := (rb.head + 1) % ringbufCapacity }

/-- The source is the memory behind the pointer. -/
def ringbufWrite (rb : RingBuffer) (data : Nat → UInt8) (bytes : Int) : RingBuffer × Int :=
  if bytes ≤ 0 then (rb, -1)
  else if (ringbufCapacity : Int) - rb.count < bytes then (rb, -1)
  else
    let rb := (List.range bytes.toNat).foldl (ringbufPut data) rb
    ({ rb with count := rb.count + bytes.toNat }, bytes)

/-- One turn of the loop of `ringbuf_read`, with the bytes delivered so far. -/
def ringbufTake (state : RingBuffer × List UInt8) (_ : Nat) : RingBuffer × List UInt8 :=
  ({ state.1 with tail := (state.1.tail + 1) % ringbufCapacity },
    state.2 ++ [state.1.buf state.1.tail])

/-- The result comes with the bytes that were delivered. -/
def ringbufRead (rb : RingBuffer) (bytes : Int) : RingBuffer × Int × List UInt8 :=
  if bytes ≤ 0 then (rb, -1, [])
  else
    let bytes := if (rb.count : Int) < bytes then (rb.count : Int) else bytes
    let (rb, dst) := (List.range bytes.toNat).foldl ringbufTake (rb, [])
    ({ rb with count := rb.count - bytes.toNat }, bytes, dst)

def ringbufAvailable (rb : RingBuffer) : Nat := rb.count

def ringbufFreeSpace (rb : RingBuffer) : Nat := ringbufCapacity - rb.count

inductive RingCall
  | write (data : Nat → UInt8) (bytes : Int)
  | read (bytes : Int)

/-- A call, with its result and the bytes that it delivers. -/
def ringCall (rb : RingBuffer) : RingCall → RingBuffer × Int × List UInt8
  | .write data bytes => ((ringbufWrite rb data bytes).1, (ringbufWrite rb data bytes).2, [])
  | .read bytes => ringbufRead rb bytes

/-- The same calls on a queue of bounded length. -/
def fifoCall (queue : List UInt8) : RingCall → List UInt8 × Int × List UInt8
  | .write data bytes =>
      if 0 < bytes ∧ queue.length + bytes ≤ ringbufCapacity then
        (queue ++ (List.range bytes.toNat).map data, bytes, [])
      else (queue, -1, [])
  | .read bytes =>
      if 0 < bytes then
        (queue.drop bytes.toNat, min bytes queue.length, queue.take bytes.toNat)
      else (queue, -1, [])

/-- The buffer holds a queue. -/
structure HoldsQueue (rb : RingBuffer) (queue : List UInt8) : Prop where
  head : rb.head = (rb.tail + rb.count) % ringbufCapacity
  tail : rb.tail < ringbufCapacity
  count : rb.count ≤ ringbufCapacity
  bytes : contents rb.buf ringbufCapacity rb.tail rb.count = queue

variable {rb : RingBuffer} {queue : List UInt8}

theorem holdsQueue_ringbufInit (rb : RingBuffer) : HoldsQueue (ringbufInit rb) [] where
  head := rfl
  tail := show 0 < ringbufCapacity by decide
  count := Nat.zero_le _
  bytes := rfl

theorem HoldsQueue.length (holds : HoldsQueue rb queue) : queue.length = rb.count := by
  rw [← holds.bytes, length_contents]

/-- One byte more behind the others. -/
theorem HoldsQueue.put (holds : HoldsQueue rb queue) (space : rb.count < ringbufCapacity)
    (src : Nat → UInt8) (i : Nat) :
    HoldsQueue { ringbufPut src rb i with count := rb.count + 1 } (queue ++ [src i]) where
  head := by
    dsimp only [ringbufPut]
    rw [holds.head, Nat.mod_add_mod, Nat.add_assoc]
  tail := holds.tail
  count := space
  bytes := by
    rw [← holds.bytes]
    apply contents_push space
    · dsimp only [ringbufPut]
      rw [← holds.head, Function.update_self]
    · intro position _ other
      dsimp only [ringbufPut] at other ⊢
      rw [← holds.head] at other
      rw [Function.update_of_ne other]

/-- The loop of a write that fits. -/
theorem HoldsQueue.write (holds : HoldsQueue rb queue) (src : Nat → UInt8) {count : Nat}
    (space : rb.count + count ≤ ringbufCapacity) :
    ((List.range count).foldl (ringbufPut src) rb).count = rb.count ∧
      HoldsQueue { (List.range count).foldl (ringbufPut src) rb with count := rb.count + count }
        (queue ++ (List.range count).map src) := by
  induction count with
  | zero => exact ⟨rfl, by simpa using holds⟩
  | succ count ih =>
      obtain ⟨kept, before⟩ := ih (by omega)
      have next := before.put (by dsimp only; omega) src count
      rw [List.range_succ, List.foldl_append, List.map_append, ← List.append_assoc]
      exact ⟨kept, next⟩

/-- The loop of a read of bytes that are there. -/
theorem HoldsQueue.read (holds : HoldsQueue rb queue) {count : Nat} (stored : count ≤ rb.count) :
    ((List.range count).foldl ringbufTake (rb, [])).1.count = rb.count ∧
      HoldsQueue { ((List.range count).foldl ringbufTake (rb, [])).1 with
        count := rb.count - count } (queue.drop count) ∧
      ((List.range count).foldl ringbufTake (rb, [])).2 = queue.take count := by
  induction count with
  | zero => exact ⟨rfl, by simpa using holds, rfl⟩
  | succ count ih =>
      obtain ⟨kept, before, delivered⟩ := ih (by omega)
      rw [List.range_succ, List.foldl_append, List.foldl_cons, List.foldl_nil]
      generalize (List.range count).foldl ringbufTake (rb, []) = state at kept before delivered
      have front : queue.drop count = state.1.buf state.1.tail ::
          contents state.1.buf ringbufCapacity ((state.1.tail + 1) % ringbufCapacity)
            (rb.count - count - 1) := by
        rw [← before.bytes]
        exact contents_pop (Nat.sub_pos_of_lt stored) before.tail
      have rest : queue.drop (count + 1) = contents state.1.buf ringbufCapacity
          ((state.1.tail + 1) % ringbufCapacity) (rb.count - (count + 1)) := by
        rw [← List.tail_drop, front, List.tail_cons, Nat.sub_sub]
      refine ⟨kept, ⟨?_, ?_, ?_, rest.symm⟩, ?_⟩
      · have head := before.head
        dsimp only [ringbufTake] at head ⊢
        rw [head, Nat.mod_add_mod]
        congr 1
        omega
      · exact Nat.mod_lt _ (by decide)
      · exact (Nat.sub_le _ _).trans holds.count
      · have here : queue[count]? = some (state.1.buf state.1.tail) := by
          rw [← List.head?_drop, front, List.head?_cons]
        dsimp only [ringbufTake]
        rw [delivered, List.take_add_one, here, Option.toList_some]

/-- A call does to the buffer what it does to the queue, with the same answer. -/
theorem ringCall_simulates : Simulates ringCall
    (fun queue call answer next => fifoCall queue call = (next, answer)) HoldsQueue := by
  intro rb queue call holds
  have length := holds.length
  have bound := holds.count
  cases call with
  | write data bytes =>
      simp only [fifoCall, ringCall, ringbufWrite]
      by_cases positive : bytes ≤ 0
      · rw [if_pos positive, if_neg (by omega)]
        exact ⟨queue, rfl, holds⟩
      · rw [if_neg positive]
        by_cases full : (ringbufCapacity : Int) - rb.count < bytes
        · rw [if_pos full, if_neg (by omega)]
          exact ⟨queue, rfl, holds⟩
        · have written := (holds.write data (show rb.count + bytes.toNat ≤ ringbufCapacity by omega))
          rw [if_neg full, if_pos (by omega)]
          refine ⟨_, rfl, ?_⟩
          dsimp only
          rw [written.1]
          exact written.2
  | read bytes =>
      simp only [fifoCall, ringCall, ringbufRead]
      by_cases positive : bytes ≤ 0
      · rw [if_pos positive, if_neg (by omega)]
        exact ⟨queue, rfl, holds⟩
      · rw [if_neg positive, if_pos (by omega)]
        have amount : (if (rb.count : Int) < bytes then (rb.count : Int) else bytes) =
            min bytes queue.length := by
          rw [length]
          split <;> omega
        have stored : (min bytes queue.length).toNat ≤ rb.count := by omega
        obtain ⟨kept, remains, delivered⟩ := holds.read stored
        have count : (min bytes queue.length).toNat = min bytes.toNat queue.length := by omega
        have dropped : queue.drop (min bytes queue.length).toNat = queue.drop bytes.toNat := by
          rw [count, ← List.drop_eq_drop_min]
        have taken : queue.take (min bytes queue.length).toNat = queue.take bytes.toNat := by
          rw [count, ← List.take_eq_take_min]
        rw [amount]
        refine ⟨queue.drop bytes.toNat, ?_, ?_⟩
        · rw [← taken, ← delivered]
        · rw [← dropped]
          dsimp only
          rw [kept]
          exact remains

/-- In every run the answers are those of the queue, and what is stored and what is
free make up the capacity. -/
theorem ringbuf_refines_fifo (rb : RingBuffer) (calls : List RingCall) :
    let last := (run ringCall (ringbufInit rb) calls).1
    (run ringCall (ringbufInit rb) calls).2 = (run fifoCall [] calls).2 ∧
      ringbufAvailable last = (run fifoCall [] calls).1.length ∧
      ringbufAvailable last + ringbufFreeSpace last = ringbufCapacity := by
  obtain ⟨queue, permits, holds⟩ := ringCall_simulates.run (holdsQueue_ringbufInit rb) calls
  have fifo := permits_run permits
  dsimp only
  rw [fifo]
  refine ⟨rfl, holds.length.symm, ?_⟩
  rw [ringbufAvailable, ringbufFreeSpace]
  exact Nat.add_sub_cancel' holds.count

end Ai

end MiniIotRobotEdge

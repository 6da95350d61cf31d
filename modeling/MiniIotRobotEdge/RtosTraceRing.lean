import Mathlib.Data.List.TakeWhile
import MiniIotRobotEdge.CircularBuffer
import MiniIotRobotEdge.RtosTaskScheduler
import MiniIotRobotEdge.StepRuns

/-!
# The trace ring of mini-rtos

The model of the ring buffer of `trace_diag.c`.  The events since the last `trace_clear` are a
log; the ring retains its end, and `trace_dump` copies that end in the order of the log.
-/

namespace MiniIotRobotEdge

namespace Rtos

open CircularBuffer StepRuns

def traceBufSize : Nat := 256

def traceEventMaxText : Nat := 32

inductive TraceEventType
  | taskCreate
  | taskDelete
  | taskSwitch
  | taskBlock
  | taskReady
  | isrEnter
  | isrExit
  | queueSend
  | queueRecv
  | semTake
  | semGive
  | mutexLock
  | mutexUnlock
  | timerFire
  | heapAlloc
  | heapFree
  | overflow
  | userEvent
  deriving DecidableEq, Repr

/-- `trace_event_t`; `text` stands for the array of characters. -/
structure TraceEvent where
  tick : UInt32
  type : TraceEventType
  taskId : UInt32
  arg : UInt32
  text : Nat → UInt8

structure TraceRing where
  traceBuf : Nat → TraceEvent
  traceWriteIdx : Nat
  traceEventTotal : Nat
  traceOverflowCount : Nat

/-- The array that `strncpy` and the final zero make from a string of C. -/
def traceText (text : List UInt8) (i : Nat) : UInt8 :=
  if i < traceEventMaxText - 1 then (text.takeWhile (· ≠ 0)).getD i 0 else 0

namespace TraceRing

/-- The state behind `trace_init` and behind `trace_clear`. -/
def traceInit : TraceRing where
  traceBuf := fun _ =>
    { tick := 0, type := .taskCreate, taskId := 0, arg := 0, text := fun _ => 0 }
  traceWriteIdx := 0
  traceEventTotal := 0
  traceOverflowCount := 0

/-- The text array of the slot that the next event is written to. -/
def nextText (ring : TraceRing) : Nat → UInt8 := (ring.traceBuf ring.traceWriteIdx).text

/-- What the two functions that write an event have in common. -/
def write (ring : TraceRing) (event : TraceEvent) : TraceRing :=
  let idx := ring.traceWriteIdx
  let total := (ring.traceEventTotal + 1) % uint32Size
  { traceBuf := Function.update ring.traceBuf idx event
    traceWriteIdx := (idx + 1) % traceBufSize
    traceEventTotal := total
    traceOverflowCount :=
      if traceBufSize * 2 < total then (ring.traceOverflowCount + 1) % uint32Size
      else ring.traceOverflowCount }

def traceEvent (ring : TraceRing) (tick : UInt32) (type : TraceEventType) (taskId arg : UInt32) :
    TraceRing :=
  ring.write ⟨tick, type, taskId, arg, Function.update ring.nextText 0 0⟩

def traceEventText (ring : TraceRing) (tick : UInt32) (type : TraceEventType)
    (taskId arg : UInt32) (text : Option (List UInt8)) : TraceRing :=
  match text with
  | some text => ring.write ⟨tick, type, taskId, arg, traceText text⟩
  | none => ring.write ⟨tick, type, taskId, arg, Function.update ring.nextText 0 0⟩

/-- The loop of `trace_dump`, with the number of turns up to `count` that are left. -/
def dumpLoop (ring : TraceRing) (startIdx maxEvents : Nat) :
    Nat → Nat → Nat → (Nat → TraceEvent) → Nat × (Nat → TraceEvent)
  | 0, _, copied, buf => (copied, buf)
  | left + 1, i, copied, buf =>
      if copied < maxEvents then
        let idx := (startIdx + i) % traceBufSize
        dumpLoop ring startIdx maxEvents left (i + 1) (copied + 1)
          (Function.update buf copied (ring.traceBuf idx))
      else (copied, buf)

/-- The result, and the array of the caller. -/
def traceDump (ring : TraceRing) (buf : Nat → TraceEvent) (maxEvents : Nat) :
    Nat × (Nat → TraceEvent) :=
  let count := if traceBufSize < ring.traceEventTotal then traceBufSize else ring.traceEventTotal
  let count := if maxEvents < count then maxEvents else count
  let startIdx := if ring.traceEventTotal ≤ traceBufSize then 0 else ring.traceWriteIdx
  dumpLoop ring startIdx maxEvents count 0 0 buf

end TraceRing

/-- The calls that change the ring, with the tick at which they are made. -/
inductive TraceCall
  | event (tick : UInt32) (type : TraceEventType) (taskId arg : UInt32)
  | eventText (tick : UInt32) (type : TraceEventType) (taskId arg : UInt32)
      (text : Option (List UInt8))
  | clear

def TraceRing.exec (ring : TraceRing) : TraceCall → TraceRing
  | .event tick type taskId arg => ring.traceEvent tick type taskId arg
  | .eventText tick type taskId arg text => ring.traceEventText tick type taskId arg text
  | .clear => .traceInit

/-- An event as its reader sees it. -/
structure TraceRecord where
  tick : UInt32
  type : TraceEventType
  taskId : UInt32
  arg : UInt32
  text : List UInt8
  deriving DecidableEq, Repr

/-- The string of C in a text array. -/
def cString (text : Nat → UInt8) : List UInt8 :=
  ((List.range traceEventMaxText).map text).takeWhile (· ≠ 0)

def TraceEvent.shown (event : TraceEvent) : TraceRecord :=
  ⟨event.tick, event.type, event.taskId, event.arg, cString event.text⟩

/-- The event that a call records; texts are cut after 31 characters. -/
def TraceCall.record : TraceCall → Option TraceRecord
  | .event tick type taskId arg => some ⟨tick, type, taskId, arg, []⟩
  | .eventText tick type taskId arg text =>
      some ⟨tick, type, taskId, arg,
        ((text.getD []).takeWhile (· ≠ 0)).take (traceEventMaxText - 1)⟩
  | .clear => none

/-- The events since the ring was cleared last. -/
def traceLog (calls : List TraceCall) : List TraceRecord :=
  calls.foldl (fun log call => match call.record with
    | some record => log ++ [record]
    | none => []) []

theorem cString_eq {text : Nat → UInt8} {characters : List UInt8}
    (noZero : ∀ character ∈ characters, character ≠ 0)
    (short : characters.length < traceEventMaxText)
    (isText : ∀ i, i < traceEventMaxText → text i = characters.getD i 0) :
    cString text = characters := by
  have array : (List.range traceEventMaxText).map text =
      characters ++ 0 :: List.replicate (traceEventMaxText - characters.length - 1) 0 := by
    apply List.ext_getElem
    · simp only [List.length_map, List.length_range, List.length_append, List.length_cons,
        List.length_replicate]
      omega
    · intro i inside _
      rw [List.length_map, List.length_range] at inside
      rw [List.getElem_map, List.getElem_range, isText i inside, List.getElem_append]
      split
      case isTrue before => exact List.getElem_eq_getD 0 |>.symm
      case isFalse behind =>
        rw [List.getD_eq_getElem?_getD, List.getElem?_eq_none (by omega), Option.getD_none,
          List.getElem_cons]
        split
        · rfl
        · rw [List.getElem_replicate]
  have first : List.takeWhile (· ≠ 0)
      ((0 : UInt8) :: List.replicate (traceEventMaxText - characters.length - 1) 0) = [] :=
    List.takeWhile_cons_of_neg (by simp)
  rw [cString, array, List.takeWhile_append_of_pos (by simpa using noZero), first,
    List.append_nil]

theorem cString_traceText (text : List UInt8) :
    cString (traceText text) =
      (text.takeWhile (· ≠ 0)).take (traceEventMaxText - 1) := by
  apply cString_eq
  · intro character isCharacter
    simpa using List.mem_takeWhile_imp (List.mem_of_mem_take isCharacter)
  · rw [List.length_take]
    exact Nat.lt_of_le_of_lt (Nat.min_le_left _ _) (by decide)
  · intro i _
    rw [traceText, List.getD_eq_getElem?_getD, List.getD_eq_getElem?_getD, List.getElem?_take]
    split <;> rfl

theorem cString_cut (text : Nat → UInt8) : cString (Function.update text 0 0) = [] := by
  rw [cString, traceEventMaxText, List.range_succ_eq_map, List.map_cons, Function.update_self]
  exact List.takeWhile_cons_of_neg (by simp)

namespace TraceRing

variable {ring : TraceRing} {log : List TraceRecord}

/-- The ring shows the end of a log. -/
structure Holds (ring : TraceRing) (log : List TraceRecord) : Prop where
  retains : Retains (fun position => (ring.traceBuf position).shown) traceBufSize log
  writeIdx : ring.traceWriteIdx = log.length % traceBufSize
  total : ring.traceEventTotal = log.length % uint32Size

theorem holds_traceInit : traceInit.Holds [] :=
  ⟨.nil, rfl, rfl⟩

theorem Holds.write (holds : ring.Holds log) (event : TraceEvent) :
    (ring.write event).Holds (log ++ [event.shown]) := by
  obtain ⟨retains, writeIdx, total⟩ := holds
  refine ⟨?_, ?_, ?_⟩
  · refine retains.push (by decide) ?_ fun position _ differs => ?_
    · simp only [TraceRing.write, ← writeIdx, Function.update_self]
    · simp only [TraceRing.write, writeIdx, Function.update_of_ne differs]
  · simp only [TraceRing.write, writeIdx, List.length_append, List.length_singleton,
      Nat.mod_add_mod]
  · simp only [TraceRing.write, total, List.length_append, List.length_singleton,
      Nat.mod_add_mod]

theorem Holds.exec (holds : ring.Holds log) (call : TraceCall) :
    (ring.exec call).Holds (match call.record with
      | some record => log ++ [record]
      | none => []) := by
  cases call with
  | clear => exact holds_traceInit
  | event tick type taskId arg =>
      have written := holds.write ⟨tick, type, taskId, arg, Function.update ring.nextText 0 0⟩
      rw [TraceEvent.shown, cString_cut] at written
      exact written
  | eventText tick type taskId arg text =>
      cases text with
      | none =>
          have written := holds.write ⟨tick, type, taskId, arg, Function.update ring.nextText 0 0⟩
          rw [TraceEvent.shown, cString_cut] at written
          exact written
      | some text =>
          have written := holds.write ⟨tick, type, taskId, arg, traceText text⟩
          rw [TraceEvent.shown, cString_traceText] at written
          exact written

theorem holds_after (calls : List TraceCall) :
    (after TraceRing.exec traceInit calls).Holds (traceLog calls) := by
  unfold after traceLog
  suffices kept : ∀ ring log, Holds ring log → Holds (calls.foldl TraceRing.exec ring)
      (calls.foldl (fun log call => match call.record with
        | some record => log ++ [record]
        | none => []) log) from kept _ _ holds_traceInit
  induction calls with
  | nil => exact fun ring log holds => holds
  | cons call calls ih => exact fun ring log holds => ih _ _ (holds.exec call)

/-- The loop copies the slots from `startIdx + i` on. -/
theorem dumpLoop_eq (ring : TraceRing) {startIdx maxEvents left i copied : Nat}
    {buf : Nat → TraceEvent} (room : copied + left ≤ maxEvents) :
    ring.dumpLoop startIdx maxEvents left i copied buf =
      (copied + left, fun position =>
        if copied ≤ position ∧ position < copied + left then
          ring.traceBuf ((startIdx + (i + (position - copied))) % traceBufSize)
        else buf position) := by
  induction left generalizing i copied buf with
  | zero =>
      rw [dumpLoop, Prod.mk.injEq]
      refine ⟨rfl, funext fun position => ?_⟩
      rw [if_neg (by omega)]
  | succ left ih =>
      rw [dumpLoop, if_pos (by omega), ih (by omega), Prod.mk.injEq]
      refine ⟨by omega, funext fun position => ?_⟩
      by_cases isFirst : position = copied
      · subst isFirst
        rw [if_neg (by omega), if_pos (by omega), Function.update_self, Nat.sub_self, Nat.add_zero]
      · rw [Function.update_of_ne isFirst]
        by_cases later : copied + 1 ≤ position ∧ position < copied + 1 + left
        · rw [if_pos later, if_pos (by omega)]
          congr 3
          omega
        · rw [if_neg later, if_neg (by omega)]

/-- The first entries of an array, as a reader sees them. -/
def shownEntries (buf : Nat → TraceEvent) (count : Nat) : List TraceRecord :=
  (List.range count).map fun position => (buf position).shown

/-- What `trace_dump` returns and writes into the array of its caller. -/
structure DumpsNewest (log : List TraceRecord) (buf : Nat → TraceEvent) (maxEvents : Nat)
    (dumped : Nat × (Nat → TraceEvent)) : Prop where
  /-- With enough room these are the last 256 events, or all of them, in their order. -/
  whole : min log.length traceBufSize ≤ maxEvents →
    dumped.1 = min log.length traceBufSize ∧
      shownEntries dumped.2 dumped.1 = log.drop (log.length - traceBufSize)
  /-- With less room these are the first events of that window. -/
  front : maxEvents < min log.length traceBufSize →
    dumped.1 = maxEvents ∧
      shownEntries dumped.2 dumped.1 = (log.drop (log.length - traceBufSize)).take maxEvents
  /-- The entries behind the copied ones stay as they are. -/
  rest : ∀ position, dumped.1 ≤ position → dumped.2 position = buf position

/-- The number of entries that are copied. -/
def dumpCount (log : List TraceRecord) (maxEvents : Nat) : Nat :=
  min maxEvents (min log.length traceBufSize)

/-- Both rules of the start index lead to the slot of the oldest event. -/
theorem Holds.traceDump_eq (holds : ring.Holds log) (fits : log.length < uint32Size)
    (buf : Nat → TraceEvent) (maxEvents : Nat) :
    ring.traceDump buf maxEvents = (dumpCount log maxEvents, fun position =>
      if position < dumpCount log maxEvents then
        ring.traceBuf ((log.length - traceBufSize + position) % traceBufSize)
      else buf position) := by
  have total := holds.total
  rw [Nat.mod_eq_of_lt fits] at total
  have place : ∀ position,
      ((if ring.traceEventTotal ≤ traceBufSize then 0 else ring.traceWriteIdx) +
        (0 + (position - 0))) % traceBufSize =
        (log.length - traceBufSize + position) % traceBufSize := by
    intro position
    rw [holds.writeIdx, total]
    unfold traceBufSize
    split <;> omega
  have counted : (if maxEvents <
      (if traceBufSize < ring.traceEventTotal then traceBufSize else ring.traceEventTotal)
      then maxEvents
      else if traceBufSize < ring.traceEventTotal then traceBufSize
      else ring.traceEventTotal) = dumpCount log maxEvents := by
    rw [total, dumpCount]
    split <;> split <;> omega
  rw [TraceRing.traceDump]
  simp only [counted]
  rw [dumpLoop_eq ring (by rw [dumpCount]; omega)]
  simp only [place]
  simp only [Nat.zero_add, Nat.zero_le, true_and]

theorem Holds.traceDump (holds : ring.Holds log) (fits : log.length < uint32Size)
    (buf : Nat → TraceEvent) (maxEvents : Nat) :
    DumpsNewest log buf maxEvents (ring.traceDump buf maxEvents) := by
  rw [holds.traceDump_eq fits]
  have isCount : dumpCount log maxEvents = min maxEvents (min log.length traceBufSize) := rfl
  have kept : log.length - (log.length - traceBufSize) = min log.length traceBufSize := by omega
  have entries : shownEntries (fun position =>
      if position < dumpCount log maxEvents then
        ring.traceBuf ((log.length - traceBufSize + position) % traceBufSize)
      else buf position) (dumpCount log maxEvents) =
      (log.drop (log.length - traceBufSize)).take (dumpCount log maxEvents) := by
    rw [← holds.retains.contents_eq (by omega) (by omega), contents_take (by omega), shownEntries,
      contents]
    apply List.map_congr_left
    intro position inside
    rw [if_pos (List.mem_range.mp inside)]
  refine ⟨fun enough => ?_, fun less => ?_, fun position behind => ?_⟩
  · have isAll : dumpCount log maxEvents = min log.length traceBufSize := by omega
    refine ⟨isAll, entries.trans (List.take_of_length_le ?_)⟩
    rw [List.length_drop, kept, isAll]
  · have isFront : dumpCount log maxEvents = maxEvents := by omega
    exact ⟨isFront, entries.trans (by rw [isFront])⟩
  · exact if_neg (Nat.not_lt.mpr behind)

/-- After any calls, `trace_dump` shows the last 256 events since the ring was cleared, or as
many of them as there is room for, in chronological order. -/
theorem traceDump_newest (calls : List TraceCall) (fits : (traceLog calls).length < uint32Size)
    (buf : Nat → TraceEvent) (maxEvents : Nat) :
    DumpsNewest (traceLog calls) buf maxEvents
      ((after exec traceInit calls).traceDump buf maxEvents) :=
  (holds_after calls).traceDump fits buf maxEvents

/-- Three calls, the second of which clears the ring. -/
theorem traceDump_newest_three :
    DumpsNewest [⟨2, .userEvent, 3, 4, [104, 105]⟩] traceInit.traceBuf 4
      ((after exec traceInit [.event 1 .taskCreate 1 100, .clear,
        .eventText 2 .userEvent 3 4 (some [104, 105])]).traceDump traceInit.traceBuf 4) :=
  traceDump_newest [.event 1 .taskCreate 1 100, .clear,
    .eventText 2 .userEvent 3 4 (some [104, 105])] (by decide) traceInit.traceBuf 4

end TraceRing

end Rtos

end MiniIotRobotEdge

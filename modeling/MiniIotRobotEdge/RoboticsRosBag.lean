import MiniIotRobotEdge.PackedBytes
import MiniIotRobotEdge.RoboticsRosMessages

/-!
# Recorded messages

The model of the bag writer and the bag reader in `ros_core.c`.  A file is the
string of its bytes, numbers with the lowest byte first.  The reader takes the
lengths of its fields from the file; one that lets it write behind a buffer ends
in `overrun`.  A bag that was cut at any byte gives back the messages that were
written whole in front of the cut, and then no more.
-/

namespace MiniIotRobotEdge

namespace Robotics

open PackedBytes

structure MrBagWriter where
  file : List UInt8
  numMessages : Int

/-- The topic is the list of its bytes without the final zero. -/
def mrBagWriterWrite (bag : MrBagWriter) (topic : List UInt8) (msg : MrMessage)
    (timestamp : UInt64) : MrBagWriter where
  file := bag.file ++ (littleEndian 8 timestamp.toNat ++ (littleEndian 4 topic.length ++ (topic ++
    (littleEndian 4 msg.length.toNat ++ msg.data.bytes 0 msg.length.toNat))))
  numMessages := bag.numMessages + 1

structure MrBagReader where
  file : ByteStream
  index : Int

def mrBagReaderOpen (file : List UInt8) : MrBagReader := ⟨⟨file, false⟩, 0⟩

/-- The end of a call: a write behind a buffer, a return of 0, or a return of 1 with `*ts`. -/
inductive BagStatus
  | overrun
  | finished
  | message (ts : UInt64)
  deriving DecidableEq, Repr

/-- `sizeof(topic_name)`. -/
def topicNameSize : Nat := 256

def mrBagReaderNext (bag : MrBagReader) (msg : MrMessage) :
    BagStatus × MrBagReader × MrMessage :=
  if bag.file.atEnd then (.finished, bag, msg)
  else
    let ts := bag.file.read 8
    if ts.1.length ≠ 8 then (.finished, ⟨ts.2, bag.index⟩, msg)
    else
      let topicLen := ts.2.read 4
      if topicLen.1.length ≠ 4 then (.finished, ⟨topicLen.2, bag.index⟩, msg)
      else
        let topicName := topicLen.2.read (ofLittleEndian topicLen.1)
        if topicNameSize < topicName.1.length then (.overrun, ⟨topicName.2, bag.index⟩, msg)
        else if topicName.1.length ≠ ofLittleEndian topicLen.1 then
          (.finished, ⟨topicName.2, bag.index⟩, msg)
        else
          let msgLen := topicName.2.read 4
          if msgLen.1.length ≠ 4 then (.finished, ⟨msgLen.2, bag.index⟩, msg)
          else
            let data := msgLen.2.read (ofLittleEndian msgLen.1)
            let filled := msg.data.writeBytes 0 data.1
            if mrRosMaxMsgSize < data.1.length then (.overrun, ⟨data.2, bag.index⟩, msg)
            else if data.1.length ≠ ofLittleEndian msgLen.1 then
              (.finished, ⟨data.2, bag.index⟩, ⟨filled, msg.length⟩)
            else
              (.message (.ofNat (ofLittleEndian ts.1)), ⟨data.2, bag.index + 1⟩,
                ⟨filled, ofLittleEndian msgLen.1⟩)

/-! ### Bags -/

/-- A call of the writer. -/
structure BagEntry where
  topic : List UInt8
  msg : MrMessage
  timestamp : UInt64

/-- What the caller of the reader sees. -/
inductive BagAnswer
  | overrun
  | finished
  | message (ts : UInt64) (data : List UInt8)
  deriving DecidableEq, Repr

/-- The bytes of a message below its length. -/
def messageBytes (msg : MrMessage) : List UInt8 := msg.data.bytes 0 msg.length.toNat

def BagStatus.answer (msg : MrMessage) : BagStatus → BagAnswer
  | overrun => .overrun
  | finished => .finished
  | message ts => .message ts (messageBytes msg)

namespace BagEntry

/-- The topic fits into the buffer of the reader, and the length is one of a message. -/
def Storable (entry : BagEntry) : Prop :=
  entry.topic.length ≤ topicNameSize ∧ 0 ≤ entry.msg.length ∧
    entry.msg.length ≤ mrRosMaxMsgSize

instance (entry : BagEntry) : Decidable entry.Storable := inferInstanceAs (Decidable (_ ∧ _))

def answer (entry : BagEntry) : BagAnswer := .message entry.timestamp (messageBytes entry.msg)

/-- What the writer puts into the file. -/
def record (entry : BagEntry) : List UInt8 :=
  littleEndian 8 entry.timestamp.toNat ++ (littleEndian 4 entry.topic.length ++ (entry.topic ++
    (littleEndian 4 entry.msg.length.toNat ++ messageBytes entry.msg)))

end BagEntry

/-- The file after a list of calls of the writer on a new bag. -/
def bagFile (entries : List BagEntry) : List UInt8 :=
  (entries.foldl (fun bag entry => mrBagWriterWrite bag entry.topic entry.msg entry.timestamp)
    ⟨[], 0⟩).file

/-- The entries whose records lie in the first `kept` bytes of the file. -/
def completeEntries : Nat → List BagEntry → List BagEntry
  | _, [] => []
  | kept, entry :: rest =>
      if entry.record.length ≤ kept then
        entry :: completeEntries (kept - entry.record.length) rest
      else []

/-- What so many calls of the reader in a row answer. -/
def nextAnswers : Nat → MrBagReader → MrMessage → List BagAnswer
  | 0, _, _ => []
  | calls + 1, bag, msg =>
      let next := mrBagReaderNext bag msg
      next.1.answer next.2.2 :: nextAnswers calls next.2.1 next.2.2

theorem bagFile_eq (entries : List BagEntry) : bagFile entries = entries.flatMap BagEntry.record := by
  have grown : ∀ bag : MrBagWriter,
      (entries.foldl (fun bag entry =>
        mrBagWriterWrite bag entry.topic entry.msg entry.timestamp) bag).file =
        bag.file ++ entries.flatMap BagEntry.record := by
    induction entries with
    | nil => intro bag; simp
    | cons entry rest ih =>
        intro bag
        rw [List.foldl_cons, ih, List.flatMap_cons, ← List.append_assoc]
        rfl
  rw [bagFile, grown, List.nil_append]

section Next

variable {entry : BagEntry} {kept : Nat} {index : Int} {msg : MrMessage}

theorem BagEntry.length_record (entry : BagEntry) :
    entry.record.length = 16 + entry.topic.length + entry.msg.length.toNat := by
  simp only [record, messageBytes, List.length_append, length_littleEndian, Memory.length_bytes]
  omega

theorem BagEntry.record_append (entry : BagEntry) (more : List UInt8) :
    entry.record ++ more =
      littleEndian 8 entry.timestamp.toNat ++ (littleEndian 4 entry.topic.length ++
        (entry.topic ++ (littleEndian 4 entry.msg.length.toNat ++
          (messageBytes entry.msg ++ more)))) := by
  simp only [record, List.append_assoc]

/-- The fields of a record give back what was written into them. -/
theorem BagEntry.Storable.fields (storable : entry.Storable) :
    UInt64.ofNat (ofLittleEndian (littleEndian 8 entry.timestamp.toNat)) = entry.timestamp ∧
      ofLittleEndian (littleEndian 4 entry.topic.length) = entry.topic.length ∧
      ofLittleEndian (littleEndian 4 entry.msg.length.toNat) = entry.msg.length.toNat := by
  obtain ⟨topicFits, _, msgFits⟩ := storable
  unfold topicNameSize at topicFits
  unfold mrRosMaxMsgSize at msgFits
  have stampBound := entry.timestamp.toNat_lt
  refine ⟨?_, ?_, ?_⟩
  · rw [ofLittleEndian_littleEndian, Nat.mod_eq_of_lt (by norm_num; exact stampBound),
      UInt64.ofNat_toNat]
  · rw [ofLittleEndian_littleEndian, Nat.mod_eq_of_lt (by norm_num; omega)]
  · rw [ofLittleEndian_littleEndian, Nat.mod_eq_of_lt (by norm_num; omega)]

/-- A record in front of the cut is read whole. -/
theorem mrBagReaderNext_complete (storable : entry.Storable) (more : List UInt8)
    (complete : entry.record.length ≤ kept) :
    mrBagReaderNext ⟨.cut (entry.record ++ more) kept, index⟩ msg =
      (.message entry.timestamp, ⟨.cut more (kept - entry.record.length), index + 1⟩,
        ⟨msg.data.writeBytes 0 (messageBytes entry.msg), entry.msg.length⟩) := by
  obtain ⟨stamp, topicLen, msgLen⟩ := storable.fields
  obtain ⟨topicFits, lower, msgFits⟩ := storable
  have size := entry.length_record
  have bodySize : (messageBytes entry.msg).length = entry.msg.length.toNat :=
    Memory.length_bytes _ _ _
  rw [entry.record_append, mrBagReaderNext]
  dsimp only
  rw [ByteStream.atEnd_cut, if_neg Bool.false_ne_true,
    ByteStream.read_cut_of_le _ (length_littleEndian 8 _) (by omega)]
  dsimp only
  rw [if_neg (not_not.mpr (length_littleEndian 8 _)),
    ByteStream.read_cut_of_le _ (length_littleEndian 4 _) (by omega)]
  dsimp only
  rw [if_neg (not_not.mpr (length_littleEndian 4 _)), topicLen,
    ByteStream.read_cut_of_le _ rfl (by omega)]
  dsimp only
  rw [if_neg (by omega), if_neg (not_not.mpr rfl),
    ByteStream.read_cut_of_le _ (length_littleEndian 4 _) (by omega)]
  dsimp only
  rw [if_neg (not_not.mpr (length_littleEndian 4 _)), msgLen,
    ByteStream.read_cut_of_le _ bodySize (by omega)]
  dsimp only
  rw [if_neg (by omega), if_neg (not_not.mpr bodySize), stamp, Int.toNat_of_nonneg lower]
  congr 4
  omega

/-- A record with the cut inside of it ends the bag. -/
theorem mrBagReaderNext_incomplete (storable : entry.Storable) (more : List UInt8)
    (incomplete : kept < entry.record.length) :
    ∃ after, mrBagReaderNext ⟨.cut (entry.record ++ more) kept, index⟩ msg =
      (.finished, ⟨⟨[], true⟩, index⟩, after) := by
  obtain ⟨-, topicLen, msgLen⟩ := storable.fields
  obtain ⟨topicFits, lower, msgFits⟩ := storable
  have size := entry.length_record
  have bodySize : (messageBytes entry.msg).length = entry.msg.length.toNat :=
    Memory.length_bytes _ _ _
  rw [entry.record_append, mrBagReaderNext]
  dsimp only
  rw [ByteStream.atEnd_cut, if_neg Bool.false_ne_true]
  -- the cut may lie in each of the five fields
  by_cases inStamp : kept < 8
  · rw [ByteStream.read_cut_of_lt _ (length_littleEndian 8 _) inStamp]
    dsimp only
    rw [if_pos (by rw [List.length_take, length_littleEndian]; omega)]
    exact ⟨_, rfl⟩
  rw [ByteStream.read_cut_of_le _ (length_littleEndian 8 _) (by omega)]
  dsimp only
  rw [if_neg (not_not.mpr (length_littleEndian 8 _))]
  by_cases inTopicLen : kept - 8 < 4
  · rw [ByteStream.read_cut_of_lt _ (length_littleEndian 4 _) inTopicLen]
    dsimp only
    rw [if_pos (by rw [List.length_take, length_littleEndian]; omega)]
    exact ⟨_, rfl⟩
  rw [ByteStream.read_cut_of_le _ (length_littleEndian 4 _) (by omega)]
  dsimp only
  rw [if_neg (not_not.mpr (length_littleEndian 4 _)), topicLen]
  by_cases inTopic : kept - 8 - 4 < entry.topic.length
  · rw [ByteStream.read_cut_of_lt _ rfl inTopic]
    dsimp only
    rw [List.length_take, if_neg (by omega), if_pos (by omega)]
    exact ⟨_, rfl⟩
  rw [ByteStream.read_cut_of_le _ rfl (by omega)]
  dsimp only
  rw [if_neg (by omega), if_neg (not_not.mpr rfl)]
  by_cases inMsgLen : kept - 8 - 4 - entry.topic.length < 4
  · rw [ByteStream.read_cut_of_lt _ (length_littleEndian 4 _) inMsgLen]
    dsimp only
    rw [if_pos (by rw [List.length_take, length_littleEndian]; omega)]
    exact ⟨_, rfl⟩
  rw [ByteStream.read_cut_of_le _ (length_littleEndian 4 _) (by omega)]
  dsimp only
  rw [if_neg (not_not.mpr (length_littleEndian 4 _)), msgLen,
    ByteStream.read_cut_of_lt _ bodySize (by omega)]
  dsimp only
  rw [List.length_take, if_neg (by omega), if_pos (by omega)]
  exact ⟨_, rfl⟩

/-- After the end of the file every call returns 0. -/
theorem nextAnswers_atEnd (calls : Nat) (index : Int) (msg : MrMessage) :
    nextAnswers calls ⟨⟨[], true⟩, index⟩ msg = List.replicate calls .finished := by
  induction calls with
  | zero => rfl
  | succ calls ih => rw [nextAnswers, List.replicate_succ, ← ih]; rfl

/-- The empty rest of a file ends the bag as well. -/
theorem mrBagReaderNext_nil :
    mrBagReaderNext ⟨.cut [] kept, index⟩ msg = (.finished, ⟨⟨[], true⟩, index⟩, msg) := by
  simp [mrBagReaderNext, ByteStream.cut, ByteStream.read]

theorem messageBytes_written (entry : BagEntry) (msg : MrMessage) :
    messageBytes ⟨msg.data.writeBytes 0 (messageBytes entry.msg), entry.msg.length⟩ =
      messageBytes entry.msg := by
  have read := Memory.bytes_writeBytes_self msg.data 0 (messageBytes entry.msg)
  have bodySize : (messageBytes entry.msg).length = entry.msg.length.toNat :=
    Memory.length_bytes _ _ _
  rw [bodySize] at read
  exact read

end Next

/-- One entry more than the calls can see changes nothing. -/
theorem take_append_finished (answers : List BagAnswer) (calls : Nat) :
    (answers ++ List.replicate (calls + 1) BagAnswer.finished).take calls =
      (answers ++ List.replicate calls BagAnswer.finished).take calls := by
  rw [List.take_append, List.take_append, List.take_replicate, List.take_replicate]
  congr 2
  omega

/-- The reader answers with the entries in front of the cut. -/
theorem nextAnswers_cut {entries : List BagEntry} (storable : ∀ entry ∈ entries, entry.Storable)
    (kept calls : Nat) (index : Int) (msg : MrMessage) :
    nextAnswers calls ⟨.cut (entries.flatMap BagEntry.record) kept, index⟩ msg =
      ((completeEntries kept entries).map BagEntry.answer ++
        List.replicate calls BagAnswer.finished).take calls := by
  induction entries generalizing kept calls index msg with
  | nil =>
      cases calls with
      | zero => rfl
      | succ calls =>
          rw [List.flatMap_nil, nextAnswers, mrBagReaderNext_nil]
          dsimp only
          rw [nextAnswers_atEnd, completeEntries, List.map_nil, List.nil_append,
            List.take_of_length_le (by rw [List.length_replicate])]
          rfl
  | cons entry rest ih =>
      cases calls with
      | zero => rfl
      | succ calls =>
          have entryStorable := storable entry List.mem_cons_self
          have restStorable : ∀ other ∈ rest, other.Storable :=
            fun other inRest => storable other (List.mem_cons_of_mem entry inRest)
          rw [List.flatMap_cons, nextAnswers, completeEntries]
          by_cases complete : entry.record.length ≤ kept
          · rw [mrBagReaderNext_complete entryStorable _ complete, if_pos complete]
            dsimp only
            rw [ih restStorable, List.map_cons, List.cons_append, List.take_succ_cons,
              take_append_finished, BagStatus.answer, messageBytes_written]
            rfl
          · obtain ⟨after, ended⟩ :=
              mrBagReaderNext_incomplete entryStorable (rest.flatMap BagEntry.record)
                (Nat.lt_of_not_le complete)
            rw [ended, if_neg complete]
            dsimp only
            rw [nextAnswers_atEnd, List.map_nil, List.nil_append,
              List.take_of_length_le (by rw [List.length_replicate])]
            rfl

/-- No cut leaves an entry out that lies in front of it. -/
theorem completeEntries_all {entries : List BagEntry} {kept : Nat}
    (long : (entries.flatMap BagEntry.record).length ≤ kept) :
    completeEntries kept entries = entries := by
  induction entries generalizing kept with
  | nil => rfl
  | cons entry rest ih =>
      rw [List.flatMap_cons, List.length_append] at long
      rw [completeEntries, if_pos (by omega), ih (by omega)]

/-- A bag gives back what was recorded, in order and with its times, and then ends.
One that was cut gives back the entries whose records lie in front of the cut. -/
theorem mrBag_roundTrip (entries : List BagEntry)
    (storable : ∀ entry ∈ entries, entry.Storable) (calls : Nat) (msg : MrMessage) :
    nextAnswers calls (mrBagReaderOpen (bagFile entries)) msg =
        (entries.map BagEntry.answer ++ List.replicate calls BagAnswer.finished).take calls ∧
      ∀ kept, nextAnswers calls (mrBagReaderOpen ((bagFile entries).take kept)) msg =
        ((completeEntries kept entries).map BagEntry.answer ++
          List.replicate calls BagAnswer.finished).take calls := by
  have truncated : ∀ kept, nextAnswers calls (mrBagReaderOpen ((bagFile entries).take kept)) msg =
      ((completeEntries kept entries).map BagEntry.answer ++
        List.replicate calls BagAnswer.finished).take calls := by
    intro kept
    rw [bagFile_eq]
    exact nextAnswers_cut storable kept calls 0 msg
  refine ⟨?_, truncated⟩
  have whole := truncated (bagFile entries).length
  rwa [List.take_length, completeEntries_all (by rw [bagFile_eq])] at whole

/-- Two messages, and the second of them cut off. -/
theorem mrBag_roundTrip_two :
    nextAnswers 3 (mrBagReaderOpen ((bagFile
        [⟨[47, 97], ⟨fun _ => 5, 4⟩, 7⟩, ⟨[47, 98], ⟨fun _ => 6, 8⟩, 9⟩]).take 47))
        ⟨fun _ => 0, 0⟩ = [.message 7 [5, 5, 5, 5], .finished, .finished] :=
  (mrBag_roundTrip [⟨[47, 97], ⟨fun _ => 5, 4⟩, 7⟩, ⟨[47, 98], ⟨fun _ => 6, 8⟩, 9⟩]
    (by decide) 3 ⟨fun _ => 0, 0⟩).2 47

end Robotics

end MiniIotRobotEdge

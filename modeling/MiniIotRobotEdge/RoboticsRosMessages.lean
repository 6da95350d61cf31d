import Mathlib.Data.List.Induction
import MiniIotRobotEdge.ByteText

/-!
# Messages of fields

The model of the messages in `ros_core.c`.  The data is memory from address 0
on, a float is its four bytes as a number, and a string is the list of its bytes
without the final zero.  Indices are exact, since a product that overflows `int`
is undefined.  A setter makes the end of its own field the length of the
message, and a getter reads no field that ends behind the length.
-/

namespace MiniIotRobotEdge

namespace Robotics

open Memory

def mrRosMaxMsgSize : Int := 65536

structure MrMessage where
  data : Memory
  length : Int

/-- The buffer and `*len`.  No length is negative. -/
def mrMessageSerialize (msg : MrMessage) (buf : Memory) : Memory × Int :=
  if msg.length < mrRosMaxMsgSize then
    (buf.writeBytes 0 (msg.data.bytes 0 msg.length.toNat), msg.length)
  else (buf, 0)

def mrMessageDeserialize (buf : Memory) (len : Int) (msg : MrMessage) : MrMessage × Int :=
  if len > mrRosMaxMsgSize then (msg, 0)
  else (⟨msg.data.writeBytes 0 (buf.bytes 0 len.toNat), len⟩, 1)

def mrMessageSetFloat32 (msg : MrMessage) (fieldIdx : Int) (v : UInt32) : MrMessage :=
  if 0 ≤ fieldIdx ∧ (fieldIdx + 1) * 4 ≤ mrRosMaxMsgSize then
    ⟨msg.data.store (fieldIdx * 4).toNat 4 v.toNat, (fieldIdx + 1) * 4⟩
  else msg

def mrMessageGetFloat32 (msg : MrMessage) (fieldIdx : Int) : UInt32 :=
  if 0 ≤ fieldIdx ∧ (fieldIdx + 1) * 4 ≤ msg.length then
    .ofNat (msg.data.load (fieldIdx * 4).toNat 4)
  else 0

def mrMessageSetString (msg : MrMessage) (fieldIdx : Int) (v : List UInt8) : MrMessage :=
  let off := fieldIdx * 64
  if 0 ≤ off ∧ off + 64 ≤ mrRosMaxMsgSize then
    ⟨Function.update (msg.data.strncpy off.toNat v 63) (off.toNat + 63) 0, off + 64⟩
  else msg

/-- The string at the pointer that is returned. -/
def mrMessageGetString (msg : MrMessage) (fieldIdx : Int) : List UInt8 :=
  let off := fieldIdx * 64
  if 0 ≤ off ∧ off + 64 ≤ msg.length then msg.data.text off.toNat mrRosMaxMsgSize.toNat else []

/-! ### Fields -/

inductive MessageField
  | float32 (fieldIdx : Int)
  | string (fieldIdx : Int)
  deriving DecidableEq, Repr

inductive FieldValue
  | float32 (v : UInt32)
  | string (v : List UInt8)
  deriving DecidableEq, Repr

/-- A call of a setter. -/
inductive SetCall
  | float32 (fieldIdx : Int) (v : UInt32)
  | string (fieldIdx : Int) (v : List UInt8)
  deriving DecidableEq, Repr

namespace MessageField

/-- The first byte of the field, and the one behind its last. -/
def first : MessageField → Int
  | float32 fieldIdx => fieldIdx * 4
  | string fieldIdx => fieldIdx * 64

def stop : MessageField → Int
  | float32 fieldIdx => (fieldIdx + 1) * 4
  | string fieldIdx => fieldIdx * 64 + 64

/-- The field's getter. -/
def get (msg : MrMessage) : MessageField → FieldValue
  | float32 fieldIdx => .float32 (mrMessageGetFloat32 msg fieldIdx)
  | string fieldIdx => .string (mrMessageGetString msg fieldIdx)

/-- What the getter returns for a field behind the length. -/
def missing : MessageField → FieldValue
  | float32 _ => .float32 0
  | string _ => .string []

def Apart (one other : MessageField) : Prop := one.stop ≤ other.first ∨ other.stop ≤ one.first

instance (one other : MessageField) : Decidable (one.Apart other) :=
  inferInstanceAs (Decidable (_ ∨ _))

end MessageField

namespace SetCall

def field : SetCall → MessageField
  | float32 fieldIdx _ => .float32 fieldIdx
  | string fieldIdx _ => .string fieldIdx

def value : SetCall → FieldValue
  | float32 _ v => .float32 v
  | string _ v => .string v

def run (msg : MrMessage) : SetCall → MrMessage
  | float32 fieldIdx v => mrMessageSetFloat32 msg fieldIdx v
  | string fieldIdx v => mrMessageSetString msg fieldIdx v

/-- The call passes the check of its setter, and its string is one of C that is short enough. -/
def Accepted : SetCall → Prop
  | float32 fieldIdx _ => 0 ≤ fieldIdx ∧ (fieldIdx + 1) * 4 ≤ mrRosMaxMsgSize
  | string fieldIdx v =>
      (0 ≤ fieldIdx * 64 ∧ fieldIdx * 64 + 64 ≤ mrRosMaxMsgSize) ∧ v.length < 64 ∧
        ∀ byte ∈ v, byte ≠ 0

instance : DecidablePred Accepted
  | float32 _ _ => inferInstanceAs (Decidable (_ ∧ _))
  | string _ v =>
      have : Decidable (∀ byte ∈ v, byte ≠ 0) := List.decidableBAll _ v
      inferInstanceAs (Decidable (_ ∧ _))

end SetCall

/-- The value of the last call that sets the field. -/
def lastSet (calls : List SetCall) (field : MessageField) : Option FieldValue :=
  ((calls.filter fun call => call.field = field).getLast?).map SetCall.value

/-- Serialized and deserialized, the message keeps its length and the bytes below it. -/
def RoundTrips (msg : MrMessage) : Prop :=
  ∀ buf target, ∃ after,
    mrMessageDeserialize (mrMessageSerialize msg buf).1 (mrMessageSerialize msg buf).2 target =
        (after, 1) ∧
      after.length = msg.length ∧ ∀ i : Nat, i < msg.length → after.data i = msg.data i

/-- Every field that was set reads as it was set last. -/
def ReadsBack (msg : MrMessage) (calls : List SetCall) : Prop :=
  ∀ field value, lastSet calls field = some value →
    field.get (calls.foldl SetCall.run msg) = value

/-- No field ends behind the one of the last call, but for values that read as missing. -/
def EndsInLast (calls : List SetCall) : Prop :=
  ∀ last ∈ calls.getLast?, ∀ field value, lastSet calls field = some value →
    field.stop ≤ last.field.stop ∨ value = field.missing

/-- The data holds the value at the field. -/
def Holds (data : Memory) : MessageField → FieldValue → Prop
  | .float32 fieldIdx, .float32 v => data.load (fieldIdx * 4).toNat 4 = v.toNat
  | .string fieldIdx, .string v =>
      data.bytes (fieldIdx * 64).toNat 64 = v.rightpad 64 0 ∧ v.length < 64 ∧ ∀ byte ∈ v, byte ≠ 0
  | _, _ => False

section Messages

variable {msg : MrMessage} {call : SetCall} {calls : List SetCall} {field : MessageField}
  {value : FieldValue}

theorem mrMessageDeserialize_serialize (below : msg.length < mrRosMaxMsgSize) (buf : Memory)
    (target : MrMessage) :
    mrMessageDeserialize (mrMessageSerialize msg buf).1 (mrMessageSerialize msg buf).2 target =
      (⟨target.data.writeBytes 0 (msg.data.bytes 0 msg.length.toNat), msg.length⟩, 1) := by
  have written := bytes_writeBytes_self buf 0 (msg.data.bytes 0 msg.length.toNat)
  rw [length_bytes] at written
  rw [mrMessageSerialize, if_pos below, mrMessageDeserialize, if_neg (by omega), written]

/-- The serializer refuses a message of full length, which the deserializer would take. -/
theorem roundTrips_iff (nonneg : 0 ≤ msg.length) :
    RoundTrips msg ↔ msg.length < mrRosMaxMsgSize := by
  constructor
  · intro roundTrips
    by_contra full
    obtain ⟨after, deserialized, length, -⟩ := roundTrips msg.data msg
    have serialized : mrMessageSerialize msg msg.data = (msg.data, 0) := if_neg full
    rw [serialized, mrMessageDeserialize] at deserialized
    obtain ⟨rfl, -⟩ := Prod.mk.inj deserialized
    have isEmpty : (0 : Int) = msg.length := length
    rw [← isEmpty] at full
    exact full (by decide)
  · intro below buf target
    refine ⟨_, mrMessageDeserialize_serialize below buf target, rfl, ?_⟩
    intro i inside
    have copied := writeBytes_bytes target.data msg.data 0 0 (show i < msg.length.toNat by omega)
    rwa [Nat.zero_add] at copied

theorem SetCall.run_float32 {fieldIdx : Int} {v : UInt32}
    (accepted : (float32 fieldIdx v).Accepted) :
    (float32 fieldIdx v).run msg =
      ⟨msg.data.store (fieldIdx * 4).toNat 4 v.toNat, (fieldIdx + 1) * 4⟩ :=
  if_pos accepted

theorem SetCall.run_string {fieldIdx : Int} {v : List UInt8}
    (accepted : (string fieldIdx v).Accepted) :
    (string fieldIdx v).run msg =
      ⟨Function.update (msg.data.strncpy (fieldIdx * 64).toNat v 63) ((fieldIdx * 64).toNat + 63) 0,
        fieldIdx * 64 + 64⟩ :=
  if_pos accepted.1

/-- A setter writes nothing outside of its field. -/
theorem SetCall.run_data_outside (accepted : call.Accepted) {target : Nat}
    (outside : (target : Int) < call.field.first ∨ call.field.stop ≤ target) :
    (call.run msg).data target = msg.data target := by
  cases call with
  | float32 fieldIdx v =>
      have checked : 0 ≤ fieldIdx ∧ (fieldIdx + 1) * 4 ≤ mrRosMaxMsgSize := accepted
      simp only [field, MessageField.first, MessageField.stop] at outside
      rw [run_float32 accepted]
      exact store_outside (by omega)
  | string fieldIdx v =>
      have checked := accepted.1
      simp only [field, MessageField.first, MessageField.stop] at outside
      rw [run_string accepted]
      dsimp only
      rw [Function.update_of_ne (by omega)]
      exact strncpy_outside (by omega)

theorem SetCall.run_length (accepted : call.Accepted) :
    (call.run msg).length = call.field.stop := by
  cases call with
  | float32 fieldIdx v =>
      rw [run_float32 accepted]
      rfl
  | string fieldIdx v =>
      rw [run_string accepted]
      rfl

theorem SetCall.run_holds (accepted : call.Accepted) :
    Holds (call.run msg).data call.field call.value := by
  cases call with
  | float32 fieldIdx v =>
      rw [run_float32 accepted]
      exact (load_store_self v.toNat).trans (Nat.mod_eq_of_lt v.toNat_lt)
  | string fieldIdx v =>
      rw [run_string accepted]
      exact ⟨bytes_strncpy (Nat.le_of_lt_succ accepted.2.1), accepted.2⟩

/-- A value stays where its bytes do. -/
theorem Holds.congr {data other : Memory} (holds : Holds data field value)
    (inside : 0 ≤ field.first)
    (same : ∀ target : Nat, field.first ≤ target → (target : Int) < field.stop →
      other target = data target) : Holds other field value := by
  cases field with
  | float32 fieldIdx =>
      cases value with
      | float32 v =>
          simp only [MessageField.first, MessageField.stop] at inside same
          exact (load_congr fun target lower upper => same target (by omega) (by omega)).trans holds
      | string v => exact holds.elim
  | string fieldIdx =>
      cases value with
      | float32 v => exact holds.elim
      | string v =>
          simp only [MessageField.first, MessageField.stop] at inside same
          refine ⟨?_, holds.2⟩
          rw [← holds.1]
          exact bytes_congr fun target lower upper => same target (by omega) (by omega)

/-- A setter of another field leaves the value. -/
theorem Holds.run (holds : Holds msg.data field value) (inside : 0 ≤ field.first)
    (accepted : call.Accepted) (apart : field.Apart call.field) :
    Holds (call.run msg).data field value := by
  apply holds.congr inside
  intro target lower upper
  apply SetCall.run_data_outside accepted
  rcases apart with before | behind
  · exact .inl (by omega)
  · exact .inr (by omega)

theorem MessageField.get_missing (behind : msg.length < field.stop) :
    field.get msg = field.missing := by
  cases field with
  | float32 fieldIdx =>
      have unread : mrMessageGetFloat32 msg fieldIdx = 0 := if_neg fun read => behind.not_ge read.2
      rw [get, unread, missing]
  | string fieldIdx =>
      have unread : mrMessageGetString msg fieldIdx = [] := if_neg fun read => behind.not_ge read.2
      rw [get, unread, missing]

theorem Holds.get (holds : Holds msg.data field value) (inside : 0 ≤ field.first)
    (fits : field.stop ≤ mrRosMaxMsgSize) (ends : field.stop ≤ msg.length) :
    field.get msg = value := by
  cases field with
  | float32 fieldIdx =>
      cases value with
      | float32 v =>
          have nonneg : 0 ≤ fieldIdx := by
            simp only [MessageField.first] at inside
            omega
          have read : mrMessageGetFloat32 msg fieldIdx = .ofNat (msg.data.load (fieldIdx * 4).toNat 4) :=
            if_pos ⟨nonneg, ends⟩
          rw [MessageField.get, read, holds, UInt32.ofNat_toNat]
      | string v => exact holds.elim
  | string fieldIdx =>
      cases value with
      | float32 v => exact holds.elim
      | string v =>
          obtain ⟨isArray, short, noZero⟩ := holds
          have read : mrMessageGetString msg fieldIdx =
              msg.data.text (fieldIdx * 64).toNat mrRosMaxMsgSize.toNat := if_pos ⟨inside, ends⟩
          simp only [MessageField.first, MessageField.stop] at inside fits
          rw [MessageField.get, read, text_eq noZero short (by omega) isArray]

theorem lastSet_concat (calls : List SetCall) (call : SetCall) (field : MessageField) :
    lastSet (calls ++ [call]) field =
      if call.field = field then some call.value else lastSet calls field := by
  rw [lastSet, List.filter_append]
  by_cases same : call.field = field
  · rw [if_pos same, List.filter_cons_of_pos (by simpa using same), List.filter_nil,
      List.getLast?_concat]
    rfl
  · rw [if_neg same, List.filter_cons_of_neg (by simpa using same), List.filter_nil,
      List.append_nil]
    rfl

/-- A field that was set is the one of a call. -/
theorem exists_of_lastSet (set : lastSet calls field = some value) :
    ∃ call ∈ calls, call.field = field := by
  obtain ⟨call, isLast, -⟩ := Option.map_eq_some_iff.mp set
  have listed := List.mem_filter.mp (List.mem_of_getLast? isLast)
  exact ⟨call, listed.1, by simpa using listed.2⟩

end Messages

section Runs

variable {calls : List SetCall}

/-- The calls are accepted, and their fields are the same or apart. -/
structure Separate (calls : List SetCall) : Prop where
  accepted : ∀ call ∈ calls, call.Accepted
  apart : ∀ one ∈ calls, ∀ other ∈ calls, one.field = other.field ∨ one.field.Apart other.field

theorem Separate.init {call : SetCall} (separate : Separate (calls ++ [call])) :
    Separate calls where
  accepted := fun one listed => separate.accepted one (List.mem_append_left _ listed)
  apart := fun one listed other otherListed =>
    separate.apart one (List.mem_append_left _ listed) other (List.mem_append_left _ otherListed)

theorem SetCall.Accepted.bounds {call : SetCall} (accepted : call.Accepted) :
    0 ≤ call.field.first ∧ call.field.stop ≤ mrRosMaxMsgSize := by
  cases call with
  | float32 fieldIdx v =>
      have checked : 0 ≤ fieldIdx ∧ (fieldIdx + 1) * 4 ≤ mrRosMaxMsgSize := accepted
      exact ⟨by simp only [field, MessageField.first]; omega, checked.2⟩
  | string fieldIdx v => exact accepted.1

/-- The data holds every field's last value; by induction along the calls. -/
theorem Separate.holds (separate : Separate calls) (msg : MrMessage) {field : MessageField}
    {value : FieldValue} (set : lastSet calls field = some value) :
    Holds (calls.foldl SetCall.run msg).data field value := by
  induction calls using List.reverseRecOn with
  | nil =>
      obtain ⟨call, listed, -⟩ := exists_of_lastSet set
      exact absurd listed List.not_mem_nil
  | append_singleton calls call ih =>
      have accepted := separate.accepted call (List.mem_append_right _ List.mem_cons_self)
      rw [lastSet_concat] at set
      rw [List.foldl_append]
      by_cases same : call.field = field
      · rw [if_pos same, Option.some_inj] at set
        subst same
        rw [← set]
        exact SetCall.run_holds accepted
      · rw [if_neg same] at set
        obtain ⟨other, listed, isField⟩ := exists_of_lastSet set
        have apart := separate.apart other (List.mem_append_left _ listed) call
          (List.mem_append_right _ List.mem_cons_self)
        have bounds := (separate.accepted other (List.mem_append_left _ listed)).bounds
        rw [isField] at apart bounds
        exact (ih separate.init set).run bounds.1 accepted (apart.resolve_left (Ne.symm same))

theorem Separate.length (separate : Separate calls) (msg : MrMessage) {last : SetCall}
    (isLast : last ∈ calls.getLast?) : (calls.foldl SetCall.run msg).length = last.field.stop := by
  obtain ⟨before, rfl⟩ := List.getLast?_eq_some_iff.mp isLast
  rw [List.foldl_append]
  exact SetCall.run_length (separate.accepted last (List.mem_append_right _ List.mem_cons_self))

/-- What a field reads as behind the calls depends on the end of the last one. -/
theorem Separate.get_eq_iff (separate : Separate calls) (msg : MrMessage) {last : SetCall}
    (isLast : last ∈ calls.getLast?) {field : MessageField} {value : FieldValue}
    (set : lastSet calls field = some value) :
    field.get (calls.foldl SetCall.run msg) = value ↔
      field.stop ≤ last.field.stop ∨ value = field.missing := by
  obtain ⟨call, listed, isField⟩ := exists_of_lastSet set
  have bounds := (separate.accepted call listed).bounds
  rw [isField] at bounds
  rw [← separate.length msg isLast]
  by_cases ends : field.stop ≤ (calls.foldl SetCall.run msg).length
  · exact iff_of_true ((separate.holds msg set).get bounds.1 bounds.2 ends) (.inl ends)
  · rw [MessageField.get_missing (not_le.mp ends)]
    exact ⟨fun same => .inr same.symm, fun reads => (reads.resolve_left ends).symm⟩

theorem Separate.readsBack_iff (separate : Separate calls) (msg : MrMessage) :
    ReadsBack msg calls ↔ EndsInLast calls := by
  constructor
  · intro reads last isLast field value set
    exact (separate.get_eq_iff msg isLast set).mp (reads field value set)
  · intro ends field value set
    obtain ⟨call, listed, -⟩ := exists_of_lastSet set
    have isLast := List.getLast?_eq_some_getLast (List.ne_nil_of_mem listed)
    exact (separate.get_eq_iff msg isLast set).mpr (ends _ isLast field value set)

/-- Messages round trip exactly when they are not full, and the fields that a list of
setters sets read back exactly when none of them ends behind the last one. -/
theorem mrMessage_reads_back_iff (msg start : MrMessage) (nonneg : 0 ≤ msg.length)
    (calls : List SetCall) (separate : Separate calls) :
    (RoundTrips msg ↔ msg.length < mrRosMaxMsgSize) ∧
      (ReadsBack start calls ↔ EndsInLast calls) :=
  ⟨roundTrips_iff nonneg, separate.readsBack_iff start⟩

/-- Two floats behind a string. -/
theorem mrMessage_reads_back_iff_three :
    (0 : Int) ≤ 12 ∧ Separate [.string 0 [109, 114], .float32 16 1, .float32 17 2] ∧
      (RoundTrips ⟨fun _ => 7, 12⟩ ↔ (12 : Int) < mrRosMaxMsgSize) ∧
        (ReadsBack ⟨fun _ => 0, 0⟩ [.string 0 [109, 114], .float32 16 1, .float32 17 2] ↔
          EndsInLast [.string 0 [109, 114], .float32 16 1, .float32 17 2]) := by
  have separate : Separate [.string 0 [109, 114], .float32 16 1, .float32 17 2] :=
    ⟨by decide, by decide⟩
  exact ⟨by decide, separate, mrMessage_reads_back_iff ⟨fun _ => 7, 12⟩ ⟨fun _ => 0, 0⟩
    (by decide) _ separate⟩

/-- A full message comes back empty, and a float in front of another one hides it. -/
theorem mrMessage_loses :
    ¬RoundTrips ⟨fun _ => 7, mrRosMaxMsgSize⟩ ∧
      Separate [.float32 1 5, .float32 0 7] ∧
        ¬ReadsBack ⟨fun _ => 0, 0⟩ [.float32 1 5, .float32 0 7] := by
  have separate : Separate [.float32 1 5, .float32 0 7] := ⟨by decide, by decide⟩
  refine ⟨fun roundTrips => ?_, separate, fun reads => ?_⟩
  · exact absurd ((roundTrips_iff (by decide)).mp roundTrips) (by decide)
  · have ends := (separate.readsBack_iff _).mp reads
    exact absurd (ends (.float32 0 7) rfl (.float32 1) (.float32 5) rfl) (by decide)

end Runs

end Robotics

end MiniIotRobotEdge

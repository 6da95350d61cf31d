import Mathlib.Data.BitVec
import Mathlib.Data.List.Basic
import Mathlib.Data.UInt

/-!
# Packed records

Records whose fields stand one behind the other in a string of bytes, words
with their lowest byte first.  A reader consumes the front of a string.  The
rule `Reads.bind` follows the fields, so that a record is read back when each
of its fields is.
-/

namespace MiniIotRobotEdge

namespace PackedBytes

/-- The lowest `count` bytes of a number, the lowest first. -/
def littleEndian : Nat → Nat → List UInt8
  | 0, _ => []
  | count + 1, value => UInt8.ofNat value :: littleEndian count (value / 256)

def ofLittleEndian : List UInt8 → Nat
  | [] => 0
  | byte :: rest => byte.toNat + 256 * ofLittleEndian rest

@[simp]
theorem length_littleEndian (count value : Nat) : (littleEndian count value).length = count := by
  induction count generalizing value with
  | zero => rfl
  | succ count ih => rw [littleEndian, List.length_cons, ih]

theorem ofLittleEndian_littleEndian (count value : Nat) :
    ofLittleEndian (littleEndian count value) = value % 256 ^ count := by
  induction count generalizing value with
  | zero => simp [littleEndian, ofLittleEndian, Nat.mod_one]
  | succ count ih =>
      have split : value % 256 ^ (count + 1) =
          value % 256 + 256 * (value / 256 % 256 ^ count) := by
        rw [Nat.pow_succ', Nat.mod_mul]
      rw [littleEndian, ofLittleEndian, ih, UInt8.toNat_ofNat', split]

theorem littleEndian_injective {count first second : Nat} (firstBound : first < 256 ^ count)
    (secondBound : second < 256 ^ count)
    (equal : littleEndian count first = littleEndian count second) : first = second := by
  have values := congrArg ofLittleEndian equal
  rw [ofLittleEndian_littleEndian, ofLittleEndian_littleEndian, Nat.mod_eq_of_lt firstBound,
    Nat.mod_eq_of_lt secondBound] at values
  exact values

theorem littleEndian_ofLittleEndian (bytes : List UInt8) :
    littleEndian bytes.length (ofLittleEndian bytes) = bytes := by
  induction bytes with
  | nil => rfl
  | cons byte rest ih =>
      have low : UInt8.ofNat (byte.toNat + 256 * ofLittleEndian rest) = byte := by
        apply UInt8.toNat_inj.mp
        rw [UInt8.toNat_ofNat']
        have bound := byte.toNat_lt
        omega
      have high : (byte.toNat + 256 * ofLittleEndian rest) / 256 = ofLittleEndian rest := by
        have bound := byte.toNat_lt
        omega
      rw [List.length_cons, ofLittleEndian, littleEndian, low, high, ih]

theorem ofLittleEndian_lt (bytes : List UInt8) : ofLittleEndian bytes < 256 ^ bytes.length := by
  induction bytes with
  | nil => exact Nat.one_pos
  | cons byte rest ih =>
      have bound := byte.toNat_lt
      rw [ofLittleEndian, List.length_cons, Nat.pow_succ]
      omega

/-- A field of `count` bytes that holds a word. -/
def wordField {width : Nat} (count : Nat) (word : BitVec width) : List UInt8 :=
  littleEndian count word.toNat

@[simp]
theorem length_wordField {width : Nat} (count : Nat) (word : BitVec width) :
    (wordField count word).length = count :=
  length_littleEndian count word.toNat

abbrev Reader := StateM (List UInt8)

def readByte : Reader UInt8 := fun data => (data.headD 0, data.tail)

def readWord (width count : Nat) : Reader (BitVec width) := fun data =>
  (BitVec.ofNat width (ofLittleEndian (data.take count)), data.drop count)

def readBytes (count : Nat) : Reader (Vector UInt8 count) := fun data =>
  (Vector.ofFn fun index => data.getD index 0, data.drop count)

/-- The reader turns `bytes` into `value` and leaves what stands behind. -/
def Reads {α : Type} (reader : Reader α) (bytes : List UInt8) (value : α) : Prop :=
  ∀ rest, reader.run (bytes ++ rest) = (value, rest)

namespace Reads

variable {α β : Type}

theorem pure (value : α) : Reads (Pure.pure value) ([] : List (List UInt8)).flatten value :=
  fun _ => rfl

theorem bind {reader : Reader α} {next : α → Reader β} {bytes : List UInt8}
    {fields : List (List UInt8)} {first : α} {value : β} (reads : Reads reader bytes first)
    (readsNext : Reads (next first) fields.flatten value) :
    Reads (reader >>= next) (bytes :: fields).flatten value := by
  intro rest
  rw [List.flatten_cons, List.append_assoc]
  change (next (reader.run (bytes ++ (fields.flatten ++ rest))).1).run
    (reader.run (bytes ++ (fields.flatten ++ rest))).2 = _
  rw [reads]
  exact readsNext rest

theorem byte (value : UInt8) : Reads readByte [value] value := fun _ => rfl

theorem word {width count : Nat} (value : BitVec width) (fits : width ≤ 8 * count) :
    Reads (readWord width count) (wordField count value) value := by
  intro rest
  have small : value.toNat < 256 ^ count := by
    apply value.isLt.trans_le
    rw [show 256 = 2 ^ 8 from rfl, ← Nat.pow_mul]
    exact Nat.pow_le_pow_right (by decide) fits
  have taken : (wordField count value ++ rest).take count = wordField count value := by
    rw [List.take_left' (length_wordField count value)]
  have dropped : (wordField count value ++ rest).drop count = rest := by
    rw [List.drop_left' (length_wordField count value)]
  change (BitVec.ofNat width (ofLittleEndian _), _) = _
  rw [taken, dropped, wordField, ofLittleEndian_littleEndian, Nat.mod_eq_of_lt small,
    BitVec.ofNat_toNat, BitVec.setWidth_eq]

theorem bytes {count : Nat} (value : Vector UInt8 count) :
    Reads (readBytes count) value.toList value := by
  intro rest
  change (Vector.ofFn _, _) = _
  congr 1
  · apply Vector.ext
    intro index inside
    rw [Vector.getElem_ofFn, List.getD_eq_getElem?_getD, List.getElem?_append_left (by simpa)]
    simp [inside]
  · exact List.drop_left' (by simp)

/-- Reading a whole string. -/
theorem run_eq {reader : Reader α} {bytes : List UInt8} {value : α}
    (reads : Reads reader bytes value) : (reader.run bytes).1 = value := by
  have read := reads []
  rw [List.append_nil] at read
  rw [read]

end Reads

end PackedBytes

/-!
## Streams of bytes

A stream is the string of bytes that is left to read, with the mark that a read
has reached its end.  A stream whose string was cut behaves like the whole one
as long as the reads stay in front of the cut; the first read that passes it
finds too few bytes and sets the mark.
-/

structure ByteStream where
  rest : List UInt8
  atEnd : Bool
  deriving DecidableEq, Repr

namespace ByteStream

/-- The bytes that are found, at most `count`.  A read that finds fewer sets the mark. -/
def read (stream : ByteStream) (count : Nat) : List UInt8 × ByteStream :=
  (stream.rest.take count,
    ⟨stream.rest.drop count, stream.atEnd || decide (stream.rest.length < count)⟩)

/-- The stream of the first `kept` bytes of a string. -/
def cut (bytes : List UInt8) (kept : Nat) : ByteStream := ⟨bytes.take kept, false⟩

@[simp] theorem atEnd_cut (bytes : List UInt8) (kept : Nat) : (cut bytes kept).atEnd = false :=
  rfl

variable {front more : List UInt8} {count kept : Nat}

theorem read_cut_of_le (more : List UInt8) (size : front.length = count)
    (inFront : count ≤ kept) :
    (cut (front ++ more) kept).read count = (front, cut more (kept - count)) := by
  subst size
  have split : (front ++ more).take kept = front ++ more.take (kept - front.length) := by
    rw [List.take_append, List.take_of_length_le inFront]
  have found : ¬ (front ++ more.take (kept - front.length)).length < front.length := by
    rw [List.length_append]
    omega
  rw [read, cut, split]
  dsimp only
  rw [List.take_left' rfl, List.drop_left' rfl, decide_eq_false found]
  rfl

theorem read_cut_of_lt (more : List UInt8) (size : front.length = count)
    (behind : kept < count) :
    (cut (front ++ more) kept).read count = (front.take kept, ⟨[], true⟩) := by
  subst size
  have split : (front ++ more).take kept = front.take kept :=
    List.take_append_of_le_length behind.le
  have short : (front.take kept).length = kept := List.length_take_of_le behind.le
  rw [read, cut, split]
  dsimp only
  rw [List.take_of_length_le (by omega), List.drop_eq_nil_of_le (by omega),
    decide_eq_true (by omega)]
  rfl

end ByteStream

end MiniIotRobotEdge

import Mathlib.Data.UInt
import MiniIotRobotEdge.XorRegister

/-!
# The Modbus checksum of mini-industrial-control

`modbus_crc16` takes in four bits at a time, with the first entries of a table that is made for
eight bits at a time.  Both this register and the bitwise CRC-16/MODBUS are linear, so the
checksum is right exactly for the messages whose bits make the differences cancel.
-/

namespace MiniIotRobotEdge

namespace Control

open XorRegister

def crcTable : List (BitVec 16) :=
  [0x0000, 0xC0C1, 0xC181, 0x0140, 0xC301, 0x03C0, 0x0280, 0xC241,
    0xC601, 0x06C0, 0x0780, 0xC741, 0x0500, 0xC5C1, 0xC481, 0x0440,
    0xCC01, 0x0CC0, 0x0D80, 0xCD41, 0x0F00, 0xCFC1, 0xCE81, 0x0E40,
    0x0A00, 0xCAC1, 0xCB81, 0x0B40, 0xC901, 0x09C0, 0x0880, 0xC841,
    0xD801, 0x18C0, 0x1980, 0xD941, 0x1B00, 0xDBC1, 0xDA81, 0x1A40,
    0x1E00, 0xDEC1, 0xDF81, 0x1F40, 0xDD01, 0x1DC0, 0x1C80, 0xDC41,
    0x1400, 0xD4C1, 0xD581, 0x1540, 0xD701, 0x17C0, 0x1680, 0xD641,
    0xD201, 0x12C0, 0x1380, 0xD341, 0x1100, 0xD1C1, 0xD081, 0x1040]

/-- One turn of the loop of `modbus_crc16`. -/
def modbusCrc16Byte (crc : BitVec 16) (byte : UInt8) : BitVec 16 :=
  let index := (crc ^^^ byte.toBitVec.setWidth 16) &&& 0x0F#16
  let crc := (crc >>> 4) ^^^ crcTable.getD index.toNat 0
  let index := (crc ^^^ (byte.toBitVec.setWidth 16 >>> 4)) &&& 0x0F#16
  (crc >>> 4) ^^^ crcTable.getD index.toNat 0

def modbusCrc16 (data : List UInt8) : BitVec 16 := data.foldl modbusCrc16Byte 0xFFFF

def lowByte (word : BitVec 16) : UInt8 := ⟨word.setWidth 8⟩

def highByte (word : BitVec 16) : UInt8 := ⟨(word >>> 8).setWidth 8⟩

def modbusVerifyCrc (data : List UInt8) : Bool :=
  if data.length < 2 then false
  else
    let computed := modbusCrc16 (data.take (data.length - 2))
    let received := ((data.getD (data.length - 1) 0).toBitVec.setWidth 16 <<< 8) |||
      (data.getD (data.length - 2) 0).toBitVec.setWidth 16
    computed = received

structure ModbusRequest where
  slaveAddress : UInt8
  functionCode : UInt8
  startAddress : BitVec 16
  quantity : BitVec 16

/-- The bytes of a request in front of its checksum. -/
def ModbusRequest.bytes (req : ModbusRequest) : List UInt8 :=
  [req.slaveAddress, req.functionCode, highByte req.startAddress, lowByte req.startAddress,
    highByte req.quantity, lowByte req.quantity]

/-- The first bytes of the buffer after a call that returns 8. -/
def modbusBuildRequestRtu (bufSize : Nat) (req : ModbusRequest) : Option (List UInt8) :=
  if bufSize < 8 then none
  else
    let crc := modbusCrc16 req.bytes
    some (req.bytes ++ [lowByte crc, highByte crc])

/-- One step of the bitwise CRC-16/MODBUS. -/
def crcBit (crc : BitVec 16) : BitVec 16 :=
  if crc.getLsbD 0 then (crc >>> 1) ^^^ 0xA001#16 else crc >>> 1

/-- The bitwise CRC-16/MODBUS. -/
def crc16Modbus (data : List UInt8) : BitVec 16 :=
  data.foldl (fun crc byte => crcBit^[8] (crc ^^^ byte.toBitVec.setWidth 16)) 0xFFFF

/-- A conforming receiver accepts a frame that ends with the checksum of what is in front. -/
def ConformingReceiver (frame : List UInt8) : Prop :=
  ∃ front, frame = front ++ [lowByte (crc16Modbus front), highByte (crc16Modbus front)]

/-- Four bits of the message through the table. -/
def tableStep (crc : BitVec 16) : BitVec 16 :=
  (crc >>> 4) ^^^ crcTable.getD (crc &&& 0x0F#16).toNat 0

def lowHalf (byte : UInt8) : BitVec 16 := byte.toBitVec.setWidth 16 &&& 0x0F#16

def highHalf (byte : UInt8) : BitVec 16 := byte.toBitVec.setWidth 16 >>> 4

/-- The two halves of each byte, the lower one first. -/
def nibbles (data : List UInt8) : List (BitVec 16) :=
  data.flatMap fun byte => [lowHalf byte, highHalf byte]

/-- The register that the table makes and the one of the polynomial treat a half byte
differently, by its distance from the end; the same for the start value.  All these differences
together cancel. -/
def GapsCancel (data : List UInt8) : Prop :=
  gap tableStep crcBit^[4] (nibbles data).length 0xFFFF ^^^
    gaps tableStep crcBit^[4] (nibbles data) = 0

instance (data : List UInt8) : Decidable (GapsCancel data) :=
  inferInstanceAs (Decidable (_ = _))

theorem linear_crcBit : Linear crcBit := by
  intro left right
  unfold crcBit
  rw [BitVec.getLsbD_xor, BitVec.ushiftRight_xor_distrib]
  cases left.getLsbD 0 <;> cases right.getLsbD 0 <;>
    simp only [Bool.xor_self, Bool.xor_true, Bool.xor_false, Bool.not_false, Bool.false_eq_true,
      if_true, if_false]
  · ac_rfl
  · ac_rfl
  · rw [BitVec.xor_comm (right >>> 1), BitVec.xor_assoc, ← BitVec.xor_assoc 0xA001#16,
      BitVec.xor_self, BitVec.zero_xor]

theorem toNat_low (word : BitVec 16) : (word &&& 0x0F#16).toNat = (word.setWidth 4).toNat := by
  rw [BitVec.toNat_and, BitVec.toNat_setWidth]
  exact Nat.and_two_pow_sub_one_eq_mod word.toNat 4

theorem crcTable_xor : ∀ left right : BitVec 4, crcTable.getD (left ^^^ right).toNat 0 =
    crcTable.getD left.toNat 0 ^^^ crcTable.getD right.toNat 0 := by
  decide +kernel

theorem linear_tableStep : Linear tableStep := by
  intro left right
  simp only [tableStep, toNat_low, BitVec.setWidth_xor, crcTable_xor,
    BitVec.ushiftRight_xor_distrib]
  ac_rfl

theorem crcBit_byte (byte : UInt8) : crcBit^[4] (byte.toBitVec.setWidth 16) =
    crcBit^[4] (lowHalf byte) ^^^ highHalf byte := by
  have every : ∀ byte : BitVec 8, crcBit^[4] (byte.setWidth 16) =
      crcBit^[4] (byte.setWidth 16 &&& 0x0F#16) ^^^ (byte.setWidth 16 >>> 4) := by
    decide +kernel
  exact every byte.toBitVec

theorem shift_half (byte : UInt8) : lowHalf byte >>> 4 = 0#16 ∧ highHalf byte >>> 4 = 0#16 := by
  have every : ∀ byte : BitVec 8, (byte.setWidth 16 &&& 0x0F#16) >>> 4 = 0#16 ∧
      (byte.setWidth 16 >>> 4) >>> 4 = 0#16 := by
    decide +kernel
  exact every byte.toBitVec

theorem low_lowHalf (byte : UInt8) :
    (lowHalf byte).setWidth 4 = ((byte.toBitVec.setWidth 16).setWidth 4 : BitVec 4) := by
  have every : ∀ byte : BitVec 8, (byte.setWidth 16 &&& 0x0F#16).setWidth 4 =
      ((byte.setWidth 16).setWidth 4 : BitVec 4) := by
    decide +kernel
  exact every byte.toBitVec

/-- The loop of `modbus_crc16` takes in two half bytes. -/
theorem modbusCrc16Byte_eq (crc : BitVec 16) (byte : UInt8) :
    modbusCrc16Byte crc byte =
      tableStep (tableStep (crc ^^^ lowHalf byte) ^^^ highHalf byte) := by
  obtain ⟨low, high⟩ := shift_half byte
  have first : tableStep (crc ^^^ lowHalf byte) = (crc >>> 4) ^^^
      crcTable.getD ((crc ^^^ byte.toBitVec.setWidth 16) &&& 0x0F#16).toNat 0 := by
    rw [tableStep, toNat_low, toNat_low, BitVec.setWidth_xor, BitVec.setWidth_xor,
      low_lowHalf, BitVec.ushiftRight_xor_distrib, low, BitVec.xor_zero]
  rw [first, tableStep, BitVec.ushiftRight_xor_distrib, high, BitVec.xor_zero]
  rfl

theorem crc16Byte_eq (crc : BitVec 16) (byte : UInt8) :
    crcBit^[8] (crc ^^^ byte.toBitVec.setWidth 16) =
      crcBit^[4] (crcBit^[4] (crc ^^^ lowHalf byte) ^^^ highHalf byte) := by
  have linear := linear_crcBit.iterate 4
  rw [Function.iterate_add_apply crcBit 4 4, linear crc, linear crc, crcBit_byte,
    BitVec.xor_assoc]

theorem feed_nibbles (step : BitVec 16 → BitVec 16) (byteStep : BitVec 16 → UInt8 → BitVec 16)
    (twoSteps : ∀ crc byte,
      byteStep crc byte = step (step (crc ^^^ lowHalf byte) ^^^ highHalf byte))
    (crc : BitVec 16) (data : List UInt8) :
    data.foldl byteStep crc = feed step crc (nibbles data) := by
  induction data generalizing crc with
  | nil => rfl
  | cons byte data ih =>
      rw [List.foldl_cons, ih, twoSteps]
      rfl

theorem modbusCrc16_eq (data : List UInt8) :
    modbusCrc16 data = feed tableStep 0xFFFF (nibbles data) :=
  feed_nibbles _ _ modbusCrc16Byte_eq _ data

theorem crc16Modbus_eq (data : List UInt8) :
    crc16Modbus data = feed crcBit^[4] 0xFFFF (nibbles data) :=
  feed_nibbles _ _ crc16Byte_eq _ data

theorem modbusCrc16_eq_iff (data : List UInt8) :
    modbusCrc16 data = crc16Modbus data ↔ GapsCancel data := by
  rw [modbusCrc16_eq, crc16Modbus_eq]
  exact feed_eq_iff linear_tableStep (linear_crcBit.iterate 4) 0xFFFF (nibbles data)

example : ∀ byte : BitVec 8, GapsCancel [⟨byte⟩] ↔ byte = 0xFF := by decide +kernel

/-- A word is made of its two bytes. -/
theorem word_of_bytes (word : BitVec 16) :
    ((highByte word).toBitVec.setWidth 16 <<< 8) ||| (lowByte word).toBitVec.setWidth 16 =
      word := by
  apply BitVec.eq_of_getLsbD_eq
  intro index inside
  simp only [highByte, lowByte, BitVec.getLsbD_or, BitVec.getLsbD_shiftLeft,
    BitVec.getLsbD_setWidth, BitVec.getLsbD_ushiftRight, inside]
  by_cases isLow : index < 8
  · simp [isLow]
  · have inByte : index - 8 < 8 := by omega
    have place : 8 + (index - 8) = index := by omega
    simp [isLow, inByte, place]
    omega

theorem eq_of_bytes {first second : BitVec 16} (low : lowByte first = lowByte second)
    (high : highByte first = highByte second) : first = second := by
  rw [← word_of_bytes first, low, high, word_of_bytes]

/-- A frame with the code's checksum is accepted when that is the bitwise one. -/
theorem conformingReceiver_iff (front : List UInt8) :
    ConformingReceiver (front ++ [lowByte (modbusCrc16 front), highByte (modbusCrc16 front)]) ↔
      modbusCrc16 front = crc16Modbus front := by
  constructor
  · rintro ⟨other, same⟩
    obtain ⟨rfl, ends⟩ := List.append_inj' same rfl
    obtain ⟨low, high⟩ : lowByte (modbusCrc16 front) = lowByte (crc16Modbus front) ∧
        highByte (modbusCrc16 front) = highByte (crc16Modbus front) := by
      simpa using ends
    exact eq_of_bytes low high
  · intro same
    exact ⟨front, by rw [same]⟩

/-- Checked with the function that it is built with, every frame passes. -/
theorem modbusVerifyCrc_build {bufSize : Nat} {req : ModbusRequest} {frame : List UInt8}
    (built : modbusBuildRequestRtu bufSize req = some frame) : modbusVerifyCrc frame = true := by
  unfold modbusBuildRequestRtu at built
  split at built
  · simp at built
  · obtain rfl := Option.some.inj built
    change decide (modbusCrc16 req.bytes = _) = true
    rw [decide_eq_true_eq]
    exact (word_of_bytes _).symm

/-- The checksum is the bitwise one, and a conforming receiver accepts the frame of a request,
exactly when the differences between the table and the polynomial cancel. -/
theorem modbusCrc16_conforms_iff (data : List UInt8) {bufSize : Nat} {req : ModbusRequest}
    {frame : List UInt8} (built : modbusBuildRequestRtu bufSize req = some frame) :
    (modbusCrc16 data = crc16Modbus data ↔ GapsCancel data) ∧
      (ConformingReceiver frame ↔ GapsCancel req.bytes) := by
  refine ⟨modbusCrc16_eq_iff data, ?_⟩
  unfold modbusBuildRequestRtu at built
  split at built
  · simp at built
  · obtain rfl := Option.some.inj built
    rw [conformingReceiver_iff, modbusCrc16_eq_iff]

/-- Reading 40 registers of device 42 is one of the requests with a right checksum. -/
theorem modbusCrc16_conforms_iff_device :
    (modbusCrc16 [0xFF] = crc16Modbus [0xFF] ↔ GapsCancel [0xFF]) ∧
      (ConformingReceiver [42, 4, 0, 0, 0, 40, 0xF6, 0x0F] ↔ GapsCancel [42, 4, 0, 0, 0, 40]) ∧
      GapsCancel [0xFF] ∧ GapsCancel [42, 4, 0, 0, 0, 40] := by
  have built : modbusBuildRequestRtu 8 ⟨42, 4, 0, 40⟩ =
      some [42, 4, 0, 0, 0, 40, 0xF6, 0x0F] := by decide +kernel
  obtain ⟨checksum, receiver⟩ := modbusCrc16_conforms_iff [0xFF] built
  exact ⟨checksum, receiver, by decide +kernel, by decide +kernel⟩

/-- The message of the unit test. -/
theorem modbusCrc16_ne_bitwise :
    modbusCrc16 [0x01, 0x03, 0x00, 0x00, 0x00, 0x0A] = 0xC4B7 ∧
      crc16Modbus [0x01, 0x03, 0x00, 0x00, 0x00, 0x0A] = 0xCDC5 ∧
      modbusCrc16 [0x01, 0x03, 0x00, 0x00, 0x00, 0x0A] ≠
        crc16Modbus [0x01, 0x03, 0x00, 0x00, 0x00, 0x0A] := by
  decide +kernel

end Control

end MiniIotRobotEdge

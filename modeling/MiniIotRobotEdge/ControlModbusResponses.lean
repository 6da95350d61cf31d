import MiniIotRobotEdge.ByteMemory
import MiniIotRobotEdge.ControlModbusCrc

/-!
# The Modbus responses of mini-industrial-control

What the two parsers of a response read of the buffer and write behind `data`,
next to the value they return.  The byte count comes from the frame and is
larger than the array can be; an exception is reported before its checksum is
looked at.
-/

namespace MiniIotRobotEdge

namespace Control

def modbusMaxPduSize : Nat := 253

/-- The response, with the memory from `data` on. -/
structure ModbusResponse where
  slaveAddress : UInt8
  functionCode : UInt8
  byteCount : UInt8
  data : Memory

structure ModbusMbapHeader where
  transactionId : BitVec 16
  protocolId : BitVec 16
  length : BitVec 16
  unitId : UInt8
  deriving DecidableEq

/-- The value of a call with the response it leaves.  The ranges it reads and
writes, as offsets with lengths, count from `buffer` and from `data`. -/
structure ParseRun where
  value : Int
  response : ModbusResponse
  reads : List (Nat × Nat) := []
  writes : List (Nat × Nat) := []

def modbusIsException (resp : ModbusResponse) : Bool := resp.functionCode &&& 0x80 ≠ 0

section Model

variable (buffer : Memory) (length : Nat) (resp : ModbusResponse)

/-- `memcpy` from an offset of the buffer to `data`. -/
def ModbusResponse.copyFrom (offset count : Nat) : ModbusResponse :=
  { resp with data := fun index => if index < count then buffer (offset + index) else
      resp.data index }

def modbusParseResponseRtu : ParseRun :=
  if length < 4 then { value := -1, response := resp }
  else
    let resp := { resp with slaveAddress := buffer 0, functionCode := buffer 1 }
    if modbusIsException resp = true then { value := 3, response := resp, reads := [(0, 2)] }
    else
      let resp := { resp with byteCount := buffer 2 }
      let count : Nat := resp.byteCount.toNat
      if length < 3 + count + 2 then { value := -1, response := resp, reads := [(0, 3)] }
      else
        let resp := resp.copyFrom buffer 3 count
        -- the checksum is taken over the whole buffer
        if modbusVerifyCrc (buffer.bytes 0 length) = false then
          { value := -2, response := resp, reads := [(0, 3), (3, count), (0, length)]
            writes := [(0, count)] }
        else
          { value := 3 + count + 2, response := resp, reads := [(0, 3), (3, count), (0, length)]
            writes := [(0, count)] }

/-- The word of two bytes, the high one first. -/
def bigEndianWord (high low : UInt8) : BitVec 16 :=
  high.toBitVec.setWidth 16 <<< 8 ||| low.toBitVec.setWidth 16

/-- The header of a buffer that is long enough for one. -/
def modbusParseMbapHeader : Option ModbusMbapHeader :=
  if length < 7 then none
  else some
    { transactionId := bigEndianWord (buffer 0) (buffer 1)
      protocolId := bigEndianWord (buffer 2) (buffer 3)
      length := bigEndianWord (buffer 4) (buffer 5)
      unitId := buffer 6 }

def modbusParseResponseTcp : ParseRun :=
  if length < 9 then { value := -1, response := resp }
  else match modbusParseMbapHeader buffer length with
    | none => { value := -1, response := resp }
    | some header =>
        let resp := { resp with slaveAddress := header.unitId, functionCode := buffer 7 }
        if modbusIsException resp = true then
          { value := 9, response := resp, reads := [(0, 7), (7, 1)] }
        else
          let resp := { resp with byteCount := buffer 8 }
          let count : Nat := resp.byteCount.toNat
          -- the byte count is not compared with the length
          { value := 9 + count, response := resp.copyFrom buffer 9 count
            reads := [(0, 7), (7, 1), (8, 1), (9, count)], writes := [(0, count)] }

end Model

section Spec

/-- Reads inside of the buffer, writes inside of the array, and a value that
does not exceed the length. -/
structure ParseRun.Inside (run : ParseRun) (length : Nat) : Prop where
  reads : ∀ range ∈ run.reads, range.1 + range.2 ≤ length
  writes : ∀ range ∈ run.writes, range.1 + range.2 ≤ modbusMaxPduSize
  value : run.value ≤ length

variable (buffer : Memory) (length : Nat) (resp : ModbusResponse)

/-- The frame of the length that is returned has a good checksum. -/
def RtuResponseChecked : Prop :=
  let run := modbusParseResponseRtu buffer length resp
  run.Inside length ∧
    (0 ≤ run.value → modbusVerifyCrc (buffer.bytes 0 run.value.toNat) = true)

/-- The bytes that a response declares have been received. -/
def TcpResponseChecked : Prop :=
  let run := modbusParseResponseTcp buffer length resp
  run.Inside length ∧
    (0 ≤ run.value → modbusIsException run.response = true ∨
      9 + run.response.byteCount.toNat ≤ length)

/-- The function code of the frame has the bit of an exception. -/
def ExceptionCode (code : UInt8) : Prop := code &&& 0x80 ≠ 0

instance (code : UInt8) : Decidable (ExceptionCode code) := inferInstanceAs (Decidable (_ ≠ _))

/-- The frames with which the RTU parser copes: too short ones; exceptions
whose three bytes happen to end with their checksum; and responses that fit in
the array and whose own frame is good if the buffer is. -/
def RtuFrameHandled : Prop :=
  let count := (buffer 2).toNat
  length < 4 ∨
    (ExceptionCode (buffer 1) ∧ modbusVerifyCrc (buffer.bytes 0 3) = true) ∨
    (¬ ExceptionCode (buffer 1) ∧
      (length < 5 + count ∨
        (count ≤ modbusMaxPduSize ∧
          (modbusVerifyCrc (buffer.bytes 0 length) = true →
            modbusVerifyCrc (buffer.bytes 0 (5 + count)) = true))))

/-- The frames with which the TCP parser copes. -/
def TcpFrameHandled : Prop :=
  let count := (buffer 8).toNat
  length < 9 ∨ ExceptionCode (buffer 7) ∨ (9 + count ≤ length ∧ count ≤ modbusMaxPduSize)

end Spec

theorem isException_iff (resp : ModbusResponse) :
    modbusIsException resp = true ↔ ExceptionCode resp.functionCode := by
  simp [modbusIsException, ExceptionCode]

/-- Nothing was read or written before an error is returned. -/
theorem inside_error (resp : ModbusResponse) (length : Nat) :
    ({ value := -1, response := resp } : ParseRun).Inside length where
  reads := by simp
  writes := by simp
  value := by simp

section Rtu

variable (buffer : Memory) (length : Nat) (resp : ModbusResponse)

theorem rtu_short (short : length < 4) : RtuResponseChecked buffer length resp := by
  have run : modbusParseResponseRtu buffer length resp = { value := -1, response := resp } := by
    rw [modbusParseResponseRtu, if_pos short]
  rw [RtuResponseChecked, run]
  exact ⟨inside_error resp length, by simp⟩

/-- Of an exception three bytes are reported. -/
theorem rtu_exception_iff (long : 4 ≤ length) (exception : ExceptionCode (buffer 1)) :
    RtuResponseChecked buffer length resp ↔ modbusVerifyCrc (buffer.bytes 0 3) = true := by
  have run : modbusParseResponseRtu buffer length resp =
      { value := 3, reads := [(0, 2)]
        response := { resp with slaveAddress := buffer 0, functionCode := buffer 1 } } := by
    simp only [modbusParseResponseRtu, isException_iff]
    rw [if_neg (by omega), if_pos exception]
  rw [RtuResponseChecked, run]
  constructor
  · rintro ⟨-, checked⟩
    exact checked (show (0 : Int) ≤ 3 by decide)
  · intro verified
    refine ⟨?_, fun _ => verified⟩
    constructor
    · simp
      omega
    · simp
    · simp
      omega

theorem rtu_truncated (long : 4 ≤ length) (regular : ¬ ExceptionCode (buffer 1))
    (truncated : length < 5 + (buffer 2).toNat) : RtuResponseChecked buffer length resp := by
  have run : modbusParseResponseRtu buffer length resp =
      { value := -1, reads := [(0, 3)]
        response := { resp with slaveAddress := buffer 0, functionCode := buffer 1
                                byteCount := buffer 2 } } := by
    simp only [modbusParseResponseRtu, isException_iff]
    rw [if_neg (by omega), if_neg regular, if_pos (by omega)]
  rw [RtuResponseChecked, run]
  refine ⟨?_, by simp⟩
  constructor
  · simp
    omega
  · simp
  · simp

/-- The ranges of a response that is copied. -/
theorem inside_copied_iff (value : Int) (count : Nat) (fits : 5 + count ≤ length)
    (small : value ≤ length) :
    ({ value := value, response := resp, reads := [(0, 3), (3, count), (0, length)]
       writes := [(0, count)] } : ParseRun).Inside length ↔ count ≤ modbusMaxPduSize := by
  constructor
  · intro inside
    simpa using inside.writes (0, count) (by simp)
  · intro bounded
    constructor
    · simp
      omega
    · simpa using bounded
    · exact small

/-- A response of which all bytes are there, as far as they are counted. -/
theorem rtu_whole_iff (regular : ¬ ExceptionCode (buffer 1))
    (whole : 5 + (buffer 2).toNat ≤ length) :
    RtuResponseChecked buffer length resp ↔
      (buffer 2).toNat ≤ modbusMaxPduSize ∧
        (modbusVerifyCrc (buffer.bytes 0 length) = true →
          modbusVerifyCrc (buffer.bytes 0 (5 + (buffer 2).toNat)) = true) := by
  have run := modbusParseResponseRtu.eq_1 buffer length resp
  simp only [isException_iff] at run
  rw [if_neg (by omega), if_neg regular, if_neg (by omega)] at run
  rw [RtuResponseChecked, run]
  by_cases verified : modbusVerifyCrc (buffer.bytes 0 length) = true
  · have value : ((3 + (buffer 2).toNat + 2 : Int)).toNat = 5 + (buffer 2).toNat := by omega
    simp only [verified, Bool.true_eq_false, if_false, value, forall_const]
    rw [inside_copied_iff length _ _ _ whole (by omega)]
    have reported : (0 : Int) ≤ 3 + (buffer 2).toNat + 2 := by omega
    simp only [reported, forall_const]
  · simp only [Bool.not_eq_true] at verified
    simp only [verified, if_true]
    rw [inside_copied_iff length _ _ _ whole (by omega)]
    simp

theorem rtuResponseChecked_iff :
    RtuResponseChecked buffer length resp ↔ RtuFrameHandled buffer length := by
  rw [RtuFrameHandled]
  by_cases short : length < 4
  · simp [short, rtu_short buffer length resp short]
  · by_cases exception : ExceptionCode (buffer 1)
    · simpa [short, exception] using
        rtu_exception_iff buffer length resp (by omega) exception
    · by_cases truncated : length < 5 + (buffer 2).toNat
      · simp [exception, truncated,
          rtu_truncated buffer length resp (by omega) exception truncated]
      · simpa [short, exception, truncated] using
          rtu_whole_iff buffer length resp exception (by omega)

end Rtu

section Tcp

variable (buffer : Memory) (length : Nat) (resp : ModbusResponse)

theorem tcp_short (short : length < 9) : TcpResponseChecked buffer length resp := by
  have run : modbusParseResponseTcp buffer length resp = { value := -1, response := resp } := by
    rw [modbusParseResponseTcp, if_pos short]
  rw [TcpResponseChecked, run]
  exact ⟨inside_error resp length, by simp⟩

theorem tcp_exception (long : 9 ≤ length) (exception : ExceptionCode (buffer 7)) :
    TcpResponseChecked buffer length resp := by
  have run : modbusParseResponseTcp buffer length resp =
      { value := 9, reads := [(0, 7), (7, 1)]
        response := { resp with slaveAddress := buffer 6, functionCode := buffer 7 } } := by
    simp only [modbusParseResponseTcp, modbusParseMbapHeader, isException_iff]
    rw [if_neg (by omega), if_neg (by omega)]
    simp only [if_pos exception]
  rw [TcpResponseChecked, run]
  refine ⟨?_, fun _ => .inl ((isException_iff _).mpr exception)⟩
  constructor
  · simp
    omega
  · simp
  · simp
    omega

/-- A response is copied whatever was received of it. -/
theorem tcp_regular_iff (long : 9 ≤ length) (regular : ¬ ExceptionCode (buffer 7)) :
    TcpResponseChecked buffer length resp ↔
      9 + (buffer 8).toNat ≤ length ∧ (buffer 8).toNat ≤ modbusMaxPduSize := by
  have run := modbusParseResponseTcp.eq_1 buffer length resp
  simp only [modbusParseMbapHeader, isException_iff] at run
  rw [if_neg (by omega), if_neg (by omega)] at run
  simp only [if_neg regular] at run
  rw [TcpResponseChecked, run]
  constructor
  · rintro ⟨inside, -⟩
    exact ⟨by simpa using inside.reads (9, (buffer 8).toNat) (by simp),
      by simpa using inside.writes (0, (buffer 8).toNat) (by simp)⟩
  · rintro ⟨fits, bounded⟩
    refine ⟨?_, fun _ => .inr fits⟩
    constructor
    · simp
      omega
    · simpa using bounded
    · simp
      omega

theorem tcpResponseChecked_iff :
    TcpResponseChecked buffer length resp ↔ TcpFrameHandled buffer length := by
  rw [TcpFrameHandled]
  by_cases short : length < 9
  · simp [short, tcp_short buffer length resp short]
  · by_cases exception : ExceptionCode (buffer 7)
    · simp [exception, tcp_exception buffer length resp (by omega) exception]
    · simpa [short, exception] using
        tcp_regular_iff buffer length resp (by omega) exception

end Tcp

/-- Each parser stays inside of its arrays, checks what it reports and reports
no more than was received exactly for the frames with which it copes. -/
theorem responsesChecked_iff (buffer : Memory) (length : Nat) (resp : ModbusResponse) :
    (RtuResponseChecked buffer length resp ↔ RtuFrameHandled buffer length) ∧
    (TcpResponseChecked buffer length resp ↔ TcpFrameHandled buffer length) :=
  ⟨rtuResponseChecked_iff buffer length resp, tcpResponseChecked_iff buffer length resp⟩

/-- An exception with the checksum zero is reported, and five bytes are copied
from behind a TCP header that ends the buffer. -/
theorem responses_unchecked :
    let resp : ModbusResponse := { slaveAddress := 0, functionCode := 0, byteCount := 0
                                   data := fun _ => 0 }
    let rtu : List UInt8 := [1, 0x83, 2, 0, 0]
    let tcp : List UInt8 := [0, 1, 0, 0, 0, 3, 1, 3, 5]
    ¬ RtuResponseChecked (fun i => rtu.getD i 0) 5 resp ∧
      ¬ TcpResponseChecked (fun i => tcp.getD i 0) 9 resp := by
  intro resp rtu tcp
  constructor
  · rw [rtu_exception_iff _ 5 resp (by decide) (by decide)]
    decide +kernel
  · rw [tcp_regular_iff _ 9 resp (by decide) (by decide)]
    decide

end Control

end MiniIotRobotEdge

import Mathlib.Tactic.SplitIfs
import MiniIotRobotEdge.ByteMemory
import MiniIotRobotEdge.EdgeCrypto
import MiniIotRobotEdge.StepRuns

/-!
# The secure store of mini-edge-security

The model of the functions in `trustzone_arm.c` that write to the 4096 bytes of
`secure_kv_store`.  Counters, entries, fault records, interrupt priorities and
images all have their places there.  Where a call puts its record, and with
which bytes, is worked out from the call and the state before it; a counter is
spared when the first of its bytes that the record changes gets larger.
-/

namespace MiniIotRobotEdge

namespace Edge

open ByteCounter PackedBytes StepRuns

inductive SecureWorld
  | nonsecure
  | secure
  deriving DecidableEq, Repr

inductive SauAttribute
  | nsec
  | secureNsc
  | secure
  deriving DecidableEq, Repr

inductive TfmState
  | idle
  | init
  | running
  | isolated
  | error
  deriving DecidableEq, Repr

inductive PsaLifecycle
  | unknown
  | assembly
  | provisioning
  | secured
  | decommissioned
  deriving DecidableEq, Repr

structure SauRegion where
  baseAddr : UInt32
  limitAddr : UInt32
  attr : SauAttribute
  enabled : Bool

structure SauContext where
  regions : Nat → SauRegion
  regionCount : Nat
  sauEnabled : Bool

/-- The fields that the calls on the store read and write. -/
structure TrustZoneCore where
  currentWorld : SecureWorld
  sau : SauContext
  tfmState : TfmState
  lifecycle : PsaLifecycle
  rotKey : Vector UInt8 32
  secureKvStore : Memory
  partitionCount : Nat

def trustzoneHashSimple (data : Bytes) : UInt32 :=
  data.foldl (fun h byte => (h ^^^ byte.toUInt32) * 0x01000193) 0x811C9DC5

def trustzoneInit : TrustZoneCore where
  currentWorld := .secure
  sau := ⟨fun _ => ⟨0, 0, .nsec, false⟩, 0, false⟩
  tfmState := .idle
  lifecycle := .assembly
  rotKey := arrayOf 32 fun i => UInt8.ofNat (0xB0 + i * 3)
  secureKvStore := fun _ => 0
  partitionCount := 0

def trustzoneSauConfigure (sau : SauContext) (regionIdx : Int) (base limit : UInt32)
    (attr : SauAttribute) : SauContext :=
  if regionIdx < 0 ∨ 8 ≤ regionIdx then sau
  else
    { sau with
      regions := Function.update sau.regions regionIdx.toNat ⟨base, limit, attr, true⟩
      regionCount :=
        if sau.regionCount ≤ regionIdx.toNat then regionIdx.toNat + 1 else sau.regionCount }

def trustzoneTfmInit (tz : TrustZoneCore) : TrustZoneCore :=
  { tz with
    tfmState := .init
    secureKvStore := tz.secureKvStore.fill 0 4096 0
    lifecycle := .provisioning
    sau := { tz.sau with sauEnabled := true } }

/-- The loops that store one byte after the other. -/
def storeEach (store : Memory) (base count : Nat) (byte : Nat → UInt8) : Memory :=
  (List.range count).foldl (fun store i => Function.update store (base + i) (byte i)) store

def storageIndex (key : Vector UInt8 16) : Nat :=
  (trustzoneHashSimple key.toList).toNat % (4096 - 256)

/-- The value is as long as `vlen` says, as far as it is read. -/
def trustzoneSecureStorageWrite (tz : TrustZoneCore) (key : Vector UInt8 16) (value : Bytes)
    (vlen : Int) : TrustZoneCore :=
  let idx := storageIndex key
  let store := Function.update tz.secureKvStore idx (UInt8.ofInt vlen)
  let store := Function.update store (idx + 1) (UInt8.ofInt (vlen / 256))
  { tz with
    secureKvStore := storeEach store (idx + 4) (min vlen.toNat 252) fun i =>
      byteAt value i ^^^ arrayAt tz.rotKey (i % 32) }

/-- Store the low bytes of the number, the last one first. -/
def storeCounter (store : Memory) (base : Nat) : Nat → UInt64 → Memory
  | 0, _ => store
  | i + 1, ctrVal =>
      storeCounter (Function.update store (base + i) ctrVal.toUInt8) base i (ctrVal >>> 8)

def loadCounter (store : Memory) (base : Nat) : UInt64 :=
  (List.range 8).foldl (fun val i => (val <<< 8) ||| (store (base + i)).toUInt64) 0

/-- A negative index would reach in front of the array. -/
def trustzoneNvCounterIncrement (tz : TrustZoneCore) (counterIdx : Int) : TrustZoneCore :=
  if 4096 < counterIdx * 8 + 8 then tz
  else
    let base := (counterIdx * 8).toNat
    { tz with
      secureKvStore :=
        storeCounter tz.secureKvStore base 8 (loadCounter tz.secureKvStore base + 1) }

def trustzoneNvCounterRead (tz : TrustZoneCore) (counterIdx : Int) : UInt64 :=
  if 4096 < counterIdx * 8 + 8 then 0
  else loadCounter tz.secureKvStore (counterIdx * 8).toNat

def trustzoneIsolatePartition (tz : TrustZoneCore) (partitionId : Int) : TrustZoneCore :=
  if 8 ≤ tz.partitionCount then tz
  else if tz.tfmState = .isolated then tz
  else
    let base := 0x20000000 + UInt32.ofInt (partitionId * 0x10000)
    { tz with
      sau := trustzoneSauConfigure tz.sau partitionId base (base + 0xFFFF) .secure
      partitionCount := tz.partitionCount + 1
      tfmState := .isolated }

/-- The address is hashed in its bytes, the lowest first. -/
def faultIndex (faultAddr : UInt32) : Nat :=
  (trustzoneHashSimple (littleEndian 4 faultAddr.toNat)).toNat % (4096 - 16)

def trustzoneHandleSecureFault (tz : TrustZoneCore) (faultAddr : UInt32) (faultType : Int) :
    TrustZoneCore :=
  let idx := faultIndex faultAddr
  let store := Function.update tz.secureKvStore idx (UInt8.ofInt faultType)
  let store := Function.update store (idx + 1) faultAddr.toUInt8
  { tz with
    tfmState := if tz.tfmState = .running then .error else tz.tfmState
    secureKvStore := Function.update store (idx + 2) (faultAddr >>> 8).toUInt8 }

/-- The call is one that `trustzone_nvic_set_priority` turns down. -/
def TrustZoneCore.PriorityRefused (tz : TrustZoneCore) (irqNum : Int) (isSecure : Bool) : Prop :=
  isSecure = true ∧ tz.currentWorld = .nonsecure ∨ irqNum < 0 ∨ 256 ≤ irqNum

instance (tz : TrustZoneCore) (irqNum : Int) (isSecure : Bool) :
    Decidable (tz.PriorityRefused irqNum isSecure) :=
  inferInstanceAs (Decidable (_ ∨ _))

def trustzoneNvicSetPriority (tz : TrustZoneCore) (irqNum priority : Int) (isSecure : Bool) :
    TrustZoneCore :=
  if tz.PriorityRefused irqNum isSecure then tz
  else
    { tz with
      secureKvStore := Function.update tz.secureKvStore (irqNum.toNat % (4096 / 4))
        (UInt8.ofInt priority) }

/-- The call is one that `trustzone_spm_load_partition` turns down. -/
def TrustZoneCore.LoadRefused (tz : TrustZoneCore) (imgLen : Int) : Prop :=
  8 ≤ tz.partitionCount ∨ imgLen ≤ 0 ∨ 0x10000 < imgLen

instance (tz : TrustZoneCore) (imgLen : Int) : Decidable (tz.LoadRefused imgLen) :=
  inferInstanceAs (Decidable (_ ∨ _))

def trustzoneSpmLoadPartition (tz : TrustZoneCore) (partitionId : Int) (image : Bytes)
    (imgLen : Int) : TrustZoneCore × Bool :=
  if tz.LoadRefused imgLen then (tz, false)
  else
    let next := trustzoneIsolatePartition tz partitionId
    let store := (List.range (min imgLen.toNat 256)).foldl (fun store i =>
      Function.update store ((next.partitionCount * 256 + i) % 4096) (byteAt image i))
      next.secureKvStore
    ({ next with secureKvStore := store }, next.tfmState = .isolated)

inductive TrustZoneCall
  | nvCounterIncrement (counterIdx : Int)
  | secureStorageWrite (key : Vector UInt8 16) (value : Bytes) (vlen : Int)
  | handleSecureFault (faultAddr : UInt32) (faultType : Int)
  | nvicSetPriority (irqNum priority : Int) (isSecure : Bool)
  | spmLoadPartition (partitionId : Int) (image : Bytes) (imgLen : Int)

def trustzoneStep (tz : TrustZoneCore) : TrustZoneCall → TrustZoneCore
  | .nvCounterIncrement counterIdx => trustzoneNvCounterIncrement tz counterIdx
  | .secureStorageWrite key value vlen => trustzoneSecureStorageWrite tz key value vlen
  | .handleSecureFault faultAddr faultType => trustzoneHandleSecureFault tz faultAddr faultType
  | .nvicSetPriority irqNum priority isSecure =>
      trustzoneNvicSetPriority tz irqNum priority isSecure
  | .spmLoadPartition partitionId image imgLen =>
      (trustzoneSpmLoadPartition tz partitionId image imgLen).1

/-- The index and the partition are ones for which the call computes its
addresses without overflow and inside the array. -/
def TrustZoneCall.Defined (tz : TrustZoneCore) : TrustZoneCall → Prop
  | .nvCounterIncrement counterIdx => 0 ≤ counterIdx ∧ counterIdx * 8 + 8 < 2 ^ 31
  | .spmLoadPartition partitionId _ imgLen =>
      tz.LoadRefused imgLen ∨ tz.tfmState = .isolated ∨ -2 ^ 15 ≤ partitionId ∧ partitionId < 2 ^ 15
  | _ => True

/-- The counters of the store go up by one with their own increments, and never
down. -/
structure CountersKept (tz : TrustZoneCore) (call : TrustZoneCall) : Prop where
  defined : call.Defined tz
  counted : ∀ counter < 512, call = .nvCounterIncrement (counter : Nat) →
    (trustzoneNvCounterRead tz (counter : Nat)).toNat + 1 < 2 ^ 64 →
      (trustzoneNvCounterRead (trustzoneStep tz call) (counter : Nat)).toNat =
        (trustzoneNvCounterRead tz (counter : Nat)).toNat + 1
  monotone : ∀ counter < 512, call ≠ .nvCounterIncrement (counter : Nat) →
    (trustzoneNvCounterRead tz (counter : Nat)).toNat ≤
      (trustzoneNvCounterRead (trustzoneStep tz call) (counter : Nat)).toNat

section Records

/-- The strings that a call puts into the store beside the counters, with their
addresses. -/
def recordsOf (tz : TrustZoneCore) : TrustZoneCall → List (Nat × Bytes)
  | .nvCounterIncrement _ => []
  | .secureStorageWrite key value vlen =>
      [(storageIndex key + 4, (List.range (min vlen.toNat 252)).map fun i =>
          byteAt value i ^^^ arrayAt tz.rotKey (i % 32)),
        (storageIndex key, [UInt8.ofInt vlen, UInt8.ofInt (vlen / 256)])]
  | .handleSecureFault faultAddr faultType =>
      [(faultIndex faultAddr,
        [UInt8.ofInt faultType, faultAddr.toUInt8, (faultAddr >>> 8).toUInt8])]
  | .nvicSetPriority irqNum priority isSecure =>
      if tz.PriorityRefused irqNum isSecure then [] else [(irqNum.toNat, [UInt8.ofInt priority])]
  | .spmLoadPartition _ image imgLen =>
      if tz.LoadRefused imgLen then []
      else
        [((if tz.tfmState = .isolated then tz.partitionCount else tz.partitionCount + 1) * 256,
          (List.range (min imgLen.toNat 256)).map (byteAt image))]

/-- The byte that the records put at an address. -/
def recordedAt (records : List (Nat × Bytes)) (address : Nat) : Option UInt8 :=
  records.findSome? fun record =>
    if record.1 ≤ address ∧ address < record.1 + record.2.length then
      some (byteAt record.2 (address - record.1))
    else none

/-- In each counter, the first byte that the records change gets larger. -/
def RecordsRaise (store : Memory) (records : List (Nat × Bytes)) : Prop :=
  ∀ counter < 512, ∀ offset < 8, ∀ byte ∈ recordedAt records (counter * 8 + offset),
    (∀ earlier < offset, ∀ other ∈ recordedAt records (counter * 8 + earlier),
      other = store (counter * 8 + earlier)) →
    store (counter * 8 + offset) ≤ byte

/-- The call stays inside the array, and what it records in a counter raises
the counter. -/
def CallSparesCounters (tz : TrustZoneCore) (call : TrustZoneCall) : Prop :=
  call.Defined tz ∧ RecordsRaise tz.secureKvStore (recordsOf tz call)

/-- The records in the store, the ones in front on top. -/
def writeRecords (store : Memory) (records : List (Nat × Bytes)) : Memory :=
  records.foldr (fun record store => store.writeBytes record.1 record.2) store

theorem writeRecords_apply (store : Memory) (records : List (Nat × Bytes)) (address : Nat) :
    writeRecords store records address = (recordedAt records address).getD (store address) := by
  induction records with
  | nil => rfl
  | cons record rest ih =>
      rw [writeRecords, List.foldr_cons, Memory.writeBytes, recordedAt, List.findSome?_cons]
      split_ifs with covered
      · rfl
      · exact ih

/-- A string and the byte behind it. -/
theorem writeBytes_snoc (store : Memory) (base : Nat) (front : Bytes) (last : UInt8) :
    Function.update (store.writeBytes base front) (base + front.length) last =
      store.writeBytes base (front ++ [last]) := by
  rw [← Memory.writeBytes_append]
  ext address
  by_cases here : address = base + front.length
  · subst here
    simp [Memory.writeBytes]
  · have outside : address < base + front.length ∨
        base + front.length + [last].length ≤ address := by
      rw [List.length_singleton]
      omega
    rw [Function.update_of_ne here, Memory.writeBytes_outside outside]

theorem update_eq_writeBytes (store : Memory) (base : Nat) (byte : UInt8) :
    Function.update store base byte = store.writeBytes base [byte] := by
  have single := writeBytes_snoc store base [] byte
  rwa [Memory.writeBytes_nil] at single

theorem storeEach_eq (store : Memory) (base count : Nat) (byte : Nat → UInt8) :
    storeEach store base count byte = store.writeBytes base ((List.range count).map byte) := by
  induction count with
  | zero => exact (Memory.writeBytes_nil store base).symm
  | succ count ih =>
      have last := writeBytes_snoc store base ((List.range count).map byte) (byte count)
      rw [List.length_map, List.length_range] at last
      rw [storeEach, List.range_succ, List.foldl_append, ← storeEach, ih, List.foldl_cons,
        List.foldl_nil, last, List.map_append, List.map_singleton]

theorem isolatePartition_store (tz : TrustZoneCore) (partitionId : Int) :
    (trustzoneIsolatePartition tz partitionId).secureKvStore = tz.secureKvStore := by
  unfold trustzoneIsolatePartition
  split_ifs <;> rfl

theorem isolatePartition_partitionCount {tz : TrustZoneCore} (room : tz.partitionCount < 8)
    (partitionId : Int) : (trustzoneIsolatePartition tz partitionId).partitionCount =
      if tz.tfmState = .isolated then tz.partitionCount else tz.partitionCount + 1 := by
  rw [trustzoneIsolatePartition, if_neg (by omega)]
  split_ifs <;> rfl

/-- An image lies in front of the end of the array. -/
theorem spmLoadPartition_store {tz : TrustZoneCore} {imgLen : Int}
    (accepted : ¬tz.LoadRefused imgLen) (partitionId : Int) (image : Bytes) :
    (trustzoneSpmLoadPartition tz partitionId image imgLen).1.secureKvStore =
      tz.secureKvStore.writeBytes
        ((if tz.tfmState = .isolated then tz.partitionCount else tz.partitionCount + 1) * 256)
        ((List.range (min imgLen.toNat 256)).map (byteAt image)) := by
  have room : tz.partitionCount < 8 := by
    unfold TrustZoneCore.LoadRefused at accepted
    omega
  have count := isolatePartition_partitionCount room partitionId
  have bound : (trustzoneIsolatePartition tz partitionId).partitionCount ≤ 8 := by
    rw [count]
    split_ifs <;> omega
  rw [trustzoneSpmLoadPartition, if_neg accepted, ← count, ← storeEach_eq, storeEach]
  dsimp only
  rw [isolatePartition_store]
  apply List.foldl_ext
  intro store index inside
  have indexBound := List.mem_range.mp inside
  rw [Nat.mod_eq_of_lt (by omega)]

/-- What a call other than an increment does to the store. -/
theorem step_store {tz : TrustZoneCore} {call : TrustZoneCall}
    (other : ∀ counterIdx, call ≠ .nvCounterIncrement counterIdx) :
    (trustzoneStep tz call).secureKvStore = writeRecords tz.secureKvStore (recordsOf tz call) := by
  cases call with
  | nvCounterIncrement counterIdx => exact absurd rfl (other counterIdx)
  | secureStorageWrite key value vlen =>
      simp only [trustzoneStep, trustzoneSecureStorageWrite, recordsOf, writeRecords,
        List.foldr_cons, List.foldr_nil, storeEach_eq, update_eq_writeBytes]
      congr 1
      exact Memory.writeBytes_append tz.secureKvStore (storageIndex key) [_] [_]
  | handleSecureFault faultAddr faultType =>
      simp only [trustzoneStep, trustzoneHandleSecureFault, recordsOf, writeRecords,
        List.foldr_cons, List.foldr_nil, update_eq_writeBytes]
      have front : (tz.secureKvStore.writeBytes (faultIndex faultAddr)
          [UInt8.ofInt faultType]).writeBytes (faultIndex faultAddr + 1) [faultAddr.toUInt8] =
          tz.secureKvStore.writeBytes (faultIndex faultAddr)
            [UInt8.ofInt faultType, faultAddr.toUInt8] :=
        Memory.writeBytes_append tz.secureKvStore (faultIndex faultAddr) [_] [_]
      rw [front]
      exact Memory.writeBytes_append tz.secureKvStore (faultIndex faultAddr) [_, _] [_]
  | nvicSetPriority irqNum priority isSecure =>
      rw [trustzoneStep, trustzoneNvicSetPriority, recordsOf]
      split_ifs with refused
      · rfl
      · have inside : irqNum.toNat % (4096 / 4) = irqNum.toNat := by
          unfold TrustZoneCore.PriorityRefused at refused
          omega
        simp only [inside, update_eq_writeBytes, writeRecords, List.foldr_cons, List.foldr_nil]
  | spmLoadPartition partitionId image imgLen =>
      rw [trustzoneStep, recordsOf]
      by_cases refused : tz.LoadRefused imgLen
      · rw [if_pos refused, trustzoneSpmLoadPartition, if_pos refused]
        rfl
      · rw [if_neg refused, spmLoadPartition_store refused]
        rfl

end Records

section Counters

/-- Accumulated bytes stand for their number, as long as they fit. -/
theorem toNat_accumulate (bytes : Nat → UInt8) {count : Nat} (fits : count ≤ 8) :
    ((List.range count).foldl (fun (val : UInt64) i => (val <<< 8) ||| (bytes i).toUInt64)
      0).toNat = value ((List.range count).map bytes) := by
  induction count with
  | zero => rfl
  | succ count ih =>
      have bound := value_lt ((List.range count).map bytes)
      rw [List.length_map, List.length_range] at bound
      have room : 256 ^ count ≤ 256 ^ 7 := Nat.pow_le_pow_right (by decide) (by omega)
      have small := (bytes count).toNat_lt
      rw [List.range_succ, List.foldl_append, List.map_append, List.map_singleton, value_append,
        List.foldl_cons, List.foldl_nil, UInt64.toNat_or, UInt64.toNat_shiftLeft, ih (by omega),
        UInt8.toNat_toUInt64]
      have eight : (8 : UInt64).toNat % 64 = 8 := rfl
      rw [eight, Nat.mod_eq_of_lt (by rw [Nat.shiftLeft_eq]; omega),
        ← Nat.shiftLeft_add_eq_or_of_lt small, Nat.shiftLeft_eq]
      omega

theorem loadCounter_toNat (store : Memory) (base : Nat) :
    (loadCounter store base).toNat = value (store.bytes base 8) :=
  toNat_accumulate (fun i => store (base + i)) (Nat.le_refl 8)

theorem storeCounter_outside {store : Memory} {base count address : Nat} {ctrVal : UInt64}
    (outside : address < base ∨ base + count ≤ address) :
    storeCounter store base count ctrVal address = store address := by
  induction count generalizing store ctrVal with
  | zero => rfl
  | succ count ih =>
      rw [storeCounter, ih (by omega), Function.update_of_ne (by omega)]

theorem value_storeCounter (store : Memory) (base count : Nat) (ctrVal : UInt64) :
    value ((storeCounter store base count ctrVal).bytes base count) =
      ctrVal.toNat % 256 ^ count := by
  induction count generalizing store ctrVal with
  | zero => simp [Memory.bytes, value, ofLittleEndian, Nat.mod_one]
  | succ count ih =>
      have last : storeCounter store base (count + 1) ctrVal (base + count) = ctrVal.toUInt8 := by
        rw [storeCounter, storeCounter_outside (by omega), Function.update_self]
      have behind : (storeCounter store base (count + 1) ctrVal).bytes (base + count) 1 =
          [ctrVal.toUInt8] := by
        rw [← last]
        rfl
      rw [Memory.bytes_append, behind, value_append, storeCounter, ih, UInt64.toNat_shiftRight,
        UInt64.toNat_toUInt8]
      have eight : (8 : UInt64).toNat % 64 = 8 := rfl
      have split : ctrVal.toNat % 256 ^ (count + 1) =
          ctrVal.toNat % 256 + 256 * (ctrVal.toNat / 256 % 256 ^ count) := by
        rw [Nat.pow_succ', Nat.mod_mul]
      have shifted : ctrVal.toNat >>> 8 = ctrVal.toNat / 256 := Nat.shiftRight_eq_div_pow _ 8
      rw [eight, shifted, split]
      omega

variable {tz : TrustZoneCore} {counter : Nat}

/-- What a counter stands at. -/
theorem nvCounterRead_toNat (inside : counter < 512) :
    (trustzoneNvCounterRead tz (counter : Nat)).toNat =
      value (tz.secureKvStore.bytes (counter * 8) 8) := by
  have place : ((counter : Int) * 8).toNat = counter * 8 := by omega
  rw [trustzoneNvCounterRead, if_neg (by omega), place, loadCounter_toNat]

/-- Records keep a counter from falling when the first byte that they change
in it gets larger. -/
theorem value_le_writeRecords_iff (store : Memory) (records : List (Nat × Bytes)) (base : Nat) :
    value (store.bytes base 8) ≤ value ((writeRecords store records).bytes base 8) ↔
      ∀ offset < 8, ∀ byte ∈ recordedAt records (base + offset),
        (∀ earlier < offset, ∀ other ∈ recordedAt records (base + earlier),
          other = store (base + earlier)) →
        store (base + offset) ≤ byte := by
  have stays (address : Nat) : writeRecords store records address = store address ↔
      ∀ other ∈ recordedAt records address, other = store address := by
    rw [writeRecords_apply]
    cases recordedAt records address <;> simp
  have raised (address : Nat) : store address ≤ writeRecords store records address ↔
      ∀ byte ∈ recordedAt records address, store address ≤ byte := by
    rw [writeRecords_apply]
    cases recordedAt records address <;> simp
  rw [Memory.bytes, Memory.bytes, value_le_iff]
  simp only [stays, raised]
  constructor
  · intro every offset inside byte recorded unchanged
    exact every offset inside unchanged byte recorded
  · intro every offset inside unchanged byte recorded
    exact every offset inside byte recorded unchanged

/-- An increment adds one to its own counter. -/
theorem increment_counts (inside : counter < 512) :
    (trustzoneNvCounterRead (trustzoneNvCounterIncrement tz (counter : Nat))
        (counter : Nat)).toNat =
      ((trustzoneNvCounterRead tz (counter : Nat)).toNat + 1) % 2 ^ 64 := by
  have place : ((counter : Int) * 8).toNat = counter * 8 := by omega
  have next : (loadCounter tz.secureKvStore (counter * 8) + 1).toNat =
      ((loadCounter tz.secureKvStore (counter * 8)).toNat + 1) % 2 ^ 64 := UInt64.toNat_add _ 1
  rw [nvCounterRead_toNat inside, nvCounterRead_toNat inside, trustzoneNvCounterIncrement,
    if_neg (by omega), place, value_storeCounter, next, loadCounter_toNat]
  exact Nat.mod_mod _ _

/-- An increment leaves every other counter alone. -/
theorem increment_keeps {counterIdx : Int} (inside : counter < 512) (positive : 0 ≤ counterIdx)
    (other : counterIdx ≠ counter) :
    trustzoneNvCounterRead (trustzoneNvCounterIncrement tz counterIdx) (counter : Nat) =
      trustzoneNvCounterRead tz (counter : Nat) := by
  apply UInt64.toNat_inj.mp
  rw [nvCounterRead_toNat inside, nvCounterRead_toNat inside, trustzoneNvCounterIncrement]
  split_ifs with beyond
  · rfl
  · congr 1
    apply Memory.bytes_congr
    intro address lower upper
    exact storeCounter_outside (by omega)

theorem increment_kept_iff (counterIdx : Int) :
    CountersKept tz (.nvCounterIncrement counterIdx) ↔
      CallSparesCounters tz (.nvCounterIncrement counterIdx) := by
  constructor
  · intro kept
    refine ⟨kept.defined, ?_⟩
    intro counter _ offset _ byte recorded
    contradiction
  · rintro ⟨defined, _⟩
    refine ⟨defined, ?_, ?_⟩
    · intro counter inside own below
      obtain rfl : counterIdx = counter := TrustZoneCall.nvCounterIncrement.inj own
      rw [trustzoneStep, increment_counts inside, Nat.mod_eq_of_lt below]
    · intro counter inside other
      have apart : counterIdx ≠ counter := by
        rintro rfl
        exact other rfl
      rw [trustzoneStep, increment_keeps inside defined.1 apart]

/-- A call keeps the counters exactly when it spares them. -/
theorem countersKept_iff (tz : TrustZoneCore) (call : TrustZoneCall) :
    CountersKept tz call ↔ CallSparesCounters tz call := by
  by_cases increments : ∃ counterIdx, call = .nvCounterIncrement counterIdx
  · obtain ⟨counterIdx, rfl⟩ := increments
    exact increment_kept_iff counterIdx
  · have other : ∀ counterIdx, call ≠ .nvCounterIncrement counterIdx :=
      not_exists.mp increments
    have compare : ∀ counter < 512, ((trustzoneNvCounterRead tz (counter : Nat)).toNat ≤
        (trustzoneNvCounterRead (trustzoneStep tz call) (counter : Nat)).toNat ↔
        ∀ offset < 8, ∀ byte ∈ recordedAt (recordsOf tz call) (counter * 8 + offset),
          (∀ earlier < offset, ∀ old ∈ recordedAt (recordsOf tz call) (counter * 8 + earlier),
            old = tz.secureKvStore (counter * 8 + earlier)) →
          tz.secureKvStore (counter * 8 + offset) ≤ byte) := by
      intro counter inside
      rw [nvCounterRead_toNat inside, nvCounterRead_toNat inside, step_store other,
        value_le_writeRecords_iff]
    constructor
    · intro kept
      refine ⟨kept.defined, fun counter inside => ?_⟩
      exact (compare counter inside).mp (kept.monotone counter inside (other _))
    · rintro ⟨defined, raises⟩
      refine ⟨defined, fun counter _ own => absurd own (other _), ?_⟩
      intro counter inside _
      exact (compare counter inside).mpr (raises counter inside)

/-- A priority spares the counters when it is not below the byte that stands
in its place. -/
theorem nvicSetPriority_spares_iff (irqNum priority : Int) (isSecure : Bool) :
    CallSparesCounters tz (.nvicSetPriority irqNum priority isSecure) ↔
      tz.PriorityRefused irqNum isSecure ∨
        tz.secureKvStore irqNum.toNat ≤ UInt8.ofInt priority := by
  unfold CallSparesCounters
  rw [recordsOf]
  split_ifs with refused
  · refine ⟨fun _ => .inl refused, fun _ => ⟨trivial, ?_⟩⟩
    intro counter _ offset _ byte recorded
    contradiction
  · have recorded (address : Nat) : recordedAt [(irqNum.toNat, [UInt8.ofInt priority])] address =
        if address = irqNum.toNat then some (UInt8.ofInt priority) else none := by
      by_cases here : address = irqNum.toNat
      · subst here
        simp [recordedAt, byteAt]
      · rw [if_neg here]
        simp only [recordedAt, List.findSome?_cons, List.length_singleton, List.findSome?_nil]
        rw [if_neg (by omega)]
    have bound : irqNum.toNat < 256 := by
      unfold TrustZoneCore.PriorityRefused at refused
      omega
    have place : irqNum.toNat / 8 * 8 + irqNum.toNat % 8 = irqNum.toNat := by omega
    simp only [refused, false_or, TrustZoneCall.Defined, true_and]
    constructor
    · intro raises
      have here := raises (irqNum.toNat / 8) (by omega) (irqNum.toNat % 8) (by omega)
        (UInt8.ofInt priority)
      rw [place] at here
      apply here
      · rw [recorded, if_pos rfl]
        rfl
      · intro earlier before other otherRecorded
        rw [recorded, if_neg (by omega)] at otherRecorded
        contradiction
    · intro larger counter _ offset _ byte byteRecorded _
      rw [recorded] at byteRecorded
      split_ifs at byteRecorded with here
      · rw [here, ← Option.some.inj byteRecorded]
        exact larger
      · contradiction

end Counters

/-- The counters are kept along a run exactly when every call stays in the
array and spares them. -/
theorem counters_kept_iff (tz : TrustZoneCore) (calls : List TrustZoneCall) :
    Throughout trustzoneStep CountersKept (trustzoneTfmInit tz) calls ↔
      Throughout trustzoneStep CallSparesCounters (trustzoneTfmInit tz) calls :=
  throughout_congr countersKept_iff

/-- A priority of 0 for interrupt 7 sets counter 0 back from 1. -/
theorem priority_resets_counter : ¬∀ calls,
    Throughout trustzoneStep CountersKept (trustzoneTfmInit trustzoneInit) calls := by
  intro every
  have run := every [.nvCounterIncrement 0, .nvicSetPriority 7 0 false]
  have kept := run.2.1.monotone 0 (by decide) (by simp)
  revert kept
  decide +kernel

end Edge

end MiniIotRobotEdge

import MiniIotRobotEdge.ControlModbusWrites

/-!
# Reading the Modbus tables back

The model of the four reads in `modbus_proto.c`, and what they return after any
writes.  A table is a store by address in which the last accepted write counts.
A block that reaches up to the last address is refused, and one from the address
zero on is kept out of the runs, since it stores in front of the table.
-/

namespace MiniIotRobotEdge

namespace Control

section Functions

/-- A read of an item by its address; there is no value for a refused address. -/
def readTable {α : Type} {count : Nat} (table : Vector α count) (address : UInt16) : Option α :=
  if modbusValidateAddress address count then table[modbusAddressToOffset address]? else none

def modbusReadCoil (model : ModbusDataModel) (address : UInt16) : Option Bool :=
  readTable model.coils address

def modbusReadDiscreteInput (model : ModbusDataModel) (address : UInt16) : Option Bool :=
  (readTable model.discreteInputs address).map (· ≠ 0)

def modbusReadHoldingRegister (model : ModbusDataModel) (address : UInt16) : Option UInt16 :=
  readTable model.holdingRegisters address

def modbusReadInputRegister (model : ModbusDataModel) (address : UInt16) : Option UInt16 :=
  readTable model.inputRegisters address

/-- A write to one table. -/
inductive TableWrite (α : Type)
  | single (address : UInt16) (value : α)
  | multiple (startAddress quantity : UInt16) (values : Nat → α)

def ModbusTable.write {α : Type} {count : Nat} (t : ModbusTable α count) (model : ModbusDataModel) :
    TableWrite α → Option (ModbusDataModel × Bool)
  | .single address value => t.writeSingle model address value
  | .multiple startAddress quantity values => t.writeMultiple model startAddress quantity values

inductive ModbusWrite
  | coils (write : TableWrite Bool)
  | registers (write : TableWrite UInt16)

def modbusWrite (model : ModbusDataModel) : ModbusWrite → Option (ModbusDataModel × Bool)
  | .coils write => modbusCoils.write model write
  | .registers write => modbusHoldingRegisters.write model write

/-- Writes one after the other, with what they return. -/
def modbusWrites : ModbusDataModel → List ModbusWrite → Option (ModbusDataModel × List Bool)
  | model, [] => some (model, [])
  | model, write :: rest =>
      (modbusWrite model write).bind fun next =>
        (modbusWrites next.1 rest).map fun last => (last.1, next.2 :: last.2)

end Functions

section Store

variable {α : Type}

/-- The write returns true. -/
def TableWrite.Accepted (count : Nat) : TableWrite α → Prop
  | .single address _ => 1 ≤ address.toNat ∧ address.toNat ≤ count
  | .multiple startAddress quantity _ =>
      quantity ≠ 0 ∧ startAddress.toNat + quantity.toNat ≤ count

instance (count : Nat) (write : TableWrite α) : Decidable (write.Accepted count) := by
  cases write <;> exact inferInstanceAs (Decidable (_ ∧ _))

/-- The write is not a block from the address zero on that is accepted. -/
def TableWrite.Inside (count : Nat) : TableWrite α → Prop
  | .single _ _ => True
  | .multiple startAddress quantity values =>
      (multiple startAddress quantity values).Accepted count → startAddress ≠ 0

/-- The value that the write gives to an address. -/
def TableWrite.given (address : UInt16) : TableWrite α → Option α
  | .single target value => if target = address then some value else none
  | .multiple startAddress quantity values =>
      if startAddress.toNat ≤ address.toNat ∧
          address.toNat < startAddress.toNat + quantity.toNat then
        some (values (address.toNat - startAddress.toNat))
      else none

/-- A store of a value for each address. -/
def TableWrite.apply (count : Nat) (stored : UInt16 → α) (write : TableWrite α) : UInt16 → α :=
  if write.Accepted count then fun address => (write.given address).getD (stored address)
  else stored

/-- The stores behind the coils and the holding registers. -/
def storeWrite (stored : (UInt16 → Bool) × (UInt16 → UInt16)) :
    ModbusWrite → (UInt16 → Bool) × (UInt16 → UInt16)
  | .coils write => (write.apply modbusMaxCoils stored.1, stored.2)
  | .registers write => (stored.1, write.apply modbusMaxRegisters stored.2)

/-- The stores after these writes, with false and zero to begin with. -/
def storeAfter (writes : List ModbusWrite) : (UInt16 → Bool) × (UInt16 → UInt16) :=
  writes.foldl storeWrite (fun _ => false, fun _ => 0)

def ModbusWrite.Accepted : ModbusWrite → Prop
  | .coils write => write.Accepted modbusMaxCoils
  | .registers write => write.Accepted modbusMaxRegisters

instance (write : ModbusWrite) : Decidable write.Accepted := by
  cases write <;> exact inferInstanceAs (Decidable (TableWrite.Accepted _ _))

def ModbusWrite.Inside : ModbusWrite → Prop
  | .coils write => write.Inside modbusMaxCoils
  | .registers write => write.Inside modbusMaxRegisters

end Store

section Table

variable {α : Type} {count : Nat}

theorem readTable_eq (table : Vector α count) {address : UInt16} (positive : 1 ≤ address.toNat)
    (inside : address.toNat ≤ count) :
    readTable table address = some table[address.toNat - 1] := by
  rw [readTable, if_pos ((validateAddress_iff address).mpr ⟨positive, inside⟩),
    modbusAddressToOffset_eq positive]
  simp

/-- The table holds the values of a store. -/
def HoldsTable (table : Vector α count) (stored : UInt16 → α) : Prop :=
  ∀ address : UInt16, readTable table address =
    if 1 ≤ address.toNat ∧ address.toNat ≤ count then some (stored address) else none

theorem holdsTable_iff {table : Vector α count} {stored : UInt16 → α} :
    HoldsTable table stored ↔ ∀ (address : UInt16) (_ : 1 ≤ address.toNat)
      (_ : address.toNat ≤ count), table[address.toNat - 1] = stored address := by
  constructor
  · intro holds address positive inside
    have read := holds address
    rw [readTable_eq table positive inside, if_pos ⟨positive, inside⟩] at read
    exact Option.some.inj read
  · intro same address
    split_ifs with valid
    · rw [readTable_eq table valid.1 valid.2, same address valid.1 valid.2]
    · rw [readTable, if_neg]
      rwa [validateAddress_iff]

/-- What a write leaves, and that it returns whether it is accepted. -/
theorem ModbusTable.write_spec (t : ModbusTable α count) (small : count < 2 ^ 16)
    {model : ModbusDataModel} {stored : UInt16 → α} (holds : HoldsTable (t.get model) stored)
    {write : TableWrite α} (inside : write.Inside count) :
    ∃ table, t.write model write = some (t.put model table, decide (write.Accepted count)) ∧
      HoldsTable table (write.apply count stored) := by
  rw [TableWrite.apply]
  by_cases accepted : write.Accepted count
  · rw [if_pos accepted, decide_eq_true accepted]
    cases write with
    | single target value =>
        obtain ⟨positive, fits⟩ := accepted
        have valid := (validateAddress_iff target).mpr ⟨positive, fits⟩
        refine ⟨(t.get model).set (target.toNat - 1) value, ?_, ?_⟩
        · rw [ModbusTable.write, writeSingle_valid t model target value valid,
            modbusAddressToOffset_eq positive, store_inside t model _ value (by omega)]
          rfl
        · rw [holdsTable_iff] at holds ⊢
          intro address addressPositive addressFits
          rw [Vector.getElem_set, TableWrite.given]
          by_cases same : target = address
          · rw [if_pos (by rw [same]), if_pos same, Option.getD_some]
          · have apart : target.toNat - 1 ≠ address.toNat - 1 := by
              intro equal
              exact same (UInt16.toNat_inj.mp (by omega))
            rw [if_neg apart, if_neg same, Option.getD_none]
            exact holds address addressPositive addressFits
    | multiple startAddress quantity values =>
        have apart := inside accepted
        obtain ⟨some, fits⟩ := accepted
        have positive : 1 ≤ startAddress.toNat := by
          rw [Nat.one_le_iff_ne_zero]
          exact fun zero => apart (UInt16.toNat_inj.mp zero)
        have quantityPos : 1 ≤ quantity := by
          rw [UInt16.le_iff_toNat_le]
          exact Nat.one_le_iff_ne_zero.mpr fun zero => some (UInt16.toNat_inj.mp zero)
        refine ⟨overwritten (t.get model) startAddress.toNat quantity.toNat values, ?_, ?_⟩
        · rw [ModbusTable.write, writeMultiple_inside t model _ _ values quantityPos fits,
            stores_eq t model _ values small positive _ (by omega)]
          rfl
        · rw [holdsTable_iff] at holds ⊢
          intro address addressPositive addressFits
          have place : address.toNat - 1 + 1 = address.toNat := by omega
          simp only [overwritten, Vector.getElem_ofFn, place, TableWrite.given]
          split_ifs
          · rfl
          · exact holds address addressPositive addressFits
  · rw [if_neg accepted, decide_eq_false accepted]
    refine ⟨t.get model, ?_, holds⟩
    rw [t.put_get]
    cases write with
    | single target value =>
        rw [ModbusTable.write, writeSingle_invalid]
        exact Bool.eq_false_iff.mpr fun valid => accepted ((validateAddress_iff target).mp valid)
    | multiple startAddress quantity values =>
        rw [ModbusTable.write, ModbusTable.writeMultiple]
        by_cases none : quantity = 0
        · rw [if_pos none]
        · rw [if_neg none, if_pos (by
            by_contra fits
            exact accepted ⟨none, not_lt.mp fits⟩)]

end Table

section Runs

/-- The data model stands for the two stores, and nothing is in the other tables. -/
structure HoldsModel (model : ModbusDataModel) (stored : (UInt16 → Bool) × (UInt16 → UInt16)) :
    Prop where
  coils : HoldsTable model.coils stored.1
  registers : HoldsTable model.holdingRegisters stored.2
  discreteInputs : model.discreteInputs = .replicate _ 0
  inputRegisters : model.inputRegisters = .replicate _ 0

variable {model : ModbusDataModel} {stored : (UInt16 → Bool) × (UInt16 → UInt16)}

theorem HoldsModel.write (holds : HoldsModel model stored) {write : ModbusWrite}
    (inside : write.Inside) :
    ∃ next, modbusWrite model write = some (next, decide write.Accepted) ∧
      HoldsModel next (storeWrite stored write) := by
  cases write with
  | coils write =>
      have before : HoldsTable (modbusCoils.get model) stored.1 := holds.coils
      obtain ⟨table, written, held⟩ := modbusCoils.write_spec (by decide) before inside
      exact ⟨_, written, held, holds.registers, holds.discreteInputs, holds.inputRegisters⟩
  | registers write =>
      have before : HoldsTable (modbusHoldingRegisters.get model) stored.2 := holds.registers
      obtain ⟨table, written, held⟩ := modbusHoldingRegisters.write_spec (by decide) before inside
      exact ⟨_, written, holds.coils, held, holds.discreteInputs, holds.inputRegisters⟩

theorem HoldsModel.writes (holds : HoldsModel model stored) {writes : List ModbusWrite}
    (inside : ∀ write ∈ writes, write.Inside) :
    ∃ last, modbusWrites model writes =
        some (last, writes.map fun write => decide write.Accepted) ∧
      HoldsModel last (writes.foldl storeWrite stored) := by
  induction writes generalizing model stored with
  | nil => exact ⟨model, rfl, holds⟩
  | cons write rest ih =>
      obtain ⟨next, written, held⟩ := holds.write (inside write List.mem_cons_self)
      obtain ⟨last, later, heldLast⟩ :=
        ih held fun other listed => inside other (List.mem_cons_of_mem write listed)
      refine ⟨last, ?_, heldLast⟩
      rw [modbusWrites, written, Option.bind_some, later]
      rfl

theorem holdsModel_init : HoldsModel modbusInitDataModel (fun _ => false, fun _ => 0) where
  coils := holdsTable_iff.mpr fun _ _ _ => Vector.getElem_replicate _
  registers := holdsTable_iff.mpr fun _ _ _ => Vector.getElem_replicate _
  discreteInputs := rfl
  inputRegisters := rfl

end Runs

/-- After any writes a read returns what the last accepted write gave to the address. -/
theorem modbusWrites_reads (writes : List ModbusWrite)
    (inside : ∀ write ∈ writes, write.Inside) :
    ∃ model, modbusWrites modbusInitDataModel writes =
        some (model, writes.map fun write => decide write.Accepted) ∧
      ∀ address : UInt16,
        modbusReadCoil model address = (if 1 ≤ address.toNat ∧ address.toNat ≤ modbusMaxCoils then
          some ((storeAfter writes).1 address) else none) ∧
        modbusReadHoldingRegister model address =
          (if 1 ≤ address.toNat ∧ address.toNat ≤ modbusMaxRegisters then
            some ((storeAfter writes).2 address) else none) ∧
        modbusReadDiscreteInput model address =
          (if 1 ≤ address.toNat ∧ address.toNat ≤ modbusMaxCoils then some false else none) ∧
        modbusReadInputRegister model address =
          (if 1 ≤ address.toNat ∧ address.toNat ≤ modbusMaxRegisters then some 0 else none) := by
  obtain ⟨model, written, holds⟩ := holdsModel_init.writes inside
  have zeros : ∀ count : Nat,
      HoldsTable (Vector.replicate count (0 : UInt16)) fun _ => 0 := fun count =>
    holdsTable_iff.mpr fun _ _ _ => Vector.getElem_replicate _
  refine ⟨model, written, fun address =>
    ⟨holds.coils address, holds.registers address, ?_, ?_⟩⟩
  · rw [modbusReadDiscreteInput, holds.discreteInputs, zeros]
    split_ifs <;> rfl
  · rw [modbusReadInputRegister, holds.inputRegisters]
    exact zeros _ address

/-- Two registers of a block, one of them written again. -/
theorem modbusWrites_reads_block :
    ∃ model, modbusWrites modbusInitDataModel
        [.registers (.multiple 3 2 fun i => if i = 0 then 7 else 9), .registers (.single 4 5),
          .registers (.single 0 1)] = some (model, [true, true, false]) ∧
      modbusReadHoldingRegister model 3 = some 7 ∧ modbusReadHoldingRegister model 4 = some 5 := by
  obtain ⟨model, written, reads⟩ := modbusWrites_reads
    [.registers (.multiple 3 2 fun i => if i = 0 then 7 else 9), .registers (.single 4 5),
      .registers (.single 0 1)]
    (by
      intro write listed
      simp only [List.mem_cons, List.not_mem_nil, or_false] at listed
      rcases listed with rfl | rfl | rfl
      · exact fun _ => by decide
      · trivial
      · trivial)
  exact ⟨model, written, (reads 3).2.1.trans (by decide), (reads 4).2.1.trans (by decide)⟩

end Control

end MiniIotRobotEdge

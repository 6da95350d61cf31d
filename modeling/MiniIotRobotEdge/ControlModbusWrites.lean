import Mathlib.Data.UInt
import Mathlib.Data.Vector.Basic

/-!
# The Modbus tables of mini-industrial-control

Addresses count from one and the tables from zero.  A single write checks its
address; a block write checks a sum of its own, and agrees with the single
writes except at the two ends of the address range.
-/

namespace MiniIotRobotEdge

namespace Control

def modbusMaxCoils : Nat := 2000

def modbusMaxRegisters : Nat := 125

structure ModbusDataModel where
  coils : Vector Bool modbusMaxCoils
  discreteInputs : Vector UInt16 modbusMaxCoils
  holdingRegisters : Vector UInt16 modbusMaxRegisters
  inputRegisters : Vector UInt16 modbusMaxRegisters
  slaveId : UInt8
  deriving DecidableEq

def modbusInitDataModel : ModbusDataModel where
  coils := .replicate _ false
  discreteInputs := .replicate _ 0
  holdingRegisters := .replicate _ 0
  inputRegisters := .replicate _ 0
  slaveId := 0

/-- `modbus_coil_address_to_offset` and `modbus_register_address_to_offset`:
the difference is an `int` that becomes a `size_t`. -/
def modbusAddressToOffset (address : UInt16) : Nat := (address.toNat + (2 ^ 64 - 1)) % 2 ^ 64

def modbusValidateAddress (address : UInt16) (maxCount : Nat) : Bool :=
  1 ≤ address.toNat ∧ address.toNat ≤ maxCount

/-- A store at an offset; there is no result where it misses the array. -/
def storeAt {α : Type} {count : Nat} (table : Vector α count) (offset : Nat) (value : α) :
    Option (Vector α count) :=
  if inside : offset < count then some (table.set offset value) else none

/-- One of the tables of the data model, read and replaced. -/
structure ModbusTable (α : Type) (count : Nat) where
  get : ModbusDataModel → Vector α count
  put : ModbusDataModel → Vector α count → ModbusDataModel
  get_put : ∀ model table, get (put model table) = table
  put_get : ∀ model, put model (get model) = model
  put_put : ∀ model first second, put (put model first) second = put model second

attribute [simp] ModbusTable.get_put ModbusTable.put_get ModbusTable.put_put

def modbusCoils : ModbusTable Bool modbusMaxCoils where
  get := ModbusDataModel.coils
  put model coils := { model with coils := coils }
  get_put _ _ := rfl
  put_get _ := rfl
  put_put _ _ _ := rfl

def modbusHoldingRegisters : ModbusTable UInt16 modbusMaxRegisters where
  get := ModbusDataModel.holdingRegisters
  put model registers := { model with holdingRegisters := registers }
  get_put _ _ := rfl
  put_get _ := rfl
  put_put _ _ _ := rfl

section Writes

variable {α : Type} {count : Nat} (t : ModbusTable α count)

def ModbusTable.store (model : ModbusDataModel) (offset : Nat) (value : α) :
    Option ModbusDataModel :=
  (storeAt (t.get model) offset value).map (t.put model)

/-- The write of one item, with the value it returns. -/
def ModbusTable.writeSingle (model : ModbusDataModel) (address : UInt16) (value : α) :
    Option (ModbusDataModel × Bool) :=
  let offset := modbusAddressToOffset address
  if modbusValidateAddress address count = false then some (model, false)
  else (t.store model offset value).map (·, true)

/-- The write of a block; the sum of the two numbers is an `int`. -/
def ModbusTable.writeMultiple (model : ModbusDataModel) (startAddress quantity : UInt16)
    (values : Nat → α) : Option (ModbusDataModel × Bool) :=
  if quantity = 0 then some (model, false)
  else if startAddress.toNat + quantity.toNat > count then some (model, false)
  else ((List.range quantity.toNat).foldlM (fun model i =>
    t.store model (modbusAddressToOffset (startAddress + UInt16.ofNat i)) (values i)) model).map
      (·, true)

end Writes

def modbusWriteSingleCoil (model : ModbusDataModel) (address : UInt16) (value : Bool) :
    Option (ModbusDataModel × Bool) :=
  modbusCoils.writeSingle model address value

def modbusWriteSingleRegister (model : ModbusDataModel) (address value : UInt16) :
    Option (ModbusDataModel × Bool) :=
  modbusHoldingRegisters.writeSingle model address value

def modbusWriteMultipleCoils (model : ModbusDataModel) (startAddress quantity : UInt16)
    (values : Nat → Bool) : Option (ModbusDataModel × Bool) :=
  modbusCoils.writeMultiple model startAddress quantity values

def modbusWriteMultipleRegisters (model : ModbusDataModel) (startAddress quantity : UInt16)
    (values : Nat → UInt16) : Option (ModbusDataModel × Bool) :=
  modbusHoldingRegisters.writeMultiple model startAddress quantity values

section Spec

variable {α : Type} {count : Nat}
  (single : ModbusDataModel → UInt16 → α → Option (ModbusDataModel × Bool))
  (model : ModbusDataModel) (startAddress quantity : UInt16) (values : Nat → α)

/-- Each item of the block can be written on its own. -/
def SinglesAccepted : Prop :=
  ∀ i < quantity.toNat, ∃ after,
    single model (startAddress + UInt16.ofNat i) (values i) = some (after, true)

/-- The writes of the items, one after the other. -/
def singlesInOrder : Option ModbusDataModel :=
  (List.range quantity.toNat).foldlM (fun model i =>
    (single model (startAddress + UInt16.ofNat i) (values i)).map Prod.fst) model

/-- Two data models differ in the block of one table at most. -/
def SameOutside (t : ModbusTable α count) (after : ModbusDataModel) : Prop :=
  t.put model (t.get after) = after ∧
    ∀ j (inside : j < count),
      ¬ (startAddress.toNat ≤ j + 1 ∧ j + 1 < startAddress.toNat + quantity.toNat) →
        (t.get after)[j] = (t.get model)[j]

/-- A block write does what the single writes do, all of them or none. -/
def BlockIsSingles (t : ModbusTable α count)
    (block : ModbusDataModel → UInt16 → UInt16 → (Nat → α) → Option (ModbusDataModel × Bool)) :
    Prop :=
  ∃ after result, block model startAddress quantity values = some (after, result) ∧
    (result = true ↔ SinglesAccepted single model startAddress quantity values) ∧
    (result = true → singlesInOrder single model startAddress quantity values = some after) ∧
    (result = false → after = model) ∧
    SameOutside model startAddress quantity t after

/-- The block starts at zero and its length fits, or it ends with the last item. -/
def BlockAtEnds (startAddress quantity : UInt16) (count : Nat) : Prop :=
  (startAddress = 0 ∧ quantity.toNat ≤ count) ∨
    (startAddress ≠ 0 ∧ startAddress.toNat + quantity.toNat = count + 1)

instance : Decidable (BlockAtEnds startAddress quantity count) :=
  inferInstanceAs (Decidable (_ ∨ _))

end Spec

/-- What `n` writes from an address on leave of a table. -/
def overwritten {α : Type} {count : Nat} (table : Vector α count) (start n : Nat)
    (values : Nat → α) : Vector α count :=
  .ofFn fun j => if start ≤ j + 1 ∧ j + 1 < start + n then values (j + 1 - start) else table[j]

section Table

variable {α : Type} {count : Nat} (table : Vector α count) (start n : Nat) (values : Nat → α)

@[simp]
theorem overwritten_zero : overwritten table start 0 values = table := by
  apply Vector.ext
  intro j inside
  have none : ¬ (start ≤ j + 1 ∧ j + 1 < start) := by omega
  simp [overwritten, none]

theorem overwritten_outside {j : Nat} (inside : j < count)
    (outside : ¬ (start ≤ j + 1 ∧ j + 1 < start + n)) :
    (overwritten table start n values)[j] = table[j] := by
  simp [overwritten, outside]

/-- The write behind a block makes the block longer by one. -/
theorem overwritten_set (positive : 1 ≤ start) (inside : start - 1 + n < count) :
    (overwritten table start n values).set (start - 1 + n) (values n) =
      overwritten table start (n + 1) values := by
  apply Vector.ext
  intro j within
  rw [Vector.getElem_set]
  split_ifs with last
  · have block : start ≤ j + 1 ∧ j + 1 < start + (n + 1) := by omega
    have index : j + 1 - start = n := by omega
    simp [overwritten, block, index]
  · have same : (start ≤ j + 1 ∧ j + 1 < start + n) ↔
        (start ≤ j + 1 ∧ j + 1 < start + (n + 1)) := by omega
    simp only [overwritten, Vector.getElem_ofFn, same]

end Table

theorem modbusAddressToOffset_eq {address : UInt16} (positive : 1 ≤ address.toNat) :
    modbusAddressToOffset address = address.toNat - 1 := by
  have bounded := address.toNat_lt
  rw [modbusAddressToOffset]
  omega

/-- The address zero lies far outside of every table. -/
theorem modbusAddressToOffset_zero : modbusAddressToOffset 0 = 2 ^ 64 - 1 := by decide

theorem toNat_add_ofNat (address : UInt16) (i : Nat) (bounded : address.toNat + i < 2 ^ 16) :
    (address + UInt16.ofNat i).toNat = address.toNat + i := by
  rw [UInt16.toNat_add, UInt16.toNat_ofNat']
  omega

section Writes

variable {α : Type} {count : Nat} (t : ModbusTable α count) (model : ModbusDataModel)

theorem store_inside (offset : Nat) (value : α) (inside : offset < count) :
    t.store model offset value = some (t.put model ((t.get model).set offset value)) := by
  simp [ModbusTable.store, storeAt, inside]

theorem store_outside (offset : Nat) (value : α) (outside : count ≤ offset) :
    t.store model offset value = none := by
  simp [ModbusTable.store, storeAt, Nat.not_lt.mpr outside]

theorem validateAddress_iff (address : UInt16) :
    modbusValidateAddress address count = true ↔ 1 ≤ address.toNat ∧ address.toNat ≤ count := by
  simp [modbusValidateAddress]

theorem writeSingle_invalid (address : UInt16) (value : α)
    (invalid : modbusValidateAddress address count = false) :
    t.writeSingle model address value = some (model, false) := by
  simp [ModbusTable.writeSingle, invalid]

theorem writeSingle_valid (address : UInt16) (value : α)
    (valid : modbusValidateAddress address count = true) :
    t.writeSingle model address value =
      (t.store model (modbusAddressToOffset address) value).map (·, true) := by
  simp [ModbusTable.writeSingle, valid]

/-- A single write returns true exactly for a valid address. -/
theorem writeSingle_accepted_iff (address : UInt16) (value : α) :
    (∃ after, t.writeSingle model address value = some (after, true)) ↔
      1 ≤ address.toNat ∧ address.toNat ≤ count := by
  rw [← validateAddress_iff]
  constructor
  · rintro ⟨after, written⟩
    by_contra invalid
    rw [writeSingle_invalid t model address value (by simpa using invalid)] at written
    simp at written
  · intro valid
    have bounds := (validateAddress_iff address).mp valid
    rw [writeSingle_valid t model address value valid, modbusAddressToOffset_eq bounds.1,
      store_inside t model _ value (by omega)]
    exact ⟨_, rfl⟩

end Writes

/-- Two loops over a list agree when their bodies agree on its members. -/
theorem foldlM_congr {σ β : Type} {first second : σ → β → Option σ} (items : List β)
    (same : ∀ state, ∀ item ∈ items, first state item = second state item) (state : σ) :
    items.foldlM first state = items.foldlM second state := by
  induction items generalizing state with
  | nil => rfl
  | cons item items induction =>
      rw [List.foldlM_cons, List.foldlM_cons, same state item (by simp)]
      have rest : ∀ state, items.foldlM first state = items.foldlM second state := by
        intro state
        exact induction (fun state other member => same state other (by simp [member])) state
      simp only [rest]

section Blocks

variable {α : Type} {count : Nat} (t : ModbusTable α count) (model : ModbusDataModel)
  (startAddress quantity : UInt16) (values : Nat → α)

/-- The stores of a block inside the table, by induction on their number. -/
theorem stores_eq (small : count < 2 ^ 16) (positive : 1 ≤ startAddress.toNat) (n : Nat)
    (inside : startAddress.toNat - 1 + n ≤ count) :
    (List.range n).foldlM (fun model i =>
      t.store model (modbusAddressToOffset (startAddress + UInt16.ofNat i)) (values i)) model =
      some (t.put model (overwritten (t.get model) startAddress.toNat n values)) := by
  induction n with
  | zero => simp
  | succ n induction =>
      have address := toNat_add_ofNat startAddress n (by omega)
      have offset : modbusAddressToOffset (startAddress + UInt16.ofNat n) =
          startAddress.toNat - 1 + n := by
        rw [modbusAddressToOffset_eq (by omega), address]
        omega
      rw [List.range_succ, List.foldlM_append, induction (by omega), Option.bind_eq_bind,
        Option.bind_some, List.foldlM_cons, offset,
        store_inside t _ _ (values n) (by omega : startAddress.toNat - 1 + n < count)]
      simp [overwritten_set (t.get model) startAddress.toNat n values positive (by omega)]

/-- The single writes of a block inside the table. -/
theorem singlesInOrder_eq (small : count < 2 ^ 16) (positive : 1 ≤ startAddress.toNat)
    (inside : startAddress.toNat - 1 + quantity.toNat ≤ count) :
    singlesInOrder t.writeSingle model startAddress quantity values =
      some (t.put model
        (overwritten (t.get model) startAddress.toNat quantity.toNat values)) := by
  have step : ∀ model, ∀ i ∈ List.range quantity.toNat,
      (t.writeSingle model (startAddress + UInt16.ofNat i) (values i)).map Prod.fst =
        t.store model (modbusAddressToOffset (startAddress + UInt16.ofNat i)) (values i) := by
    intro model i member
    rw [List.mem_range] at member
    have address := toNat_add_ofNat startAddress i (by omega)
    rw [writeSingle_valid t model _ _ ((validateAddress_iff _).mpr (by omega)), Option.map_map]
    exact Option.map_id'
  rw [← stores_eq t model startAddress values small positive quantity.toNat inside]
  exact foldlM_congr _ step model

theorem writeMultiple_inside (positive : 1 ≤ quantity)
    (fits : startAddress.toNat + quantity.toNat ≤ count) :
    t.writeMultiple model startAddress quantity values =
      ((List.range quantity.toNat).foldlM (fun model i =>
        t.store model (modbusAddressToOffset (startAddress + UInt16.ofNat i)) (values i))
          model).map (·, true) := by
  have nonzero : quantity ≠ 0 := by
    intro zero
    simp [zero] at positive
  rw [ModbusTable.writeMultiple, if_neg nonzero, if_neg (by omega)]

theorem writeMultiple_refused (exceeds : count < startAddress.toNat + quantity.toNat) :
    t.writeMultiple model startAddress quantity values = some (model, false) := by
  rw [ModbusTable.writeMultiple, if_pos exceeds, ite_self]

theorem positive_toNat (positive : 1 ≤ quantity) : 1 ≤ quantity.toNat :=
  UInt16.le_iff_toNat_le.mp positive

/-- A block from the address zero starts with a store outside of the table. -/
theorem writeMultiple_zero (small : count < 2 ^ 16) (positive : 1 ≤ quantity)
    (fits : quantity.toNat ≤ count) :
    t.writeMultiple model 0 quantity values = none := by
  obtain ⟨more, length⟩ := Nat.exists_eq_add_of_le' (positive_toNat quantity positive)
  rw [writeMultiple_inside t model 0 quantity values positive (by simpa using fits), length,
    List.range_succ_eq_map, List.foldlM_cons, show (0 : UInt16) + UInt16.ofNat 0 = 0 from rfl,
    modbusAddressToOffset_zero, store_outside t model _ _ (by omega)]
  rfl

/-- The single writes all succeed exactly for a block inside the table. -/
theorem singlesAccepted_iff (small : count < 2 ^ 16 - 1) (positive : 1 ≤ quantity) :
    SinglesAccepted t.writeSingle model startAddress quantity values ↔
      1 ≤ startAddress.toNat ∧ startAddress.toNat + quantity.toNat ≤ count + 1 := by
  have length := positive_toNat quantity positive
  simp only [SinglesAccepted, writeSingle_accepted_iff]
  constructor
  · intro accepted
    have first := accepted 0 (by omega)
    rw [show startAddress + UInt16.ofNat 0 = startAddress from UInt16.add_zero _] at first
    refine ⟨first.1, ?_⟩
    by_contra exceeds
    have beyond := accepted (count + 1 - startAddress.toNat) (by omega)
    rw [toNat_add_ofNat _ _ (by omega)] at beyond
    omega
  · intro inside i member
    rw [toNat_add_ofNat _ _ (by omega)]
    omega

theorem sameOutside_self : SameOutside model startAddress quantity t model := by
  constructor
  · exact t.put_get model
  · intro j inside outside
    rfl

theorem sameOutside_overwritten : SameOutside model startAddress quantity t
    (t.put model
      (overwritten (t.get model) startAddress.toNat quantity.toNat values)) := by
  constructor
  · simp
  · intro j inside outside
    rw [t.get_put]
    exact overwritten_outside (t.get model) _ _ values inside outside

theorem blockIsSingles_inside (small : count < 2 ^ 16 - 1) (positive : 1 ≤ quantity)
    (start : 1 ≤ startAddress.toNat) (fits : startAddress.toNat + quantity.toNat ≤ count) :
    BlockIsSingles t.writeSingle model startAddress quantity values t t.writeMultiple := by
  have stores := stores_eq t model startAddress values (by omega) start quantity.toNat (by omega)
  have singles := singlesInOrder_eq t model startAddress quantity values (by omega) start (by omega)
  have accepted := singlesAccepted_iff t model startAddress quantity values small positive
  refine ⟨_, true, ?_, ?_, fun _ => singles, by simp,
    sameOutside_overwritten t model startAddress quantity values⟩
  · rw [writeMultiple_inside t model startAddress quantity values positive fits, stores]
    rfl
  · rw [accepted]
    simp
    omega

theorem blockIsSingles_beyond (small : count < 2 ^ 16 - 1) (positive : 1 ≤ quantity)
    (exceeds : startAddress.toNat = 0 ∨ count + 1 < startAddress.toNat + quantity.toNat)
    (refused : count < startAddress.toNat + quantity.toNat) :
    BlockIsSingles t.writeSingle model startAddress quantity values t t.writeMultiple := by
  have accepted := singlesAccepted_iff t model startAddress quantity values small positive
  refine ⟨model, false, writeMultiple_refused t model startAddress quantity values refused,
    ?_, by simp, by simp, sameOutside_self t model startAddress quantity⟩
  rw [accepted]
  simp
  omega

/-- A block write does what the single writes do, unless the block is at one of
the two ends. -/
theorem blockIsSingles_iff (small : count < 2 ^ 16 - 1) (positive : 1 ≤ quantity) :
    BlockIsSingles t.writeSingle model startAddress quantity values t t.writeMultiple ↔
      ¬ BlockAtEnds startAddress quantity count := by
  have accepted := singlesAccepted_iff t model startAddress quantity values small positive
  have start : startAddress = 0 ↔ startAddress.toNat = 0 := by rw [← UInt16.toNat_inj]; rfl
  constructor
  · rintro ⟨after, result, written, returns, -⟩ (⟨rfl, fits⟩ | ⟨nonzero, last⟩)
    · rw [writeMultiple_zero t model quantity values (by omega) positive fits] at written
      cases written
    · rw [writeMultiple_refused t model startAddress quantity values (by omega)] at written
      cases written
      rw [ne_eq, start] at nonzero
      exact absurd (returns.mpr (accepted.mpr (by omega))) (by decide)
  · intro inner
    rw [BlockAtEnds, ne_eq, start] at inner
    by_cases fits : startAddress.toNat + quantity.toNat ≤ count
    · exact blockIsSingles_inside t model startAddress quantity values small positive (by omega)
        fits
    · exact blockIsSingles_beyond t model startAddress quantity values small positive (by omega)
        (by omega)

end Blocks

/-- Both block writes agree with the single writes, except that a block that
starts at zero is stored in front of its table, and a block that ends with the
last item is refused. -/
theorem blockWrites_iff (model : ModbusDataModel) (startAddress quantity : UInt16)
    (coils : Nat → Bool) (registers : Nat → UInt16) (positive : 1 ≤ quantity) :
    (BlockIsSingles modbusWriteSingleCoil model startAddress quantity coils modbusCoils
        modbusWriteMultipleCoils ↔ ¬ BlockAtEnds startAddress quantity modbusMaxCoils) ∧
    (BlockIsSingles modbusWriteSingleRegister model startAddress quantity registers
        modbusHoldingRegisters modbusWriteMultipleRegisters ↔
      ¬ BlockAtEnds startAddress quantity modbusMaxRegisters) := by
  constructor
  · exact blockIsSingles_iff modbusCoils model startAddress quantity coils (by decide) positive
  · exact blockIsSingles_iff modbusHoldingRegisters model startAddress quantity registers
      (by decide) positive

theorem blockWrites_iff_ten :
    (BlockIsSingles modbusWriteSingleCoil modbusInitDataModel 10 5 (fun _ => true) modbusCoils
        modbusWriteMultipleCoils ↔ ¬ BlockAtEnds 10 5 modbusMaxCoils) ∧
    (BlockIsSingles modbusWriteSingleRegister modbusInitDataModel 10 5 (fun _ => 7)
        modbusHoldingRegisters modbusWriteMultipleRegisters ↔
      ¬ BlockAtEnds 10 5 modbusMaxRegisters) :=
  blockWrites_iff modbusInitDataModel 10 5 (fun _ => true) (fun _ => 7) (by decide)

/-- The last coil can be written alone and not as a block, and a block of one
register at zero is stored outside of the registers. -/
theorem blockWrites_differ :
    ¬ BlockIsSingles modbusWriteSingleCoil modbusInitDataModel 2000 1 (fun _ => true) modbusCoils
      modbusWriteMultipleCoils ∧
    ¬ BlockIsSingles modbusWriteSingleRegister modbusInitDataModel 0 1 (fun _ => 7)
      modbusHoldingRegisters modbusWriteMultipleRegisters := by
  constructor
  · intro same
    apply (blockIsSingles_iff modbusCoils modbusInitDataModel 2000 1 (fun _ => true) (by decide)
      (by decide)).mp same
    decide
  · intro same
    apply (blockIsSingles_iff modbusHoldingRegisters modbusInitDataModel 0 1 (fun _ => 7)
      (by decide) (by decide)).mp same
    decide

end Control

end MiniIotRobotEdge

import Mathlib.Data.Nat.Basic
import Mathlib.Tactic.Ring

/-!
# Byte-addressed memory

A memory gives every address a byte.  Unsigned integers are stored in
little-endian order; a load sees exactly the bytes of its own range, so a
store elsewhere does not change it.  `fill` and `copy` are `memset` and
`memcpy`.
-/

namespace MiniIotRobotEdge

/-- The contents of memory. -/
abbrev Memory := Nat → UInt8

namespace Memory

/-- The unsigned integer of `width` bytes at `address`. -/
def load (memory : Memory) (address : Nat) : Nat → Nat
  | 0 => 0
  | width + 1 => (memory address).toNat + 256 * load memory (address + 1) width

/-- Write the low `width` bytes of `value` at `address`. -/
def store (memory : Memory) (address : Nat) : Nat → Nat → Memory
  | 0, _ => memory
  | width + 1, value =>
      Function.update (store memory (address + 1) width (value / 256)) address
        (UInt8.ofNat value)

def fill (memory : Memory) (address length : Nat) (byte : UInt8) : Memory :=
  fun target => if address ≤ target ∧ target < address + length then byte else memory target

def copy (memory : Memory) (target source length : Nat) : Memory :=
  fun address =>
    if target ≤ address ∧ address < target + length then memory (source + (address - target))
    else memory address

/-- The `count` bytes from `address` on. -/
def bytes (memory : Memory) (address count : Nat) : List UInt8 :=
  (List.range count).map fun index => memory (address + index)

/-- The memory with `data` written from `address` on. -/
def writeBytes (memory : Memory) (address : Nat) (data : List UInt8) : Memory :=
  fun target =>
    if address ≤ target ∧ target < address + data.length then data.getD (target - address) 0
    else memory target

variable {memory other : Memory} {address width : Nat}

/-- A load depends on the bytes of its range only. -/
theorem load_congr (same : ∀ target, address ≤ target → target < address + width →
    other target = memory target) : load other address width = load memory address width := by
  induction width generalizing address with
  | zero => rfl
  | succ width ih =>
      rw [load, load, same address le_rfl (by omega),
        ih fun target lower upper => same target (by omega) (by omega)]

theorem load_lt (memory : Memory) (address width : Nat) :
    load memory address width < 256 ^ width := by
  induction width generalizing address with
  | zero => simp [load]
  | succ width ih =>
      have byteBound := (memory address).toNat_lt
      have restBound := ih (address + 1)
      rw [load, Nat.pow_succ']
      omega

/-- A store writes its range only. -/
theorem store_outside {value target : Nat} (outside : target < address ∨ address + width ≤ target) :
    store memory address width value target = memory target := by
  induction width generalizing address value with
  | zero => rfl
  | succ width ih =>
      rw [store, Function.update_of_ne (by omega)]
      exact ih (by omega)

theorem load_store_self (value : Nat) :
    load (store memory address width value) address width = value % 256 ^ width := by
  induction width generalizing address value with
  | zero => simp [load, Nat.mod_one]
  | succ width ih =>
      have behind : load (store memory address (width + 1) value) (address + 1) width =
          load (store memory (address + 1) width (value / 256)) (address + 1) width := by
        apply load_congr
        intro target lower _
        rw [store, Function.update_of_ne (by omega)]
      have first : (store memory address (width + 1) value address).toNat = value % 256 := by
        rw [store, Function.update_self, UInt8.toNat_ofNat']
      rw [load, behind, ih, first, Nat.pow_succ', Nat.mod_mul]

/-- Stores to other ranges are invisible. -/
theorem load_store_apart {otherAddress otherWidth value : Nat}
    (apart : address + width ≤ otherAddress ∨ otherAddress + otherWidth ≤ address) :
    load (store memory otherAddress otherWidth value) address width =
      load memory address width := by
  apply load_congr
  intro target lower upper
  exact store_outside (by omega)

theorem fill_outside {length : Nat} {byte : UInt8} {target : Nat}
    (outside : target < address ∨ address + length ≤ target) :
    fill memory address length byte target = memory target :=
  if_neg (by omega)

/-- A load from zeroed memory. -/
theorem load_fill_zero {target length : Nat} (lower : address ≤ target)
    (upper : target + width ≤ address + length) :
    load (fill memory address length 0) target width = 0 := by
  induction width generalizing target with
  | zero => rfl
  | succ width ih =>
      have first : fill memory address length 0 target = 0 := if_pos (by omega)
      rw [load, first, ih (by omega) (by omega)]
      rfl

theorem copy_outside {source length target : Nat}
    (outside : target < address ∨ address + length ≤ target) :
    copy memory address source length target = memory target :=
  if_neg (by omega)

theorem copy_inside {source length index : Nat} (inside : index < length) :
    copy memory address source length (address + index) = memory (source + index) := by
  rw [copy, if_pos (by omega), Nat.add_sub_cancel_left]

@[simp]
theorem length_bytes (memory : Memory) (address count : Nat) :
    (memory.bytes address count).length = count := by
  simp [bytes]

theorem bytes_congr {count : Nat} (same : ∀ target, address ≤ target → target < address + count →
    other target = memory target) : other.bytes address count = memory.bytes address count := by
  apply List.map_congr_left
  intro index inside
  have bound := List.mem_range.mp inside
  exact same _ (by omega) (by omega)

theorem writeBytes_outside {data : List UInt8} {target : Nat}
    (outside : target < address ∨ address + data.length ≤ target) :
    memory.writeBytes address data target = memory target :=
  if_neg (by omega)

/-- Strings written elsewhere are invisible. -/
theorem load_writeBytes_apart {target : Nat} {data : List UInt8}
    (apart : address + width ≤ target ∨ target + data.length ≤ address) :
    load (memory.writeBytes target data) address width = load memory address width := by
  apply load_congr
  intro byte lower upper
  exact writeBytes_outside (by omega)

theorem writeBytes_nil (memory : Memory) (address : Nat) :
    memory.writeBytes address [] = memory := by
  ext target
  rw [writeBytes_outside]
  simp only [List.length_nil]
  omega

/-- Writing two strings one behind the other. -/
theorem writeBytes_append (memory : Memory) (address : Nat) (first second : List UInt8) :
    (memory.writeBytes address first).writeBytes (address + first.length) second =
      memory.writeBytes address (first ++ second) := by
  ext target
  simp only [writeBytes, List.length_append, List.getD_eq_getElem?_getD]
  by_cases inFirst : address ≤ target ∧ target < address + first.length
  · rw [if_neg (by omega), if_pos inFirst, if_pos (by omega),
      List.getElem?_append_left (by omega)]
  · by_cases inSecond : address + first.length ≤ target ∧
        target < address + first.length + second.length
    · rw [if_pos inSecond, if_pos (by omega), List.getElem?_append_right (by omega),
        Nat.sub_sub]
    · rw [if_neg inSecond, if_neg inFirst, if_neg (by omega)]

theorem bytes_append (memory : Memory) (address first second : Nat) :
    memory.bytes address (first + second) =
      memory.bytes address first ++ memory.bytes (address + first) second := by
  unfold bytes
  rw [List.range_add, List.map_append, List.map_map]
  congr 1
  apply List.map_congr_left
  intro index _
  simp only [Function.comp_apply, Nat.add_assoc]

theorem bytes_writeBytes_self (memory : Memory) (address : Nat) (data : List UInt8) :
    (memory.writeBytes address data).bytes address data.length = data := by
  apply List.ext_getElem
  · simp
  · intro index inside insideData
    simp only [bytes, writeBytes, List.getElem_map, List.getElem_range]
    rw [if_pos (by omega), Nat.add_sub_cancel_left, List.getD_eq_getElem?_getD,
      List.getElem?_eq_getElem insideData]
    rfl

/-- A copy from another memory. -/
theorem writeBytes_bytes (memory other : Memory) (address source : Nat) {count index : Nat}
    (inside : index < count) :
    memory.writeBytes address (other.bytes source count) (address + index) =
      other (source + index) := by
  have counted : index < (other.bytes source count).length := by
    rw [length_bytes]
    exact inside
  rw [writeBytes, if_pos ⟨Nat.le_add_right address index, Nat.add_lt_add_left counted address⟩,
    Nat.add_sub_cancel_left, ← List.getElem_eq_getD (h := counted) 0]
  simp only [bytes, List.getElem_map, List.getElem_range]

end Memory

end MiniIotRobotEdge

import Mathlib.Data.List.Iterate
import Mathlib.Data.List.Nodup
import Mathlib.Data.Nat.ModEq
import Mathlib.Tactic.ByContra
import MiniIotRobotEdge.PackedBytes

/-!
# Counters in strings of bytes

A string of bytes, the highest first, counts modulo a power of 256: the last
byte goes up by one and passes a carry on to the byte before it.  Blocks that
are counted off from a start are pairwise distinct until the counter comes
round.
-/

namespace MiniIotRobotEdge

namespace ByteCounter

open PackedBytes

/-- The number that the bytes stand for, the highest byte first. -/
def value (bytes : List UInt8) : Nat := ofLittleEndian bytes.reverse

/-- Add one to the byte before the position, and carry on while it overflows. -/
def carryFrom (bytes : List UInt8) : Nat → List UInt8
  | 0 => bytes
  | position + 1 =>
      let next := bytes.modify position (· + 1)
      if next.getD position 0 ≠ 0 then next else carryFrom next position

theorem value_append (bytes : List UInt8) (last : UInt8) :
    value (bytes ++ [last]) = 256 * value bytes + last.toNat := by
  simp [value, ofLittleEndian, Nat.add_comm]

theorem value_lt (bytes : List UInt8) : value bytes < 256 ^ bytes.length := by
  induction bytes using List.reverseRecOn with
  | nil => simp [value, ofLittleEndian]
  | append_singleton rest last ih =>
      have small := last.toNat_lt
      rw [value_append, List.length_append, List.length_singleton, Nat.pow_succ]
      omega

/-- Strings of the same length that stand for the same number are equal. -/
theorem eq_of_value_eq {first second : List UInt8} (lengths : first.length = second.length)
    (values : value first = value second) : first = second := by
  induction first using List.reverseRecOn generalizing second with
  | nil => exact (List.length_eq_zero_iff.mp lengths.symm).symm
  | append_singleton rest last ih =>
      obtain ⟨others, final, rfl⟩ : ∃ others final, second = others ++ [final] := by
        have nonempty : second ≠ [] := by
          rintro rfl
          simp at lengths
        exact ⟨second.dropLast, second.getLast nonempty,
          (List.dropLast_append_getLast nonempty).symm⟩
      rw [value_append, value_append] at values
      have lastSmall := last.toNat_lt
      have finalSmall := final.toNat_lt
      have lasts : last = final := UInt8.toNat_inj.mp (by omega)
      have rests : rest = others := ih (by simpa using lengths) (by omega)
      rw [rests, lasts]

/-- Numbers are compared at the first byte in which they differ. -/
theorem value_le_iff (count : Nat) (first second : Nat → UInt8) :
    value ((List.range count).map first) ≤ value ((List.range count).map second) ↔
      ∀ index < count, (∀ earlier < index, second earlier = first earlier) →
        first index ≤ second index := by
  induction count with
  | zero => simp
  | succ count ih =>
      have firstSmall := (first count).toNat_lt
      have secondSmall := (second count).toNat_lt
      have sameFront : value ((List.range count).map first) =
          value ((List.range count).map second) ↔
          ∀ earlier < count, second earlier = first earlier := by
        constructor
        · intro values earlier inside
          have equal := eq_of_value_eq (by simp) values
          exact ((List.map_inj_left.mp equal) earlier (List.mem_range.mpr inside)).symm
        · intro same
          rw [List.map_congr_left fun index inside => same index (List.mem_range.mp inside)]
      have lastByte : value ((List.range (count + 1)).map first) ≤
          value ((List.range (count + 1)).map second) ↔
          value ((List.range count).map first) ≤ value ((List.range count).map second) ∧
            (value ((List.range count).map first) = value ((List.range count).map second) →
              first count ≤ second count) := by
        simp only [List.range_succ, List.map_append, List.map_singleton, value_append,
          UInt8.le_iff_toNat_le]
        omega
      rw [lastByte, ih, sameFront]
      constructor
      · rintro ⟨front, last⟩ index inside
        rcases Nat.lt_succ_iff_lt_or_eq.mp inside with before | rfl
        · exact front index before
        · exact last
      · intro every
        exact ⟨fun index inside => every index (by omega), every count (by omega)⟩

theorem modify_append (bytes : List UInt8) (last : UInt8) (rest : List UInt8)
    (change : UInt8 → UInt8) :
    (bytes ++ last :: rest).modify bytes.length change = bytes ++ change last :: rest := by
  induction bytes with
  | nil => rfl
  | cons head tail ih => simpa using ih

/-- The carry runs in front of the position only. -/
theorem carryFrom_append (bytes rest : List UInt8) :
    carryFrom (bytes ++ rest) bytes.length = carryFrom bytes bytes.length ++ rest := by
  induction bytes using List.reverseRecOn generalizing rest with
  | nil => rfl
  | append_singleton front last ih =>
      have found : ∀ behind : List UInt8, (front ++ last :: behind).modify front.length (· + 1) =
          front ++ (last + 1) :: behind := fun behind => modify_append front last behind (· + 1)
      have alone : (front ++ [last]).modify front.length (· + 1) = front ++ [last + 1] := found []
      rw [List.append_assoc, List.singleton_append, List.length_append, List.length_singleton,
        carryFrom, carryFrom, found rest, alone]
      by_cases overflows : last + 1 = 0
      · simp [overflows, ih]
      · simp [overflows]

/-- The loop counts, modulo the power of 256 that fits. -/
theorem value_carryFrom (bytes : List UInt8) :
    value (carryFrom bytes bytes.length) = (value bytes + 1) % 256 ^ bytes.length ∧
      (carryFrom bytes bytes.length).length = bytes.length := by
  induction bytes using List.reverseRecOn with
  | nil => simp [carryFrom, value, ofLittleEndian]
  | append_singleton front last ih =>
      have found : (front ++ [last]).modify front.length (· + 1) = front ++ [last + 1] :=
        modify_append front last [] (· + 1)
      have bound := value_lt front
      have lastSmall := last.toNat_lt
      have next : (last + 1).toNat = (last.toNat + 1) % 256 := by simp
      rw [List.length_append, List.length_singleton, carryFrom, found]
      by_cases overflows : last + 1 = 0
      · have highest : last.toNat = 255 := by
          have zero := congrArg UInt8.toNat overflows
          rw [next] at zero
          simp at zero
          omega
        have carried : (256 * value front + last.toNat + 1) % 256 ^ (front.length + 1) =
            256 * ((value front + 1) % 256 ^ front.length) := by
          rw [Nat.pow_succ', highest, ← Nat.mul_mod_mul_left]
          congr 1
        have loop := carryFrom_append front [0]
        simp only [overflows] at loop ⊢
        simp [loop, value_append, carried, ih.1, ih.2]
      · have lower : last.toNat < 255 := by
          by_contra high
          apply overflows
          apply UInt8.toNat_inj.mp
          rw [next]
          simp
          omega
        have fits : 256 * value front + last.toNat + 1 < 256 ^ (front.length + 1) := by
          rw [Nat.pow_succ]
          omega
        have stays : (front ++ [last + 1]).getD front.length 0 ≠ 0 := by
          simpa using overflows
        rw [if_pos stays, value_append, value_append, next, Nat.mod_eq_of_lt (by omega),
          Nat.mod_eq_of_lt (by omega)]
        simp
        omega

section Counting

variable {bytes : List UInt8} {width : Nat} (length : bytes.length = width)
include length

theorem length_iterate (steps : Nat) : ((carryFrom · width)^[steps] bytes).length = width := by
  induction steps with
  | zero => exact length
  | succ steps ih =>
      have next := (value_carryFrom ((carryFrom · width)^[steps] bytes)).2
      rw [Function.iterate_succ_apply']
      rw [ih] at next
      exact next

theorem value_iterate (steps : Nat) :
    value ((carryFrom · width)^[steps] bytes) = (value bytes + steps) % 256 ^ width := by
  induction steps with
  | zero =>
      have bound := value_lt bytes
      rw [length] at bound
      exact (Nat.mod_eq_of_lt bound).symm
  | succ steps ih =>
      have next := (value_carryFrom ((carryFrom · width)^[steps] bytes)).1
      rw [length_iterate length] at next
      rw [Function.iterate_succ_apply', next, ih, Nat.mod_add_mod, Nat.add_assoc]

/-- What is counted off stays distinct until the counter comes round. -/
theorem nodup_iterate {count : Nat} (fits : count ≤ 256 ^ width) :
    (List.iterate (carryFrom · width) bytes count).Nodup := by
  rw [← List.range_map_iterate]
  apply List.Nodup.map_on _ List.nodup_range
  intro first firstMember second secondMember same
  have values := congrArg value same
  rw [value_iterate length, value_iterate length] at values
  have steps := Nat.ModEq.add_left_cancel' (value bytes) values
  have firstBound := List.mem_range.mp firstMember
  have secondBound := List.mem_range.mp secondMember
  exact Nat.ModEq.eq_of_lt_of_lt steps (by omega) (by omega)

/-- A string is counted off exactly when its number is reached. -/
theorem mem_iterate_iff {other : List UInt8} {count : Nat} (otherLength : other.length = width) :
    other ∈ List.iterate (carryFrom · width) bytes count ↔
      ∃ steps < count, value other = (value bytes + steps) % 256 ^ width := by
  rw [List.mem_iterate]
  constructor
  · rintro ⟨steps, inside, rfl⟩
    exact ⟨steps, inside, value_iterate length steps⟩
  · rintro ⟨steps, inside, reached⟩
    refine ⟨steps, inside, eq_of_value_eq ?_ ?_⟩
    · rw [otherLength, length_iterate length]
    · rw [reached, value_iterate length]

end Counting

end ByteCounter

end MiniIotRobotEdge

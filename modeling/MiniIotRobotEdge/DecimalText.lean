import Mathlib.Data.Nat.Digits.Defs
import Mathlib.Data.UInt
import Mathlib.Tactic.Ring

/-!
# Decimal numbers as strings of C

`strcmp` compares two strings byte by byte; the zero at the end of a string counts as a byte.
Decimal numbers without leading zeros are ordered like their strings when they have the same
number of digits, and in the order of a dictionary otherwise.
-/

namespace MiniIotRobotEdge

namespace DecimalText

/-- The difference at the first place where two strings differ. -/
def strcmp : List UInt8 → List UInt8 → Int
  | [], [] => 0
  | [], second :: _ => -(second.toNat : Int)
  | first :: _, [] => first.toNat
  | first :: firsts, second :: seconds =>
      if first = second then strcmp firsts seconds else (first.toNat : Int) - second.toNat

/-- The digits of a number, the most significant one first. -/
def decimal (number : Nat) : List UInt8 :=
  if number = 0 then [48]
  else (Nat.digits 10 number).reverse.map fun digit => UInt8.ofNat (48 + digit)

def IsDigit (character : UInt8) : Prop := 48 ≤ character.toNat ∧ character.toNat < 58

/-- The number that a string of digits stands for. -/
def decimalValue (text : List UInt8) : Nat :=
  text.foldl (fun value character => 10 * value + (character.toNat - 48)) 0

example : decimal 10 = [49, 48] ∧ 0 < strcmp (decimal 9) (decimal 10) := by decide

theorem toNat_digit {digit : Nat} (small : digit < 10) :
    (UInt8.ofNat (48 + digit)).toNat = 48 + digit := by
  rw [UInt8.toNat_ofNat']
  exact Nat.mod_eq_of_lt (by omega)

theorem isDigit_of_mem {number : Nat} {character : UInt8} (member : character ∈ decimal number) :
    IsDigit character := by
  unfold decimal at member
  split at member
  · obtain rfl := List.mem_singleton.mp member
    exact ⟨by decide, by decide⟩
  · obtain ⟨digit, isDigit, rfl⟩ := List.mem_map.mp member
    have small := Nat.digits_lt_base (by decide : 1 < 10) (List.mem_reverse.mp isDigit)
    rw [IsDigit, toNat_digit small]
    omega

theorem decimalValue_decimal (number : Nat) : decimalValue (decimal number) = number := by
  unfold decimal
  split
  case isTrue isZero => rw [isZero]; rfl
  case isFalse =>
    have digits : ∀ digit ∈ Nat.digits 10 number, digit < 10 := fun digit isDigit =>
      Nat.digits_lt_base (by decide) isDigit
    rw [decimalValue, List.foldl_map, List.foldl_reverse]
    conv_rhs => rw [← Nat.ofDigits_digits 10 number, Nat.ofDigits_eq_foldr]
    apply List.foldr_ext
    intro digit isDigit value
    rw [toNat_digit (digits digit isDigit), Nat.add_sub_cancel_left, Nat.add_comm]
    rfl

theorem decimal_injective {first second : Nat} (same : decimal first = decimal second) :
    first = second := by
  rw [← decimalValue_decimal first, same, decimalValue_decimal]

theorem strcmp_cons_self (character : UInt8) (first second : List UInt8) :
    strcmp (character :: first) (character :: second) = strcmp first second :=
  if_pos rfl

theorem strcmp_cons_of_ne {character other : UInt8} {first second : List UInt8}
    (apart : character ≠ other) :
    strcmp (character :: first) (other :: second) = (character.toNat : Int) - other.toNat :=
  if_neg apart

theorem strcmp_append_same (front first second : List UInt8) :
    strcmp (front ++ first) (front ++ second) = strcmp first second := by
  induction front with
  | nil => rfl
  | cons character front ih => rw [List.cons_append, List.cons_append, strcmp_cons_self, ih]

/-- What stands behind a number: nothing, or a character below the digits. -/
def EndsNumber (rest : List UInt8) : Prop := ∀ character ∈ rest.head?, character.toNat < 48

/-- The end of a number stands in front of every digit. -/
theorem not_strcmp_pos_digit {digit : UInt8} {rest text : List UInt8} (ends : EndsNumber rest)
    (isDigit : IsDigit digit) : ¬0 < strcmp rest (digit :: text) := by
  have lower := isDigit.1
  cases rest with
  | nil =>
      rw [strcmp]
      omega
  | cons character rest =>
      have below := ends character rfl
      have apart : character ≠ digit := by
        rintro rfl
        exact absurd lower (by omega)
      rw [strcmp_cons_of_ne apart]
      omega

theorem strcmp_digit_pos {digit : UInt8} {rest text : List UInt8} (ends : EndsNumber rest)
    (isDigit : IsDigit digit) : 0 < strcmp (digit :: text) rest := by
  have lower := isDigit.1
  cases rest with
  | nil =>
      rw [strcmp]
      omega
  | cons character rest =>
      have below := ends character rfl
      have apart : digit ≠ character := by
        rintro rfl
        exact absurd lower (by omega)
      rw [strcmp_cons_of_ne apart]
      omega

theorem endsNumber_nil : EndsNumber [] := by
  intro character isFirst
  cases isFirst

/-- The order of two different numbers decides, whatever stands behind them. -/
theorem strcmp_append_pos_iff {first second firstRest secondRest : List UInt8}
    (firstDigits : ∀ character ∈ first, IsDigit character)
    (secondDigits : ∀ character ∈ second, IsDigit character) (differ : first ≠ second)
    (firstEnds : EndsNumber firstRest) (secondEnds : EndsNumber secondRest) :
    0 < strcmp (first ++ firstRest) (second ++ secondRest) ↔ 0 < strcmp first second := by
  induction first generalizing second with
  | nil =>
      cases second with
      | nil => exact absurd rfl differ
      | cons digit second =>
          have isDigit := secondDigits digit List.mem_cons_self
          exact iff_of_false (not_strcmp_pos_digit firstEnds isDigit)
            (not_strcmp_pos_digit endsNumber_nil isDigit)
  | cons digit first ih =>
      cases second with
      | nil =>
          have isDigit := firstDigits digit List.mem_cons_self
          exact iff_of_true (strcmp_digit_pos secondEnds isDigit)
            (strcmp_digit_pos endsNumber_nil isDigit)
      | cons other second =>
          rw [List.cons_append, List.cons_append]
          by_cases same : digit = other
          · subst same
            rw [strcmp_cons_self, strcmp_cons_self]
            exact ih (fun character member => firstDigits character (List.mem_cons_of_mem _ member))
              (fun character member => secondDigits character (List.mem_cons_of_mem _ member))
              (fun equal => differ (congrArg _ equal))
          · rw [strcmp_cons_of_ne same, strcmp_cons_of_ne same]

/-- Where the digits end does not depend on what stands behind them. -/
theorem append_inj_of_digits {first second firstRest secondRest : List UInt8}
    (firstDigits : ∀ character ∈ first, IsDigit character)
    (secondDigits : ∀ character ∈ second, IsDigit character)
    (firstEnds : EndsNumber firstRest) (secondEnds : EndsNumber secondRest)
    (same : first ++ firstRest = second ++ secondRest) :
    first = second ∧ firstRest = secondRest := by
  induction first generalizing second with
  | nil =>
      cases second with
      | nil => exact ⟨rfl, same⟩
      | cons digit second =>
          have isDigit := secondDigits digit List.mem_cons_self
          have below := firstEnds digit (by rw [← List.nil_append firstRest, same]; rfl)
          exact absurd isDigit.1 (by omega)
  | cons digit first ih =>
      have isDigit := firstDigits digit List.mem_cons_self
      cases second with
      | nil =>
          have below := secondEnds digit (by rw [← List.nil_append secondRest, ← same]; rfl)
          exact absurd isDigit.1 (by omega)
      | cons other second =>
          obtain ⟨rfl, tails⟩ := List.cons.inj same
          obtain ⟨rfl, rests⟩ := ih
            (fun character member => firstDigits character (List.mem_cons_of_mem _ member))
            (fun character member => secondDigits character (List.mem_cons_of_mem _ member)) tails
          exact ⟨rfl, rests⟩

section SameLength

theorem decimalValue_cons (character : UInt8) (text : List UInt8) :
    decimalValue (character :: text) =
      (character.toNat - 48) * 10 ^ text.length + decimalValue text := by
  have shift : ∀ (text : List UInt8) value,
      text.foldl (fun value character => 10 * value + (character.toNat - 48)) value =
        value * 10 ^ text.length + decimalValue text := by
    intro text
    induction text with
    | nil => simp [decimalValue]
    | cons character text ih =>
        intro value
        rw [List.foldl_cons, ih]
        change _ = value * 10 ^ (text.length + 1) +
          text.foldl (fun value character => 10 * value + (character.toNat - 48))
            (10 * 0 + (character.toNat - 48))
        rw [ih, pow_succ]
        ring
  rw [decimalValue, List.foldl_cons, shift]
  simp

theorem decimalValue_lt {text : List UInt8} (digits : ∀ character ∈ text, IsDigit character) :
    decimalValue text < 10 ^ text.length := by
  induction text with
  | nil => exact Nat.one_pos
  | cons character text ih =>
      have isDigit := digits character List.mem_cons_self
      have small := ih fun character member => digits character (List.mem_cons_of_mem _ member)
      rw [decimalValue_cons, List.length_cons, pow_succ]
      have bound : character.toNat - 48 ≤ 9 := by
        have upper := isDigit.2
        omega
      have scaled := Nat.mul_le_mul_right (10 ^ text.length) bound
      omega

/-- Numbers with the same number of digits are ordered like their strings. -/
theorem strcmp_pos_iff_of_length_eq {first second : List UInt8}
    (firstDigits : ∀ character ∈ first, IsDigit character)
    (secondDigits : ∀ character ∈ second, IsDigit character)
    (lengths : first.length = second.length) :
    0 < strcmp first second ↔ decimalValue second < decimalValue first := by
  induction first generalizing second with
  | nil =>
      rw [List.length_eq_zero_iff.mp lengths.symm]
      exact ⟨fun positive => absurd positive (by decide), fun less => absurd less (by decide)⟩
  | cons digit first ih =>
      cases second with
      | nil => simp at lengths
      | cons other second =>
          have firstTail : ∀ character ∈ first, IsDigit character := fun character member =>
            firstDigits character (List.mem_cons_of_mem _ member)
          have secondTail : ∀ character ∈ second, IsDigit character := fun character member =>
            secondDigits character (List.mem_cons_of_mem _ member)
          have sameLength : first.length = second.length := by simpa using lengths
          rw [decimalValue_cons, decimalValue_cons, sameLength]
          by_cases same : digit = other
          · subst same
            rw [strcmp_cons_self, ih firstTail secondTail sameLength]
            omega
          · rw [strcmp_cons_of_ne same]
            have firstSmall := decimalValue_lt firstTail
            have secondSmall := decimalValue_lt secondTail
            rw [sameLength] at firstSmall
            have isDigit := firstDigits digit List.mem_cons_self
            have isOther := secondDigits other List.mem_cons_self
            have apart : digit.toNat ≠ other.toNat := fun equal => same (UInt8.toNat_inj.mp equal)
            obtain less | greater := Nat.lt_or_gt_of_ne apart
            · have scaled := Nat.mul_le_mul_right (10 ^ second.length)
                (show digit.toNat - 48 + 1 ≤ other.toNat - 48 by have := isDigit.1; omega)
              rw [Nat.add_mul, Nat.one_mul] at scaled
              omega
            · have scaled := Nat.mul_le_mul_right (10 ^ second.length)
                (show other.toNat - 48 + 1 ≤ digit.toNat - 48 by have := isOther.1; omega)
              rw [Nat.add_mul, Nat.one_mul] at scaled
              omega

/-- Decimal numbers of the same length are ordered like their strings. -/
theorem strcmp_decimal_pos_iff {first second : Nat}
    (lengths : (decimal first).length = (decimal second).length) :
    0 < strcmp (decimal first) (decimal second) ↔ second < first := by
  rw [strcmp_pos_iff_of_length_eq (fun _ => isDigit_of_mem) (fun _ => isDigit_of_mem) lengths,
    decimalValue_decimal, decimalValue_decimal]

end SameLength

end DecimalText

end MiniIotRobotEdge

import Mathlib.Algebra.Polynomial.OfFn
import Mathlib.Algebra.Polynomial.Degree.Operations
import Mathlib.FieldTheory.Finite.GaloisField
import Mathlib.RingTheory.AdjoinRoot

/-!
# Bytes as elements of the field with 256 elements

A byte is the polynomial over the bits whose coefficients it lists, modulo
`x ^ 8 + x ^ 4 + x ^ 3 + x + 1`.  The exclusive or is the addition, `times` the
multiplication and `inverse` the inversion of that quotient, which is a field.
-/

namespace MiniIotRobotEdge

namespace ByteField

open Polynomial

section Bytes

/-- The byte with these bits, the lowest first. -/
def ofBits (bit : Nat → Bool) : UInt8 :=
  .ofBitVec (BitVec.ofBoolListLE [bit 0, bit 1, bit 2, bit 3, bit 4, bit 5, bit 6, bit 7])

theorem getLsbD_ofBits (bit : Nat → Bool) {index : Nat} (inside : index < 8) :
    (ofBits bit).toBitVec.getLsbD index = bit index := by
  have eight : index = 0 ∨ index = 1 ∨ index = 2 ∨ index = 3 ∨ index = 4 ∨ index = 5 ∨
      index = 6 ∨ index = 7 := by omega
  rcases eight with rfl | rfl | rfl | rfl | rfl | rfl | rfl | rfl <;>
    exact BitVec.getLsbD_ofBoolListLE

/-- The product with `x`. -/
def xtime (byte : UInt8) : UInt8 :=
  if byte.toBitVec.getLsbD 7 then (byte <<< 1) ^^^ 0x1B else byte <<< 1

def bits (byte : UInt8) : List Bool := (List.range 8).map byte.toBitVec.getLsbD

/-- The product, by Horner's rule over the bits of the second factor. -/
def times (first second : UInt8) : UInt8 :=
  (bits second).foldr (fun bit sum => (if bit then first else 0) ^^^ xtime sum) 0

/-- The power `byte ^ 254`, as the product of seven squares. -/
def inverse (byte : UInt8) : UInt8 :=
  ((List.range 7).foldl
    (fun powers _ =>
      let square := times powers.1 powers.1
      (square, times powers.2 square))
    (byte, 1)).2

end Bytes

noncomputable section Quotient

def modulus : (ZMod 2)[X] := X ^ 8 + X ^ 4 + X ^ 3 + X + 1

abbrev Field256 := AdjoinRoot modulus

def coefficient (byte : UInt8) (index : Fin 8) : ZMod 2 :=
  if byte.toBitVec.getLsbD index then 1 else 0

def element (byte : UInt8) : Field256 := AdjoinRoot.mk modulus (ofFn 8 (coefficient byte))

def root : Field256 := AdjoinRoot.root modulus

theorem modulus_natDegree : modulus.natDegree = 8 := by
  unfold modulus
  compute_degree!

theorem modulus_monic : modulus.Monic := by
  unfold modulus
  monicity!

theorem modulus_degree : modulus.degree = 8 := by
  rw [degree_eq_natDegree modulus_monic.ne_zero, modulus_natDegree]
  rfl

instance : Nontrivial Field256 := AdjoinRoot.nontrivial modulus (by simp [modulus_degree])

instance : CharP Field256 2 :=
  charP_of_injective_ringHom (AdjoinRoot.of modulus).injective 2

/-- The power that the reduction replaces. -/
theorem root_pow_eight : root ^ 8 = root ^ 4 + root ^ 3 + root + 1 := by
  have zero : AdjoinRoot.mk modulus (X ^ 8 + (X ^ 4 + X ^ 3 + X + 1)) = 0 := by
    simpa only [modulus, add_assoc] using AdjoinRoot.mk_self (f := modulus)
  simp only [map_add, map_pow, map_one, AdjoinRoot.mk_X] at zero
  exact CharTwo.add_eq_zero.mp zero

section Representatives

theorem coefficient_injective : Function.Injective coefficient := by
  intro first second same
  apply UInt8.toBitVec_inj.mp
  apply BitVec.eq_of_getLsbD_eq
  intro index inside
  have equal := congrFun same ⟨index, inside⟩
  simp only [coefficient] at equal
  split at equal <;> split at equal <;> simp_all

theorem coefficient_surjective : Function.Surjective coefficient := by
  intro values
  exists ofBits fun index => if inside : index < 8 then values ⟨index, inside⟩ = 1 else false
  ext index
  simp only [coefficient, getLsbD_ofBits _ index.isLt, index.isLt, dif_pos, decide_eq_true_eq]
  generalize values index = value
  revert value
  decide

/-- A polynomial below the eighth degree is its own remainder. -/
theorem modByMonicHom_element (byte : UInt8) :
    AdjoinRoot.modByMonicHom modulus_monic (element byte) = ofFn 8 (coefficient byte) := by
  rw [element, AdjoinRoot.modByMonicHom_mk]
  apply (modByMonic_eq_self_iff modulus_monic).mpr
  rw [modulus_degree]
  exact ofFn_degree_lt _

theorem element_injective : Function.Injective element := by
  intro first second same
  apply coefficient_injective
  apply injective_ofFn 8
  rw [← modByMonicHom_element, same, modByMonicHom_element]

theorem element_surjective : Function.Surjective element := by
  intro value
  obtain ⟨polynomial, rfl⟩ := AdjoinRoot.mk_surjective value
  let remainder := polynomial %ₘ modulus
  have below : remainder.natDegree < 8 := by
    rw [← modulus_natDegree]
    apply natDegree_modByMonic_lt polynomial modulus_monic
    intro one
    simpa [one] using modulus_natDegree
  obtain ⟨byte, same⟩ := coefficient_surjective (toFn 8 remainder)
  exists byte
  rw [element, same, ofFn_comp_toFn_eq_id_of_natDegree_lt below]
  simpa only [AdjoinRoot.modByMonicHom_mk] using
    AdjoinRoot.mk_leftInverse modulus_monic (AdjoinRoot.mk modulus polynomial)

theorem element_bijective : Function.Bijective element :=
  ⟨element_injective, element_surjective⟩

end Representatives

section Operations

theorem coefficient_xor (first second : UInt8) :
    coefficient (first ^^^ second) = coefficient first + coefficient second := by
  ext index
  simp only [coefficient, Pi.add_apply, UInt8.toBitVec_xor, BitVec.getLsbD_xor]
  cases first.toBitVec.getLsbD index <;> cases second.toBitVec.getLsbD index <;> decide

@[simp]
theorem element_xor (first second : UInt8) :
    element (first ^^^ second) = element first + element second := by
  simp only [element, coefficient_xor, map_add]

@[simp]
theorem element_zero : element 0 = 0 := by
  have nothing : coefficient 0 = 0 := by decide
  simp only [element, nothing, map_zero]

/-- A bit as the factor of its power of the root. -/
def digit (bit : Bool) : Field256 := if bit then 1 else 0

@[simp]
theorem digit_false : digit false = 0 := rfl

@[simp]
theorem digit_true : digit true = 1 := rfl

theorem digit_xor (first second : Bool) : digit (first ^^ second) = digit first + digit second := by
  cases first <;> cases second <;> simp [CharTwo.add_self_eq_zero]

theorem element_eq_sum (byte : UInt8) :
    element byte = ∑ index : Fin 8, digit (byte.toBitVec.getLsbD index) * root ^ index.val := by
  simp only [element, ofFn_eq_sum_monomial, map_sum]
  apply Finset.sum_congr rfl
  intro index _
  simp only [coefficient]
  cases byte.toBitVec.getLsbD index
  · simp
  · simp [root, ← X_pow_eq_monomial]

@[simp]
theorem element_one : element 1 = 1 := by
  have first : (1 : UInt8).toBitVec.getLsbD 0 = true := rfl
  simp [element_eq_sum, Fin.sum_univ_succ]

theorem getLsbD_xtime (byte : UInt8) {index : Nat} (inside : index < 8) :
    (xtime byte).toBitVec.getLsbD index =
      ((decide (0 < index) && byte.toBitVec.getLsbD (index - 1)) ^^
        (byte.toBitVec.getLsbD 7 && (0x1B : BitVec 8).getLsbD index)) := by
  have shifted : (byte <<< 1).toBitVec.getLsbD index =
      (decide (0 < index) && byte.toBitVec.getLsbD (index - 1)) := by
    change (byte.toBitVec <<< 1).getLsbD index = _
    rw [BitVec.getLsbD_shiftLeft, decide_eq_true inside, Bool.true_and]
    cases index <;> simp
  unfold xtime
  split
  next bit => rw [UInt8.toBitVec_xor, BitVec.getLsbD_xor, shifted, bit, Bool.true_and]; rfl
  next bit => rw [shifted, Bool.eq_false_iff.mpr bit, Bool.false_and, Bool.xor_false]

/-- The bit that is shifted out stands for the power that `root_pow_eight` reduces. -/
@[simp]
theorem element_xtime (byte : UInt8) : element (xtime byte) = root * element byte := by
  rw [element_eq_sum, element_eq_sum]
  simp only [getLsbD_xtime byte (Fin.isLt _), digit_xor, Fin.sum_univ_eight]
  simp [-BitVec.getLsbD_eq_getElem]
  linear_combination -digit (byte.toBitVec.getLsbD 7) * root_pow_eight

/-- Horner's rule. -/
theorem element_eq_foldr (byte : UInt8) :
    element byte = (bits byte).foldr (fun bit sum => digit bit + root * sum) 0 := by
  rw [element_eq_sum, bits, Fin.sum_univ_eight]
  simp only [List.foldr_map]
  simp [List.range_succ]
  ring

theorem element_foldr (first : UInt8) (word : List Bool) :
    element (word.foldr (fun bit sum => (if bit then first else 0) ^^^ xtime sum) 0) =
      element first * word.foldr (fun bit sum => digit bit + root * sum) 0 := by
  induction word with
  | nil => simp
  | cons bit word inductionHypothesis =>
    rw [List.foldr_cons, List.foldr_cons, element_xor, element_xtime, inductionHypothesis]
    cases bit
    · simp only [Bool.false_eq_true, if_false, element_zero, digit_false]
      ring
    · simp only [if_true, digit_true]
      ring

@[simp]
theorem element_times (first second : UInt8) :
    element (times first second) = element first * element second := by
  rw [times, element_foldr, ← element_eq_foldr]

theorem one_times (byte : UInt8) : times 1 byte = byte := by
  apply element_injective
  simp

theorem two_times (byte : UInt8) : times 2 byte = xtime byte := by
  have two : element 2 = root := by
    have two_eq : (2 : UInt8) = xtime 1 := rfl
    rw [two_eq, element_xtime, element_one, mul_one]
  apply element_injective
  rw [element_times, element_xtime, two]

theorem three_times (byte : UInt8) : times 3 byte = xtime byte ^^^ byte := by
  have three : element 3 = root + 1 := by
    have three_eq : (3 : UInt8) = xtime 1 ^^^ 1 := rfl
    rw [three_eq, element_xor, element_xtime, element_one, mul_one]
  apply element_injective
  rw [element_times, element_xor, element_xtime, three]
  ring

end Operations

section Field

/-- An element whose powers are all the elements but zero. -/
def generator : Field256 := root + 1

theorem element_iterate (count : Nat) :
    element ((fun byte => xtime byte ^^^ byte)^[count] 1) = generator ^ count := by
  induction count with
  | zero => simp
  | succ count inductionHypothesis =>
    rw [Function.iterate_succ_apply', element_xor, element_xtime, inductionHypothesis, generator]
    ring

theorem generator_pow_eq_one_iff (count : Nat) :
    generator ^ count = 1 ↔ (fun byte => xtime byte ^^^ byte)^[count] 1 = 1 := by
  rw [← element_iterate, ← element_one, element_injective.eq_iff]

theorem orderOf_generator : orderOf generator = 255 := by
  apply orderOf_eq_of_pow_and_pow_div_prime (by decide)
  · rw [generator_pow_eq_one_iff]
    decide +kernel
  · intro factor prime divides
    have factors : factor = 3 ∨ factor = 5 ∨ factor = 17 := by
      have product : factor ∣ 3 * (5 * 17) := divides
      rw [prime.dvd_mul, prime.dvd_mul, Nat.prime_dvd_prime_iff_eq prime (by decide),
        Nat.prime_dvd_prime_iff_eq prime (by decide),
        Nat.prime_dvd_prime_iff_eq prime (by decide)] at product
      exact product
    rw [Ne, generator_pow_eq_one_iff]
    rcases factors with rfl | rfl | rfl <;> decide +kernel

theorem card_field256 : Nat.card Field256 = 2 ^ 8 := by
  rw [← Nat.card_eq_of_bijective element element_bijective]
  rw [Nat.card_eq_of_bijective coefficient ⟨coefficient_injective, coefficient_surjective⟩]
  simp

instance : Finite Field256 := Nat.finite_of_card_ne_zero (by simp [card_field256])

/-- Zero and the powers of the generator. -/
def listed : Option (Fin 255) → Field256
  | none => 0
  | some exponent => generator ^ exponent.val

theorem isUnit_generator : IsUnit generator := by
  apply IsUnit.of_pow_eq_one (n := 255)
  · rw [← orderOf_generator, pow_orderOf_eq_one]
  · decide

theorem listed_injective : Function.Injective listed := by
  have nonzero (exponent : Nat) : generator ^ exponent ≠ 0 :=
    (isUnit_generator.pow exponent).ne_zero
  intro first second same
  rcases first with _ | first <;> rcases second with _ | second
  · rfl
  · exact absurd same.symm (nonzero second)
  · exact absurd same (nonzero first)
  · have inside (exponent : Fin 255) : exponent.val < orderOf generator := by
      rw [orderOf_generator]
      exact exponent.isLt
    have equal := pow_injOn_Iio_orderOf (inside first) (inside second) same
    rw [Fin.ext equal]

theorem listed_surjective : Function.Surjective listed := by
  apply (listed_injective.bijective_of_nat_card_le _).surjective
  simp [card_field256]

theorem isField_field256 : IsField Field256 where
  exists_pair_ne := ⟨0, 1, zero_ne_one⟩
  mul_comm := mul_comm
  mul_inv_cancel := by
    intro value nonzero
    obtain ⟨exponent, rfl⟩ := listed_surjective value
    cases exponent with
    | none => exact absurd rfl nonzero
    | some exponent => exact (isUnit_generator.pow exponent.val).exists_right_inv

theorem modulus_irreducible : Irreducible modulus := by
  have maximal : (Ideal.span {modulus}).IsMaximal :=
    Ideal.Quotient.maximal_of_isField _ isField_field256
  have prime := (Ideal.span_singleton_prime modulus_monic.ne_zero).mp maximal.isPrime
  exact prime.irreducible

instance : Fact (Irreducible modulus) := ⟨modulus_irreducible⟩

/-- The quotient is the field with `2 ^ 8` elements. -/
theorem nonempty_galoisField : Nonempty (Field256 ≃ₐ[ZMod 2] GaloisField 2 8) :=
  ⟨GaloisField.algEquivGaloisField 2 8 card_field256⟩

theorem element_inverse_eq_pow (byte : UInt8) : element (inverse byte) = element byte ^ 254 := by
  simp only [inverse, List.range_succ, List.range_zero, List.nil_append, List.foldl_append,
    List.foldl_cons, List.foldl_nil, element_times, element_one]
  ring

/-- The inverse of zero is zero on both sides. -/
@[simp]
theorem element_inverse (byte : UInt8) : element (inverse byte) = (element byte)⁻¹ := by
  rw [element_inverse_eq_pow]
  by_cases zero : element byte = 0
  · simp [zero]
  · have := Fintype.ofFinite Field256
    have power := FiniteField.pow_card_sub_one_eq_one _ zero
    rw [← Nat.card_eq_fintype_card, card_field256] at power
    apply eq_inv_of_mul_eq_one_left
    rw [← pow_succ]
    exact power

theorem inverse_eq_of_times {first second : UInt8} (product : times first second = 1) :
    inverse first = second := by
  apply element_injective
  rw [element_inverse]
  apply inv_eq_of_mul_eq_one_right
  rw [← element_times, product, element_one]

@[simp]
theorem inverse_zero : inverse 0 = 0 := by
  apply element_injective
  simp

end Field

end Quotient

end ByteField

end MiniIotRobotEdge

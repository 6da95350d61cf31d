import Mathlib.Algebra.Order.Ring.Rat
import Mathlib.Data.Rat.Floor
import Mathlib.Tactic.FieldSimp
import Mathlib.Tactic.Linarith
import Mathlib.Tactic.Positivity
import MiniIotRobotEdge.RangeLoop

/-!
# The quantisation of mini-edge-ai

The model of the calibration and the quantisation to `int8_t` in
`inference_opt.c`, over exact numbers.  The calibration counts its zero point
from the lower end of an unsigned byte, and the conversion of C drops the
fraction on both sides of zero.
-/

namespace MiniIotRobotEdge

namespace Ai

namespace Quantization

section Functions

variable {K : Type*} [Field K] [LinearOrder K] [FloorRing K]

/-- The conversion of a float to an integer. -/
def truncate (x : K) : Int := if 0 ≤ x then ⌊x⌋ else ⌈x⌉

/-- A value between the ends of `int8_t`. -/
def clamp (v : K) : K :=
  if ((127 : Int) : K) < v then (127 : Int)
  else if v < ((-128 : Int) : K) then (-128 : Int)
  else v

/-- The code of `v`, which is rounded away from the negative numbers. -/
def toInt8 (v : K) : Int := truncate (clamp v + 1 / (2 : ℕ))

/-- The value of a code. -/
def fromInt8 (scale : K) (zp : Int) (code : Int) : K := ((code : K) - zp) * scale

def quantizeInt8Asym (src : Nat → K) (n : Nat) (scale : K) (zp : Int) (dst : Nat → Int) :
    Option (Nat → Int) :=
  if n = 0 ∨ scale ≤ 0 then none
  else some ((List.range n).foldl
    (fun dst i => Function.update dst i (toInt8 (src i / scale + zp))) dst)

def dequantizeInt8Asym (src : Nat → Int) (n : Nat) (scale : K) (zp : Int) (dst : Nat → K) :
    Option (Nat → K) :=
  if n = 0 then none
  else some ((List.range n).foldl
    (fun dst i => Function.update dst i (fromInt8 scale zp (src i))) dst)

/-- The least and the largest of the data. -/
def extrema (data : Nat → K) (n : Nat) : K × K :=
  (List.range (n - 1)).foldl
    (fun found i =>
      (if data (i + 1) < found.1 then data (i + 1) else found.1,
        if found.2 < data (i + 1) then data (i + 1) else found.2)) (data 0, data 0)

def quantCalcScaleZp (data : Nat → K) (n : Nat) : K × Int :=
  if n = 0 then (1, 0)
  else
    let found := extrema data n
    let range := if found.1 < found.2 then found.2 - found.1 else 1
    let scale := range / (255 : ℕ)
    let zp := truncate (-found.1 / scale)
    (scale, if zp < 0 then 0 else if 255 < zp then 255 else zp)

/-- The loops over the channels, which have the same number of entries each. -/
def perChannel {V : Type*} (value : Nat → Nat → V) (n channels : Nat) (dst : Nat → V) :
    Option (Nat → V) :=
  if n = 0 ∨ channels = 0 then none
  else some ((List.range channels).foldl (fun dst ch =>
    (List.range (n / channels)).foldl (fun dst i =>
      Function.update dst (ch * (n / channels) + i) (value ch (ch * (n / channels) + i))) dst) dst)

def perChannelQuantize (src : Nat → K) (n channels : Nat) (scales : Nat → K) (zps : Nat → Int)
    (dst : Nat → Int) : Option (Nat → Int) :=
  perChannel (fun ch idx => toInt8 (src idx / scales ch + zps ch)) n channels dst

def perChannelDequantize (src : Nat → Int) (n channels : Nat) (scales : Nat → K)
    (zps : Nat → Int) (dst : Nat → K) : Option (Nat → K) :=
  perChannel (fun ch idx => fromInt8 (scales ch) (zps ch) (src idx)) n channels dst

end Functions

/-! ### Codes -/

section Codes

variable {K : Type*} [Field K] [LinearOrder K] [FloorRing K] [IsStrictOrderedRing K] {v : K}

omit [FloorRing K] [IsStrictOrderedRing K] in
theorem clamp_of_le (low : -128 ≤ v) (high : v ≤ 127) : clamp v = v := by
  rw [clamp, if_neg (by push_cast; exact high.not_gt), if_neg (by push_cast; exact low.not_gt)]

/-- What is not too large and not below the half under zero is rounded to the next integer. -/
theorem toInt8_of_ge (low : -(1 / 2) ≤ v) (high : v ≤ 127) :
    0 ≤ toInt8 v ∧ toInt8 v ≤ 127 ∧ |(toInt8 v : K) - v| ≤ 1 / 2 := by
  have positive : 0 ≤ v + 1 / 2 := by linarith
  have isFloor : toInt8 v = ⌊v + 1 / 2⌋ := by
    rw [toInt8, clamp_of_le (by linarith) high, Nat.cast_ofNat, truncate, if_pos positive]
  have below := Int.floor_le (v + 1 / 2)
  have above := Int.lt_floor_add_one (v + 1 / 2)
  rw [isFloor]
  refine ⟨Int.floor_nonneg.mpr positive, ?_, abs_le.mpr ⟨by linarith, by linarith⟩⟩
  apply Int.lt_add_one_iff.mp
  apply Int.floor_lt.mpr
  push_cast
  linarith

theorem toInt8_of_gt (low : -1 < v) (high : v < -(1 / 2)) : toInt8 v = 0 := by
  have negative : ¬ 0 ≤ v + 1 / 2 := by linarith
  rw [toInt8, clamp_of_le (by linarith) (by linarith), Nat.cast_ofNat, truncate, if_neg negative,
    Int.ceil_eq_zero_iff]
  exact ⟨by linarith, by linarith⟩

theorem toInt8_of_large (large : 127 < v) : toInt8 v = 127 := by
  have isClamped : clamp v = 127 := by
    rw [clamp, if_pos (by push_cast; exact large)]
    norm_cast
  have positive : (0 : K) ≤ 127 + 1 / 2 := by positivity
  rw [toInt8, isClamped, Nat.cast_ofNat, truncate, if_pos positive, Int.floor_eq_iff]
  constructor <;> norm_num

/-- Rounding brings a negative code nearer to zero. -/
theorem toInt8_intCast {code : Int} (low : -128 ≤ code) (high : code ≤ 127) :
    toInt8 (code : K) = if 0 ≤ code then code else code + 1 := by
  have isClamped : clamp (code : K) = code :=
    clamp_of_le (by exact_mod_cast low) (by exact_mod_cast high)
  rw [toInt8, isClamped, Nat.cast_ofNat, truncate]
  split_ifs with rounded nonneg nonneg
  · rw [Int.floor_intCast_add, add_eq_left, Int.floor_eq_zero_iff]
    constructor <;> norm_num
  · exfalso
    have negative : (code : K) ≤ -1 := by exact_mod_cast (by omega : code ≤ -1)
    linarith
  · exfalso
    have positive : (0 : K) ≤ code := by exact_mod_cast nonneg
    linarith
  · rw [Int.ceil_intCast_add, add_right_inj, Int.ceil_eq_iff]
    constructor <;> norm_num

end Codes

/-! ### Loops -/

section Loops

variable {V : Type*}

/-- A loop that fills a part of an array. -/
theorem foldl_fill (value : Nat → V) (start count : Nat) (array : Nat → V) :
    (List.range count).foldl
        (fun array i => Function.update array (start + i) (value (start + i))) array =
      fun idx => if start ≤ idx ∧ idx < start + count then value idx else array idx := by
  apply RangeLoop.invariant fun turn state =>
    state = fun idx => if start ≤ idx ∧ idx < start + turn then value idx else array idx
  · funext idx
    rw [if_neg (by omega)]
  · rintro turn _ - rfl
    funext idx
    by_cases isNew : idx = start + turn
    · rw [isNew, Function.update_self, if_pos (by omega)]
    · rw [Function.update_of_ne isNew]
      by_cases filled : start ≤ idx ∧ idx < start + turn
      · rw [if_pos filled, if_pos (by omega)]
      · rw [if_neg filled, if_neg (by omega)]

theorem perChannel_apply {n channels : Nat} (entries : n ≠ 0) (channelled : channels ≠ 0)
    (value : Nat → Nat → V) (dst : Nat → V) :
    perChannel value n channels dst = some fun idx =>
      if idx < channels * (n / channels) then value (idx / (n / channels)) idx else dst idx := by
  rw [perChannel, if_neg (by simp [entries, channelled])]
  generalize n / channels = size
  congr 1
  apply RangeLoop.invariant fun turn state => state = fun idx =>
    if idx < turn * size then value (idx / size) idx else dst idx
  · funext idx
    rw [if_neg (by omega)]
  · rintro turn _ - rfl
    rw [foldl_fill (value turn)]
    funext idx
    rw [Nat.succ_mul]
    by_cases isNew : turn * size ≤ idx ∧ idx < turn * size + size
    · have isChannel : idx / size = turn := by
        apply Nat.div_eq_of_lt_le isNew.1
        rw [Nat.succ_mul]
        exact isNew.2
      rw [if_pos isNew, if_pos isNew.2, isChannel]
    · rw [if_neg isNew]
      by_cases filled : idx < turn * size
      · rw [if_pos filled, if_pos (by omega)]
      · rw [if_neg filled, if_neg (by omega)]

theorem place_lt {channels size ch i : Nat} (isChannel : ch < channels) (inside : i < size) :
    ch * size + i < channels * size ∧ (ch * size + i) / size = ch := by
  constructor
  · calc
      ch * size + i < ch * size + size := Nat.add_lt_add_left inside _
      _ = (ch + 1) * size := (Nat.succ_mul ch size).symm
      _ ≤ channels * size := Nat.mul_le_mul_right size isChannel
  · rw [Nat.mul_comm, Nat.mul_add_div (by omega), Nat.div_eq_of_lt inside, Nat.add_zero]

end Loops

/-! ### Calibration -/

section Calibration

variable {K : Type*} [Field K] [LinearOrder K] [FloorRing K] [IsStrictOrderedRing K]
  {data : Nat → K} {n : Nat}

omit [Field K] [FloorRing K] [IsStrictOrderedRing K] in
theorem extrema_bounds (data : Nat → K) (n : Nat) :
    ∀ i < n, (extrema data n).1 ≤ data i ∧ data i ≤ (extrema data n).2 := by
  have bounds : ∀ i ≤ n - 1, (extrema data n).1 ≤ data i ∧ data i ≤ (extrema data n).2 := by
    apply RangeLoop.invariant fun turn (found : K × K) =>
      ∀ i ≤ turn, found.1 ≤ data i ∧ data i ≤ found.2
    · intro i isFirst
      rw [Nat.le_zero.mp isFirst]
      exact ⟨le_rfl, le_rfl⟩
    · intro turn found _ bounds i earlier
      dsimp only
      rw [← min_def_lt, ← max_def_lt]
      rcases Nat.le_succ_iff.mp earlier with before | rfl
      · exact ⟨(min_le_right _ _).trans (bounds i before).1,
          (bounds i before).2.trans (le_max_left _ _)⟩
      · exact ⟨min_le_left _ _, le_max_right _ _⟩
  intro i inside
  exact bounds i (Nat.le_sub_one_of_lt inside)

/-- Data on both sides of zero are less than one step under the zero point. -/
theorem quantCalcScaleZp_spec {low high : Nat} (isLow : low < n) (isHigh : high < n)
    (nonpos : data low ≤ 0) (nonneg : 0 ≤ data high) :
    0 < (quantCalcScaleZp data n).1 ∧
      ∀ i < n, -1 < data i / (quantCalcScaleZp data n).1 + (quantCalcScaleZp data n).2 := by
  have bounds := extrema_bounds data n
  generalize isFound : extrema data n = found at bounds
  have least : found.1 ≤ 0 := (bounds low isLow).1.trans nonpos
  have largest : 0 ≤ found.2 := nonneg.trans (bounds high isHigh).2
  have rangePositive : 0 < if found.1 < found.2 then found.2 - found.1 else 1 := by
    split_ifs with spread
    · exact sub_pos.mpr spread
    · exact one_pos
  have covers : -found.1 ≤ if found.1 < found.2 then found.2 - found.1 else 1 := by
    split_ifs with spread
    · linarith
    · linarith
  rw [quantCalcScaleZp, if_neg (by omega), isFound]
  dsimp only
  generalize (if found.1 < found.2 then found.2 - found.1 else 1) = range at *
  have scalePositive : 0 < range / ((255 : ℕ) : K) := by positivity
  have stepsNonneg : 0 ≤ -found.1 / (range / ((255 : ℕ) : K)) :=
    div_nonneg (neg_nonneg.mpr least) scalePositive.le
  have stepsBounded : -found.1 / (range / ((255 : ℕ) : K)) ≤ 255 := by
    rw [div_le_iff₀ scalePositive]
    push_cast
    linarith
  generalize range / ((255 : ℕ) : K) = scale at *
  have zpNonneg : 0 ≤ ⌊-found.1 / scale⌋ := Int.floor_nonneg.mpr stepsNonneg
  have zpBounded : ⌊-found.1 / scale⌋ ≤ 255 := by
    have below := (Int.floor_le (-found.1 / scale)).trans stepsBounded
    exact_mod_cast below
  rw [truncate, if_pos stepsNonneg, if_neg (by omega), if_neg (by omega)]
  constructor
  · exact scalePositive
  · intro i inside
    have above := div_le_div_of_nonneg_right (bounds i inside).1 scalePositive.le
    have next := Int.lt_floor_add_one (-found.1 / scale)
    rw [neg_div] at next ⊢
    linarith

end Calibration

/-! ### Round trips -/

section RoundTrips

variable {K : Type*} [Field K] [LinearOrder K] [FloorRing K]

theorem quantizeInt8Asym_apply {n : Nat} {scale : K} (entries : n ≠ 0) (positive : 0 < scale)
    (src : Nat → K) (zp : Int) (dst : Nat → Int) :
    quantizeInt8Asym src n scale zp dst =
      some fun idx => if idx < n then toInt8 (src idx / scale + zp) else dst idx := by
  have filled := foldl_fill (fun idx => toInt8 (src idx / scale + zp)) 0 n dst
  simp only [Nat.zero_add, Nat.zero_le, true_and] at filled
  rw [quantizeInt8Asym, if_neg (by simp [entries, positive]), filled]

omit [LinearOrder K] [FloorRing K] in
theorem dequantizeInt8Asym_apply {n : Nat} (entries : n ≠ 0) (src : Nat → Int) (scale : K)
    (zp : Int) (dst : Nat → K) :
    dequantizeInt8Asym src n scale zp dst =
      some fun idx => if idx < n then fromInt8 scale zp (src idx) else dst idx := by
  have filled := foldl_fill (fun idx => fromInt8 scale zp (src idx)) 0 n dst
  simp only [Nat.zero_add, Nat.zero_le, true_and] at filled
  rw [dequantizeInt8Asym, if_neg entries, filled]

/-- The codes after some round trips through the values. -/
def roundTrips (n : Nat) (scale : K) (zp : Int) (floats : Nat → K) :
    Nat → (Nat → Int) → Option (Nat → Int)
  | 0, codes => some codes
  | trips + 1, codes =>
      (dequantizeInt8Asym codes n scale zp floats).bind fun values =>
        (quantizeInt8Asym values n scale zp codes).bind (roundTrips n scale zp floats trips)

variable [IsStrictOrderedRing K] {x scale : K} {zp : Int}

omit [FloorRing K] in
/-- The error of a value, in steps. -/
theorem fromInt8_sub (positive : 0 < scale) (code : Int) :
    |fromInt8 scale zp code - x| = |(code : K) - (x / scale + zp)| * scale := by
  have apart : fromInt8 scale zp code - x = ((code : K) - (x / scale + zp)) * scale := by
    rw [fromInt8]
    field_simp
    ring
  rw [apart, abs_mul, abs_of_pos positive]

omit [FloorRing K] in
theorem scaled_le_iff (positive : 0 < scale) (bound : K) :
    x / scale + zp ≤ bound ↔ x ≤ (bound - zp) * scale := by
  rw [← le_sub_iff_add_le, div_le_iff₀ positive]

theorem roundTrip_entry (positive : 0 < scale) (low : -1 < x / scale + zp) :
    0 ≤ toInt8 (x / scale + zp) ∧ toInt8 (x / scale + zp) ≤ 127 ∧
      (x ≤ (127 - zp) * scale →
        |fromInt8 scale zp (toInt8 (x / scale + zp)) - x| < scale ∧
          (-(zp + 1 / 2) * scale ≤ x →
            |fromInt8 scale zp (toInt8 (x / scale + zp)) - x| ≤ scale / 2)) ∧
      ((127 - zp) * scale < x →
        fromInt8 scale zp (toInt8 (x / scale + zp)) = (127 - zp) * scale) := by
  have beyond : (127 - zp) * scale < x ↔ ¬ x / scale + zp ≤ 127 := by
    rw [scaled_le_iff positive, not_le]
  have half : -(zp + 1 / 2) * scale ≤ x ↔ -(1 / 2) ≤ x / scale + zp := by
    rw [← sub_le_iff_le_add, le_div_iff₀ positive, neg_add, neg_sub_comm]
    ring_nf
  rw [beyond, half, ← scaled_le_iff positive, fromInt8_sub positive]
  generalize x / scale + zp = v at low ⊢
  by_cases large : v ≤ 127
  · by_cases near : -(1 / 2) ≤ v
    · obtain ⟨nonneg, bounded, error⟩ := toInt8_of_ge near large
      refine ⟨nonneg, bounded, fun _ => ⟨?_, fun _ => ?_⟩, fun notLarge => absurd large notLarge⟩
      · calc
          |(toInt8 v : K) - v| * scale ≤ 1 / 2 * scale :=
            mul_le_mul_of_nonneg_right error positive.le
          _ < scale := by linarith
      · calc
          |(toInt8 v : K) - v| * scale ≤ 1 / 2 * scale :=
            mul_le_mul_of_nonneg_right error positive.le
          _ = scale / 2 := by ring
    · have isZero := toInt8_of_gt low (not_le.mp near)
      have error : |((0 : Int) : K) - v| < 1 := by
        rw [Int.cast_zero, zero_sub, abs_neg, abs_lt]
        exact ⟨low, by linarith⟩
      rw [isZero]
      refine ⟨le_rfl, by decide, fun _ => ⟨?_, fun isNear => absurd isNear near⟩,
        fun notLarge => absurd large notLarge⟩
      calc
        |((0 : Int) : K) - v| * scale < 1 * scale := mul_lt_mul_of_pos_right error positive
        _ = scale := one_mul scale
  · rw [toInt8_of_large (not_le.mp large)]
    refine ⟨by decide, le_rfl, fun small => absurd small large, fun _ => ?_⟩
    rw [fromInt8]
    norm_cast

end RoundTrips

/-- Every channel that is calibrated on its own data, which lie on both sides of zero, is
quantised as by itself, and only to the codes from 0 on: a value up to the one of the code 127
comes back within a step, one that is not more than half a step under the code 0 within half a
step, and every larger value comes back as that of the code 127.  What is behind the channels is
left alone. -/
theorem perChannel_roundTrip {K : Type*} [Field K] [LinearOrder K] [FloorRing K]
    [IsStrictOrderedRing K] (src : Nat → K) {n channels : Nat} (entries : n ≠ 0)
    (channelled : channels ≠ 0) (scales : Nat → K) (zps : Nat → Int) (codes : Nat → Int)
    (values : Nat → K)
    (calibrated : ∀ ch < channels, quantCalcScaleZp (fun i => src (ch * (n / channels) + i))
      (n / channels) = (scales ch, zps ch))
    (bothSides : ∀ ch < channels, (∃ i < n / channels, src (ch * (n / channels) + i) ≤ 0) ∧
      ∃ i < n / channels, 0 ≤ src (ch * (n / channels) + i)) :
    ∃ quantized dequantized,
      perChannelQuantize src n channels scales zps codes = some quantized ∧
      perChannelDequantize quantized n channels scales zps values = some dequantized ∧
      (∀ ch < channels, ∀ i < n / channels,
        (quantizeInt8Asym (fun i => src (ch * (n / channels) + i)) (n / channels) (scales ch)
          (zps ch) codes).map (fun plain => plain i) = some (quantized (ch * (n / channels) + i)) ∧
        0 ≤ quantized (ch * (n / channels) + i) ∧ quantized (ch * (n / channels) + i) ≤ 127 ∧
        (src (ch * (n / channels) + i) ≤ (127 - zps ch) * scales ch →
          |dequantized (ch * (n / channels) + i) - src (ch * (n / channels) + i)| < scales ch ∧
          (-(zps ch + 1 / 2) * scales ch ≤ src (ch * (n / channels) + i) →
            |dequantized (ch * (n / channels) + i) - src (ch * (n / channels) + i)| ≤
              scales ch / 2)) ∧
        ((127 - zps ch) * scales ch < src (ch * (n / channels) + i) →
          dequantized (ch * (n / channels) + i) = (127 - zps ch) * scales ch)) ∧
      ∀ idx, channels * (n / channels) ≤ idx →
        quantized idx = codes idx ∧ dequantized idx = values idx := by
  refine ⟨_, _, perChannel_apply entries channelled _ codes,
    perChannel_apply entries channelled _ values, ?_, ?_⟩
  · intro ch isChannel i inside
    obtain ⟨⟨low, isLow, nonpos⟩, high, isHigh, nonneg⟩ := bothSides ch isChannel
    have scaled := @quantCalcScaleZp_spec K _ _ _ _ (fun i => src (ch * (n / channels) + i)) _ low
      high isLow isHigh nonpos nonneg
    rw [calibrated ch isChannel] at scaled
    obtain ⟨filled, itsChannel⟩ := place_lt isChannel inside
    have notEmpty : n / channels ≠ 0 := by omega
    dsimp only
    rw [if_pos filled, itsChannel, if_pos filled, quantizeInt8Asym_apply notEmpty scaled.1,
      Option.map_some]
    exact ⟨congrArg some (if_pos inside), roundTrip_entry scaled.1 (scaled.2 i inside)⟩
  · intro idx behind
    exact ⟨if_neg behind.not_gt, if_neg behind.not_gt⟩

/-- Of two values around zero, the positive one comes back as zero. -/
theorem perChannel_roundTrip_pair :
    ∃ quantized dequantized, perChannelQuantize (fun i => if i = 0 then (-1 : ℚ) else 1) 2 1
        (fun _ => 2 / 255) (fun _ => 127) (fun _ => 0) = some quantized ∧
      perChannelDequantize quantized 2 1 (fun _ => 2 / 255) (fun _ => 127)
        (fun _ => 0) = some dequantized ∧ dequantized 1 = (0 : ℚ) := by
  obtain ⟨quantized, dequantized, isQuantized, isDequantized, places, -⟩ :=
    perChannel_roundTrip (fun i => if i = 0 then (-1 : ℚ) else 1) (by decide : 2 ≠ 0)
      (by decide : 1 ≠ 0) (fun _ => 2 / 255) (fun _ => 127) (fun _ => 0) (fun _ => 0)
      (by decide +kernel) (by decide +kernel)
  have clipped := (places 0 (by decide) 1 (by decide)).2.2.2.2 (by decide +kernel)
  exact ⟨quantized, dequantized, isQuantized, isDequantized, clipped.trans (by norm_num)⟩

end Quantization

end Ai

end MiniIotRobotEdge

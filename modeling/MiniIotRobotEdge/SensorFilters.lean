import Mathlib.Algebra.Order.Field.Basic
import Mathlib.Algebra.Order.Ring.Rat
import Mathlib.Algebra.BigOperators.Group.List.Basic
import Mathlib.Data.List.Induction
import Mathlib.Data.List.Sort
import Mathlib.Logic.Function.Basic
import Mathlib.Tactic.Linarith
import Mathlib.Tactic.LinearCombination
import Mathlib.Tactic.NormNum
import Mathlib.Tactic.Positivity
import MiniIotRobotEdge.CircularBuffer

/-!
# Filters of sensor values

The model of the moving average, the median filter and the Kalman filter in
`sensor_polling.c` of mini-hardware-interface, over exact numbers.  The buffers
are arrays that are not null and do not overlap.  The average is that of the
newest values.  The median is taken of the whole window, so that while the
window fills the zeros of the reset take part.
-/

namespace MiniIotRobotEdge

namespace Sensor

open CircularBuffer SlidingWindows

section Functions

variable {K : Type*} [Field K]

structure MhiMovingAverage (K : Type*) where
  buffer : Nat → K
  size : Nat
  index : Nat
  count : Nat
  sum : K

/-- `memset(values, 0, sizeof(float) * count)`. -/
def clearFloats (values : Nat → K) (count : Nat) : Nat → K :=
  fun position => if position < count then 0 else values position

def mhiMaInit (ma : MhiMovingAverage K) (buffer : Nat → K) (size : Nat) : MhiMovingAverage K :=
  if size = 0 then ma
  else { buffer := clearFloats buffer size, size := size, index := 0, count := 0, sum := 0 }

def mhiMaUpdate (ma : MhiMovingAverage K) (value : K) : MhiMovingAverage K × K :=
  if ma.size = 0 then (ma, value)
  else
    let count := if ma.count < ma.size then ma.count + 1 else ma.count
    let rest := if ma.count < ma.size then ma.sum else ma.sum - ma.buffer ma.index
    ({ ma with
        buffer := Function.update ma.buffer ma.index value
        index := (ma.index + 1) % ma.size
        count := count
        sum := rest + value }, (rest + value) / count)

def mhiMaReset (ma : MhiMovingAverage K) : MhiMovingAverage K :=
  { ma with index := 0, count := 0, sum := 0, buffer := clearFloats ma.buffer ma.size }

structure MhiMedianFilter (K : Type*) where
  buffer : Nat → K
  sorted : Nat → K
  window : Nat
  index : Nat
  count : Nat

def mhiMedianInit (mf : MhiMedianFilter K) (buffer sorted : Nat → K) (window : Nat) :
    MhiMedianFilter K :=
  if window = 0 then mf
  else
    { buffer := clearFloats buffer window, sorted := clearFloats sorted window, window := window
      index := 0, count := 0 }

/-- `qsort` of the first `count` values, copied behind `memcpy`. -/
def sortedCopy [LinearOrder K] (values sorted : Nat → K) (count : Nat) : Nat → K :=
  fun position =>
    ((((List.range count).map values).mergeSort fun a b => a ≤ b)[position]?).getD (sorted position)

def mhiMedianUpdate [LinearOrder K] (mf : MhiMedianFilter K) (value : K) : MhiMedianFilter K × K :=
  if mf.window = 0 then (mf, value)
  else
    let buffer := Function.update mf.buffer mf.index value
    let count := if mf.count < mf.window then mf.count + 1 else mf.count
    let sorted := sortedCopy buffer mf.sorted mf.window
    ({ mf with
        buffer := buffer
        sorted := sorted
        index := (mf.index + 1) % mf.window
        count := count },
      if count % 2 = 1 then sorted (count / 2)
      else (sorted (count / 2 - 1) + sorted (count / 2)) * (1 / (2 : ℕ)))

def mhiMedianReset (mf : MhiMedianFilter K) : MhiMedianFilter K :=
  { mf with
    index := 0
    count := 0
    buffer := clearFloats mf.buffer mf.window
    sorted := clearFloats mf.sorted mf.window }

structure MhiKalman1d (K : Type*) where
  x : K
  p : K
  q : K
  r : K
  k : K

def mhiKalman1dInit (initValue processNoise measurementNoise : K) : MhiKalman1d K where
  x := initValue
  p := 1
  q := processNoise
  r := measurementNoise
  k := 0

def mhiKalman1dUpdate (kf : MhiKalman1d K) (measurement : K) : MhiKalman1d K :=
  let p := kf.p + kf.q
  let k := p / (p + kf.r)
  { kf with k := k, x := kf.x + k * (measurement - kf.x), p := (1 - k) * p }

/-- The calls of a filter. -/
inductive FilterCall (K : Type*)
  | update (value : K)
  | reset

def maCall (ma : MhiMovingAverage K) : FilterCall K → MhiMovingAverage K
  | .update value => (mhiMaUpdate ma value).1
  | .reset => mhiMaReset ma

def medianCall [LinearOrder K] (mf : MhiMedianFilter K) : FilterCall K → MhiMedianFilter K
  | .update value => (mhiMedianUpdate mf value).1
  | .reset => mhiMedianReset mf

/-- The values since the last reset. -/
def sinceReset (log : List K) : FilterCall K → List K
  | .update value => log ++ [value]
  | .reset => []

/-- The newest values when another one comes after the calls. -/
def shownValues (size : Nat) (calls : List (FilterCall K)) (value : K) : List K :=
  newest size (calls.foldl sinceReset [] ++ [value])

/-- The zeros of a window that is not full. -/
def unseenValues (size : Nat) (calls : List (FilterCall K)) (value : K) : List K :=
  List.replicate (size - (calls.foldl sinceReset [] ++ [value]).length) 0

/-- The filter after these measurements. -/
def kalmanAfter (q r initial : K) (measurements : List K) : MhiKalman1d K :=
  measurements.foldl mhiKalman1dUpdate (mhiKalman1dInit initial q r)

end Functions

section Windows

variable {K : Type*} [Field K]

/-- What a circular buffer with its index and count shows after the values of a log. -/
structure Shows (buffer : Nat → K) (capacity index count : Nat) (log : List K) : Prop where
  positive : 0 < capacity
  index : index = log.length % capacity
  count : count = min log.length capacity
  retains : Retains buffer capacity log
  fresh : ∀ position < capacity, log.length ≤ position → buffer position = 0

variable {buffer : Nat → K} {capacity index count : Nat} {log : List K}

theorem shows_cleared (buffer : Nat → K) (positive : 0 < capacity) :
    Shows (clearFloats buffer capacity) capacity 0 0 [] where
  positive := positive
  index := (Nat.zero_mod capacity).symm
  count := (Nat.zero_min capacity).symm
  retains := Retains.nil
  fresh := fun _ inside _ => if_pos inside

theorem Shows.update (shown : Shows buffer capacity index count log) (value : K) :
    Shows (Function.update buffer index value) capacity ((index + 1) % capacity)
      (if count < capacity then count + 1 else count) (log ++ [value]) := by
  have positive := shown.positive
  constructor
  case positive => exact positive
  case index => rw [shown.index, List.length_append, List.length_singleton, Nat.mod_add_mod]
  case count =>
    rw [shown.count, List.length_append, List.length_singleton]
    split_ifs <;> omega
  case retains =>
    rw [shown.index]
    refine shown.retains.push positive (Function.update_self _ _ _) ?_
    intro position _ other
    exact Function.update_of_ne other _ _
  case fresh =>
    intro position inside unwritten
    rw [List.length_append, List.length_singleton] at unwritten
    have other : position ≠ index := by
      rw [shown.index, Nat.mod_eq_of_lt (by omega)]
      omega
    rw [Function.update_of_ne other]
    exact shown.fresh position inside (by omega)

end Windows

section Average

variable {K : Type*} [Field K] {ma : MhiMovingAverage K} {log : List K}

/-- The average holds the sum of the newest values. -/
structure Averages (ma : MhiMovingAverage K) (log : List K) : Prop where
  shown : Shows ma.buffer ma.size ma.index ma.count log
  sum : ma.sum = (newest ma.size log).sum

/-- What is left of the sum when the oldest value leaves. -/
theorem Averages.sum_update (averages : Averages ma log) (value : K) :
    (if ma.count < ma.size then ma.sum else ma.sum - ma.buffer ma.index) + value =
      (newest ma.size (log ++ [value])).sum := by
  have count := averages.shown.count
  by_cases space : log.length < ma.size
  · rw [if_pos (by omega), newest_concat_of_lt space, List.sum_append, List.sum_singleton,
      averages.sum]
  · obtain ⟨oldest, rest, isOldest, now, later⟩ :=
      exists_newest_concat_of_le averages.shown.positive (not_lt.mp space) value
    have slot := averages.shown.retains _ oldest (by omega) isOldest
    rw [← Nat.add_mod_right, Nat.sub_add_cancel (not_lt.mp space), ← averages.shown.index] at slot
    rw [if_neg (by omega), averages.sum, now, later, slot, List.sum_cons, List.sum_append,
      List.sum_singleton, add_sub_cancel_left]

theorem Averages.update (averages : Averages ma log) (value : K) :
    Averages (mhiMaUpdate ma value).1 (log ++ [value]) := by
  rw [mhiMaUpdate, if_neg averages.shown.positive.ne']
  exact ⟨averages.shown.update value, averages.sum_update value⟩

theorem averages_cleared (buffer : Nat → K) {size : Nat} (positive : 0 < size) :
    Averages ⟨clearFloats buffer size, size, 0, 0, 0⟩ [] where
  shown := shows_cleared buffer positive
  sum := by rw [newest_nil, List.sum_nil]

theorem averages_calls (ma : MhiMovingAverage K) (buffer : Nat → K) {size : Nat}
    (positive : 0 < size) (calls : List (FilterCall K)) :
    Averages (calls.foldl maCall (mhiMaInit ma buffer size)) (calls.foldl sinceReset []) ∧
      (calls.foldl maCall (mhiMaInit ma buffer size)).size = size := by
  induction calls using List.reverseRecOn with
  | nil =>
      rw [mhiMaInit, if_neg positive.ne']
      exact ⟨averages_cleared buffer positive, rfl⟩
  | append_singleton calls call ih =>
      rw [List.foldl_append, List.foldl_append]
      cases call with
      | update value =>
          refine ⟨ih.1.update value, ?_⟩
          simp only [List.foldl_cons, List.foldl_nil, maCall, mhiMaUpdate]
          split_ifs <;> exact ih.2
      | reset => exact ⟨averages_cleared _ ih.1.shown.positive, ih.2⟩

end Average

section Median

variable {K : Type*} [Field K] [LinearOrder K] {mf : MhiMedianFilter K} {log : List K}

/-- Any sorted list of the newest values and the zeros behind them is the sorted copy. -/
theorem Shows.sortedCopy_eq {buffer : Nat → K} {window index count : Nat}
    (shown : Shows buffer window index count log) {ranked : List K} (isSorted : ranked.Pairwise (· ≤ ·))
    (same : ranked.Perm (newest window log ++ List.replicate (window - log.length) 0))
    (sorted : Nat → K) {position : Nat} (inside : position < window) :
    ranked[position]? = some (sortedCopy buffer sorted window position) := by
  have equal : ((List.range window).map buffer).mergeSort (fun a b => a ≤ b) = ranked := by
    refine List.Perm.eq_of_pairwise' (List.pairwise_mergeSort' (· ≤ ·) _) isSorted ?_
    exact (List.mergeSort_perm _ _).trans ((slots_perm shown.retains shown.fresh).trans same.symm)
  have length : ranked.length = window := by
    rw [← equal, List.length_mergeSort, List.length_map, List.length_range]
  rw [sortedCopy, equal, List.getElem?_eq_getElem (by omega), Option.getD_some]

theorem shows_medianCalls (mf : MhiMedianFilter K) (buffer sorted : Nat → K) {window : Nat}
    (positive : 0 < window) (calls : List (FilterCall K)) :
    let after := calls.foldl medianCall (mhiMedianInit mf buffer sorted window)
    Shows after.buffer after.window after.index after.count (calls.foldl sinceReset []) ∧
      after.window = window := by
  induction calls using List.reverseRecOn with
  | nil =>
      rw [mhiMedianInit, if_neg positive.ne']
      exact ⟨shows_cleared buffer positive, rfl⟩
  | append_singleton calls call ih =>
      rw [List.foldl_append, List.foldl_append]
      cases call with
      | update value =>
          have updated := ih.1.update value
          simp only [List.foldl_cons, List.foldl_nil, medianCall, mhiMedianUpdate, sinceReset]
          rw [if_neg ih.1.positive.ne']
          exact ⟨updated, ih.2⟩
      | reset => exact ⟨shows_cleared _ ih.1.positive, ih.2⟩

end Median

section Kalman

variable {K : Type*} [Field K] [LinearOrder K] [IsStrictOrderedRing K]

/-- What holds of the filter after any measurements. -/
structure Tracking (kf : MhiKalman1d K) (q r initial : K) (measurements : List K) : Prop where
  processNoise : kf.q = q
  measurementNoise : kf.r = r
  positive : 0 < kf.p
  certain : measurements ≠ [] → kf.p < r ∧ 0 < kf.k ∧ kf.k < 1
  low : ∀ bound, bound ≤ initial → (∀ value ∈ measurements, bound ≤ value) → bound ≤ kf.x
  high : ∀ bound, initial ≤ bound → (∀ value ∈ measurements, value ≤ bound) → kf.x ≤ bound
  still : q = 0 → (r + measurements.length) * kf.p = r ∧
    (r + measurements.length) * kf.x = r * initial + measurements.sum

variable {kf : MhiKalman1d K} {q r initial : K} {measurements : List K}

/-- Between two values of which one counts more. -/
theorem le_blend {bound first second gain : K} (below : bound ≤ first) (below' : bound ≤ second)
    (atLeast : 0 ≤ gain) (atMost : gain ≤ 1) : bound ≤ first + gain * (second - first) := by
  have fromFirst := mul_le_mul_of_nonneg_left below (sub_nonneg.mpr atMost)
  have fromSecond := mul_le_mul_of_nonneg_left below' atLeast
  linarith

theorem Tracking.update (tracking : Tracking kf q r initial measurements) (process : 0 ≤ q)
    (noise : 0 < r) (measurement : K) :
    Tracking (mhiKalman1dUpdate kf measurement) q r initial (measurements ++ [measurement]) := by
  have predicted : 0 < kf.p + q := add_pos_of_pos_of_nonneg tracking.positive process
  have total : 0 < kf.p + q + r := add_pos predicted noise
  obtain ⟨gain, isGain⟩ : ∃ gain, gain = (kf.p + q) / (kf.p + q + r) := ⟨_, rfl⟩
  have next : mhiKalman1dUpdate kf measurement =
      ⟨kf.x + gain * (measurement - kf.x), (1 - gain) * (kf.p + q), q, r, gain⟩ := by
    rw [mhiKalman1dUpdate, tracking.processNoise, tracking.measurementNoise, isGain]
  have weight : gain * (kf.p + q + r) = kf.p + q := by rw [isGain, div_mul_cancel₀ _ total.ne']
  have gainPos : 0 < gain := isGain ▸ div_pos predicted total
  have gainLt : gain < 1 := by
    rw [isGain, div_lt_one total]
    exact lt_add_of_pos_right _ noise
  have certain : (1 - gain) * (kf.p + q) = gain * r := by linear_combination -weight
  rw [next]
  constructor
  case processNoise => rfl
  case measurementNoise => rfl
  case positive => exact mul_pos (sub_pos.mpr gainLt) predicted
  case certain =>
    refine fun _ => ⟨?_, gainPos, gainLt⟩
    rw [certain]
    exact mul_lt_of_lt_one_left noise gainLt
  case low =>
    intro bound below listed
    refine le_blend (tracking.low bound below fun value old => ?_) ?_ gainPos.le gainLt.le
    · exact listed value (List.mem_append_left _ old)
    · exact listed measurement (List.mem_append_right _ (List.mem_singleton_self _))
  case high =>
    intro bound above listed
    have before := tracking.high bound above fun value old => listed value (List.mem_append_left _ old)
    have now := listed measurement (List.mem_append_right _ (List.mem_singleton_self _))
    have blend := le_blend (neg_le_neg before) (neg_le_neg now) gainPos.le gainLt.le
    dsimp only
    linarith
  case still =>
    intro fixed
    obtain ⟨variance, mean⟩ := tracking.still fixed
    have share : gain * (r + measurements.length + 1) = 1 := by
      have scaled : r * (gain * (r + measurements.length + 1)) = r * 1 := by
        linear_combination (r + measurements.length) * weight +
          (1 - gain) * (variance + (r + measurements.length) * fixed)
      exact mul_left_cancel₀ noise.ne' scaled
    rw [List.length_append, List.length_singleton, Nat.cast_add, Nat.cast_one, List.sum_append,
      List.sum_singleton]
    constructor
    · linear_combination variance + (r + measurements.length) * fixed - (kf.p + q) * share
    · linear_combination mean + (measurement - kf.x) * share

theorem tracking_updates (process : 0 ≤ q) (noise : 0 < r) (initial : K) (measurements : List K) :
    Tracking (kalmanAfter q r initial measurements) q r initial measurements := by
  induction measurements using List.reverseRecOn with
  | nil =>
      refine ⟨rfl, rfl, one_pos, fun some => absurd rfl some, fun _ below _ => below,
        fun _ above _ => above, fun _ => ?_⟩
      simp [kalmanAfter, mhiKalman1dInit]
  | append_singleton measurements measurement ih =>
      rw [kalmanAfter, List.foldl_append]
      exact ih.update process noise measurement

end Kalman

/-- The estimate stays between the initial value and the measurements, more certain
than one measurement.  Of a value that does not change it is the mean of the
measurements and of the initial value with the weight of the noise. -/
theorem mhiKalman1d_measurements {K : Type*} [Field K] [LinearOrder K] [IsStrictOrderedRing K]
    {q r : K} (process : 0 ≤ q) (noise : 0 < r) (initial : K) {measurements : List K}
    (some : measurements ≠ []) :
    (0 < (kalmanAfter q r initial measurements).p ∧
        (kalmanAfter q r initial measurements).p < r) ∧
      (0 < (kalmanAfter q r initial measurements).k ∧
        (kalmanAfter q r initial measurements).k < 1) ∧
      (∀ low high, (∀ value ∈ initial :: measurements, low ≤ value ∧ value ≤ high) →
        low ≤ (kalmanAfter q r initial measurements).x ∧
          (kalmanAfter q r initial measurements).x ≤ high) ∧
      (q = 0 → (kalmanAfter q r initial measurements).p = r / (r + measurements.length) ∧
        (kalmanAfter q r initial measurements).x =
          (r * initial + measurements.sum) / (r + measurements.length)) := by
  have tracking := tracking_updates process noise initial measurements
  obtain ⟨below, gain⟩ := tracking.certain some
  refine ⟨⟨tracking.positive, below⟩, gain, fun low high within => ⟨?_, ?_⟩, fun fixed => ?_⟩
  · exact tracking.low low (within initial List.mem_cons_self).1 fun value listed =>
      (within value (List.mem_cons_of_mem initial listed)).1
  · exact tracking.high high (within initial List.mem_cons_self).2 fun value listed =>
      (within value (List.mem_cons_of_mem initial listed)).2
  · have total : r + measurements.length ≠ 0 :=
      (add_pos_of_pos_of_nonneg noise (Nat.cast_nonneg _)).ne'
    obtain ⟨variance, mean⟩ := tracking.still fixed
    exact ⟨(eq_div_iff total).mpr (by rw [mul_comm, variance]),
      (eq_div_iff total).mpr (by rw [mul_comm, mean])⟩

theorem mhiKalman1d_measurements_two :
    (kalmanAfter 0 1 0 [3, 6]).x = (3 : ℚ) := by
  have sample := mhiKalman1d_measurements (le_refl (0 : ℚ)) one_pos 0 (List.cons_ne_nil 3 [6])
  rw [(sample.2.2.2 rfl).2]
  norm_num

end Sensor

end MiniIotRobotEdge

import Mathlib.Algebra.BigOperators.Group.List.Basic
import Mathlib.Algebra.Field.Rat
import Mathlib.Algebra.Order.Field.Basic
import Mathlib.Algebra.Order.Ring.Rat
import Mathlib.Data.List.Induction
import Mathlib.Order.Bounds.Basic
import Mathlib.Tactic.FieldSimp
import Mathlib.Tactic.LinearCombination

/-!
# Running statistics

The model of the `online_stats` functions in `edge_inference.c`, over the
exact numbers of an ordered field, for as many values as an `int` counts.  One
pass over the values leaves the mean and the squared deviations from that mean,
which two passes would add up.
-/

namespace MiniIotRobotEdge

namespace Ai

section Functions

variable (K : Type*) [Field K] [LinearOrder K]

structure OnlineStats where
  count : Nat
  mean : K
  m2 : K
  minVal : K
  maxVal : K

variable {K}

def onlineStatsInit : OnlineStats K where
  count := 0
  mean := 0
  m2 := 0
  minVal := (10 : ℕ) ^ 30
  maxVal := -(10 : ℕ) ^ 30

def onlineStatsPush (s : OnlineStats K) (value : K) : OnlineStats K :=
  let count := s.count + 1
  let delta := value - s.mean
  let mean := s.mean + delta / count
  let delta2 := value - mean
  { count := count
    mean := mean
    m2 := s.m2 + delta * delta2
    minVal := if value < s.minVal then value else s.minVal
    maxVal := if s.maxVal < value then value else s.maxVal }

/-- The statistics after these values. -/
def onlineStatsOf (values : List K) : OnlineStats K := values.foldl onlineStatsPush onlineStatsInit

def onlineStatsVariance (s : OnlineStats K) : K :=
  if s.count < 2 then 0 else s.m2 / (s.count - 1 : Nat)

end Functions

section Deviations

variable {K : Type*} [Field K]

/-- The squared distances from a centre, added up. -/
def squaredDeviations (centre : K) (values : List K) : K :=
  (values.map fun value => (value - centre) ^ 2).sum

@[simp]
theorem squaredDeviations_nil (centre : K) : squaredDeviations centre [] = 0 := rfl

@[simp]
theorem squaredDeviations_concat (centre : K) (values : List K) (value : K) :
    squaredDeviations centre (values ++ [value]) =
      squaredDeviations centre values + (value - centre) ^ 2 := by
  simp [squaredDeviations]

/-- The deviations from two centres differ by what the sum of the values tells. -/
theorem squaredDeviations_sub (first second : K) (values : List K) :
    squaredDeviations second values - squaredDeviations first values =
      values.length * (second ^ 2 - first ^ 2) - 2 * (second - first) * values.sum := by
  induction values using List.reverseRecOn with
  | nil => simp
  | append_singleton values value ih =>
      rw [squaredDeviations_concat, squaredDeviations_concat, List.sum_append, List.sum_singleton,
        List.length_append, List.length_singleton, Nat.cast_add, Nat.cast_one]
      linear_combination ih

/-- A new value moves the mean and adds the product of its distances from the old and
the new one. -/
theorem squaredDeviations_push {values : List K} {mean moved value : K}
    (isMean : values.length * mean = values.sum)
    (isMoved : (values.length + 1) * (moved - mean) = value - mean) :
    squaredDeviations moved (values ++ [value]) =
      squaredDeviations mean values + (value - mean) * (value - moved) := by
  have shifted := squaredDeviations_sub mean moved values
  rw [squaredDeviations_concat]
  linear_combination shifted + 2 * (moved - mean) * isMean + (moved - mean) * isMoved

end Deviations

section Pushes

variable {K : Type*} [Field K] [LinearOrder K]

/-- The statistics are those of the values pushed so far. -/
structure Summarizes (s : OnlineStats K) (values : List K) : Prop where
  count : s.count = values.length
  mean : values.length * s.mean = values.sum
  m2 : s.m2 = squaredDeviations s.mean values
  minVal : IsLeast {value | value = 10 ^ 30 ∨ value ∈ values} s.minVal
  maxVal : IsGreatest {value | value = -10 ^ 30 ∨ value ∈ values} s.maxVal

theorem summarizes_init : Summarizes (onlineStatsInit : OnlineStats K) [] where
  count := rfl
  mean := by simp
  m2 := by simp [onlineStatsInit]
  minVal := ⟨Or.inl rfl, fun value listed => (listed.resolve_right (by simp)).ge⟩
  maxVal := ⟨Or.inl rfl, fun value listed => (listed.resolve_right (by simp)).le⟩

variable [IsStrictOrderedRing K]

theorem Summarizes.push {s : OnlineStats K} {values : List K} (summarizes : Summarizes s values)
    (value : K) : Summarizes (onlineStatsPush s value) (values ++ [value]) := by
  have positive : (values.length + 1 : K) ≠ 0 := Nat.cast_add_one_ne_zero values.length
  have moved : (values.length + 1) * ((onlineStatsPush s value).mean - s.mean) =
      value - s.mean := by
    simp only [onlineStatsPush, summarizes.count, Nat.cast_add, Nat.cast_one, add_sub_cancel_left]
    field_simp
  constructor
  case count => simp [onlineStatsPush, summarizes.count]
  case mean =>
    rw [List.length_append, List.length_singleton, List.sum_append, List.sum_singleton,
      Nat.cast_add, Nat.cast_one]
    linear_combination moved + summarizes.mean
  case m2 =>
    rw [squaredDeviations_push summarizes.mean moved, ← summarizes.m2]
    rfl
  case minVal =>
    obtain ⟨listed, least⟩ := summarizes.minVal
    simp only [onlineStatsPush]
    split_ifs with below
    · refine ⟨Or.inr (by simp), fun other isOther => ?_⟩
      rcases isOther with top | isOther
      · exact below.le.trans (least (Or.inl top))
      · rcases List.mem_append.mp isOther with old | new
        · exact below.le.trans (least (Or.inr old))
        · exact (List.mem_singleton.mp new).ge
    · refine ⟨listed.imp_right fun old => List.mem_append_left _ old, fun other isOther => ?_⟩
      rcases isOther with top | isOther
      · exact least (Or.inl top)
      · rcases List.mem_append.mp isOther with old | new
        · exact least (Or.inr old)
        · exact (not_lt.mp below).trans (List.mem_singleton.mp new).ge
  case maxVal =>
    obtain ⟨listed, greatest⟩ := summarizes.maxVal
    simp only [onlineStatsPush]
    split_ifs with above
    · refine ⟨Or.inr (by simp), fun other isOther => ?_⟩
      rcases isOther with bottom | isOther
      · exact (greatest (Or.inl bottom)).trans above.le
      · rcases List.mem_append.mp isOther with old | new
        · exact (greatest (Or.inr old)).trans above.le
        · exact (List.mem_singleton.mp new).le
    · refine ⟨listed.imp_right fun old => List.mem_append_left _ old, fun other isOther => ?_⟩
      rcases isOther with bottom | isOther
      · exact greatest (Or.inl bottom)
      · rcases List.mem_append.mp isOther with old | new
        · exact greatest (Or.inr old)
        · exact (List.mem_singleton.mp new).le.trans (not_lt.mp above)

theorem summarizes_pushes (values : List K) :
    Summarizes (onlineStatsOf values) values := by
  induction values using List.reverseRecOn with
  | nil => exact summarizes_init
  | append_singleton values value ih =>
      rw [onlineStatsOf, List.foldl_append]
      exact ih.push value

end Pushes

/-- After any values, the mean and the variance are those of two passes over them. -/
theorem onlineStats_pushes {K : Type*} [Field K] [LinearOrder K] [IsStrictOrderedRing K]
    (values : List K) :
    (onlineStatsOf values).count = values.length ∧
      (onlineStatsOf values).mean = values.sum / values.length ∧
      (onlineStatsOf values).m2 = squaredDeviations (values.sum / values.length) values ∧
      onlineStatsVariance (onlineStatsOf values) = (if values.length < 2 then 0 else
        squaredDeviations (values.sum / values.length) values / (values.length - 1 : Nat)) ∧
      IsLeast {value | value = 10 ^ 30 ∨ value ∈ values} (onlineStatsOf values).minVal ∧
      IsGreatest {value | value = -10 ^ 30 ∨ value ∈ values} (onlineStatsOf values).maxVal := by
  have summarizes := summarizes_pushes values
  have mean : (onlineStatsOf values).mean = values.sum / values.length := by
    by_cases empty : values = []
    · simp [onlineStatsOf, empty, onlineStatsInit]
    · rw [← summarizes.mean, mul_div_cancel_left₀]
      exact Nat.cast_ne_zero.mpr (List.length_pos_iff.mpr empty).ne'
  refine ⟨summarizes.count, mean, mean ▸ summarizes.m2, ?_, summarizes.minVal, summarizes.maxVal⟩
  rw [onlineStatsVariance, summarizes.count, summarizes.m2, mean]

/-- Three values with the mean 4. -/
theorem onlineStats_pushes_three :
    (onlineStatsOf [(2 : ℚ), 3, 7]).mean = 4 ∧
      onlineStatsVariance (onlineStatsOf [(2 : ℚ), 3, 7]) = 7 := by
  obtain ⟨_, mean, _, variance, _⟩ := onlineStats_pushes [(2 : ℚ), 3, 7]
  have isMean : [(2 : ℚ), 3, 7].sum / ([(2 : ℚ), 3, 7].length : ℚ) = 4 := by norm_num
  rw [isMean] at mean variance
  refine ⟨mean, variance.trans ?_⟩
  norm_num [squaredDeviations]

end Ai

end MiniIotRobotEdge

import Mathlib.Algebra.BigOperators.Field
import Mathlib.Algebra.Order.Field.Basic
import Mathlib.Algebra.Order.Ring.Rat
import Mathlib.Data.List.Induction
import MiniIotRobotEdge.InverseSampling
import MiniIotRobotEdge.LoopNests
import MiniIotRobotEdge.RoboticsGraphSlam

/-!
# Particle filters

The model of the `mr_fast_slam` functions in `slam_system.c` and of
`mr_amcl_resample` in `mobile_robot.c`.  Numbers are exact, the functions of
`math.h` are parameters, and random numbers come with the calls.  A loop over
the particles whose turns do not see each other is written as one function of
the particle.
-/

namespace MiniIotRobotEdge

namespace Robotics

namespace FastSlam

open GraphSlam

structure MrParticle (K : Type*) where
  pose : MrRobotPose K
  weight : K

structure MrLmEstimate (K : Type*) where
  x : K
  y : K

structure MrLandmarkObs (K : Type*) where
  range : K
  bearing : K
  id : Int

structure MrFastSlam (K : Type*) where
  particles : Nat → MrParticle K
  landmarks : Nat → Nat → MrLmEstimate K
  lmCounts : Nat → Nat
  numParticles : Nat

/-- The functions and the constant of `math.h`. -/
structure MathH (K : Type*) where
  sin : K → K
  cos : K → K
  exp : K → K
  sqrt : K → K
  pi : K

/-- What the update of a particle changes. -/
structure ParticleMap (K : Type*) where
  landmarks : Nat → MrLmEstimate K
  lmCount : Nat
  weight : K

variable {K : Type*} [Field K] [LinearOrder K] (math : MathH K)

/-- Arrays are what the memory held, but for the particles that are there. -/
def mrFastSlamInit (memory : MrFastSlam K) (numParticles : Nat) : MrFastSlam K where
  particles := fun i =>
    if i < numParticles then ⟨⟨0, 0, 0⟩, 1 / numParticles⟩ else memory.particles i
  landmarks := memory.landmarks
  lmCounts := fun i => if i < numParticles then 0 else memory.lmCounts i
  numParticles := numParticles

/-- The three values of `random_gaussian` for every particle come with the call. -/
def mrFastSlamPredict (fs : MrFastSlam K) (dx dy dt noiseStd : K) (gaussian : Nat → K × K × K) :
    MrFastSlam K :=
  { fs with
    particles := fun i =>
      if i < fs.numParticles then
        let ndx := dx + (gaussian i).1 * noiseStd
        let ndy := dy + (gaussian i).2.1 * noiseStd
        let ndt := dt + (gaussian i).2.2 * noiseStd * (1 / (2 : ℕ))
        let pose := (fs.particles i).pose
        let ct := math.cos pose.theta
        let st := math.sin pose.theta
        { fs.particles i with
          pose := ⟨pose.x + (ndx * ct - ndy * st), pose.y + (ndx * st + ndy * ct),
            pose.theta + ndt⟩ }
      else fs.particles i }

/-- How likely it is to be wrong by a distance. -/
def likelihood (diff : K) : K :=
  math.exp (-(1 / (2 : ℕ)) * diff * diff / ((5 : ℕ) / (100 : ℕ))) /
    math.sqrt ((2 : ℕ) * math.pi * ((5 : ℕ) / (100 : ℕ)))

/-- The landmark of an observation, which is placed if it is not there and there is room. -/
def findLandmark (pose : MrRobotPose K) (map : ParticleMap K) (obs : MrLandmarkObs K) :
    ParticleMap K × Option Nat :=
  match (List.range map.lmCount).find? fun (li : Nat) => obs.id = li with
  | some li => (map, some li)
  | none =>
      if map.lmCount < mrSlamMaxLandmarks then
        let gb := pose.theta + obs.bearing
        let placed : MrLmEstimate K :=
          ⟨pose.x + obs.range * math.cos gb, pose.y + obs.range * math.sin gb⟩
        ({ map with
          landmarks := Function.update map.landmarks map.lmCount placed
          lmCount := map.lmCount + 1 }, some map.lmCount)
      else (map, none)

/-- The weight of a particle falls with the distance that is not expected. -/
def weighLandmark (pose : MrRobotPose K) (obs : MrLandmarkObs K) :
    ParticleMap K × Option Nat → ParticleMap K
  | (map, none) => map
  | (map, some lmIdx) =>
      let dx := (map.landmarks lmIdx).x - pose.x
      let dy := (map.landmarks lmIdx).y - pose.y
      let predRange := math.sqrt (dx * dx + dy * dy)
      let diff := obs.range - predRange
      { map with weight := map.weight * (likelihood math diff + 1 / (10 : ℕ) ^ 9) }

/-- The body of the loop over the observations. -/
def observe (pose : MrRobotPose K) (map : ParticleMap K) (obs : MrLandmarkObs K) :
    ParticleMap K :=
  weighLandmark math pose obs (findLandmark math pose map obs)

/-- What the observations make of the map of a particle. -/
def observed (fs : MrFastSlam K) (observations : List (MrLandmarkObs K)) (i : Nat) :
    ParticleMap K :=
  observations.foldl (observe math (fs.particles i).pose)
    ⟨fs.landmarks i, fs.lmCounts i, 1⟩

def totalWeight (weight : Nat → K) (count : Nat) : K :=
  (List.range count).foldl (fun total (i : Nat) => total + weight i) 0

def mrFastSlamUpdate (fs : MrFastSlam K) (observations : List (MrLandmarkObs K)) :
    MrFastSlam K :=
  let maps := observed math fs observations
  let total := totalWeight (fun i => (maps i).weight) fs.numParticles
  { fs with
    particles := fun i =>
      if i < fs.numParticles then
        { fs.particles i with
          weight := if 1 / (10 : ℕ) ^ 12 < total then (maps i).weight / total else (maps i).weight }
      else fs.particles i
    landmarks := fun i => if i < fs.numParticles then (maps i).landmarks else fs.landmarks i
    lmCounts := fun i => if i < fs.numParticles then (maps i).lmCount else fs.lmCounts i }

/-- The place that a random number picks. -/
def drawn (weight : Nat → K) (count : Nat) (r : K) : Nat :=
  InverseSampling.pick (InverseSampling.cumulative weight) r (count - 1) 0

/-- The random numbers come with the call, and so does what the arrays on the stack hold where
nothing is written to them. -/
def mrFastSlamResample (fs : MrFastSlam K) (draws : Nat → K)
    (stack : Nat → Nat → MrLmEstimate K) : MrFastSlam K :=
  let source := fun i => drawn (fun i => (fs.particles i).weight) fs.numParticles (draws i)
  { fs with
    particles := fun i =>
      if i < fs.numParticles then
        { fs.particles (source i) with weight := 1 / fs.numParticles }
      else fs.particles i
    landmarks := fun i li =>
      if i < fs.numParticles ∧ li < fs.lmCounts (source i) then fs.landmarks (source i) li
      else stack i li
    lmCounts := fun i => if i < fs.numParticles then fs.lmCounts (source i) else fs.lmCounts i }

structure MrAmcl (K : Type*) where
  particles : Nat → MrParticle K
  numParticles : Nat
  poseX : K
  poseY : K
  poseTheta : K

/-- Two arguments make `atan2` a parameter of its own. -/
def mrAmclResample (atan2 : K → K → K) (amcl : MrAmcl K) (draws : Nat → K) : MrAmcl K :=
  let source := fun i => drawn (fun i => (amcl.particles i).weight) amcl.numParticles (draws i)
  let particles := fun i =>
    if i < amcl.numParticles then
      { amcl.particles (source i) with weight := 1 / amcl.numParticles }
    else amcl.particles i
  let weighted := fun (value : MrRobotPose K → K) =>
    totalWeight (fun i => value (particles i).pose * (particles i).weight) amcl.numParticles
  { amcl with
    particles := particles
    poseX := weighted MrRobotPose.x
    poseY := weighted MrRobotPose.y
    poseTheta := atan2 (weighted fun pose => math.sin pose.theta)
      (weighted fun pose => math.cos pose.theta) }

/-- The calls, with what comes from outside. -/
inductive FastSlamCall (K : Type*)
  | predict (dx dy dt noiseStd : K) (gaussian : Nat → K × K × K)
  | update (observations : List (MrLandmarkObs K))
  | resample (draws : Nat → K) (stack : Nat → Nat → MrLmEstimate K)

def fastSlamCall (fs : MrFastSlam K) : FastSlamCall K → MrFastSlam K
  | .predict dx dy dt noiseStd gaussian => mrFastSlamPredict math fs dx dy dt noiseStd gaussian
  | .update observations => mrFastSlamUpdate math fs observations
  | .resample draws stack => mrFastSlamResample fs draws stack

def fastSlamAfter (memory : MrFastSlam K) (numParticles : Nat) (calls : List (FastSlamCall K)) :
    MrFastSlam K :=
  calls.foldl (fastSlamCall math) (mrFastSlamInit memory numParticles)

/-- How many landmarks there are after an observation of this landmark. -/
def countAfter (count : Nat) (id : Int) : Nat :=
  if 0 ≤ id ∧ id < count then count else min (count + 1) mrSlamMaxLandmarks

/-- A landmark that is not known under its identifier is counted again. -/
example : countAfter (countAfter 0 7) 7 = 2 := by decide

def FastSlamCall.ids : FastSlamCall K → List Int
  | .update observations => observations.map MrLandmarkObs.id
  | _ => []

/-- How many landmarks all particles have after these calls. -/
def landmarkCount (calls : List (FastSlamCall K)) : Nat :=
  (calls.flatMap FastSlamCall.ids).foldl countAfter 0

/-! ### Observations -/

section Observations

variable {math} {pose : MrRobotPose K} {map : ParticleMap K} {obs : MrLandmarkObs K}

theorem countAfter_le {count : Nat} (bounded : count ≤ mrSlamMaxLandmarks) (id : Int) :
    countAfter count id ≤ mrSlamMaxLandmarks := by
  rw [countAfter]
  split
  · exact bounded
  · exact min_le_right _ _

theorem foldl_countAfter_le (ids : List Int) {count : Nat} (bounded : count ≤ mrSlamMaxLandmarks) :
    ids.foldl countAfter count ≤ mrSlamMaxLandmarks := by
  induction ids generalizing count with
  | nil => exact bounded
  | cons id ids ih => exact ih (countAfter_le bounded id)

omit [LinearOrder K] in
theorem findLandmark_lmCount (bounded : map.lmCount ≤ mrSlamMaxLandmarks) :
    (findLandmark math pose map obs).1.lmCount = countAfter map.lmCount obs.id := by
  rw [findLandmark, countAfter]
  split
  · rename_i li found
    have known := List.find?_some found
    have listed := List.mem_range.mp (List.mem_of_find?_eq_some found)
    rw [decide_eq_true_eq] at known
    rw [if_pos ⟨by omega, by omega⟩]
  · rename_i found
    have unknown : ¬ (0 ≤ obs.id ∧ obs.id < map.lmCount) := by
      rintro ⟨nonneg, less⟩
      have missed := List.find?_eq_none.mp found obs.id.toNat (List.mem_range.mpr (by omega))
      exact missed (by rw [decide_eq_true_eq]; omega)
    rw [if_neg unknown]
    split
    · rename_i room
      exact (min_eq_left room).symm
    · rename_i full
      dsimp only
      rw [min_eq_right (by omega)]
      omega

omit [LinearOrder K] in
@[simp]
theorem weighLandmark_lmCount (found : ParticleMap K × Option Nat) :
    (weighLandmark math pose obs found).lmCount = found.1.lmCount := by
  obtain ⟨map, lmIdx⟩ := found
  cases lmIdx with
  | none => rfl
  | some => rfl

omit [LinearOrder K] in
/-- The number of landmarks depends on the identifiers alone. -/
theorem observe_lmCount (bounded : map.lmCount ≤ mrSlamMaxLandmarks) :
    (observe math pose map obs).lmCount = countAfter map.lmCount obs.id := by
  rw [observe, weighLandmark_lmCount, findLandmark_lmCount bounded]

omit [LinearOrder K] in
theorem findLandmark_weight :
    (findLandmark math pose map obs).1.weight = map.weight := by
  rw [findLandmark]
  split
  · rfl
  · split
    · rfl
    · rfl

variable [IsStrictOrderedRing K]

theorem likelihood_nonneg (expNonneg : ∀ x, 0 ≤ math.exp x) (sqrtNonneg : ∀ x, 0 ≤ math.sqrt x)
    (diff : K) : 0 ≤ likelihood math diff :=
  div_nonneg (expNonneg _) (sqrtNonneg _)

theorem observe_weight_pos (expNonneg : ∀ x, 0 ≤ math.exp x)
    (sqrtNonneg : ∀ x, 0 ≤ math.sqrt x) (positive : 0 < map.weight) :
    0 < (observe math pose map obs).weight := by
  have same := @findLandmark_weight K _ math pose map obs
  rw [← same] at positive
  rw [observe]
  generalize findLandmark math pose map obs = found at positive
  obtain ⟨map, lmIdx⟩ := found
  cases lmIdx with
  | none => exact positive
  | some lmIdx =>
      apply mul_pos positive
      exact add_pos_of_nonneg_of_pos (likelihood_nonneg expNonneg sqrtNonneg _)
        (one_div_pos.mpr (pow_pos (by norm_num) 9))

end Observations

/-! ### Runs -/

/-- What holds of the particles between calls. -/
structure Filter (count landmarks : Nat) (fs : MrFastSlam K) : Prop where
  numParticles : fs.numParticles = count
  lmCounts : ∀ i < count, fs.lmCounts i = landmarks
  positive : ∀ i < count, 0 < (fs.particles i).weight
  total : ∑ i ∈ Finset.range count, (fs.particles i).weight = 1 ∨
    ∑ i ∈ Finset.range count, (fs.particles i).weight ≤ 1 / 10 ^ 12

section Runs

variable {math} {fs : MrFastSlam K} {count landmarks : Nat}

omit [LinearOrder K] in
theorem totalWeight_eq (weight : Nat → K) (count : Nat) :
    totalWeight weight count = ∑ i ∈ Finset.range count, weight i :=
  (LoopSums.foldl_add weight count 0).trans (zero_add _)

omit [LinearOrder K] in
theorem foldl_observe_lmCount (pose : MrRobotPose K) (observations : List (MrLandmarkObs K))
    {map : ParticleMap K} (bounded : map.lmCount ≤ mrSlamMaxLandmarks) :
    (observations.foldl (observe math pose) map).lmCount =
      (observations.map MrLandmarkObs.id).foldl countAfter map.lmCount := by
  induction observations generalizing map with
  | nil => rfl
  | cons obs observations ih =>
      have counted := @observe_lmCount K _ math pose map obs bounded
      rw [List.foldl_cons, List.map_cons, List.foldl_cons, ← counted]
      exact ih (counted ▸ countAfter_le bounded obs.id)

omit [Field K] [LinearOrder K] in
theorem landmarkCount_le (calls : List (FastSlamCall K)) :
    landmarkCount calls ≤ mrSlamMaxLandmarks :=
  foldl_countAfter_le _ (Nat.zero_le _)

omit [Field K] [LinearOrder K] in
theorem landmarkCount_concat (calls : List (FastSlamCall K)) (call : FastSlamCall K) :
    landmarkCount (calls ++ [call]) = call.ids.foldl countAfter (landmarkCount calls) := by
  rw [landmarkCount, List.flatMap_append, List.flatMap_singleton, List.foldl_append,
    ← landmarkCount]

theorem Filter.predict (filter : Filter count landmarks fs) (dx dy dt noiseStd : K)
    (gaussian : Nat → K × K × K) :
    Filter count landmarks (mrFastSlamPredict math fs dx dy dt noiseStd gaussian) := by
  have weights : ∀ i, ((mrFastSlamPredict math fs dx dy dt noiseStd gaussian).particles i).weight =
      (fs.particles i).weight := by
    intro i
    dsimp only [mrFastSlamPredict]
    split
    · rfl
    · rfl
  constructor
  case numParticles => exact filter.numParticles
  case lmCounts => exact filter.lmCounts
  case positive =>
    intro i inside
    rw [weights]
    exact filter.positive i inside
  case total =>
    simp only [weights]
    exact filter.total

variable [IsStrictOrderedRing K]

theorem foldl_observe_weight_pos (expNonneg : ∀ x, 0 ≤ math.exp x)
    (sqrtNonneg : ∀ x, 0 ≤ math.sqrt x) (pose : MrRobotPose K)
    (observations : List (MrLandmarkObs K)) {map : ParticleMap K} (positive : 0 < map.weight) :
    0 < (observations.foldl (observe math pose) map).weight := by
  induction observations generalizing map with
  | nil => exact positive
  | cons obs observations ih => exact ih (observe_weight_pos expNonneg sqrtNonneg positive)

/-- Weights of a total that is large enough are divided by it. -/
theorem sum_normalised (weight : Nat → K) (count : Nat) :
    (let total := totalWeight weight count
      ∑ i ∈ Finset.range count, if 1 / 10 ^ 12 < total then weight i / total else weight i) = 1 ∨
    (let total := totalWeight weight count
      ∑ i ∈ Finset.range count, if 1 / 10 ^ 12 < total then weight i / total else weight i) ≤
        1 / 10 ^ 12 := by
  dsimp only
  rw [totalWeight_eq]
  split
  · rename_i large
    have positive := (one_div_pos.mpr (pow_pos (by norm_num : (0 : K) < 10) 12)).trans large
    left
    rw [← Finset.sum_div, div_self positive.ne']
  · rename_i small
    exact .inr (not_lt.mp small)

theorem Filter.update (filter : Filter count landmarks fs) (expNonneg : ∀ x, 0 ≤ math.exp x)
    (sqrtNonneg : ∀ x, 0 ≤ math.sqrt x) (bounded : landmarks ≤ mrSlamMaxLandmarks)
    (observations : List (MrLandmarkObs K)) :
    Filter count ((observations.map MrLandmarkObs.id).foldl countAfter landmarks)
      (mrFastSlamUpdate math fs observations) := by
  obtain rfl := filter.numParticles
  have positive : ∀ i, 0 < (observed math fs observations i).weight := fun i =>
    foldl_observe_weight_pos expNonneg sqrtNonneg _ observations zero_lt_one
  have weights : ∀ i < fs.numParticles,
      ((mrFastSlamUpdate math fs observations).particles i).weight =
        if 1 / 10 ^ 12 < totalWeight (fun i => (observed math fs observations i).weight)
          fs.numParticles then (observed math fs observations i).weight /
            totalWeight (fun i => (observed math fs observations i).weight) fs.numParticles
        else (observed math fs observations i).weight := by
    intro i inside
    rw [mrFastSlamUpdate]
    dsimp only
    rw [if_pos inside, Nat.cast_ofNat]
  constructor
  case numParticles => rfl
  case lmCounts =>
    intro i inside
    rw [mrFastSlamUpdate]
    dsimp only
    rw [if_pos inside, observed,
      foldl_observe_lmCount _ observations (by rw [filter.lmCounts i inside]; exact bounded),
      filter.lmCounts i inside]
  case positive =>
    intro i inside
    rw [weights i inside]
    split
    · rename_i large
      exact div_pos (positive i)
        ((one_div_pos.mpr (pow_pos (by norm_num : (0 : K) < 10) 12)).trans large)
    · exact positive i
  case total =>
    rw [Finset.sum_congr rfl fun i inside => weights i (Finset.mem_range.mp inside)]
    exact sum_normalised _ _

/-- As many equal weights as there are particles. -/
theorem sum_equal (someParticle : 0 < count) :
    ∑ _i ∈ Finset.range count, (1 : K) / count = 1 := by
  rw [Finset.sum_const, Finset.card_range, nsmul_eq_mul,
    mul_one_div_cancel (Nat.cast_ne_zero.mpr someParticle.ne')]

omit [IsStrictOrderedRing K] in
theorem drawn_lt (weight : Nat → K) (someParticle : 0 < count) (r : K) :
    drawn weight count r < count := by
  have atMost := (InverseSampling.pick_spec (InverseSampling.cumulative weight) r (count - 1) 0).2.1
  rw [drawn]
  omega

theorem Filter.resample (filter : Filter count landmarks fs) (someParticle : 0 < count)
    (draws : Nat → K) (stack : Nat → Nat → MrLmEstimate K) :
    Filter count landmarks (mrFastSlamResample fs draws stack) := by
  obtain rfl := filter.numParticles
  have weights : ∀ i < fs.numParticles,
      ((mrFastSlamResample fs draws stack).particles i).weight = 1 / fs.numParticles := by
    intro i inside
    rw [mrFastSlamResample]
    dsimp only
    rw [if_pos inside]
  constructor
  case numParticles => rfl
  case lmCounts =>
    intro i inside
    rw [mrFastSlamResample]
    dsimp only
    rw [if_pos inside]
    exact filter.lmCounts _ (drawn_lt _ someParticle _)
  case positive =>
    intro i inside
    rw [weights i inside]
    exact one_div_pos.mpr (Nat.cast_pos.mpr someParticle)
  case total =>
    rw [Finset.sum_congr rfl fun i inside => weights i (Finset.mem_range.mp inside)]
    exact .inl (sum_equal someParticle)

theorem filter_init (memory : MrFastSlam K) (someParticle : 0 < count) :
    Filter count 0 (mrFastSlamInit memory count) := by
  have weights : ∀ i < count, ((mrFastSlamInit memory count).particles i).weight = 1 / count := by
    intro i inside
    rw [mrFastSlamInit]
    dsimp only
    rw [if_pos inside]
  constructor
  case numParticles => rfl
  case lmCounts =>
    intro i inside
    exact if_pos inside
  case positive =>
    intro i inside
    rw [weights i inside]
    exact one_div_pos.mpr (Nat.cast_pos.mpr someParticle)
  case total =>
    rw [Finset.sum_congr rfl fun i inside => weights i (Finset.mem_range.mp inside)]
    exact .inl (sum_equal someParticle)

theorem filter_fastSlamAfter (expNonneg : ∀ x, 0 ≤ math.exp x) (sqrtNonneg : ∀ x, 0 ≤ math.sqrt x)
    (memory : MrFastSlam K) (someParticle : 0 < count) (calls : List (FastSlamCall K)) :
    Filter count (landmarkCount calls) (fastSlamAfter math memory count calls) := by
  induction calls using List.reverseRecOn with
  | nil => exact filter_init memory someParticle
  | append_singleton calls call ih =>
      rw [fastSlamAfter, List.foldl_append, ← fastSlamAfter, landmarkCount_concat]
      cases call with
      | predict dx dy dt noiseStd gaussian => exact ih.predict dx dy dt noiseStd gaussian
      | update observations =>
          exact ih.update expNonneg sqrtNonneg (landmarkCount_le calls) observations
      | resample draws stack => exact ih.resample someParticle draws stack

end Runs

/-! ### Draws -/

/-- The numbers that draw this particle are an interval as long as its weight, and numbers that
the weights do not reach draw the last one. -/
structure Draws (weight : Nat → K) (count : Nat) (r : K) (j : Nat) : Prop where
  inRange : j < count
  within : 0 < r → r ≤ ∑ i ∈ Finset.range count, weight i → ∀ k, k = j ↔ k < count ∧
    ∑ i ∈ Finset.range k, weight i < r ∧ r ≤ (∑ i ∈ Finset.range k, weight i) + weight k
  missed : ∑ i ∈ Finset.range count, weight i < r → j = count - 1

theorem draws_drawn [IsStrictOrderedRing K] {weight : Nat → K} {count : Nat}
    (nonneg : ∀ i < count, 0 ≤ weight i) (someParticle : 0 < count) (r : K) :
    Draws weight count r (drawn weight count r) := by
  constructor
  case inRange => exact drawn_lt weight someParticle r
  case within =>
    intro positive reached k
    rw [← InverseSampling.pick_eq_iff nonneg someParticle positive reached]
    exact eq_comm
  case missed => exact InverseSampling.pick_eq_last nonneg someParticle

section Estimates

variable {math} {atan2 : K → K → K} {amcl : MrAmcl K} {draws : Nat → K}

theorem mrAmclResample_particle {i : Nat} (inside : i < amcl.numParticles) :
    (mrAmclResample math atan2 amcl draws).particles i =
      ⟨(amcl.particles (drawn (fun i => (amcl.particles i).weight) amcl.numParticles
        (draws i))).pose, 1 / amcl.numParticles⟩ := by
  rw [mrAmclResample]
  dsimp only
  rw [if_pos inside]

/-- A mean with equal weights. -/
theorem totalWeight_equal (math : MathH K) (atan2 : K → K → K) (amcl : MrAmcl K)
    (draws : Nat → K) (value : MrRobotPose K → K) :
    totalWeight (fun i => value ((mrAmclResample math atan2 amcl draws).particles i).pose *
        ((mrAmclResample math atan2 amcl draws).particles i).weight) amcl.numParticles =
      (∑ i ∈ Finset.range amcl.numParticles, value (amcl.particles
        (drawn (fun i => (amcl.particles i).weight) amcl.numParticles (draws i))).pose) /
          amcl.numParticles := by
  rw [totalWeight_eq, Finset.sum_div]
  apply Finset.sum_congr rfl
  intro i listed
  rw [mrAmclResample_particle (Finset.mem_range.mp listed), mul_one_div]

end Estimates

end FastSlam

end Robotics

end MiniIotRobotEdge

import Mathlib.Algebra.BigOperators.Ring.Finset
import Mathlib.Algebra.Order.Field.Basic
import Mathlib.Algebra.Order.Field.Rat
import Mathlib.Tactic.Linarith
import Mathlib.Tactic.LinearCombination
import Mathlib.Tactic.NormNum
import Mathlib.Tactic.Ring
import MiniIotRobotEdge.RangeLoop

/-!
# Folding batch normalization

The model of `opt_fuse_conv_bn_relu` in `inference_opt.c` and
`graph_opt_fold_batchnorm` in `model_conversion.c`, over exact numbers, with
`sqrtf` as a parameter.  Arrays are functions of their index, and no pointer is
null.  The first function tests the sign of the offset in place of that of the
sum, and the second one folds the scale into the bias only.
-/

namespace MiniIotRobotEdge

namespace Ai

variable {α : Type*} [Field α] [LinearOrder α]

/-- The parameters of a batch normalization, an entry for every channel. -/
structure BatchNorm (α : Type*) where
  bnGamma : Nat → α
  bnBeta : Nat → α
  bnMean : Nat → α
  bnVar : Nat → α
  eps : α

namespace BatchNorm

variable (bn : BatchNorm α) (sqrtf : α → α) (c : Nat)

def denom : α := sqrtf (bn.bnVar c + bn.eps)

def scale : α := bn.bnGamma c / bn.denom sqrtf c

def offset : α := bn.bnBeta c - (bn.bnMean c * bn.bnGamma c) / bn.denom sqrtf c

/-- What the normalization does to a value of a channel. -/
def normalize (z : α) : α :=
  bn.bnGamma c * (z - bn.bnMean c) / bn.denom sqrtf c + bn.bnBeta c

end BatchNorm

/-- The arrays that the fused operator is written to. -/
structure FusedConv (α : Type*) where
  fusedW : Nat → α
  fusedB : Nat → α

/-- The turn of the loop of `opt_fuse_conv_bn_relu` for one channel. -/
def fuseChannel (sqrtf : α → α) (convB : Nat → α) (bn : BatchNorm α) (inCh ksize : Nat)
    (fused : FusedConv α) (oc : Nat) : FusedConv α :=
  let scale := bn.scale sqrtf oc
  let offset := bn.offset sqrtf oc
  let fusedB := Function.update fused.fusedB oc (convB oc * scale + offset)
  { fusedB := if offset ≤ 0 then Function.update fusedB oc 0 else fusedB
    fusedW := (List.range (inCh * ksize * ksize)).foldl (fun fusedW idx =>
      Function.update fusedW (oc * inCh * ksize * ksize + idx)
        (fusedW (oc * inCh * ksize * ksize + idx) * scale)) fused.fusedW }

def optFuseConvBnRelu (sqrtf : α → α) (convW convB : Nat → α) (bn : BatchNorm α)
    (outCh inCh ksize : Nat) (fused : FusedConv α) : FusedConv α :=
  let wSize := outCh * inCh * ksize * ksize
  let copied := { fused with fusedW := fun i => if i < wSize then convW i else fused.fusedW i }
  (List.range outCh).foldl (fuseChannel sqrtf convB bn inCh ksize) copied

/-- The weights and the bias that are left in the two arrays. -/
def graphOptFoldBatchnorm (sqrtf : α → α) (weights bias : Nat → α) (bn : BatchNorm α)
    (channels : Nat) : (Nat → α) × (Nat → α) :=
  (weights, (List.range channels).foldl (fun bias c =>
    Function.update bias c (bias c * bn.scale sqrtf c + bn.offset sqrtf c)) bias)

/-- The product of the weights of a channel with a patch. -/
def convSum (taps : Nat) (w x : Nat → α) (c : Nat) : α :=
  ∑ idx ∈ Finset.range taps, w (c * taps + idx) * x idx

def relu (z : α) : α := max z 0

theorem tap_ne {taps channel other i j : Nat} (different : channel ≠ other) (iLt : i < taps)
    (jLt : j < taps) : channel * taps + i ≠ other * taps + j := by
  intro same
  have quotient : ∀ {channel tap : Nat}, tap < taps → (channel * taps + tap) / taps = channel := by
    intro channel tap inRange
    rw [Nat.mul_comm, Nat.mul_add_div (by omega), Nat.div_eq_of_lt inRange, Nat.add_zero]
  have equal := congrArg (· / taps) same
  simp only [quotient iLt, quotient jLt] at equal
  exact different equal

section Loops

variable {sqrtf : α → α} {bn : BatchNorm α} {convW convB : Nat → α} {outCh inCh ksize : Nat}
  {fused : FusedConv α} {oc other : Nat}

/-- The bias of a channel after the loop. -/
def fusedBias (sqrtf : α → α) (convB : Nat → α) (bn : BatchNorm α) (oc : Nat) : α :=
  if bn.offset sqrtf oc ≤ 0 then 0 else convB oc * bn.scale sqrtf oc + bn.offset sqrtf oc

theorem channel_index (oc inCh ksize : Nat) :
    oc * inCh * ksize * ksize = oc * (inCh * ksize * ksize) := by
  rw [Nat.mul_assoc, Nat.mul_assoc, Nat.mul_assoc]

/-- One turn writes the entries of its own channel. -/
theorem fuseChannel_self :
    (fuseChannel sqrtf convB bn inCh ksize fused oc).fusedB oc = fusedBias sqrtf convB bn oc ∧
      ∀ idx < inCh * ksize * ksize,
        (fuseChannel sqrtf convB bn inCh ksize fused oc).fusedW
          (oc * (inCh * ksize * ksize) + idx) =
          fused.fusedW (oc * (inCh * ksize * ksize) + idx) * bn.scale sqrtf oc := by
  constructor
  · simp only [fuseChannel, fusedBias]
    split
    · exact Function.update_self ..
    · exact Function.update_self ..
  · intro idx inTaps
    simp only [fuseChannel, channel_index]
    exact RangeLoop.update_apply (fun idx => oc * (inCh * ksize * ksize) + idx)
      (fun _ value => value * bn.scale sqrtf oc)
      (fun first second inOrder _ => by omega) inTaps

theorem fuseChannel_other (different : other ≠ oc) :
    (fuseChannel sqrtf convB bn inCh ksize fused oc).fusedB other = fused.fusedB other ∧
      ∀ idx < inCh * ksize * ksize,
        (fuseChannel sqrtf convB bn inCh ksize fused oc).fusedW
          (other * (inCh * ksize * ksize) + idx) =
          fused.fusedW (other * (inCh * ksize * ksize) + idx) := by
  constructor
  · simp only [fuseChannel]
    split
    · rw [Function.update_of_ne different, Function.update_of_ne different]
    · rw [Function.update_of_ne different]
  · intro idx inTaps
    simp only [fuseChannel, channel_index]
    exact RangeLoop.update_of_ne (fun idx => oc * (inCh * ksize * ksize) + idx)
      (fun _ value => value * bn.scale sqrtf oc)
      (fun turn turnLt => tap_ne different.symm turnLt inTaps)

/-- The channels done have their final entries, the others the copied weights. -/
def ChannelsFused (sqrtf : α → α) (convW convB : Nat → α) (bn : BatchNorm α)
    (outCh inCh ksize done : Nat) (fused : FusedConv α) : Prop :=
  ∀ oc < outCh, (oc < done → fused.fusedB oc = fusedBias sqrtf convB bn oc) ∧
    ∀ idx < inCh * ksize * ksize, fused.fusedW (oc * (inCh * ksize * ksize) + idx) =
      if oc < done then convW (oc * (inCh * ksize * ksize) + idx) * bn.scale sqrtf oc
      else convW (oc * (inCh * ksize * ksize) + idx)

theorem channelsFused_step {done : Nat}
    (kept : ChannelsFused sqrtf convW convB bn outCh inCh ksize done fused) :
    ChannelsFused sqrtf convW convB bn outCh inCh ksize (done + 1)
      (fuseChannel sqrtf convB bn inCh ksize fused done) := by
  intro oc inChannels
  obtain ⟨bias, weights⟩ := kept oc inChannels
  by_cases isTurn : oc = done
  · subst isTurn
    obtain ⟨isBias, scaled⟩ : (fuseChannel sqrtf convB bn inCh ksize fused oc).fusedB oc = _ ∧ _ :=
      fuseChannel_self
    refine ⟨fun _ => isBias, fun idx inTaps => ?_⟩
    rw [scaled idx inTaps, weights idx inTaps, if_neg (Nat.lt_irrefl oc),
      if_pos (Nat.lt_succ_self oc)]
  · obtain ⟨sameBias, sameWeights⟩ : (fuseChannel sqrtf convB bn inCh ksize fused done).fusedB oc =
      fused.fusedB oc ∧ _ := fuseChannel_other isTurn
    have sameTurns : oc < done + 1 ↔ oc < done := by omega
    simp only [sameTurns]
    refine ⟨fun isDone => sameBias.trans (bias isDone), fun idx inTaps => ?_⟩
    rw [sameWeights idx inTaps, weights idx inTaps]

/-- The arrays of the fused operator. -/
theorem fused_apply (inRange : oc < outCh) :
    (optFuseConvBnRelu sqrtf convW convB bn outCh inCh ksize fused).fusedB oc =
        fusedBias sqrtf convB bn oc ∧
      ∀ idx < inCh * ksize * ksize,
        (optFuseConvBnRelu sqrtf convW convB bn outCh inCh ksize fused).fusedW
          (oc * (inCh * ksize * ksize) + idx) =
          convW (oc * (inCh * ksize * ksize) + idx) * bn.scale sqrtf oc := by
  have final : ChannelsFused sqrtf convW convB bn outCh inCh ksize outCh
      (optFuseConvBnRelu sqrtf convW convB bn outCh inCh ksize fused) := by
    refine RangeLoop.invariant (ChannelsFused sqrtf convW convB bn outCh inCh ksize)
      (fun oc inChannels => ?_) fun _ _ _ kept => channelsFused_step kept
    refine ⟨fun none => absurd none (Nat.not_lt_zero oc), fun idx inTaps => ?_⟩
    have inSize : oc * (inCh * ksize * ksize) + idx < outCh * inCh * ksize * ksize := by
      have rows := Nat.mul_le_mul_right (inCh * ksize * ksize) (Nat.succ_le_of_lt inChannels)
      rw [Nat.succ_mul] at rows
      rw [channel_index]
      omega
    rw [if_neg (Nat.not_lt_zero oc)]
    exact if_pos inSize
  obtain ⟨bias, weights⟩ := final oc inRange
  refine ⟨bias inRange, fun idx inTaps => ?_⟩
  rw [weights idx inTaps, if_pos inRange]

end Loops

omit [LinearOrder α] in
theorem folded_apply {sqrtf : α → α} {bn : BatchNorm α} {weights bias : Nat → α}
    {channels c : Nat} (inRange : c < channels) :
    (graphOptFoldBatchnorm sqrtf weights bias bn channels).2 c =
      bias c * bn.scale sqrtf c + bn.offset sqrtf c :=
  RangeLoop.update_apply id (fun c value => value * bn.scale sqrtf c + bn.offset sqrtf c)
    (fun _ _ inOrder _ => Nat.ne_of_lt inOrder) inRange

/-- The fused operator computes what the convolution, the normalization and the
rectifier compute one after the other. -/
def FusionPreserves (sqrtf : α → α) (convW convB : Nat → α) (bn : BatchNorm α)
    (outCh inCh ksize : Nat) (fused : FusedConv α) (x : Nat → α) : Prop :=
  let result := optFuseConvBnRelu sqrtf convW convB bn outCh inCh ksize fused
  ∀ oc < outCh, relu (convSum (inCh * ksize * ksize) result.fusedW x oc + result.fusedB oc) =
    relu (bn.normalize sqrtf oc (convSum (inCh * ksize * ksize) convW x oc + convB oc))

/-- The folded layer computes what the layer and the normalization compute. -/
def FoldPreserves (sqrtf : α → α) (weights bias : Nat → α) (bn : BatchNorm α)
    (channels taps : Nat) (x : Nat → α) : Prop :=
  let folded := graphOptFoldBatchnorm sqrtf weights bias bn channels
  ∀ c < channels, convSum taps folded.1 x c + folded.2 c =
    bn.normalize sqrtf c (convSum taps weights x c + bias c)

section Meaning

variable {sqrtf : α → α} {bn : BatchNorm α} {c taps : Nat} {w x : Nat → α}

omit [LinearOrder α] in
theorem normalize_eq (z : α) :
    bn.normalize sqrtf c z = z * bn.scale sqrtf c + bn.offset sqrtf c := by
  unfold BatchNorm.normalize BatchNorm.scale BatchNorm.offset
  ring

omit [LinearOrder α] in
theorem convSum_scaled {scaled : Nat → α} {factor : α}
    (isScaled : ∀ idx < taps, scaled (c * taps + idx) = w (c * taps + idx) * factor) :
    convSum taps scaled x c = convSum taps w x c * factor := by
  unfold convSum
  rw [Finset.sum_mul]
  apply Finset.sum_congr rfl
  intro idx inRange
  rw [isScaled idx (Finset.mem_range.mp inRange)]
  ring

variable [IsStrictOrderedRing α]

/-- Dropping a summand before the rectifier. -/
theorem relu_eq_iff (z bias : α) :
    relu z = relu (z + bias) ↔ bias = 0 ∨ z ≤ 0 ∧ z + bias ≤ 0 := by
  unfold relu
  constructor
  · intro same
    by_cases isNeg : z ≤ 0
    · rw [max_eq_right isNeg] at same
      exact .inr ⟨isNeg, by rw [same]; exact le_max_left _ _⟩
    · have positive := not_le.mp isNeg
      rw [max_eq_left positive.le] at same
      rcases le_total (z + bias) 0 with isNeg | isPos
      · rw [max_eq_right isNeg] at same
        exact absurd same positive.ne'
      · rw [max_eq_left isPos] at same
        exact .inl (by linarith)
  · rintro (rfl | ⟨isNeg, sumNeg⟩)
    · rw [add_zero]
    · rw [max_eq_right isNeg, max_eq_right sumNeg]

theorem relu_fused_iff (z bias : α) :
    relu (z * bn.scale sqrtf c + (if bn.offset sqrtf c ≤ 0 then 0
        else bias * bn.scale sqrtf c + bn.offset sqrtf c)) =
      relu (bn.normalize sqrtf c (z + bias)) ↔
    0 < bn.offset sqrtf c ∨ bn.normalize sqrtf c bias = 0 ∨
      z * bn.scale sqrtf c ≤ 0 ∧ bn.normalize sqrtf c (z + bias) ≤ 0 := by
  have isSum : bn.normalize sqrtf c (z + bias) =
      z * bn.scale sqrtf c + bn.normalize sqrtf c bias := by
    rw [normalize_eq, normalize_eq]
    ring
  split
  case isTrue dropped =>
    rw [add_zero, isSum, relu_eq_iff]
    exact (or_iff_right dropped.not_gt).symm
  case isFalse kept =>
    rw [isSum, ← normalize_eq]
    exact iff_of_true rfl (.inl (not_le.mp kept))

omit [LinearOrder α] [IsStrictOrderedRing α] in
/-- Leaving the weights as they are. -/
theorem folded_sum_iff (sum bias scale offset : α) :
    sum + (bias * scale + offset) = (sum + bias) * scale + offset ↔ scale = 1 ∨ sum = 0 := by
  constructor
  · intro same
    have product : sum * (scale - 1) = 0 := by linear_combination -same
    rcases mul_eq_zero.mp product with isZero | isOne
    · exact .inr isZero
    · exact .inl (sub_eq_zero.mp isOne)
  · rintro (rfl | rfl)
    · ring
    · ring

end Meaning

/-- The fused operator keeps its meaning exactly when in no channel a bias is
dropped that matters, the folded layer exactly when in no channel a scale is. -/
theorem batchNorm_preserved_iff [IsStrictOrderedRing α] (sqrtf : α → α) :
    (∀ (convW convB : Nat → α) (bn : BatchNorm α) (outCh inCh ksize : Nat) (fused : FusedConv α)
      (x : Nat → α), FusionPreserves sqrtf convW convB bn outCh inCh ksize fused x ↔
        ∀ oc < outCh, 0 < bn.offset sqrtf oc ∨ bn.normalize sqrtf oc (convB oc) = 0 ∨
          convSum (inCh * ksize * ksize) convW x oc * bn.scale sqrtf oc ≤ 0 ∧
            bn.normalize sqrtf oc
              (convSum (inCh * ksize * ksize) convW x oc + convB oc) ≤ 0) ∧
    ∀ (weights bias : Nat → α) (bn : BatchNorm α) (channels taps : Nat) (x : Nat → α),
      FoldPreserves sqrtf weights bias bn channels taps x ↔
        ∀ c < channels, bn.scale sqrtf c = 1 ∨ convSum taps weights x c = 0 := by
  constructor
  · intro convW convB bn outCh inCh ksize fused x
    apply forall₂_congr
    intro oc inRange
    obtain ⟨isBias, scaled⟩ : (optFuseConvBnRelu sqrtf convW convB bn outCh inCh ksize
      fused).fusedB oc = _ ∧ _ := fused_apply inRange
    rw [convSum_scaled scaled, isBias]
    exact relu_fused_iff _ _
  · intro weights bias bn channels taps x
    apply forall₂_congr
    intro c inRange
    rw [folded_apply inRange, normalize_eq]
    exact folded_sum_iff _ _ _ _

/-- A normalization of variance one and mean zero. -/
def unitNorm (gamma beta : ℚ) : BatchNorm ℚ where
  bnGamma := fun _ => gamma
  bnBeta := fun _ => beta
  bnMean := fun _ => 0
  bnVar := fun _ => 1
  eps := 0

theorem batchNorm_preserved_iff_unit :
    FusionPreserves id (fun _ => 1) (fun _ => 1) (unitNorm 1 1) 1 1 1 ⟨fun _ => 0, fun _ => 0⟩
        (fun _ => 1) ∧
      FoldPreserves id (fun _ => 1) (fun _ => 1) (unitNorm 1 1) 1 1 (fun _ => 1) := by
  have offset : ∀ oc, (unitNorm 1 1).offset id oc = 1 := fun oc => by
    simp [unitNorm, BatchNorm.offset]
  have scale : ∀ oc, (unitNorm 1 1).scale id oc = 1 := fun oc => by
    simp [unitNorm, BatchNorm.scale, BatchNorm.denom]
  obtain ⟨fusion, fold⟩ := batchNorm_preserved_iff (id : ℚ → ℚ)
  exact ⟨(fusion _ _ _ _ _ _ _ _).mpr fun oc _ => .inl (by rw [offset]; exact one_pos),
    (fold _ _ _ _ _ _).mpr fun c _ => .inl (scale c)⟩

/-- With offset zero the bias one is dropped; with scale two the weights are not
scaled. -/
theorem batchNorm_changes_meaning :
    (¬∀ (sqrtf : ℚ → ℚ) (convW convB : Nat → ℚ) (bn : BatchNorm ℚ) (fused : FusedConv ℚ)
      (x : Nat → ℚ), (∀ oc, 0 < bn.denom sqrtf oc) →
        FusionPreserves sqrtf convW convB bn 1 1 1 fused x) ∧
    ¬∀ (sqrtf : ℚ → ℚ) (weights bias : Nat → ℚ) (bn : BatchNorm ℚ) (x : Nat → ℚ),
      (∀ c, 0 < bn.denom sqrtf c) → FoldPreserves sqrtf weights bias bn 1 1 x := by
  have denom : ∀ gamma beta c, 0 < (unitNorm gamma beta).denom id c := fun gamma beta c => by
    simp [unitNorm, BatchNorm.denom]
  constructor
  · intro holds
    have changed := holds id (fun _ => 1) (fun _ => 1) (unitNorm 1 0) ⟨fun _ => 0, fun _ => 0⟩
      (fun _ => 1) (denom 1 0) 0 Nat.one_pos
    revert changed
    decide +kernel
  · intro holds
    have changed := holds id (fun _ => 1) (fun _ => 0) (unitNorm 2 0) (fun _ => 1) (denom 2 0) 0
      Nat.one_pos
    revert changed
    decide +kernel

end Ai

end MiniIotRobotEdge

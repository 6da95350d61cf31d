import Mathlib.Algebra.Field.Rat
import Mathlib.Algebra.Order.Ring.Rat
import Mathlib.Algebra.Order.Chebyshev
import MiniIotRobotEdge.LeastMeanSquares
import MiniIotRobotEdge.LoopNests
import MiniIotRobotEdge.RangeLoop

/-!
# Training of the last layer

The model of `od_transfer_model_train_classifier_head` and
`od_transfer_model_predict` in `ondevice_learn.c`, over exact numbers.  A model
of one layer is trained by the rule of least mean squares.
-/

namespace MiniIotRobotEdge

namespace Ai

namespace OnDevice

/-- A layer with weights: dense, or a convolution. -/
structure ODLayer (K : Type*) where
  weights : Nat → K
  bias : Nat → K
  inputSize : Nat
  outputSize : Nat
  isFrozen : Bool

structure ODTransferModel (K : Type*) where
  layers : List (ODLayer K)
  inputSize : Nat
  outputSize : Nat
  numFrozenLayers : Nat
  learningRate : K
  isCompiled : Bool

def onDeviceLearnMaxLayers : Nat := 32

section Model

variable {K : Type*} [Field K]

def odTransferModelCreate (inputSize outputSize : Nat) (learningRate : K) :
    Option (ODTransferModel K) :=
  if inputSize = 0 ∨ outputSize = 0 then none
  else some ⟨[], inputSize, outputSize, 0, learningRate, false⟩

/-- The random weights come with the call. -/
def odTransferModelAddLayer (model : ODTransferModel K) (units : Nat) (weights : Nat → K) :
    Option (ODTransferModel K) :=
  if onDeviceLearnMaxLayers ≤ model.layers.length then none
  else
    let inputDim := (model.layers.getLast?.map ODLayer.outputSize).getD model.inputSize
    if inputDim = 0 ∨ units = 0 then none
    else some { model with layers := model.layers ++ [⟨weights, fun _ => 0, inputDim, units, false⟩] }

def odTransferModelFreezeBase (model : ODTransferModel K) (numLayersToFreeze : Nat) :
    ODTransferModel K :=
  let freezeUpTo :=
    if numLayersToFreeze < model.layers.length then numLayersToFreeze
    else model.layers.length - 1
  { model with
    layers := model.layers.mapIdx fun i layer =>
      if i < freezeUpTo then { layer with isFrozen := true } else layer
    numFrozenLayers := freezeUpTo
    isCompiled := true }

/-- The values of a layer, from the values before it and their number. -/
def layerValue (layer : ODLayer K) (current : Nat → K) (currentDim o : Nat) : K :=
  (List.range (min layer.inputSize currentDim)).foldl
    (fun sum (i : Nat) => sum + current i * layer.weights (i * layer.outputSize + o))
    (layer.bias o)

/-- The array `current` with the number of its values, one layer further. -/
def predictLayer (state : (Nat → K) × Nat) (layer : ODLayer K) : (Nat → K) × Nat :=
  (fun o => if o < layer.outputSize then layerValue layer state.1 state.2 o else state.1 o,
    layer.outputSize)

/-- What stood on the stack is where nothing was written yet. -/
def odTransferModelPredict (model : ODTransferModel K) (stack input : Nat → K) (inputDim : Nat) :
    Nat → K :=
  let currentDim := min inputDim model.inputSize
  (model.layers.foldl predictLayer
    (fun i => if i < currentDim then input i else stack i, currentDim)).1

/-- The step of the last layer for one class. -/
def trainClass (learningRate : K) (features : Nat → K) (inputDim : Nat) (err : K) (c : Nat)
    (last : ODLayer K) : ODLayer K :=
  if last.isFrozen then last
  else
    { last with
      bias := Function.update last.bias c (last.bias c - learningRate * (2 : ℕ) * err)
      weights := (List.range last.inputSize).foldl (fun weights (i : Nat) =>
        let fi := if i < inputDim then features i else 0
        let w := i * last.outputSize + c
        Function.update weights w (weights w - learningRate * (2 : ℕ) * err * fi)) last.weights }

/-- The samples, with their number and those of features and classes. -/
structure Samples (K : Type*) where
  features : Nat → K
  labels : Nat → K
  numSamples : Nat
  inputDim : Nat
  numClasses : Nat

/-- The loop over the classes of a sample, whose output is worked out before it. -/
def trainSample (samples : Samples K) (stack : Nat → Nat → K)
    (state : ODTransferModel K × K) (s : Nat) : ODTransferModel K × K :=
  let features := fun i => samples.features (s * samples.inputDim + i)
  let output := odTransferModelPredict state.1 (stack s) features samples.inputDim
  (List.range samples.numClasses).foldl (fun state c =>
    let err := output c - samples.labels (s * samples.numClasses + c)
    ({ state.1 with
        layers := state.1.layers.modify (state.1.layers.length - 1)
          (trainClass state.1.learningRate features samples.inputDim err c) },
      state.2 + err * err)) state

variable [LinearOrder K]

/-- One epoch, and whether its loss ends the training. -/
def trainEpoch (samples : Samples K) (stack : Nat → Nat → K) (model : ODTransferModel K) :
    ODTransferModel K × Bool :=
  let (model, epochLoss) := (List.range samples.numSamples).foldl (trainSample samples stack)
    (model, 0)
  (model, epochLoss / samples.numSamples < 1 / (10 : ℕ) ^ 6)

def trainLoop (samples : Samples K) (stack : Nat → Nat → Nat → K) :
    Nat → Nat → ODTransferModel K → ODTransferModel K
  | _, 0, model => model
  | epoch, epochs + 1, model =>
      let (model, done) := trainEpoch samples (stack epoch) model
      if done then model else trainLoop samples stack (epoch + 1) epochs model

def odTransferModelTrainClassifierHead (samples : Samples K) (stack : Nat → Nat → Nat → K)
    (epochs : Nat) (model : ODTransferModel K) : Option (ODTransferModel K) :=
  if model.isCompiled then some (trainLoop samples stack 0 epochs model) else none

end Model

/-! ### A layer as vectors of weights -/

section Vectors

variable {K : Type*} [Field K] {layer : ODLayer K} {learningRate err : K} {features : Nat → K} {inputDim c other : Nat}

/-- The bias and the weights of a class. -/
def ODLayer.vector (layer : ODLayer K) (c : Nat) : Nat → K
  | 0 => layer.bias c
  | i + 1 => layer.weights (i * layer.outputSize + c)

/-- The features of a sample as the vector that the weights are multiplied with. -/
def inputVector (features : Nat → K) (inputDim : Nat) : Nat → K
  | 0 => 1
  | i + 1 => if i < inputDim then features i else 0

def ODLayer.places (layer : ODLayer K) : Finset Nat := Finset.range (layer.inputSize + 1)

theorem layerValue_eq {current : Nat → K} {currentDim o : Nat}
    (dim : currentDim = min inputDim layer.inputSize) (copied : ∀ i < currentDim, current i = features i) :
    layerValue layer current currentDim o =
      LeastMeanSquares.product layer.places (inputVector features inputDim) (layer.vector o) := by
  have beyond : ∀ i ∈ Finset.range layer.inputSize,
      i ∉ Finset.range (min layer.inputSize currentDim) →
        inputVector features inputDim (i + 1) * layer.vector o (i + 1) = 0 := by
    intro i inLayer notRead
    rw [Finset.mem_range] at inLayer notRead
    rw [inputVector, if_neg (by omega), zero_mul]
  rw [layerValue, LoopSums.foldl_add, LeastMeanSquares.product, ODLayer.places,
    Finset.sum_range_succ', inputVector, one_mul, add_comm]
  congr 1
  rw [← Finset.sum_subset (Finset.range_subset_range.mpr (min_le_left _ currentDim)) beyond]
  refine Finset.sum_congr rfl fun i inRange => ?_
  rw [Finset.mem_range] at inRange
  rw [copied i (by omega), inputVector, if_pos (by omega)]
  rfl

/-- The class moves by the rule of least mean squares, and no other class does. -/
theorem vector_trainClass (unfrozen : layer.isFrozen = false) (isClass : c < layer.outputSize)
    (isOther : other < layer.outputSize) {place : Nat} (isPlace : place ∈ layer.places) :
    (trainClass learningRate features inputDim err c layer).vector other place =
      if other = c then
        LeastMeanSquares.step (learningRate * 2) err (inputVector features inputDim)
          (layer.vector c) place
      else layer.vector other place := by
  rw [trainClass, unfrozen, if_neg Bool.false_ne_true]
  cases place with
  | zero =>
      change Function.update layer.bias c _ other = _
      rw [Function.update_apply]
      split_ifs with same
      · rw [LeastMeanSquares.step, inputVector, ODLayer.vector, mul_one, Nat.cast_ofNat]
      · rfl
  | succ i =>
      have inLayer : i < layer.inputSize := by
        have := Finset.mem_range.mp isPlace
        omega
      simp only [ODLayer.vector]
      split_ifs with same
      · subst same
        rw [RangeLoop.update_apply (fun i => i * layer.outputSize + other)
          (fun i weight => weight - learningRate * (2 : ℕ) * err *
            if i < inputDim then features i else 0) ?_ inLayer]
        · rw [LeastMeanSquares.step, inputVector, ODLayer.vector, Nat.cast_ofNat]
        · intro first second inOrder _ samePlace
          exact absurd (Nat.eq_of_mul_eq_mul_right (by omega) (Nat.add_right_cancel samePlace))
            inOrder.ne
      · refine RangeLoop.update_of_ne (fun i => i * layer.outputSize + c)
          (fun i weight => weight - learningRate * (2 : ℕ) * err *
            if i < inputDim then features i else 0) fun row _ samePlace => same ?_
        have remainder := congrArg (· % layer.outputSize) samePlace
        simpa [Nat.mod_eq_of_lt isClass, Nat.mod_eq_of_lt isOther] using remainder.symm

@[simp]
theorem inputSize_trainClass :
    (trainClass learningRate features inputDim err c layer).inputSize = layer.inputSize := by
  rw [trainClass]
  split_ifs <;> rfl

@[simp]
theorem outputSize_trainClass :
    (trainClass learningRate features inputDim err c layer).outputSize = layer.outputSize := by
  rw [trainClass]
  split_ifs <;> rfl

@[simp]
theorem isFrozen_trainClass :
    (trainClass learningRate features inputDim err c layer).isFrozen = layer.isFrozen := by
  rw [trainClass]
  split_ifs <;> rfl

end Vectors

/-! ### An epoch of a model with one layer -/

section Epoch

variable {K : Type*} [Field K]

def Samples.feature (samples : Samples K) (s : Nat) : Nat → K :=
  fun i => samples.features (s * samples.inputDim + i)

def Samples.label (samples : Samples K) (s c : Nat) : K :=
  samples.labels (s * samples.numClasses + c)

def Samples.input (samples : Samples K) (s : Nat) : Nat → K :=
  inputVector (samples.feature s) samples.inputDim

/-- The answer of a layer to a sample, without its label. -/
def ODLayer.error (layer : ODLayer K) (samples : Samples K) (s c : Nat) : K :=
  LeastMeanSquares.product layer.places (samples.input s) (layer.vector c) - samples.label s c

/-- The layer after a sample. -/
def ODLayer.trained (rate : K) (samples : Samples K) (layer : ODLayer K) (s : Nat) : ODLayer K :=
  (List.range samples.numClasses).foldl (fun last c =>
    trainClass rate (samples.feature s) samples.inputDim (layer.error samples s c) c last) layer

/-- The layer after the first samples of an epoch. -/
def ODLayer.after (rate : K) (samples : Samples K) (layer : ODLayer K) (count : Nat) : ODLayer K :=
  (List.range count).foldl (ODLayer.trained rate samples) layer

def ODLayer.loss (rate : K) (samples : Samples K) (layer : ODLayer K) (count : Nat) : K :=
  ∑ s ∈ Finset.range count, ∑ c ∈ Finset.range samples.numClasses,
    (layer.after rate samples s).error samples s c ^ 2

/-- The layer may be trained with the samples. -/
structure ODLayer.Ready (samples : Samples K) (layer : ODLayer K) : Prop where
  unfrozen : layer.isFrozen = false
  classes : samples.numClasses ≤ layer.outputSize

/-- A model that has just this layer. -/
structure OneLayer (samples : Samples K) (model : ODTransferModel K) (layer : ODLayer K) :
    Prop where
  layers : model.layers = [layer]
  inputSize : layer.inputSize = model.inputSize
  ready : layer.Ready samples

variable {samples : Samples K} {layer target : ODLayer K} {rate : K} {s c : Nat}

/-- What a sample does to a layer. -/
structure TrainedBy (rate : K) (samples : Samples K) (layer : ODLayer K) (s : Nat)
    (after : ODLayer K) : Prop where
  inputSize : after.inputSize = layer.inputSize
  outputSize : after.outputSize = layer.outputSize
  isFrozen : after.isFrozen = layer.isFrozen
  vector : ∀ c < layer.outputSize, ∀ place ∈ layer.places, after.vector c place =
    if c < samples.numClasses then
      LeastMeanSquares.step (rate * 2) (layer.error samples s c) (samples.input s)
        (layer.vector c) place
    else layer.vector c place

theorem ODLayer.Ready.trained (ready : layer.Ready samples) (rate : K) (s : Nat) :
    TrainedBy rate samples layer s (layer.trained rate samples s) := by
  let kept (done : Nat) (last : ODLayer K) : Prop :=
    last.inputSize = layer.inputSize ∧ last.outputSize = layer.outputSize ∧
      last.isFrozen = layer.isFrozen ∧
      ∀ c < layer.outputSize, ∀ place ∈ layer.places, last.vector c place =
        if c < done then
          LeastMeanSquares.step (rate * 2) (layer.error samples s c) (samples.input s)
            (layer.vector c) place
        else layer.vector c place
  have atEnd : kept samples.numClasses (layer.trained rate samples s) := by
    refine RangeLoop.invariant kept
      ⟨rfl, rfl, rfl, fun c _ place _ => (if_neg (Nat.not_lt_zero c)).symm⟩ ?_
    rintro done last isTurn ⟨sameInput, sameOutput, sameFrozen, vectors⟩
    refine ⟨inputSize_trainClass.trans sameInput, outputSize_trainClass.trans sameOutput,
      isFrozen_trainClass.trans sameFrozen, fun c isClass place isPlace => ?_⟩
    have isDone : done < layer.outputSize := isTurn.trans_le ready.classes
    rw [vector_trainClass (sameFrozen.trans ready.unfrozen) (isDone.trans_eq sameOutput.symm)
      (isClass.trans_eq sameOutput.symm) (by rwa [ODLayer.places, sameInput])]
    split_ifs with same before after
    · subst same
      rw [LeastMeanSquares.step, vectors c isClass place isPlace, if_neg (Nat.lt_irrefl c)]
      rfl
    · exact absurd (same ▸ Nat.lt_succ_self c) before
    · rw [vectors c isClass place isPlace, if_pos (by omega)]
    · rw [vectors c isClass place isPlace, if_neg (by omega)]
  obtain ⟨sameInput, sameOutput, sameFrozen, vectors⟩ := atEnd
  exact ⟨sameInput, sameOutput, sameFrozen, vectors⟩

theorem TrainedBy.ready {after : ODLayer K} (trained : TrainedBy rate samples layer s after)
    (ready : layer.Ready samples) : after.Ready samples :=
  ⟨trained.isFrozen.trans ready.unfrozen, ready.classes.trans_eq trained.outputSize.symm⟩

theorem TrainedBy.places {after : ODLayer K} (trained : TrainedBy rate samples layer s after) :
    after.places = layer.places := by
  rw [ODLayer.places, trained.inputSize, ODLayer.places]

theorem ODLayer.after_succ (count : Nat) :
    layer.after rate samples (count + 1) =
      (layer.after rate samples count).trained rate samples count := by
  rw [ODLayer.after, List.range_succ, List.foldl_append, List.foldl_cons, List.foldl_nil]
  rfl

theorem ODLayer.Ready.after (ready : layer.Ready samples) (rate : K) (count : Nat) :
    (layer.after rate samples count).Ready samples ∧
      (layer.after rate samples count).inputSize = layer.inputSize ∧
      (layer.after rate samples count).outputSize = layer.outputSize := by
  induction count with
  | zero => exact ⟨ready, rfl, rfl⟩
  | succ count ih =>
      obtain ⟨stillReady, sameInput, sameOutput⟩ := ih
      have trained := stillReady.trained rate count
      rw [ODLayer.after_succ]
      exact ⟨trained.ready stillReady, trained.inputSize.trans sameInput,
        trained.outputSize.trans sameOutput⟩

/-- The model answers with its layer. -/
theorem OneLayer.predict {model : ODTransferModel K} (one : OneLayer samples model layer)
    (stack : Nat → K) (isClass : c < samples.numClasses) :
    odTransferModelPredict model stack (samples.feature s) samples.inputDim c -
      samples.label s c = layer.error samples s c := by
  rw [odTransferModelPredict, one.layers, List.foldl_cons, List.foldl_nil, ODLayer.error]
  congr 1
  refine (if_pos (isClass.trans_le one.ready.classes)).trans ?_
  exact layerValue_eq (by rw [one.inputSize]) fun i isValue => if_pos isValue

theorem OneLayer.trainSample {model : ODTransferModel K} (one : OneLayer samples model layer)
    (stack : Nat → Nat → K) (epochLoss : K) (s : Nat) :
    trainSample samples stack (model, epochLoss) s =
      ({ model with layers := [layer.trained model.learningRate samples s] },
        epochLoss + ∑ c ∈ Finset.range samples.numClasses, layer.error samples s c ^ 2) := by
  let kept (done : Nat) (state : ODTransferModel K × K) : Prop :=
    state = ({ model with
      layers := [(List.range done).foldl (fun last c => trainClass model.learningRate
        (samples.feature s) samples.inputDim (layer.error samples s c) c last) layer] },
      epochLoss + ∑ c ∈ Finset.range done, layer.error samples s c ^ 2)
  refine RangeLoop.invariant kept ?_ ?_
  · have base : model = { model with layers := [layer] } := by rw [← one.layers]
    simpa [kept] using base
  · rintro done state isTurn rfl
    have isError : odTransferModelPredict model (stack s)
        (fun i => samples.features (s * samples.inputDim + i)) samples.inputDim done -
        samples.labels (s * samples.numClasses + done) = layer.error samples s done :=
      one.predict (stack s) isTurn
    simp only [kept, isError, List.range_succ, List.foldl_append, List.foldl_cons, List.foldl_nil,
      Finset.sum_range_succ, pow_two, add_assoc, List.length_singleton, Nat.sub_self]
    rfl

theorem ODLayer.loss_succ (count : Nat) :
    layer.loss rate samples (count + 1) = layer.loss rate samples count +
      ∑ c ∈ Finset.range samples.numClasses,
        (layer.after rate samples count).error samples count c ^ 2 :=
  Finset.sum_range_succ _ count

theorem OneLayer.after {model : ODTransferModel K} (one : OneLayer samples model layer)
    (count : Nat) :
    OneLayer samples { model with layers := [layer.after model.learningRate samples count] }
      (layer.after model.learningRate samples count) := by
  obtain ⟨ready, sameInput, _⟩ := one.ready.after model.learningRate count
  exact ⟨rfl, sameInput.trans one.inputSize, ready⟩

variable [LinearOrder K]

theorem OneLayer.trainEpoch {model : ODTransferModel K} (one : OneLayer samples model layer)
    (stack : Nat → Nat → K) :
    trainEpoch samples stack model =
      ({ model with
          layers := [layer.after model.learningRate samples samples.numSamples] },
        decide (layer.loss model.learningRate samples samples.numSamples / samples.numSamples <
          1 / (10 : ℕ) ^ 6)) := by
  have folded : (List.range samples.numSamples).foldl (OnDevice.trainSample samples stack)
      (model, 0) =
      ({ model with
          layers := [layer.after model.learningRate samples samples.numSamples] },
        layer.loss model.learningRate samples samples.numSamples) := by
    let kept (done : Nat) (state : ODTransferModel K × K) : Prop :=
      state = ({ model with layers := [layer.after model.learningRate samples done] },
        layer.loss model.learningRate samples done)
    refine RangeLoop.invariant kept ?_ ?_
    · have base : model = { model with layers := [layer] } := by rw [← one.layers]
      simpa [kept, ODLayer.after, ODLayer.loss] using base
    · rintro done state _ rfl
      simp only [kept]
      rw [(one.after done).trainSample, ODLayer.loss_succ, ODLayer.after_succ]
  rw [OnDevice.trainEpoch, folded]

/-- The training, as far as the layer goes. -/
def ODLayer.trainLoop (rate : K) (samples : Samples K) : Nat → ODLayer K → ODLayer K
  | 0, layer => layer
  | epochs + 1, layer =>
      let next := layer.after rate samples samples.numSamples
      if layer.loss rate samples samples.numSamples / samples.numSamples < 1 / (10 : ℕ) ^ 6 then
        next
      else next.trainLoop rate samples epochs

/-- The loss of the epoch ends the training. -/
def ODLayer.Done (rate : K) (samples : Samples K) (layer : ODLayer K) : Prop :=
  layer.loss rate samples samples.numSamples / samples.numSamples < 1 / (10 : ℕ) ^ 6

theorem ODLayer.Done.trainLoop (done : layer.Done rate samples) (epochs : Nat) :
    layer.trainLoop rate samples (epochs + 1) = layer.after rate samples samples.numSamples :=
  if_pos done

theorem ODLayer.trainLoop_of_not_done (goesOn : ¬layer.Done rate samples) (epochs : Nat) :
    layer.trainLoop rate samples (epochs + 1) =
      (layer.after rate samples samples.numSamples).trainLoop rate samples epochs :=
  if_neg goesOn

theorem OneLayer.trainLoop {model : ODTransferModel K} (one : OneLayer samples model layer)
    (stack : Nat → Nat → Nat → K) (epoch epochs : Nat) :
    trainLoop samples stack epoch epochs model =
      { model with layers := [layer.trainLoop model.learningRate samples epochs] } := by
  induction epochs generalizing epoch model layer with
  | zero =>
      rw [OnDevice.trainLoop, ODLayer.trainLoop, ← one.layers]
  | succ epochs ih =>
      rw [OnDevice.trainLoop, one.trainEpoch, ODLayer.trainLoop]
      by_cases done : layer.loss model.learningRate samples samples.numSamples /
          samples.numSamples < 1 / (10 : ℕ) ^ 6
      · simp only [done, decide_true, if_true]
      · simp only [done, decide_false, Bool.false_eq_true, if_false]
        exact ih (one.after samples.numSamples) (epoch + 1)

end Epoch

/-! ### The squared distance to a layer without error -/

section Distance

variable {K : Type*} [Field K]

/-- The squared distance of two layers, over the classes that are trained. -/
def ODLayer.distance (samples : Samples K) (layer target : ODLayer K) : K :=
  ∑ c ∈ Finset.range samples.numClasses,
    LeastMeanSquares.squaredDistance layer.places (layer.vector c) (target.vector c)

/-- The square of what a weight of a sample is multiplied with. -/
def Samples.norm (samples : Samples K) (layer : ODLayer K) (s : Nat) : K :=
  LeastMeanSquares.squaredNorm layer.places (samples.input s)

variable {samples : Samples K} {layer target : ODLayer K} {rate : K}

theorem TrainedBy.distance {s : Nat} {after : ODLayer K}
    (trained : TrainedBy rate samples layer s after) (ready : layer.Ready samples)
    (noError : ∀ c < samples.numClasses, LeastMeanSquares.product layer.places (samples.input s)
      (target.vector c) = samples.label s c) :
    after.distance samples target = layer.distance samples target -
      4 * rate * (1 - rate * samples.norm layer s) *
        ∑ c ∈ Finset.range samples.numClasses, layer.error samples s c ^ 2 := by
  rw [ODLayer.distance, ODLayer.distance, Finset.mul_sum, ← Finset.sum_sub_distrib,
    trained.places]
  refine Finset.sum_congr rfl fun c isClass => ?_
  rw [Finset.mem_range] at isClass
  have moved : LeastMeanSquares.squaredDistance layer.places (after.vector c) (target.vector c) =
      LeastMeanSquares.squaredDistance layer.places
        (LeastMeanSquares.step (rate * 2) (layer.error samples s c) (samples.input s)
          (layer.vector c)) (target.vector c) := by
    refine Finset.sum_congr rfl fun place isPlace => ?_
    rw [trained.vector c (isClass.trans_le ready.classes) place isPlace, if_pos isClass]
  rw [moved, LeastMeanSquares.squaredDistance_step
    (by rw [noError c isClass, ODLayer.error]), Samples.norm]
  ring

theorem TrainedBy.error {s : Nat} {after : ODLayer K}
    (trained : TrainedBy rate samples layer s after)
    (ready : layer.Ready samples) {c : Nat} (isClass : c < samples.numClasses) (other : Nat) :
    after.error samples other c = layer.error samples other c - rate * 2 *
      layer.error samples s c *
        LeastMeanSquares.product layer.places (samples.input other) (samples.input s) := by
  have moved : LeastMeanSquares.product layer.places (samples.input other) (after.vector c) =
      LeastMeanSquares.product layer.places (samples.input other)
        (LeastMeanSquares.step (rate * 2) (layer.error samples s c) (samples.input s)
          (layer.vector c)) := by
    refine Finset.sum_congr rfl fun place isPlace => ?_
    rw [trained.vector c (isClass.trans_le ready.classes) place isPlace, if_pos isClass]
  rw [ODLayer.error, trained.places, moved, LeastMeanSquares.product_step, ODLayer.error,
    ODLayer.error]
  ring

end Distance

/-! ### Training comes to its end -/

section Convergence

variable {K : Type*} [Field K] [LinearOrder K]

/-- Samples that other weights answer without error, at a rate that is small for them. -/
structure Suits (rate bound : K) (samples : Samples K) (target layer : ODLayer K) : Prop where
  ready : layer.Ready samples
  noError : ∀ s < samples.numSamples, ∀ c < samples.numClasses,
    LeastMeanSquares.product layer.places (samples.input s) (target.vector c) = samples.label s c
  small : ∀ s < samples.numSamples, rate * samples.norm layer s ≤ bound

variable {samples : Samples K} {layer target : ODLayer K} {rate bound : K} {count s c : Nat}

theorem Suits.of_size {other : ODLayer K} (suits : Suits rate bound samples target layer)
    (ready : other.Ready samples) (sameSize : other.inputSize = layer.inputSize) :
    Suits rate bound samples target other := by
  have samePlaces : other.places = layer.places := by rw [ODLayer.places, sameSize, ODLayer.places]
  refine ⟨ready, fun s isSample c isClass => ?_, fun s isSample => ?_⟩
  · rw [samePlaces]
    exact suits.noError s isSample c isClass
  · rw [Samples.norm, samePlaces]
    exact suits.small s isSample

theorem Suits.after (suits : Suits rate bound samples target layer) (count : Nat) :
    Suits rate bound samples target (layer.after rate samples count) := by
  obtain ⟨ready, sameInput, _⟩ := suits.ready.after rate count
  exact suits.of_size ready sameInput

variable [IsStrictOrderedRing K]

/-- Every sample takes the layer nearer to the one without error, by what its errors are. -/
theorem Suits.distance_after (suits : Suits rate bound samples target layer) (positive : 0 < rate)
    (inEpoch : count ≤ samples.numSamples) :
    (layer.after rate samples count).distance samples target +
      4 * rate * (1 - bound) * layer.loss rate samples count ≤ layer.distance samples target := by
  induction count with
  | zero => simp [ODLayer.after, ODLayer.loss]
  | succ count ih =>
      have before := suits.after count
      have moved := (before.ready.trained rate count).distance before.ready
        (before.noError count inEpoch)
      have square : 0 ≤ ∑ c ∈ Finset.range samples.numClasses,
          (layer.after rate samples count).error samples count c ^ 2 :=
        Finset.sum_nonneg fun _ _ => sq_nonneg _
      have paid := mul_le_mul_of_nonneg_right
        (mul_le_mul_of_nonneg_left (sub_le_sub_left (before.small count inEpoch) 1)
          (by positivity : 0 ≤ 4 * rate)) square
      rw [ODLayer.after_succ, moved, ODLayer.loss_succ, mul_add]
      linarith [ih (Nat.le_of_succ_le inEpoch)]

theorem Suits.crossed (suits : Suits rate bound samples target layer) (positive : 0 < rate)
    {other : Nat} (isSample : s < samples.numSamples) (isOther : other < samples.numSamples) :
    rate * |LeastMeanSquares.product layer.places (samples.input s) (samples.input other)| ≤
      bound := by
  have apart := mul_le_mul_of_nonneg_left (@LeastMeanSquares.product_le K _ _ _ _ layer.places
    (samples.input s) (samples.input other)) positive.le
  have first := suits.small s isSample
  have second := suits.small other isOther
  rw [Samples.norm] at first second
  linarith

/-- A sample changes the error of another one by at most twice its own. -/
theorem Suits.error_other {after : ODLayer K} (suits : Suits rate bound samples target layer)
    (positive : 0 < rate) (less : bound < 1) (trained : TrainedBy rate samples layer count after)
    (isClass : c < samples.numClasses) (isSample : s < samples.numSamples)
    (isTurn : count < samples.numSamples) :
    |after.error samples s c| ≤
      |layer.error samples s c| + 2 * |layer.error samples count c| := by
  set product := LeastMeanSquares.product layer.places (samples.input s) (samples.input count)
    with isProduct
  have crossed : rate * |product| ≤ 1 := (suits.crossed positive isSample isTurn).trans less.le
  have size : |rate * 2 * layer.error samples count c * product| =
      rate * |product| * (2 * |layer.error samples count c|) := by
    rw [abs_mul, abs_mul, abs_mul, abs_of_pos positive, abs_two]
    ring
  rw [trained.error suits.ready isClass s, ← isProduct]
  calc
    |layer.error samples s c - rate * 2 * layer.error samples count c * product|
      ≤ |layer.error samples s c| + |rate * 2 * layer.error samples count c * product| :=
        abs_sub _ _
    _ = |layer.error samples s c| + rate * |product| * (2 * |layer.error samples count c|) := by
        rw [size]
    _ ≤ |layer.error samples s c| + 1 * (2 * |layer.error samples count c|) := by
        gcongr
    _ = |layer.error samples s c| + 2 * |layer.error samples count c| := by rw [one_mul]

/-- A sample does not enlarge its own error. -/
theorem Suits.error_own {after : ODLayer K} (suits : Suits rate bound samples target layer)
    (positive : 0 < rate) (less : bound < 1) (trained : TrainedBy rate samples layer s after)
    (isClass : c < samples.numClasses) (isSample : s < samples.numSamples) :
    |after.error samples s c| ≤ |layer.error samples s c| := by
  have small := (suits.small s isSample).trans less.le
  have nonnegative : 0 ≤ rate * samples.norm layer s :=
    mul_nonneg positive.le (LeastMeanSquares.squaredNorm_nonneg _ _)
  have factor : after.error samples s c =
      (1 - 2 * (rate * samples.norm layer s)) * layer.error samples s c := by
    rw [trained.error suits.ready isClass s, LeastMeanSquares.product_self, Samples.norm]
    ring
  rw [factor, abs_mul]
  apply mul_le_of_le_one_left (abs_nonneg _)
  rw [abs_le]
  constructor <;> linarith

/-- What an epoch leaves of the errors is at most twice what it saw of them. -/
theorem Suits.error_after (suits : Suits rate bound samples target layer) (positive : 0 < rate)
    (less : bound < 1) (isClass : c < samples.numClasses) (inEpoch : count ≤ samples.numSamples)
    (seen : s < count) :
    |(layer.after rate samples count).error samples s c| ≤
      2 * ∑ turn ∈ Finset.range count, |(layer.after rate samples turn).error samples turn c| := by
  induction count with
  | zero => exact absurd seen (Nat.not_lt_zero s)
  | succ count ih =>
      have before := suits.after count
      have trained := before.ready.trained rate count
      have past : 0 ≤ ∑ turn ∈ Finset.range count,
          |(layer.after rate samples turn).error samples turn c| :=
        Finset.sum_nonneg fun _ _ => abs_nonneg _
      rw [ODLayer.after_succ, Finset.sum_range_succ, mul_add]
      rcases Nat.lt_succ_iff_lt_or_eq.mp seen with isPast | rfl
      · have changed := before.error_other positive less trained isClass (by omega : s < _) inEpoch
        linarith [ih (Nat.le_of_succ_le inEpoch) isPast]
      · have kept := before.error_own positive less trained isClass inEpoch
        linarith [abs_nonneg ((layer.after rate samples s).error samples s c)]

/-- The square of what an epoch saw of the errors of a class. -/
theorem ODLayer.sq_seen_le (isClass : c < samples.numClasses) :
    (∑ turn ∈ Finset.range count, |(layer.after rate samples turn).error samples turn c|) ^ 2 ≤
      count * layer.loss rate samples count := by
  have squares := @sq_sum_le_card_mul_sum_sq Nat K _ _ _ _ (Finset.range count)
    fun turn => |(layer.after rate samples turn).error samples turn c|
  rw [Finset.card_range] at squares
  refine squares.trans (mul_le_mul_of_nonneg_left ?_ (Nat.cast_nonneg count))
  refine Finset.sum_le_sum fun turn _ => ?_
  rw [sq_abs]
  exact Finset.single_le_sum
    (fun c _ => sq_nonneg ((layer.after rate samples turn).error samples turn c))
    (Finset.mem_range.mpr isClass)

/-- More epochs take the layer no further away. -/
theorem Suits.distance_trainLoop_succ (suits : Suits rate bound samples target layer)
    (positive : 0 < rate) (less : bound < 1) (epochs : Nat) :
    (layer.trainLoop rate samples (epochs + 1)).distance samples target ≤
      (layer.trainLoop rate samples epochs).distance samples target := by
  induction epochs generalizing layer with
  | zero =>
      have paid := suits.distance_after positive le_rfl
      have losses : 0 ≤ layer.loss rate samples samples.numSamples :=
        Finset.sum_nonneg fun _ _ => Finset.sum_nonneg fun _ _ => sq_nonneg _
      have price : 0 ≤ 4 * rate * (1 - bound) :=
        mul_nonneg (by positivity) (sub_nonneg.mpr less.le)
      have nearer : (layer.after rate samples samples.numSamples).distance samples target ≤
          layer.distance samples target := by
        linarith [mul_nonneg price losses]
      simp only [ODLayer.trainLoop, ite_self]
      exact nearer
  | succ epochs ih =>
      by_cases done : layer.Done rate samples
      · rw [done.trainLoop, done.trainLoop]
      · rw [ODLayer.trainLoop_of_not_done done, ODLayer.trainLoop_of_not_done done]
        exact ih (suits.after samples.numSamples)

/-- The layer is what an epoch with a small loss left. -/
def Finished (rate bound : K) (samples : Samples K) (target layer : ODLayer K) : Prop :=
  ∃ before, Suits rate bound samples target before ∧
    layer = before.after rate samples samples.numSamples ∧ before.Done rate samples

/-- Epochs that do not finish cost a fixed part of the distance, so that there are not many. -/
theorem Suits.trainLoop_finished (suits : Suits rate bound samples target layer)
    (positive : 0 < rate) (less : bound < 1) (someSample : 0 < samples.numSamples) {epochs : Nat}
    (enough : layer.distance samples target <
      4 * rate * (1 - bound) * samples.numSamples * (1 / 10 ^ 6) * epochs) :
    Finished rate bound samples target (layer.trainLoop rate samples epochs) ∧
      ∀ more, layer.trainLoop rate samples (epochs + more) =
        layer.trainLoop rate samples epochs := by
  induction epochs generalizing layer with
  | zero =>
      have nonnegative : 0 ≤ layer.distance samples target :=
        Finset.sum_nonneg fun _ _ => LeastMeanSquares.squaredDistance_nonneg _ _ _
      rw [Nat.cast_zero, mul_zero] at enough
      exact absurd enough nonnegative.not_gt
  | succ epochs ih =>
      by_cases done : layer.Done rate samples
      · refine ⟨⟨layer, suits, done.trainLoop epochs, done⟩, fun more => ?_⟩
        rw [Nat.add_right_comm, done.trainLoop, done.trainLoop]
      · have count : (0 : K) < samples.numSamples := Nat.cast_pos.mpr someSample
        have paid := suits.distance_after positive le_rfl
        have price : 0 < 4 * rate * (1 - bound) :=
          mul_pos (by positivity) (sub_pos.mpr less)
        have large : samples.numSamples * (1 / 10 ^ 6) ≤
            layer.loss rate samples samples.numSamples := by
          rw [ODLayer.Done, not_lt, le_div_iff₀ count, Nat.cast_ofNat] at done
          rwa [mul_comm]
        have cost := mul_le_mul_of_nonneg_left large price.le
        obtain ⟨finished, stays⟩ := ih (suits.after samples.numSamples) (by
          rw [Nat.cast_succ] at enough
          linarith)
        rw [ODLayer.trainLoop_of_not_done done]
        refine ⟨finished, fun more => ?_⟩
        rw [Nat.add_right_comm, ODLayer.trainLoop_of_not_done done, stays]

/-- The answers after the last epoch are near to their labels. -/
theorem Finished.error_lt (finished : Finished rate bound samples target layer)
    (positive : 0 < rate) (less : bound < 1) (isSample : s < samples.numSamples)
    (isClass : c < samples.numClasses) :
    |layer.error samples s c| < samples.numSamples / 500 := by
  obtain ⟨before, suits, rfl, done⟩ := finished
  have count : (0 : K) < samples.numSamples := Nat.cast_pos.mpr (Nat.zero_lt_of_lt isSample)
  set seen := ∑ turn ∈ Finset.range samples.numSamples,
    |(before.after rate samples turn).error samples turn c|
  have squares : seen ^ 2 < (samples.numSamples / 1000) ^ 2 := by
    rw [ODLayer.Done, div_lt_iff₀ count, Nat.cast_ofNat] at done
    have known := @ODLayer.sq_seen_le K _ _ samples before rate samples.numSamples c _ isClass
    have product := mul_lt_mul_of_pos_left done count
    calc
      seen ^ 2 ≤ samples.numSamples * before.loss rate samples samples.numSamples := known
      _ < samples.numSamples * (1 / 10 ^ 6 * samples.numSamples) := product
      _ = (samples.numSamples / 1000) ^ 2 := by ring
  have short := abs_lt_of_sq_lt_sq squares (by positivity)
  have total := suits.error_after positive less isClass le_rfl isSample
  linarith [le_abs_self seen]

end Convergence

end OnDevice

end Ai

end MiniIotRobotEdge

import Mathlib.Data.List.Induction
import Mathlib.Data.List.OfFn
import Mathlib.Logic.Function.Basic
import Mathlib.Order.Lattice
import MiniIotRobotEdge.CircularBuffer

/-!
# The wake word detector

The model of the sliding window, the post-processor and the detector in
`wake_word.c` of mini-tinyml.  The coefficients of a frame and the two
probabilities of a window are functions of the samples and of the features,
and stand for the extractor and the loaded model; probabilities are compared
only.  Times are exact.  Frames are cut from each buffer of samples by itself.
-/

namespace MiniIotRobotEdge

namespace Ai

open CircularBuffer SlidingWindows

def wakeWordMfccNumCoeffs : Nat := 13
def wakeWordMaxHistoryFrames : Nat := 256
def wakeWordSlidingWindowMs : Nat := 1000
def wakeWordMfccFrameStepMs : Nat := 10
def wakeWordMinActivationMs : Int := 200
/-- `recent_detections[16]`. -/
def recentDetectionsSize : Nat := 16

inductive WakeWordState
  | idle
  | listening
  | detected
  | activated
  | postProcessing
  deriving DecidableEq, Repr

/-- The keywords that `postprocessor_process` writes. -/
inductive WakeWordKeyword
  | heyDevice
  | unknown
  deriving DecidableEq, Repr

/-- The coefficients of an `MFCCFrame`. -/
abbrev MfccFrame (F : Type*) := Fin wakeWordMfccNumCoeffs → F

section Functions

variable {Sample F : Type*}

structure WakeWordDetection (F : Type*) where
  keyword : WakeWordKeyword
  probability : F
  timestampMs : Int

structure SlidingWindow (F : Type*) where
  frames : Nat → MfccFrame F
  windowSize : Nat
  currentIndex : Nat
  probabilities : F × F
  maxProbabilityValue : F

structure PostProcessor (F : Type*) where
  recentDetections : List (WakeWordDetection F)
  minActivationMs : Int
  activationCount : Nat
  deactivationCount : Nat
  lastActivationTime : Int

structure WakeWordDetector (F : Type*) where
  window : SlidingWindow F
  postproc : PostProcessor F
  state : WakeWordState
  currentTimeMs : Int
  probabilityThreshold : F

/-- What a detector is made with; `probThreshold` is `WAKE_WORD_PROB_THRESHOLD`. -/
structure WakeWordConfig (Sample F : Type*) where
  sampleRate : Nat
  frameLengthSamples : Nat
  frameStepSamples : Nat
  mfcc : List Sample → MfccFrame F
  predict : List F → F × F
  probThreshold : F

def slidingWindowCreate [Zero F] (windowSizeMs frameStepMs : Nat) : SlidingWindow F where
  frames := fun _ _ => 0
  windowSize := min (max (windowSizeMs / frameStepMs) 1) wakeWordMaxHistoryFrames
  currentIndex := 0
  probabilities := (0, 0)
  maxProbabilityValue := 0

def slidingWindowPush (window : SlidingWindow F) (frame : MfccFrame F) : SlidingWindow F :=
  { window with
    frames := Function.update window.frames (window.currentIndex % wakeWordMaxHistoryFrames) frame
    currentIndex := window.currentIndex + 1 }

/-- The features written; the two loops end with the last one that fits. -/
def slidingWindowGetFeatures (window : SlidingWindow F) (maxFeatures : Nat) : List F :=
  let start := window.currentIndex - window.windowSize
  ((List.range (window.currentIndex - start)).flatMap fun turn =>
    List.ofFn (window.frames ((start + turn) % wakeWordMaxHistoryFrames))).take maxFeatures

def slidingWindowIsFull (window : SlidingWindow F) : Bool := window.windowSize ≤ window.currentIndex

def slidingWindowReset [Zero F] (window : SlidingWindow F) : SlidingWindow F :=
  { window with
    currentIndex := 0
    frames := fun _ _ => 0
    probabilities := (0, 0)
    maxProbabilityValue := 0 }

def postprocessorCreate (minActivationMs : Int) : PostProcessor F where
  recentDetections := []
  minActivationMs := minActivationMs
  activationCount := 0
  deactivationCount := 0
  lastActivationTime := 0

/-- `postprocessor_process` for the two probabilities that the detector gives it. -/
def postprocessorProcess [LinearOrder F] (probThreshold : F) (postproc : PostProcessor F)
    (probabilities : F × F) (timestampMs : Int) : PostProcessor F :=
  let later : Prop := probabilities.1 < probabilities.2
  let maxP := if later then probabilities.2 else probabilities.1
  if probThreshold ≤ maxP then
    { postproc with
      activationCount := postproc.activationCount + 1
      recentDetections :=
        if postproc.recentDetections.length < recentDetectionsSize then
          postproc.recentDetections ++ [⟨if later then .unknown else .heyDevice, maxP, timestampMs⟩]
        else postproc.recentDetections
      lastActivationTime := timestampMs }
  else { postproc with deactivationCount := postproc.deactivationCount + 1 }

def postprocessorIgnoreShortActivation (postproc : PostProcessor F) (currentTimeMs : Int) :
    PostProcessor F × Bool :=
  let sinceLast := currentTimeMs - postproc.lastActivationTime
  if postproc.minActivationMs < sinceLast then
    ({ postproc with activationCount := 0, deactivationCount := 0 }, true)
  else (postproc, sinceLast < postproc.minActivationMs)

def postprocessorReset (postproc : PostProcessor F) : PostProcessor F :=
  { postproc with
    recentDetections := []
    activationCount := 0
    deactivationCount := 0
    lastActivationTime := 0 }

variable [LinearOrder F] (cfg : WakeWordConfig Sample F)

/-- `wake_word_detector_create` and `wake_word_detector_init`. -/
def wakeWordDetectorInit [Zero F] : WakeWordDetector F where
  window := slidingWindowCreate wakeWordSlidingWindowMs wakeWordMfccFrameStepMs
  postproc := postprocessorCreate wakeWordMinActivationMs
  state := .listening
  currentTimeMs := 0
  probabilityThreshold := cfg.probThreshold

/-- `frame_step * 1000 / detector->sample_rate`. -/
def WakeWordConfig.frameStepMs (cfg : WakeWordConfig Sample F) : Nat :=
  cfg.frameStepSamples * 1000 / cfg.sampleRate

/-- A turn of the loop in `wake_word_detector_process_samples`. -/
def processFrame (detector : WakeWordDetector F) (samples : List Sample) : WakeWordDetector F :=
  let window := slidingWindowPush detector.window (cfg.mfcc samples)
  if slidingWindowIsFull window then
    let features :=
      slidingWindowGetFeatures window (wakeWordMaxHistoryFrames * wakeWordMfccNumCoeffs)
    let probs := cfg.predict features
    let currentTimeMs := detector.currentTimeMs + cfg.frameStepMs
    let postproc := postprocessorProcess cfg.probThreshold detector.postproc probs currentTimeMs
    let maxP := if probs.2 < probs.1 then probs.1 else probs.2
    let window := { window with probabilities := probs, maxProbabilityValue := maxP }
    if detector.probabilityThreshold ≤ maxP then
      let ignored := postprocessorIgnoreShortActivation postproc currentTimeMs
      { detector with
        window := window
        postproc := ignored.1
        currentTimeMs := currentTimeMs
        state := if ignored.2 then .detected else .activated }
    else
      { detector with window := window, postproc := postproc, currentTimeMs := currentTimeMs }
  else { detector with window := window }

/-- The loop over the samples from `pos` on; there is no result without fuel. -/
def processLoop : Nat → List Sample → WakeWordDetector F → Option (WakeWordDetector F)
  | 0, _, _ => none
  | fuel + 1, samples, detector =>
      if cfg.frameLengthSamples ≤ samples.length then
        processLoop fuel (samples.drop cfg.frameStepSamples)
          (processFrame cfg detector (samples.take cfg.frameLengthSamples))
      else some detector

def wakeWordDetectorProcessSamples (detector : WakeWordDetector F) (samples : List Sample) :
    Option (WakeWordDetector F) :=
  processLoop cfg (samples.length + 1) samples { detector with state := .listening }

def wakeWordDetectorReset [Zero F] (detector : WakeWordDetector F) : WakeWordDetector F :=
  { detector with
    window := slidingWindowReset detector.window
    postproc := postprocessorReset detector.postproc
    state := .idle
    currentTimeMs := 0 }

def wakeWordDetectorIsAwake (detector : WakeWordDetector F) : Bool := detector.state = .activated

inductive WakeWordCall (Sample F : Type*)
  | processSamples (samples : List Sample)
  | setThreshold (threshold : F)
  | reset

def wakeWordCall [Zero F] (detector : WakeWordDetector F) :
    WakeWordCall Sample F → Option (WakeWordDetector F)
  | .processSamples samples => wakeWordDetectorProcessSamples cfg detector samples
  | .setThreshold threshold => some { detector with probabilityThreshold := threshold }
  | .reset => some (wakeWordDetectorReset detector)

end Functions

section Specification

variable {Sample F : Type*} (cfg : WakeWordConfig Sample F)

/-- The samples of the frames in a buffer, every step one. -/
def frameSamples (samples : List Sample) : List (List Sample) :=
  let count := if cfg.frameLengthSamples ≤ samples.length then
    (samples.length - cfg.frameLengthSamples) / cfg.frameStepSamples + 1 else 0
  (List.range count).map fun turn =>
    (samples.drop (turn * cfg.frameStepSamples)).take cfg.frameLengthSamples

/-- All frames since the last reset. -/
def framesSince (frames : List (MfccFrame F)) : WakeWordCall Sample F → List (MfccFrame F)
  | .processSamples samples => frames ++ (frameSamples cfg samples).map cfg.mfcc
  | .setThreshold _ => frames
  | .reset => []

def framesAfter (calls : List (WakeWordCall Sample F)) : List (MfccFrame F) :=
  calls.foldl (framesSince cfg) []

def windowFrames : Nat := 100

/-- The coefficients of the newest frames, oldest first. -/
def windowFeatures (frames : List (MfccFrame F)) : List F :=
  (newest windowFrames frames).flatMap List.ofFn

/-- The probabilities for every frame that filled a window. -/
def scores (frames : List (MfccFrame F)) : List (F × F) :=
  (List.range (frames.length + 1 - windowFrames)).map fun turn =>
    cfg.predict (windowFeatures (frames.take (windowFrames + turn)))

variable [LinearOrder F]

/-- The detection of a score, which is the given one since the reset. -/
def scoreDetection (score : (F × F) × Nat) : Option (WakeWordDetection F) :=
  if cfg.probThreshold ≤ max score.1.1 score.1.2 then
    some ⟨if score.1.1 < score.1.2 then .unknown else .heyDevice, max score.1.1 score.1.2,
      (score.2 * cfg.frameStepMs : Nat)⟩
  else none

/-- The first detections since the reset. -/
def detections (frames : List (MfccFrame F)) : List (WakeWordDetection F) :=
  (((scores cfg frames).zipIdx 1).filterMap (scoreDetection cfg)).take recentDetectionsSize

end Specification

section Frames

variable {Sample F : Type*} {cfg : WakeWordConfig Sample F} {samples : List Sample}

theorem frameSamples_of_lt (short : samples.length < cfg.frameLengthSamples) :
    frameSamples cfg samples = [] := by
  rw [frameSamples, if_neg (not_le.mpr short)]
  rfl

theorem frameSamples_of_le (lengthPos : 0 < cfg.frameLengthSamples)
    (stepPos : 0 < cfg.frameStepSamples) (long : cfg.frameLengthSamples ≤ samples.length) :
    frameSamples cfg samples =
      samples.take cfg.frameLengthSamples ::
        frameSamples cfg (samples.drop cfg.frameStepSamples) := by
  have count : (if cfg.frameLengthSamples ≤ samples.length - cfg.frameStepSamples then
      (samples.length - cfg.frameStepSamples - cfg.frameLengthSamples) / cfg.frameStepSamples + 1
      else 0) = (samples.length - cfg.frameLengthSamples) / cfg.frameStepSamples := by
    split_ifs with again
    · rw [Nat.div_eq_sub_div stepPos
        (show cfg.frameStepSamples ≤ samples.length - cfg.frameLengthSamples by omega)]
      congr 2
      omega
    · exact (Nat.div_eq_of_lt (by omega)).symm
  rw [frameSamples, frameSamples, if_pos long, List.length_drop, count, List.range_succ_eq_map,
    List.map_cons, List.map_map, Nat.zero_mul, List.drop_zero]
  congr 1
  apply List.map_congr_left
  intro turn _
  rw [Function.comp_apply, List.drop_drop, Nat.succ_mul, Nat.add_comm]

variable [LinearOrder F]

/-- The loop goes through the frames; by induction on the fuel. -/
theorem processLoop_eq (lengthPos : 0 < cfg.frameLengthSamples)
    (stepPos : 0 < cfg.frameStepSamples) {fuel : Nat} (enough : samples.length < fuel)
    (detector : WakeWordDetector F) :
    processLoop cfg fuel samples detector =
      some ((frameSamples cfg samples).foldl (processFrame cfg) detector) := by
  induction fuel generalizing samples detector with
  | zero => exact absurd enough (Nat.not_lt_zero _)
  | succ fuel ih =>
      rw [processLoop]
      split_ifs with long
      · rw [frameSamples_of_le lengthPos stepPos long, List.foldl_cons]
        exact ih (by rw [List.length_drop]; omega) _
      · rw [frameSamples_of_lt (not_le.mp long), List.foldl_nil]

end Frames

section Scores

variable {Sample F : Type*} (cfg : WakeWordConfig Sample F) {frames : List (MfccFrame F)}
  (frame : MfccFrame F)

theorem scores_concat_of_lt (few : frames.length + 1 < windowFrames) :
    scores cfg (frames ++ [frame]) = scores cfg frames := by
  have before : frames.length + 1 - windowFrames = 0 := by omega
  have after : frames.length + 1 + 1 - windowFrames = 0 := by omega
  simp only [scores, List.length_append, List.length_singleton, before, after, List.range_zero,
    List.map_nil]

/-- A frame that fills a window adds its score. -/
theorem scores_concat_of_le (full : windowFrames ≤ frames.length + 1) :
    scores cfg (frames ++ [frame]) =
      scores cfg frames ++ [cfg.predict (windowFeatures (frames ++ [frame]))] := by
  have whole : (frames ++ [frame]).take (windowFrames + (frames.length + 1 - windowFrames)) =
      frames ++ [frame] := by
    apply List.take_of_length_le
    rw [List.length_append, List.length_singleton]
    omega
  have earlier : (List.range (frames.length + 1 - windowFrames)).map (fun turn =>
      cfg.predict (windowFeatures ((frames ++ [frame]).take (windowFrames + turn)))) =
      scores cfg frames := by
    apply List.map_congr_left
    intro turn inRange
    have before := List.mem_range.mp inRange
    rw [List.take_append_of_le_length (by omega)]
  rw [scores, List.length_append, List.length_singleton, Nat.succ_sub full, List.range_succ,
    List.map_append, List.map_singleton, earlier, whole]

/-- Items behind a full list are cut off. -/
theorem take_append_take {α : Type*} (items more : List α) (count : Nat) :
    (items.take count ++ more).take count = (items ++ more).take count := by
  rw [List.take_append, List.take_append, List.take_take, Nat.min_self, List.length_take]
  by_cases full : count ≤ items.length
  · rw [Nat.min_eq_left full, Nat.sub_self, Nat.sub_eq_zero_of_le full]
  · rw [Nat.min_eq_right (Nat.le_of_not_le full)]

variable [LinearOrder F]

theorem detections_concat_of_le (full : windowFrames ≤ frames.length + 1) :
    detections cfg (frames ++ [frame]) =
      (detections cfg frames ++ (scoreDetection cfg
        (cfg.predict (windowFeatures (frames ++ [frame])), (scores cfg frames).length + 1)).toList).take
          recentDetectionsSize := by
  rw [detections, detections, scores_concat_of_le cfg frame full, List.zipIdx_append, List.filterMap_append,
    take_append_take]
  congr 2
  rw [Nat.add_comm, List.zipIdx_singleton, List.filterMap_cons, List.filterMap_nil]
  cases scoreDetection cfg
    (cfg.predict (windowFeatures (frames ++ [frame])), (scores cfg frames).length + 1) <;> rfl

theorem detections_concat_of_lt (few : frames.length + 1 < windowFrames) :
    detections cfg (frames ++ [frame]) = detections cfg frames := by
  rw [detections, detections, scores_concat_of_lt cfg frame few]

end Scores

section Hearing

variable {Sample F : Type*}

/-- The window shows the frames since the last reset. -/
structure ShowsFrames (window : SlidingWindow F) (frames : List (MfccFrame F)) : Prop where
  retains : Retains window.frames wakeWordMaxHistoryFrames frames
  windowSize : window.windowSize = windowFrames
  currentIndex : window.currentIndex = frames.length

variable {window : SlidingWindow F} {frames : List (MfccFrame F)}

theorem ShowsFrames.push (shows : ShowsFrames window frames) (frame : MfccFrame F) :
    ShowsFrames (slidingWindowPush window frame) (frames ++ [frame]) where
  retains := by
    rw [slidingWindowPush, shows.currentIndex]
    refine shows.retains.push (by decide) (Function.update_self _ _ _) ?_
    intro position _ other
    exact Function.update_of_ne other _ _
  windowSize := shows.windowSize
  currentIndex := by
    rw [List.length_append, List.length_singleton, ← shows.currentIndex]
    rfl

theorem ShowsFrames.features (shows : ShowsFrames window frames) (maxFeatures : Nat) :
    slidingWindowGetFeatures window maxFeatures = (windowFeatures frames).take maxFeatures := by
  have recent : frames.length ≤ frames.length - windowFrames + wakeWordMaxHistoryFrames := by
    unfold windowFrames wakeWordMaxHistoryFrames
    omega
  have shown := shows.retains.contents_eq recent (Nat.sub_le _ _)
  rw [slidingWindowGetFeatures, shows.windowSize, shows.currentIndex, windowFeatures, newest,
    ← shown, contents, List.flatMap_map]

theorem windowFeatures_take (frames : List (MfccFrame F)) :
    (windowFeatures frames).take (wakeWordMaxHistoryFrames * wakeWordMfccNumCoeffs) =
      windowFeatures frames := by
  apply List.take_of_length_le
  have count : (newest windowFrames frames).length ≤ wakeWordMaxHistoryFrames := by
    rw [length_newest]
    exact (Nat.min_le_right _ _).trans (by decide)
  have each : ((newest windowFrames frames).map fun frame => (List.ofFn frame).length) =
      List.replicate (newest windowFrames frames).length wakeWordMfccNumCoeffs := by
    simp only [List.length_ofFn, List.map_const']
  rw [windowFeatures, List.length_flatMap, each, List.sum_replicate_nat]
  exact Nat.mul_le_mul_right _ count

theorem ignoreShort_detections (postproc : PostProcessor F) (currentTimeMs : Int) :
    (postprocessorIgnoreShortActivation postproc currentTimeMs).1.recentDetections =
      postproc.recentDetections := by
  rw [postprocessorIgnoreShortActivation]
  split_ifs <;> rfl

variable [LinearOrder F] {cfg : WakeWordConfig Sample F} {detector : WakeWordDetector F}

/-- The detection of a score is put behind the earlier ones while there is space. -/
theorem postprocessorProcess_detections (cfg : WakeWordConfig Sample F) (postproc : PostProcessor F) (score : F × F) (number : Nat)
    (bounded : postproc.recentDetections.length ≤ recentDetectionsSize) :
    (postprocessorProcess cfg.probThreshold postproc score
        (number * cfg.frameStepMs : Nat)).recentDetections =
      (postproc.recentDetections ++ (scoreDetection cfg (score, number)).toList).take
        recentDetectionsSize := by
  have best : (if score.1 < score.2 then score.2 else score.1) = max score.1 score.2 := by
    split_ifs with later
    · exact (max_eq_right later.le).symm
    · exact (max_eq_left (not_lt.mp later)).symm
  rw [postprocessorProcess, scoreDetection, best]
  by_cases likely : cfg.probThreshold ≤ max score.1 score.2
  · rw [if_pos likely, if_pos likely]
    dsimp only
    rw [Option.toList_some]
    by_cases space : postproc.recentDetections.length < recentDetectionsSize
    · rw [if_pos space, List.take_of_length_le]
      rw [List.length_append, List.length_singleton]
      exact space
    · rw [if_neg space, List.take_append_of_le_length (not_lt.mp space),
        List.take_of_length_le bounded]
  · rw [if_neg likely, if_neg likely, Option.toList_none, List.append_nil,
      List.take_of_length_le bounded]

variable [Zero F]

/-- What a detector has made of the frames since the last reset. -/
structure Heard (cfg : WakeWordConfig Sample F) (detector : WakeWordDetector F)
    (frames : List (MfccFrame F)) : Prop where
  shows : ShowsFrames detector.window frames
  probabilities : detector.window.probabilities = ((scores cfg frames).getLast?).getD (0, 0)
  time : detector.currentTimeMs = ((scores cfg frames).length * cfg.frameStepMs : Nat)
  recentDetections : detector.postproc.recentDetections = detections cfg frames

theorem Heard.processFrame (heard : Heard cfg detector frames) (samples : List Sample) :
    Heard cfg (processFrame cfg detector samples) (frames ++ [cfg.mfcc samples]) := by
  have shows := heard.shows.push (cfg.mfcc samples)
  have isFull : slidingWindowIsFull (slidingWindowPush detector.window (cfg.mfcc samples)) =
      decide (windowFrames ≤ frames.length + 1) := by
    rw [slidingWindowIsFull, shows.windowSize, shows.currentIndex, List.length_append,
      List.length_singleton]
  rw [Ai.processFrame]
  by_cases full : windowFrames ≤ frames.length + 1
  · rw [if_pos (by rw [isFull]; exact decide_eq_true full), shows.features, windowFeatures_take]
    dsimp only
    have scored := scores_concat_of_le cfg (cfg.mfcc samples) full
    have detected := detections_concat_of_le cfg (cfg.mfcc samples) full
    generalize cfg.predict (windowFeatures (frames ++ [cfg.mfcc samples])) = score at *
    have time : detector.currentTimeMs + cfg.frameStepMs =
        (((scores cfg frames).length + 1) * cfg.frameStepMs : Nat) := by
      rw [heard.time, Nat.succ_mul, Int.natCast_add]
    have found := postprocessorProcess_detections cfg detector.postproc score
      ((scores cfg frames).length + 1) (by rw [heard.recentDetections]; exact List.length_take_le _ _)
    rw [heard.recentDetections, ← detected] at found
    have last : score = ((scores cfg (frames ++ [cfg.mfcc samples])).getLast?).getD (0, 0) := by
      rw [scored, List.getLast?_concat, Option.getD_some]
    have count : (scores cfg (frames ++ [cfg.mfcc samples])).length =
        (scores cfg frames).length + 1 := by
      rw [scored, List.length_append, List.length_singleton]
    rw [time]
    generalize (if score.2 < score.1 then score.1 else score.2) = maxP
    by_cases likely : detector.probabilityThreshold ≤ maxP
    · rw [if_pos likely]
      refine ⟨⟨shows.retains, shows.windowSize, shows.currentIndex⟩, last, by rw [count], ?_⟩
      rw [ignoreShort_detections]
      exact found
    · rw [if_neg likely]
      exact ⟨⟨shows.retains, shows.windowSize, shows.currentIndex⟩, last, by rw [count], found⟩
  · rw [if_neg (by rw [isFull]; simpa using full)]
    have scored := scores_concat_of_lt cfg (cfg.mfcc samples) (not_le.mp full)
    refine ⟨shows, ?_, ?_, ?_⟩
    · rw [scored]
      exact heard.probabilities
    · rw [scored]
      exact heard.time
    · rw [detections_concat_of_lt cfg (cfg.mfcc samples) (not_le.mp full)]
      exact heard.recentDetections

theorem Heard.withState (heard : Heard cfg detector frames) (state : WakeWordState) :
    Heard cfg { detector with state := state } frames :=
  ⟨heard.shows, heard.probabilities, heard.time, heard.recentDetections⟩

theorem Heard.processFrames (heard : Heard cfg detector frames) (buffer : List (List Sample)) :
    Heard cfg (buffer.foldl (Ai.processFrame cfg) detector) (frames ++ buffer.map cfg.mfcc) := by
  induction buffer generalizing detector frames with
  | nil => simpa using heard
  | cons samples rest ih =>
      have next := ih (heard.processFrame samples)
      rwa [List.append_assoc] at next

theorem heard_cleared (window : SlidingWindow F) (postproc : PostProcessor F)
    (windowSize : window.windowSize = windowFrames) (currentIndex : window.currentIndex = 0)
    (probabilities : window.probabilities = (0, 0)) (none : postproc.recentDetections = [])
    (state : WakeWordState) (threshold : F) :
    Heard cfg ⟨window, postproc, state, 0, threshold⟩ [] where
  shows := ⟨Retains.nil, windowSize, currentIndex⟩
  probabilities := probabilities
  time := by
    rw [scores, List.length_map, List.length_range]
    exact (congrArg Int.ofNat (Nat.zero_mul _)).symm
  recentDetections := none

theorem Heard.call (heard : Heard cfg detector frames) (lengthPos : 0 < cfg.frameLengthSamples)
    (stepPos : 0 < cfg.frameStepSamples) (call : WakeWordCall Sample F) :
    ∃ next, wakeWordCall cfg detector call = some next ∧
      Heard cfg next (framesSince cfg frames call) := by
  cases call with
  | processSamples samples =>
      refine ⟨_, processLoop_eq lengthPos stepPos (Nat.lt_succ_self _) _, ?_⟩
      exact (heard.withState .listening).processFrames (frameSamples cfg samples)
  | setThreshold threshold =>
      exact ⟨_, rfl, heard.shows, heard.probabilities, heard.time, heard.recentDetections⟩
  | reset =>
      exact ⟨_, rfl, heard_cleared (slidingWindowReset detector.window)
        (postprocessorReset detector.postproc) heard.shows.windowSize rfl rfl rfl _ _⟩

theorem Heard.calls (heard : Heard cfg detector frames) (lengthPos : 0 < cfg.frameLengthSamples)
    (stepPos : 0 < cfg.frameStepSamples) (calls : List (WakeWordCall Sample F)) :
    ∃ last, calls.foldlM (wakeWordCall cfg) detector = some last ∧
      Heard cfg last (calls.foldl (framesSince cfg) frames) := by
  induction calls generalizing detector frames with
  | nil => exact ⟨detector, rfl, heard⟩
  | cons call rest ih =>
      obtain ⟨next, stepped, heardNext⟩ := heard.call lengthPos stepPos call
      rw [List.foldlM_cons, stepped]
      exact ih heardNext

end Hearing

def sampleConfig : WakeWordConfig Nat Nat := ⟨1000, 2, 1, fun _ _ => 3, fun _ => (4, 5), 5⟩

section Asleep

variable {Sample F : Type*} [LinearOrder F] {cfg : WakeWordConfig Sample F}
  {detector : WakeWordDetector F}

/-- A detector that is not awake, and whose threshold is not below that of the
post-processor. -/
structure Asleep (cfg : WakeWordConfig Sample F) (detector : WakeWordDetector F) : Prop where
  state : detector.state ≠ .activated
  threshold : cfg.probThreshold ≤ detector.probabilityThreshold
  minActivation : 0 < detector.postproc.minActivationMs

/-- An activation has been stamped with the present time just before it is looked at. -/
theorem Asleep.processFrame (asleep : Asleep cfg detector) (samples : List Sample) :
    Asleep cfg (processFrame cfg detector samples) := by
  obtain ⟨state, threshold, minActivation⟩ := asleep
  rw [Ai.processFrame]
  split_ifs with full
  · dsimp only
    generalize cfg.predict (slidingWindowGetFeatures
      (slidingWindowPush detector.window (cfg.mfcc samples))
      (wakeWordMaxHistoryFrames * wakeWordMfccNumCoeffs)) = probs
    generalize detector.currentTimeMs + (cfg.frameStepMs : Int) = now
    have best : (if probs.2 < probs.1 then probs.1 else probs.2) =
        if probs.1 < probs.2 then probs.2 else probs.1 := by
      rcases lt_trichotomy probs.1 probs.2 with less | same | more
      · rw [if_neg less.not_gt, if_pos less]
      · rw [if_neg same.not_gt, if_neg same.not_lt, same]
      · rw [if_pos more, if_neg more.not_gt]
    have kept : (postprocessorProcess cfg.probThreshold detector.postproc probs now).minActivationMs =
        detector.postproc.minActivationMs := by
      rw [postprocessorProcess]
      split_ifs <;> rfl
    rw [best]
    by_cases likely : detector.probabilityThreshold ≤ if probs.1 < probs.2 then probs.2 else probs.1
    · have stamped :
          (postprocessorProcess cfg.probThreshold detector.postproc probs now).lastActivationTime =
            now := by
        rw [postprocessorProcess, if_pos (threshold.trans likely)]
      rw [if_pos likely, postprocessorIgnoreShortActivation, stamped, kept, Int.sub_self,
        if_neg minActivation.not_gt]
      refine ⟨?_, threshold, by rw [kept]; exact minActivation⟩
      dsimp only
      rw [if_pos (decide_eq_true minActivation)]
      exact WakeWordState.noConfusion
    · rw [if_neg likely]
      exact ⟨state, threshold, by rw [kept]; exact minActivation⟩
  · exact ⟨state, threshold, minActivation⟩

variable [Zero F]

theorem Asleep.call (asleep : Asleep cfg detector) (lengthPos : 0 < cfg.frameLengthSamples)
    (stepPos : 0 < cfg.frameStepSamples) (call : WakeWordCall Sample F)
    (high : ∀ threshold, call = .setThreshold threshold → cfg.probThreshold ≤ threshold) :
    ∃ next, wakeWordCall cfg detector call = some next ∧ Asleep cfg next := by
  obtain ⟨state, threshold, minActivation⟩ := asleep
  cases call with
  | processSamples samples =>
      refine ⟨_, processLoop_eq lengthPos stepPos (Nat.lt_succ_self _) _, ?_⟩
      refine List.foldlRecOn _ _ ⟨WakeWordState.noConfusion, threshold, minActivation⟩ ?_
      exact fun detector asleep samples _ => asleep.processFrame samples
  | setThreshold other => exact ⟨_, rfl, state, high other rfl, minActivation⟩
  | reset => exact ⟨_, rfl, WakeWordState.noConfusion, threshold, minActivation⟩

end Asleep

/-- Unless the threshold is set below that of the post-processor, the detector is never
awake. -/
theorem wakeWordDetector_never_awake {Sample F : Type*} [LinearOrder F] [Zero F]
    (cfg : WakeWordConfig Sample F) (lengthPos : 0 < cfg.frameLengthSamples)
    (stepPos : 0 < cfg.frameStepSamples) (calls : List (WakeWordCall Sample F))
    (high : ∀ threshold, .setThreshold threshold ∈ calls → cfg.probThreshold ≤ threshold) :
    ∃ detector, calls.foldlM (wakeWordCall cfg) (wakeWordDetectorInit cfg) = some detector ∧
      wakeWordDetectorIsAwake detector = false := by
  have run : ∀ (calls : List (WakeWordCall Sample F)) (detector : WakeWordDetector F),
      (∀ threshold, .setThreshold threshold ∈ calls → cfg.probThreshold ≤ threshold) →
        Asleep cfg detector →
          ∃ last, calls.foldlM (wakeWordCall cfg) detector = some last ∧ Asleep cfg last := by
    intro calls
    induction calls with
    | nil => exact fun detector _ asleep => ⟨detector, rfl, asleep⟩
    | cons call rest ih =>
        intro detector high asleep
        obtain ⟨next, stepped, asleepNext⟩ := asleep.call lengthPos stepPos call
          fun threshold set => high threshold (set ▸ List.mem_cons_self)
        rw [List.foldlM_cons, stepped]
        exact ih next (fun threshold listed => high threshold (List.mem_cons_of_mem call listed))
          asleepNext
  obtain ⟨last, ran, asleep⟩ := run calls (wakeWordDetectorInit cfg) high
    ⟨WakeWordState.noConfusion, le_rfl, show 0 < wakeWordMinActivationMs by decide⟩
  exact ⟨last, ran, decide_eq_false asleep.state⟩

theorem wakeWordDetector_never_awake_sample :
    ∃ detector, [WakeWordCall.processSamples [7, 8, 9], .setThreshold 6].foldlM
        (wakeWordCall sampleConfig) (wakeWordDetectorInit sampleConfig) = some detector ∧
      wakeWordDetectorIsAwake detector = false :=
  wakeWordDetector_never_awake sampleConfig (by decide) (by decide)
    [WakeWordCall.processSamples [7, 8, 9], .setThreshold 6]
    (by
      intro threshold listed
      simp only [List.mem_cons, WakeWordCall.setThreshold.injEq, reduceCtorEq, List.not_mem_nil,
        or_false, false_or] at listed
      rw [listed]
      decide)

end Ai

end MiniIotRobotEdge

import Mathlib.Algebra.Field.Rat
import Mathlib.Algebra.Order.Ring.Rat
import MiniIotRobotEdge.GreedySelection
import MiniIotRobotEdge.RangeLoop

/-!
# Non-maximum suppression

The model of `postproc_nms` in `edge_inference.c`, over exact numbers; the flags
are allocated.  The function never reads a score: it goes through the detections
in the order of the list, so that this order decides which of two boxes is kept.
-/

namespace MiniIotRobotEdge

namespace Ai

/-- What `postproc_nms` and its callers use of a detection. -/
structure Detection (R : Type*) where
  score : R
  xmin : R
  ymin : R
  xmax : R
  ymax : R

variable {R : Type*} [Field R] [LinearOrder R]

/-- The ratio that the function computes, unless it skips the pair. -/
def iou (first second : Detection R) : Option R :=
  let xx1 := max first.xmin second.xmin
  let yy1 := max first.ymin second.ymin
  let xx2 := min first.xmax second.xmax
  let yy2 := min first.ymax second.ymax
  let w := xx2 - xx1
  let h := yy2 - yy1
  if w ≤ 0 ∨ h ≤ 0 then none
  else
    let inter := w * h
    let ai := (first.xmax - first.xmin) * (first.ymax - first.ymin)
    let aj := (second.xmax - second.xmin) * (second.ymax - second.ymin)
    some (inter / (ai + aj - inter + 1 / 10 ^ 12))

/-- Boxes that do not overlap have the ratio 0. -/
def overlap (first second : Detection R) : R := (iou first second).getD 0

/-- Whether the second box is suppressed by the first. -/
def Suppresses (iouThresh : R) (first second : Detection R) : Prop :=
  match iou first second with
  | some ratio => iouThresh < ratio
  | none => False

instance (iouThresh : R) : DecidableRel (Suppresses iouThresh) := fun first second =>
  match found : iou first second with
  | some ratio => decidable_of_iff (iouThresh < ratio) (by rw [Suppresses, found])
  | none => .isFalse (by rw [Suppresses, found]; exact id)

/-- The body of the inner loop. -/
def suppressTurn (dets : Nat → Detection R) (iouThresh : R) (i : Nat) (suppressed : Nat → Bool)
    (j : Nat) : Nat → Bool :=
  if suppressed j then suppressed
  else if Suppresses iouThresh (dets i) (dets j) then Function.update suppressed j true
  else suppressed

/-- The body of the outer loop; the state is the flags and the indices kept so far. -/
def nmsTurn (dets : Nat → Detection R) (count : Nat) (iouThresh : R)
    (state : (Nat → Bool) × List Nat) (i : Nat) : (Nat → Bool) × List Nat :=
  if state.1 i then state
  else
    ((List.range' (i + 1) (count - (i + 1))).foldl (suppressTurn dets iouThresh i) state.1,
      state.2 ++ [i])

/-- The indices that the function writes to `kept`. -/
def postprocNms (dets : Nat → Detection R) (count : Nat) (iouThresh : R) : List Nat :=
  ((List.range count).foldl (nmsTurn dets count iouThresh) (fun _ => false, [])).2

section Overlap

variable {first second : Detection R} {iouThresh : R}

theorem iou_comm (first second : Detection R) : iou first second = iou second first := by
  simp only [iou, max_comm first.xmin, max_comm first.ymin, min_comm first.xmax,
    min_comm first.ymax, add_comm ((first.xmax - first.xmin) * (first.ymax - first.ymin))]

theorem overlap_comm (first second : Detection R) : overlap first second = overlap second first := by
  rw [overlap, iou_comm, overlap]

/-- A pair that the loop skips is no exception for a threshold that is not negative. -/
theorem suppresses_iff (nonneg : 0 ≤ iouThresh) :
    Suppresses iouThresh first second ↔ iouThresh < overlap first second := by
  rw [Suppresses, overlap]
  cases iou first second with
  | some ratio => rfl
  | none => exact iff_of_false id (not_lt.mpr nonneg)

end Overlap

/-! ### The flags -/

section Flags

variable {dets : Nat → Detection R} {count i j : Nat} {iouThresh : R}

/-- The relation of the selection that the flags carry out. -/
abbrev clash (dets : Nat → Detection R) (iouThresh : R) (i j : Nat) : Prop :=
  Suppresses iouThresh (dets i) (dets j)

theorem suppressTurn_apply (suppressed : Nat → Bool) (j other : Nat) :
    suppressTurn dets iouThresh i suppressed j other = true ↔
      suppressed other = true ∨ other = j ∧ clash dets iouThresh i other := by
  unfold suppressTurn
  by_cases same : other = j
  · subst same
    split_ifs with set clashes
    · simp only [set, true_or]
    · simp only [Function.update_self, clash, clashes, and_self, or_true]
    · simp only [set, clash, clashes, and_false, or_false]
  · split_ifs
    · simp only [same, false_and, or_false]
    · simp only [Function.update_of_ne same, same, false_and, or_false]
    · simp only [same, false_and, or_false]

theorem foldl_suppressTurn_apply (targets : List Nat) (suppressed : Nat → Bool) (other : Nat) :
    targets.foldl (suppressTurn dets iouThresh i) suppressed other = true ↔
      suppressed other = true ∨ other ∈ targets ∧ clash dets iouThresh i other := by
  induction targets generalizing suppressed with
  | nil => simp only [List.foldl_nil, List.not_mem_nil, false_and, or_false]
  | cons target rest ih =>
      rw [List.foldl_cons, ih, suppressTurn_apply, List.mem_cons]
      tauto

/-- The boxes that are kept are those of a greedy selection, and a box that is still to come
is flagged if it clashes with one of them. -/
structure Flagged (dets : Nat → Detection R) (count : Nat) (iouThresh : R) (turn : Nat)
    (state : (Nat → Bool) × List Nat) : Prop where
  kept : state.2 = GreedySelection.select (clash dets iouThresh) (List.range turn)
  flags : ∀ j, turn ≤ j → j < count →
    (state.1 j = true ↔ ∃ i ∈ state.2, clash dets iouThresh i j)

theorem Flagged.turn {turn : Nat} {state : (Nat → Bool) × List Nat} (inRange : turn < count)
    (flagged : Flagged dets count iouThresh turn state) :
    Flagged dets count iouThresh (turn + 1) (nmsTurn dets count iouThresh state turn) := by
  have isFlag := flagged.flags turn le_rfl inRange
  unfold nmsTurn
  split
  · rename_i set
    refine ⟨?_, fun j later => flagged.flags j (Nat.le_of_succ_le later)⟩
    rw [List.range_succ, GreedySelection.select_concat, ← flagged.kept, GreedySelection.keep,
      if_pos (isFlag.mp set)]
  · rename_i free
    refine ⟨?_, ?_⟩
    · rw [List.range_succ, GreedySelection.select_concat, ← flagged.kept, GreedySelection.keep,
        if_neg fun clashes => free (isFlag.mpr clashes)]
    · intro j later inside
      have isTarget : j ∈ List.range' (turn + 1) (count - (turn + 1)) :=
        List.mem_range'_1.mpr ⟨later, by omega⟩
      rw [foldl_suppressTurn_apply, flagged.flags j (Nat.le_of_succ_le later) inside]
      simp only [isTarget, true_and, List.mem_append, List.mem_singleton, or_and_right,
        exists_or, exists_eq_left]

/-- The function carries out a greedy selection in the order of the list. -/
theorem postprocNms_eq (dets : Nat → Detection R) (count : Nat) (iouThresh : R) :
    postprocNms dets count iouThresh =
      GreedySelection.select (clash dets iouThresh) (List.range count) := by
  have flagged : Flagged dets count iouThresh count
      ((List.range count).foldl (nmsTurn dets count iouThresh) (fun _ => false, [])) := by
    apply RangeLoop.invariant (Flagged dets count iouThresh)
    · refine ⟨rfl, ?_⟩
      intro j _ _
      simp only [Bool.false_eq_true, List.not_mem_nil, false_and, exists_false]
    · intro turn state inRange sofar
      exact sofar.turn inRange
  exact flagged.kept

end Flags

/-! ### What is kept -/

/-- What is expected of a suppression: the boxes that are kept are apart, and every other one
overlaps a kept box that goes before it. -/
structure KeepsApart (dets : Nat → Detection R) (count : Nat) (iouThresh : R)
    (goesBefore : Nat → Nat → Prop) (kept : List Nat) : Prop where
  increasing : kept.Pairwise (· < ·)
  inRange : ∀ i ∈ kept, i < count
  apart : ∀ i ∈ kept, ∀ j ∈ kept, i ≠ j → overlap (dets i) (dets j) ≤ iouThresh
  covered : ∀ j < count, j ∉ kept →
    ∃ i ∈ kept, goesBefore i j ∧ iouThresh < overlap (dets i) (dets j)

theorem keepsApart_postprocNms (dets : Nat → Detection R) (count : Nat) {iouThresh : R}
    (nonneg : 0 ≤ iouThresh) :
    KeepsApart dets count iouThresh (· < ·) (postprocNms dets count iouThresh) := by
  rw [postprocNms_eq]
  have sublist := GreedySelection.select_sublist (clash dets iouThresh) (List.range count)
  constructor
  case increasing => exact List.pairwise_lt_range.sublist sublist
  case inRange =>
    intro i isKept
    exact List.mem_range.mp (sublist.mem isKept)
  case apart =>
    have noClash := GreedySelection.select_pairwise (clash dets iouThresh) (List.range count)
    have small : (GreedySelection.select (clash dets iouThresh) (List.range count)).Pairwise
        fun i j => overlap (dets i) (dets j) ≤ iouThresh := by
      refine noClash.imp fun free => ?_
      exact not_lt.mp fun large => free ((suppresses_iff nonneg).mpr large)
    have symmetric : Std.Symm fun i j => overlap (dets i) (dets j) ≤ iouThresh := by
      constructor
      intro i j small
      rwa [overlap_comm]
    intro i isKept j isKeptToo
    exact small.forall isKept isKeptToo
  case covered =>
    intro j inside dropped
    obtain ⟨i, isKept, before, clashes⟩ :=
      GreedySelection.exists_conflict (clash dets iouThresh) (List.mem_range.mpr inside) dropped
    have inOrder := List.pairwise_lt_range.sublist before
    exact ⟨i, isKept, List.rel_of_pairwise_cons inOrder (List.mem_singleton_self j),
      (suppresses_iff nonneg).mp clashes⟩

/-- Boxes that overlap stand in the order of their scores, as in a list that is sorted. -/
def OverlapsSorted (dets : Nat → Detection R) (count : Nat) (iouThresh : R) : Prop :=
  ∀ i j, i < j → j < count → iouThresh < overlap (dets i) (dets j) →
    (dets j).score ≤ (dets i).score

theorem KeepsApart.byScore {dets : Nat → Detection R} {count : Nat} {iouThresh : R}
    {kept : List Nat} (keeps : KeepsApart dets count iouThresh (· < ·) kept)
    (sorted : OverlapsSorted dets count iouThresh) :
    KeepsApart dets count iouThresh (fun i j => (dets j).score ≤ (dets i).score) kept where
  increasing := keeps.increasing
  inRange := keeps.inRange
  apart := keeps.apart
  covered := by
    intro j inside dropped
    obtain ⟨i, isKept, before, large⟩ := keeps.covered j inside dropped
    exact ⟨i, isKept, sorted i j before inside large, large⟩

/-- What is kept goes before what is dropped in the list, and by its score if the boxes that
overlap come in that order. -/
theorem postprocNms_keeps_in_order (dets : Nat → Detection R) (count : Nat) {iouThresh : R}
    (nonneg : 0 ≤ iouThresh) :
    KeepsApart dets count iouThresh (· < ·) (postprocNms dets count iouThresh) ∧
      (OverlapsSorted dets count iouThresh →
        KeepsApart dets count iouThresh (fun i j => (dets j).score ≤ (dets i).score)
          (postprocNms dets count iouThresh)) := by
  have keeps := keepsApart_postprocNms dets count nonneg
  exact ⟨keeps, keeps.byScore⟩

/-- The unit square, with some score. -/
def unitSquare (score : ℚ) : Detection ℚ := ⟨score, 0, 0, 1, 1⟩

theorem postprocNms_keeps_in_order_two :
    KeepsApart (fun i => unitSquare (-i)) 2 (1 / 2) (fun i j => -(j : ℚ) ≤ -(i : ℚ))
      (postprocNms (fun i => unitSquare (-i)) 2 (1 / 2)) := by
  apply (postprocNms_keeps_in_order (fun i => unitSquare (-i)) 2 (by decide +kernel)).2
  intro i j before _ _
  exact neg_le_neg (Nat.cast_le.mpr before.le)

/-- The second of two equal boxes is dropped although its score is the greater one. -/
theorem postprocNms_drops_best :
    ¬ KeepsApart (fun i => unitSquare i) 2 (1 / 2) (fun i j => (j : ℚ) ≤ (i : ℚ))
      (postprocNms (fun i => unitSquare i) 2 (1 / 2)) := by
  intro keeps
  have kept : postprocNms (fun i => unitSquare i) 2 (1 / 2) = [0] := by decide +kernel
  obtain ⟨i, isKept, less, _⟩ := keeps.covered 1 (by decide) (by rw [kept]; decide)
  rw [kept, List.mem_singleton] at isKept
  subst isKept
  exact absurd less (by decide +kernel)

end Ai

end MiniIotRobotEdge

import Mathlib.Tactic.Ring
import MiniIotRobotEdge.TiledLoops

/-!
# Matrix products in tiles

The model of `gemm_micro_6x16` and `gemm_blocked` in `inference_opt.c`, with
any two operations in place of those on `float`.  The matrices are arrays from
a pointer on, `C` is apart from the others, and no pointer is null.  There is
no result where the counter of a loop, an `int`, overflows.
-/

namespace MiniIotRobotEdge

namespace Ai

open TiledLoops

/-- What an `int` stays below. -/
def intLimit : Nat := 2 ^ 31

section Functions

variable {α : Type*} (add mul : α → α → α)

/-- The loops over one tile of `C`, which begins at the row `i` and column `j`. -/
def gemmMicroTile (a : Nat → α) (lda : Nat) (b : Nat → α) (ldb ptr ldc depth i mr j nr : Nat)
    (c : Nat → α) : Nat → α :=
  (List.range depth).foldl (fun c k =>
    (List.range mr).foldl (fun c ii =>
      let aik := a ((i + ii) * lda + k)
      (List.range nr).foldl (fun c jj =>
        Function.update c (ptr + ((i + ii) * ldc + (j + jj)))
          (add (c (ptr + ((i + ii) * ldc + (j + jj)))) (mul aik (b (k * ldb + (j + jj)))))) c)
      c) c

/-- `C` is the array `c` from the index `ptr` on.  The result is the array left
and the value returned. -/
def gemmMicro6x16 (m n k : Int) (a : Nat → α) (lda : Nat) (b : Nat → α) (ldb : Nat)
    (c : Nat → α) (ptr ldc : Nat) : Option ((Nat → α) × Int) :=
  if m ≤ 0 ∨ n ≤ 0 ∨ k ≤ 0 then some (c, -1)
  else
    (stridedFor intLimit 6 m.toNat (fun c i =>
      let mr := tileSize 6 m.toNat i
      stridedFor intLimit 16 n.toNat (fun c j =>
        let nr := tileSize 16 n.toNat j
        some (gemmMicroTile add mul a lda b ldb ptr ldc k.toNat i mr j nr c)) c) c).map
      fun c => (c, 0)

def blockOf (block : Int) : Nat := if 0 < block then block.toNat else 64

theorem blockOf_pos (block : Int) : 0 < blockOf block := by
  rw [blockOf]
  split_ifs <;> omega

def gemmBlocked (m n k : Int) (a : Nat → α) (lda : Nat) (b : Nat → α) (ldb : Nat)
    (c : Nat → α) (ldc : Nat) (blockM blockN blockK : Int) : Option ((Nat → α) × Int) :=
  if m ≤ 0 ∨ n ≤ 0 ∨ k ≤ 0 then some (c, -1)
  else
    let bm := blockOf blockM
    let bn := blockOf blockN
    let bk := blockOf blockK
    (stridedFor intLimit bm m.toNat (fun c i =>
      let mr := tileSize bm m.toNat i
      stridedFor intLimit bn n.toNat (fun c j =>
        let nr := tileSize bn n.toNat j
        stridedFor intLimit bk k.toNat (fun c l =>
          let kr := tileSize bk k.toNat l
          (gemmMicro6x16 add mul mr nr kr (fun x => a (i * lda + l + x)) lda
            (fun x => b (l * ldb + j + x)) ldb c (i * ldc + j) ldc).map Prod.fst) c) c) c).map
      fun c => (c, 0)

/-- The plain loops, with `k` innermost. -/
def gemmPlain (m n k : Nat) (a : Nat → α) (lda : Nat) (b : Nat → α) (ldb : Nat) (c : Nat → α)
    (ldc : Nat) : Nat → α :=
  (List.range m).foldl (fun c i =>
    (List.range n).foldl (fun c j =>
      (List.range k).foldl (fun c k =>
        Function.update c (i * ldc + j)
          (add (c (i * ldc + j)) (mul (a (i * lda + k)) (b (k * ldb + j))))) c) c) c

end Functions

section Schedules

variable {α : Type*} (add mul : α → α → α) (a b : Nat → α) (lda ldb ldc : Nat)

/-- What one visit does to its entry of `C`. -/
def gemmChange (visit : Visit) (value : α) : α :=
  add value (mul (a (visit.i * lda + visit.k)) (b (visit.k * ldb + visit.j)))

variable {add mul a b lda ldb ldc}

theorem gemmPlain_eq (m n k : Nat) (c : Nat → α) :
    gemmPlain add mul m n k a lda b ldb c ldc =
      runSchedule ldc (gemmChange add mul a b lda ldb) (plainSchedule m n k) c := by
  simp only [gemmPlain, runSchedule, plainSchedule, gemmChange, List.foldl_flatMap,
    List.foldl_map]

/-- The micro kernel at a corner of the matrices. -/
theorem gemmMicro6x16_eq {m n k : Int} (positive : ¬(m ≤ 0 ∨ n ≤ 0 ∨ k ≤ 0))
    (rows : roundUp 6 m.toNat < intLimit) (columns : roundUp 16 n.toNat < intLimit)
    (i j l : Nat) (c : Nat → α) :
    gemmMicro6x16 add mul m n k (fun x => a (i * lda + l + x)) lda
        (fun x => b (l * ldb + j + x)) ldb c (i * ldc + j) ldc =
      some (runSchedule ldc (gemmChange add mul a b lda ldb)
        ((tileSchedule 6 16 m.toNat n.toNat k.toNat).map (Visit.shift i j l)) c, 0) := by
  have inC (row column : Nat) : i * ldc + j + (row * ldc + column) =
      (i + row) * ldc + (j + column) := by ring
  have inA (row step : Nat) : i * lda + l + (row * lda + step) =
      (i + row) * lda + (l + step) := by ring
  have inB (step column : Nat) : l * ldb + j + (step * ldb + column) =
      (l + step) * ldb + (j + column) := by ring
  rw [gemmMicro6x16, if_neg positive]
  simp only [stridedFor_some (show 0 < 16 by decide) columns,
    stridedFor_some (show 0 < 6 by decide) rows, Option.map_some, gemmMicroTile, inA, inB, inC]
  simp only [runSchedule, tileSchedule, gemmChange, Visit.shift, List.foldl_map,
    List.foldl_flatMap]

theorem gemmMicro6x16_whole {m n k : Int} (positive : ¬(m ≤ 0 ∨ n ≤ 0 ∨ k ≤ 0))
    (rows : roundUp 6 m.toNat < intLimit) (columns : roundUp 16 n.toNat < intLimit)
    (c : Nat → α) :
    gemmMicro6x16 add mul m n k a lda b ldb c 0 ldc =
      some (runSchedule ldc (gemmChange add mul a b lda ldb)
        (tileSchedule 6 16 m.toNat n.toNat k.toNat) c, 0) := by
  have unmoved : Visit.shift 0 0 0 = id := by
    funext visit
    simp [Visit.shift]
  simpa only [Nat.zero_mul, Nat.zero_add, unmoved, List.map_id] using
    gemmMicro6x16_eq positive rows columns 0 0 0 c

/-- The same for a window that may be empty. -/
theorem gemmMicro6x16_map_fst {m n k : Nat} (rows : roundUp 6 m < intLimit)
    (columns : roundUp 16 n < intLimit) (i j l : Nat) (c : Nat → α) :
    (gemmMicro6x16 add mul m n k (fun x => a (i * lda + l + x)) lda
        (fun x => b (l * ldb + j + x)) ldb c (i * ldc + j) ldc).map Prod.fst =
      some (runSchedule ldc (gemmChange add mul a b lda ldb)
        ((tileSchedule 6 16 m n k).map (Visit.shift i j l)) c) := by
  by_cases empty : (m : Int) ≤ 0 ∨ (n : Int) ≤ 0 ∨ (k : Int) ≤ 0
  · have none : tileSchedule 6 16 m n k = [] := by
      rcases empty with empty | empty | empty
      · simp [tileSchedule, tileCount, show m = 0 by omega]
      · simp [tileSchedule, tileCount, show n = 0 by omega]
      · simp [tileSchedule, show k = 0 by omega]
    rw [gemmMicro6x16, if_pos empty, none]
    rfl
  · rw [gemmMicro6x16_eq empty rows columns]
    rfl

theorem gemmBlocked_eq {m n k blockM blockN blockK : Int} (positive : ¬(m ≤ 0 ∨ n ≤ 0 ∨ k ≤ 0))
    (rows : roundUp 6 m.toNat < intLimit) (columns : roundUp 16 n.toNat < intLimit)
    (blockRows : roundUp (blockOf blockM) m.toNat < intLimit)
    (blockColumns : roundUp (blockOf blockN) n.toNat < intLimit)
    (blockSteps : roundUp (blockOf blockK) k.toNat < intLimit) (c : Nat → α) :
    gemmBlocked add mul m n k a lda b ldb c ldc blockM blockN blockK =
      some (runSchedule ldc (gemmChange add mul a b lda ldb)
        (blockSchedule (blockOf blockM) (blockOf blockN) (blockOf blockK) m.toNat n.toNat k.toNat
          (tileSchedule 6 16)) c, 0) := by
  have tileRows (i : Nat) : roundUp 6 (tileSize (blockOf blockM) m.toNat i) < intLimit :=
    (roundUp_mono (by decide) ((tileSize_le _ _ i).trans (Nat.sub_le _ _))).trans_lt rows
  have tileColumns (j : Nat) : roundUp 16 (tileSize (blockOf blockN) n.toNat j) < intLimit :=
    (roundUp_mono (by decide) ((tileSize_le _ _ j).trans (Nat.sub_le _ _))).trans_lt columns
  rw [gemmBlocked, if_neg positive]
  simp only [gemmMicro6x16_map_fst (tileRows _) (tileColumns _),
    stridedFor_some (blockOf_pos _) blockRows, stridedFor_some (blockOf_pos _) blockColumns,
    stridedFor_some (blockOf_pos _) blockSteps, Option.map_some]
  simp only [runSchedule, blockSchedule, List.foldl_flatMap]

/-- The first row of tiles is enough for the counter of the columns to overflow. -/
theorem gemmMicro6x16_eq_none {m n k : Int} (positive : ¬(m ≤ 0 ∨ n ≤ 0 ∨ k ≤ 0)) {ptr : Nat}
    {c : Nat → α}
    (overflows : intLimit ≤ roundUp 6 m.toNat ∨ intLimit ≤ roundUp 16 n.toNat) :
    gemmMicro6x16 add mul m n k a lda b ldb c ptr ldc = none := by
  have rows : 0 < m.toNat := by omega
  have columns : 0 < n.toNat := by omega
  rw [gemmMicro6x16, if_neg positive, Option.map_eq_none_iff]
  rcases overflows with passes | passes
  · exact stridedFor_eq_none_of_limit (by decide) rows passes c
  · apply stridedFor_eq_none_of_first rows
    exact stridedFor_eq_none_of_limit (by decide) columns passes c

theorem gemmBlocked_eq_none {m n k blockM blockN blockK : Int}
    (positive : ¬(m ≤ 0 ∨ n ≤ 0 ∨ k ≤ 0)) {c : Nat → α}
    (overflows : intLimit ≤ roundUp (blockOf blockM) m.toNat ∨
      intLimit ≤ roundUp (blockOf blockN) n.toNat ∨
      intLimit ≤ roundUp (blockOf blockK) k.toNat) :
    gemmBlocked add mul m n k a lda b ldb c ldc blockM blockN blockK = none := by
  have rows : 0 < m.toNat := by omega
  have columns : 0 < n.toNat := by omega
  have steps : 0 < k.toNat := by omega
  rw [gemmBlocked, if_neg positive]
  dsimp only
  rw [Option.map_eq_none_iff]
  rcases overflows with passes | passes | passes
  · exact stridedFor_eq_none_of_limit (blockOf_pos _) rows passes c
  · apply stridedFor_eq_none_of_first rows
    exact stridedFor_eq_none_of_limit (blockOf_pos _) columns passes c
  · apply stridedFor_eq_none_of_first rows
    apply stridedFor_eq_none_of_first columns
    exact stridedFor_eq_none_of_limit (blockOf_pos _) steps passes c

end Schedules

section Agreement

variable {α : Type*} (add mul : α → α → α) (m n k : Int) (a : Nat → α) (lda : Nat) (b : Nat → α)
  (ldb : Nat) (c : Nat → α) (ldc : Nat) (blockM blockN blockK : Int)

/-- Both functions leave in `C` what the plain loops leave, and nothing outside
the window of `C` has changed. -/
structure GemmAgrees : Prop where
  micro : gemmMicro6x16 add mul m n k a lda b ldb c 0 ldc =
    some (gemmPlain add mul m.toNat n.toNat k.toNat a lda b ldb c ldc, 0)
  blocked : gemmBlocked add mul m n k a lda b ldb c ldc blockM blockN blockK =
    some (gemmPlain add mul m.toNat n.toNat k.toNat a lda b ldb c ldc, 0)
  outside : ∀ target, (∀ i j, i < m.toNat → j < n.toNat → i * ldc + j ≠ target) →
    gemmPlain add mul m.toNat n.toNat k.toNat a lda b ldb c ldc target = c target

/-- No counter of a strided loop reaches 2^31. -/
structure GemmCountersFit : Prop where
  microRows : roundUp 6 m.toNat < intLimit
  microColumns : roundUp 16 n.toNat < intLimit
  blockRows : roundUp (blockOf blockM) m.toNat < intLimit
  blockColumns : roundUp (blockOf blockN) n.toNat < intLimit
  blockSteps : roundUp (blockOf blockK) k.toNat < intLimit

end Agreement

/-- The three products agree exactly when no counter overflows. -/
theorem gemm_agrees_iff {α : Type*} (add mul : α → α → α) {m n k : Int}
    (sizes : 1 ≤ m ∧ 1 ≤ n ∧ 1 ≤ k) {lda ldb ldc : Nat}
    (leading : k ≤ lda ∧ n ≤ ldb ∧ n ≤ ldc) (a b c : Nat → α) (blockM blockN blockK : Int) :
    GemmAgrees add mul m n k a lda b ldb c ldc blockM blockN blockK ↔
      GemmCountersFit m n k blockM blockN blockK := by
  have positive : ¬(m ≤ 0 ∨ n ≤ 0 ∨ k ≤ 0) := by omega
  have wide : n.toNat ≤ ldc := by omega
  have tiles := tileSchedule_covers (show 0 < 6 by decide) (show 0 < 16 by decide)
  have plain := plainSchedule_covers m.toNat n.toNat k.toNat
  constructor
  · intro agrees
    have microFits : ¬(intLimit ≤ roundUp 6 m.toNat ∨ intLimit ≤ roundUp 16 n.toNat) := by
      intro overflows
      have result := agrees.micro
      rw [gemmMicro6x16_eq_none positive overflows] at result
      contradiction
    have blockedFits : ¬(intLimit ≤ roundUp (blockOf blockM) m.toNat ∨
        intLimit ≤ roundUp (blockOf blockN) n.toNat ∨
        intLimit ≤ roundUp (blockOf blockK) k.toNat) := by
      intro overflows
      have result := agrees.blocked
      rw [gemmBlocked_eq_none positive overflows] at result
      contradiction
    simp only [not_or, not_le] at microFits blockedFits
    exact ⟨microFits.1, microFits.2, blockedFits.1, blockedFits.2.1, blockedFits.2.2⟩
  · intro fit
    refine ⟨?_, ?_, fun target outside => ?_⟩
    · rw [gemmMicro6x16_whole positive fit.microRows fit.microColumns, gemmPlain_eq,
        runSchedule_eq _ wide (tiles _ _ _) plain]
    · rw [gemmBlocked_eq positive fit.microRows fit.microColumns fit.blockRows fit.blockColumns
        fit.blockSteps, gemmPlain_eq, runSchedule_eq _ wide (blockSchedule_covers (blockOf_pos _)
        (blockOf_pos _) (blockOf_pos _) _ _ _ tiles) plain]
    · rw [gemmPlain_eq]
      exact runSchedule_outside _ plain c outside

/-- Tiles and blocks that are cut off at both edges. -/
theorem gemm_agrees_ragged :
    GemmAgrees (· - ·) (· + ·) 7 17 3 (fun x => (x : Int)) 4 (fun x => 2 * (x : Int)) 17
      (fun _ => 0) 20 5 (-1) 2 :=
  (gemm_agrees_iff (· - ·) (· + ·) (by decide) (by decide) (fun x => (x : Int))
    (fun x => 2 * (x : Int)) (fun _ => 0) 5 (-1) 2).mpr
      ⟨by decide, by decide, by decide, by decide, by decide⟩

/-- The second block of rows begins at 2^30, and the counter does not reach the third. -/
theorem gemm_counter_overflows :
    ¬GemmAgrees (· + ·) (· * ·) (2 ^ 30 + 1) 1 1 (fun _ => (1 : Int)) 1 (fun _ => 1) 1
      (fun _ => 0) 1 (2 ^ 30) 64 64 := by
  intro agrees
  have result := agrees.blocked
  rw [gemmBlocked_eq_none (by decide) (.inl (by decide))] at result
  contradiction

end Ai

end MiniIotRobotEdge

import MiniIotRobotEdge.AiConvolution

/-!
# Products with a sparse matrix

The model of `sparse_dense_matmul_csr` in `inference_opt.c`, over exact numbers,
with arrays as functions of their index.  Nothing is asked of the compressed
rows: columns may repeat or lie outside of the matrix, and the pointers of the
rows may overlap or run backwards.  The result is the product with the dense
matrix whose entries add up what is listed for them.
-/

namespace MiniIotRobotEdge

namespace Ai

open TiledLoops LoopSums

section Functions

variable {R : Type*} [CommRing R]

/-- The array left in `C`, and the value returned. -/
def sparseDenseMatmulCsr (values : Int → R) (colInd rowPtr : Int → Int) (m k : Int) (b : Int → R)
    (n : Int) (c : Int → R) : (Int → R) × Int :=
  if m ≤ 0 ∨ k ≤ 0 ∨ n ≤ 0 then (c, -1)
  else
    ((List.range m.toNat).foldl (fun c (i : Nat) =>
      (List.range n.toNat).foldl (fun c (j : Nat) =>
        Function.update c (i * n + j : Int)
          ((List.range (rowPtr (i + 1) - rowPtr i).toNat).foldl (fun sum (turn : Nat) =>
            let col := colInd (rowPtr i + turn)
            if 0 ≤ col ∧ col < k then sum + values (rowPtr i + turn) * b (col * n + j)
            else sum) 0)) c) c, 0)

/-- An entry of the matrix that the compressed rows stand for. -/
def csrEntry (values : Int → R) (colInd rowPtr : Int → Int) (i col : Int) : R :=
  ∑ turn ∈ Finset.range (rowPtr (i + 1) - rowPtr i).toNat,
    if colInd (rowPtr i + turn) = col then values (rowPtr i + turn) else 0

end Functions

section Product

variable {R : Type*} [CommRing R] {values : Int → R} {colInd rowPtr : Int → Int}
  {m k n : Int}

/-- A listed value is multiplied in one column only. -/
theorem sum_listed (column : Int) (value : R) (entry : Int → R) :
    ∑ col ∈ Finset.range k.toNat, (if column = col then value else 0) * entry col =
      if 0 ≤ column ∧ column < k then value * entry column else 0 := by
  by_cases inside : 0 ≤ column ∧ column < k
  · obtain ⟨place, rfl⟩ := Int.eq_ofNat_of_zero_le inside.1
    rw [if_pos inside, Finset.sum_eq_single place]
    · rw [if_pos rfl]
    · intro col _ other
      rw [if_neg (by omega), zero_mul]
    · intro notListed
      exact absurd (Finset.mem_range.mpr (by omega)) notListed
  · rw [if_neg inside]
    apply Finset.sum_eq_zero
    intro col listed
    have bound := Finset.mem_range.mp listed
    rw [if_neg (by omega), zero_mul]

theorem sparseDenseMatmulCsr_apply (proper : ¬(m ≤ 0 ∨ k ≤ 0 ∨ n ≤ 0)) (b c : Int → R)
    {i j : Nat} (row : i < m.toNat) (column : j < n.toNat) :
    (sparseDenseMatmulCsr values colInd rowPtr m k b n c).1 (i * n + j : Int) =
      ∑ col ∈ Finset.range k.toNat,
        csrEntry values colInd rowPtr i col * b (col * n + j) := by
  have distinct : ∀ i j i' j' : Nat, i < m.toNat → j < n.toNat → i' < m.toNat → j' < n.toNat →
      (i * n + j : Int) = i' * n + j' → i = i' ∧ j = j' := by
    intro i j i' j' _ column _ column' same
    obtain ⟨width, rfl⟩ := Int.eq_ofNat_of_zero_le (show 0 ≤ n by omega)
    exact place_injective width column column' (by exact_mod_cast same)
  rw [sparseDenseMatmulCsr, if_neg proper]
  refine (write_two distinct _ c row column).trans ?_
  have listed : ∀ (sum : R) (turn : Nat), turn < (rowPtr (i + 1) - rowPtr i).toNat →
      (if 0 ≤ colInd (rowPtr i + turn) ∧ colInd (rowPtr i + turn) < k then
        sum + values (rowPtr i + turn) * b (colInd (rowPtr i + turn) * n + j)
      else sum) =
        sum + if 0 ≤ colInd (rowPtr i + turn) ∧ colInd (rowPtr i + turn) < k then
          values (rowPtr i + turn) * b (colInd (rowPtr i + turn) * n + j) else 0 := by
    intro sum turn _
    split_ifs
    · rfl
    · rw [add_zero]
  refine (foldl_gain listed 0).trans ?_
  rw [zero_add]
  simp only [csrEntry, Finset.sum_mul]
  rw [Finset.sum_comm]
  apply Finset.sum_congr rfl
  intro turn _
  exact (sum_listed (colInd (rowPtr i + turn)) (values (rowPtr i + turn))
    fun column => b (column * n + j)).symm

theorem sparseDenseMatmulCsr_outside (proper : ¬(m ≤ 0 ∨ k ≤ 0 ∨ n ≤ 0)) (b c : Int → R)
    {target : Int} (outside : target < 0 ∨ m * n ≤ target) :
    (sparseDenseMatmulCsr values colInd rowPtr m k b n c).1 target = c target := by
  rw [sparseDenseMatmulCsr, if_neg proper]
  refine write_two_outside ?_ _ c
  intro i j row column same
  obtain ⟨width, rfl⟩ := Int.eq_ofNat_of_zero_le (show 0 ≤ n by omega)
  obtain ⟨height, rfl⟩ := Int.eq_ofNat_of_zero_le (show 0 ≤ m by omega)
  have inside : i * width + j < height * width := place_lt row column
  have first : (0 : Int) ≤ i * width := by positivity
  zify at inside
  omega

end Product

end Ai

end MiniIotRobotEdge

import Mathlib.Algebra.BigOperators.Group.Finset.Basic
import MiniIotRobotEdge.AiHuffman
import MiniIotRobotEdge.OptimalCodes

/-!
# The codes of mini-edge-ai are optimal

The scan of `huffman_build_tree` finds two nodes of least frequency, so every
merge is one of the two least weights.  Hence the tree that is left costs no
more than any prefix code for the symbols.
-/

namespace MiniIotRobotEdge

namespace Ai

open BitString OptimalCodes PrefixCode

section Least

variable {nodes : Nat → HuffmanNode}

/-- Of the first `count` nodes the scan has found two with the least frequencies. -/
structure LeastFound (nodes : Nat → HuffmanNode) (count : Nat) (found : SmallestNodes) : Prop where
  first : ∀ j < count, (nodes j).freq ≠ 0 → found.f1.toNat ≤ (nodes j).freq.toNat
  second : ∀ j < count, (nodes j).freq ≠ 0 → (j : Int) ≠ found.min1 →
    found.f2.toNat ≤ (nodes j).freq.toNat
  inOrder : found.f1.toNat ≤ found.f2.toNat
  firstFreq : 0 ≤ found.min1 → found.f1 = (nodes found.min1.toNat).freq
  secondFreq : 0 ≤ found.min2 → found.f2 = (nodes found.min2.toNat).freq

theorem LeastFound.step {count : Nat} {found : SmallestNodes}
    (least : LeastFound nodes count found) :
    LeastFound nodes (count + 1) (scanNode nodes found count) := by
  have inOrder := least.inOrder
  unfold scanNode
  simp only [UInt32.lt_iff_toNat_lt]
  split_ifs with dead smaller small
  -- The node is not alive; it is the least; it is between the two; it is neither.
  · exact
      { first := Nat.forall_lt_succ_right.mpr ⟨least.first, fun alive => absurd dead alive⟩
        second := Nat.forall_lt_succ_right.mpr ⟨least.second, fun alive => absurd dead alive⟩
        inOrder := inOrder
        firstFreq := least.firstFreq
        secondFreq := least.secondFreq }
  · have below : ∀ j < count, (nodes j).freq ≠ 0 →
        (nodes count).freq.toNat ≤ (nodes j).freq.toNat :=
      fun j before alive => smaller.le.trans (least.first j before alive)
    exact
      { first := Nat.forall_lt_succ_right.mpr ⟨below, fun _ => le_rfl⟩
        second := Nat.forall_lt_succ_right.mpr
          ⟨fun j before alive _ => least.first j before alive, fun _ other => absurd rfl other⟩
        inOrder := smaller.le
        firstFreq := fun _ => rfl
        secondFreq := least.firstFreq }
  · have below : ∀ j < count, (nodes j).freq ≠ 0 → (j : Int) ≠ found.min1 →
        (nodes count).freq.toNat ≤ (nodes j).freq.toNat :=
      fun j before alive other => small.le.trans (least.second j before alive other)
    exact
      { first := Nat.forall_lt_succ_right.mpr ⟨least.first, fun _ => not_lt.mp smaller⟩
        second := Nat.forall_lt_succ_right.mpr ⟨below, fun _ _ => le_rfl⟩
        inOrder := not_lt.mp smaller
        firstFreq := least.firstFreq
        secondFreq := fun _ => rfl }
  · exact
      { first := Nat.forall_lt_succ_right.mpr ⟨least.first, fun _ => not_lt.mp smaller⟩
        second := Nat.forall_lt_succ_right.mpr ⟨least.second, fun _ _ => not_lt.mp small⟩
        inOrder := inOrder
        firstFreq := least.firstFreq
        secondFreq := least.secondFreq }

theorem findSmallest_least (nodes : Nat → HuffmanNode) (i : Nat) :
    LeastFound nodes i (findSmallest nodes i) := by
  unfold findSmallest
  induction i with
  | zero =>
      rw [List.range_zero, List.foldl_nil]
      refine ⟨?_, ?_, le_rfl, ?_, ?_⟩
      · exact fun j inside => absurd inside (Nat.not_lt_zero j)
      · exact fun j inside => absurd inside (Nat.not_lt_zero j)
      · exact fun nonneg => absurd nonneg (by decide)
      · exact fun nonneg => absurd nonneg (by decide)
  | succ i ih =>
      rw [List.range_succ, List.foldl_append, List.foldl_cons, List.foldl_nil]
      exact ih.step

variable {nSymbols bound : Nat} {forest : List (Nat × CodeTree Nat)}

/-- The merged nodes are two roots of least frequency. -/
theorem mergeSmallest_least (holds : Forest nodes nSymbols bound forest)
    (several : 2 ≤ forest.length) :
    ∃ first ∈ forest.map Prod.fst, ∃ second ∈ forest.map Prod.fst, first ≠ second ∧
      mergeSmallest nodes bound = some (merged nodes bound first second) ∧
      (nodes first).freq.toNat ≤ (nodes second).freq.toNat ∧
      ∀ index ∈ forest.map Prod.fst, index ≠ first →
        (nodes second).freq.toNat ≤ (nodes index).freq.toNat := by
  obtain ⟨first, firstMember, second, secondMember, differ, f2, found⟩ :=
    findSmallest_roots holds several
  have least := findSmallest_least nodes bound
  rw [found] at least
  have secondFreq : f2 = (nodes second).freq := by
    have freq := least.secondFreq (Int.natCast_nonneg second)
    rwa [Int.toNat_natCast] at freq
  refine ⟨first, firstMember, second, secondMember, differ, mergeSmallest_of_found found, ?_, ?_⟩
  · rw [← secondFreq]
    exact least.inOrder
  · intro index member other
    obtain ⟨inside, alive⟩ := (holds.alive index).mp member
    have apart : (index : Int) ≠ first := fun same => other (Int.natCast_inj.mp same)
    rw [← secondFreq]
    exact least.second index inside alive apart

/-- The frequencies of the roots are the weights of their trees. -/
def Weighted (weight : Nat → Nat) (nodes : Nat → HuffmanNode)
    (forest : List (Nat × CodeTree Nat)) : Prop :=
  ∀ root ∈ forest, (nodes root.1).freq.toNat = treeWeight weight root.2

variable {weight : Nat → Nat}

theorem Weighted.merge {first second : Nat} {firstTree secondTree : CodeTree Nat}
    {rest : List (Nat × CodeTree Nat)}
    (weighted : Weighted weight nodes ((first, firstTree) :: (second, secondTree) :: rest))
    (holds : Forest nodes nSymbols bound ((first, firstTree) :: (second, secondTree) :: rest)) :
    Weighted weight (merged nodes bound first second)
      ((bound, .node firstTree secondTree) :: rest) := by
  intro root member
  rcases List.mem_cons.mp member with rfl | later
  · rw [merged_bound nodes holds.first_root.1 holds.second_root.1, treeWeight_node]
    dsimp only
    rw [holds.pair_freq, weighted (first, firstTree) (by simp),
      weighted (second, secondTree) (by simp)]
  · have index := List.mem_map_of_mem (f := Prod.fst) later
    rw [merged_before (holds.rest_before index), if_neg (holds.rest_apart index)]
    exact weighted root (by simp [later])

/-- A merge takes the two trees of least weight. -/
theorem mergeSmallest_lightest (holds : Forest nodes nSymbols bound forest)
    (weighted : Weighted weight nodes forest) (several : 2 ≤ forest.length) :
    ∃ first firstTree second secondTree rest,
      forest.Perm ((first, firstTree) :: (second, secondTree) :: rest) ∧
      mergeSmallest nodes bound = some (merged nodes bound first second) ∧
      treeWeight weight firstTree ≤ treeWeight weight secondTree ∧
      ∀ root ∈ rest, treeWeight weight secondTree ≤ treeWeight weight root.2 := by
  obtain ⟨first, firstMember, second, secondMember, differ, merges, inOrder, least⟩ :=
    mergeSmallest_least holds several
  obtain ⟨firstTree, secondTree, rest, perm⟩ := exists_pair firstMember secondMember differ
  have listed : ∀ root ∈ (first, firstTree) :: (second, secondTree) :: rest, root ∈ forest :=
    fun root member => perm.mem_iff.mpr member
  have firstWeight := weighted (first, firstTree) (listed _ (by simp))
  have secondWeight := weighted (second, secondTree) (listed _ (by simp))
  dsimp only at firstWeight secondWeight
  rw [firstWeight, secondWeight] at inOrder
  refine ⟨first, firstTree, second, secondTree, rest, perm, merges, inOrder, ?_⟩
  intro root inRest
  have member := listed root (List.mem_cons_of_mem _ (List.mem_cons_of_mem _ inRest))
  have apart : root.1 ≠ first := fun same =>
    (holds.perm perm).rest_apart (List.mem_map_of_mem inRest) (.inl same)
  have below := least root.1 (List.mem_map_of_mem member) apart
  rwa [secondWeight, weighted root member] at below

/-- The merges pay no more than what the weights can afford. -/
theorem merges_optimal (count : Nat) (holds : Forest nodes nSymbols bound forest)
    (weighted : Weighted weight nodes forest) (length : forest.length = count + 1) :
    ∃ final tree, (List.range' bound count).foldlM mergeSmallest nodes = some final ∧
      Forest final nSymbols (bound + count) [(bound + count - 1, tree)] ∧
      ∀ budget, Affords (forest.map fun root => treeWeight weight root.2) budget →
        treeCost weight tree ≤ (forest.map fun root => treeCost weight root.2).sum + budget := by
  induction count generalizing nodes bound forest with
  | zero =>
      obtain ⟨⟨index, tree⟩, rfl⟩ := List.length_eq_one_iff.mp length
      obtain rfl : bound - 1 = index := by simpa using holds.newest
      refine ⟨nodes, tree, rfl, holds, fun budget _ => ?_⟩
      simp
  | succ count ih =>
      obtain ⟨first, firstTree, second, secondTree, rest, perm, merges, inOrder, least⟩ :=
        mergeSmallest_lightest holds weighted (by omega)
      have sameLength := perm.length_eq
      have pairHolds := holds.perm perm
      have pairWeighted : Weighted weight nodes
          ((first, firstTree) :: (second, secondTree) :: rest) :=
        fun root member => weighted root (perm.mem_iff.mpr member)
      obtain ⟨final, tree, run, finalHolds, pays⟩ :=
        ih pairHolds.merge (pairWeighted.merge pairHolds) (by
          simp only [List.length_cons] at sameLength ⊢
          omega)
      refine ⟨final, tree, ?_, ?_, fun budget affords => ?_⟩
      · rw [List.range'_succ, List.foldlM_cons, merges]
        exact run
      · rwa [Nat.add_assoc, Nat.add_comm 1] at finalHolds
      · have weights : (forest.map fun root => treeWeight weight root.2).Perm
            (treeWeight weight firstTree :: treeWeight weight secondTree ::
              rest.map fun root => treeWeight weight root.2) :=
          perm.map fun root => treeWeight weight root.2
        have minimal : ∀ other ∈ rest.map fun root => treeWeight weight root.2,
            treeWeight weight secondTree ≤ other :=
          List.forall_mem_map.mpr least
        obtain ⟨saved, less, saves⟩ := (affords.perm weights).merge inOrder minimal
        have cost := pays saved (by
          rw [List.map_cons, treeWeight_node]
          exact less)
        have costs := (perm.map fun root => treeCost weight root.2).sum_eq
        rw [List.map_cons, List.sum_cons, treeCost_node] at cost
        rw [costs, List.map_cons, List.map_cons, List.sum_cons, List.sum_cons]
        dsimp only
        omega

end Least

section Words

/-- The weight of a symbol. -/
def symbolWeight (freqs : Nat → UInt32) (i : Nat) : Nat := max 1 (freqs i).toNat

/-- The bits of a code, the highest first. -/
def HuffmanCode.bits (code : HuffmanCode) : List Bool :=
  (List.range code.codeLen).map fun b => code.code.getLsbD (code.codeLen - 1 - b)

theorem bits_eq {i : Int} {path : List Bool} (short : path.length ≤ 32) :
    (HuffmanCode.mk i (word 32 path) path.length).bits = path := by
  apply List.ext_getElem
  · simp [HuffmanCode.bits]
  · intro b _ inside
    have mirrored : path.length - 1 - (path.length - 1 - b) = b := by omega
    simp only [HuffmanCode.bits, List.getElem_map, List.getElem_range]
    rw [getLsbD_word path (by omega), List.getD_eq_getElem _ _ (by rw [List.length_reverse]; omega),
      List.getElem_reverse]
    simp only [mirrored]

variable {freqs : Nat → UInt32} {nSymbols : Nat}

/-- The tree that is left costs no more than any prefix code. -/
theorem huffmanNodes_optimal (several : 2 ≤ nSymbols)
    (total : ((List.range nSymbols).map fun i => max 1 (freqs i).toNat).sum < 2 ^ 32) :
    ∃ final tree, huffmanNodes freqs nSymbols = some final ∧
      Represents final (2 * nSymbols - 2) tree ∧ tree.symbols.Perm (List.range nSymbols) ∧
      ∀ words : Nat → List Bool, PrefixFree words (List.range nSymbols) →
        treeCost (symbolWeight freqs) tree ≤
          ∑ i ∈ Finset.range nSymbols, symbolWeight freqs i * (words i).length := by
  have weighted : Weighted (symbolWeight freqs) (huffmanLeaves freqs nSymbols)
      ((List.range nSymbols).map fun i => (i, .leaf i)) := by
    intro root member
    obtain ⟨i, inside, rfl⟩ := List.mem_map.mp member
    rw [leaf_freq freqs (List.mem_range.mp inside)]
    simp [treeWeight, CodeTree.symbols, CodeTree.table, symbolWeight]
  obtain ⟨final, tree, run, holds, pays⟩ := merges_optimal (nSymbols - 1)
    (leaves_forest (by omega) total) weighted (by simp; omega)
  have last : nSymbols + (nSymbols - 1) - 1 = 2 * nSymbols - 2 := by omega
  have root := holds.represents _ List.mem_cons_self
  rw [last] at root
  refine ⟨final, tree, run, root, by simpa using holds.leaves, fun words free => ?_⟩
  obtain ⟨depth, fits⟩ := prefixFree_fits free List.nodup_range (by simpa using several)
  have affords : Affords
      (((List.range nSymbols).map fun i => (i, CodeTree.leaf i)).map fun root =>
        treeWeight (symbolWeight freqs) root.2)
      (∑ i ∈ Finset.range nSymbols, symbolWeight freqs i * (words i).length) := by
    refine ⟨depth, (List.range nSymbols).map fun i => (symbolWeight freqs i, (words i).length),
      ?_, ?_, ?_⟩
    · simp [treeWeight, CodeTree.symbols, CodeTree.table, Function.comp_def]
    · rwa [List.map_map]
    · rw [pairCost, List.map_map]
      exact le_rfl
  have cost := pays _ affords
  have nothing : (((List.range nSymbols).map fun i => (i, CodeTree.leaf i)).map fun root =>
      treeCost (symbolWeight freqs) root.2).sum = 0 := by
    simp [treeCost, CodeTree.table, Function.comp_def]
  rwa [nothing, Nat.zero_add] at cost

/-- A sum over the leaves of a tree of all symbols. -/
theorem sum_table {M : Type*} [AddCommMonoid M] {tree : CodeTree Nat}
    (leaves : tree.symbols.Perm (List.range nSymbols)) (value : Nat → Nat → M) :
    (tree.table.map fun entry => value entry.1 entry.2.length).sum =
      ∑ i ∈ Finset.range nSymbols, value i (tree.pathTo i).length := by
  have distinct : tree.symbols.Nodup := leaves.nodup_iff.mpr List.nodup_range
  rw [table_eq_map_pathTo distinct, List.map_map]
  exact (leaves.map fun i => value i (tree.pathTo i).length).sum_eq

theorem huffmanWord_eq {tree : CodeTree Nat} (several : 2 ≤ nSymbols)
    (leaves : tree.symbols.Perm (List.range nSymbols)) {i : Nat} (inside : i < nSymbols) :
    huffmanWord tree i = tree.pathTo i := by
  have member : i ∈ tree.symbols := leaves.mem_iff.mpr (List.mem_range.mpr inside)
  have count := leaves.length_eq
  rw [List.length_range] at count
  rw [huffmanWord, if_neg (path_ne_nil (by omega) (pathTo_mem member))]

/-- The codes assigned are a full prefix code, and no prefix code is shorter. -/
theorem huffman_optimal (several : 2 ≤ nSymbols) (bounded : nSymbols ≤ 256)
    (total : ((List.range nSymbols).map fun i => max 1 (freqs i).toNat).sum < 2 ^ 32)
    (enc : HuffmanEncoder) :
    ∃ built, huffmanBuildTree freqs nSymbols enc = some built ∧
      ((∀ i < nSymbols, (built.codes i).codeLen ≤ 32) →
        PrefixFree (fun i => (built.codes i).bits) (List.range nSymbols) ∧
          ∑ i ∈ Finset.range nSymbols, (1 / 2 : ℚ) ^ (built.codes i).codeLen = 1 ∧
          ∀ words : Nat → List Bool, PrefixFree words (List.range nSymbols) →
            ∑ i ∈ Finset.range nSymbols, symbolWeight freqs i * (built.codes i).codeLen ≤
              ∑ i ∈ Finset.range nSymbols, symbolWeight freqs i * (words i).length) := by
  obtain ⟨nodes, tree, run, represents, leaves, least⟩ := huffmanNodes_optimal several total
  have codes : ∀ i < nSymbols, (assignCodes freqs nSymbols enc nodes).codes i =
      ⟨i, word 32 (tree.pathTo i), (tree.pathTo i).length⟩ := by
    intro i inside
    rw [← huffmanWord_eq several leaves inside]
    exact (if_pos inside).trans (huffmanCode_word represents leaves inside)
  refine ⟨assignCodes freqs nSymbols enc nodes, ?_, fun short => ⟨?_, ?_, fun words free => ?_⟩⟩
  · rw [huffmanBuildTree, if_neg (by omega), run, Option.map_some]
  · intro first firstMember second secondMember isPrefix
    have bits : ∀ i ∈ List.range nSymbols,
        ((assignCodes freqs nSymbols enc nodes).codes i).bits = tree.pathTo i := by
      intro i member
      have inside := List.mem_range.mp member
      have length := short i inside
      rw [codes i inside] at length ⊢
      exact bits_eq length
    dsimp only at isPrefix
    rw [bits first firstMember, bits second secondMember] at isPrefix
    exact prefixFree_pathTo tree first (leaves.mem_iff.mpr firstMember) second
      (leaves.mem_iff.mpr secondMember) isPrefix
  · have kraft := kraft_table tree
    rw [sum_table leaves fun _ length => (1 / 2 : ℚ) ^ length] at kraft
    refine (Finset.sum_congr rfl fun i member => ?_).trans kraft
    rw [codes i (Finset.mem_range.mp member)]
  · have cost := least words free
    rw [treeCost, sum_table leaves fun i length => symbolWeight freqs i * length] at cost
    refine le_of_eq_of_le (Finset.sum_congr rfl fun i member => ?_) cost
    rw [codes i (Finset.mem_range.mp member)]

end Words

/-- The word of a symbol in a code of two bits for each. -/
def pairOfBits (i : Nat) : List Bool := [i.testBit 1, i.testBit 0]

theorem huffman_optimal_sample :
    ∃ built, huffmanBuildTree sampleFreqs 4 blankEncoder = some built ∧
      ∑ i ∈ Finset.range 4, symbolWeight sampleFreqs i * (built.codes i).codeLen ≤
        ∑ i ∈ Finset.range 4, symbolWeight sampleFreqs i * (pairOfBits i).length := by
  obtain ⟨built, builds, optimal⟩ :=
    huffman_optimal (show 2 ≤ 4 by decide) (by decide)
      (show ((List.range 4).map fun i => max 1 (sampleFreqs i).toNat).sum < 2 ^ 32 by
        decide +kernel) blankEncoder
  have same : (huffmanBuildTree sampleFreqs 4 blankEncoder).get sample_builds = built :=
    Option.get_of_eq_some sample_builds builds
  have free : PrefixFree pairOfBits (List.range 4) := by
    unfold PrefixFree
    decide
  exact ⟨built, builds, (optimal (same ▸ sample_short)).2.2 pairOfBits free⟩

end Ai

end MiniIotRobotEdge

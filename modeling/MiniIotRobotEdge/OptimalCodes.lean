import Mathlib.Algebra.BigOperators.Group.List.Basic
import Mathlib.Data.List.Perm.Basic
import Mathlib.InformationTheory.Coding.KraftMcMillan
import Mathlib.Tactic.Positivity
import Mathlib.Tactic.Ring
import MiniIotRobotEdge.PrefixCode

/-!
# Optimal prefix codes

Weights can afford a budget when some lengths that satisfy the inequality of
Kraft cost no more.  Merging the two smallest weights into their sum saves just
that sum: in lengths for the weights the two can be brought to the greatest
length by exchanges that cost nothing, beside one another, and then they share
a parent.  So the merges of the two smallest trees, down to a single tree, pay
no more than any prefix code costs.
-/

namespace MiniIotRobotEdge

namespace OptimalCodes

open PrefixCode

section Lengths

/-- The inequality of Kraft, on the scale of a length that none exceeds. -/
structure Fits (depth : Nat) (lengths : List Nat) : Prop where
  bounded : ∀ length ∈ lengths, length ≤ depth
  kraft : (lengths.map fun length => 2 ^ (depth - length)).sum ≤ 2 ^ depth

/-- The cost of weights with their lengths. -/
def pairCost (pairs : List (Nat × Nat)) : Nat := (pairs.map fun pair => pair.1 * pair.2).sum

variable {depth : Nat} {lengths other : List Nat} {pairs : List (Nat × Nat)}

theorem Fits.perm (fits : Fits depth lengths) (perm : lengths.Perm other) : Fits depth other where
  bounded := fun length member => fits.bounded length (perm.mem_iff.mpr member)
  kraft := by
    rw [← (perm.map fun length => 2 ^ (depth - length)).sum_eq]
    exact fits.kraft

theorem pairCost_perm {others : List (Nat × Nat)} (perm : pairs.Perm others) :
    pairCost pairs = pairCost others := by
  rw [pairCost, (perm.map fun pair => pair.1 * pair.2).sum_eq, pairCost]

theorem pairCost_cons (pair : Nat × Nat) (rest : List (Nat × Nat)) :
    pairCost (pair :: rest) = pair.1 * pair.2 + pairCost rest := by
  rw [pairCost, List.map_cons, List.sum_cons, ← pairCost]

/-- One step deeper every term doubles. -/
theorem kraft_succ (bounded : ∀ length ∈ lengths, length ≤ depth) :
    (lengths.map fun length => 2 ^ (depth + 1 - length)).sum =
      2 * (lengths.map fun length => 2 ^ (depth - length)).sum := by
  induction lengths with
  | nil => rfl
  | cons length rest ih =>
      have within := bounded length List.mem_cons_self
      have later := ih fun other member => bounded other (List.mem_cons_of_mem length member)
      rw [List.map_cons, List.sum_cons, later, List.map_cons, List.sum_cons, Nat.mul_add,
        Nat.succ_sub within, Nat.pow_succ']

/-- A length that is not reached can be taken off the scale. -/
theorem Fits.shallower (fits : Fits (depth + 1) lengths) (unused : depth + 1 ∉ lengths) :
    Fits depth lengths := by
  have bounded : ∀ length ∈ lengths, length ≤ depth := by
    intro length member
    have within := fits.bounded length member
    have differ : length ≠ depth + 1 := fun same => unused (same ▸ member)
    omega
  have kraft := fits.kraft
  rw [kraft_succ bounded, Nat.pow_succ'] at kraft
  exact ⟨bounded, by omega⟩

/-- A single word of the greatest length can be cut: the others are even. -/
theorem Fits.cut (fits : Fits (depth + 1) ((depth + 1) :: lengths))
    (alone : depth + 1 ∉ lengths) : Fits depth (depth :: lengths) := by
  have bounded : ∀ length ∈ lengths, length ≤ depth := by
    intro length member
    have within := fits.bounded length (List.mem_cons_of_mem _ member)
    have differ : length ≠ depth + 1 := fun same => alone (same ▸ member)
    omega
  have kraft := fits.kraft
  rw [List.map_cons, List.sum_cons, Nat.sub_self, Nat.pow_zero, kraft_succ bounded, Nat.pow_succ']
    at kraft
  constructor
  · intro length member
    rcases List.mem_cons.mp member with rfl | later
    · exact le_rfl
    · exact bounded length later
  · rw [List.map_cons, List.sum_cons, Nat.sub_self, Nat.pow_zero]
    omega

/-- Two words of the greatest length share a parent. -/
theorem Fits.join (fits : Fits (depth + 1) ((depth + 1) :: (depth + 1) :: lengths)) :
    Fits (depth + 1) (depth :: lengths) := by
  constructor
  · intro length member
    rcases List.mem_cons.mp member with rfl | later
    · exact Nat.le_succ length
    · exact fits.bounded length (List.mem_cons_of_mem _ (List.mem_cons_of_mem _ later))
  · have kraft := fits.kraft
    rw [List.map_cons, List.map_cons, List.sum_cons, List.sum_cons, Nat.sub_self] at kraft
    rw [List.map_cons, List.sum_cons, Nat.add_sub_cancel_left]
    omega

/-- The least weight can be given the greatest length. -/
theorem exchange {greatest least : Nat} {rest : List Nat}
    (bounded : ∀ length ∈ pairs.map Prod.snd, length ≤ greatest)
    (reached : greatest ∈ pairs.map Prod.snd) (weights : (pairs.map Prod.fst).Perm (least :: rest))
    (minimal : ∀ weight ∈ rest, least ≤ weight) :
    ∃ others : List (Nat × Nat), (others.map Prod.fst).Perm rest ∧
      (pairs.map Prod.snd).Perm (greatest :: others.map Prod.snd) ∧
      least * greatest + pairCost others ≤ pairCost pairs := by
  obtain ⟨⟨weight, greatest⟩, listed, rfl⟩ := List.mem_map.mp reached
  dsimp only at bounded ⊢
  have front := List.perm_cons_erase listed
  generalize pairs.erase (weight, greatest) = others at front
  have weightPerm := (front.map Prod.fst).symm.trans weights
  rw [List.map_cons] at weightPerm
  by_cases same : weight = least
  · subst same
    refine ⟨others, weightPerm.cons_inv, front.map Prod.snd, ?_⟩
    rw [pairCost_perm front, pairCost_cons]
  · have inOthers : least ∈ others.map Prod.fst := by
      have member := weightPerm.mem_iff.mpr (List.mem_cons_self (a := least))
      exact (List.mem_cons.mp member).resolve_left (Ne.symm same)
    have inRest : weight ∈ rest := by
      have member := weightPerm.mem_iff.mp (List.mem_cons_self (a := weight))
      exact (List.mem_cons.mp member).resolve_left same
    obtain ⟨⟨least, length⟩, otherListed, rfl⟩ := List.mem_map.mp inOthers
    have second := List.perm_cons_erase otherListed
    generalize others.erase (least, length) = left at second
    have both := front.trans (second.cons _)
    refine ⟨(weight, length) :: left, ?_, both.map Prod.snd, ?_⟩
    · have swapped := (List.Perm.swap weight least (left.map Prod.fst)).trans
        ((both.map Prod.fst).symm.trans weights)
      exact swapped.cons_inv
    · have short : length ≤ greatest := by
        apply bounded
        rw [(both.map Prod.snd).mem_iff]
        exact List.mem_cons_of_mem _ List.mem_cons_self
      obtain ⟨more, rfl⟩ := Nat.exists_eq_add_of_le (minimal weight inRest)
      obtain ⟨further, rfl⟩ := Nat.exists_eq_add_of_le short
      rw [pairCost_perm both, pairCost_cons, pairCost_cons, pairCost_cons]
      dsimp only
      have saved : (least + more) * (length + further) + least * length =
          least * (length + further) + (least + more) * length + more * further := by ring
      omega

/-- Where the greatest length occurs twice, the two least weights can be given it. -/
theorem exchange_two {greatest first second : Nat} {rest lengths : List Nat}
    (bounded : ∀ length ∈ pairs.map Prod.snd, length ≤ greatest)
    (twice : (greatest :: lengths).Perm (pairs.map Prod.snd)) (again : greatest ∈ lengths)
    (weights : (pairs.map Prod.fst).Perm (first :: second :: rest)) (inOrder : first ≤ second)
    (minimal : ∀ weight ∈ rest, second ≤ weight) :
    ∃ others : List (Nat × Nat), (others.map Prod.fst).Perm rest ∧
      (pairs.map Prod.snd).Perm (greatest :: greatest :: others.map Prod.snd) ∧
      first * greatest + second * greatest + pairCost others ≤ pairCost pairs := by
  have firstLeast : ∀ weight ∈ second :: rest, first ≤ weight := by
    intro weight member
    rcases List.mem_cons.mp member with rfl | later
    · exact inOrder
    · exact inOrder.trans (minimal weight later)
  obtain ⟨left, leftWeights, leftLengths, firstCost⟩ :=
    exchange bounded (twice.mem_iff.mp List.mem_cons_self) weights firstLeast
  have sameLengths := (twice.trans leftLengths).cons_inv
  have leftBounded : ∀ length ∈ left.map Prod.snd, length ≤ greatest := by
    intro length member
    exact bounded length (leftLengths.mem_iff.mpr (List.mem_cons_of_mem _ member))
  obtain ⟨others, otherWeights, otherLengths, secondCost⟩ :=
    exchange leftBounded (sameLengths.mem_iff.mp again) leftWeights minimal
  refine ⟨others, otherWeights, leftLengths.trans (otherLengths.cons _), ?_⟩
  omega

/-- The two least weights can be merged, and their sum is saved. -/
theorem merge_pairs {first second : Nat} {rest : List Nat} (inOrder : first ≤ second)
    (minimal : ∀ weight ∈ rest, second ≤ weight)
    (weights : (pairs.map Prod.fst).Perm (first :: second :: rest))
    (fits : Fits depth (pairs.map Prod.snd)) :
    ∃ (less : Nat) (merged : List (Nat × Nat)),
      (merged.map Prod.fst).Perm ((first + second) :: rest) ∧
        Fits less (merged.map Prod.snd) ∧ first + second + pairCost merged ≤ pairCost pairs := by
  induction depth generalizing pairs with
  | zero =>
      have kraft := fits.kraft
      have count := weights.length_eq
      simp only [Nat.zero_sub, Nat.pow_zero, List.map_const', List.length_map,
        List.sum_replicate_nat, Nat.mul_one] at kraft
      simp only [List.length_map, List.length_cons] at count
      omega
  | succ depth ih =>
      by_cases unused : depth + 1 ∉ pairs.map Prod.snd
      · exact ih weights (fits.shallower unused)
      · have reached := not_not.mp unused
        obtain ⟨⟨weight, length⟩, listed, isDeepest⟩ := List.mem_map.mp reached
        obtain rfl : length = depth + 1 := isDeepest
        have front := List.perm_cons_erase listed
        generalize pairs.erase (weight, depth + 1) = left at front
        have cutFits := fits.perm (front.map Prod.snd)
        rw [List.map_cons] at cutFits
        by_cases alone : depth + 1 ∉ left.map Prod.snd
        · have shorter : (((weight, depth) :: left).map Prod.fst).Perm (first :: second :: rest) :=
            (front.map Prod.fst).symm.trans weights
          obtain ⟨less, merged, mergedWeights, mergedFits, saves⟩ := ih shorter (cutFits.cut alone)
          refine ⟨less, merged, mergedWeights, mergedFits, saves.trans ?_⟩
          rw [pairCost_perm front, pairCost_cons, pairCost_cons]
          dsimp only
          rw [Nat.mul_succ]
          omega
        · have twice : ((depth + 1) :: left.map Prod.snd).Perm (pairs.map Prod.snd) :=
            (front.map Prod.snd).symm
          obtain ⟨last, lastWeights, lengths, saves⟩ :=
            exchange_two fits.bounded twice (not_not.mp alone) weights inOrder minimal
          refine ⟨depth + 1, (first + second, depth) :: last, lastWeights.cons _,
            (fits.perm lengths).join, ?_⟩
          rw [pairCost_cons]
          dsimp only
          have shared : (first + second) * depth + (first + second) =
              first * (depth + 1) + second * (depth + 1) := by ring
          omega

/-- There are lengths for the weights that satisfy the inequality of Kraft and
do not cost more than the budget. -/
def Affords (weights : List Nat) (budget : Nat) : Prop :=
  ∃ (depth : Nat) (pairs : List (Nat × Nat)), (pairs.map Prod.fst).Perm weights ∧
    Fits depth (pairs.map Prod.snd) ∧ pairCost pairs ≤ budget

theorem Affords.merge {first second budget : Nat} {rest : List Nat}
    (affords : Affords (first :: second :: rest) budget) (inOrder : first ≤ second)
    (minimal : ∀ weight ∈ rest, second ≤ weight) :
    ∃ saved, Affords ((first + second) :: rest) saved ∧ first + second + saved ≤ budget := by
  obtain ⟨depth, pairs, weights, fits, cost⟩ := affords
  obtain ⟨less, merged, mergedWeights, mergedFits, saves⟩ :=
    merge_pairs inOrder minimal weights fits
  exact ⟨pairCost merged, ⟨less, merged, mergedWeights, mergedFits, le_rfl⟩, saves.trans cost⟩

theorem Affords.perm {weights others : List Nat} {budget : Nat} (affords : Affords weights budget)
    (perm : weights.Perm others) : Affords others budget := by
  obtain ⟨depth, pairs, same, fits, cost⟩ := affords
  exact ⟨depth, pairs, same.trans perm, fits, cost⟩

end Lengths

section Trees

variable {α : Type*} (weight : α → Nat)

def treeWeight (tree : CodeTree α) : Nat := (tree.symbols.map weight).sum

/-- The weights of the leaves, each times the length of its path. -/
def treeCost (tree : CodeTree α) : Nat :=
  (tree.table.map fun entry => weight entry.1 * entry.2.length).sum

theorem treeWeight_node (left right : CodeTree α) :
    treeWeight weight (.node left right) = treeWeight weight left + treeWeight weight right := by
  rw [treeWeight, symbols_node, List.map_append, List.sum_append, ← treeWeight, ← treeWeight]

theorem sum_branch (table : List (α × List Bool)) (bit : Bool) :
    ((table.map (branch bit)).map fun entry => weight entry.1 * entry.2.length).sum =
      (table.map fun entry => weight entry.1 * entry.2.length).sum +
        ((table.map Prod.fst).map weight).sum := by
  induction table with
  | nil => rfl
  | cons entry rest ih =>
      simp only [List.map_cons, List.sum_cons, ih, branch, List.length_cons, Nat.mul_succ]
      omega

/-- Every leaf is one step further from the root of a merged tree. -/
theorem treeCost_node (left right : CodeTree α) :
    treeCost weight (.node left right) = treeCost weight left + treeCost weight right +
      (treeWeight weight left + treeWeight weight right) := by
  rw [treeCost, CodeTree.table, List.map_append, List.sum_append, sum_branch, sum_branch,
    treeCost, treeCost, treeWeight, treeWeight, CodeTree.symbols, CodeTree.symbols]
  omega

/-- The leaves of a tree fill the inequality of Kraft. -/
theorem kraft_table (tree : CodeTree α) :
    (tree.table.map fun entry => (1 / 2 : ℚ) ^ entry.2.length).sum = 1 := by
  have branches (table : List (α × List Bool)) (bit : Bool) :
      ((table.map (branch bit)).map fun entry => (1 / 2 : ℚ) ^ entry.2.length).sum =
        (table.map fun entry => (1 / 2 : ℚ) ^ entry.2.length).sum / 2 := by
    induction table with
    | nil => simp
    | cons entry rest ih =>
        simp only [List.map_cons, List.sum_cons, ih, branch, List.length_cons]
        ring
  induction tree with
  | leaf symbol => simp [CodeTree.table]
  | node left right leftIh rightIh =>
      rw [CodeTree.table, List.map_append, List.sum_append, branches, branches, leftIh, rightIh]
      ring

/-- The only path to a symbol is the one that the search finds. -/
theorem table_eq_map_pathTo [DecidableEq α] {tree : CodeTree α} (distinct : tree.symbols.Nodup) :
    tree.table = tree.symbols.map fun symbol => (symbol, tree.pathTo symbol) := by
  have found : tree.table.map (fun entry => (entry.1, tree.pathTo entry.1)) = tree.table.map id := by
    apply List.map_congr_left
    intro entry member
    have listed : entry.1 ∈ tree.symbols := List.mem_map_of_mem member
    exact List.inj_on_of_nodup_map distinct (pathTo_mem listed) member rfl
  rw [List.map_id] at found
  rw [CodeTree.symbols, List.map_map]
  exact found.symm

end Trees

section Kraft

open InformationTheory

theorem uniquelyDecodable_of_prefixFree {words : Set (List Bool)} (nonempty : [] ∉ words)
    (free : ∀ first ∈ words, ∀ second ∈ words, first <+: second → first = second) :
    UniquelyDecodable words := by
  intro texts others inWords othersInWords same
  induction texts generalizing others with
  | nil =>
      cases others with
      | nil => rfl
      | cons word rest =>
          rw [List.flatten_nil, List.flatten_cons] at same
          have empty : word = [] := (List.append_eq_nil_iff.mp same.symm).1
          exact absurd (empty ▸ othersInWords word List.mem_cons_self) nonempty
  | cons word rest ih =>
      have member := inWords word List.mem_cons_self
      cases others with
      | nil =>
          rw [List.flatten_nil, List.flatten_cons] at same
          have empty : word = [] := (List.append_eq_nil_iff.mp same).1
          exact absurd (empty ▸ member) nonempty
      | cons other left =>
          have otherMember := othersInWords other List.mem_cons_self
          rw [List.flatten_cons, List.flatten_cons] at same
          have front : word <+: other ++ left.flatten := ⟨rest.flatten, same⟩
          obtain rfl : word = other := by
            rcases List.prefix_or_prefix_of_prefix front (List.prefix_append other _) with
              before | behind
            · exact free word member other otherMember before
            · exact (free other otherMember word member behind).symm
          rw [ih left (fun text listed => inWords text (List.mem_cons_of_mem word listed))
            (fun text listed => othersInWords text (List.mem_cons_of_mem word listed))
            (List.append_cancel_left same)]

theorem scaled_kraft {depth : Nat} {lengths : List Nat}
    (bounded : ∀ length ∈ lengths, length ≤ depth) :
    (((lengths.map fun length => 2 ^ (depth - length)).sum : Nat) : ℝ) =
      2 ^ depth * (lengths.map fun length => (1 / 2 : ℝ) ^ length).sum := by
  induction lengths with
  | nil => simp
  | cons length rest ih =>
      have within := bounded length List.mem_cons_self
      have power : (2 : ℝ) ^ (depth - length) = 2 ^ depth * (1 / 2) ^ length := by
        rw [one_div, inv_pow, ← div_eq_mul_inv, eq_div_iff (by positivity), ← pow_add,
          Nat.sub_add_cancel within]
      rw [List.map_cons, List.sum_cons, Nat.cast_add,
        ih fun other member => bounded other (List.mem_cons_of_mem length member), List.map_cons,
        List.sum_cons, mul_add, ← power]
      push_cast
      rfl

theorem fits_of_kraft {depth : Nat} {lengths : List Nat}
    (bounded : ∀ length ∈ lengths, length ≤ depth)
    (kraft : (lengths.map fun length => (1 / 2 : ℝ) ^ length).sum ≤ 1) : Fits depth lengths where
  bounded := bounded
  kraft := by
    rw [← Nat.cast_le (α := ℝ), scaled_kraft bounded, Nat.cast_pow, Nat.cast_ofNat]
    exact mul_le_of_le_one_right (by positivity) kraft

variable {α : Type*} {path : α → List Bool} {symbols : List α}

/-- With two symbols or more no code word is empty. -/
theorem prefixFree_nonempty (free : PrefixFree path symbols) (distinct : symbols.Nodup)
    (several : 2 ≤ symbols.length) : [] ∉ symbols.map path := by
  intro empty
  obtain ⟨symbol, member, none⟩ := List.mem_map.mp empty
  have only : ∀ other ∈ symbols, symbol = other := fun other otherMember =>
    free symbol member other otherMember (none ▸ List.nil_prefix)
  match symbols, several, distinct, only with
  | first :: second :: rest, _, distinct, only =>
      have same : first = second := (only first (by simp)).symm.trans (only second (by simp))
      exact (List.nodup_cons.mp distinct).1 (same ▸ List.mem_cons_self)

/-- The lengths of a prefix code satisfy the inequality of Kraft. -/
theorem prefixFree_fits (free : PrefixFree path symbols) (distinct : symbols.Nodup)
    (several : 2 ≤ symbols.length) :
    ∃ depth, Fits depth (symbols.map fun symbol => (path symbol).length) := by
  have injective : ∀ first ∈ symbols, ∀ second ∈ symbols, path first = path second →
      first = second := by
    intro first firstMember second secondMember same
    exact free first firstMember second secondMember (same ▸ List.prefix_rfl)
  have wordsDistinct : (symbols.map path).Nodup := List.Nodup.map_on injective distinct
  have decodable : UniquelyDecodable {word | word ∈ symbols.map path} := by
    apply uniquelyDecodable_of_prefixFree (prefixFree_nonempty free distinct several)
    intro first firstWord second secondWord isPrefix
    obtain ⟨symbol, member, rfl⟩ := List.mem_map.mp firstWord
    obtain ⟨other, otherMember, rfl⟩ := List.mem_map.mp secondWord
    rw [free symbol member other otherMember isPrefix]
  rw [← List.coe_toFinset] at decodable
  have kraft := kraft_mcmillan_inequality decodable
  rw [List.sum_toFinset _ wordsDistinct, Fintype.card_bool, List.map_map] at kraft
  refine ⟨(symbols.map fun symbol => (path symbol).length).sum, fits_of_kraft ?_ ?_⟩
  · exact fun length member => List.single_le_sum (fun _ _ => Nat.zero_le _) length member
  · rw [List.map_map]
    exact_mod_cast kraft

end Kraft

end OptimalCodes

end MiniIotRobotEdge

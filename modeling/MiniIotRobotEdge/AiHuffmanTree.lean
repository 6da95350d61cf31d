import Mathlib.Data.List.Perm.Basic
import Mathlib.Tactic.ByContra
import Mathlib.Tactic.SplitIfs
import MiniIotRobotEdge.BitString
import MiniIotRobotEdge.PrefixCode

/-!
# The Huffman tree of mini-edge-ai

The model of `huffman_build_tree` in `inference_opt.c`.  The nodes that are not
merged yet have a frequency above zero.  They are the roots of a forest that
shrinks by one tree with every merge, until one tree is left; its leaves are the
symbols, and the search for a symbol finds the path to its leaf.
-/

namespace MiniIotRobotEdge

namespace Ai

open BitString PrefixCode

structure HuffmanNode where
  left : Int
  right : Int
  freq : UInt32
  symbol : Int
  deriving DecidableEq, Repr

structure HuffmanCode where
  symbol : Int
  code : BitVec 32
  codeLen : Nat
  deriving DecidableEq, Repr

structure HuffmanEncoder where
  codes : Nat → HuffmanCode
  numSymbols : Nat
  totalBits : UInt64

/-- The cleared array with its leaves. -/
def huffmanLeaves (freqs : Nat → UInt32) (nSymbols : Nat) : Nat → HuffmanNode := fun i =>
  if i < nSymbols then ⟨-1, -1, if 0 < freqs i then freqs i else 1, i⟩ else ⟨0, 0, 0, 0⟩

/-- The two smallest nodes found so far. -/
structure SmallestNodes where
  min1 : Int
  min2 : Int
  f1 : UInt32
  f2 : UInt32

def scanNode (nodes : Nat → HuffmanNode) (found : SmallestNodes) (j : Nat) : SmallestNodes :=
  if (nodes j).freq = 0 then found
  else if (nodes j).freq < found.f1 then ⟨j, found.min1, (nodes j).freq, found.f1⟩
  else if (nodes j).freq < found.f2 then { found with f2 := (nodes j).freq, min2 := j }
  else found

def findSmallest (nodes : Nat → HuffmanNode) (i : Nat) : SmallestNodes :=
  (List.range i).foldl (scanNode nodes) ⟨-1, -1, 0xFFFFFFFF, 0xFFFFFFFF⟩

/-- Node `i` gets the two smallest nodes before it as children. -/
def mergeSmallest (nodes : Nat → HuffmanNode) (i : Nat) : Option (Nat → HuffmanNode) :=
  let found := findSmallest nodes i
  if found.min1 < 0 ∨ found.min2 < 0 then none
  else
    let min1 := found.min1.toNat
    let min2 := found.min2.toNat
    let nodes := Function.update nodes i
      ⟨found.min1, found.min2, (nodes min1).freq + (nodes min2).freq, -1⟩
    let nodes := Function.update nodes min1 { nodes min1 with freq := 0 }
    some (Function.update nodes min2 { nodes min2 with freq := 0 })

def huffmanNodes (freqs : Nat → UInt32) (nSymbols : Nat) : Option (Nat → HuffmanNode) :=
  (List.range' nSymbols (nSymbols - 1)).foldlM mergeSmallest (huffmanLeaves freqs nSymbols)

/-- What the search for a symbol keeps for later. -/
structure StackEntry where
  node : Nat
  depth : Nat
  code : BitVec 32

/-- The search for the leaf of a symbol, with the next entry in front.  It ends
with depth and code of the leaf. -/
def traceSymbol (nodes : Nat → HuffmanNode) (symbol : Nat) :
    Nat → List StackEntry → Nat × BitVec 32
  | 0, _ => (0, 0)
  | _, [] => (0, 0)
  | fuel + 1, entry :: stack =>
      if (nodes entry.node).left < 0 then
        if (nodes entry.node).symbol = symbol then (entry.depth, entry.code)
        else traceSymbol nodes symbol fuel stack
      else
        traceSymbol nodes symbol fuel
          (⟨(nodes entry.node).left.toNat, entry.depth + 1, push entry.code false⟩ ::
            ⟨(nodes entry.node).right.toNat, entry.depth + 1, push entry.code true⟩ :: stack)

/-- The search visits no node twice. -/
def huffmanCode (nodes : Nat → HuffmanNode) (nSymbols i : Nat) : HuffmanCode :=
  let leaf := traceSymbol nodes i (2 * nSymbols - 1) [⟨2 * nSymbols - 2, 0, 0⟩]
  ⟨i, leaf.2, if 0 < leaf.1 then leaf.1 else 8⟩

/-- The traversal of the tree. -/
def assignCodes (freqs : Nat → UInt32) (nSymbols : Nat) (enc : HuffmanEncoder)
    (nodes : Nat → HuffmanNode) : HuffmanEncoder where
  codes := fun i => if i < nSymbols then huffmanCode nodes nSymbols i else enc.codes i
  numSymbols := nSymbols
  totalBits := (List.range nSymbols).foldl (fun total i =>
    total + UInt64.ofNat (huffmanCode nodes nSymbols i).codeLen * (freqs i).toUInt64) 0

def huffmanBuildTree (freqs : Nat → UInt32) (nSymbols : Nat) (enc : HuffmanEncoder) :
    Option HuffmanEncoder :=
  if nSymbols = 0 ∨ 256 < nSymbols then none
  else (huffmanNodes freqs nSymbols).map (assignCodes freqs nSymbols enc)

section Merging

variable {nodes : Nat → HuffmanNode}

/-- What a scan of the first `count` nodes has found: no node with a frequency,
or the only one, or two different ones. -/
inductive Scanned (nodes : Nat → HuffmanNode) (count : Nat) : SmallestNodes → Prop
  | none (dead : ∀ j < count, (nodes j).freq = 0) :
      Scanned nodes count ⟨-1, -1, 0xFFFFFFFF, 0xFFFFFFFF⟩
  | one {first : Nat} (inside : first < count) (alive : (nodes first).freq ≠ 0)
      (only : ∀ j < count, (nodes j).freq ≠ 0 → j = first) :
      Scanned nodes count ⟨first, -1, (nodes first).freq, 0xFFFFFFFF⟩
  | two {first second : Nat} (inside : first < count) (secondInside : second < count)
      (differ : first ≠ second) (alive : (nodes first).freq ≠ 0)
      (secondAlive : (nodes second).freq ≠ 0) (f2 : UInt32) :
      Scanned nodes count ⟨first, second, (nodes first).freq, f2⟩

theorem scanned_step {count : Nat} {found : SmallestNodes} (scanned : Scanned nodes count found)
    (small : (nodes count).freq < 0xFFFFFFFF) :
    Scanned nodes (count + 1) (scanNode nodes found count) := by
  unfold scanNode
  by_cases dead : (nodes count).freq = 0
  · rw [if_pos dead]
    cases scanned with
    | none allDead =>
        apply Scanned.none
        intro j inside
        rcases Nat.lt_succ_iff_lt_or_eq.mp inside with before | rfl
        · exact allDead j before
        · exact dead
    | one inside alive only =>
        apply Scanned.one (by omega) alive
        intro j jInside jAlive
        rcases Nat.lt_succ_iff_lt_or_eq.mp jInside with before | rfl
        · exact only j before jAlive
        · exact absurd dead jAlive
    | two inside secondInside differ alive secondAlive f2 =>
        exact .two (by omega) (by omega) differ alive secondAlive f2
  · rw [if_neg dead]
    cases scanned with
    | none allDead =>
        rw [if_pos small]
        apply Scanned.one (Nat.lt_succ_self count) dead
        intro j inside jAlive
        rcases Nat.lt_succ_iff_lt_or_eq.mp inside with before | rfl
        · exact absurd (allDead j before) jAlive
        · rfl
    | one inside alive only =>
        split_ifs
        · exact .two (by omega) (by omega) (by omega) dead alive _
        · exact .two (by omega) (by omega) (by omega) alive dead _
    | two inside secondInside differ alive secondAlive f2 =>
        split_ifs
        · exact .two (by omega) (by omega) (by omega) dead alive _
        · exact .two (by omega) (by omega) (by omega) alive dead _
        · exact .two (by omega) (by omega) differ alive secondAlive f2

theorem findSmallest_scanned {i : Nat} (small : ∀ j < i, (nodes j).freq < 0xFFFFFFFF) :
    Scanned nodes i (findSmallest nodes i) := by
  unfold findSmallest
  induction i with
  | zero => exact .none fun j inside => absurd inside (Nat.not_lt_zero j)
  | succ i ih =>
      rw [List.range_succ, List.foldl_append, List.foldl_cons, List.foldl_nil]
      exact scanned_step (ih fun j inside => small j (by omega)) (small i (Nat.lt_succ_self i))

/-- The node is the root of the tree. -/
def Represents (nodes : Nat → HuffmanNode) : Nat → CodeTree Nat → Prop
  | index, .leaf symbol => (nodes index).left < 0 ∧ (nodes index).symbol = symbol
  | index, .node left right =>
      ∃ leftIndex < index, ∃ rightIndex < index, (nodes index).left = (leftIndex : Nat) ∧
        (nodes index).right = (rightIndex : Nat) ∧ Represents nodes leftIndex left ∧
          Represents nodes rightIndex right

/-- A tree stays in the array as long as the nodes up to its root keep
everything but their frequencies. -/
theorem Represents.congr {other : Nat → HuffmanNode} {bound index : Nat} {tree : CodeTree Nat}
    (represents : Represents nodes index tree) (inside : index < bound)
    (same : ∀ j < bound, (other j).left = (nodes j).left ∧ (other j).right = (nodes j).right ∧
      (other j).symbol = (nodes j).symbol) : Represents other index tree := by
  obtain ⟨left, right, symbol⟩ := same index inside
  induction tree generalizing index with
  | leaf =>
      rw [Represents, left, symbol]
      exact represents
  | node leftTree rightTree leftIh rightIh =>
      obtain ⟨leftIndex, leftBefore, rightIndex, rightBefore, isLeft, isRight, leftPart,
        rightPart⟩ := represents
      have leftInside : leftIndex < bound := by omega
      have rightInside : rightIndex < bound := by omega
      obtain ⟨sameLeft, sameRight, sameSymbol⟩ := same leftIndex leftInside
      obtain ⟨sameLeft', sameRight', sameSymbol'⟩ := same rightIndex rightInside
      exact ⟨leftIndex, leftBefore, rightIndex, rightBefore, left.trans isLeft,
        right.trans isRight, leftIh leftPart leftInside sameLeft sameRight sameSymbol,
        rightIh rightPart rightInside sameLeft' sameRight' sameSymbol'⟩

/-- The nodes up to `bound` that have a frequency, the newest one among them,
are the roots of the forest, whose leaves are the symbols. -/
structure Forest (nodes : Nat → HuffmanNode) (nSymbols bound : Nat)
    (forest : List (Nat × CodeTree Nat)) : Prop where
  distinct : (forest.map Prod.fst).Nodup
  alive : ∀ index, index ∈ forest.map Prod.fst ↔ index < bound ∧ (nodes index).freq ≠ 0
  newest : bound - 1 ∈ forest.map Prod.fst
  represents : ∀ root ∈ forest, Represents nodes root.1 root.2
  total : (forest.map fun root => (nodes root.1).freq.toNat).sum < 2 ^ 32
  leaves : (forest.flatMap fun root => root.2.symbols).Perm (List.range nSymbols)

variable {nSymbols bound : Nat} {forest other : List (Nat × CodeTree Nat)}

theorem Forest.perm (holds : Forest nodes nSymbols bound forest) (perm : forest.Perm other) :
    Forest nodes nSymbols bound other where
  distinct := (perm.map Prod.fst).nodup holds.distinct
  alive := fun index => by rw [← (perm.map Prod.fst).mem_iff, holds.alive]
  newest := (perm.map Prod.fst).mem_iff.mp holds.newest
  represents := fun root member => holds.represents root (perm.mem_iff.mpr member)
  total := by
    rw [← (perm.map fun root => (nodes root.1).freq.toNat).sum_nat]
    exact holds.total
  leaves := (perm.symm.flatMap_right _).trans holds.leaves

theorem exists_perm_pair {α : Type*} {list : List α} {first second : α} (firstMember : first ∈ list)
    (secondMember : second ∈ list) (differ : first ≠ second) :
    ∃ rest, list.Perm (first :: second :: rest) := by
  classical
  have behind : second ∈ list.erase first := (List.mem_erase_of_ne differ.symm).mpr secondMember
  exact ⟨(list.erase first).erase second,
    (List.perm_cons_erase firstMember).trans ((List.perm_cons_erase behind).cons first)⟩

/-- Two roots in front, with the rest of the forest. -/
theorem exists_pair {first second : Nat} (firstMember : first ∈ forest.map Prod.fst)
    (secondMember : second ∈ forest.map Prod.fst) (differ : first ≠ second) :
    ∃ firstTree secondTree rest,
      forest.Perm ((first, firstTree) :: (second, secondTree) :: rest) := by
  obtain ⟨⟨_, firstTree⟩, firstRoot, rfl⟩ := List.mem_map.mp firstMember
  obtain ⟨⟨_, secondTree⟩, secondRoot, rfl⟩ := List.mem_map.mp secondMember
  obtain ⟨rest, perm⟩ := exists_perm_pair firstRoot secondRoot
    (fun same => differ (congrArg Prod.fst same))
  exact ⟨firstTree, secondTree, rest, perm⟩

theorem Forest.another (holds : Forest nodes nSymbols bound forest) (several : 2 ≤ forest.length)
    (index : Nat) : ∃ another ∈ forest.map Prod.fst, index ≠ another := by
  match forest, several, holds.distinct with
  | first :: second :: rest, _, distinct =>
      have differ : first.1 ≠ second.1 := by
        have headFresh := (List.nodup_cons.mp distinct).1
        rw [List.map_cons] at headFresh
        exact List.ne_of_not_mem_cons headFresh
      by_cases here : index = first.1
      · exact ⟨second.1, by simp, here ▸ differ⟩
      · exact ⟨first.1, by simp, here⟩

/-- In a forest of two trees or more no frequency is the largest word. -/
theorem Forest.small (holds : Forest nodes nSymbols bound forest) (several : 2 ≤ forest.length)
    {index : Nat} (inside : index < bound) : (nodes index).freq < 0xFFFFFFFF := by
  by_cases dead : (nodes index).freq = 0
  · rw [dead]
    decide
  · have member := (holds.alive index).mpr ⟨inside, dead⟩
    obtain ⟨another, anotherMember, differ⟩ := holds.another several index
    obtain ⟨tree, anotherTree, rest, perm⟩ := exists_pair member anotherMember differ
    have total := (holds.perm perm).total
    have positive : 0 < (nodes another).freq.toNat := by
      have alive := ((holds.alive another).mp anotherMember).2
      rcases Nat.eq_zero_or_pos (nodes another).freq.toNat with zero | positive
      · exact absurd (UInt32.toNat_inj.mp zero) alive
      · exact positive
    rw [List.map_cons, List.map_cons, List.sum_cons, List.sum_cons] at total
    dsimp only at total
    rw [UInt32.lt_iff_toNat_lt]
    change (nodes index).freq.toNat < 2 ^ 32 - 1
    omega

/-- What a merge of two nodes leaves in the array. -/
def merged (nodes : Nat → HuffmanNode) (bound first second : Nat) : Nat → HuffmanNode :=
  let nodes := Function.update nodes bound
    ⟨first, second, (nodes first).freq + (nodes second).freq, -1⟩
  let nodes := Function.update nodes first { nodes first with freq := 0 }
  Function.update nodes second { nodes second with freq := 0 }

theorem merged_bound (nodes : Nat → HuffmanNode) {first second : Nat} (inside : first < bound)
    (secondInside : second < bound) :
    merged nodes bound first second bound =
      ⟨first, second, (nodes first).freq + (nodes second).freq, -1⟩ := by
  rw [merged, Function.update_of_ne (by omega), Function.update_of_ne (by omega),
    Function.update_self]

/-- The nodes in front lose nothing but, if they are merged, their frequency. -/
theorem merged_before {first second index : Nat} (inside : index < bound) :
    merged nodes bound first second index =
      { nodes index with
        freq := if index = first ∨ index = second then 0 else (nodes index).freq } := by
  by_cases isSecond : index = second
  · subst isSecond
    by_cases isFirst : index = first
    · subst isFirst
      simp [merged, Function.update_of_ne (show index ≠ bound by omega)]
    · simp [merged, isFirst, Function.update_of_ne (show index ≠ bound by omega)]
  · by_cases isFirst : index = first
    · subst isFirst
      simp [merged, isSecond, Function.update_of_ne (show index ≠ bound by omega)]
    · simp [merged, isFirst, isSecond, Function.update_of_ne (show index ≠ bound by omega)]

section Pair

variable {first second : Nat} {firstTree secondTree : CodeTree Nat}
  {rest : List (Nat × CodeTree Nat)}
  (holds : Forest nodes nSymbols bound ((first, firstTree) :: (second, secondTree) :: rest))
include holds

theorem Forest.first_root : first < bound ∧ (nodes first).freq ≠ 0 :=
  (holds.alive first).mp (by simp)

theorem Forest.second_root : second < bound ∧ (nodes second).freq ≠ 0 :=
  (holds.alive second).mp (by simp)

theorem Forest.rest_before {index : Nat} (member : index ∈ rest.map Prod.fst) : index < bound :=
  ((holds.alive index).mp (List.mem_cons_of_mem _ (List.mem_cons_of_mem _ member))).1

theorem Forest.rest_apart {index : Nat} (member : index ∈ rest.map Prod.fst) :
    ¬(index = first ∨ index = second) := by
  obtain ⟨firstFresh, secondFresh, _⟩ : (first ≠ second ∧ first ∉ rest.map Prod.fst) ∧
      second ∉ rest.map Prod.fst ∧ (rest.map Prod.fst).Nodup := by
    simpa [not_or] using holds.distinct
  rintro (rfl | rfl)
  · exact firstFresh.2 member
  · exact secondFresh member

theorem Forest.pair_total : (nodes first).freq.toNat + ((nodes second).freq.toNat +
    (rest.map fun root => (nodes root.1).freq.toNat).sum) < 2 ^ 32 := by
  have total := holds.total
  rwa [List.map_cons, List.map_cons, List.sum_cons, List.sum_cons] at total

theorem Forest.pair_freq : ((nodes first).freq + (nodes second).freq).toNat =
    (nodes first).freq.toNat + (nodes second).freq.toNat := by
  have total := holds.pair_total
  rw [UInt32.toNat_add, Nat.mod_eq_of_lt (by omega)]

theorem Forest.alive_merged (index : Nat) : index ∈ bound :: rest.map Prod.fst ↔
    index < bound + 1 ∧ (merged nodes bound first second index).freq ≠ 0 := by
  obtain ⟨inside, alive⟩ := holds.first_root
  have secondInside := holds.second_root.1
  rcases Nat.lt_trichotomy index bound with before | rfl | behind
  · have old := holds.alive index
    rw [List.map_cons, List.map_cons, List.mem_cons, List.mem_cons, ← or_assoc] at old
    rw [merged_before before, List.mem_cons]
    dsimp only
    by_cases isMerged : index = first ∨ index = second
    · have apart : index ∉ rest.map Prod.fst := fun member => holds.rest_apart member isMerged
      rw [if_pos isMerged]
      simp only [apart, ne_eq, not_true_eq_false, and_false, or_false, iff_false]
      omega
    · rw [if_neg isMerged]
      simp only [isMerged, false_or, before, true_and] at old
      rw [old]
      constructor
      · rintro (atBound | freq)
        · omega
        · exact ⟨by omega, freq⟩
      · exact fun both => .inr both.2
  · rw [merged_bound nodes inside secondInside]
    refine iff_of_true List.mem_cons_self ⟨Nat.lt_succ_self index, fun zero => alive ?_⟩
    have sum := holds.pair_freq
    dsimp only at zero
    rw [zero] at sum
    apply UInt32.toNat_inj.mp
    change _ = 0
    have none : (0 : UInt32).toNat = 0 := rfl
    omega
  · apply iff_of_false
    · rw [List.mem_cons]
      rintro (atBound | member)
      · omega
      · have before := holds.rest_before member
        omega
    · omega

/-- Two trees in front of the forest become one. -/
theorem Forest.merge : Forest (merged nodes bound first second) nSymbols (bound + 1)
    ((bound, .node firstTree secondTree) :: rest) := by
  have inside := holds.first_root.1
  have secondInside := holds.second_root.1
  have atBound := merged_bound nodes inside secondInside
  have kept {index : Nat} {tree : CodeTree Nat} (before : index < bound)
      (represents : Represents nodes index tree) :
      Represents (merged nodes bound first second) index tree := by
    apply represents.congr before
    intro j jBefore
    rw [merged_before jBefore]
    exact ⟨rfl, rfl, rfl⟩
  refine ⟨?_, holds.alive_merged, List.mem_cons_self, ?_, ?_, ?_⟩
  · have fresh : bound ∉ rest.map Prod.fst := fun member =>
      Nat.lt_irrefl bound (holds.rest_before member)
    have distinct := (List.nodup_cons.mp (List.nodup_cons.mp holds.distinct).2).2
    exact List.nodup_cons.mpr ⟨fresh, distinct⟩
  · intro root member
    rcases List.mem_cons.mp member with rfl | member
    · refine ⟨first, inside, second, secondInside, ?_, ?_, ?_, ?_⟩
      · rw [atBound]
      · rw [atBound]
      · exact kept inside (holds.represents (first, firstTree) (by simp))
      · exact kept secondInside (holds.represents (second, secondTree) (by simp))
    · have before := holds.rest_before (List.mem_map_of_mem member)
      exact kept before (holds.represents root (by simp [member]))
  · have restSum : (rest.map fun root => (merged nodes bound first second root.1).freq.toNat) =
        rest.map fun root => (nodes root.1).freq.toNat := by
      apply List.map_congr_left
      intro root member
      have index := List.mem_map_of_mem (f := Prod.fst) member
      rw [merged_before (holds.rest_before index), if_neg (holds.rest_apart index)]
    have total := holds.pair_total
    rw [List.map_cons, List.sum_cons, restSum, atBound, holds.pair_freq]
    omega
  · have leaves := holds.leaves
    rw [List.flatMap_cons, List.flatMap_cons, ← List.append_assoc] at leaves
    rw [List.flatMap_cons, symbols_node]
    exact leaves

end Pair

/-- The two nodes found are different roots. -/
theorem findSmallest_roots (holds : Forest nodes nSymbols bound forest)
    (several : 2 ≤ forest.length) :
    ∃ first ∈ forest.map Prod.fst, ∃ second ∈ forest.map Prod.fst, first ≠ second ∧
      ∃ f2, findSmallest nodes bound = ⟨first, second, (nodes first).freq, f2⟩ := by
  have scanned := findSmallest_scanned fun j inside => holds.small several inside
  cases found : findSmallest nodes bound with
  | mk min1 min2 f1 f2 =>
      rw [found] at scanned
      cases scanned with
      | none dead =>
          obtain ⟨another, member, _⟩ := holds.another several 0
          obtain ⟨inside, alive⟩ := (holds.alive another).mp member
          exact absurd (dead another inside) alive
      | one inside alive only =>
          obtain ⟨another, member, differ⟩ := holds.another several _
          obtain ⟨anotherInside, anotherAlive⟩ := (holds.alive another).mp member
          exact absurd (only another anotherInside anotherAlive).symm differ
      | two inside secondInside differ alive secondAlive f2 =>
          exact ⟨_, (holds.alive _).mpr ⟨inside, alive⟩, _,
            (holds.alive _).mpr ⟨secondInside, secondAlive⟩, differ, f2, rfl⟩

theorem mergeSmallest_of_found {first second : Nat} {f1 f2 : UInt32}
    (found : findSmallest nodes bound = ⟨first, second, f1, f2⟩) :
    mergeSmallest nodes bound = some (merged nodes bound first second) := by
  rw [mergeSmallest, found]
  rfl

/-- The two smallest nodes are different roots. -/
theorem mergeSmallest_eq (holds : Forest nodes nSymbols bound forest)
    (several : 2 ≤ forest.length) :
    ∃ first ∈ forest.map Prod.fst, ∃ second ∈ forest.map Prod.fst, first ≠ second ∧
      mergeSmallest nodes bound = some (merged nodes bound first second) := by
  obtain ⟨first, firstMember, second, secondMember, differ, f2, found⟩ :=
    findSmallest_roots holds several
  exact ⟨first, firstMember, second, secondMember, differ, mergeSmallest_of_found found⟩

/-- Merging on until one tree is left. -/
theorem merges_forest (count : Nat) (holds : Forest nodes nSymbols bound forest)
    (length : forest.length = count + 1) :
    ∃ final tree, (List.range' bound count).foldlM mergeSmallest nodes = some final ∧
      Forest final nSymbols (bound + count) [(bound + count - 1, tree)] := by
  induction count generalizing nodes bound forest with
  | zero =>
      obtain ⟨⟨index, tree⟩, rfl⟩ := List.length_eq_one_iff.mp length
      obtain rfl : bound - 1 = index := by simpa using holds.newest
      exact ⟨nodes, tree, rfl, holds⟩
  | succ count ih =>
      obtain ⟨first, firstMember, second, secondMember, differ, merges⟩ :=
        mergeSmallest_eq holds (by omega)
      obtain ⟨firstTree, secondTree, rest, perm⟩ := exists_pair firstMember secondMember differ
      have sameLength := perm.length_eq
      have next := (holds.perm perm).merge
      obtain ⟨final, tree, run, finalHolds⟩ := ih next (by
        simp only [List.length_cons] at sameLength ⊢
        omega)
      refine ⟨final, tree, ?_, ?_⟩
      · rw [List.range'_succ, List.foldlM_cons, merges]
        exact run
      · rwa [Nat.add_assoc, Nat.add_comm 1] at finalHolds

theorem leaf_freq (freqs : Nat → UInt32) {nSymbols i : Nat} (inside : i < nSymbols) :
    (huffmanLeaves freqs nSymbols i).freq.toNat = max 1 (freqs i).toNat := by
  rw [huffmanLeaves, if_pos inside]
  dsimp only
  split_ifs with positive
  · rw [UInt32.lt_iff_toNat_lt] at positive
    change 0 < (freqs i).toNat at positive
    omega
  · rw [UInt32.lt_iff_toNat_lt] at positive
    change ¬0 < (freqs i).toNat at positive
    change 1 = _
    omega

/-- At first every symbol is a tree of its own. -/
theorem leaves_forest {freqs : Nat → UInt32} (positive : 0 < nSymbols)
    (total : ((List.range nSymbols).map fun i => max 1 (freqs i).toNat).sum < 2 ^ 32) :
    Forest (huffmanLeaves freqs nSymbols) nSymbols nSymbols
      ((List.range nSymbols).map fun i => (i, .leaf i)) := by
  have roots : ((List.range nSymbols).map fun i => (i, CodeTree.leaf i)).map Prod.fst =
      List.range nSymbols := by
    simp [Function.comp_def]
  refine ⟨?_, ?_, ?_, ?_, ?_, ?_⟩
  · rw [roots]
    exact List.nodup_range
  · intro index
    rw [roots, List.mem_range]
    constructor
    · intro inside
      refine ⟨inside, fun zero => ?_⟩
      have freq := leaf_freq freqs inside
      rw [zero] at freq
      change 0 = _ at freq
      omega
    · exact And.left
  · rw [roots, List.mem_range]
    omega
  · intro root member
    obtain ⟨i, inside, rfl⟩ := List.mem_map.mp member
    rw [Represents, huffmanLeaves, if_pos (List.mem_range.mp inside)]
    exact ⟨show (-1 : Int) < 0 by decide, rfl⟩
  · rw [List.map_map]
    have freq : (List.range nSymbols).map ((fun root : Nat × CodeTree Nat =>
        (huffmanLeaves freqs nSymbols root.1).freq.toNat) ∘ fun i => (i, CodeTree.leaf i)) =
        (List.range nSymbols).map fun i => max 1 (freqs i).toNat := by
      apply List.map_congr_left
      intro i inside
      exact leaf_freq freqs (List.mem_range.mp inside)
    rw [freq]
    exact total
  · rw [List.flatMap_map]
    simp [CodeTree.symbols, CodeTree.table]

/-- The array ends with the root of a tree of all symbols. -/
theorem huffmanNodes_tree {freqs : Nat → UInt32} (positive : 0 < nSymbols)
    (total : ((List.range nSymbols).map fun i => max 1 (freqs i).toNat).sum < 2 ^ 32) :
    ∃ final tree, huffmanNodes freqs nSymbols = some final ∧
      Represents final (2 * nSymbols - 2) tree ∧ tree.symbols.Perm (List.range nSymbols) := by
  obtain ⟨final, tree, run, holds⟩ := merges_forest (nSymbols - 1)
    (leaves_forest positive total) (by simp; omega)
  have last : nSymbols + (nSymbols - 1) - 1 = 2 * nSymbols - 2 := by omega
  have root := holds.represents _ List.mem_cons_self
  rw [last] at root
  exact ⟨final, tree, run, root, by simpa using holds.leaves⟩

end Merging

section Search

variable {nodes : Nat → HuffmanNode}

/-- The entry stands for a tree at the end of a path. -/
structure Pending (nodes : Nat → HuffmanNode) (entry : StackEntry)
    (part : CodeTree Nat × List Bool) : Prop where
  represents : Represents nodes entry.node part.1
  depth : entry.depth = part.2.length
  code : entry.code = word 32 part.2

/-- A child of a tree is one step further on. -/
theorem Pending.child {entry : StackEntry} {part : CodeTree Nat × List Bool}
    (top : Pending nodes entry part) {child : Int} {index : Nat} {tree : CodeTree Nat}
    (isChild : child = index) (represents : Represents nodes index tree) (bit : Bool) :
    Pending nodes ⟨child.toNat, entry.depth + 1, push entry.code bit⟩
      (tree, part.2 ++ [bit]) where
  represents := by rwa [isChild, Int.toNat_natCast]
  depth := by rw [List.length_append, top.depth, List.length_singleton]
  code := by rw [word_append_singleton, top.code]

/-- The depth and the code that go with a leaf found. -/
def leafCode : Option (Nat × List Bool) → Nat × BitVec 32
  | none => (0, 0)
  | some leaf => (leaf.2.length, word 32 leaf.2)

/-- The search goes through the leaves of the trees on the stack, from the left. -/
theorem traceSymbol_eq (symbol fuel : Nat) {stack : List StackEntry}
    {parts : List (CodeTree Nat × List Bool)} (pending : List.Forall₂ (Pending nodes) stack parts)
    (enough : (parts.map fun part => part.1.size).sum ≤ fuel) :
    traceSymbol nodes symbol fuel stack =
      leafCode ((parts.flatMap fun part => part.1.tableFrom part.2).find? fun leaf =>
        leaf.1 = symbol) := by
  induction fuel generalizing stack parts with
  | zero =>
      cases pending with
      | nil => rfl
      | @cons entry part stack parts top rest =>
          have positive := size_eq part.1
          rw [List.map_cons, List.sum_cons] at enough
          omega
  | succ fuel ih =>
      cases pending with
      | nil => rfl
      | @cons entry part stack parts top rest =>
          obtain ⟨tree, path⟩ := part
          rw [List.map_cons, List.sum_cons] at enough
          rw [traceSymbol, List.flatMap_cons]
          cases tree with
          | leaf leafSymbol =>
              obtain ⟨isLeaf, isSymbol⟩ := top.represents
              rw [if_pos isLeaf, isSymbol, tableFrom_leaf, List.singleton_append, List.find?_cons]
              by_cases found : leafSymbol = symbol
              · simp [found, leafCode, top.depth, top.code]
              · have later := ih rest (by rw [CodeTree.size] at enough; omega)
                simpa [found] using later
          | node left right =>
              obtain ⟨leftIndex, _, rightIndex, _, isLeft, isRight, leftPart, rightPart⟩ :=
                top.represents
              rw [if_neg (by omega), tableFrom_node, List.append_assoc]
              have leftTop := top.child isLeft leftPart false
              have rightTop := top.child isRight rightPart true
              have later := ih (.cons leftTop (.cons rightTop rest)) (by
                rw [CodeTree.size] at enough
                simp only [List.map_cons, List.sum_cons]
                omega)
              rw [later, List.flatMap_cons, List.flatMap_cons]

/-- The code that is assigned to a symbol. -/
theorem huffmanCode_eq {nSymbols i : Nat} {tree : CodeTree Nat}
    (represents : Represents nodes (2 * nSymbols - 2) tree)
    (leaves : tree.symbols.Perm (List.range nSymbols)) (inside : i < nSymbols) :
    huffmanCode nodes nSymbols i =
      ⟨i, word 32 (tree.pathTo i),
        if 0 < (tree.pathTo i).length then (tree.pathTo i).length else 8⟩ := by
  have member : i ∈ tree.symbols := leaves.mem_iff.mpr (List.mem_range.mpr inside)
  have size := size_eq tree
  rw [leaves.length_eq, List.length_range] at size
  have root : Pending nodes ⟨2 * nSymbols - 2, 0, 0⟩ (tree, []) := ⟨represents, rfl, rfl⟩
  have search := traceSymbol_eq i (2 * nSymbols - 1) (.cons root .nil) (by
    simp only [List.map_cons, List.map_nil, List.sum_cons, List.sum_nil]
    omega)
  rw [List.flatMap_cons, List.flatMap_nil, List.append_nil, tableFrom_nil, find?_table member]
    at search
  rw [huffmanCode, search]
  rfl

end Search

section Codes

/-- The code word of a symbol; the only symbol of a tree gets eight zeros. -/
def huffmanWord (tree : CodeTree Nat) (i : Nat) : List Bool :=
  if tree.pathTo i = [] then List.replicate 8 false else tree.pathTo i

/-- The codes are those of the words, and the words are a prefix code. -/
structure Encodes (enc : HuffmanEncoder) (words : Nat → List Bool) : Prop where
  codes : ∀ i < enc.numSymbols, enc.codes i = ⟨i, word 32 (words i), (words i).length⟩
  positive : ∀ i < enc.numSymbols, words i ≠ []
  prefixFree : PrefixFree words (List.range enc.numSymbols)

theorem huffmanWord_prefixFree {nSymbols : Nat} {tree : CodeTree Nat}
    (leaves : tree.symbols.Perm (List.range nSymbols)) :
    PrefixFree (huffmanWord tree) (List.range nSymbols) := by
  intro first firstMember second secondMember isPrefix
  rcases Nat.lt_or_ge 1 tree.symbols.length with several | single
  · have firstPath := path_ne_nil several (pathTo_mem (leaves.mem_iff.mpr firstMember))
    have secondPath := path_ne_nil several (pathTo_mem (leaves.mem_iff.mpr secondMember))
    rw [huffmanWord, huffmanWord, if_neg firstPath, if_neg secondPath] at isPrefix
    exact prefixFree_pathTo tree first (leaves.mem_iff.mpr firstMember) second
      (leaves.mem_iff.mpr secondMember) isPrefix
  · rw [leaves.length_eq, List.length_range] at single
    rw [List.mem_range] at firstMember secondMember
    omega

theorem huffmanCode_word {nodes : Nat → HuffmanNode} {nSymbols i : Nat} {tree : CodeTree Nat}
    (represents : Represents nodes (2 * nSymbols - 2) tree)
    (leaves : tree.symbols.Perm (List.range nSymbols)) (inside : i < nSymbols) :
    huffmanCode nodes nSymbols i =
      ⟨i, word 32 (huffmanWord tree i), (huffmanWord tree i).length⟩ := by
  rw [huffmanCode_eq represents leaves inside, huffmanWord]
  split_ifs with positive empty empty
  · rw [empty] at positive
    contradiction
  · rfl
  · rw [empty]
    rfl
  · exact absurd (List.length_pos_iff.mpr empty) positive

/-- A tree is built, and its codes are a prefix code. -/
theorem huffmanBuildTree_encodes {freqs : Nat → UInt32} {nSymbols : Nat}
    (positive : 0 < nSymbols) (bounded : nSymbols ≤ 256)
    (total : ((List.range nSymbols).map fun i => max 1 (freqs i).toNat).sum < 2 ^ 32)
    (enc : HuffmanEncoder) :
    ∃ built words, huffmanBuildTree freqs nSymbols enc = some built ∧
      built.numSymbols = nSymbols ∧ Encodes built words := by
  obtain ⟨nodes, tree, run, represents, leaves⟩ := huffmanNodes_tree positive total
  have builds : huffmanBuildTree freqs nSymbols enc =
      some (assignCodes freqs nSymbols enc nodes) := by
    rw [huffmanBuildTree, if_neg (by omega), run, Option.map_some]
  refine ⟨_, huffmanWord tree, builds, rfl, ?_, ?_, ?_⟩
  · intro i inside
    exact (if_pos inside).trans (huffmanCode_word represents leaves inside)
  · intro i _ empty
    rw [huffmanWord] at empty
    split_ifs at empty with noPath
    · contradiction
    · exact noPath empty
  · exact huffmanWord_prefixFree leaves

end Codes

end Ai

end MiniIotRobotEdge

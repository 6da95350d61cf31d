import MiniIotRobotEdge.HeapOrder
import MiniIotRobotEdge.LargestPart

/-!
# The greatest scores of a stream

The model of the top-k heap in `edge_inference.c`, over any linear order of
scores.  The heap has a least entry in front, which makes room for a greater
one.  Scores and indices move together, so the two arrays are one of pairs.
-/

namespace MiniIotRobotEdge

namespace Ai

open ExchangeSort HeapOrder LargestPart

def topkMaxK : Int := 100

structure TopKHeap (Score : Type*) where
  scores : Nat → Score
  indices : Nat → Int
  k : Int
  size : Nat

section Functions

variable {Score : Type*} [LinearOrder Score]

def topkInit (tk : TopKHeap Score) (k : Int) : TopKHeap Score :=
  { tk with k := if k < topkMaxK then k else topkMaxK, size := 0 }

/-- The two exchanges that stand together everywhere. -/
def TopKHeap.exchange (tk : TopKHeap Score) (i j : Nat) : TopKHeap Score :=
  { tk with scores := swap tk.scores i j, indices := swap tk.indices i j }

/-- The place goes up with every call, so the size is a bound for their number. -/
def topkHeapSiftDown : Nat → TopKHeap Score → Nat → TopKHeap Score
  | 0, tk, _ => tk
  | fuel + 1, tk, i =>
      let smallest := i
      let l := 2 * i + 1
      let r := 2 * i + 2
      let smallest := if l < tk.size ∧ tk.scores l < tk.scores smallest then l else smallest
      let smallest := if r < tk.size ∧ tk.scores r < tk.scores smallest then r else smallest
      if smallest ≠ i then topkHeapSiftDown fuel (tk.exchange i smallest) smallest else tk

/-- The loop of `topk_push`.  The place goes down with every turn. -/
def topkSiftUp : Nat → TopKHeap Score → Nat → TopKHeap Score
  | 0, tk, _ => tk
  | fuel + 1, tk, i =>
      if 0 < i ∧ tk.scores ((i - 1) / 2) > tk.scores i then
        topkSiftUp fuel (tk.exchange i ((i - 1) / 2)) ((i - 1) / 2)
      else tk

def topkPush (tk : TopKHeap Score) (score : Score) (idx : Int) : TopKHeap Score :=
  if tk.k ≤ 0 then tk
  else if tk.size < tk.k then
    topkSiftUp tk.size
      { tk with
        scores := Function.update tk.scores tk.size score
        indices := Function.update tk.indices tk.size idx
        size := tk.size + 1 } tk.size
  else if score > tk.scores 0 then
    topkHeapSiftDown tk.size
      { tk with
        scores := Function.update tk.scores 0 score
        indices := Function.update tk.indices 0 idx } 0
  else tk

/-- The comparison of two places in the caller's arrays; `indices` may be a null pointer. -/
def topkExchange (out : (Nat → Score) × Option (Nat → Int)) (i j : Nat) :
    (Nat → Score) × Option (Nat → Int) :=
  if out.1 j > out.1 i then (swap out.1 i j, out.2.map fun indices => swap indices i j) else out

/-- The result comes with the caller's arrays. -/
def topkGetSorted (tk : TopKHeap Score) (scores : Nat → Score) (indices : Option (Nat → Int)) :
    Int × (Nat → Score) × Option (Nat → Int) :=
  let copied : (Nat → Score) × Option (Nat → Int) :=
    (fun i => if i < tk.size then tk.scores i else scores i,
      indices.map fun indices i => if i < tk.size then tk.indices i else indices i)
  (tk.size,
    (List.range (tk.size - 1)).foldl (fun out i =>
      (List.range' (i + 1) (tk.size - (i + 1))).foldl (fun out j => topkExchange out i j) out)
      copied)

end Functions

section Pairs

variable {Score : Type*} {tk : TopKHeap Score}

/-- The two arrays as one. -/
def TopKHeap.slots (tk : TopKHeap Score) : Nat → Score × Int :=
  fun i => (tk.scores i, tk.indices i)

theorem slots_exchange (tk : TopKHeap Score) (i j : Nat) :
    (tk.exchange i j).slots = swap tk.slots i j := by
  funext place
  rw [swap_eq, TopKHeap.slots, TopKHeap.exchange, swap_eq, swap_eq]
  rfl

theorem slots_write (tk : TopKHeap Score) (place size : Nat) (score : Score) (idx : Int) :
    ({ tk with
        scores := Function.update tk.scores place score
        indices := Function.update tk.indices place idx
        size := size } : TopKHeap Score).slots =
      Function.update tk.slots place (score, idx) := by
  funext other
  rcases eq_or_ne other place with rfl | differs
  · simp only [TopKHeap.slots, Function.update_self]
  · simp only [TopKHeap.slots, Function.update_of_ne differs]

variable [LinearOrder Score]

/-- The result of a loop in `topk_push`, as a heap over pairs. -/
structure Rearranges (tk after : TopKHeap Score) (slots : Nat → Score × Int) : Prop where
  slots : after.slots = slots
  k : after.k = tk.k
  size : after.size = tk.size

theorem topkHeapSiftDown_eq_sink (fuel : Nat) (tk : TopKHeap Score) (i : Nat) :
    Rearranges tk (topkHeapSiftDown fuel tk i) (sink Prod.fst tk.size fuel tk.slots i) := by
  induction fuel generalizing tk i with
  | zero => exact ⟨rfl, rfl, rfl⟩
  | succ fuel ih =>
      by_cases stays : smallest Prod.fst tk.slots tk.size i = i
      · have same : topkHeapSiftDown (fuel + 1) tk i = tk := if_neg (not_not.mpr stays)
        rw [sink, if_pos stays, same]
        exact ⟨rfl, rfl, rfl⟩
      · have moved : topkHeapSiftDown (fuel + 1) tk i =
            topkHeapSiftDown fuel (tk.exchange i (smallest Prod.fst tk.slots tk.size i))
              (smallest Prod.fst tk.slots tk.size i) := if_pos stays
        have rest := ih (tk.exchange i (smallest Prod.fst tk.slots tk.size i))
          (smallest Prod.fst tk.slots tk.size i)
        rw [slots_exchange] at rest
        rw [sink, if_neg stays, moved]
        exact ⟨rest.slots, rest.k, rest.size⟩

theorem topkSiftUp_eq_rise (fuel : Nat) (tk : TopKHeap Score) (i : Nat) :
    Rearranges tk (topkSiftUp fuel tk i) (rise Prod.fst fuel tk.slots i) := by
  induction fuel generalizing tk i with
  | zero => exact ⟨rfl, rfl, rfl⟩
  | succ fuel ih =>
      by_cases rises : 0 < i ∧ (tk.slots i).1 < (tk.slots (parent i)).1
      · have moved : topkSiftUp (fuel + 1) tk i =
            topkSiftUp fuel (tk.exchange i (parent i)) (parent i) := if_pos rises
        have rest := ih (tk.exchange i (parent i)) (parent i)
        rw [slots_exchange] at rest
        rw [rise, if_pos rises, moved]
        exact ⟨rest.slots, rest.k, rest.size⟩
      · have same : topkSiftUp (fuel + 1) tk i = tk := if_neg rises
        rw [rise, if_neg rises, same]
        exact ⟨rfl, rfl, rfl⟩

end Pairs

section Pushes

variable {Score : Type*} [LinearOrder Score] {tk : TopKHeap Score}

/-- The pairs in the heap. -/
def TopKHeap.bag (tk : TopKHeap Score) : Multiset (Score × Int) :=
  (entries tk.size tk.slots : List (Score × Int))

/-- The heap holds as many of the greatest pairs as it has room for. -/
structure KeepsLargest (tk : TopKHeap Score) (k : Nat) (pushed : Multiset (Score × Int)) :
    Prop where
  bound : tk.k = k
  size : tk.size = min k pushed.card
  ordered : Ordered Prod.fst tk.slots tk.size
  largest : IsLargest Prod.fst tk.bag pushed

theorem keepsLargest_topkInit (tk : TopKHeap Score) {k : Nat} (bound : (k : Int) ≤ topkMaxK) :
    KeepsLargest (topkInit tk k) k 0 where
  bound := by
    rw [topkInit]
    dsimp only
    split
    · rfl
    · omega
  size := (Nat.min_zero k).symm
  ordered := fun place child => absurd child.2 (Nat.not_lt_zero place)
  largest := .whole 0

/-- A heap that is not full holds all pairs. -/
theorem KeepsLargest.bag_eq {k : Nat} {pushed : Multiset (Score × Int)}
    (keeps : KeepsLargest tk k pushed) (space : tk.size < k) : tk.bag = pushed := by
  apply Multiset.eq_of_le_of_card_le keeps.largest.le
  rw [TopKHeap.bag, Multiset.coe_card, entries, List.length_map, List.length_range]
  have size := keeps.size
  omega

/-- The pair is put at the end and rises. -/
theorem KeepsLargest.insert {k : Nat} {pushed : Multiset (Score × Int)}
    (keeps : KeepsLargest tk k pushed) (space : tk.size < k) (score : Score) (idx : Int) :
    KeepsLargest (topkPush tk score idx) k ((score, idx) ::ₘ pushed) := by
  have bound := keeps.bound
  have risen := topkSiftUp_eq_rise tk.size
    { tk with
      scores := Function.update tk.scores tk.size score
      indices := Function.update tk.indices tk.size idx
      size := tk.size + 1 } tk.size
  rw [slots_write] at risen
  have rising := keeps.ordered.rising (score, idx)
  obtain ⟨ordered, same⟩ := rising.rise le_rfl (Nat.lt_succ_self tk.size)
  rw [topkPush, if_neg (by omega), if_pos (by omega)]
  generalize (topkSiftUp tk.size _ tk.size : TopKHeap Score) = after at risen ⊢
  have size : after.size = tk.size + 1 := risen.size
  have bag : after.bag = (score, idx) ::ₘ pushed := by
    rw [TopKHeap.bag, risen.slots, size, Multiset.coe_eq_coe.mpr same, entries_update_end,
      ← Multiset.coe_add, Multiset.coe_singleton, Multiset.add_comm, Multiset.singleton_add,
      ← keeps.bag_eq space]
    rfl
  refine ⟨risen.k.trans bound, ?_, ?_, ?_⟩
  · have before := keeps.size
    rw [size, Multiset.card_cons]
    omega
  · rw [risen.slots, size]
    exact ordered
  · rw [bag]
    exact .whole _

/-- A greater pair is put in place of a least one, and sinks. -/
theorem KeepsLargest.exchangeFirst {k : Nat} {pushed : Multiset (Score × Int)}
    (keeps : KeepsLargest tk k pushed) (positive : 0 < k) (full : ¬tk.size < k)
    {score : Score} (greater : tk.scores 0 < score) (idx : Int) :
    KeepsLargest (topkPush tk score idx) k ((score, idx) ::ₘ pushed) := by
  have bound := keeps.bound
  have before := keeps.size
  have sunk := topkHeapSiftDown_eq_sink tk.size
    { tk with
      scores := Function.update tk.scores 0 score
      indices := Function.update tk.indices 0 idx } 0
  rw [slots_write tk 0 tk.size] at sunk
  have sinking := keeps.ordered.sinking le_rfl (score, idx)
  obtain ⟨ordered, same⟩ := sinking.sink (Nat.le_add_right tk.size 0) (by omega)
  rw [topkPush, if_neg (by omega), if_neg (by omega), if_pos greater]
  generalize (topkHeapSiftDown tk.size _ 0 : TopKHeap Score) = after at sunk ⊢
  have size : after.size = tk.size := sunk.size
  refine ⟨sunk.k.trans bound, ?_, ?_, ?_⟩
  · rw [size, Multiset.card_cons]
    omega
  · rw [sunk.slots, size]
    exact ordered
  · obtain ⟨others, whole, replaced⟩ := exists_entries_eq_cons tk.slots (show 0 < tk.size by omega)
    have old := keeps.largest
    have isLeast : ∀ high ∈ (others : Multiset (Score × Int)), (tk.slots 0).1 ≤ high.1 := by
      intro high member
      have isEntry : high ∈ entries tk.size tk.slots := by
        rw [whole]
        exact List.mem_cons_of_mem _ (Multiset.mem_coe.mp member)
      obtain ⟨place, inside, rfl⟩ := mem_entries.mp isEntry
      exact keeps.ordered.first_le inside
    have above : (tk.slots 0).1 ≤ (score, idx).1 := greater.le
    rw [TopKHeap.bag, whole, ← Multiset.cons_coe] at old
    rw [TopKHeap.bag, sunk.slots, size, Multiset.coe_eq_coe.mpr same, replaced,
      ← Multiset.cons_coe]
    exact old.replace isLeast above

/-- A pair that is no greater than the least one is left out. -/
theorem KeepsLargest.leave {k : Nat} {pushed : Multiset (Score × Int)}
    (keeps : KeepsLargest tk k pushed) (positive : 0 < k) (full : ¬tk.size < k)
    {score : Score} (below : ¬tk.scores 0 < score) (idx : Int) :
    KeepsLargest (topkPush tk score idx) k ((score, idx) ::ₘ pushed) := by
  have bound := keeps.bound
  have before := keeps.size
  rw [topkPush, if_neg (by omega), if_neg (by omega), if_neg below]
  refine ⟨bound, ?_, keeps.ordered, keeps.largest.skip ?_⟩
  · rw [Multiset.card_cons]
    omega
  · intro high member
    obtain ⟨place, inside, rfl⟩ := mem_entries.mp (Multiset.mem_coe.mp member)
    exact (not_lt.mp below).trans (keeps.ordered.first_le inside)

theorem KeepsLargest.push {k : Nat} {pushed : Multiset (Score × Int)}
    (keeps : KeepsLargest tk k pushed) (positive : 0 < k) (score : Score) (idx : Int) :
    KeepsLargest (topkPush tk score idx) k ((score, idx) ::ₘ pushed) := by
  by_cases space : tk.size < k
  · exact keeps.insert space score idx
  · by_cases greater : tk.scores 0 < score
    · exact keeps.exchangeFirst positive space greater idx
    · exact keeps.leave positive space greater idx

/-- The heap behind a list of pushes. -/
theorem keepsLargest_pushes {k : Nat} {pushed : Multiset (Score × Int)}
    (keeps : KeepsLargest tk k pushed) (positive : 0 < k) (pairs : List (Score × Int)) :
    KeepsLargest (pairs.foldl (fun tk pair => topkPush tk pair.1 pair.2) tk) k
      (pushed + pairs) := by
  induction pairs generalizing tk pushed with
  | nil => simpa only [List.foldl_nil, Multiset.coe_nil, add_zero] using keeps
  | cons pair rest ih =>
      have later := ih (keeps.push positive pair.1 pair.2)
      rwa [Multiset.cons_add, ← Multiset.add_cons, Multiset.cons_coe] at later

end Pushes

section Sorting

variable {Score : Type*} [LinearOrder Score]

/-- The caller's arrays, from one array of pairs. -/
def outArrays (slots : Nat → Score × Int) : (Nat → Score) × Option (Nat → Int) :=
  (fun i => (slots i).1, some fun i => (slots i).2)

theorem topkExchange_outArrays (slots : Nat → Score × Int) (i j : Nat) :
    topkExchange (outArrays slots) i j =
      outArrays (exchange (fun pair => OrderDual.toDual pair.1) slots i j) := by
  by_cases greater : (slots j).1 > (slots i).1
  · have swapped : exchange (fun pair => OrderDual.toDual pair.1) slots i j = swap slots i j :=
      if_pos greater
    have written : topkExchange (outArrays slots) i j =
        (swap (outArrays slots).1 i j, some (swap (fun i => (slots i).2) i j)) := if_pos greater
    rw [swapped, written, swap_eq, swap_eq, swap_eq]
    rfl
  · have kept : exchange (fun pair => OrderDual.toDual pair.1) slots i j = slots := if_neg greater
    rw [kept]
    exact if_neg greater

def copiedSlots (tk : TopKHeap Score) (scores : Nat → Score) (indices : Nat → Int) :
    Nat → Score × Int :=
  fun i => if i < tk.size then tk.slots i else (scores i, indices i)

omit [LinearOrder Score] in
theorem copied_eq_outArrays (tk : TopKHeap Score) (scores : Nat → Score) (indices : Nat → Int) :
    ((fun i => if i < tk.size then tk.scores i else scores i,
      (some indices).map fun indices i => if i < tk.size then tk.indices i else indices i) :
        (Nat → Score) × Option (Nat → Int)) = outArrays (copiedSlots tk scores indices) := by
  have first : (fun i => if i < tk.size then tk.scores i else scores i) =
      fun i => (copiedSlots tk scores indices i).1 := by
    funext i
    rw [copiedSlots, apply_ite Prod.fst]
    rfl
  have second : (fun i => if i < tk.size then tk.indices i else indices i) =
      fun i => (copiedSlots tk scores indices i).2 := by
    funext i
    rw [copiedSlots, apply_ite Prod.snd]
    rfl
  rw [Option.map_some, first, second]
  rfl

/-- The loops of `topk_get_sorted` sort the pairs of the heap. -/
theorem topkGetSorted_spec (tk : TopKHeap Score) (scores : Nat → Score) (indices : Nat → Int) :
    ∃ slots, topkGetSorted tk scores (some indices) = (↑tk.size, outArrays slots) ∧
      (entries tk.size slots : Multiset (Score × Int)) = tk.bag ∧
        (entries tk.size slots).Pairwise fun first second => second.1 ≤ first.1 := by
  have compares := exchange_compares fun pair : Score × Int => OrderDual.toDual pair.1
  have copied : entries tk.size (copiedSlots tk scores indices) = entries tk.size tk.slots :=
    entries_congr fun place inside => if_pos inside
  refine ⟨passes (exchange fun pair => OrderDual.toDual pair.1) tk.size (tk.size - 1)
    (copiedSlots tk scores indices), ?_, ?_, ?_⟩
  · rw [topkGetSorted, copied_eq_outArrays]
    exact congrArg (Prod.mk _) (List.foldl_hom outArrays fun slots i =>
      (List.foldl_hom outArrays fun slots j => topkExchange_outArrays slots i j))
  · rw [TopKHeap.bag, ← copied]
    exact Multiset.coe_eq_coe.mpr (passes_perm compares (Nat.sub_le tk.size 1) _)
  · apply entries_pairwise
    intro place other inOrder inRange
    exact passes_monotone compares (by omega) (Nat.sub_le tk.size 1) inOrder.le inRange

/-- For every list of pairs that are pushed, the sorted output is made of some of them,
and its scores are the first ones of all scores in falling order. -/
theorem topkGetSorted_largest (tk : TopKHeap Score) {k : Int} (positive : 1 ≤ k)
    (bound : k ≤ topkMaxK) (pushed : List (Score × Int)) (scores : Nat → Score)
    (indices : Nat → Int) :
    ∃ outScores outIndices,
      topkGetSorted (pushed.foldl (fun tk pair => topkPush tk pair.1 pair.2) (topkInit tk k))
          scores (some indices) =
        (min k pushed.length, outScores, some outIndices) ∧
      let out := (List.range (min k.toNat pushed.length)).map fun i => (outScores i, outIndices i)
      out.Pairwise (fun first second => second.1 ≤ first.1) ∧
        (out : Multiset (Score × Int)) ≤ pushed ∧
          out.map Prod.fst =
            ((pushed.map Prod.fst).mergeSort (· ≥ ·)).take (min k.toNat pushed.length) := by
  lift k to Nat using by omega
  have keeps := keepsLargest_pushes (keepsLargest_topkInit tk bound) (by omega) pushed
  rw [zero_add] at keeps
  generalize pushed.foldl (fun tk pair => topkPush tk pair.1 pair.2) (topkInit tk k) = last
    at keeps ⊢
  have size : last.size = min k pushed.length := keeps.size
  obtain ⟨slots, sorted, same, falling⟩ := topkGetSorted_spec last scores indices
  have largest := keeps.largest
  rw [← same] at largest
  have first := largest.map_eq_take falling
  have le := largest.le
  rw [entries, List.length_map, List.length_range, size] at first
  rw [entries, size] at falling le
  refine ⟨fun i => (slots i).1, fun i => (slots i).2, ?_, falling, le, first⟩
  have count : ((min k pushed.length : Nat) : Int) = min (k : Int) pushed.length := by omega
  rw [sorted, size, count]
  rfl

/-- Two places for three scores, two of them equal. -/
theorem topkGetSorted_largest_two :
    (1 : Int) ≤ 2 ∧ 2 ≤ topkMaxK ∧ ∃ outScores outIndices,
      topkGetSorted ([(5, 0), (7, 1), (5, 2)].foldl
          (fun tk pair => topkPush tk pair.1 pair.2) (topkInit ⟨fun _ => 0, fun _ => 0, 0, 0⟩ 2))
          (fun _ => 0) (some fun _ => 0) =
        (min 2 3, outScores, some outIndices) ∧
      let out := (List.range (min 2 3)).map fun i => (outScores i, outIndices i)
      out.Pairwise (fun first second => second.1 ≤ first.1) ∧
        (out : Multiset (Nat × Int)) ≤ ([(5, 0), (7, 1), (5, 2)] : List (Nat × Int)) ∧
          out.map Prod.fst =
            ((([(5, 0), (7, 1), (5, 2)] : List (Nat × Int)).map Prod.fst).mergeSort
              (· ≥ ·)).take (min 2 3) :=
  ⟨by decide, by decide,
    topkGetSorted_largest _ (by decide) (by decide) [(5, 0), (7, 1), (5, 2)] _ _⟩

end Sorting

end Ai

end MiniIotRobotEdge

import Mathlib.Data.List.GetD
import MiniIotRobotEdge.ExchangeSort
import MiniIotRobotEdge.OtaDeltaPatch
import MiniIotRobotEdge.RangeLoop
import MiniIotRobotEdge.SuffixArrays

/-!
# The sort of the suffix array

`delta_sa_sort` doubles a prefix length: in each round it sorts the positions by their rank, and
decides between equal ranks by the rank one prefix further on.  It reads that rank behind the slots
of the array instead of behind the positions in them, so the order of suffixes that start alike is
not the order of their text.  What the rounds keep is that a rank tells the first byte.
-/

namespace MiniIotRobotEdge

namespace Ota

open ExchangeSort SuffixArrays

/-- The array that `delta_sa_build` returns, without the ranks. -/
structure DeltaSuffixArray where
  sa : Nat → Nat
  length : Nat

/-- `delta_sa_build`, with allocations that succeed. -/
def deltaSaBuild (data : List UInt8) : Option DeltaSuffixArray :=
  if data.length = 0 then none
  else some { sa := deltaSaSort data, length := data.length }

/-! ### One round -/

/-- A comparison of two slots, with the array first. -/
def compareSlots (n k : Nat) (rank : Nat → Int) (sa : Nat → Nat) (i j : Nat) : Nat → Nat :=
  saCompareSwap n k rank i sa j

theorem saPass_eq_passes (n k : Nat) (rank : Nat → Int) (sa : Nat → Nat) :
    saPass n k rank sa = passes (compareSlots n k rank) n (n - 1) sa :=
  rfl

/-- Whatever breaks the ties, a comparison puts the ranks in order. -/
theorem compareSlots_compares (n k : Nat) (rank : Nat → Int) (i j : Nat) (sa : Nat → Nat) :
    Compares (fun first second => rank first ≤ rank second) i j sa
      (compareSlots n k rank sa i j) := by
  unfold compareSlots saCompareSwap
  dsimp only
  by_cases swap : rank (sa j) < rank (sa i) ∨ (rank (sa i) = rank (sa j) ∧
      (if j + k < n then rank (j + k) else -1) < (if i + k < n then rank (i + k) else -1))
  · rw [if_pos swap]
    apply Compares.swap
    rcases swap with less | ⟨same, -⟩
    · exact less.le
    · exact same.ge
  · rw [if_neg swap]
    apply Compares.stay
    rw [not_or] at swap
    exact not_lt.mp swap.1

/-- All positions of the data are listed once. -/
def Listed (n : Nat) (sa : Nat → Nat) : Prop := (entries n sa).Perm (List.range n)

theorem Listed.start (n : Nat) : Listed n (fun i => i) := by
  rw [Listed, entries, List.map_id']

theorem Listed.pass {n : Nat} {sa : Nat → Nat} (listed : Listed n sa) (k : Nat)
    (rank : Nat → Int) : Listed n (saPass n k rank sa) := by
  rw [saPass_eq_passes]
  exact (passes_perm (compareSlots_compares n k rank) (Nat.sub_le n 1) sa).trans listed

theorem Listed.injective {n : Nat} {sa : Nat → Nat} (listed : Listed n sa) {first second : Nat}
    (firstInside : first < n) (secondInside : second < n) (same : sa first = sa second) :
    first = second := by
  have nodup := listed.nodup_iff.mpr List.nodup_range
  exact List.inj_on_of_nodup_map nodup (List.mem_range.mpr firstInside)
    (List.mem_range.mpr secondInside) same

theorem Listed.exists_slot {n : Nat} {sa : Nat → Nat} (listed : Listed n sa) {position : Nat}
    (inside : position < n) : ∃ slot, slot < n ∧ sa slot = position :=
  exists_index_of_perm listed inside

theorem Listed.lt {n : Nat} {sa : Nat → Nat} (listed : Listed n sa) {slot : Nat}
    (inside : slot < n) : sa slot < n :=
  lt_of_perm listed inside

/-! ### The ranks -/

/-- The order of the ranks is an order of the first bytes. -/
def Refines (data : List UInt8) (rank : Nat → Int) : Prop :=
  ∀ first second, first < data.length → second < data.length → rank first ≤ rank second →
    byteAt data first ≤ byteAt data second

/-- The array is in the order of the first bytes. -/
def ByFirstByte (data : List UInt8) (sa : Nat → Nat) : Prop :=
  ∀ first second, first ≤ second → second < data.length →
    byteAt data (sa first) ≤ byteAt data (sa second)

theorem Refines.byFirstByte {data : List UInt8} {rank : Nat → Int} (refines : Refines data rank)
    {sa : Nat → Nat} (listed : Listed data.length sa) (k : Nat) :
    ByFirstByte data (saPass data.length k rank sa) := by
  intro first second ordered inside
  have kept := listed.pass k rank
  apply refines _ _ (kept.lt (Nat.lt_of_le_of_lt ordered inside)) (kept.lt inside)
  rw [saPass_eq_passes]
  exact passes_monotone (compareSlots_compares data.length k rank) (by omega)
    (Nat.sub_le data.length 1) ordered inside

/-- Equal for the comparison are only suffixes with the same first byte. -/
theorem byteAt_eq_of_deltaSaCompare {data : List UInt8} {a b : Nat}
    (equal : deltaSaCompare data a b = 0) : byteAt data a = byteAt data b := by
  by_contra differ
  rw [deltaSaCompare, if_pos differ] at equal
  exact differ (Int.sub_eq_zero.mp equal)

/-- The rank of a slot counts the changes in front of it. -/
theorem saRanks_next {data : List UInt8} {sa : Nat → Nat} (listed : Listed data.length sa)
    {slot : Nat} (inside : slot + 1 < data.length) :
    saRanks data sa (sa (slot + 1)) = saRanks data sa (sa slot) +
      if deltaSaCompare data (sa slot) (sa (slot + 1)) ≠ 0 then 1 else 0 := by
  have counted : ∀ slot, slot < data.length - 1 →
      saRanks data sa (sa (slot + 1)) = saRanks data sa (sa slot) +
        if deltaSaCompare data (sa slot) (sa (slot + 1)) ≠ 0 then 1 else 0 := by
    rw [saRanks, List.range'_eq_map_range, List.foldl_map]
    refine RangeLoop.invariant (fun turns (rank : Nat → Int) => ∀ slot, slot < turns →
      rank (sa (slot + 1)) = rank (sa slot) +
        if deltaSaCompare data (sa slot) (sa (slot + 1)) ≠ 0 then 1 else 0) ?_ ?_
    · intro slot before
      exact absurd before (Nat.not_lt_zero slot)
    · intro turn rank bound counted slot before
      -- The slot that is ranked in this turn holds none of the positions in front of it.
      have others : ∀ slot, slot < 1 + turn → sa slot ≠ sa (1 + turn) := fun slot less same =>
        less.ne (listed.injective (by omega) (by omega) same)
      rw [Function.update_of_ne (others slot (by omega))]
      rcases Nat.lt_succ_iff_lt_or_eq.mp before with earlier | rfl
      · rw [Function.update_of_ne (others (slot + 1) (by omega))]
        exact counted slot earlier
      · rw [Nat.add_comm 1 slot, Function.update_self, Nat.add_sub_cancel]
  exact counted slot (by omega)

/-- Further on in the array the rank is higher, or the first byte is the same. -/
theorem saRanks_mono {data : List UInt8} {sa : Nat → Nat} (listed : Listed data.length sa)
    {first second : Nat} (ordered : first ≤ second) (inside : second < data.length) :
    saRanks data sa (sa first) < saRanks data sa (sa second) ∨
      (saRanks data sa (sa first) = saRanks data sa (sa second) ∧
        byteAt data (sa first) = byteAt data (sa second)) := by
  induction second, ordered using Nat.le_induction with
  | base => exact .inr ⟨rfl, rfl⟩
  | succ second ordered ih =>
      rw [saRanks_next listed inside]
      by_cases changes : deltaSaCompare data (sa second) (sa (second + 1)) ≠ 0
      · rw [if_pos changes]
        rcases ih (Nat.lt_of_succ_lt inside) with less | ⟨same, -⟩
        · exact .inl (by omega)
        · exact .inl (by omega)
      · rw [if_neg changes, add_zero]
        have sameByte := byteAt_eq_of_deltaSaCompare (not_not.mp changes)
        rcases ih (Nat.lt_of_succ_lt inside) with less | ⟨same, byte⟩
        · exact .inl less
        · exact .inr ⟨same, byte.trans sameByte⟩

theorem ByFirstByte.refines {data : List UInt8} {sa : Nat → Nat} (sorted : ByFirstByte data sa)
    (listed : Listed data.length sa) : Refines data (saRanks data sa) := by
  intro first second firstInside secondInside ordered
  obtain ⟨firstSlot, firstBound, rfl⟩ := listed.exists_slot firstInside
  obtain ⟨secondSlot, secondBound, rfl⟩ := listed.exists_slot secondInside
  rcases Nat.le_total firstSlot secondSlot with forward | backward
  · exact sorted firstSlot secondSlot forward secondBound
  · -- A rank that does not fall on the way back is the same one.
    rcases saRanks_mono listed backward firstBound with less | ⟨-, byte⟩
    · omega
    · exact byte.ge

/-! ### All rounds -/

theorem Listed.rounds {data : List UInt8} {k : Nat} {sa : Nat → Nat} {rank : Nat → Int}
    (listed : Listed data.length sa) : Listed data.length (saRounds data k sa rank) := by
  fun_induction saRounds data k sa rank with
  | case1 k sa rank inside next ih => exact ih (listed.pass k rank)
  | case2 k sa rank outside => exact listed

theorem ByFirstByte.rounds {data : List UInt8} {k : Nat} {sa : Nat → Nat} {rank : Nat → Int}
    (listed : Listed data.length sa) (refines : Refines data rank)
    (sorted : ¬(0 < k ∧ k < data.length) → ByFirstByte data sa) :
    ByFirstByte data (saRounds data k sa rank) := by
  fun_induction saRounds data k sa rank with
  | case1 k sa rank inside next ih =>
      have nextSorted : ByFirstByte data next := refines.byFirstByte listed k
      have nextListed : Listed data.length next := listed.pass k rank
      exact ih nextListed (nextSorted.refines nextListed) fun _ => nextSorted
  | case2 k sa rank outside => exact sorted outside

/-- The array lists every position once. -/
theorem deltaSaSort_listed (data : List UInt8) : Listed data.length (deltaSaSort data) :=
  (Listed.start data.length).rounds

/-- The suffixes are in the order of their first bytes. -/
theorem deltaSaSort_byFirstByte (data : List UInt8) : ByFirstByte data (deltaSaSort data) := by
  apply ByFirstByte.rounds
  · exact Listed.start data.length
  · exact fun _ _ _ _ ordered => ordered
  · intro short first second ordered inside
    have same : first = second := by omega
    rw [same]

/-! ### Distinct bytes -/

/-- Where no byte occurs twice, the first byte decides between any two suffixes. -/
theorem deltaSaSort_isSuffixArray {data : List UInt8} (distinct : data.Nodup) :
    IsSuffixArray data (deltaSaSort data) := by
  refine ⟨deltaSaSort_listed data, ?_⟩
  intro first second ordered inside
  have listed := deltaSaSort_listed data
  have firstInside := listed.lt (ordered.trans inside)
  have secondInside := listed.lt inside
  have le := deltaSaSort_byFirstByte data first second ordered.le inside
  have leData : data[deltaSaSort data first] ≤ data[deltaSaSort data second] := by
    rw [byteAt, byteAt, List.getD_eq_getElem _ _ firstInside,
      List.getD_eq_getElem _ _ secondInside] at le
    exact Int.ofNat_le.mp le
  have differ : data[deltaSaSort data first] ≠ data[deltaSaSort data second] := by
    intro same
    have sameSlot := listed.injective (ordered.trans inside) inside
      ((List.Nodup.getElem_inj_iff distinct).mp same)
    exact ordered.ne sameSlot
  rw [List.drop_eq_getElem_cons firstInside, List.drop_eq_getElem_cons secondInside]
  exact List.cons_lt_cons_iff.mpr (.inl (UInt8.lt_of_le_of_ne leData differ))

/-- The array in front of the comparison of two slots in the first round. -/
def firstRound (data : List UInt8) (i j : Nat) : Nat → Nat :=
  reached (compareSlots data.length 1 (byteAt data)) data.length (fun i => i) i j

/-- A byte that occurs twice brings the first round to two slots of equal rank, whose order it
takes from the slots. -/
theorem firstRound_tie {data : List UInt8} (repeated : ¬data.Nodup) :
    ∃ i j, i < j ∧ j < data.length ∧
      byteAt data (firstRound data i j i) = byteAt data (firstRound data i j j) := by
  rw [List.Nodup, List.pairwise_iff_getElem] at repeated
  push Not at repeated
  obtain ⟨first, second, firstInside, secondInside, ordered, same⟩ := repeated
  apply exists_tie (compareSlots_compares data.length 1 (byteAt data)) ordered secondInside
  rw [byteAt, byteAt, List.getD_eq_getElem _ _ firstInside, List.getD_eq_getElem _ _ secondInside,
    same]

/-- The built array lists every position once, in the order of the suffixes where no byte occurs
twice. -/
theorem deltaSaBuild_sorts {data : List UInt8} (nonempty : data ≠ []) :
    ∃ built, deltaSaBuild data = some built ∧ built.length = data.length ∧
      ((List.range data.length).map built.sa).Perm (List.range data.length) ∧
      (data.Nodup → IsSuffixArray data built.sa) := by
  have positive : data.length ≠ 0 := fun empty => nonempty (List.length_eq_zero_iff.mp empty)
  refine ⟨{ sa := deltaSaSort data, length := data.length }, ?_, rfl, deltaSaSort_listed data,
    deltaSaSort_isSuffixArray⟩
  rw [deltaSaBuild, if_neg positive]

theorem deltaSaBuild_sorts_three :
    ([99, 97, 98] : List UInt8) ≠ [] ∧ ([99, 97, 98] : List UInt8).Nodup ∧
      ∃ built, deltaSaBuild [99, 97, 98] = some built ∧
        IsSuffixArray ([99, 97, 98] : List UInt8) built.sa := by
  have nonempty : ([99, 97, 98] : List UInt8) ≠ [] := by decide
  have distinct : ([99, 97, 98] : List UInt8).Nodup := by decide
  obtain ⟨built, isBuilt, -, -, sorts⟩ := deltaSaBuild_sorts nonempty
  exact ⟨nonempty, distinct, built, isBuilt, sorts distinct⟩

/-- Three equal bytes: the longest suffix stands in front of the second one. -/
theorem deltaSaBuild_equal_bytes :
    ∃ built, deltaSaBuild [97, 97, 97] = some built ∧
      (List.range 3).map built.sa = [2, 0, 1] ∧
        ¬IsSuffixArray ([97, 97, 97] : List UInt8) built.sa := by
  have slots : (List.range 3).map (deltaSaSort [97, 97, 97]) = [2, 0, 1] := by
    rw [deltaSaSort, saRounds, if_pos (by decide), saRounds, if_pos (by decide), saRounds,
      if_neg (by decide)]
    decide
  have atOne : deltaSaSort [97, 97, 97] 1 = 0 := (List.cons.inj (List.cons.inj slots).2).1
  have atTwo : deltaSaSort [97, 97, 97] 2 = 1 :=
    (List.cons.inj (List.cons.inj (List.cons.inj slots).2).2).1
  refine ⟨{ sa := deltaSaSort [97, 97, 97], length := 3 }, rfl, slots, ?_⟩
  intro isArray
  have ordered : ([97, 97, 97] : List UInt8).drop (deltaSaSort [97, 97, 97] 1) <
      ([97, 97, 97] : List UInt8).drop (deltaSaSort [97, 97, 97] 2) :=
    isArray.sorted 1 2 (by decide) (by decide)
  rw [atOne, atTwo] at ordered
  exact absurd ordered (by decide)

end Ota

end MiniIotRobotEdge

import Mathlib.Algebra.Order.Group.Multiset
import Mathlib.Data.List.Sort

/-!
# The largest elements of a multiset

A part of a multiset is a largest one if no element of the rest has a greater
key.  With ties there are several, but their keys are the same: the first ones
in falling order.
-/

namespace MiniIotRobotEdge

namespace LargestPart

variable {α Key : Type*} [LinearOrder Key] (key : α → Key)

/-- No element outside the part is above one inside. -/
def IsLargest (kept all : Multiset α) : Prop :=
  ∃ rest, kept + rest = all ∧ ∀ low ∈ rest, ∀ high ∈ kept, key low ≤ key high

variable {key} {kept all : Multiset α} {entry least : α}

namespace IsLargest

theorem whole (all : Multiset α) : IsLargest key all all :=
  ⟨0, add_zero all, fun _ member => absurd member (Multiset.notMem_zero _)⟩

theorem le (largest : IsLargest key kept all) : kept ≤ all := by
  obtain ⟨rest, sum, -⟩ := largest
  exact sum ▸ Multiset.le_add_right kept rest

/-- An element below the part is left out. -/
theorem skip (largest : IsLargest key kept all) (below : ∀ high ∈ kept, key entry ≤ key high) :
    IsLargest key kept (entry ::ₘ all) := by
  obtain ⟨rest, sum, ordered⟩ := largest
  refine ⟨entry ::ₘ rest, by rw [Multiset.add_cons, sum], ?_⟩
  intro low member
  rcases Multiset.mem_cons.mp member with rfl | inRest
  · exact below
  · exact ordered low inRest

/-- A least element of the part makes room for a greater one. -/
theorem replace (largest : IsLargest key (least ::ₘ kept) all)
    (isLeast : ∀ high ∈ kept, key least ≤ key high) (above : key least ≤ key entry) :
    IsLargest key (entry ::ₘ kept) (entry ::ₘ all) := by
  obtain ⟨rest, sum, ordered⟩ := largest
  refine ⟨least ::ₘ rest, ?_, ?_⟩
  · rw [← sum, Multiset.cons_add, Multiset.cons_add, Multiset.add_cons]
  · have leastBelow : ∀ high ∈ entry ::ₘ kept, key least ≤ key high := by
      intro high member
      rcases Multiset.mem_cons.mp member with rfl | inKept
      · exact above
      · exact isLeast high inKept
    intro low member high inside
    rcases Multiset.mem_cons.mp member with rfl | inRest
    · exact leastBelow high inside
    · exact (ordered low inRest least (Multiset.mem_cons_self ..)).trans (leastBelow high inside)

/-- In falling order, the keys of the part are the first ones of all. -/
theorem map_eq_take {kept all : List α} (largest : IsLargest key (kept : Multiset α) all)
    (falling : kept.Pairwise fun first second => key second ≤ key first) :
    kept.map key =
      ((all.map key).mergeSort (· ≥ ·)).take kept.length := by
  obtain ⟨rest, sum, ordered⟩ := largest
  induction rest using Quot.inductionOn with
  | _ rest =>
      let others := (rest.map key).mergeSort (· ≥ ·)
      have othersPerm : others.Perm (rest.map key) := List.mergeSort_perm ..
      have joined : (kept.map key ++ others).Pairwise (· ≥ ·) := by
        rw [List.pairwise_append]
        refine ⟨List.pairwise_map.mpr falling, List.pairwise_mergeSort' (· ≥ ·) _, ?_⟩
        intro above inKept below inRest
        obtain ⟨high, isKept, rfl⟩ := List.mem_map.mp inKept
        obtain ⟨low, isRest, rfl⟩ := List.mem_map.mp (othersPerm.mem_iff.mp inRest)
        exact ordered low isRest high isKept
      have rearranged : (kept.map key ++ others).Perm (all.map key) := by
        have whole := (Multiset.coe_eq_coe.mp sum).map key
        rw [List.map_append] at whole
        exact (othersPerm.append_left _).trans whole
      have same : kept.map key ++ others = (all.map key).mergeSort (· ≥ ·) :=
        (rearranged.trans (List.mergeSort_perm ..).symm).eq_of_pairwise' joined
          (List.pairwise_mergeSort' (· ≥ ·) _)
      rw [← same, List.take_left' (List.length_map ..)]

end IsLargest

end LargestPart

end MiniIotRobotEdge

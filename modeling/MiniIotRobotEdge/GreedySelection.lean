import Mathlib.Data.List.Induction
import Mathlib.Data.List.Pairwise

/-!
# Greedy selection

Items are taken from a list one after the other, and one is kept unless it
conflicts with an item that has been kept before it.  The kept items do not
conflict, and there is no room for another one.
-/

namespace MiniIotRobotEdge

namespace GreedySelection

variable {α : Type*} (conflict : α → α → Prop) [DecidableRel conflict]

/-- One turn of the selection. -/
def keep (kept : List α) (item : α) : List α :=
  if ∃ other ∈ kept, conflict other item then kept else kept ++ [item]

def select (items : List α) : List α := items.foldl (keep conflict) []

theorem select_concat (items : List α) (item : α) :
    select conflict (items ++ [item]) = keep conflict (select conflict items) item :=
  List.foldl_append

/-- Kept items stand in the order of the list. -/
theorem select_sublist (items : List α) : (select conflict items).Sublist items := by
  induction items using List.reverseRecOn with
  | nil => exact .refl []
  | append_singleton items item ih =>
      rw [select_concat, keep]
      split
      · exact ih.trans (List.sublist_append_left items [item])
      · exact ih.append_right [item]

/-- No kept item conflicts with a later one. -/
theorem select_pairwise (items : List α) :
    (select conflict items).Pairwise fun first second => ¬ conflict first second := by
  induction items using List.reverseRecOn with
  | nil => exact .nil
  | append_singleton items item ih =>
      rw [select_concat, keep]
      split
      · exact ih
      · rename_i free
        rw [List.pairwise_append]
        refine ⟨ih, List.pairwise_singleton .., ?_⟩
        intro other isKept second isItem clash
        rw [List.mem_singleton.mp isItem] at clash
        exact free ⟨other, isKept, clash⟩

/-- An item that is not kept conflicts with a kept one that stands before it. -/
theorem exists_conflict {items : List α} {item : α} (listed : item ∈ items)
    (dropped : item ∉ select conflict items) :
    ∃ other ∈ select conflict items, [other, item].Sublist items ∧ conflict other item := by
  induction items using List.reverseRecOn with
  | nil => exact absurd listed List.not_mem_nil
  | append_singleton items last ih =>
      have grows : (select conflict items).Sublist (select conflict (items ++ [last])) := by
        rw [select_concat, keep]
        split
        · exact .refl _
        · exact List.sublist_append_left ..
      by_cases old : item ∈ items
      · obtain ⟨other, isKept, before, clash⟩ := ih old fun kept => dropped (grows.mem kept)
        exact ⟨other, grows.mem isKept, before.trans (List.sublist_append_left ..), clash⟩
      · obtain rfl : item = last := by
          rcases List.mem_append.mp listed with inItems | isLast
          · exact absurd inItems old
          · exact List.mem_singleton.mp isLast
        rw [select_concat, keep] at dropped
        split at dropped
        · rename_i clashes
          obtain ⟨other, isKept, clash⟩ := clashes
          have inItems : [other].Sublist items :=
            List.singleton_sublist.mpr ((select_sublist conflict items).mem isKept)
          exact ⟨other, grows.mem isKept, inItems.append_right [item], clash⟩
        · exact absurd (List.mem_append_right _ (List.mem_singleton_self item)) dropped

end GreedySelection

end MiniIotRobotEdge

import Mathlib.Data.List.Perm.Basic
import Mathlib.Data.List.TakeWhile
import Mathlib.Order.Lattice

/-!
# Stable insertion into a sorted list

A new element goes behind every element whose key is not greater.  The list
stays sorted, and elements with equal keys stay in the order in which they were
inserted.
-/

namespace MiniIotRobotEdge

namespace StableInsertion

variable {α Key : Type*} [LinearOrder Key] (key : α → Key) {element : α} {sorted : List α}

/-- The elements that the new one is inserted behind. -/
def front (bound : Key) (sorted : List α) : List α :=
  sorted.takeWhile fun other => key other ≤ bound

def back (bound : Key) (sorted : List α) : List α :=
  sorted.dropWhile fun other => key other ≤ bound

def insertBehind (element : α) (sorted : List α) : List α :=
  front key (key element) sorted ++ element :: back key (key element) sorted

/-- The list is in the order of its keys. -/
def Sorted (sorted : List α) : Prop :=
  sorted.Pairwise fun first second => key first ≤ key second

theorem front_append_back (bound : Key) (sorted : List α) :
    front key bound sorted ++ back key bound sorted = sorted :=
  List.takeWhile_append_dropWhile

variable {key}

theorem insertBehind_perm (element : α) (sorted : List α) :
    (insertBehind key element sorted).Perm (element :: sorted) := by
  have split := front_append_back key (key element) sorted
  calc
    (insertBehind key element sorted).Perm
        (element :: (front key (key element) sorted ++ back key (key element) sorted)) :=
      List.perm_middle
    _ = element :: sorted := by rw [split]

theorem le_of_mem_front {bound : Key} {other : α} (inFront : other ∈ front key bound sorted) :
    key other ≤ bound := by
  simpa using List.mem_takeWhile_imp inFront

/-- What the new element is inserted in front of has greater keys. -/
theorem lt_of_mem_back {bound : Key} {other : α} (isSorted : Sorted key sorted)
    (inBack : other ∈ back key bound sorted) : bound < key other := by
  induction sorted with
  | nil => cases inBack
  | cons head rest ih =>
      obtain ⟨headLe, restSorted⟩ := List.pairwise_cons.mp isSorted
      by_cases passed : key head ≤ bound
      · rw [back, List.dropWhile_cons_of_pos (by simpa using passed)] at inBack
        exact ih restSorted inBack
      · rw [back, List.dropWhile_cons_of_neg (by simpa using passed)] at inBack
        rcases List.mem_cons.mp inBack with rfl | inRest
        · exact not_le.mp passed
        · exact (not_le.mp passed).trans_le (headLe other inRest)

theorem sorted_insertBehind (isSorted : Sorted key sorted) :
    Sorted key (insertBehind key element sorted) := by
  have splitSorted := isSorted
  rw [← front_append_back key (key element) sorted] at splitSorted
  obtain ⟨frontSorted, backSorted, across⟩ := List.pairwise_append.mp splitSorted
  refine List.pairwise_append.mpr ⟨frontSorted, List.pairwise_cons.mpr ⟨?_, backSorted⟩, ?_⟩
  · intro other inBack
    exact (lt_of_mem_back isSorted inBack).le
  · intro before inFront other isAfter
    rcases List.mem_cons.mp isAfter with rfl | inBack
    · exact le_of_mem_front inFront
    · exact across before inFront other inBack

/-- Among the elements with one key the new one is the last. -/
theorem filter_insertBehind (isSorted : Sorted key sorted) (bound : Key) :
    (insertBehind key element sorted).filter (fun other => key other = bound) =
      sorted.filter (fun other => key other = bound) ++
        [element].filter (fun other => key other = bound) := by
  have split := front_append_back key (key element) sorted
  by_cases same : key element = bound
  · have noneBehind :
        (back key (key element) sorted).filter (fun other => key other = bound) = [] := by
      apply List.filter_eq_nil_iff.mpr
      intro other inBack
      have greater := lt_of_mem_back isSorted inBack
      simpa [← same] using greater.ne'
    conv_rhs => rw [← split]
    rw [insertBehind, List.filter_append, List.filter_append,
      List.filter_cons_of_pos (by simpa using same), noneBehind, List.append_nil,
      List.filter_cons_of_pos (by simpa using same), List.filter_nil]
  · conv_rhs => rw [← split]
    rw [insertBehind, List.filter_append, List.filter_append,
      List.filter_cons_of_neg (by simpa using same), List.filter_cons_of_neg (by simpa using same),
      List.filter_nil, List.append_nil]

end StableInsertion

end MiniIotRobotEdge

import Mathlib.Order.Lattice
import MiniIotRobotEdge.ExchangeSort

/-!
# Heap order in an array

Every place but the first has a parent in front of it, and no key is below the
key of its parent.  An entry that is put at the end may have to rise, and one
that is put in front may have to sink; either way it is exchanged with a
neighbour, and what is still out of order moves with it.
-/

namespace MiniIotRobotEdge

namespace HeapOrder

open ExchangeSort

variable {α Key : Type*} [LinearOrder Key] (key : α → Key)

def parent (place : Nat) : Nat := (place - 1) / 2

/-- The place has its parent among the places. -/
def IsChild (size place : Nat) : Prop := 0 < place ∧ place < size

def Ordered (slot : Nat → α) (size : Nat) : Prop :=
  ∀ place, IsChild size place → key (slot (parent place)) ≤ key (slot place)

/-- The children of a place are not below its own parent. -/
def SparesChildren (slot : Nat → α) (size place : Nat) : Prop :=
  0 < place → ∀ child, IsChild size child → parent child = place →
    key (slot (parent place)) ≤ key (slot child)

/-- Only the entry at the place may be below its parent. -/
structure Rising (slot : Nat → α) (size place : Nat) : Prop where
  others : ∀ other, IsChild size other → other ≠ place →
    key (slot (parent other)) ≤ key (slot other)
  spares : SparesChildren key slot size place

/-- Only the entry at the place may be above its children. -/
structure Sinking (slot : Nat → α) (size place : Nat) : Prop where
  others : ∀ other, IsChild size other → parent other ≠ place →
    key (slot (parent other)) ≤ key (slot other)
  spares : SparesChildren key slot size place

theorem parent_lt {place : Nat} (positive : 0 < place) : parent place < place := by
  unfold parent
  omega

theorem parent_eq_iff {place child : Nat} (positive : 0 < child) :
    parent child = place ↔ child = 2 * place + 1 ∨ child = 2 * place + 2 := by
  unfold parent
  omega

variable {key} {slot : Nat → α} {size place : Nat}

/-- The first entry is a least one; by induction along the parents. -/
theorem Ordered.first_le (ordered : Ordered key slot size) (inside : place < size) :
    key (slot 0) ≤ key (slot place) := by
  induction place using Nat.strong_induction_on with
  | _ place ih =>
      rcases Nat.eq_zero_or_pos place with rfl | positive
      · exact le_rfl
      · have before := parent_lt positive
        exact (ih (parent place) before (before.trans inside)).trans
          (ordered place ⟨positive, inside⟩)

theorem Rising.ordered (rising : Rising key slot size place)
    (settled : 0 < place → key (slot (parent place)) ≤ key (slot place)) :
    Ordered key slot size := by
  intro other child
  by_cases here : other = place
  · subst here
    exact settled child.1
  · exact rising.others other child here

/-- The entry is exchanged with its parent. -/
theorem Rising.swap (rising : Rising key slot size place) (child : IsChild size place)
    (below : key (slot place) < key (slot (parent place))) :
    Rising key (ExchangeSort.swap slot place (parent place)) size (parent place) := by
  have before := parent_lt child.1
  constructor
  · intro other otherChild differs
    have otherBefore := parent_lt otherChild.1
    by_cases here : other = place
    · subst here
      rw [swap_left, swap_right]
      exact below.le
    · rw [swap_of_ne here differs]
      by_cases fromHere : parent other = place
      · rw [fromHere, swap_left]
        exact rising.spares child.1 other otherChild fromHere
      · by_cases sibling : parent other = parent place
        · rw [sibling, swap_right]
          have old := rising.others other otherChild here
          rw [sibling] at old
          exact below.le.trans old
        · rw [swap_of_ne fromHere sibling]
          exact rising.others other otherChild here
  · intro positive other otherChild fromParent
    have grand := parent_lt positive
    have old := rising.others (parent place) ⟨positive, before.trans child.2⟩ (by omega)
    rw [swap_of_ne (show parent (parent place) ≠ place by omega) (by omega)]
    by_cases here : other = place
    · rw [here, swap_left]
      exact old
    · have behind := parent_lt otherChild.1
      rw [swap_of_ne here (by omega)]
      have sibling := rising.others other otherChild here
      rw [fromParent] at sibling
      exact old.trans sibling

theorem Sinking.ordered (sinking : Sinking key slot size place)
    (settled : ∀ child, IsChild size child → parent child = place →
      key (slot place) ≤ key (slot child)) : Ordered key slot size := by
  intro other child
  by_cases fromHere : parent other = place
  · rw [fromHere]
    exact settled other child fromHere
  · exact sinking.others other child fromHere

/-- The entry is exchanged with a least child. -/
theorem Sinking.swap (sinking : Sinking key slot size place) {least : Nat}
    (child : IsChild size least) (fromHere : parent least = place)
    (isLeast : ∀ other, IsChild size other → parent other = place →
      key (slot least) ≤ key (slot other))
    (above : key (slot least) < key (slot place)) :
    Sinking key (ExchangeSort.swap slot place least) size least := by
  have before := parent_lt child.1
  rw [fromHere] at before
  constructor
  · intro other otherChild differs
    by_cases isChild : parent other = place
    · rw [isChild, swap_left]
      by_cases here : other = least
      · rw [here, swap_right]
        exact above.le
      · have behind := parent_lt otherChild.1
        rw [swap_of_ne (by omega) here]
        exact isLeast other otherChild isChild
    · have notLeast : other ≠ least := by
        rintro rfl
        exact isChild fromHere
      rw [swap_of_ne isChild differs]
      by_cases here : other = place
      · subst here
        rw [swap_left]
        exact sinking.spares otherChild.1 least child fromHere
      · rw [swap_of_ne here notLeast]
        exact sinking.others other otherChild isChild
  · intro positive other otherChild fromLeast
    have behind := parent_lt otherChild.1
    have old := sinking.others other otherChild (by omega)
    rw [fromHere, swap_left, swap_of_ne (show other ≠ place by omega) (by omega)]
    rw [fromLeast] at old
    exact old

/-- An entry behind an ordered array may have to rise. -/
theorem Ordered.rising (ordered : Ordered key slot size) (entry : α) :
    Rising key (Function.update slot size entry) (size + 1) size := by
  constructor
  · intro other child differs
    have before := parent_lt child.1
    have inside : other < size := by
      have bound := child.2
      omega
    rw [Function.update_of_ne (show parent other ≠ size by omega), Function.update_of_ne differs]
    exact ordered other ⟨child.1, inside⟩
  · intro _ child isChild fromEnd
    have before := parent_lt isChild.1
    have bound := isChild.2
    omega

/-- An entry in place of the first one may have to sink, also where places are given up. -/
theorem Ordered.sinking {fewer : Nat} (ordered : Ordered key slot size) (fits : fewer ≤ size)
    (entry : α) : Sinking key (Function.update slot 0 entry) fewer 0 := by
  constructor
  · intro other child differs
    rw [Function.update_of_ne differs, Function.update_of_ne child.1.ne']
    exact ordered other ⟨child.1, child.2.trans_le fits⟩
  · intro positive
    exact absurd positive (Nat.lt_irrefl 0)

/-! ### The loops -/

/-- What is below both children, as far as they are there, is below every child. -/
theorem le_children {least : Key} (left : 2 * place + 1 < size → least ≤ key (slot (2 * place + 1)))
    (right : 2 * place + 2 < size → least ≤ key (slot (2 * place + 2))) :
    ∀ child, IsChild size child → parent child = place → least ≤ key (slot child) := by
  intro child isChild fromHere
  rcases (parent_eq_iff isChild.1).mp fromHere with rfl | rfl
  · exact left isChild.2
  · exact right isChild.2

/-- The place or the child of it with the least key. -/
def smallest (key : α → Key) (slot : Nat → α) (size i : Nat) : Nat :=
  let l := 2 * i + 1
  let r := 2 * i + 2
  let smallest := if l < size ∧ key (slot l) < key (slot i) then l else i
  if r < size ∧ key (slot r) < key (slot smallest) then r else smallest

/-- The entry is exchanged with a least child until it is in order. -/
def sink (key : α → Key) (size : Nat) : Nat → (Nat → α) → Nat → Nat → α
  | 0, slot, _ => slot
  | fuel + 1, slot, i =>
      if smallest key slot size i = i then slot
      else sink key size fuel (swap slot i (smallest key slot size i)) (smallest key slot size i)

/-- The entry is exchanged with its parent until it is in order. -/
def rise (key : α → Key) : Nat → (Nat → α) → Nat → Nat → α
  | 0, slot, _ => slot
  | fuel + 1, slot, i =>
      if 0 < i ∧ key (slot i) < key (slot (parent i)) then
        rise key fuel (swap slot i (parent i)) (parent i)
      else slot

/-- The place that is chosen is the given one or a child, and none of them is smaller. -/
theorem smallest_spec (key : α → Key) (slot : Nat → α) (size i : Nat) :
    (smallest key slot size i = i ∨
      IsChild size (smallest key slot size i) ∧ parent (smallest key slot size i) = i ∧
        key (slot (smallest key slot size i)) < key (slot i)) ∧
      ∀ child, IsChild size child → parent child = i →
        key (slot (smallest key slot size i)) ≤ key (slot child) := by
  have left : parent (2 * i + 1) = i := (parent_eq_iff (by omega)).mpr (.inl rfl)
  have right : parent (2 * i + 2) = i := (parent_eq_iff (by omega)).mpr (.inr rfl)
  simp only [smallest]
  by_cases takesLeft : 2 * i + 1 < size ∧ key (slot (2 * i + 1)) < key (slot i)
  · rw [if_pos takesLeft]
    split
    case isTrue takesRight =>
      have below := takesRight.2.trans takesLeft.2
      exact ⟨.inr ⟨⟨by omega, takesRight.1⟩, right, below⟩,
        le_children (fun _ => takesRight.2.le) fun _ => le_rfl⟩
    case isFalse leavesRight =>
      have rightAbove : 2 * i + 2 < size → key (slot (2 * i + 1)) ≤ key (slot (2 * i + 2)) :=
        fun inside => not_lt.mp fun below => leavesRight ⟨inside, below⟩
      exact ⟨.inr ⟨⟨by omega, takesLeft.1⟩, left, takesLeft.2⟩,
        le_children (fun _ => le_rfl) rightAbove⟩
  · rw [if_neg takesLeft]
    have leftAbove : 2 * i + 1 < size → key (slot i) ≤ key (slot (2 * i + 1)) :=
      fun inside => not_lt.mp fun below => takesLeft ⟨inside, below⟩
    split
    case isTrue takesRight =>
      exact ⟨.inr ⟨⟨by omega, takesRight.1⟩, right, takesRight.2⟩,
        le_children (fun inside => takesRight.2.le.trans (leftAbove inside)) fun _ => le_rfl⟩
    case isFalse leavesRight =>
      have rightAbove : 2 * i + 2 < size → key (slot i) ≤ key (slot (2 * i + 2)) :=
        fun inside => not_lt.mp fun below => leavesRight ⟨inside, below⟩
      exact ⟨.inl rfl, le_children leftAbove rightAbove⟩

/-- The entry ends where it is in order; its place goes up with every turn. -/
theorem Sinking.sink {fuel : Nat} (enough : size ≤ fuel + place) (inside : place < size)
    (sinking : Sinking key slot size place) :
    Ordered key (sink key size fuel slot place) size ∧
      (entries size (HeapOrder.sink key size fuel slot place)).Perm (entries size slot) := by
  induction fuel generalizing slot place with
  | zero => omega
  | succ fuel ih =>
      obtain ⟨chosen, least⟩ := smallest_spec key slot size place
      rw [HeapOrder.sink]
      by_cases stays : smallest key slot size place = place
      · rw [if_pos stays]
        rw [stays] at least
        exact ⟨sinking.ordered least, .refl _⟩
      · rw [if_neg stays]
        obtain ⟨isChild, fromHere, below⟩ := chosen.resolve_left stays
        have behind := parent_lt isChild.1
        rw [fromHere] at behind
        obtain ⟨ordered, same⟩ := ih (by omega) isChild.2
          (sinking.swap isChild fromHere least below)
        exact ⟨ordered, same.trans (entries_swap inside isChild.2)⟩

/-- The entry ends where it is in order; its place goes down with every turn. -/
theorem Rising.rise {fuel : Nat} (enough : place ≤ fuel) (inside : place < size)
    (rising : Rising key slot size place) :
    Ordered key (rise key fuel slot place) size ∧
      (entries size (HeapOrder.rise key fuel slot place)).Perm (entries size slot) := by
  induction fuel generalizing slot place with
  | zero =>
      obtain rfl : place = 0 := by omega
      exact ⟨rising.ordered fun positive => absurd positive (Nat.lt_irrefl 0), .refl _⟩
  | succ fuel ih =>
      rw [HeapOrder.rise]
      split
      case isTrue rises =>
        have before := parent_lt rises.1
        obtain ⟨ordered, same⟩ := ih (by omega) (before.trans inside)
          (rising.swap ⟨rises.1, inside⟩ rises.2)
        exact ⟨ordered, same.trans (entries_swap inside (before.trans inside))⟩
      case isFalse settled =>
        exact ⟨rising.ordered fun positive => not_lt.mp fun below => settled ⟨positive, below⟩,
          .refl _⟩

end HeapOrder

end MiniIotRobotEdge

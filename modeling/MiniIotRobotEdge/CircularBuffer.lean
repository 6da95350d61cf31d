import Mathlib.Data.List.Perm.Basic
import Mathlib.Data.List.Range
import Mathlib.Data.List.Rotate
import Mathlib.Data.Nat.ModEq

/-!
# Circular buffers as bounded lists

A circular buffer of fixed capacity keeps `count` items in the slots from
`tail` on, modulo the capacity; the slots outside of this range are free.  The
contents are the list of the items, oldest first.  Filling the slot behind the
last item appends to the list, and moving the tail removes its first element.
-/

namespace MiniIotRobotEdge

namespace CircularBuffer

variable {Item : Type*} {slot filled : Nat → Item} {capacity tail count : Nat}

/-- The items of the `count` slots from `tail` on, oldest first. -/
def contents (slot : Nat → Item) (capacity tail count : Nat) : List Item :=
  (List.range count).map fun index => slot ((tail + index) % capacity)

@[simp]
theorem length_contents : (contents slot capacity tail count).length = count := by
  simp [contents]

theorem contents_take {fewer : Nat} (inside : fewer ≤ count) :
    (contents slot capacity tail count).take fewer = contents slot capacity tail fewer := by
  rw [contents, contents, ← List.map_take, List.take_range, Nat.min_eq_left inside]

/-- Positions less than one turn apart are different slots. -/
theorem slots_distinct {index : Nat} (before : index < count) (space : count < capacity) :
    (tail + index) % capacity ≠ (tail + count) % capacity := by
  intro same
  have congruent : tail + index ≡ tail + count [MOD capacity] := same
  have turns := congruent.add_left_cancel' tail
  unfold Nat.ModEq at turns
  rw [Nat.mod_eq_of_lt (by omega), Nat.mod_eq_of_lt space] at turns
  omega

/-- Filling the first free slot appends its item. -/
theorem contents_push {item : Item} (space : count < capacity)
    (filledSlot : filled ((tail + count) % capacity) = item)
    (kept : ∀ position, position < capacity → position ≠ (tail + count) % capacity →
      filled position = slot position) :
    contents filled capacity tail (count + 1) = contents slot capacity tail count ++ [item] := by
  unfold contents
  rw [List.range_succ, List.map_append, List.map_singleton, filledSlot]
  congr 1
  apply List.map_congr_left
  intro index inside
  have before := List.mem_range.mp inside
  exact kept _ (Nat.mod_lt _ (by omega)) (slots_distinct before space)

/-- The first item is in the slot at the tail, and the others are the contents
behind it. -/
theorem contents_pop (nonempty : 0 < count) (inside : tail < capacity) :
    contents slot capacity tail count =
      slot tail :: contents slot capacity ((tail + 1) % capacity) (count - 1) := by
  obtain ⟨rest, rfl⟩ : ∃ rest, count = rest + 1 := ⟨count - 1, by omega⟩
  unfold contents
  rw [List.range_succ_eq_map, List.map_cons, Nat.add_zero, Nat.mod_eq_of_lt inside, List.map_map,
    Nat.add_sub_cancel]
  congr 1
  apply List.map_congr_left
  intro index _
  simp only [Function.comp_apply, Nat.mod_add_mod]
  congr 2
  omega

/-! A buffer that is written without end keeps the newest items. -/

/-- The newest `capacity` items of a log are in the slots of their numbers. -/
def Retains (slot : Nat → Item) (capacity : Nat) (log : List Item) : Prop :=
  ∀ index item, log.length ≤ index + capacity → log[index]? = some item →
    slot (index % capacity) = item

theorem Retains.nil : Retains slot capacity [] := by
  intro index item _ isItem
  simp at isItem

/-- The next item overwrites the oldest one. -/
theorem Retains.push {log : List Item} {item : Item} (retains : Retains slot capacity log)
    (positive : 0 < capacity) (filledSlot : filled (log.length % capacity) = item)
    (kept : ∀ position, position < capacity → position ≠ log.length % capacity →
      filled position = slot position) :
    Retains filled capacity (log ++ [item]) := by
  intro index other recent isOther
  rw [List.length_append, List.length_singleton] at recent
  have inside : index < (log ++ [item]).length := (List.getElem?_eq_some_iff.mp isOther).1
  rw [List.length_append, List.length_singleton] at inside
  by_cases isLast : index = log.length
  · subst isLast
    rw [filledSlot]
    simpa using isOther
  · have before : index < log.length := by omega
    have distinct : index % capacity ≠ log.length % capacity := by
      have apart : (index + 0) % capacity ≠ (index + (log.length - index)) % capacity :=
        slots_distinct (by omega) (by omega)
      rwa [Nat.add_zero, Nat.add_sub_cancel' before.le] at apart
    rw [kept _ (Nat.mod_lt _ positive) distinct]
    rw [List.getElem?_append_left before] at isOther
    exact retains index other (by omega) isOther

/-- From the oldest retained item on, the slots show the end of the log. -/
theorem Retains.contents_eq {log : List Item} (retains : Retains slot capacity log) {oldest : Nat}
    (recent : log.length ≤ oldest + capacity) (inside : oldest ≤ log.length) :
    contents slot capacity oldest (log.length - oldest) = log.drop oldest := by
  apply List.ext_getElem?
  intro index
  rw [List.getElem?_drop]
  by_cases before : index < log.length - oldest
  · have stored : oldest + index < log.length := by omega
    have isItem : log[oldest + index]? = some log[oldest + index] :=
      List.getElem?_eq_getElem stored
    rw [isItem, contents, List.getElem?_map, List.getElem?_range before, Option.map_some,
      retains _ _ (by omega) isItem]
  · rw [List.getElem?_eq_none (by rw [length_contents]; omega),
      List.getElem?_eq_none (by omega)]

end CircularBuffer

/-!
## The newest items of a log

A circular buffer that is written without end shows the newest items of its log.
A new item joins them, and the oldest one leaves when there are as many as the
buffer holds.
-/

namespace SlidingWindows

open CircularBuffer

variable {Item : Type*} {slot : Nat → Item} {capacity : Nat} {log : List Item}

/-- The newest items of a log, at most `capacity` of them. -/
def newest (capacity : Nat) (log : List Item) : List Item := log.drop (log.length - capacity)

@[simp]
theorem newest_nil : newest capacity ([] : List Item) = [] := List.drop_nil

theorem length_newest : (newest capacity log).length = min log.length capacity := by
  rw [newest, List.length_drop]
  omega

theorem newest_of_length_le (fits : log.length ≤ capacity) : newest capacity log = log := by
  rw [newest, Nat.sub_eq_zero_of_le fits, List.drop_zero]

theorem newest_concat_of_lt (space : log.length < capacity) (item : Item) :
    newest capacity (log ++ [item]) = newest capacity log ++ [item] := by
  rw [newest_of_length_le space.le, newest_of_length_le]
  rw [List.length_append, List.length_singleton]
  omega

/-- The oldest item leaves a full window. -/
theorem exists_newest_concat_of_le (positive : 0 < capacity) (full : capacity ≤ log.length)
    (item : Item) :
    ∃ oldest rest, log[log.length - capacity]? = some oldest ∧
      newest capacity log = oldest :: rest ∧ newest capacity (log ++ [item]) = rest ++ [item] := by
  have inside : log.length - capacity < log.length := by omega
  refine ⟨log[log.length - capacity], log.drop (log.length - capacity + 1),
    List.getElem?_eq_getElem inside, List.drop_eq_getElem_cons inside, ?_⟩
  rw [newest, List.length_append, List.length_singleton, List.drop_append_of_le_length (by omega)]
  congr 2
  omega

/-- One turn of the buffer is a rotation of its slots. -/
theorem contents_perm (slot : Nat → Item) (capacity tail : Nat) :
    (contents slot capacity tail capacity).Perm ((List.range capacity).map slot) := by
  have rotated : contents slot capacity tail capacity =
      ((List.range capacity).map slot).rotate tail := by
    apply List.ext_getElem
    · simp
    · intro index _ _
      simp [contents, List.getElem_rotate, Nat.add_comm]
  rw [rotated]
  exact List.rotate_perm _ tail

/-- The slots hold the newest items, and what they were filled with before. -/
theorem slots_perm (retains : Retains slot capacity log) {initial : Item}
    (fresh : ∀ position < capacity, log.length ≤ position → slot position = initial) :
    ((List.range capacity).map slot).Perm
      (newest capacity log ++ List.replicate (capacity - log.length) initial) := by
  by_cases full : capacity ≤ log.length
  · have shown : contents slot capacity (log.length - capacity)
        (log.length - (log.length - capacity)) = log.drop (log.length - capacity) :=
      retains.contents_eq (by omega) (by omega)
    rw [Nat.sub_sub_self full] at shown
    rw [Nat.sub_eq_zero_of_le full, List.replicate_zero, List.append_nil, newest, ← shown]
    exact (contents_perm slot capacity _).symm
  · have fits : log.length < capacity := not_le.mp full
    have listed : (List.range capacity).map slot =
        log ++ List.replicate (capacity - log.length) initial := by
      apply List.ext_getElem
      · simp [fits.le]
      · intro index inside _
        rw [List.length_map, List.length_range] at inside
        rw [List.getElem_map, List.getElem_range]
        by_cases written : index < log.length
        · have stored := retains index log[index] (by omega) (List.getElem?_eq_getElem written)
          rw [Nat.mod_eq_of_lt inside] at stored
          rw [stored, List.getElem_append_left written]
        · rw [fresh index inside (not_lt.mp written),
            List.getElem_append_right (not_lt.mp written), List.getElem_replicate]
    rw [newest_of_length_le fits.le, listed]

end SlidingWindows

end MiniIotRobotEdge

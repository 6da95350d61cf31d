import Mathlib.Data.List.Nodup
import Mathlib.Data.List.Range
import Mathlib.Logic.Equiv.Basic
import Mathlib.Order.Lattice

/-!
# Exchange sort in place

Two nested loops compare the entry at every place with each entry behind it and
exchange the two when they are out of order.  What a comparison does between equal
keys is left open: it may look at anything, and the keys are sorted all the same.
-/

namespace MiniIotRobotEdge

namespace ExchangeSort

variable {α Key : Type*} {values : Nat → α} {count place other : Nat}

def swap (values : Nat → α) (i j : Nat) : Nat → α :=
  Function.update (Function.update values i (values j)) j (values i)

/-- The entries of an array, in order. -/
def entries (count : Nat) (values : Nat → α) : List α :=
  (List.range count).map values

theorem swap_eq (values : Nat → α) (i j : Nat) : swap values i j = values ∘ Equiv.swap i j := by
  ext place
  rw [swap, Function.comp_apply, Equiv.swap_apply_def]
  by_cases atJ : place = j
  · subst atJ
    rw [Function.update_self]
    split
    · rename_i same
      rw [same]
    · rw [if_pos rfl]
  · rw [Function.update_of_ne atJ, if_neg atJ]
    by_cases atI : place = i
    · rw [atI, Function.update_self, if_pos rfl]
    · rw [Function.update_of_ne atI, if_neg atI]

theorem swap_left (values : Nat → α) (i j : Nat) : swap values i j i = values j := by
  rw [swap_eq, Function.comp_apply, Equiv.swap_apply_left]

theorem swap_right (values : Nat → α) (i j : Nat) : swap values i j j = values i := by
  rw [swap_eq, Function.comp_apply, Equiv.swap_apply_right]

theorem swap_of_ne {i j : Nat} (notI : place ≠ i) (notJ : place ≠ j) :
    swap values i j place = values place := by
  rw [swap_eq, Function.comp_apply, Equiv.swap_apply_of_ne_of_ne notI notJ]

theorem entries_swap {i j : Nat} (iLt : i < count) (jLt : j < count) :
    (entries count (swap values i j)).Perm (entries count values) := by
  have places : ((List.range count).map (Equiv.swap i j)).Perm (List.range count) := by
    refine (List.perm_ext_iff_of_nodup ?_ List.nodup_range).mpr fun place => ?_
    · exact List.nodup_range.map (Equiv.swap i j).injective
    · rw [List.mem_map]
      constructor
      · rintro ⟨source, inRange, rfl⟩
        rw [List.mem_range] at inRange ⊢
        rw [Equiv.swap_apply_def]
        split
        · exact jLt
        · split
          · exact iLt
          · exact inRange
      · intro inRange
        refine ⟨Equiv.swap i j place, ?_, Equiv.swap_apply_self i j place⟩
        rw [List.mem_range] at inRange ⊢
        rw [Equiv.swap_apply_def]
        split
        · exact jLt
        · split
          · exact iLt
          · exact inRange
  rw [entries, entries, swap_eq, ← List.map_map]
  exact places.map values

theorem mem_entries {entry : α} : entry ∈ entries count values ↔ ∃ place < count, values place = entry := by
  rw [entries, List.mem_map]
  exact exists_congr fun place => by rw [List.mem_range]

theorem entries_pairwise {rel : α → α → Prop}
    (ordered : ∀ place other, place < other → other < count → rel (values place) (values other)) :
    (entries count values).Pairwise rel := by
  rw [entries, List.pairwise_map]
  exact List.pairwise_lt_range.imp_of_mem fun _ inRange inOrder =>
    ordered _ _ inOrder (List.mem_range.mp inRange)

theorem entries_congr {after : Nat → α} (same : ∀ place < count, after place = values place) :
    entries count after = entries count values :=
  List.map_congr_left fun place inRange => same place (List.mem_range.mp inRange)

/-- An entry is written behind the others. -/
theorem entries_update_end (values : Nat → α) (count : Nat) (entry : α) :
    entries (count + 1) (Function.update values count entry) = entries count values ++ [entry] := by
  have front : entries count (Function.update values count entry) = entries count values :=
    entries_congr fun place inside => Function.update_of_ne inside.ne ..
  rw [entries, List.range_succ, List.map_append, ← entries, front, List.map_singleton,
    Function.update_self]

theorem entries_succ (values : Nat → α) (count : Nat) :
    entries (count + 1) values = values 0 :: entries count fun place => values (place + 1) := by
  rw [entries, List.range_succ_eq_map, List.map_cons, List.map_map]
  rfl

/-- The first entry may be replaced, and the others stay. -/
theorem exists_entries_eq_cons (values : Nat → α) (positive : 0 < count) :
    ∃ others, entries count values = values 0 :: others ∧
      ∀ entry, entries count (Function.update values 0 entry) = entry :: others := by
  obtain ⟨count, rfl⟩ := Nat.exists_eq_add_of_le' positive
  refine ⟨entries count fun place => values (place + 1), entries_succ values count, ?_⟩
  intro entry
  rw [entries_succ, Function.update_self]
  exact congrArg _ (entries_congr fun place _ => Function.update_of_ne (Nat.succ_ne_zero place) ..)

/-! ### The loops -/

section Loops

variable {step : (Nat → α) → Nat → Nat → Nat → α} {rel : α → α → Prop}

/-- The inner loop for one place, up to a bound. -/
def scan (step : (Nat → α) → Nat → Nat → Nat → α) (bound : Nat) (values : Nat → α) (i : Nat) :
    Nat → α :=
  (List.range' (i + 1) (bound - (i + 1))).foldl (fun values j => step values i j) values

/-- The inner loop for the first places. -/
def passes (step : (Nat → α) → Nat → Nat → Nat → α) (count turns : Nat) (values : Nat → α) :
    Nat → α :=
  (List.range turns).foldl (scan step count) values

/-- The entries in front of the comparison of the places `i` and `j`. -/
def reached (step : (Nat → α) → Nat → Nat → Nat → α) (count : Nat) (values : Nat → α)
    (i j : Nat) : Nat → α :=
  scan step j (passes step count i values) i

/-- A comparison of two entries: they are in order and stay, or the other way round and
are exchanged.  Where both hold, both are allowed. -/
inductive Compares (rel : α → α → Prop) (i j : Nat) (values : Nat → α) : (Nat → α) → Prop
  | stay (ordered : rel (values i) (values j)) : Compares rel i j values values
  | swap (ordered : rel (values j) (values i)) : Compares rel i j values (swap values i j)

theorem Compares.entries_perm {i j : Nat} {after : Nat → α}
    (compares : Compares rel i j values after) (iLt : i < count) (jLt : j < count) :
    (entries count after).Perm (entries count values) := by
  cases compares with
  | stay _ => exact .refl _
  | swap _ => exact entries_swap iLt jLt

/-- In order are all pairs of places that the loops have compared, in front of the
comparison of `i` and `j`. -/
def SortedTo (rel : α → α → Prop) (count : Nat) (values : Nat → α) (i j : Nat) : Prop :=
  ∀ place other, place < other → other < count → (place < i ∨ (place = i ∧ other < j)) →
    rel (values place) (values other)

theorem SortedTo.compares (transitive : ∀ ⦃a b c⦄, rel a b → rel b c → rel a c) {i j : Nat}
    {after : Nat → α} (sorted : SortedTo rel count values i j) (iLt : i < j) (jLt : j < count)
    (compares : Compares rel i j values after) : SortedTo rel count after i (j + 1) := by
  intro place other inOrder inRange compared
  cases compares with
  | stay ordered =>
      rcases compared with settled | ⟨rfl, near⟩
      · exact sorted place other inOrder inRange (.inl settled)
      · rcases Nat.lt_succ_iff_lt_or_eq.mp near with earlier | rfl
        · exact sorted place other inOrder inRange (.inr ⟨rfl, earlier⟩)
        · exact ordered
  | swap ordered =>
      rcases compared with settled | ⟨rfl, near⟩
      · -- An entry in front of `i` is in order with both of the exchanged ones.
        rw [swap_of_ne settled.ne (by omega)]
        by_cases otherJ : other = j
        · rw [otherJ, swap_right]
          exact sorted place i settled (by omega) (.inl settled)
        · by_cases otherI : other = i
          · rw [otherI, swap_left]
            exact sorted place j (by omega) jLt (.inl settled)
          · rw [swap_of_ne otherI otherJ]
            exact sorted place other inOrder inRange (.inl settled)
      · rw [swap_left]
        rcases Nat.lt_succ_iff_lt_or_eq.mp near with earlier | rfl
        · rw [swap_of_ne inOrder.ne' earlier.ne]
          exact transitive ordered (sorted place other inOrder inRange (.inr ⟨rfl, earlier⟩))
        · rw [swap_right]
          exact ordered

theorem reached_start (i : Nat) :
    reached step count values i (i + 1) = passes step count i values := by
  rw [reached, scan, Nat.sub_self, List.range'_zero, List.foldl_nil]

theorem reached_step {i j : Nat} (iLt : i < j) :
    reached step count values i (j + 1) = step (reached step count values i j) i j := by
  have turns : j + 1 - (i + 1) = j - (i + 1) + 1 := by omega
  have last : i + 1 + (j - (i + 1)) = j := by omega
  rw [reached, scan, turns, List.range'_1_concat, List.foldl_append, last]
  rfl

/-- Behind the last comparison of a place stands the first one of the next. -/
theorem reached_next (i : Nat) :
    reached step count values (i + 1) (i + 2) = reached step count values i count := by
  rw [reached_start, passes, List.range_succ, List.foldl_append]
  rfl

/-- The loops sort, if every comparison that they make puts its two entries in order. -/
theorem passes_sorted (rel : α → α → Prop) (transitive : ∀ ⦃a b c⦄, rel a b → rel b c → rel a c)
    (compares : ∀ i j, i < j → j < count →
      Compares rel i j (reached step count values i j) (step (reached step count values i j) i j))
    {turns : Nat} (enough : count ≤ turns + 1) (bound : turns ≤ count)
    (inOrder : place < other) (inRange : other < count) :
    rel (passes step count turns values place) (passes step count turns values other) := by
  have scanned : ∀ i, SortedTo rel count (reached step count values i (i + 1)) i (i + 1) →
      ∀ j, i < j → j ≤ count → SortedTo rel count (reached step count values i j) i j := by
    intro i start j iLt
    induction j, iLt using Nat.le_induction with
    | base => exact fun _ => start
    | succ j iLt ih =>
        intro jLt
        rw [reached_step iLt]
        exact (ih (Nat.le_of_succ_le jLt)).compares transitive iLt jLt (compares i j iLt jLt)
  have started : ∀ i, i ≤ count →
      SortedTo rel count (reached step count values i (i + 1)) i (i + 1) := by
    intro i
    induction i with
    | zero =>
        intro _ place other inOrder inRange compared
        omega
    | succ i ih =>
        intro iLt place other inOrder inRange compared
        rw [reached_next]
        apply scanned i (ih (Nat.le_of_succ_le iLt)) count iLt le_rfl place other inOrder inRange
        omega
  rw [← reached_start]
  apply started turns bound place other inOrder inRange
  omega

/-- The loops only rearrange the entries. -/
theorem passes_perm (compares : ∀ i j values, Compares rel i j values (step values i j))
    {turns : Nat} (bound : turns ≤ count) (values : Nat → α) :
    (entries count (passes step count turns values)).Perm (entries count values) := by
  refine List.foldlRecOn (motive := fun after =>
    (entries count after).Perm (entries count values)) _ _ (.refl _) ?_
  intro outer outerPerm i iMember
  have iLt := List.mem_range.mp iMember
  refine List.foldlRecOn (motive := fun after =>
    (entries count after).Perm (entries count values)) _ _ outerPerm ?_
  intro inner innerPerm j jMember
  have jLt := List.mem_range'_1.mp jMember
  exact ((compares i j inner).entries_perm (by omega) (by omega)).trans innerPerm

end Loops

/-! ### Keys -/

section Keys

variable [LinearOrder Key] {key : α → Key} {step : (Nat → α) → Nat → Nat → Nat → α}

/-- The comparison of two places. -/
def exchange (key : α → Key) (values : Nat → α) (i j : Nat) : Nat → α :=
  if key (values j) < key (values i) then swap values i j else values

/-- The inner loop, for one place. -/
def pass (key : α → Key) (count : Nat) (values : Nat → α) (i : Nat) : Nat → α :=
  (List.range' (i + 1) (count - (i + 1))).foldl (fun values j => exchange key values i j) values

def sort (key : α → Key) (count : Nat) (values : Nat → α) : Nat → α :=
  (List.range count).foldl (pass key count) values

/-- The places done hold entries in order, none of them greater than a later one. -/
def OrderedTo (key : α → Key) (count : Nat) (values : Nat → α) (done : Nat) : Prop :=
  ∀ place < done, ∀ other < count, place < other → key (values place) ≤ key (values other)

theorem exchange_compares (key : α → Key) (i j : Nat) (values : Nat → α) :
    Compares (fun a b => key a ≤ key b) i j values (exchange key values i j) := by
  unfold exchange
  by_cases outOfOrder : key (values j) < key (values i)
  · rw [if_pos outOfOrder]
    exact .swap outOfOrder.le
  · rw [if_neg outOfOrder]
    exact .stay (not_lt.mp outOfOrder)

theorem Compares.strict {i j : Nat} {after : Nat → α}
    (compares : Compares (fun a b => key a ≤ key b) i j values after)
    (distinct : key (values i) ≠ key (values j)) :
    Compares (fun a b => key a < key b) i j values after := by
  cases compares with
  | stay ordered => exact .stay (lt_of_le_of_ne ordered distinct)
  | swap ordered => exact .swap (lt_of_le_of_ne ordered distinct.symm)

/-- The keys end in order, whatever the comparisons do between equal ones. -/
theorem passes_monotone
    (compares : ∀ i j values, Compares (fun a b => key a ≤ key b) i j values (step values i j))
    {turns : Nat} (enough : count ≤ turns + 1) (bound : turns ≤ count)
    (inOrder : place ≤ other) (inRange : other < count) :
    key (passes step count turns values place) ≤ key (passes step count turns values other) := by
  rcases Nat.lt_or_eq_of_le inOrder with less | rfl
  · exact passes_sorted (fun a b => key a ≤ key b) (fun _ _ _ => le_trans)
      (fun i j _ _ => compares i j _) enough bound less inRange
  · exact le_rfl

/-- The sort leaves a permutation of the entries in the order of their keys. -/
theorem sort_spec (key : α → Key) (count : Nat) (values : Nat → α) :
    OrderedTo key count (sort key count values) count ∧
      (entries count (sort key count values)).Perm (entries count values) := by
  have isPasses : sort key count values = passes (exchange key) count count values := rfl
  rw [isPasses]
  constructor
  · intro place _ other inRange inOrder
    exact passes_monotone (exchange_compares key) (Nat.le_succ count) le_rfl inOrder.le inRange
  · exact passes_perm (exchange_compares key) le_rfl values

/-- A key that occurs twice is compared with itself. -/
theorem exists_tie
    (compares : ∀ i j values, Compares (fun a b => key a ≤ key b) i j values (step values i j))
    (inOrder : place < other) (inRange : other < count)
    (same : key (values place) = key (values other)) :
    ∃ i j, i < j ∧ j < count ∧
      key (reached step count values i j i) = key (reached step count values i j j) := by
  by_contra untied
  push Not at untied
  -- Without a tie every comparison is strict, so no key is left twice.
  have increasing : ∀ place other, place < other → other < count →
      key (passes step count count values place) < key (passes step count count values other) := by
    intro place other inOrder inRange
    exact passes_sorted (fun a b => key a < key b) (fun _ _ _ => lt_trans)
      (fun i j iLt jLt => (compares i j _).strict (untied i j iLt jLt)) (Nat.le_succ count) le_rfl
      inOrder inRange
  have sortedNodup : ((entries count (passes step count count values)).map key).Nodup := by
    rw [entries, List.map_map]
    apply List.Nodup.map_on _ List.nodup_range
    intro place placeMember other otherMember equal
    rcases Nat.lt_trichotomy place other with less | isOther | more
    · exact absurd equal (increasing place other less (List.mem_range.mp otherMember)).ne
    · exact isOther
    · exact absurd equal (increasing other place more (List.mem_range.mp placeMember)).ne'
  have nodup := ((passes_perm compares le_rfl values).map key).nodup_iff.mp sortedNodup
  rw [entries, List.map_map] at nodup
  have isOther := List.inj_on_of_nodup_map nodup (List.mem_range.mpr (inOrder.trans inRange))
    (List.mem_range.mpr inRange) same
  exact inOrder.ne isOther

end Keys

end ExchangeSort

end MiniIotRobotEdge

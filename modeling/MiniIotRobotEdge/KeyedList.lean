import Mathlib.Data.List.Basic

/-!
# Lists of records with a key

A compacting array is a list whose records are looked up, changed and removed
by key; the first record with the key is meant.  Where the keys are distinct a
record and its key determine each other.
-/

namespace MiniIotRobotEdge

namespace KeyedList

variable {Record Key : Type*} [DecidableEq Key] (key : Record → Key)

/-- The first record with the key. -/
def find (wanted : Key) (records : List Record) : Option Record :=
  records.find? fun record => key record == wanted

/-- The records without the first one that has the key. -/
def remove (wanted : Key) (records : List Record) : List Record :=
  records.eraseP fun record => key record == wanted

/-- Change the first record with the key. -/
def change (wanted : Key) (update : Record → Record) : List Record → List Record
  | [] => []
  | record :: rest =>
      if key record = wanted then update record :: rest
      else record :: change wanted update rest

/-- No two records share a key. -/
def Distinct (records : List Record) : Prop := (records.map key).Nodup

variable {key} {records : List Record} {wanted other : Key}

theorem find_key {record : Record} (found : find key wanted records = some record) :
    key record = wanted := by
  simpa using List.find?_some found

theorem find_mem {record : Record} (found : find key wanted records = some record) :
    record ∈ records :=
  List.mem_of_find?_eq_some found

theorem find_eq_none_iff : find key wanted records = none ↔ wanted ∉ records.map key := by
  simp [find]

/-- What the update leaves alone stays the same along the list. -/
theorem map_change {View : Type*} {view : Record → View} {update : Record → Record}
    (keeps : ∀ record, view (update record) = view record) :
    (change key wanted update records).map view = records.map view := by
  induction records with
  | nil => rfl
  | cons head rest ih =>
      rw [change]
      split
      · simp [keeps]
      · simp [ih]

section Change

variable {update : Record → Record} (keeps : ∀ record, key (update record) = key record)
include keeps

theorem find_change_self :
    find key wanted (change key wanted update records) = (find key wanted records).map update := by
  induction records with
  | nil => rfl
  | cons head rest ih =>
      rw [change]
      split
      case isTrue same => simp [find, keeps, same]
      case isFalse differs =>
        unfold find at ih ⊢
        rw [List.find?_cons_of_neg (by simpa using differs),
          List.find?_cons_of_neg (by simpa using differs), ih]

theorem find_change_other (apart : other ≠ wanted) :
    find key other (change key wanted update records) = find key other records := by
  induction records with
  | nil => rfl
  | cons head rest ih =>
      rw [change]
      split
      case isTrue same =>
        have differs : ¬key head = other := fun equal => apart (equal.symm.trans same)
        simp [find, keeps, differs]
      case isFalse =>
        unfold find at ih ⊢
        rw [List.find?_cons, List.find?_cons, ih]

end Change

/-- What is found under a key depends on the keys and on what is viewed only. -/
theorem find_congr {View : Type*} {view : Record → View} {others : List Record}
    (same : records.map (fun record => (key record, view record)) =
      others.map fun record => (key record, view record)) :
    (find key wanted records).map view = (find key wanted others).map view := by
  have paired : ∀ list : List Record, (find key wanted list).map view =
      ((list.map fun record => (key record, view record)).find? (·.1 == wanted)).map Prod.snd := by
    intro list
    simp [find, List.find?_map, Function.comp_def]
  rw [paired, paired, same]

theorem remove_sublist : (remove key wanted records).Sublist records :=
  List.eraseP_sublist

theorem Distinct.remove (distinct : Distinct key records) :
    Distinct key (KeyedList.remove key wanted records) :=
  distinct.sublist (remove_sublist.map key)

/-- The records with other keys stay, in order. -/
theorem filter_remove {keep : Record → Bool}
    (drops : ∀ record, key record = wanted → keep record = false) :
    (remove key wanted records).filter keep = records.filter keep := by
  unfold remove
  induction records with
  | nil => rfl
  | cons head rest ih =>
      by_cases same : key head = wanted
      · rw [List.eraseP_cons_of_pos (by simpa using same),
          List.filter_cons_of_neg (by simp [drops head same])]
      · rw [List.eraseP_cons_of_neg (by simpa using same), List.filter_cons, List.filter_cons, ih]

theorem find_remove_other (apart : other ≠ wanted) :
    find key other (remove key wanted records) = find key other records := by
  unfold find remove
  induction records with
  | nil => rfl
  | cons head rest ih =>
      by_cases same : key head = wanted
      · have differs : ¬key head = other := fun equal => apart (equal.symm.trans same)
        rw [List.eraseP_cons_of_pos (by simpa using same),
          List.find?_cons_of_neg (by simpa using differs)]
      · rw [List.eraseP_cons_of_neg (by simpa using same), List.find?_cons, List.find?_cons, ih]

/-- With distinct keys nothing with the key is left. -/
theorem Distinct.find_remove_self (distinct : Distinct key records) :
    find key wanted (KeyedList.remove key wanted records) = none := by
  rw [find_eq_none_iff]
  induction records with
  | nil => simp [KeyedList.remove]
  | cons head rest ih =>
      obtain ⟨fresh, later⟩ := List.nodup_cons.mp distinct
      unfold KeyedList.remove at ih ⊢
      by_cases same : key head = wanted
      · rw [List.eraseP_cons_of_pos (by simpa using same)]
        exact same ▸ fresh
      · rw [List.eraseP_cons_of_neg (by simpa using same), List.map_cons, List.mem_cons]
        rintro (equal | behind)
        · exact same equal.symm
        · exact ih later behind

omit [DecidableEq Key] in
theorem distinct_append_iff {record : Record} : Distinct key (records ++ [record]) ↔
    Distinct key records ∧ key record ∉ records.map key := by
  unfold Distinct
  simp [List.map_append, List.nodup_append]

theorem find_append {record : Record} (found : find key wanted records = none) :
    find key wanted (records ++ [record]) = if key record = wanted then some record else none := by
  unfold find at found ⊢
  rw [List.find?_append, found]
  by_cases same : key record = wanted <;> simp [same]

theorem find_append_of_some {record old : Record} (found : find key wanted records = some old) :
    find key wanted (records ++ [record]) = some old := by
  unfold find at found ⊢
  rw [List.find?_append, found]
  rfl

end KeyedList

end MiniIotRobotEdge

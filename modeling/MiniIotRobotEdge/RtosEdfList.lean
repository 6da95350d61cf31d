import MiniIotRobotEdge.PointerChain
import MiniIotRobotEdge.RtosTaskScheduler
import MiniIotRobotEdge.StableInsertion

/-!
# The deadline-ordered list

The model of `scheduler_edf_list_insert` in `task_scheduler.c`.  The function uses
two fields of a control block: `ticks_remaining` for the deadline, and `next`,
which is a null-terminated link here and not a link of a ring.
-/

namespace MiniIotRobotEdge

namespace Rtos

open PointerChain StableInsertion

/-- The fields that the deadline-ordered list uses. -/
structure EdfTcb where
  ticksRemaining : Nat
  next : Option TaskId

/-- The control blocks and the head of the list. -/
structure EdfList where
  tcb : TaskId → EdfTcb
  head : Option TaskId

/-- The loop over the tasks whose deadline is not later; it ends with the task passed
last. -/
def edfSeek (tcb : TaskId → EdfTcb) (deadline : Nat) :
    Nat → Option TaskId → Option TaskId → Option (Option TaskId)
  | 0, _, _ => none
  | _ + 1, prev, none => some prev
  | fuel + 1, prev, some curr =>
      if (tcb curr).ticksRemaining ≤ deadline then
        edfSeek tcb deadline fuel (some curr) (tcb curr).next
      else some prev

def schedulerEdfListInsert (fuel : Nat) (list : EdfList) (task : TaskId) (deadline : Nat) :
    Option EdfList :=
  let tcb := Function.update list.tcb task ⟨deadline, none⟩
  match edfSeek tcb deadline fuel none list.head with
  | none => none
  | some none =>
      some { tcb := Function.update tcb task ⟨deadline, list.head⟩, head := some task }
  | some (some prev) =>
      let tcb := Function.update tcb task ⟨deadline, (tcb prev).next⟩
      some { tcb := Function.update tcb prev { tcb prev with next := some task }
             head := list.head }

/-- The insertion of several tasks, one after the other. -/
def edfInsertAll (fuel : Nat) (list : EdfList) : List (TaskId × Nat) → Option EdfList
  | [] => some list
  | (task, deadline) :: later =>
      (schedulerEdfListInsert fuel list task deadline).bind fun list =>
        edfInsertAll fuel list later

namespace EdfList

variable {list list' : EdfList} {tasks : List TaskId} {task : TaskId} {deadline fuel : Nat}

def deadlineOf (list : EdfList) (task : TaskId) : Nat := (list.tcb task).ticksRemaining

def link (list : EdfList) (task : TaskId) : Option TaskId := (list.tcb task).next

/-- The loop passes the tasks whose deadline is not later and stops behind the last
of them. -/
theorem edfSeek_eq {tcb : TaskId → EdfTcb} {start : Option TaskId} (deadline : Nat)
    (prev : Option TaskId) (path : Path (fun task => (tcb task).next) start tasks)
    (enough : tasks.length < fuel) :
    edfSeek tcb deadline fuel prev start =
      some ((front (fun task => (tcb task).ticksRemaining) deadline tasks).getLast?.or prev) := by
  induction path generalizing fuel prev with
  | null =>
      cases fuel with
      | zero => exact absurd enough (Nat.not_lt_zero _)
      | succ fuel => rfl
  | @node first rest restPath ih =>
      cases fuel with
      | zero => exact absurd enough (Nat.not_lt_zero _)
      | succ fuel =>
          rw [edfSeek]
          by_cases passed : (tcb first).ticksRemaining ≤ deadline
          · rw [if_pos passed, ih (some first) (Nat.lt_of_succ_lt_succ enough), front, front,
              List.takeWhile_cons_of_pos (by simpa using passed), List.getLast?_cons]
            cases (List.takeWhile _ rest).getLast? <;> rfl
          · rw [if_neg passed, front, List.takeWhile_cons_of_neg (by simpa using passed)]
            rfl

theorem next_update (tcb : TaskId → EdfTcb) (task : TaskId) (fields : EdfTcb) :
    (fun other => (Function.update tcb task fields other).next) =
      Function.update (fun other => (tcb other).next) task fields.next :=
  Function.comp_update EdfTcb.next tcb task fields

theorem deadline_update (tcb : TaskId → EdfTcb) (task : TaskId) (fields : EdfTcb) :
    (fun other => (Function.update tcb task fields other).ticksRemaining) =
      Function.update (fun other => (tcb other).ticksRemaining) task fields.ticksRemaining :=
  Function.comp_update EdfTcb.ticksRemaining tcb task fields

/-- One insertion puts the task behind the tasks whose deadline is not later. -/
theorem schedulerEdfListInsert_path (path : Path list.link list.head tasks)
    (new : task ∉ tasks) (enough : tasks.length < fuel) :
    ∃ list', schedulerEdfListInsert fuel list task deadline = some list' ∧
      list'.deadlineOf = Function.update list.deadlineOf task deadline ∧
      Path list'.link list'.head (insertBehind list'.deadlineOf task tasks) := by
  obtain ⟨tcb, tcbEq⟩ : ∃ tcb, tcb = Function.update list.tcb task ⟨deadline, none⟩ := ⟨_, rfl⟩
  obtain ⟨key, keyEq⟩ : ∃ key, key = Function.update list.deadlineOf task deadline := ⟨_, rfl⟩
  have keys : (fun other => (tcb other).ticksRemaining) = key := by
    rw [tcbEq, deadline_update, keyEq]
    rfl
  have keyTask : key task = deadline := by rw [keyEq, Function.update_self]
  have written : Path (fun other => (tcb other).next) list.head tasks := by
    rw [tcbEq, next_update]
    exact path.update_of_not_mem new none
  have seeks := edfSeek_eq deadline none written enough
  rw [Option.or_none, keys] at seeks
  have split := front_append_back key deadline tasks
  have inserted : insertBehind key task tasks =
      front key deadline tasks ++ task :: back key deadline tasks := by rw [insertBehind, keyTask]
  rcases List.eq_nil_or_concat (front key deadline tasks) with nil | ⟨init, prev, isLast⟩
  · rw [nil, List.getLast?_nil] at seeks
    rw [nil, List.nil_append] at split inserted
    let list' : EdfList :=
      { tcb := Function.update tcb task ⟨deadline, list.head⟩, head := some task }
    have deadlines : list'.deadlineOf = key := by
      unfold deadlineOf
      rw [deadline_update, keys]
      exact Function.update_eq_self_iff.mpr keyTask.symm
    have links : list'.link = Function.update (fun other => (tcb other).next) task list.head :=
      next_update tcb task ⟨deadline, list.head⟩
    refine ⟨list', ?_, deadlines.trans keyEq, ?_⟩
    · simp only [schedulerEdfListInsert, ← tcbEq, seeks]
      rfl
    · rw [deadlines, links, inserted, split]
      refine .node ?_
      rw [Function.update_self]
      exact written.update_of_not_mem new list.head
  · rw [isLast, List.concat_eq_append, List.getLast?_append, List.getLast?_singleton,
      Option.some_or] at seeks
    rw [isLast, List.concat_eq_append, List.append_assoc, List.singleton_append] at split inserted
    have prevNe : prev ≠ task := by
      rintro rfl
      exact new (split ▸ List.mem_append_right init List.mem_cons_self)
    obtain ⟨linked, linkedEq⟩ : ∃ linked,
        linked = Function.update tcb task ⟨deadline, (tcb prev).next⟩ := ⟨_, rfl⟩
    let list' : EdfList :=
      { tcb := Function.update linked prev { linked prev with next := some task }
        head := list.head }
    have linkedKeys : (fun other => (linked other).ticksRemaining) = key := by
      rw [linkedEq, deadline_update, keys]
      exact Function.update_eq_self_iff.mpr keyTask.symm
    have deadlines : list'.deadlineOf = key := by
      unfold deadlineOf
      rw [deadline_update, linkedKeys]
      exact Function.update_eq_self_iff.mpr (congrFun linkedKeys prev)
    have links : list'.link =
        Function.update (fun other => (linked other).next) prev (some task) :=
      next_update linked prev { linked prev with next := some task }
    refine ⟨list', ?_, deadlines.trans keyEq, ?_⟩
    · simp only [schedulerEdfListInsert, ← tcbEq, seeks, ← linkedEq]
      rfl
    · rw [deadlines, links, inserted]
      refine Path.splice ?_ (by rwa [split]) ?_
      · rw [split, linkedEq, next_update]
        exact written.update_of_not_mem new _
      · rw [linkedEq, Function.update_self, Function.update_of_ne prevNe]

/-- The tasks with one deadline, in the order in which they were inserted. -/
def insertedAt (insertions : List (TaskId × Nat)) (deadline : Nat) : List TaskId :=
  (insertions.filter fun insertion => insertion.2 = deadline).map Prod.fst

/-- What the list is after some insertions. -/
structure Holds (list : EdfList) (insertions : List (TaskId × Nat)) (tasks : List TaskId) :
    Prop where
  path : Path list.link list.head tasks
  perm : tasks.Perm (insertions.map Prod.fst)
  deadlines : ∀ insertion ∈ insertions, list.deadlineOf insertion.1 = insertion.2
  sorted : Sorted list.deadlineOf tasks
  stable : ∀ deadline, tasks.filter (fun task => list.deadlineOf task = deadline) =
    insertedAt insertions deadline

/-- One insertion of a new task. -/
theorem Holds.insert {insertions : List (TaskId × Nat)} (holds : list.Holds insertions tasks)
    (new : task ∉ insertions.map Prod.fst) (enough : insertions.length < fuel) (deadline : Nat) :
    ∃ list', schedulerEdfListInsert fuel list task deadline = some list' ∧
      list'.Holds (insertions ++ [(task, deadline)])
        (insertBehind list'.deadlineOf task tasks) := by
  have notOnList : task ∉ tasks := fun onList => new (holds.perm.mem_iff.mp onList)
  have lengths : tasks.length < fuel := by
    rw [holds.perm.length_eq, List.length_map]
    exact enough
  obtain ⟨list', inserts, deadlines, path⟩ :=
    schedulerEdfListInsert_path holds.path notOnList lengths
  have sameKey : ∀ other ∈ tasks, list'.deadlineOf other = list.deadlineOf other := by
    intro other onList
    have different : other ≠ task := fun same => notOnList (same ▸ onList)
    rw [deadlines, Function.update_of_ne different]
  have keyTask : list'.deadlineOf task = deadline := by rw [deadlines, Function.update_self]
  have sorted : Sorted list'.deadlineOf tasks := by
    refine holds.sorted.imp_of_mem fun {first second} firstMem secondMem inOrder => ?_
    rw [sameKey first firstMem, sameKey second secondMem]
    exact inOrder
  refine ⟨list', inserts, path, ?_, ?_, sorted_insertBehind sorted, ?_⟩
  · calc
      (insertBehind list'.deadlineOf task tasks).Perm (task :: tasks) :=
        insertBehind_perm task tasks
      (task :: tasks).Perm (task :: insertions.map Prod.fst) := holds.perm.cons task
      (task :: insertions.map Prod.fst).Perm (insertions.map Prod.fst ++ [task]) :=
        (List.perm_append_singleton task _).symm
      _ = (insertions ++ [(task, deadline)]).map Prod.fst := by rw [List.map_append]; rfl
  · intro insertion isInserted
    rcases List.mem_append.mp isInserted with earlier | isNew
    · have onList : insertion.1 ∈ tasks :=
        holds.perm.mem_iff.mpr (List.mem_map_of_mem earlier)
      rw [sameKey insertion.1 onList, holds.deadlines insertion earlier]
    · obtain rfl := List.mem_singleton.mp isNew
      exact keyTask
  · intro bound
    have sameTasks : tasks.filter (fun task => list'.deadlineOf task = bound) =
        insertedAt insertions bound := by
      rw [← holds.stable bound]
      exact List.filter_congr fun other onList => by rw [sameKey other onList]
    rw [filter_insertBehind sorted bound, sameTasks]
    simp only [insertedAt, List.filter_append, List.map_append]
    by_cases same : deadline = bound
    · simp [keyTask, same]
    · simp [keyTask, same]

/-- Several insertions of new tasks, one after the other. -/
theorem Holds.insertAll {insertions later : List (TaskId × Nat)}
    (holds : list.Holds insertions tasks)
    (distinct : ((insertions ++ later).map Prod.fst).Nodup)
    (enough : (insertions ++ later).length < fuel) :
    ∃ list' tasks', edfInsertAll fuel list later = some list' ∧
      list'.Holds (insertions ++ later) tasks' := by
  induction later generalizing list tasks insertions with
  | nil => exact ⟨list, tasks, rfl, by rwa [List.append_nil]⟩
  | cons insertion later ih =>
      obtain ⟨task, deadline⟩ := insertion
      have new : task ∉ insertions.map Prod.fst := by
        rw [List.map_append, List.map_cons] at distinct
        intro again
        exact (List.nodup_append.mp distinct).2.2 task again task List.mem_cons_self rfl
      have fits : insertions.length < fuel := by
        rw [List.length_append] at enough
        omega
      obtain ⟨list', inserts, holds'⟩ := holds.insert new fits deadline
      have regroup : insertions ++ (task, deadline) :: later =
          (insertions ++ [(task, deadline)]) ++ later := by
        rw [List.append_assoc, List.singleton_append]
      rw [regroup] at distinct enough ⊢
      obtain ⟨final, tasks', runs, isFinal⟩ := ih holds' distinct enough
      refine ⟨final, tasks', ?_, isFinal⟩
      rw [edfInsertAll, inserts]
      exact runs

end EdfList

/-- After any insertions of distinct tasks into an empty list, the list holds exactly
these tasks, ordered by their deadlines, and tasks with one deadline in the order in
which they were inserted. -/
theorem edfInsertAll_stable_sorted (memory : TaskId → EdfTcb) (insertions : List (TaskId × Nat))
    (distinct : (insertions.map Prod.fst).Nodup) (fuel : Nat) (enough : insertions.length < fuel) :
    ∃ list tasks, edfInsertAll fuel ⟨memory, none⟩ insertions = some list ∧
      list.Holds insertions tasks := by
  have empty : EdfList.Holds ⟨memory, none⟩ [] [] := by
    refine ⟨.null, .nil, ?_, .nil, fun _ => rfl⟩
    intro insertion isInserted
    cases isInserted
  exact empty.insertAll distinct enough

theorem edfInsertAll_three :
    ∃ list tasks, edfInsertAll 4 ⟨fun _ => ⟨0, none⟩, none⟩ [(1, 7), (2, 5), (3, 7)] = some list ∧
      list.Holds [(1, 7), (2, 5), (3, 7)] tasks :=
  edfInsertAll_stable_sorted (fun _ => ⟨0, none⟩) [(1, 7), (2, 5), (3, 7)] (by decide) 4 (by decide)

end Rtos

end MiniIotRobotEdge

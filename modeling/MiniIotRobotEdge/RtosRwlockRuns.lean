import MiniIotRobotEdge.RtosRwlock

/-!
# Exclusion and accounting of the reader-writer lock

In a run where tasks unlock only what they hold, no writer shares the lock as
long as the reader counter does not wrap around.  The counters agree with the
holders as long as, in addition, no unlock wakes anybody: a woken reader is
counted twice, and the mark left for a woken writer stays forever.
-/

namespace MiniIotRobotEdge

namespace Rtos

open Relation

/-- Tasks call an unlock function only while they hold the lock in its mode. -/
def UnlocksHeld (current : Traced) (action : Action) : Prop :=
  ∀ task rwlock,
    (action = .invoke task (.rwlockReadUnlock rwlock) →
      task ∈ holders .read current.trace rwlock) ∧
    (action = .invoke task (.rwlockWriteUnlock rwlock) →
      task ∈ holders .write current.trace rwlock)

/-- No read lock is granted while `readers` has its largest value. -/
def ReadersBounded (current : Traced) (action : Action) : Prop :=
  ∀ task rwlock, GrantsRead current.system action task rwlock →
    (current.system.rwlocks rwlock).readers + 1 < uint32Size

/-- The relation between the counters of a lock and its holders on which
exclusion rests. -/
structure RwInvariant (current : Traced) (rwlock : Nat) : Prop where
  readers_le : (holders .read current.trace rwlock).length ≤
    (current.system.rwlocks rwlock).readers
  readers_lt : (current.system.rwlocks rwlock).readers < uint32Size
  oneWriter : (holders .write current.trace rwlock).length ≤ 1
  exclusive : holders .write current.trace rwlock ≠ [] →
    holders .read current.trace rwlock = [] ∧
      (current.system.rwlocks rwlock).writerActive ≠ 0
  readUnlocker : ∀ task start,
    current.system.pc task = .entering (.rwlockReadUnlock rwlock) start →
    task ∈ holders .read current.trace rwlock
  writeUnlocker : ∀ task start,
    current.system.pc task = .entering (.rwlockWriteUnlock rwlock) start →
    task ∈ holders .write current.trace rwlock

/-- A task that does not run keeps its locks. -/
theorem RwStep.mem_holders {rwlock : Nat} {before after : SyncSystem} {action : Action}
    {events older : List Event} (step : RwStep rwlock before action after events)
    {mode : RwMode} {task : TaskId} (holds : task ∈ holders mode older rwlock)
    (stays : action ≠ .run task) :
    task ∈ holders mode (events ++ older) rwlock := by
  have unchanged : ∀ {readers writers : List TaskId → List TaskId},
      HoldersChange rwlock events readers writers →
      (∀ tasks, task ∈ tasks → task ∈ readers tasks) →
      (∀ tasks, task ∈ tasks → task ∈ writers tasks) →
      task ∈ holders mode (events ++ older) rwlock := by
    intro readers writers held keepsReader keepsWriter
    cases mode with
    | read =>
        rw [(held older).1]
        exact keepsReader _ holds
    | write =>
        rw [(held older).2]
        exact keepsWriter _ holds
  have erased : ∀ {other : TaskId}, action = .run other → ∀ tasks : List TaskId,
      task ∈ tasks → task ∈ tasks.erase other := by
    intro other acting tasks isMember
    apply (List.mem_erase_of_ne _).mpr isMember
    rintro rfl
    exact stays acting
  cases step with
  | keep same held => exact unchanged held (fun _ => id) (fun _ => id)
  | readLock taker granted counters held =>
      exact unchanged held (fun _ => List.mem_cons_of_mem _) (fun _ => id)
  | writeLock taker free counters held =>
      exact unchanged held (fun _ => id) (fun _ => List.mem_cons_of_mem _)
  | readUnlock other acting counters held =>
      exact unchanged held (erased acting.1) (fun _ => id)
  | writeUnlock other acting nobody bounded held =>
      exact unchanged held (fun _ => id) (erased acting.1)

theorem lowered_eq {object : Rwlock} (positive : 0 < object.readers)
    (bounded : object.readers < uint32Size) : object.lowered = object.readers - 1 := by
  unfold Rwlock.lowered uint32Size at *
  omega

theorem erase_eq_nil_of_length_le_one {tasks : List TaskId} {task : TaskId}
    (isMember : task ∈ tasks) (short : tasks.length ≤ 1) : tasks.erase task = [] := by
  have shorter := List.length_erase_of_mem isMember
  exact List.length_eq_zero_iff.mp (by omega)

/-- The part of the invariant about counters and holders is kept by every
case of `RwStep`. -/
theorem RwInvariant.counters_step {rwlock : Nat} {before after : Traced}
    {action : Action} {events : List Event} (invariant : RwInvariant before rwlock)
    (bounded : ReadersBounded before action)
    (step : RwStep rwlock before.system action after.system events)
    (traced : after.trace = events ++ before.trace) :
    (holders .read after.trace rwlock).length ≤
        (after.system.rwlocks rwlock).readers ∧
      (after.system.rwlocks rwlock).readers < uint32Size ∧
      (holders .write after.trace rwlock).length ≤ 1 ∧
      (holders .write after.trace rwlock ≠ [] →
        holders .read after.trace rwlock = [] ∧
          (after.system.rwlocks rwlock).writerActive ≠ 0) := by
  obtain ⟨readersLe, readersLt, oneWriter, exclusive, readUnlocker, writeUnlocker⟩ :=
    invariant
  rw [traced]
  cases step with
  | keep same held =>
      obtain ⟨readers, active⟩ := Prod.mk.inj same
      rw [(held _).1, (held _).2, readers, active]
      exact ⟨readersLe, readersLt, oneWriter, exclusive⟩
  | readLock task granted counters held =>
      obtain ⟨readers, active⟩ := Prod.mk.inj counters
      have room := bounded task rwlock granted
      have noWriter : holders .write before.trace rwlock = [] := by
        by_contra writer
        exact (exclusive writer).2 granted.2.2.1
      rw [Nat.mod_eq_of_lt room] at readers
      rw [(held _).1, (held _).2, readers, active, noWriter]
      refine ⟨?_, room, by simp, by simp⟩
      simpa using readersLe
  | writeLock task free counters held =>
      obtain ⟨noReaders, inactive⟩ := Prod.mk.inj free
      obtain ⟨readers, active⟩ := Prod.mk.inj counters
      have noWriter : holders .write before.trace rwlock = [] := by
        by_contra writer
        exact (exclusive writer).2 inactive
      have noReader : holders .read before.trace rwlock = [] :=
        List.length_eq_zero_iff.mp (by omega)
      rw [(held _).1, (held _).2, readers, active, noWriter, noReader]
      exact ⟨by simp, by simp [uint32Size], by simp, by simp⟩
  | readUnlock task acting counters held =>
      obtain ⟨rfl, start, inside⟩ := acting
      obtain ⟨readers, _⟩ := Prod.mk.inj counters
      have holds := readUnlocker task start inside
      have positive := List.length_pos_of_mem holds
      have noWriter : holders .write before.trace rwlock = [] := by
        by_contra writer
        simp [(exclusive writer).1] at holds
      rw [lowered_eq (by omega) readersLt] at readers
      rw [(held _).1, (held _).2, readers, noWriter]
      refine ⟨?_, by omega, by simp, by simp⟩
      rw [List.length_erase_of_mem holds]
      omega
  | writeUnlock task acting nobody keepsBound held =>
      obtain ⟨rfl, start, inside⟩ := acting
      have holds := writeUnlocker task start inside
      have noReader := (exclusive (List.ne_nil_of_mem holds)).1
      have noWriter : holders .write (events ++ before.trace) rwlock = [] :=
        (held _).2.trans (erase_eq_nil_of_length_le_one holds oneWriter)
      rw [(held _).1, noWriter, id, noReader]
      exact ⟨by simp, keepsBound readersLt, by simp, by simp⟩

theorem RwInvariant.step {rwlock fuel : Nat} {before after : Traced} {action : Action}
    {events : List Event} (invariant : RwInvariant before rwlock)
    (disciplined : UnlocksHeld before action) (bounded : ReadersBounded before action)
    (stepped : exec fuel before.system action = some (after.system, events))
    (traced : after.trace = events ++ before.trace) : RwInvariant after rwlock := by
  have step := exec_rwStep stepped rwlock
  obtain ⟨readersLe, readersLt, oneWriter, exclusive⟩ :=
    invariant.counters_step bounded step traced
  refine ⟨readersLe, readersLt, oneWriter, exclusive, ?_, ?_⟩
  · intro task start inside
    rw [traced]
    rcases exec_entering_pc stepped inside with rfl | ⟨inBefore, stays⟩
    · exact step.mem_holders ((disciplined task rwlock).1 rfl) (by simp)
    · exact step.mem_holders (invariant.readUnlocker task start inBefore) stays
  · intro task start inside
    rw [traced]
    rcases exec_entering_pc stepped inside with rfl | ⟨inBefore, stays⟩
    · exact step.mem_holders ((disciplined task rwlock).2 rfl) (by simp)
    · exact step.mem_holders (invariant.writeUnlocker task start inBefore) stays

theorem SyncSystem.Initial.rwInvariant {initial : SyncSystem} (start : initial.Initial)
    (rwlock : Nat) : RwInvariant ⟨initial, []⟩ rwlock where
  readers_le := Nat.zero_le _
  readers_lt := by simp [start.rwlock, uint32Size]
  oneWriter := Nat.zero_le _
  exclusive := fun held => absurd rfl held
  readUnlocker := fun task _ inside => by simp [start.idle task] at inside
  writeUnlocker := fun task _ inside => by simp [start.idle task] at inside

/-- The runs in which a read lock never meets a full counter. -/
def DisciplinedBounded (current : Traced) (action : Action) : Prop :=
  UnlocksHeld current action ∧ ReadersBounded current action

theorem rwInvariant_of_reachable {initial : SyncSystem} (start : initial.Initial)
    {current : Traced} (run : Traced.Reachable DisciplinedBounded initial current)
    (rwlock : Nat) : RwInvariant current rwlock := by
  induction run with
  | refl => exact start.rwInvariant rwlock
  | tail _ step ih =>
      obtain ⟨fuel, action, events, ⟨disciplined, bounded⟩, stepped, traced⟩ := step
      exact ih.step disciplined bounded stepped traced

/-- A writer holds the lock alone. -/
theorem rwlock_exclusion {initial : SyncSystem} (start : initial.Initial)
    {current : Traced} (run : Traced.Reachable DisciplinedBounded initial current)
    (rwlock : Nat) {writer other : TaskId} (different : other ≠ writer)
    (writes : writer ∈ holders .write current.trace rwlock) :
    other ∉ holders .read current.trace rwlock ∧
      other ∉ holders .write current.trace rwlock := by
  have invariant := rwInvariant_of_reachable start run rwlock
  have noReader := (invariant.exclusive (List.ne_nil_of_mem writes)).1
  refine ⟨by simp [noReader], fun alsoWrites => different ?_⟩
  obtain ⟨only, isOnly⟩ := List.length_eq_one_iff.mp
    (le_antisymm invariant.oneWriter (List.length_pos_of_mem writes))
  rw [isOnly, List.mem_singleton] at writes alsoWrites
  rw [writes, alsoWrites]

/-- A test for the condition of the runs. -/
def disciplinedGuard (current : Traced) : Action → Bool
  | .invoke task (.rwlockReadUnlock rwlock) => task ∈ holders .read current.trace rwlock
  | .invoke task (.rwlockWriteUnlock rwlock) => task ∈ holders .write current.trace rwlock
  | .run task =>
      match current.system.pc task with
      | .entering (.rwlockReadLock rwlock _) _ | .retrying (.rwlockReadLock rwlock _) _ =>
          (current.system.rwlocks rwlock).readers + 1 < uint32Size
      | _ => true
  | _ => true

theorem disciplinedBounded_of_guard (current : Traced) (action : Action)
    (guarded : disciplinedGuard current action = true) :
    DisciplinedBounded current action := by
  refine ⟨fun task rwlock => ⟨?_, ?_⟩, ?_⟩
  · rintro rfl
    simpa [disciplinedGuard] using guarded
  · rintro rfl
    simpa [disciplinedGuard] using guarded
  · rintro task rwlock ⟨rfl, ⟨timeout, start, inside | inside⟩, _⟩
    · simpa [disciplinedGuard, inside] using guarded
    · simpa [disciplinedGuard, inside] using guarded

/-- Task 2 writes while task 3 waits to read. -/
theorem rwlock_exclusion_twoTasks :
    ∃ current, Traced.Reachable DisciplinedBounded twoTasks current ∧
      2 ∈ holders .write current.trace 0 ∧
      (current.system.pc 3).waiting = some (.rwlockReadLock 0 9) ∧
      3 ∉ holders .read current.trace 0 ∧ 3 ∉ holders .write current.trace 0 := by
  obtain ⟨current, run, writes, waits⟩ :=
    Traced.exists_reachable disciplinedBounded_of_guard 4
      [.invoke 3 (.rwlockReadLock 0 0), .run 3, .invoke 3 (.rwlockReadUnlock 0), .run 3,
        .invoke 2 (.rwlockWriteLock 0 0), .run 2, .invoke 3 (.rwlockReadLock 0 9), .run 3]
      twoTasks
      (fun current => 2 ∈ holders .write current.trace 0 ∧
        (current.system.pc 3).waiting = some (.rwlockReadLock 0 9))
      (by decide +kernel)
  exact ⟨current, run, writes, waits,
    rwlock_exclusion twoTasks_initial run 0 (by decide) writes⟩

/-- A read lock without a writer is granted at once. -/
theorem enterCall_readLock {system : SyncSystem} {rwlock : Nat}
    (inactive : (system.rwlocks rwlock).writerActive = 0)
    (unwanted : (system.rwlocks rwlock).writerWaiting = 0)
    (fuel : Nat) (task : TaskId) (timeout start : Nat) :
    enterCall fuel system task (.rwlockReadLock rwlock timeout) start =
      some ((system.modifyRwlock rwlock fun object =>
          { object with readers := (object.readers + 1) % uint32Size }).setPc task .idle,
        [.returned task (.rwlockReadLock rwlock timeout) 1]) := by
  simp [enterCall, waitLoop, testLoop, finish, inactive, unwanted]

/-- A write lock is granted at once when the counters are zero. -/
theorem enterCall_writeLock {system : SyncSystem} {rwlock : Nat}
    (free : system.rwCounters rwlock = (0, 0))
    (fuel : Nat) (task : TaskId) (timeout start : Nat) :
    ∃ after, enterCall fuel system task (.rwlockWriteLock rwlock timeout) start =
      some (after, [.returned task (.rwlockWriteLock rwlock timeout) 1]) := by
  obtain ⟨readers, active⟩ := Prod.mk.inj free
  refine ⟨?_, ?_⟩
  rotate_left
  · simp only [enterCall, waitLoop, Option.map_some, testLoop, finish]
    rw [if_neg (by simp [readers, active])]

/-- A lock call that is answered by its first section, in two steps of a
run. -/
theorem Traced.Reachable.lock {initial : SyncSystem} {current : Traced}
    (run : Traced.Reachable UnlocksHeld initial current)
    {fuel : Nat} {task : TaskId} {call : Call} {after : SyncSystem} {events : List Event}
    (idle : current.system.pc task = .idle)
    (isLock : ∀ rwlock, call ≠ .rwlockReadUnlock rwlock ∧ call ≠ .rwlockWriteUnlock rwlock)
    (entered : enterCall fuel
      ((dispatch current.system task).setPc task
        (.entering call current.system.kernel.tickCount))
      task call current.system.kernel.tickCount = some (after, events)) :
    Traced.Reachable UnlocksHeld initial ⟨after, events ++ current.trace⟩ := by
  have accepted : refused current.system call = false := by
    cases call with
    | rwlockReadUnlock rwlock => exact absurd rfl (isLock rwlock).1
    | rwlockWriteUnlock rwlock => exact absurd rfl (isLock rwlock).2
    | _ => rfl
  have invoked : Traced.Step UnlocksHeld current
      ⟨(dispatch current.system task).setPc task
        (.entering call current.system.kernel.tickCount), current.trace⟩ := by
    refine ⟨fuel, .invoke task call, [], ?_, by simp [exec, idle, accepted], rfl⟩
    intro caller rwlock
    refine ⟨fun same => ?_, fun same => ?_⟩
    · exact absurd (Action.invoke.inj same).2 (isLock rwlock).1
    · exact absurd (Action.invoke.inj same).2 (isLock rwlock).2
  refine (ReflTransGen.tail run invoked).tail ⟨fuel, .run task, events, ?_, ?_, rfl⟩
  · exact fun _ _ => ⟨by simp, by simp⟩
  · have inside : ((dispatch current.system task).setPc task
        (.entering call current.system.kernel.tickCount)).pc task =
          .entering call current.system.kernel.tickCount := by
      simp [SyncSystem.pc_setPc]
    rw [exec_entering inside]
    exact entered

/-- Task 2 takes the read lock again and again. -/
theorem readers_pile_up (count : Nat) :
    ∃ current, Traced.Reachable UnlocksHeld twoTasks current ∧
      (∀ task, current.system.pc task = .idle) ∧
      current.system.rwlocks 0 = { readers := count % uint32Size } ∧
      holders .read current.trace 0 = List.replicate count 2 := by
  induction count with
  | zero =>
      exact ⟨⟨twoTasks, []⟩, .refl, fun _ => rfl, by simp [twoTasks], rfl⟩
  | succ count ih =>
      obtain ⟨current, run, idle, lock, readers⟩ := ih
      have inactive : ((dispatch current.system 2).setPc 2 (.entering (.rwlockReadLock 0 0)
          current.system.kernel.tickCount)).rwlocks 0 = { readers := count % uint32Size } :=
        lock
      have granted := enterCall_readLock (congrArg Rwlock.writerActive inactive)
        (congrArg Rwlock.writerWaiting inactive) 0 2 0 current.system.kernel.tickCount
      refine ⟨_, run.lock (idle 2) (by simp) granted, ?_, ?_, ?_⟩
      · intro task
        by_cases same : task = 2
        · simp [SyncSystem.pc_setPc, same]
        · simp [SyncSystem.pc_setPc, SyncSystem.modifyRwlock, same, idle]
      · simp [dispatch, lock]
      · simp [holders_cons, holdersStep, RwMode.locks, readers, List.replicate_succ]

/-- After as many read locks as the counter has values, a writer gets in. -/
theorem rwlock_exclusion_wraps :
    ¬ ∀ current, Traced.Reachable UnlocksHeld twoTasks current →
      ∀ writer other, other ≠ writer → writer ∈ holders .write current.trace 0 →
        other ∉ holders .read current.trace 0 ∧ other ∉ holders .write current.trace 0 := by
  intro exclusive
  obtain ⟨current, run, idle, lock, readers⟩ := readers_pile_up uint32Size
  have free : ((dispatch current.system 3).setPc 3
      (.entering (.rwlockWriteLock 0 0) current.system.kernel.tickCount)).rwCounters 0 =
        (0, 0) := by
    simp [SyncSystem.rwCounters, dispatch, lock]
  obtain ⟨after, granted⟩ := enterCall_writeLock free 0 3 0 current.system.kernel.tickCount
  have later := run.lock (idle 3) (by simp) granted
  refine (exclusive _ later 3 2 (by decide) ?_).1 ?_
  · simp [holders_cons, holdersStep, RwMode.locks]
  · have stillReads : holders .read
        ([.returned 3 (.rwlockWriteLock 0 0) 1] ++ current.trace) 0 =
          List.replicate uint32Size 2 := by
      rw [← readers]
      rfl
    rw [stillReads]
    exact List.mem_replicate.mpr ⟨by simp [uint32Size], rfl⟩

/-- The steps that keep the counters equal to the holders: no unlock finds a
task to wake, and no task takes a second read lock. -/
structure WakesNobody (current : Traced) (action : Action) : Prop where
  disciplined : UnlocksHeld current action
  bounded : ReadersBounded current action
  single : ∀ task rwlock, GrantsRead current.system action task rwlock →
    task ∉ holders .read current.trace rwlock
  readUnlock : ∀ task rwlock,
    RunsUnlock current.system action task (.rwlockReadUnlock rwlock) →
    (current.system.rwlocks rwlock).lowered = 0 →
    (current.system.rwlocks rwlock).blockedWriters = none
  writeUnlock : ∀ task rwlock,
    RunsUnlock current.system action task (.rwlockWriteUnlock rwlock) →
    (current.system.rwlocks rwlock).blockedWriters = none ∧
      (current.system.rwlocks rwlock).blockedReaders = none

/-- The counters are the numbers of holders. -/
structure RwAccount (current : Traced) (rwlock : Nat) : Prop where
  counters : current.system.rwCounters rwlock =
    ((holders .read current.trace rwlock).length,
      (holders .write current.trace rwlock).length)
  distinct : (holders .read current.trace rwlock).Nodup

theorem RwAccount.step {rwlock fuel : Nat} {before after : Traced} {action : Action}
    {events : List Event} (account : RwAccount before rwlock)
    (invariant : RwInvariant before rwlock) (allowed : WakesNobody before action)
    (stepped : exec fuel before.system action = some (after.system, events))
    (traced : after.trace = events ++ before.trace) : RwAccount after rwlock := by
  obtain ⟨counted, distinct⟩ := account
  obtain ⟨readersEq, activeEq⟩ := Prod.mk.inj counted
  have step := exec_rwStep stepped rwlock
  cases step with
  | keep same held =>
      refine ⟨?_, ?_⟩
      · rw [same, traced, (held _).1, (held _).2, counted]
        rfl
      · rw [traced, (held _).1]
        exact distinct
  | readLock task granted counters held =>
      rw [Nat.mod_eq_of_lt (allowed.bounded task rwlock granted)] at counters
      refine ⟨?_, ?_⟩
      · rw [counters, traced, (held _).1, (held _).2, id, ← activeEq, granted.2.2.1,
          List.length_cons, readersEq]
      · rw [traced, (held _).1]
        exact List.nodup_cons.mpr ⟨allowed.single task rwlock granted, distinct⟩
  | writeLock task free counters held =>
      obtain ⟨noReaders, inactive⟩ := Prod.mk.inj free
      refine ⟨?_, ?_⟩
      · rw [counters, traced, (held _).1, (held _).2, id, List.length_cons, ← activeEq,
          ← readersEq, noReaders, inactive]
      · rw [traced, (held _).1]
        exact distinct
  | readUnlock task acting counters held =>
      have nobody := allowed.readUnlock task rwlock acting
      obtain ⟨rfl, start, inside⟩ := acting
      have holds := invariant.readUnlocker task start inside
      have positive := List.length_pos_of_mem holds
      rw [if_neg (fun wakes => wakes.2 (nobody wakes.1)),
        lowered_eq (by omega) invariant.readers_lt] at counters
      have erased : (holders .read (events ++ before.trace) rwlock) =
        (holders .read before.trace rwlock).erase task := (held _).1
      refine ⟨?_, ?_⟩
      · rw [counters, traced, erased, (held _).2, id, List.length_erase_of_mem holds,
          readersEq, activeEq]
      · rw [traced, erased]
        exact distinct.erase task
  | writeUnlock task acting nobody bounded held =>
      obtain ⟨noWriters, noReaders⟩ := allowed.writeUnlock task rwlock acting
      obtain ⟨rfl, start, inside⟩ := acting
      have holds := invariant.writeUnlocker task start inside
      have noWriter : holders .write (events ++ before.trace) rwlock = [] :=
        (held _).2.trans (erase_eq_nil_of_length_le_one holds invariant.oneWriter)
      refine ⟨?_, ?_⟩
      · rw [nobody noWriters noReaders, traced, (held _).1, noWriter, id, readersEq,
          List.length_nil]
      · rw [traced, (held _).1]
        exact distinct

theorem rwAccount_of_reachable {initial : SyncSystem} (start : initial.Initial)
    {current : Traced} (run : Traced.Reachable WakesNobody initial current)
    (rwlock : Nat) : RwInvariant current rwlock ∧ RwAccount current rwlock := by
  induction run with
  | refl =>
      refine ⟨start.rwInvariant rwlock, ?_, List.nodup_nil⟩
      simp [SyncSystem.rwCounters, start.rwlock, holders]
  | tail _ step ih =>
      obtain ⟨fuel, action, events, allowed, stepped, traced⟩ := step
      obtain ⟨invariant, account⟩ := ih
      exact ⟨invariant.step allowed.disciplined allowed.bounded stepped traced,
        account.step invariant allowed stepped traced⟩

/-- As long as no unlock wakes anybody, `readers` is the number of tasks that
hold the read lock, `writer_active` tells whether some task holds the write
lock, and a lock that nobody holds admits the next writer at once. -/
theorem rwlock_accounting {initial : SyncSystem} (start : initial.Initial)
    {current : Traced} (run : Traced.Reachable WakesNobody initial current)
    (rwlock : Nat) :
    (current.system.rwlocks rwlock).readers =
      (holders .read current.trace rwlock).toFinset.card ∧
    ((current.system.rwlocks rwlock).writerActive = 1 ↔
      ∃ task, task ∈ holders .write current.trace rwlock) ∧
    ((∀ mode, holders mode current.trace rwlock = []) →
      (current.system.rwlocks rwlock).readers = 0 ∧
      (current.system.rwlocks rwlock).writerActive = 0 ∧
      ∀ fuel task timeout began,
        current.system.pc task = .entering (.rwlockWriteLock rwlock timeout) began →
        ∃ after, exec fuel current.system (.run task) =
          some (after, [.returned task (.rwlockWriteLock rwlock timeout) 1])) := by
  obtain ⟨invariant, counted, distinct⟩ := rwAccount_of_reachable start run rwlock
  obtain ⟨readersEq, activeEq⟩ := Prod.mk.inj counted
  refine ⟨?_, ?_, ?_⟩
  · rw [readersEq, List.toFinset_card_of_nodup distinct]
  · rw [activeEq]
    constructor
    · intro one
      exact List.exists_mem_of_length_pos (by omega)
    · rintro ⟨task, holds⟩
      exact le_antisymm invariant.oneWriter (List.length_pos_of_mem holds)
  · intro nobody
    have free : current.system.rwCounters rwlock = (0, 0) := by
      rw [counted, nobody, nobody, List.length_nil]
    obtain ⟨noReaders, inactive⟩ := Prod.mk.inj free
    refine ⟨noReaders, inactive, fun fuel task timeout began inside => ?_⟩
    have freeInside : (dispatch current.system task).rwCounters rwlock = (0, 0) := free
    rw [exec_entering inside]
    exact enterCall_writeLock freeInside fuel task timeout began

/-- A test for `WakesNobody`. -/
def wakesNobodyGuard (current : Traced) : Action → Bool
  | .run task =>
      match current.system.pc task with
      | .entering (.rwlockReadLock rwlock _) _ | .retrying (.rwlockReadLock rwlock _) _ =>
          (current.system.rwlocks rwlock).readers + 1 < uint32Size ∧
            task ∉ holders .read current.trace rwlock
      | .entering (.rwlockReadUnlock rwlock) _ =>
          (current.system.rwlocks rwlock).blockedWriters = none
      | .entering (.rwlockWriteUnlock rwlock) _ =>
          (current.system.rwlocks rwlock).blockedWriters = none ∧
            (current.system.rwlocks rwlock).blockedReaders = none
      | _ => true
  | action => disciplinedGuard current action

theorem wakesNobody_of_guard (current : Traced) (action : Action)
    (guarded : wakesNobodyGuard current action = true) :
    WakesNobody current action := by
  refine ⟨fun task rwlock => ⟨?_, ?_⟩, ?_, ?_, ?_, ?_⟩
  · rintro rfl
    simpa [wakesNobodyGuard, disciplinedGuard] using guarded
  · rintro rfl
    simpa [wakesNobodyGuard, disciplinedGuard] using guarded
  · rintro task rwlock ⟨rfl, ⟨timeout, start, inside | inside⟩, _⟩
    · simp only [wakesNobodyGuard, inside, decide_eq_true_eq] at guarded
      exact guarded.1
    · simp only [wakesNobodyGuard, inside, decide_eq_true_eq] at guarded
      exact guarded.1
  · rintro task rwlock ⟨rfl, ⟨timeout, start, inside | inside⟩, _⟩
    · simp only [wakesNobodyGuard, inside, decide_eq_true_eq] at guarded
      exact guarded.2
    · simp only [wakesNobodyGuard, inside, decide_eq_true_eq] at guarded
      exact guarded.2
  · rintro task rwlock ⟨rfl, start, inside⟩ _
    simpa [wakesNobodyGuard, inside] using guarded
  · rintro task rwlock ⟨rfl, start, inside⟩
    simpa [wakesNobodyGuard, inside] using guarded

/-- Task 3 reads while task 2 gives up waiting to write; then both are
through and task 2 writes. -/
theorem rwlock_accounting_twoTasks :
    ∃ current, Traced.Reachable WakesNobody twoTasks current ∧
      holders .read current.trace 0 = [] ∧ holders .write current.trace 0 = [] ∧
      (∃ after, exec 4 current.system (.run 2) =
        some (after, [.returned 2 (.rwlockWriteLock 0 0) 1])) := by
  obtain ⟨current, run, noReader, noWriter, inside⟩ :=
    Traced.exists_reachable wakesNobody_of_guard 4
      [.invoke 3 (.rwlockReadLock 0 0), .run 3, .invoke 2 (.rwlockWriteLock 0 1), .run 2,
        .run 2, .tick, .run 2, .run 2, .invoke 3 (.rwlockReadUnlock 0), .run 3,
        .invoke 2 (.rwlockWriteLock 0 0)]
      twoTasks
      (fun current => holders .read current.trace 0 = [] ∧
        holders .write current.trace 0 = [] ∧
        current.system.pc 2 = .entering (.rwlockWriteLock 0 0) 2)
      (by decide +kernel)
  have nobody : ∀ mode, holders mode current.trace 0 = [] := by
    intro mode
    cases mode
    · exact noReader
    · exact noWriter
  exact ⟨current, run, noReader, noWriter,
    ((rwlock_accounting twoTasks_initial run 0).2.2 nobody).2.2 4 2 0 2 inside⟩

/-- A reader that blocks until the writer is gone is counted twice. -/
theorem rwlock_accounting_woken_reader :
    ¬ ∀ current, Traced.Reachable UnlocksHeld twoTasks current →
      (∀ task, (current.system.pc task).waiting = none) →
      (current.system.rwlocks 0).readers = (holders .read current.trace 0).toFinset.card ∧
      ((current.system.rwlocks 0).writerActive = 1 ↔
        ∃ task, task ∈ holders .write current.trace 0) := by
  intro accounted
  obtain ⟨current, executed, readers, reading, writerIdle, readerIdle⟩ :=
    Traced.exists_executed disciplinedGuard 4
      [.invoke 2 (.rwlockWriteLock 0 0), .run 2,
        .invoke 3 (.rwlockReadLock 0 (uint32Size - 1)), .run 3,
        .invoke 2 (.rwlockWriteUnlock 0), .run 2, .run 3, .tick, .run 3, .run 3]
      twoTasks
      (fun current => (current.system.rwlocks 0).readers = 2 ∧
        holders .read current.trace 0 = [3] ∧
        current.system.pc 2 = .idle ∧ current.system.pc 3 = .idle)
      (by decide +kernel)
  have run : Traced.Reachable UnlocksHeld twoTasks current :=
    Traced.execAll_run
      (fun current action guarded => (disciplinedBounded_of_guard current action guarded).1)
      executed
  have quiet : ∀ task, (current.system.pc task).waiting = none := by
    intro task
    by_cases named : task = 2 ∨ task = 3
    · rcases named with rfl | rfl
      · rw [writerIdle, Pc.waiting]
      · rw [readerIdle, Pc.waiting]
    · obtain ⟨notWriter, notReader⟩ := not_or.mp named
      have idle : current.system.pc task = .idle :=
        Traced.execAll_idle executed rfl (by simp [Ne.symm notWriter, Ne.symm notReader])
      rw [idle, Pc.waiting]
  have wrong := (accounted current run quiet).1
  rw [readers, reading] at wrong
  simp at wrong

end Rtos

end MiniIotRobotEdge

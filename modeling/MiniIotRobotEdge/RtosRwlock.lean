import MiniIotRobotEdge.RtosSyncRuns
import Mathlib.Data.Finset.Card
import Mathlib.Data.Finset.Dedup

/-!
# The mini-rtos reader-writer lock

A task holds the lock in a mode from the return of the lock call to the
critical section of the unlock call.  The counters `readers` and
`writer_active` are also changed on behalf of sleeping tasks: `write_unlock`
counts every reader it wakes, who will count itself again, and marks the lock
active for a writer it wakes, who then waits for itself.  Every step is
reduced to what it does to the two counters and to the lists of holders
(`RwStep`).
-/

namespace MiniIotRobotEdge

namespace Rtos

open Relation

inductive RwMode
  | read
  | write
  deriving DecidableEq, Repr

/-- The calls that lock `rwlock` in a mode. -/
def RwMode.locks : RwMode → Nat → Call → Bool
  | .read, rwlock, .rwlockReadLock object _ => object = rwlock
  | .write, rwlock, .rwlockWriteLock object _ => object = rwlock
  | _, _, _ => false

/-- The calls that unlock `rwlock` in a mode. -/
def RwMode.unlocks : RwMode → Nat → Call → Bool
  | .read, rwlock, .rwlockReadUnlock object => object = rwlock
  | .write, rwlock, .rwlockWriteUnlock object => object = rwlock
  | _, _, _ => false

/-- The effect of one event on the tasks that hold the lock in a mode. -/
def holdersStep (mode : RwMode) (rwlock : Nat) (event : Event)
    (holders : List TaskId) : List TaskId :=
  match event with
  | .returned task call result =>
      if result = 1 then
        if mode.locks rwlock call then task :: holders
        else if mode.unlocks rwlock call then holders.erase task
        else holders
      else holders
  | _ => holders

/-- The tasks that hold the lock, once for every lock call that returned 1 and
was not undone by an unlock. -/
def holders (mode : RwMode) (trace : List Event) (rwlock : Nat) : List TaskId :=
  trace.foldr (holdersStep mode rwlock) []

theorem holders_cons (mode : RwMode) (event : Event) (trace : List Event) (rwlock : Nat) :
    holders mode (event :: trace) rwlock =
      holdersStep mode rwlock event (holders mode trace rwlock) := rfl

/-- The two counters that decide who is let in. -/
def SyncSystem.rwCounters (system : SyncSystem) (rwlock : Nat) : Nat × Nat :=
  ((system.rwlocks rwlock).readers, (system.rwlocks rwlock).writerActive)

/-- What a step does to the holders of a lock in each mode. -/
def HoldersChange (rwlock : Nat) (events : List Event)
    (readers writers : List TaskId → List TaskId) : Prop :=
  ∀ older, holders .read (events ++ older) rwlock = readers (holders .read older rwlock) ∧
    holders .write (events ++ older) rwlock = writers (holders .write older rwlock)

/-- The task tests the loop condition of `rwlock_read_lock` and finds it
false. -/
def GrantsRead (system : SyncSystem) (action : Action) (task : TaskId)
    (rwlock : Nat) : Prop :=
  action = .run task ∧
    (∃ timeout start, system.pc task = .entering (.rwlockReadLock rwlock timeout) start ∨
      system.pc task = .retrying (.rwlockReadLock rwlock timeout) start) ∧
    (system.rwlocks rwlock).writerActive = 0 ∧ (system.rwlocks rwlock).writerWaiting = 0

/-- The task runs the critical section of an unlock call. -/
def RunsUnlock (system : SyncSystem) (action : Action) (task : TaskId)
    (call : Call) : Prop :=
  action = .run task ∧ ∃ start, system.pc task = .entering call start

/-- The value of `readers` after `readers--`. -/
def Rwlock.lowered (object : Rwlock) : Nat :=
  (object.readers + (uint32Size - 1)) % uint32Size

/-- What one step does to a reader-writer lock. -/
inductive RwStep (rwlock : Nat) (before : SyncSystem) (action : Action)
    (after : SyncSystem) (events : List Event) : Prop
  | keep (same : after.rwCounters rwlock = before.rwCounters rwlock)
      (held : HoldersChange rwlock events id id)
  | readLock (task : TaskId) (granted : GrantsRead before action task rwlock)
      (counters : after.rwCounters rwlock =
        (((before.rwlocks rwlock).readers + 1) % uint32Size, 0))
      (held : HoldersChange rwlock events (task :: ·) id)
  | writeLock (task : TaskId)
      (free : before.rwCounters rwlock = (0, 0))
      (counters : after.rwCounters rwlock = (0, 1))
      (held : HoldersChange rwlock events id (task :: ·))
  | readUnlock (task : TaskId)
      (acting : RunsUnlock before action task (.rwlockReadUnlock rwlock))
      (counters : after.rwCounters rwlock = ((before.rwlocks rwlock).lowered,
        if (before.rwlocks rwlock).lowered = 0 ∧
          (before.rwlocks rwlock).blockedWriters ≠ none then 1
        else (before.rwlocks rwlock).writerActive))
      (held : HoldersChange rwlock events (List.erase · task) id)
  | writeUnlock (task : TaskId)
      (acting : RunsUnlock before action task (.rwlockWriteUnlock rwlock))
      (nobody : (before.rwlocks rwlock).blockedWriters = none →
        (before.rwlocks rwlock).blockedReaders = none →
        after.rwCounters rwlock = ((before.rwlocks rwlock).readers, 0))
      (bounded : (before.rwlocks rwlock).readers < uint32Size →
        (after.rwlocks rwlock).readers < uint32Size)
      (held : HoldersChange rwlock events id (List.erase · task))

/-- Only the locks and program counters before the step matter. -/
theorem RwStep.congr_before {rwlock : Nat} {before other after : SyncSystem}
    {action : Action} {events : List Event}
    (step : RwStep rwlock other action after events)
    (rwlocks : other.rwlocks = before.rwlocks) (pc : other.pc = before.pc) :
    RwStep rwlock before action after events := by
  have counters : other.rwCounters rwlock = before.rwCounters rwlock := by
    rw [SyncSystem.rwCounters, rwlocks, SyncSystem.rwCounters]
  cases step with
  | keep same held => exact .keep (same.trans counters) held
  | readLock task granted changed held =>
      refine .readLock task ?_ (rwlocks ▸ changed) held
      simpa only [GrantsRead, rwlocks, pc] using granted
  | writeLock task free changed held =>
      exact .writeLock task (counters ▸ free) changed held
  | readUnlock task acting changed held =>
      refine .readUnlock task ?_ (rwlocks ▸ changed) held
      simpa only [RunsUnlock, pc] using acting
  | writeUnlock task acting nobody bounded held =>
      refine .writeUnlock task ?_ (rwlocks ▸ nobody) (rwlocks ▸ bounded) held
      simpa only [RunsUnlock, pc] using acting

theorem Quiet.rwCounters {before after : SyncSystem} (quiet : Quiet before after)
    (rwlock : Nat) : after.rwCounters rwlock = before.rwCounters rwlock :=
  congrArg (fun words => (words.1, words.2.1)) (quiet.rw rwlock)

@[simp] theorem SyncSystem.rwCounters_setPc (system : SyncSystem) (task : TaskId)
    (pc : Pc) (rwlock : Nat) :
    (system.setPc task pc).rwCounters rwlock = system.rwCounters rwlock := rfl

theorem SyncSystem.rwCounters_modifyRwlock_of_ne (system : SyncSystem)
    {rwlock object : Nat} (different : rwlock ≠ object) (change : Rwlock → Rwlock) :
    (system.modifyRwlock object change).rwCounters rwlock =
      system.rwCounters rwlock := by
  simp [rwCounters, modifyRwlock, Function.update_of_ne different]

/-- Changing only `writer_waiting` keeps the counters. -/
theorem SyncSystem.rwCounters_modifyRwlock {system : SyncSystem} {object : Nat}
    {change : Rwlock → Rwlock}
    (kept : ∀ object, (change object).readers = object.readers ∧
      (change object).writerActive = object.writerActive) (rwlock : Nat) :
    (system.modifyRwlock object change).rwCounters rwlock =
      system.rwCounters rwlock := by
  by_cases same : rwlock = object
  · subst same
    simp [rwCounters, kept]
  · exact system.rwCounters_modifyRwlock_of_ne same change

section Holders

variable {rwlock : Nat} {task : TaskId}

theorem holdersChange_nil : HoldersChange rwlock [] id id := fun _ => ⟨rfl, rfl⟩

/-- Events without a successful lock or unlock of the lock. -/
theorem holdersChange_of_call {call : Call} {result : Int} {events : List Event}
    (other : result = 1 → ∀ mode, RwMode.locks mode rwlock call = false ∧
      RwMode.unlocks mode rwlock call = false)
    (rest : HoldersChange rwlock events id id) :
    HoldersChange rwlock (.returned task call result :: events) id id := by
  intro older
  obtain ⟨readRest, writeRest⟩ := rest older
  rw [List.cons_append, holders_cons, holders_cons, readRest, writeRest]
  by_cases success : result = 1
  · obtain ⟨readLocks, readUnlocks⟩ := other success .read
    obtain ⟨writeLocks, writeUnlocks⟩ := other success .write
    simp [holdersStep, readLocks, readUnlocks, writeLocks, writeUnlocks]
  · simp [holdersStep, success]

/-- Events other than returns hold nothing. -/
theorem holdersChange_of_silent {events : List Event}
    (silent : ∀ task call result, Event.returned task call result ∉ events) :
    HoldersChange rwlock events id id := by
  intro older
  induction events with
  | nil => exact ⟨rfl, rfl⟩
  | cons event rest ih =>
      have restSilent : ∀ task call result, Event.returned task call result ∉ rest :=
        fun task call result isRest =>
          silent task call result (List.mem_cons_of_mem _ isRest)
      obtain ⟨readRest, writeRest⟩ := ih restSilent
      rw [List.cons_append, holders_cons, holders_cons, readRest, writeRest]
      cases event with
      | returned task call result => exact absurd List.mem_cons_self (silent task call result)
      | copiedOut => exact ⟨rfl, rfl⟩
      | handedOff => exact ⟨rfl, rfl⟩

end Holders

/-- The work around the wait loop of a call touches no counters, except for
the acquisition at the end of the two lock calls. -/
theorem waitLoop_rwCounters {task : TaskId} {call : Call} {loop : WaitLoop}
    (found : waitLoop task call = some loop) (system : SyncSystem) (rwlock : Nat) :
    (loop.giveUp system).rwCounters rwlock = system.rwCounters rwlock ∧
    (loop.beforeBlock system).rwCounters rwlock = system.rwCounters rwlock ∧
    ((∀ mode, RwMode.locks mode rwlock call = false) →
      (loop.acquire system).1.rwCounters rwlock = system.rwCounters rwlock) := by
  cases call <;> simp only [waitLoop, Option.some.injEq, reduceCtorEq] at found
    <;> subst found
  case semaphoreTake => exact ⟨rfl, rfl, fun _ => rfl⟩
  case queueSend | queueReceive =>
    refine ⟨rfl, rfl, fun _ => ?_⟩
    exact ((Quiet.modifyQueue _ _ _).trans (.unblockTask _ _)).rwCounters rwlock
  case mutexLock => exact ⟨rfl, (Quiet.mutexPriorityInherit _ _ _).rwCounters rwlock, fun _ => rfl⟩
  case rwlockReadLock object timeout =>
    refine ⟨rfl, rfl, fun other => ?_⟩
    have objectNe : rwlock ≠ object := by
      rintro rfl
      simpa [RwMode.locks] using other .read
    dsimp only
    rw [SyncSystem.rwCounters_modifyRwlock_of_ne _ objectNe]
  case rwlockWriteLock object timeout =>
    refine ⟨?_, rfl, fun other => ?_⟩
    · dsimp only [rwlockStopWaiting]
      rw [SyncSystem.rwCounters_modifyRwlock (by simp)]
    · have objectNe : rwlock ≠ object := by
        rintro rfl
        simpa [RwMode.locks] using other .write
      dsimp only
      rw [SyncSystem.rwCounters_modifyRwlock_of_ne _ objectNe]

theorem unlocks_of_waitLoop {task : TaskId} {call : Call} {loop : WaitLoop}
    (found : waitLoop task call = some loop) (mode : RwMode) (rwlock : Nat) :
    mode.unlocks rwlock call = false := by
  cases call <;> simp only [waitLoop, reduceCtorEq] at found <;>
    cases mode <;> rfl

/-- The loop head of a blocking call, in a system that differs from the one
before the step outside of the counters only. -/
theorem testLoop_rwStep {rwlock : Nat} {before system after : SyncSystem}
    {action : Action} {task : TaskId} {call : Call} {start : Nat}
    {loop : WaitLoop} {events : List Event}
    (found : waitLoop task call = some loop)
    (tested : testLoop system task call start loop = (after, events))
    (counters : system.rwCounters rwlock = before.rwCounters rwlock)
    (granted : ∀ timeout, call = .rwlockReadLock rwlock timeout →
      loop.busy system = false → GrantsRead before action task rwlock) :
    RwStep rwlock before action after events := by
  obtain ⟨giveUp, beforeBlock, acquire⟩ := waitLoop_rwCounters found system rwlock
  rcases testLoop_cases tested with
    ⟨_, _, rfl, rfl⟩ | ⟨_, _, rfl, rfl⟩ | ⟨free, rfl, rfl⟩
  · exact .keep (giveUp.trans counters) (holdersChange_of_call (by simp) holdersChange_nil)
  · refine .keep ?_ holdersChange_nil
    exact (((Quiet.blockTask _ _ _).rwCounters rwlock).trans beforeBlock).trans counters
  · have silent : HoldersChange rwlock (loop.acquire system).2 id id :=
      holdersChange_of_silent fun _ _ _ => waitLoop_returned found system
    by_cases isLock : ∀ mode, RwMode.locks mode rwlock call = false
    · refine .keep ((acquire isLock).trans counters) (holdersChange_of_call ?_ silent)
      exact fun _ mode => ⟨isLock mode, unlocks_of_waitLoop found mode rwlock⟩
    · push Not at isLock
      obtain ⟨mode, locks⟩ := isLock
      cases call <;> cases mode <;> simp only [RwMode.locks, ne_eq, not_true] at locks
      case rwlockReadLock.read object timeout =>
        obtain rfl : object = rwlock := by simpa using locks
        have grant := granted timeout rfl free
        obtain rfl : _ = loop := by simpa [waitLoop] using found
        have readers := congrArg Prod.fst counters
        have active := congrArg Prod.snd counters
        simp only [SyncSystem.rwCounters] at readers active
        refine .readLock task grant ?_ fun older => ⟨?_, rfl⟩
        · simp [SyncSystem.rwCounters, readers, active, grant.2.2.1]
        · simp [holders_cons, holdersStep, RwMode.locks]
      case rwlockWriteLock.write object timeout =>
        obtain rfl : object = rwlock := by simpa using locks
        obtain rfl : _ = loop := by simpa [waitLoop] using found
        replace free : (system.rwlocks object).writerActive = 0 ∧
            (system.rwlocks object).readers = 0 := by simpa using free
        have none : system.rwCounters object = (0, 0) := by
          rw [SyncSystem.rwCounters, free.1, free.2]
        refine .writeLock task (counters ▸ none) ?_ fun older => ⟨rfl, ?_⟩
        · simp [SyncSystem.rwCounters, free.2]
        · simp [holders_cons, holdersStep, RwMode.locks]

theorem rwlockUnblockOneWriter_other (system : SyncSystem) {rwlock object : Nat}
    (different : rwlock ≠ object) :
    (rwlockUnblockOneWriter system object).rwCounters rwlock =
      system.rwCounters rwlock := by
  unfold rwlockUnblockOneWriter
  split
  · rfl
  · dsimp only
    rw [SyncSystem.rwCounters_modifyRwlock_of_ne _ different]
    exact (Quiet.unblockTask _ _).rwCounters rwlock

theorem rwlockUnblockOneWriter_counters (system : SyncSystem) (rwlock : Nat) :
    (rwlockUnblockOneWriter system rwlock).rwCounters rwlock =
      ((system.rwlocks rwlock).readers,
        if (system.rwlocks rwlock).blockedWriters ≠ none then 1
        else (system.rwlocks rwlock).writerActive) := by
  unfold rwlockUnblockOneWriter
  split
  case h_1 empty => simp [SyncSystem.rwCounters, empty]
  case h_2 writer waiting =>
    have readers := congrArg Prod.fst
      ((Quiet.unblockTask system (.writers rwlock)).rwCounters rwlock)
    simp only [SyncSystem.rwCounters] at readers
    simp [SyncSystem.rwCounters, waiting, readers]

theorem rwlockUnblockAllReaders_other {fuel rwlock object : Nat}
    {system after : SyncSystem} (different : rwlock ≠ object)
    (woken : rwlockUnblockAllReaders fuel system object = some after) :
    after.rwCounters rwlock = system.rwCounters rwlock := by
  apply rwlockUnblockAllReaders_keeps _ _ woken
  · intro current kept
    rw [SyncSystem.rwCounters_modifyRwlock_of_ne _ different, ← kept]
    exact (Quiet.unblockTask _ _).rwCounters rwlock
  · rfl

theorem rwlockUnblockAllReaders_none {fuel rwlock : Nat} {system after : SyncSystem}
    (empty : (system.rwlocks rwlock).blockedReaders = none)
    (woken : rwlockUnblockAllReaders fuel system rwlock = some after) :
    after = system := by
  cases fuel with
  | zero => simp [rwlockUnblockAllReaders] at woken
  | succ fuel =>
      rw [rwlockUnblockAllReaders, empty] at woken
      exact (Option.some.inj woken).symm

theorem rwlockUnblockAllReaders_lt {fuel rwlock : Nat} {system after : SyncSystem}
    (bounded : (system.rwlocks rwlock).readers < uint32Size)
    (woken : rwlockUnblockAllReaders fuel system rwlock = some after) :
    (after.rwlocks rwlock).readers < uint32Size := by
  apply rwlockUnblockAllReaders_keeps _ bounded woken
  intro current _
  rw [SyncSystem.rwlocks_modifyRwlock_self]
  exact Nat.mod_lt _ (by simp [uint32Size])

theorem mutexUnlock_rwlocks (system : SyncSystem) (mutex : Nat) (task : TaskId) :
    (mutexUnlock system mutex task).1.rwlocks = system.rwlocks := by
  have released : (mutexRelease (mutexDecrement system mutex) mutex).rwlocks =
      system.rwlocks := by
    unfold mutexRelease mutexPriorityRestore
    split
    · rfl
    · dsimp only
      split <;> rfl
  unfold mutexUnlock
  split
  · rfl
  · dsimp only
    split
    · rfl
    · split
      · exact released
      · exact released

theorem rwlockReadUnlock_other (system : SyncSystem) {rwlock object : Nat}
    (different : rwlock ≠ object) :
    (rwlockReadUnlock system object).rwCounters rwlock = system.rwCounters rwlock := by
  unfold rwlockReadUnlock
  dsimp only
  split
  · rw [rwlockUnblockOneWriter_other _ different,
      SyncSystem.rwCounters_modifyRwlock_of_ne _ different]
  · rw [SyncSystem.rwCounters_modifyRwlock_of_ne _ different]

/-- `rwlock_read_unlock` counts down and, at zero, marks the lock active for a
blocked writer. -/
theorem rwlockReadUnlock_counters (system : SyncSystem) (rwlock : Nat) :
    (rwlockReadUnlock system rwlock).rwCounters rwlock =
      ((system.rwlocks rwlock).lowered,
        if (system.rwlocks rwlock).lowered = 0 ∧
          (system.rwlocks rwlock).blockedWriters ≠ none then 1
        else (system.rwlocks rwlock).writerActive) := by
  unfold rwlockReadUnlock Rwlock.lowered
  dsimp only
  simp only [SyncSystem.rwlocks_modifyRwlock_self]
  split
  case isTrue zero =>
    rw [rwlockUnblockOneWriter_counters]
    simp [zero]
  case isFalse positive => simp [SyncSystem.rwCounters, positive]

theorem rwlockWriteUnlock_other {fuel rwlock object : Nat} {system after : SyncSystem}
    (different : rwlock ≠ object)
    (unlocked : rwlockWriteUnlock fuel system object = some after) :
    after.rwCounters rwlock = system.rwCounters rwlock := by
  unfold rwlockWriteUnlock at unlocked
  dsimp only at unlocked
  split at unlocked
  · obtain rfl := Option.some.inj unlocked
    rw [rwlockUnblockOneWriter_other _ different,
      SyncSystem.rwCounters_modifyRwlock_of_ne _ different]
  · rw [rwlockUnblockAllReaders_other different unlocked,
      SyncSystem.rwCounters_modifyRwlock_of_ne _ different]

/-- `rwlock_write_unlock` with nobody to wake. -/
theorem rwlockWriteUnlock_counters {fuel rwlock : Nat} {system after : SyncSystem}
    (noWriters : (system.rwlocks rwlock).blockedWriters = none)
    (noReaders : (system.rwlocks rwlock).blockedReaders = none)
    (unlocked : rwlockWriteUnlock fuel system rwlock = some after) :
    after.rwCounters rwlock = ((system.rwlocks rwlock).readers, 0) := by
  unfold rwlockWriteUnlock at unlocked
  dsimp only at unlocked
  rw [if_neg (by simp [noWriters])] at unlocked
  rw [rwlockUnblockAllReaders_none (by simp [noReaders]) unlocked]
  simp [SyncSystem.rwCounters]

theorem rwlockWriteUnlock_lt {fuel rwlock : Nat} {system after : SyncSystem}
    (bounded : (system.rwlocks rwlock).readers < uint32Size)
    (unlocked : rwlockWriteUnlock fuel system rwlock = some after) :
    (after.rwlocks rwlock).readers < uint32Size := by
  unfold rwlockWriteUnlock at unlocked
  dsimp only at unlocked
  split at unlocked
  · obtain rfl := Option.some.inj unlocked
    have readers := congrArg Prod.fst (rwlockUnblockOneWriter_counters
      (system.modifyRwlock rwlock fun object => { object with writerActive := 0 }) rwlock)
    simp only [SyncSystem.rwCounters, SyncSystem.rwlocks_modifyRwlock_self] at readers
    rwa [readers]
  · apply rwlockUnblockAllReaders_lt _ unlocked
    simpa using bounded

/-- The first critical section of a call. -/
theorem enterCall_rwStep {rwlock fuel : Nat} {system after : SyncSystem}
    {task : TaskId} {call : Call} {start : Nat} {events : List Event}
    (inside : system.pc task = .entering call start)
    (entered : enterCall fuel system task call start = some (after, events)) :
    RwStep rwlock system (.run task) after events := by
  have looped : ∀ loop, waitLoop task call = some loop →
      testLoop system task call start loop = (after, events) →
      (∀ object timeout, call ≠ .rwlockReadLock object timeout) →
      RwStep rwlock system (.run task) after events := by
    intro loop found tested notRead
    exact testLoop_rwStep found tested rfl fun timeout same =>
      absurd same (notRead rwlock timeout)
  have kept : ∀ {changed : SyncSystem} {result : Int} {others : List Event},
      changed.rwCounters rwlock = system.rwCounters rwlock →
      (∀ mode, RwMode.locks mode rwlock call = false ∧
        RwMode.unlocks mode rwlock call = false) →
      (∀ task call result, Event.returned task call result ∉ others) →
      finish changed task call result others = (after, events) →
      RwStep rwlock system (.run task) after events := by
    intro changed result others same other silent finished
    obtain ⟨rfl, rfl⟩ := Prod.mk.inj finished
    exact .keep same (holdersChange_of_call (fun _ => other) (holdersChange_of_silent silent))
  cases call with
  | semaphoreTake | queueSend | queueReceive =>
      exact looped _ rfl (Option.some.inj entered) (by simp)
  | rwlockReadLock object timeout =>
      apply testLoop_rwStep rfl (Option.some.inj entered) rfl
      intro wait same free
      obtain ⟨rfl, rfl⟩ := Call.rwlockReadLock.inj same
      obtain ⟨inactive, unwanted⟩ : (system.rwlocks object).writerActive = 0 ∧
        (system.rwlocks object).writerWaiting = 0 := by simpa using free
      exact ⟨rfl, ⟨_, _, .inl inside⟩, inactive, unwanted⟩
  | rwlockWriteLock object timeout =>
      apply testLoop_rwStep rfl (Option.some.inj entered) _ (by simp)
      exact SyncSystem.rwCounters_modifyRwlock (by simp) rwlock
  | semaphoreGive sem =>
      refine kept ((Quiet.semaphoreGive _ _).rwCounters rwlock) ?_ (by simp)
        (Option.some.inj entered)
      exact fun mode => by cases mode <;> exact ⟨rfl, rfl⟩
  | queueReset queue =>
      refine kept ((Quiet.modifyQueue _ _ _).rwCounters rwlock) ?_ (by simp)
        (Option.some.inj entered)
      exact fun mode => by cases mode <;> exact ⟨rfl, rfl⟩
  | queueFlush queue =>
      obtain ⟨⟨flushed, changed⟩, flush, finished⟩ := Option.map_eq_some_iff.mp entered
      apply kept ((Quiet.queueFlush flush).rwCounters rwlock) _ (by simp) finished
      exact fun mode => by cases mode <;> exact ⟨rfl, rfl⟩
  | mutexUnlock mutex =>
      refine kept ?_ ?_ (fun _ _ _ => mutexUnlock_returned mutex) (Option.some.inj entered)
      · change (mutexUnlock system mutex task).1.rwCounters rwlock = _
        rw [SyncSystem.rwCounters, mutexUnlock_rwlocks, SyncSystem.rwCounters]
      · exact fun mode => by cases mode <;> exact ⟨rfl, rfl⟩
  | mutexLock mutex timeout =>
      have noRwlock : ∀ mode, RwMode.locks mode rwlock (.mutexLock mutex timeout) = false ∧
          RwMode.unlocks mode rwlock (.mutexLock mutex timeout) = false :=
        fun mode => by cases mode <;> exact ⟨rfl, rfl⟩
      rw [enterCall] at entered
      split at entered
      · apply kept _ noRwlock _ (Option.some.inj entered)
        · rfl
        · simp
      · split at entered
        · apply kept _ noRwlock _ (Option.some.inj entered)
          · rfl
          · simp
        · exact looped _ rfl (Option.some.inj entered) (by simp)
  | rwlockReadUnlock object =>
      by_cases same : rwlock = object
      · subst same
        obtain ⟨rfl, rfl⟩ := Prod.mk.inj (Option.some.inj entered)
        refine .readUnlock task ⟨rfl, start, inside⟩
          (rwlockReadUnlock_counters system rwlock) fun older => ⟨?_, rfl⟩
        simp [holders_cons, holdersStep, RwMode.locks, RwMode.unlocks]
      · apply kept (rwlockReadUnlock_other system same) _ (by simp) (Option.some.inj entered)
        intro mode
        cases mode <;> simp [RwMode.locks, RwMode.unlocks, Ne.symm same]
  | rwlockWriteUnlock object =>
      obtain ⟨changed, unlocked, finished⟩ := Option.map_eq_some_iff.mp entered
      by_cases same : rwlock = object
      · subst same
        obtain ⟨rfl, rfl⟩ := Prod.mk.inj finished
        refine .writeUnlock task ⟨rfl, start, inside⟩ ?_ ?_ fun older => ⟨rfl, ?_⟩
        · intro noWriters noReaders
          rw [SyncSystem.rwCounters_setPc]
          exact rwlockWriteUnlock_counters noWriters noReaders unlocked
        · intro bounded
          rw [SyncSystem.rwlocks_setPc]
          exact rwlockWriteUnlock_lt bounded unlocked
        · simp [holders_cons, holdersStep, RwMode.locks, RwMode.unlocks]
      · apply kept (rwlockWriteUnlock_other same unlocked) _ (by simp) finished
        intro mode
        cases mode <;> simp [RwMode.locks, RwMode.unlocks, Ne.symm same]

/-- Every step of the system is one of the cases of `RwStep`, for every
reader-writer lock. -/
theorem exec_rwStep {fuel : Nat} {before after : SyncSystem} {action : Action}
    {events : List Event}
    (stepped : exec fuel before action = some (after, events)) (rwlock : Nat) :
    RwStep rwlock before action after events := by
  cases exec_cases stepped with
  | refused task call _ _ =>
      exact .keep rfl (holdersChange_of_call (by simp) holdersChange_nil)
  | invoke task call _ _ => exact .keep rfl holdersChange_nil
  | interrupt call =>
      refine .keep ((Quiet.runIsr before call).rwCounters rwlock)
        (holdersChange_of_silent fun _ _ _ => ?_)
      rcases runIsr_events before call with none | ⟨data, delivered⟩
      · simp [none]
      · simp [delivered]
  | tick _ => exact .keep rfl holdersChange_nil
  | run task ran =>
      cases runTask_cases ran with
      | entering call start inside entered =>
        exact (enterCall_rwStep inside entered).congr_before rfl rfl
      | delaying call start _ _ => exact .keep rfl holdersChange_nil
      | sleeping call start _ _ => exact .keep rfl holdersChange_nil
      | @retrying _ _ loop call start inside found tested =>
        refine testLoop_rwStep found tested rfl ?_
        rintro timeout rfl free
        obtain rfl : _ = loop := by simpa [waitLoop] using found
        obtain ⟨inactive, unwanted⟩ :
            ((dispatch before task).rwlocks rwlock).writerActive = 0 ∧
            ((dispatch before task).rwlocks rwlock).writerWaiting = 0 := by
          simpa using free
        exact ⟨rfl, ⟨_, _, .inr inside⟩, inactive, unwanted⟩
      | @expiring removed _ call start _ found removal =>
        refine .keep ?_ (holdersChange_of_call (by simp) holdersChange_nil)
        rw [SyncSystem.rwCounters_setPc, (waitLoop_rwCounters found removed rwlock).1]
        exact (Quiet.removeFromList removal).rwCounters rwlock

end Rtos

end MiniIotRobotEdge

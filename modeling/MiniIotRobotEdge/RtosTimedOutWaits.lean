import MiniIotRobotEdge.CyclicChain
import MiniIotRobotEdge.RtosWaitLists

/-!
# Waits that time out

A call that gives up redirects the first pointer at its task that it meets on its list.
Its task may have been linked in again after every tick, or on another list of the object,
and only the reader-writer locks reset `block_obj`.  This file shows when no trace of the
wait is left, for every state in which a call may give up.
-/

namespace MiniIotRobotEdge

namespace Rtos

open CyclicChain PointerChain

/-- The pointers of a wait list: its head, and the `block_next` of a task. -/
def SyncSystem.pointers (system : SyncSystem) (list : WaitList) :
    Option TaskId → Option TaskId :=
  pointerAt (system.head list) system.link

/-- A wait on a list that leaves no trace of its task on the lists of the object. -/
structure NoTrace (list : WaitList) (task : TaskId) (before after : SyncSystem) : Prop where
  unlisted : ∀ other : WaitList, other.object = list.object →
    ¬Meets (after.pointers other) task
  blockObj : (after.kernel.tcb task).blockObj = none
  waiters : ∀ other : WaitList, other.object = list.object → ∀ waiter, waiter ≠ task →
    (Meets (after.pointers other) waiter ↔ Meets (before.pointers other) waiter)
  order : ∀ other : WaitList, other.object = list.object → ∀ first second, first ≠ task →
    second ≠ task → (Precedes (after.pointers other) first second ↔
      Precedes (before.pointers other) first second)

/-- There is at most one pointer at a task on the lists of an object, and it is on the list
on which the task waits. -/
structure LinkedOnce (system : SyncSystem) (list : WaitList) (task : TaskId) : Prop where
  once : ∀ first second, Reached (system.pointers list) first →
    Reached (system.pointers list) second → system.pointers list first = some task →
      system.pointers list second = some task → first = second
  elsewhere : ∀ other : WaitList, other.object = list.object → other ≠ list → ∀ place,
    Reached (system.pointers other) place → system.pointers other place = some task →
      ∃ node, place = some node ∧ Meets (system.pointers list) node

theorem SameLists.symm {system after : SyncSystem} (same : SameLists system after) :
    SameLists after system :=
  ⟨same.link.symm, same.head.symm⟩

theorem SameLists.pointers {system after : SyncSystem} (same : SameLists system after)
    (list : WaitList) : after.pointers list = system.pointers list := by
  rw [SyncSystem.pointers, SyncSystem.pointers, same.link, same.head]

section Same

variable {before before' after after' : SyncSystem} {list : WaitList} {task : TaskId}

theorem LinkedOnce.of_same (linked : LinkedOnce before list task)
    (same : SameLists before before') : LinkedOnce before' list task := by
  constructor
  · simpa only [same.pointers] using linked.once
  · simpa only [same.pointers] using linked.elsewhere

theorem NoTrace.of_same (noTrace : NoTrace list task before after)
    (sameBefore : SameLists before before') (sameAfter : SameLists after after')
    (sameObject : (after'.kernel.tcb task).blockObj = (after.kernel.tcb task).blockObj) :
    NoTrace list task before' after' := by
  constructor
  · simpa only [sameAfter.pointers] using noTrace.unlisted
  · exact sameObject.trans noTrace.blockObj
  · simpa only [sameBefore.pointers, sameAfter.pointers] using noTrace.waiters
  · simpa only [sameBefore.pointers, sameAfter.pointers] using noTrace.order

end Same

section Removal

variable {fuel : Nat} {system after : SyncSystem} {list other : WaitList} {task : TaskId}
  {found : Option TaskId}

/-- The place at which a task is taken off a list, as a place of some list. -/
def PassedAt (list other : WaitList) (found place : Option TaskId) : Prop :=
  place = found ∧ (found = none → other = list)

theorem bypassTask_pointers {place : Option TaskId} (passed : PassedAt list other found place) :
    (bypassTask system list task found).pointers other place =
      system.pointers other (some task) := by
  obtain ⟨rfl, onList⟩ := passed
  cases place with
  | none =>
      obtain rfl := onList rfl
      simp [bypassTask, SyncSystem.pointers, SyncSystem.head_setHead]
  | some node => simp [bypassTask, SyncSystem.pointers, SyncSystem.link_modifyTask]

theorem bypassTask_pointers_other {place : Option TaskId}
    (notPassed : ¬PassedAt list other found place) :
    (bypassTask system list task found).pointers other place = system.pointers other place := by
  cases found with
  | none =>
      cases place with
      | none =>
          have differs : other ≠ list := fun same => notPassed ⟨rfl, fun _ => same⟩
          simp [bypassTask, SyncSystem.pointers, SyncSystem.head_setHead, differs]
      | some node => simp [bypassTask, SyncSystem.pointers]
  | some previous =>
      cases place with
      | none => simp [bypassTask, SyncSystem.pointers]
      | some node =>
          have differs : node ≠ previous := by
            rintro rfl
            exact notPassed ⟨rfl, by simp⟩
          simp [bypassTask, SyncSystem.pointers, SyncSystem.link_modifyTask, differs]

/-- What a task changes by taking itself off a list, when it was met on it. -/
structure TakenOff (list : WaitList) (task : TaskId) (clearsTask : Bool)
    (found : Option TaskId) (before after : SyncSystem) : Prop where
  reached : Reached (before.pointers list) found
  held : before.pointers list found = some task
  notTask : found ≠ some task
  passed : ∀ other place, place ≠ some task → PassedAt list other found place →
    after.pointers other place = before.pointers other (some task)
  others : ∀ other place, place ≠ some task → ¬PassedAt list other found place →
    after.pointers other place = before.pointers other place
  blockObj : (after.kernel.tcb task).blockObj =
    if clearsTask then none else (before.kernel.tcb task).blockObj

theorem bypassTask_blockObj (place : Option TaskId) (other : TaskId) :
    ((bypassTask system list task place).kernel.tcb other).blockObj =
      (system.kernel.tcb other).blockObj := by
  cases place with
  | none => cases list <;> rfl
  | some previous =>
      by_cases same : other = previous
      · simp [bypassTask, SyncSystem.modifyTask, same]
      · simp [bypassTask, SyncSystem.modifyTask, Kernel.tcb_modify, same]

theorem pointers_modifyTask_other {change : Tcb → Tcb} {place : Option TaskId}
    (differs : place ≠ some task) :
    (system.modifyTask task change).pointers other place = system.pointers other place := by
  cases place with
  | none => simp [SyncSystem.pointers]
  | some node =>
      have nodeNe : node ≠ task := fun same => differs (same ▸ rfl)
      simp [SyncSystem.pointers, SyncSystem.link_modifyTask, nodeNe]

theorem removeFromList_cases {clearsTask : Bool}
    (removed : removeFromList fuel system list task clearsTask = some after) :
    (system = after ∧ ¬Meets (system.pointers list) task) ∨
      ∃ found, TakenOff list task clearsTask found system after := by
  unfold removeFromList at removed
  split at removed
  · simp at removed
  · rename_i searched
    obtain rfl := Option.some.inj removed
    rcases search_place (system.head list) (Option.some_ne_none task).symm searched with
      ⟨_, nowhere⟩ | ⟨found, isSome, _⟩
    · refine .inl ⟨rfl, fun meets => ?_⟩
      obtain ⟨place, reached, held⟩ := meets.exists_place
      exact nowhere place reached held
    · simp at isSome
  · rename_i found searched
    obtain rfl := Option.some.inj removed
    rcases search_place (system.head list) (Option.some_ne_none task).symm searched with
      ⟨isNone, _⟩ | ⟨place, isFound, notTask, reached, held⟩
    · simp at isNone
    · obtain rfl := Option.some.inj isFound
      refine .inr ⟨found, reached, held, notTask, ?_, ?_, ?_⟩
      · intro other place differs passed
        cases clearsTask with
        | false => exact bypassTask_pointers passed
        | true => exact (pointers_modifyTask_other differs).trans (bypassTask_pointers passed)
      · intro other place differs notPassed
        cases clearsTask with
        | false => exact bypassTask_pointers_other notPassed
        | true =>
            exact (pointers_modifyTask_other differs).trans (bypassTask_pointers_other notPassed)
      · cases clearsTask with
        | false => exact bypassTask_blockObj found task
        | true => simp [SyncSystem.modifyTask]

namespace TakenOff

variable {clearsTask : Bool}

theorem unhooks (taken : TakenOff list task clearsTask found system after)
    (other : WaitList) : Unhooks (system.pointers other) (after.pointers other) task := by
  intro place differs
  by_cases passed : PassedAt list other found place
  · refine .inr ⟨?_, taken.passed other place differs passed⟩
    obtain ⟨rfl, onList⟩ := passed
    cases place with
    | none =>
        obtain rfl := onList rfl
        exact taken.held
    | some node => exact taken.held
  · exact .inl (taken.others other place differs passed)

/-- The task has left a list exactly if every pointer at it was the one redirected. -/
theorem not_meets_iff (taken : TakenOff list task clearsTask found system after)
    (other : WaitList) : ¬Meets (after.pointers other) task ↔
      ∀ place, Reached (system.pointers other) place →
        system.pointers other place = some task → PassedAt list other found place := by
  rw [(taken.unhooks other).not_meets_iff]
  constructor
  · intro passedEverywhere place reached held
    obtain ⟨differs, passed⟩ := passedEverywhere place reached held
    by_contra notPassed
    rw [taken.others other place differs notPassed, held] at passed
    exact (passedEverywhere (some task) (reached.meets held) passed.symm).1 rfl
  · intro passed place reached held
    have here := passed place reached held
    have differs : place ≠ some task := here.1 ▸ taken.notTask
    exact ⟨differs, taken.passed other place differs here⟩

theorem unlisted_iff (taken : TakenOff list task clearsTask found system after) :
    (∀ other : WaitList, other.object = list.object → ¬Meets (after.pointers other) task) ↔
      LinkedOnce system list task := by
  constructor
  · intro unlisted
    refine ⟨fun first second firstReached secondReached firstHolds secondHolds => ?_,
      fun other sameObject differs place reached held => ?_⟩
    · have passed := (taken.not_meets_iff list).mp (unlisted list rfl)
      exact (passed first firstReached firstHolds).1.trans
        (passed second secondReached secondHolds).1.symm
    · obtain ⟨rfl, onList⟩ :=
        (taken.not_meets_iff other).mp (unlisted other sameObject) place reached held
      cases place with
      | none => exact absurd (onList rfl) differs
      | some node => exact ⟨node, rfl, taken.reached⟩
  · intro linked other sameObject
    apply (taken.not_meets_iff other).mpr
    intro place reached held
    by_cases same : other = list
    · obtain rfl := same
      exact ⟨linked.once place found reached taken.reached held taken.held, fun _ => rfl⟩
    · obtain ⟨node, rfl, meets⟩ := linked.elsewhere other sameObject same place reached held
      exact ⟨linked.once (some node) found meets taken.reached held taken.held, by
        rintro rfl
        exact absurd (linked.once (some node) none meets taken.reached held taken.held) (by simp)⟩

end TakenOff

/-- Where the task is not met on its list, it has to be on no list of the object. -/
theorem linkedOnce_iff_of_not_meets (unmet : ¬Meets (system.pointers list) task) :
    LinkedOnce system list task ↔
      ∀ other : WaitList, other.object = list.object → ¬Meets (system.pointers other) task := by
  constructor
  · intro linked other sameObject meets
    obtain ⟨place, reached, held⟩ := meets.exists_place
    by_cases same : other = list
    · exact unmet (same ▸ meets)
    · obtain ⟨node, rfl, onList⟩ := linked.elsewhere other sameObject same place reached held
      exact unmet (Reached.meets onList held)
  · intro unlisted
    exact ⟨fun _ _ reached _ held => absurd (reached.meets held) unmet,
      fun other sameObject _ _ reached held =>
        absurd (reached.meets held) (unlisted other sameObject)⟩

/-- The removal leaves no trace exactly under these conditions on the state before it. -/
theorem removeFromList_noTrace_iff {clearsTask : Bool}
    (removed : removeFromList fuel system list task clearsTask = some after) :
    NoTrace list task system after ↔ LinkedOnce system list task ∧
      ((system.kernel.tcb task).blockObj = none ∨
        clearsTask = true ∧ Meets (system.pointers list) task) := by
  rcases removeFromList_cases removed with ⟨rfl, unmet⟩ | ⟨found, taken⟩
  · rw [linkedOnce_iff_of_not_meets unmet]
    constructor
    · exact fun noTrace => ⟨noTrace.unlisted, .inl noTrace.blockObj⟩
    · rintro ⟨unlisted, noObject | ⟨_, meets⟩⟩
      · exact ⟨unlisted, noObject, fun _ _ _ _ => .rfl, fun _ _ _ _ _ _ => .rfl⟩
      · exact absurd meets unmet
  · have meets : Meets (system.pointers list) task := taken.reached.meets taken.held
    have cleared : (after.kernel.tcb task).blockObj = none ↔
        (system.kernel.tcb task).blockObj = none ∨
          clearsTask = true ∧ Meets (system.pointers list) task := by
      rw [taken.blockObj]
      cases clearsTask <;> simp [meets]
    rw [← taken.unlisted_iff, ← cleared]
    constructor
    · exact fun noTrace => ⟨noTrace.unlisted, noTrace.blockObj⟩
    · rintro ⟨unlisted, noObject⟩
      refine ⟨unlisted, noObject, fun other sameObject waiter differs => ?_,
        fun other sameObject first second firstNe secondNe => ?_⟩
      · exact (taken.unhooks other).meets_iff (unlisted other sameObject) differs
      · exact (taken.unhooks other).precedes_iff (unlisted other sameObject) firstNe secondNe

end Removal

section Returned

variable {fuel start : Nat} {system before after : SyncSystem} {task : TaskId} {call : Call}
  {result : Int} {events : List Event}

/-- The loop head returns 0 or 1. -/
theorem testLoop_result {loop : WaitLoop} (found : waitLoop task call = some loop)
    (tested : testLoop system task call start loop = (after, events))
    (returned : Event.returned task call result ∈ events) : result = 0 ∨ result = 1 := by
  rcases testLoop_cases tested with
    ⟨_, _, rfl, rfl⟩ | ⟨_, _, rfl, rfl⟩ | ⟨_, rfl, rfl⟩
  · exact .inl (by simpa using returned)
  · simp at returned
  · rcases List.mem_cons.mp returned with isFirst | isLater
    · exact .inr (by simpa using isFirst)
    · exact absurd isLater (waitLoop_returned found system)

theorem mutexUnlock_result (system : SyncSystem) (mutex : Nat) (task : TaskId) :
    -1 ≤ (mutexUnlock system mutex task).2.1 := by
  unfold mutexUnlock
  split
  · simp
  · dsimp only
    split
    · simp
    · split <;> simp

/-- The first section of a call does not return -2. -/
theorem enterCall_result (entered : enterCall fuel system task call start = some (after, events))
    (returned : Event.returned task call result ∈ events) : -1 ≤ result := by
  have loops : ∀ {loop : WaitLoop} {changed : SyncSystem}, waitLoop task call = some loop →
      testLoop changed task call start loop = (after, events) → -1 ≤ result := by
    intro loop changed found tested
    rcases testLoop_result found tested returned with rfl | rfl <;> decide
  have left : ∀ {changed : SyncSystem} {outcome : Int} {others : List Event},
      finish changed task call outcome others = (after, events) →
      Event.returned task call result ∉ others → -1 ≤ outcome → -1 ≤ result := by
    intro changed outcome others finished fresh bound
    obtain ⟨_, rfl⟩ := Prod.mk.inj finished
    rcases List.mem_cons.mp returned with isFirst | isLater
    · obtain rfl : result = outcome := by simpa using isFirst
      exact bound
    · exact absurd isLater fresh
  cases call with
  | semaphoreTake | queueSend | queueReceive | rwlockReadLock | rwlockWriteLock =>
      exact loops rfl (Option.some.inj entered)
  | semaphoreGive | queueReset | rwlockReadUnlock =>
      exact left (Option.some.inj entered) (by simp) (by decide)
  | queueFlush =>
      obtain ⟨_, _, finished⟩ := Option.map_eq_some_iff.mp entered
      exact left finished (by simp) (by omega)
  | rwlockWriteUnlock =>
      obtain ⟨_, _, finished⟩ := Option.map_eq_some_iff.mp entered
      exact left finished (by simp) (by decide)
  | mutexUnlock mutex =>
      exact left (Option.some.inj entered) (mutexUnlock_returned _) (mutexUnlock_result _ _ _)
  | mutexLock mutex timeout =>
      rw [enterCall] at entered
      split at entered
      · exact left (Option.some.inj entered) (by simp) (by decide)
      · split at entered
        · exact left (Option.some.inj entered) (by simp) (by decide)
        · exact loops rfl (Option.some.inj entered)

/-- Only a call that gives up after its timeout returns -2. -/
theorem exec_timedOut {action : Action}
    (stepped : exec fuel before action = some (after, events))
    (returned : Event.returned task call (-2) ∈ events) :
    ∃ loop removed, waitLoop task call = some loop ∧
      removeFromList fuel (dispatch before task) loop.list task loop.clearsTask = some removed ∧
      after = (loop.giveUp removed).setPc task .idle := by
  rcases exec_returned stepped returned with ⟨rfl, inside⟩ | ⟨_, _, impossible⟩
  · cases runTask_cases stepped with
    | entering pending _ isPc entered =>
      rw [pc_dispatch] at isPc
      obtain rfl : pending = call := by simpa [isPc, Pc.pending] using inside
      exact absurd (enterCall_result entered returned) (by decide)
    | delaying => simp at returned
    | sleeping => simp at returned
    | retrying pending _ isPc found tested =>
      rw [pc_dispatch] at isPc
      obtain rfl : pending = call := by simpa [isPc, Pc.pending] using inside
      rcases testLoop_result found tested returned with isResult | isResult <;>
        exact absurd isResult (by decide)
    | expiring pending _ isPc found removal =>
      rw [pc_dispatch] at isPc
      obtain rfl : pending = call := by simpa [isPc, Pc.pending] using inside
      exact ⟨_, _, found, removal, rfl⟩
  · simp at impossible

theorem waitLoop_giveUp {loop : WaitLoop} (found : waitLoop task call = some loop)
    (system : SyncSystem) :
    SameLists system (loop.giveUp system) ∧ (loop.giveUp system).kernel = system.kernel := by
  cases call <;> simp only [waitLoop, Option.some.injEq, reduceCtorEq] at found <;> subst found
  case rwlockWriteLock =>
    refine ⟨?_, rfl⟩
    dsimp only [rwlockStopWaiting]
    exact .modifyRwlock _ fun _ => ⟨rfl, rfl⟩
  all_goals exact ⟨.refl _, rfl⟩

/-- A call that has timed out leaves no trace exactly if there is one pointer at its task at
most, and `block_obj` has been reset by whoever took the task off the list, or is reset now. -/
theorem timedOut_noTrace_iff {action : Action} {loop : WaitLoop}
    (stepped : exec fuel before action = some (after, events))
    (returned : Event.returned task call (-2) ∈ events)
    (found : waitLoop task call = some loop) :
    NoTrace loop.list task before after ↔ LinkedOnce before loop.list task ∧
      ((before.kernel.tcb task).blockObj = none ∨
        loop.clearsTask = true ∧ Meets (before.pointers loop.list) task) := by
  obtain ⟨other, removed, isLoop, removal, rfl⟩ := exec_timedOut stepped returned
  obtain rfl : loop = other := Option.some.inj (found.symm.trans isLoop)
  obtain ⟨sameLists, sameKernel⟩ := waitLoop_giveUp found removed
  have dispatched := SameLists.dispatch before task
  have left := sameLists.trans (.setPc (loop.giveUp removed) task .idle)
  have sameObject : (((loop.giveUp removed).setPc task .idle).kernel.tcb task).blockObj =
      (removed.kernel.tcb task).blockObj := by
    rw [SyncSystem.setPc, sameKernel]
  have exact := removeFromList_noTrace_iff removal
  rw [dispatched.pointers] at exact
  constructor
  · intro noTrace
    obtain ⟨linked, cleared⟩ :=
      exact.mp (noTrace.of_same dispatched left.symm sameObject.symm)
    exact ⟨linked.of_same dispatched.symm, cleared⟩
  · rintro ⟨linked, cleared⟩
    have noTrace := exact.mpr ⟨linked.of_same dispatched, cleared⟩
    exact noTrace.of_same dispatched.symm left sameObject

/-- On a finite list it is enough that the task is on no other list of the object. -/
theorem LinkedOnce.of_path {list : WaitList} {nodes : List TaskId}
    (path : Path system.link (system.head list) nodes)
    (elsewhere : ∀ other : WaitList, other.object = list.object → other ≠ list →
      ¬Meets (system.pointers other) task) : LinkedOnce system list task where
  once _ _ firstReached secondReached firstHolds secondHolds :=
    place_unique none path firstReached secondReached firstHolds secondHolds
  elsewhere other sameObject differs _ reached held :=
    absurd (reached.meets held) (elsewhere other sameObject differs)

end Returned

/-- In a run in which tasks only block on lists that they are not on, there is one pointer at a
task at most unless it is on another list of the object. -/
theorem linkedOnce_of_blocksOffList {initial : SyncSystem} (start : initial.Initial)
    {current : Traced} (run : Traced.Reachable BlocksOffList initial current) {list : WaitList}
    {task : TaskId} (elsewhere : ∀ other : WaitList, other.object = list.object → other ≠ list →
      ¬Meets (current.system.pointers other) task) : LinkedOnce current.system list task := by
  obtain ⟨nodes, path⟩ := finiteLists_of_reachable start run list
  exact .of_path path elsewhere

/-- A reader that waits for one tick. -/
theorem timedOut_noTrace_iff_reader :
    ∃ current, Traced.Reachable Traced.AnyStep twoTasks current ∧ ∃ after events,
      exec 4 current.system (.run 2) = some (after, events) ∧
      Event.returned 2 (.rwlockReadLock 0 1) (-2) ∈ events ∧
      NoTrace (.readers 0) 2 current.system after := by
  obtain ⟨current, run, isHead, isLast, noWriter, timedOut⟩ :=
    Traced.exists_anyStep 4
      [.invoke 3 (.rwlockWriteLock 0 9), .run 3, .invoke 2 (.rwlockReadLock 0 1), .run 2, .run 2,
        .tick, .run 2]
      twoTasks
      (fun current => current.system.head (.readers 0) = some 2 ∧
        current.system.link 2 = none ∧ current.system.head (.writers 0) = none ∧
        ((exec 4 current.system (.run 2)).map Prod.snd) =
          some [.returned 2 (.rwlockReadLock 0 1) (-2)])
      (by decide +kernel)
  obtain ⟨⟨after, events⟩, stepped, isEvents⟩ := Option.map_eq_some_iff.mp timedOut
  obtain rfl : events = [.returned 2 (.rwlockReadLock 0 1) (-2)] := isEvents
  have path : Path current.system.link (current.system.head (.readers 0)) [2] := by
    rw [isHead]
    refine .node ?_
    rw [isLast]
    exact .null
  have linked : LinkedOnce current.system (.readers 0) 2 := by
    refine .of_path path fun other sameObject differs meets => ?_
    obtain rfl : other = .writers 0 := by
      cases other <;> simp_all [WaitList.object]
    obtain ⟨place, reached, held⟩ := meets.exists_place
    have empty : Path current.system.link (current.system.head (.writers 0)) [] := by
      rw [noWriter]
      exact .null
    exact absurd (mem_of_walk none empty reached held) List.not_mem_nil
  refine ⟨current, run, after, _, stepped, by simp, ?_⟩
  refine (timedOut_noTrace_iff stepped (List.mem_singleton_self _) rfl).mpr
    ⟨linked, .inr ⟨rfl, ?_⟩⟩
  exact .single (follows_some isHead)

/-- A task that waits for two ticks is linked in twice and taken off once. -/
theorem timedOut_leaves_trace :
    ¬∀ current, Traced.Reachable Traced.AnyStep twoTasks current →
      ∀ task call loop after events, waitLoop task call = some loop →
        exec 4 current.system (.run task) = some (after, events) →
        Event.returned task call (-2) ∈ events → NoTrace loop.list task current.system after := by
  intro noTrace
  obtain ⟨current, run, timedOut⟩ :=
    Traced.exists_anyStep 4
      [.invoke 2 (.semaphoreTake 0 2), .run 2, .run 2, .tick, .run 2, .run 2, .run 2, .tick, .run 2]
      twoTasks
      (fun current => ((exec 4 current.system (.run 2)).map fun step =>
        (step.1.head (.semaphore 0), step.2)) =
          some (some 2, [.returned 2 (.semaphoreTake 0 2) (-2)]))
      (by decide +kernel)
  obtain ⟨⟨after, events⟩, stepped, isAfter⟩ := Option.map_eq_some_iff.mp timedOut
  obtain ⟨isHead, rfl⟩ : after.head (.semaphore 0) = some 2 ∧
      events = [.returned 2 (.semaphoreTake 0 2) (-2)] := Prod.mk.inj isAfter
  have left := noTrace current run 2 (.semaphoreTake 0 2) _ after _ rfl stepped
    (List.mem_singleton_self _)
  exact left.unlisted (.semaphore 0) rfl (.single (follows_some isHead))

end Rtos

end MiniIotRobotEdge

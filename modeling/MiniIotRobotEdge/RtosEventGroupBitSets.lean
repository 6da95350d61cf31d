import MiniIotRobotEdge.RtosEventGroupLists

/-!
# Bit sets of the mini-rtos event groups

`unblock_all_ready` starts over at the head of the list after every task that
it takes out.  What one removal does is enough to say what the whole loop does:
the condition of no other waiter changes, so that the waiters taken out are
those whose condition held before the loop, and the order of the others is that
of the list.
-/

namespace MiniIotRobotEdge

namespace Rtos

open PointerChain

section Release

variable {system after : EventSystem} {group fuel : Nat} {waiters : List TaskId} {task : TaskId}

/-- The state fields of a task that a bit set changes only when it releases the
task. -/
def SameWait (before after : EventSystem) (task : TaskId) : Prop :=
  (after.kernel.tcb task).state = (before.kernel.tcb task).state ∧
    (after.kernel.tcb task).blockObj = (before.kernel.tcb task).blockObj ∧
    waitInfo after task = waitInfo before task

/-- A task that no longer waits. -/
def WaitEnded (system : EventSystem) (task : TaskId) : Prop :=
  (system.kernel.tcb task).state = .ready ∧ (system.kernel.tcb task).blockObj = none ∧
    (system.kernel.tcb task).blockNext = none

/-- What a removal, or several of them, keep. -/
structure GroupKept (group : Nat) (waiters : List TaskId) (before after : EventSystem) : Prop where
  bits : ∀ other, after.bits other = before.bits other
  heads : ∀ other, other ≠ group →
    (after.groups other).blockedTasks = (before.groups other).blockedTasks
  outside : ∀ other, other ∉ waiters → after.kernel.tcb other = before.kernel.tcb other
  pc : after.pc = before.pc

theorem GroupKept.trans {middle : EventSystem} {others : List TaskId}
    (first : GroupKept group waiters system middle) (second : GroupKept group others middle after)
    (within : ∀ other ∈ others, other ∈ waiters) : GroupKept group waiters system after where
  bits other := (second.bits other).trans (first.bits other)
  heads other differs := (second.heads other differs).trans (first.heads other differs)
  outside other notOn :=
    (second.outside other fun onList => notOn (within other onList)).trans
      (first.outside other notOn)
  pc := second.pc.trans first.pc

theorem SameWait.trans {middle : EventSystem} (first : SameWait system middle task)
    (second : SameWait middle after task) : SameWait system after task :=
  ⟨second.1.trans first.1, second.2.1.trans first.2.1, second.2.2.trans first.2.2⟩

theorem waitSatisfied_congr (bits : after.bits group = system.bits group)
    (info : waitInfo after task = waitInfo system task) :
    waitSatisfied after group task = waitSatisfied system group task := by
  rw [waitSatisfied, waitSatisfied, bits, info]

/-- What `unblock_first_ready` does to a task that it finds. -/
def releaseTcb (tcb : Tcb) : Tcb :=
  { tcb with blockNext := none, state := .ready, blockObj := none }

theorem bypassWaiter_tcb {previous : Option TaskId} {other : TaskId}
    (notPrevious : ∀ node ∈ previous, other ≠ node) :
    (bypassWaiter system group task previous).kernel.tcb other = system.kernel.tcb other := by
  cases previous with
  | none => rfl
  | some node =>
      change ((system.modifyTask node _).kernel.tcb other) = _
      rw [EventSystem.tcb_modifyTask, if_neg (notPrevious node rfl)]

theorem bypassWaiter_state {previous : Option TaskId} {other : TaskId} :
    ((bypassWaiter system group task previous).kernel.tcb other).state =
      (system.kernel.tcb other).state := by
  cases previous with
  | none => rfl
  | some node =>
      change ((system.kernel.modify node fun tcb =>
        { tcb with blockNext := system.link task }).tcb other).state = _
      exact Kernel.field_modify Tcb.state _ _ (by simp) other

theorem unlinkWaiter_released {previous : Option TaskId} :
    WaitEnded (unlinkWaiter system group task previous releaseTcb) task := by
  unfold unlinkWaiter WaitEnded
  rw [EventSystem.tcb_modifyTask, if_pos rfl]
  exact ⟨rfl, rfl, rfl⟩

theorem unlinkWaiter_sameWait {previous : Option TaskId} {other : TaskId} (differs : other ≠ task) :
    SameWait system (unlinkWaiter system group task previous releaseTcb) other := by
  have sameObj : ((unlinkWaiter system group task previous releaseTcb).kernel.tcb other).blockObj =
      (system.kernel.tcb other).blockObj :=
    unlinkWaiter_blockObj differs
  refine ⟨?_, sameObj, ?_⟩
  · unfold unlinkWaiter
    rw [EventSystem.tcb_modifyTask, if_neg differs]
    exact bypassWaiter_state
  · rw [waitInfo, waitInfo, sameObj, unlinkWaiter_pc]

theorem unlinkWaiter_kept {previous : Option TaskId} {test : TaskId → Bool}
    (path : Path system.link (system.groups group).blockedTasks waiters)
    (found : find system.link test fuel none (system.groups group).blockedTasks =
      some (some (previous, task))) :
    GroupKept group waiters system (unlinkWaiter system group task previous releaseTcb) where
  bits _ := unlinkWaiter_bits _
  heads other differs := by
    cases previous with
    | none =>
        change ((system.modifyGroup group fun object =>
          { object with blockedTasks := system.link task }).groups other).blockedTasks = _
        rw [EventSystem.groups_modifyGroup, if_neg differs]
    | some node => rfl
  outside other notOn := by
    have isMember := find_mem path found
    have differs : other ≠ task := fun same => notOn (same ▸ isMember)
    unfold unlinkWaiter
    rw [EventSystem.tcb_modifyTask, if_neg differs]
    refine bypassWaiter_tcb fun node isPrevious same => notOn ?_
    obtain ⟨_, ⟨isNone, _⟩ | ⟨before, front, rest, isBefore, split⟩⟩ := find_found path found
    · simp [isNone] at isPrevious
    · obtain rfl : before = node := by simpa [isBefore] using isPrevious
      simp [same, split]
  pc := unlinkWaiter_pc

/-- One turn of the loop: no waiter is satisfied, or one of them is released
and taken off the list. -/
theorem unblockFirstReady_effect
    (path : Path system.link (system.groups group).blockedTasks waiters)
    (enough : waiters.length < fuel) :
    (unblockFirstReady fuel system group = some (none, system) ∧
        ∀ task ∈ waiters, waitSatisfied system group task = false) ∨
      ∃ task after, unblockFirstReady fuel system group = some (some task, after) ∧
        task ∈ waiters ∧ waitSatisfied system group task = true ∧
        Path after.link (after.groups group).blockedTasks (waiters.erase task) ∧
        GroupKept group waiters system after ∧ WaitEnded after task ∧
        ∀ other, other ≠ task → SameWait system after other := by
  obtain ⟨outcome, walked⟩ := find_total path none enough
  rw [unblockFirstReady, walked]
  cases outcome with
  | none => exact .inl ⟨rfl, find_missing path walked⟩
  | some found =>
      obtain ⟨previous, task⟩ := found
      refine .inr ⟨task, unlinkWaiter system group task previous releaseTcb, rfl,
        find_mem path walked, (find_found path walked).1, ?_, ?_, ?_, ?_⟩
      · exact unlinkWaiter_path_erase path walked fun _ => rfl
      · exact unlinkWaiter_kept path walked
      · exact unlinkWaiter_released
      · exact fun other differs => unlinkWaiter_sameWait differs

/-- What a bit set leaves of a list of waiters. -/
structure BitSetEffect (group : Nat) (waiters : List TaskId) (before after : EventSystem) :
    Prop where
  path : Path after.link (after.groups group).blockedTasks
    (waiters.filter fun task => !waitSatisfied before group task)
  kept : GroupKept group waiters before after
  released : ∀ task ∈ waiters, waitSatisfied before group task = true → WaitEnded after task
  waiting : ∀ task ∈ waiters, waitSatisfied before group task = false →
    SameWait before after task

/-- The whole loop releases the waiters whose condition holds and leaves the
others in order. -/
theorem unblockAllReady_effect
    (path : Path system.link (system.groups group).blockedTasks waiters)
    (enough : waiters.length + 1 < fuel) :
    ∃ after events, unblockAllReady fuel system group = some (after, events) ∧
      BitSetEffect group waiters system after := by
  -- The list gets shorter with every turn, and the waiters on it keep their conditions.
  induction fuel generalizing system waiters with
  | zero => simp at enough
  | succ fuel ih =>
      have distinct := path.nodup
      rw [unblockAllReady]
      obtain ⟨stops, unsatisfied⟩ | ⟨task, next, found, isMember, satisfied, shorter, kept,
        released, others⟩ := unblockFirstReady_effect path (by omega : waiters.length < fuel)
      · refine ⟨system, [], by rw [stops], ?_, ?_, ?_, ?_⟩
        · rwa [List.filter_eq_self.mpr fun task isMember => by simp [unsatisfied task isMember]]
        · exact ⟨fun _ => rfl, fun _ _ => rfl, fun _ _ => rfl, rfl⟩
        · intro task isMember satisfied
          simp [unsatisfied task isMember] at satisfied
        · exact fun task _ _ => ⟨rfl, rfl, rfl⟩
      · have length := List.length_erase_of_mem isMember
        have nonempty := List.length_pos_of_mem isMember
        obtain ⟨after, events, woke, effect⟩ := ih shorter (by omega)
        have sameTest : ∀ other, other ≠ task →
            waitSatisfied next group other = waitSatisfied system group other :=
          fun other differs => waitSatisfied_congr (kept.bits group) (others other differs).2.2
        have notOn : task ∉ waiters.erase task := distinct.not_mem_erase
        have onShorter : ∀ other ∈ waiters, other ≠ task → other ∈ waiters.erase task :=
          fun other onList differs => (List.mem_erase_of_ne differs).mpr onList
        refine ⟨after, events ++ [.unblocked task], ?_, ?_, ?_, ?_, ?_⟩
        · rw [found]
          dsimp only
          rw [woke]
          rfl
        · have sameFilter :
              (waiters.erase task).filter (fun other => !waitSatisfied next group other) =
                waiters.filter fun other => !waitSatisfied system group other := by
            rw [distinct.erase_eq_filter, List.filter_filter]
            apply List.filter_congr
            intro other _
            by_cases same : other = task
            · simp [same, satisfied]
            · simp [same, sameTest other same]
          rw [← sameFilter]
          exact effect.path
        · exact kept.trans effect.kept fun other => List.mem_of_mem_erase
        · intro other onList otherSatisfied
          by_cases same : other = task
          · obtain rfl := same
            unfold WaitEnded
            rw [effect.kept.outside other notOn]
            exact released
          · apply effect.released other (onShorter other onList same)
            rwa [sameTest other same]
        · intro other onList unsatisfied
          have differs : other ≠ task := by
            rintro rfl
            simp [satisfied] at unsatisfied
          apply (others other differs).trans
          apply effect.waiting other (onShorter other onList differs)
          rwa [sameTest other differs]

end Release

/-- The tasks on the list of a group, each with the wait it left in its wait
information. -/
structure GroupWaiters (system : EventSystem) (group : Nat) (waiters : List TaskId)
    (waitOf : TaskId → EventWait) : Prop where
  path : Path system.link (system.groups group).blockedTasks waiters
  info : ∀ task ∈ waiters, waitInfo system task = some (waitOf task)

namespace GroupWaiters

variable {system : EventSystem} {group : Nat} {waiters : List TaskId} {waitOf : TaskId → EventWait}

theorem satisfied_iff (waits : GroupWaiters system group waiters waitOf) {task : TaskId}
    (onList : task ∈ waiters) :
    waitSatisfied system group task =
      eventConditionMet (system.bits group) (waitOf task).waitBits (waitOf task).waitType := by
  rw [waitSatisfied, waits.info task onList]

theorem setBits (waits : GroupWaiters system group waiters waitOf) (bits : EventBits) :
    GroupWaiters (system.setBits group bits) group waiters waitOf where
  path := by
    rw [EventSystem.blockedTasks_setBits]
    exact waits.path
  info := waits.info

end GroupWaiters

/-- Whether the wait of a task is met by the bits. -/
def metBy (waitOf : TaskId → EventWait) (bits : EventBits) (task : TaskId) : Bool :=
  eventConditionMet bits (waitOf task).waitBits (waitOf task).waitType

/-- What a bit set does to the waiters, in terms of the test of
`unblock_first_ready`. -/
theorem eventGroupSetBits_effect {system : EventSystem} {group fuel : Nat} {waiters : List TaskId}
    (path : Path system.link (system.groups group).blockedTasks waiters)
    (enough : waiters.length + 1 < fuel) (bitsToSet : EventBits) :
    ∃ after events, eventGroupSetBits fuel system group bitsToSet = some (after, events) ∧
      BitSetEffect group waiters (system.setBits group (system.bits group ||| bitsToSet))
        after := by
  rw [eventGroupSetBits]
  have pathNow : Path (system.setBits group (system.bits group ||| bitsToSet)).link
      ((system.setBits group (system.bits group ||| bitsToSet)).groups group).blockedTasks
      waiters := by
    rw [EventSystem.blockedTasks_setBits]
    exact path
  generalize system.setBits group (system.bits group ||| bitsToSet) = added at pathNow
  split
  case isTrue isNone =>
    obtain rfl : waiters = [] := pathNow.unique (isNone ▸ .null)
    refine ⟨added, [], rfl, pathNow, ?_, by simp, by simp⟩
    exact ⟨fun _ => rfl, fun _ _ => rfl, fun _ _ => rfl, rfl⟩
  case isFalse => exact unblockAllReady_effect pathNow enough

/-- A bit set terminates, adds its bits, and releases the waiters whose
condition the new bits meet; the others stay as they are, in their order. -/
theorem eventGroupSetBits_exact {system : EventSystem} {group fuel : Nat} {waiters : List TaskId}
    {waitOf : TaskId → EventWait} (waits : GroupWaiters system group waiters waitOf)
    (enough : waiters.length + 1 < fuel) (bitsToSet : EventBits) :
    ∃ after events, eventGroupSetBits fuel system group bitsToSet = some (after, events) ∧
      after.bits group = system.bits group ||| bitsToSet ∧
      GroupWaiters after group
        (waiters.filter fun task => !metBy waitOf (after.bits group) task) waitOf ∧
      (∀ task ∈ waiters, metBy waitOf (after.bits group) task = true → WaitEnded after task) ∧
      (∀ task ∈ waiters, metBy waitOf (after.bits group) task = false →
        SameWait system after task) ∧
      GroupKept group waiters (system.setBits group (system.bits group ||| bitsToSet)) after := by
  obtain ⟨after, events, done, effect⟩ := eventGroupSetBits_effect waits.path enough bitsToSet
  have waitsNow := waits.setBits (system.bits group ||| bitsToSet)
  have newBits : after.bits group = system.bits group ||| bitsToSet := by
    rw [effect.kept.bits, EventSystem.bits_setBits, if_pos rfl]
  have satisfied : ∀ task ∈ waiters,
      waitSatisfied (system.setBits group (system.bits group ||| bitsToSet)) group task =
        metBy waitOf (after.bits group) task := by
    intro task onList
    rw [waitsNow.satisfied_iff onList, ← effect.kept.bits]
    rfl
  have sameFilter : (waiters.filter fun task =>
      !waitSatisfied (system.setBits group (system.bits group ||| bitsToSet)) group task) =
        waiters.filter fun task => !metBy waitOf (after.bits group) task :=
    List.filter_congr fun task onList => by rw [satisfied task onList]
  refine ⟨after, events, done, newBits, ⟨?_, ?_⟩, ?_, ?_, effect.kept⟩
  · rw [← sameFilter]
    exact effect.path
  · intro task isLeft
    obtain ⟨onList, unmet⟩ := List.mem_filter.mp isLeft
    rw [← satisfied task onList] at unmet
    rw [(effect.waiting task onList (by simpa using unmet)).2.2]
    exact waitsNow.info task onList
  · exact fun task onList met => effect.released task onList ((satisfied task onList).trans met)
  · exact fun task onList unmet => effect.waiting task onList ((satisfied task onList).trans unmet)

/-- The wait for the bits of a mask, all of them or any. -/
def maskWait (waitBits : EventBits) (waitType : EventWaitType) : EventWait where
  group := 0
  waitBits := waitBits
  waitType := waitType
  timeoutTicks := 100
  clearOnExit := 0

/-- The waits of three tasks. -/
def threeWaits (task : TaskId) : EventWait :=
  if task = 2 then maskWait 1 .orAny else if task = 1 then maskWait 2 .andAll
    else maskWait 5 .andAll

/-- Three tasks blocked in a group that has bit 2 set. -/
def threeWaiting : EventSystem where
  kernel :=
    { tcb := fun task =>
        { state := .blocked
          blockObj := some (.eventWaitInfo task)
          blockNext := if task = 2 then some 1 else if task = 1 then some 0 else none }
      live := {0, 1, 2}
      taskList := fun _ => none
      currentTask := none
      tickCount := 0
      schedulerRunning := true
      contextSwitchPending := false }
  groups := fun _ => { bits := 4, blockedTasks := some 2 }
  pc := fun task => .delaying (threeWaits task) 0

theorem threeWaiting_waiters : GroupWaiters threeWaiting 0 [2, 1, 0] threeWaits where
  path := .node (.node (.node .null))
  info := by simp [waitInfo, threeWaiting, EventPc.waiting]

/-- The bit set releases the first and the last of the three. -/
theorem eventGroupSetBits_three :
    ∃ after events, eventGroupSetBits 5 threeWaiting 0 1 = some (after, events) ∧
      after.bits 0 = 5 ∧ GroupWaiters after 0 [1] threeWaits ∧
      WaitEnded after 2 ∧ WaitEnded after 0 ∧ (after.kernel.tcb 1).state = .blocked := by
  obtain ⟨after, events, done, bits, left, released, waiting, _⟩ :=
    eventGroupSetBits_exact threeWaiting_waiters (by decide : [2, 1, 0].length + 1 < 5) 1
  have newBits : after.bits 0 = 5 := bits.trans (by decide)
  rw [newBits] at left released waiting
  refine ⟨after, events, done, newBits, left, released 2 (by simp) (by decide),
    released 0 (by simp) (by decide), ?_⟩
  exact (waiting 1 (by simp) (by decide)).1

end Rtos

end MiniIotRobotEdge

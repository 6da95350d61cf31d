import MiniIotRobotEdge.GuardedRun
import MiniIotRobotEdge.RtosEventGroupLists
import MiniIotRobotEdge.RtosSyncRuns

/-!
# What the waiters of an event group are told

A wait that blocks is promised what one that does not block gets: bits that
satisfy its condition, no timeout once a bit set has unblocked it, and the
awaited bits cleared on exit if it asked for this.  The code reads the group
again when the unblocked task runs, tests the timeout first and never clears.
The promise is kept along every run in which each unblocked wait did not ask
for clearing, keeps its condition until it returns and returns in time, and in
which no task finds itself ready while it is still on the list.
-/

namespace MiniIotRobotEdge

namespace Rtos

open PointerChain GuardedRun

section Bits

variable {bits more request : EventBits} {type : EventWaitType}

theorem eventConditionMet_or (met : eventConditionMet bits request type = true) :
    eventConditionMet (bits ||| more) request type = true := by
  cases type with
  | andAll =>
      simp only [eventConditionMet, decide_eq_true_eq] at met ⊢
      ext index bound
      have bit := congrArg (fun value => BitVec.getLsbD value index) met
      simp at bit ⊢
      grind
  | orAny | orAnyClear =>
      simp only [eventConditionMet, ne_eq, decide_eq_true_eq] at met ⊢
      intro none
      apply met
      ext index bound
      have bit := congrArg (fun value => BitVec.getLsbD value index) none
      simp at bit ⊢
      grind

theorem ne_zero_of_eventConditionMet (awaited : request ≠ 0)
    (met : eventConditionMet bits request type = true) : bits ≠ 0 := by
  rintro rfl
  cases type with
  | andAll =>
      have zero : (0 : EventBits) = request := by simpa [eventConditionMet] using met
      exact awaited zero.symm
  | orAny | orAnyClear => simp [eventConditionMet] at met

theorem bitsOnExit_cleared (bits : EventBits) {wait : EventWait}
    (clears : wait.clearOnExit ≠ 0) : bitsOnExit bits wait &&& wait.waitBits = 0 := by
  unfold bitsOnExit
  rw [if_pos clears]
  split
  · ext index
    simp
    grind
  · ext index
    simp

end Bits

/-- A bit set has unblocked the task since its last return. -/
def wokenIn (task : TaskId) : List GroupEvent → Bool
  | [] => false
  | .unblocked other :: earlier => other = task || wokenIn task earlier
  | .returned other _ _ _ :: earlier => other ≠ task && wokenIn task earlier
  | .setFromIsr _ _ :: earlier => wokenIn task earlier

/-- What a wait is promised when it returns after the events `earlier`: bits
that meet its condition unless it timed out, no timeout after a bit set has
unblocked it, and the awaited bits cleared if it asked for this. -/
def WaitHonoured (earlier : List GroupEvent) (task : TaskId) (wait : EventWait)
    (result bits : EventBits) : Prop :=
  (result ≠ 0 → eventConditionMet result wait.waitBits wait.waitType = true) ∧
  (wokenIn task earlier = true → result ≠ 0) ∧
  (result ≠ 0 → wait.clearOnExit ≠ 0 → bits &&& wait.waitBits = 0)

/-- Every wait that returned was honoured. -/
def WaitsHonoured (trace : List GroupEvent) : Prop :=
  ∀ later task wait result bits earlier,
    trace = later ++ .returned task (.waitBits wait) result bits :: earlier →
    WaitHonoured earlier task wait result bits

theorem WaitsHonoured.cons {event : GroupEvent} {trace : List GroupEvent}
    (honoured : WaitsHonoured trace)
    (newest : ∀ task wait result bits, event = .returned task (.waitBits wait) result bits →
      WaitHonoured trace task wait result bits) : WaitsHonoured (event :: trace) := by
  intro later task wait result bits earlier split
  cases later with
  | nil =>
      obtain ⟨same, rfl⟩ := List.cons.inj split
      exact newest task wait result bits same
  | cons first later =>
      obtain ⟨_, rest⟩ := List.cons.inj split
      exact honoured later task wait result bits earlier rest

/-- The task is on the list of the group. -/
def OnList (system : EventSystem) (group : Nat) (task : TaskId) : Prop :=
  ∃ nodes, Path system.link (system.groups group).blockedTasks nodes ∧ task ∈ nodes

/-- No task that the bit set would unblock asked for its bits to be cleared. -/
def UnblocksPlainWaits (system : EventSystem) (group : Nat) (bitsToSet : EventBits) : Prop :=
  ∀ task wait, OnList system group task → waitInfo system task = some wait →
    eventConditionMet (system.bits group ||| bitsToSet) wait.waitBits wait.waitType = true →
    wait.clearOnExit = 0

/-- With `bits` in the group, every task that was unblocked and has not
returned yet still has its condition met. -/
def KeepsUnblocked (system : EventSystem) (group : Nat) (bits : EventBits) : Prop :=
  ∀ task wait, (system.pc task).waiting = some wait → wait.group = group →
    ¬ OnList system group task →
    eventConditionMet bits wait.waitBits wait.waitType = true

/-- The condition under which the next step of a task honours the waits. -/
def StepHonours (system : EventSystem) (task : TaskId) : EventPc → Prop
  | .calling (.setBits group bitsToSet) | .calling (.sync group bitsToSet _ _) =>
      UnblocksPlainWaits system group bitsToSet
  | .calling (.clearBits group bitsToClear) =>
      KeepsUnblocked system group (system.bits group &&& ~~~bitsToClear)
  | .entering wait _ =>
      eventConditionMet (system.bits wait.group) wait.waitBits wait.waitType = true →
      KeepsUnblocked system wait.group (bitsOnExit (system.bits wait.group) wait)
  | .reading wait => ¬ OnList system wait.group task
  | .expiring wait => OnList system wait.group task
  | _ => True

def ActionHonours (system : EventSystem) : EventAction → Prop
  | .run task => StepHonours system task (system.pc task)
  | .interrupt group bitsToSet => UnblocksPlainWaits system group bitsToSet
  | _ => True

/-- The lists of all groups hold tasks in their wait loops, and a task in its
wait loop that is on no list has been unblocked by bits that are still
there. -/
structure WaitersKept (lists : Nat → List TaskId) (system : EventSystem)
    (trace : List GroupEvent) : Prop where
  path : ∀ group, Path system.link (system.groups group).blockedTasks (lists group)
  listed : ∀ group task, task ∈ lists group →
    ∃ wait, (system.pc task).waiting = some wait ∧ wait.group = group
  pointed : ∀ group task, task ∈ lists group →
    (system.kernel.tcb task).blockObj = none ∨
      (system.kernel.tcb task).blockObj = some (.eventWaitInfo task)
  met : ∀ task wait, (system.pc task).waiting = some wait → task ∉ lists wait.group →
    eventConditionMet (system.bits wait.group) wait.waitBits wait.waitType = true ∧
      wait.clearOnExit = 0
  awaited : ∀ task wait, (system.pc task).awaited = some wait → wait.waitBits ≠ 0
  woken : ∀ task, wokenIn task trace = true →
    ∃ wait, (system.pc task).waiting = some wait ∧ task ∉ lists wait.group
  honoured : WaitsHonoured trace

namespace WaitersKept

variable {lists shorter : Nat → List TaskId} {system after : EventSystem}
  {trace : List GroupEvent}

theorem onList_iff (kept : WaitersKept lists system trace) {group : Nat} {task : TaskId} :
    OnList system group task ↔ task ∈ lists group := by
  constructor
  · rintro ⟨nodes, path, isNode⟩
    rwa [← path.unique (kept.path group)]
  · exact fun isNode => ⟨lists group, kept.path group, isNode⟩

theorem disjoint (kept : WaitersKept lists system trace) {task : TaskId} {first second : Nat}
    (inFirst : task ∈ lists first) (inSecond : task ∈ lists second) : first = second := by
  obtain ⟨wait, waiting, rfl⟩ := kept.listed first task inFirst
  obtain ⟨other, otherWaiting, rfl⟩ := kept.listed second task inSecond
  rw [waiting] at otherWaiting
  rw [Option.some.inj otherWaiting]

/-- A task outside of the wait loop is on no list. -/
theorem outside (kept : WaitersKept lists system trace) {task : TaskId}
    (notWaiting : (system.pc task).waiting = none) (group : Nat) : task ∉ lists group := by
  intro isNode
  obtain ⟨wait, waiting, _⟩ := kept.listed group task isNode
  simp [notWaiting] at waiting

theorem of_same (kept : WaitersKept lists system trace) (same : SameWaits system after) :
    WaitersKept lists after trace where
  path := by
    have link : after.link = system.link := funext fun task => (same.kernel task).1
    rw [link, same.groups]
    exact kept.path
  listed := by
    intro group task isNode
    rw [same.waiting]
    exact kept.listed group task isNode
  pointed := by
    intro group task isNode
    rcases (same.kernel task).2 with unchanged | reset
    · rw [unchanged]
      exact kept.pointed group task isNode
    · exact .inl reset
  met := by
    intro task wait
    rw [same.waiting, EventSystem.bits, same.groups]
    exact kept.met task wait
  awaited := by
    intro task wait awaits
    rcases same.awaited task wait awaits with before | nonzero
    · exact kept.awaited task wait before
    · exact nonzero
  woken := by
    intro task wakes
    rw [same.waiting]
    exact kept.woken task wakes
  honoured := kept.honoured

/-- A task that is on no list any more leaves its call. -/
theorem finishCall (kept : WaitersKept lists system trace) {task : TaskId} {call : EventCall}
    {group : Nat} {result : EventBits} (unlinked : Unlinked task lists shorter system after)
    (newest : ∀ wait, call = .waitBits wait →
      WaitHonoured trace task wait result (system.bits group)) :
    WaitersKept shorter (after.setPc task .idle)
      (.returned task call result (after.bits group) :: trace) where
  path := unlinked.path
  listed := by
    intro other node isNode
    obtain ⟨before, nodeNe⟩ := (unlinked.mem other node).mp isNode
    rw [EventSystem.pc_setPc, if_neg nodeNe, unlinked.pc]
    exact kept.listed other node before
  pointed := by
    intro other node isNode
    obtain ⟨before, nodeNe⟩ := (unlinked.mem other node).mp isNode
    have pointed := kept.pointed other node before
    rw [← unlinked.blockObj node nodeNe] at pointed
    exact pointed
  met := by
    intro other wait
    rw [EventSystem.pc_setPc]
    split
    case isTrue => simp [EventPc.waiting]
    case isFalse otherNe =>
      intro waiting off
      rw [unlinked.pc] at waiting
      change eventConditionMet (after.bits wait.group) _ _ = true ∧ _
      rw [unlinked.bits]
      exact kept.met other wait waiting fun isNode =>
        off ((unlinked.mem _ _).mpr ⟨isNode, otherNe⟩)
  awaited := by
    intro other wait
    rw [EventSystem.pc_setPc]
    split
    · simp [EventPc.awaited, EventPc.waiting]
    · rw [unlinked.pc]
      exact kept.awaited other wait
  woken := by
    intro other wakes
    obtain ⟨differs, before⟩ : task ≠ other ∧ wokenIn other trace = true := by
      simpa [wokenIn] using wakes
    obtain ⟨wait, waiting, off⟩ := kept.woken other before
    rw [EventSystem.pc_setPc, if_neg (Ne.symm differs), unlinked.pc]
    exact ⟨wait, waiting, fun isNode => off ((unlinked.mem _ _).mp isNode).1⟩
  honoured := by
    apply kept.honoured.cons
    intro other wait value bits same
    obtain ⟨rfl, rfl, rfl, rfl⟩ : task = other ∧ call = .waitBits wait ∧ result = value ∧
      after.bits group = bits := by simpa using same
    rw [unlinked.bits]
    exact newest wait rfl

/-- The bits of a group change, but not for the tasks that were unblocked. -/
theorem setBits (kept : WaitersKept lists system trace) {group : Nat} {bits : EventBits}
    (keeps : ∀ task wait, (system.pc task).waiting = some wait → wait.group = group →
      task ∉ lists group → eventConditionMet bits wait.waitBits wait.waitType = true) :
    WaitersKept lists (system.setBits group bits) trace where
  path := by
    intro other
    rw [EventSystem.blockedTasks_setBits]
    exact kept.path other
  listed := kept.listed
  pointed := kept.pointed
  met := by
    intro task wait waiting off
    refine ⟨?_, (kept.met task wait waiting off).2⟩
    rw [EventSystem.bits_setBits]
    split
    case isTrue same =>
      rw [same] at off
      exact keeps task wait waiting same off
    case isFalse => exact (kept.met task wait waiting off).1
  awaited := kept.awaited
  woken := kept.woken
  honoured := kept.honoured

/-- Nothing has to be taken out for a task that is on no list. -/
theorem unlinked_self (kept : WaitersKept lists system trace) {task : TaskId}
    (off : ∀ group, task ∉ lists group) : Unlinked task lists lists system system where
  path := kept.path
  mem := by
    intro group node
    constructor
    · exact fun isNode => ⟨isNode, fun same => off group (same ▸ isNode)⟩
    · exact And.left
  pc := rfl
  bits := fun _ => rfl
  blockObj := fun _ _ => rfl

/-- The task that a walk finds is taken out of the list. -/
theorem unlinked_found (kept : WaitersKept lists system trace) {group fuel : Nat}
    {task : TaskId} {test : TaskId → Bool} {previous : Option TaskId}
    (found : find system.link test fuel none (system.groups group).blockedTasks =
      some (some (previous, task)))
    (isMember : task ∈ lists group) {change : Tcb → Tcb}
    (cleared : ∀ tcb, (change tcb).blockNext = none) :
    Unlinked task lists (Function.update lists group ((lists group).erase task)) system
      (unlinkWaiter system group task previous change) where
  path := unlinkWaiter_path kept.path (fun _ _ => kept.disjoint) found cleared
  mem := by
    intro other node
    by_cases same : other = group
    · rw [same, Function.update_self, (kept.path group).nodup.mem_erase_iff, and_comm]
    · rw [Function.update_of_ne same]
      constructor
      · rintro isNode
        refine ⟨isNode, ?_⟩
        rintro rfl
        exact same (kept.disjoint isNode isMember)
      · exact And.left
  pc := unlinkWaiter_pc
  bits := unlinkWaiter_bits
  blockObj := fun _ => unlinkWaiter_blockObj

/-- A task is unblocked when the bits of its group meet its condition. -/
theorem unblock (kept : WaitersKept lists system trace) {task : TaskId} {wait : EventWait}
    (unlinked : Unlinked task lists shorter system after)
    (waiting : (system.pc task).waiting = some wait)
    (satisfied : eventConditionMet (system.bits wait.group) wait.waitBits wait.waitType = true)
    (plain : wait.clearOnExit = 0) :
    WaitersKept shorter after (.unblocked task :: trace) where
  path := unlinked.path
  listed := by
    intro other node isNode
    rw [unlinked.pc]
    exact kept.listed other node ((unlinked.mem other node).mp isNode).1
  pointed := by
    intro other node isNode
    obtain ⟨before, nodeNe⟩ := (unlinked.mem other node).mp isNode
    rw [unlinked.blockObj node nodeNe]
    exact kept.pointed other node before
  met := by
    intro other otherWait
    rw [unlinked.pc, unlinked.bits]
    intro otherWaiting off
    by_cases same : other = task
    · rw [same, waiting] at otherWaiting
      rw [← Option.some.inj otherWaiting]
      exact ⟨satisfied, plain⟩
    · exact kept.met other otherWait otherWaiting fun isNode =>
        off ((unlinked.mem _ _).mpr ⟨isNode, same⟩)
  awaited := by
    rw [unlinked.pc]
    exact kept.awaited
  woken := by
    intro other wakes
    rw [unlinked.pc]
    by_cases same : other = task
    · rw [same]
      exact ⟨wait, waiting, fun isNode => ((unlinked.mem _ _).mp isNode).2 rfl⟩
    · have before : wokenIn other trace = true := by
        simpa [wokenIn, Ne.symm same] using wakes
      obtain ⟨otherWait, otherWaiting, off⟩ := kept.woken other before
      exact ⟨otherWait, otherWaiting, fun isNode => off ((unlinked.mem _ _).mp isNode).1⟩
  honoured := kept.honoured.cons (by simp)

/-- No task on the list whose condition is met asked for clearing. -/
def PlainWaits (lists : Nat → List TaskId) (system : EventSystem) (group : Nat) : Prop :=
  ∀ task wait, task ∈ lists group → waitInfo system task = some wait →
    eventConditionMet (system.bits group) wait.waitBits wait.waitType = true →
    wait.clearOnExit = 0

theorem unblockFirstReady_pc {fuel group : Nat} {found : Option TaskId}
    (searched : Rtos.unblockFirstReady fuel system group = some (found, after)) :
    after.pc = system.pc := by
  unfold Rtos.unblockFirstReady at searched
  split at searched
  · simp at searched
  · obtain ⟨_, rfl⟩ := Prod.mk.inj (Option.some.inj searched)
    rfl
  · obtain ⟨_, rfl⟩ := Prod.mk.inj (Option.some.inj searched)
    exact unlinkWaiter_pc

theorem unblockAllReady_pc {fuel group : Nat} {events : List GroupEvent}
    (woke : Rtos.unblockAllReady fuel system group = some (after, events)) :
    after.pc = system.pc := by
  induction fuel generalizing system events with
  | zero => simp [Rtos.unblockAllReady] at woke
  | succ fuel ih =>
      rw [Rtos.unblockAllReady] at woke
      split at woke
      · simp at woke
      · rename_i searched
        obtain ⟨rfl, _⟩ := Prod.mk.inj (Option.some.inj woke)
        exact unblockFirstReady_pc searched
      · rename_i searched
        obtain ⟨⟨last, rest⟩, others, finished⟩ := Option.map_eq_some_iff.mp woke
        obtain ⟨rfl, _⟩ := Prod.mk.inj finished
        exact (ih others).trans (unblockFirstReady_pc searched)

theorem eventGroupSetBits_pc {fuel group : Nat} {bitsToSet : EventBits}
    {events : List GroupEvent}
    (done : Rtos.eventGroupSetBits fuel system group bitsToSet = some (after, events)) :
    after.pc = system.pc := by
  unfold Rtos.eventGroupSetBits at done
  dsimp only at done
  split at done
  · obtain ⟨rfl, _⟩ := Prod.mk.inj (Option.some.inj done)
    rfl
  · exact (unblockAllReady_pc done).trans rfl

theorem waitInfo_unlinked {task other : TaskId}
    (unlinked : Unlinked task lists shorter system after) (differs : other ≠ task) :
    waitInfo after other = waitInfo system other := by
  unfold waitInfo
  rw [unlinked.blockObj other differs, unlinked.pc]

/-- The wait information of a task on a list is that of its own wait. -/
theorem waiting_of_waitInfo (kept : WaitersKept lists system trace) {group : Nat}
    {task : TaskId} {wait : EventWait} (isMember : task ∈ lists group)
    (info : waitInfo system task = some wait) :
    (system.pc task).waiting = some wait ∧ wait.group = group := by
  have waiting : (system.pc task).waiting = some wait := by
    rcases kept.pointed group task isMember with null | pointed
    · simp [waitInfo, null] at info
    · simpa [waitInfo, pointed] using info
  obtain ⟨other, otherWaiting, grouped⟩ := kept.listed group task isMember
  rw [waiting] at otherWaiting
  obtain rfl := Option.some.inj otherWaiting
  exact ⟨waiting, grouped⟩

/-- `unblock_first_ready` stops, or unblocks a task whose condition is met. -/
theorem unblockFirstReady (kept : WaitersKept lists system trace) {fuel group : Nat}
    {found : Option TaskId} (plain : PlainWaits lists system group)
    (searched : unblockFirstReady fuel system group = some (found, after)) :
    (found = none ∧ after = system) ∨
      ∃ task shorter, found = some task ∧
        WaitersKept shorter after (.unblocked task :: trace) ∧
        PlainWaits shorter after group := by
  unfold Rtos.unblockFirstReady at searched
  split at searched
  · simp at searched
  · obtain ⟨rfl, rfl⟩ := Prod.mk.inj (Option.some.inj searched)
    exact .inl ⟨rfl, rfl⟩
  · rename_i previous task isFound
    obtain ⟨rfl, rfl⟩ := Prod.mk.inj (Option.some.inj searched)
    have isMember := find_mem (kept.path group) isFound
    have cleared : ∀ tcb : Tcb, ({ tcb with
        blockNext := none, state := .ready, blockObj := none } : Tcb).blockNext = none :=
      fun _ => rfl
    have unlinked := kept.unlinked_found isFound isMember cleared
    have passes := (find_found (kept.path group) isFound).1
    unfold waitSatisfied at passes
    split at passes
    · simp at passes
    · rename_i wait info
      obtain ⟨waiting, rfl⟩ := kept.waiting_of_waitInfo isMember info
      have plainWait := plain task wait isMember info passes
      refine .inr ⟨task, Function.update lists wait.group ((lists wait.group).erase task), rfl,
        kept.unblock unlinked waiting passes plainWait, ?_⟩
      intro other otherWait isNode otherInfo otherPasses
      obtain ⟨before, differs⟩ := (unlinked.mem _ _).mp isNode
      have sameBits := unlinked.bits wait.group
      exact plain other otherWait before
        ((waitInfo_unlinked unlinked differs).symm.trans otherInfo) (sameBits ▸ otherPasses)

/-- `unblock_all_ready` unblocks tasks whose conditions are met. -/
theorem unblockAllReady (kept : WaitersKept lists system trace) {fuel group : Nat}
    {events : List GroupEvent} (plain : PlainWaits lists system group)
    (woke : unblockAllReady fuel system group = some (after, events)) :
    ∃ shorter, WaitersKept shorter after (events ++ trace) := by
  induction fuel generalizing lists system trace events with
  | zero => simp [Rtos.unblockAllReady] at woke
  | succ fuel ih =>
      rw [Rtos.unblockAllReady] at woke
      split at woke
      · simp at woke
      · rename_i stopped searched
        obtain ⟨rfl, rfl⟩ := Prod.mk.inj (Option.some.inj woke)
        obtain ⟨_, rfl⟩ | ⟨task, _, impossible, _⟩ := kept.unblockFirstReady plain searched
        · exact ⟨lists, kept⟩
        · simp at impossible
      · rename_i task unblocked searched
        obtain ⟨⟨last, rest⟩, others, finished⟩ := Option.map_eq_some_iff.mp woke
        obtain ⟨rfl, rfl⟩ := Prod.mk.inj finished
        obtain ⟨impossible, _⟩ | ⟨same, shorter, isFound, keptNext, plainNext⟩ :=
          kept.unblockFirstReady plain searched
        · simp at impossible
        · obtain rfl := Option.some.inj isFound
          simpa using ih keptNext plainNext others

/-- The critical section of a bit set. -/
theorem eventGroupSetBits (kept : WaitersKept lists system trace) {fuel group : Nat}
    {bitsToSet : EventBits} {events : List GroupEvent}
    (plain : UnblocksPlainWaits system group bitsToSet)
    (done : eventGroupSetBits fuel system group bitsToSet = some (after, events)) :
    ∃ shorter, WaitersKept shorter after (events ++ trace) := by
  have added : WaitersKept lists
      (system.setBits group (system.bits group ||| bitsToSet)) trace := by
    apply kept.setBits
    intro task wait waiting same off
    subst same
    exact eventConditionMet_or (kept.met task wait waiting off).1
  unfold Rtos.eventGroupSetBits at done
  dsimp only at done
  split at done
  · obtain ⟨rfl, rfl⟩ := Prod.mk.inj (Option.some.inj done)
    exact ⟨lists, added⟩
  · refine added.unblockAllReady (fun task wait isMember info passes => ?_) done
    rw [EventSystem.bits_setBits, if_pos rfl] at passes
    exact plain task wait (kept.onList_iff.mpr isMember) info passes

/-- A wait whose condition is not met puts its task on the list. -/
theorem blockWaiter (kept : WaitersKept lists system trace) {task : TaskId}
    {wait : EventWait} {start : Nat} (inside : system.pc task = .entering wait start) :
    WaitersKept (Function.update lists wait.group (task :: lists wait.group))
      ((blockWaiter system wait.group task).setPc task (.delaying wait start)) trace := by
  have off := kept.outside (by rw [inside]; rfl)
  have isNode : ∀ group node,
      node ∈ Function.update lists wait.group (task :: lists wait.group) group ↔
        (group = wait.group ∧ node = task) ∨ node ∈ lists group := by
    intro group node
    by_cases same : group = wait.group
    · rw [same, Function.update_self]
      simp
    · simp [same]
  have differs : ∀ {group node}, node ∈ lists group → node ≠ task := by
    rintro group node isMember rfl
    exact off group isMember
  exact
    { path := by
        intro group
        change Path (Rtos.blockWaiter system wait.group task).link
          ((Rtos.blockWaiter system wait.group task).groups group).blockedTasks _
        rw [blockWaiter_link, blockWaiter_blockedTasks]
        by_cases same : group = wait.group
        · rw [if_pos same, same, Function.update_self]
          refine .node ?_
          rw [Function.update_self]
          exact (kept.path wait.group).update_of_not_mem (off wait.group) _
        · rw [if_neg same, Function.update_of_ne same]
          exact (kept.path group).update_of_not_mem (off group) _
      listed := by
        intro group node isMember
        rw [EventSystem.pc_setPc]
        rcases (isNode group node).mp isMember with ⟨rfl, rfl⟩ | before
        · rw [if_pos rfl]
          exact ⟨wait, rfl, rfl⟩
        · rw [if_neg (differs before)]
          exact kept.listed group node before
      pointed := by
        intro group node isMember
        change ((Rtos.blockWaiter system wait.group task).kernel.tcb node).blockObj = none ∨
          ((Rtos.blockWaiter system wait.group task).kernel.tcb node).blockObj = _
        rw [blockWaiter_blockObj]
        rcases (isNode group node).mp isMember with ⟨rfl, rfl⟩ | before
        · rw [if_pos rfl]
          exact .inr rfl
        · rw [if_neg (differs before)]
          exact kept.pointed group node before
      met := by
        intro other otherWait
        rw [EventSystem.pc_setPc]
        change _ → _ → eventConditionMet
          ((Rtos.blockWaiter system wait.group task).bits otherWait.group) _ _ = true ∧ _
        rw [blockWaiter_bits]
        split
        case isTrue same =>
          intro waiting offList
          obtain rfl := Option.some.inj waiting
          exact absurd ((isNode _ _).mpr (.inl ⟨rfl, same⟩)) offList
        case isFalse =>
          intro waiting offList
          exact kept.met other otherWait waiting fun before =>
            offList ((isNode _ _).mpr (.inr before))
      awaited := by
        intro other otherWait
        rw [EventSystem.pc_setPc]
        split
        case isTrue =>
          intro awaits
          obtain rfl := Option.some.inj awaits
          exact kept.awaited task wait (by rw [inside]; rfl)
        case isFalse => exact kept.awaited other otherWait
      woken := by
        intro other wakes
        obtain ⟨otherWait, waiting, offList⟩ := kept.woken other wakes
        have otherNe : other ≠ task := by
          rintro rfl
          simp [inside, EventPc.waiting] at waiting
        rw [EventSystem.pc_setPc, if_neg otherNe]
        refine ⟨otherWait, waiting, fun isMember => ?_⟩
        rcases (isNode _ _).mp isMember with ⟨_, same⟩ | before
        · exact otherNe same
        · exact offList before
      honoured := kept.honoured }

theorem not_woken (kept : WaitersKept lists system trace) {task : TaskId}
    (notWaiting : (system.pc task).waiting = none) : wokenIn task trace ≠ true := by
  intro wakes
  obtain ⟨wait, waiting, _⟩ := kept.woken task wakes
  simp [notWaiting] at waiting

/-- A wait that is not in the wait loop returns without having been woken. -/
theorem finishOutside (kept : WaitersKept lists system trace) {task : TaskId}
    {call : EventCall} {group : Nat} {result : EventBits}
    (notWaiting : (system.pc task).waiting = none)
    (newest : ∀ wait, call = .waitBits wait → result ≠ 0 →
      eventConditionMet result wait.waitBits wait.waitType = true ∧
        (wait.clearOnExit ≠ 0 → system.bits group &&& wait.waitBits = 0)) :
    WaitersKept lists (system.setPc task .idle)
      (.returned task call result (system.bits group) :: trace) := by
  apply kept.finishCall (kept.unlinked_self (kept.outside notWaiting))
  intro wait same
  refine ⟨fun nonzero => (newest wait same nonzero).1, ?_,
    fun nonzero => (newest wait same nonzero).2⟩
  exact fun wakes => absurd wakes (kept.not_woken notWaiting)

/-- The first section of a call. -/
theorem startCall (kept : WaitersKept lists system trace) {fuel : Nat} {task : TaskId}
    {call : EventCall} {events : List GroupEvent} (inside : system.pc task = .calling call)
    (honours : StepHonours system task (.calling call))
    (started : startCall fuel system task call = some (after, events)) :
    ∃ shorter, WaitersKept shorter after (events ++ trace) := by
  have notWaiting : (system.pc task).waiting = none := by
    rw [inside]
    rfl
  cases call with
  | waitBits wait =>
      rw [Rtos.startCall] at started
      split at started
      case isTrue =>
        obtain ⟨rfl, rfl⟩ := Prod.mk.inj (Option.some.inj started)
        exact ⟨lists, kept.finishOutside notWaiting (by simp)⟩
      case isFalse nonzero =>
        obtain ⟨rfl, rfl⟩ := Prod.mk.inj (Option.some.inj started)
        refine ⟨lists, kept.of_same (.setPc notWaiting.symm fun other awaits => ?_)⟩
        obtain rfl := Option.some.inj awaits
        exact .inr nonzero
  | sync group bitsToSet bitsToWait timeoutTicks =>
      obtain ⟨⟨added, woke⟩, done, finished⟩ := Option.map_eq_some_iff.mp started
      obtain ⟨rfl, rfl⟩ := Prod.mk.inj finished
      obtain ⟨shorter, keptAdded⟩ := kept.eventGroupSetBits honours done
      refine ⟨shorter, keptAdded.of_same (.setPc ?_ (by simp [EventPc.awaited, EventPc.waiting]))⟩
      rw [eventGroupSetBits_pc done, notWaiting]
      rfl
  | setBits group bitsToSet =>
      obtain ⟨⟨added, woke⟩, done, finished⟩ := Option.map_eq_some_iff.mp started
      obtain ⟨rfl, rfl⟩ := Prod.mk.inj finished
      obtain ⟨shorter, keptAdded⟩ := kept.eventGroupSetBits honours done
      refine ⟨shorter, keptAdded.finishOutside ?_ (by simp)⟩
      rw [eventGroupSetBits_pc done, notWaiting]
  | clearBits group bitsToClear =>
      obtain ⟨rfl, rfl⟩ := Prod.mk.inj (Option.some.inj started)
      have cleared : WaitersKept lists (eventGroupClearBits system group bitsToClear) trace := by
        apply kept.setBits
        intro other wait waiting same off
        exact honours other wait waiting same (mt kept.onList_iff.mp off)
      exact ⟨lists, cleared.finishOutside notWaiting (by simp)⟩

/-- The critical section of `event_group_wait_bits`. -/
theorem enterWait (kept : WaitersKept lists system trace) {task : TaskId} {wait : EventWait}
    {start : Nat} {events : List GroupEvent} (inside : system.pc task = .entering wait start)
    (honours : StepHonours system task (.entering wait start))
    (entered : enterWait system task wait start = (after, events)) :
    ∃ shorter, WaitersKept shorter after (events ++ trace) := by
  unfold Rtos.enterWait at entered
  dsimp only at entered
  split at entered
  case isTrue met =>
    obtain ⟨rfl, rfl⟩ := Prod.mk.inj entered
    have left : WaitersKept lists
        (system.setBits wait.group (bitsOnExit (system.bits wait.group) wait)) trace := by
      apply kept.setBits
      intro other otherWait waiting same off
      exact honours met other otherWait waiting same (mt kept.onList_iff.mp off)
    refine ⟨lists, left.finishOutside ?_ fun other same _ => ?_⟩
    · change (system.pc task).waiting = none
      rw [inside]
      rfl
    · obtain rfl : wait = other := by simpa using same
      rw [EventSystem.bits_setBits, if_pos rfl]
      exact ⟨met, bitsOnExit_cleared _⟩
  case isFalse =>
    obtain ⟨rfl, rfl⟩ := Prod.mk.inj entered
    exact ⟨_, kept.blockWaiter inside⟩

/-- An unblocked task reads the bits and returns. -/
theorem readBits (kept : WaitersKept lists system trace) {task : TaskId} {wait : EventWait}
    (inside : system.pc task = .reading wait) (off : task ∉ lists wait.group) :
    WaitersKept lists (system.setPc task .idle)
      (.returned task (.waitBits wait) (system.bits wait.group) (system.bits wait.group) ::
        trace) := by
  have waiting : (system.pc task).waiting = some wait := by
    rw [inside]
    rfl
  have everywhere : ∀ group, task ∉ lists group := by
    intro group isMember
    obtain ⟨other, otherWaiting, rfl⟩ := kept.listed group task isMember
    rw [waiting] at otherWaiting
    exact off (Option.some.inj otherWaiting ▸ isMember)
  obtain ⟨met, plain⟩ := kept.met task wait waiting off
  apply kept.finishCall (kept.unlinked_self everywhere)
  intro other same
  obtain rfl : wait = other := by simpa using same
  refine ⟨fun _ => met, fun _ => ?_, fun _ clears => absurd plain clears⟩
  have awaits := kept.awaited task wait (EventPc.awaited_of_waiting waiting)
  exact ne_zero_of_eventConditionMet awaits met

/-- A task that is still on the list gives up. -/
theorem removeWaiter (kept : WaitersKept lists system trace) {fuel : Nat} {task : TaskId}
    {wait : EventWait} (inside : system.pc task = .expiring wait)
    (isMember : task ∈ lists wait.group)
    (removed : removeWaiter fuel system wait.group task = some after) :
    ∃ shorter, WaitersKept shorter (after.setPc task .idle)
      (.returned task (.waitBits wait) 0 (after.bits wait.group) :: trace) := by
  have waiting : (system.pc task).waiting = some wait := by
    rw [inside]
    rfl
  unfold Rtos.removeWaiter at removed
  split at removed
  · simp at removed
  · rename_i missing
    have passed := find_missing (kept.path wait.group) missing task isMember
    simp at passed
  · rename_i previous node isFound
    obtain rfl : node = task := by
      simpa using (find_found (kept.path wait.group) isFound).1
    obtain rfl := Option.some.inj removed
    have cleared : ∀ tcb : Tcb,
        ({ tcb with blockNext := none, blockObj := none } : Tcb).blockNext = none :=
      fun _ => rfl
    have unlinked := kept.unlinked_found isFound isMember cleared
    refine ⟨_, kept.finishCall unlinked fun other same => ?_⟩
    obtain rfl : wait = other := by simpa using same
    refine ⟨by simp, fun wakes => ?_, by simp⟩
    obtain ⟨otherWait, otherWaiting, off⟩ := kept.woken node wakes
    rw [waiting] at otherWaiting
    exact absurd (Option.some.inj otherWaiting ▸ isMember) off

/-- One step of a task inside a call. -/
theorem runWaiter (kept : WaitersKept lists system trace) {fuel : Nat} {task : TaskId}
    {events : List GroupEvent} (honours : StepHonours system task (system.pc task))
    (ran : runWaiter fuel system task = some (after, events)) :
    ∃ shorter, WaitersKept shorter after (events ++ trace) := by
  have moves : ∀ {pc : EventPc} {wait : EventWait}, (system.pc task).waiting = some wait →
      pc.waiting = some wait → WaitersKept lists (system.setPc task pc) trace := by
    intro pc wait before behind
    refine kept.of_same (.setPc (behind.trans before.symm) fun other awaits => .inl ?_)
    rw [EventPc.awaited_of_waiting behind] at awaits
    rw [EventPc.awaited_of_waiting before, awaits]
  unfold Rtos.runWaiter at ran
  split at ran
  case h_1 => simp at ran
  case h_2 call inside =>
    rw [inside] at honours
    exact kept.startCall inside honours ran
  case h_3 wait start inside =>
    rw [inside] at honours
    exact kept.enterWait inside honours (Option.some.inj ran)
  case h_4 wait start inside =>
    obtain ⟨kernel, delayed, finished⟩ := Option.map_eq_some_iff.mp ran
    obtain ⟨rfl, rfl⟩ := Prod.mk.inj finished
    have before : (system.pc task).waiting = some wait := by
      rw [inside]
      rfl
    exact ⟨lists, (moves before rfl).of_same (.of_kernel (.taskDelay delayed))⟩
  case h_5 wait start inside =>
    obtain ⟨rfl, rfl⟩ := Prod.mk.inj (Option.some.inj ran)
    refine ⟨lists, moves (by rw [inside]; rfl) ?_⟩
    split <;> rfl
  case h_6 wait start inside =>
    obtain ⟨rfl, rfl⟩ := Prod.mk.inj (Option.some.inj ran)
    refine ⟨lists, moves (by rw [inside]; rfl) ?_⟩
    split <;> rfl
  case h_7 wait inside =>
    obtain ⟨rfl, rfl⟩ := Prod.mk.inj (Option.some.inj ran)
    rw [inside] at honours
    exact ⟨lists, kept.readBits inside (mt kept.onList_iff.mpr honours)⟩
  case h_8 wait inside =>
    obtain ⟨removed, removal, finished⟩ := Option.map_eq_some_iff.mp ran
    obtain ⟨rfl, rfl⟩ := Prod.mk.inj finished
    rw [inside] at honours
    exact kept.removeWaiter inside (kept.onList_iff.mp honours) removal

/-- The report of an interrupt does not concern the waits. -/
theorem setFromIsr (kept : WaitersKept lists system trace) (previous : EventBits)
    (woken : Bool) : WaitersKept lists system (.setFromIsr previous woken :: trace) where
  path := kept.path
  listed := kept.listed
  pointed := kept.pointed
  met := kept.met
  awaited := kept.awaited
  woken := kept.woken
  honoured := kept.honoured.cons (by simp)

theorem execEvent (kept : WaitersKept lists system trace) {fuel : Nat} {action : EventAction}
    {events : List GroupEvent} (honours : ActionHonours system action)
    (stepped : execEvent fuel system action = some (after, events)) :
    ∃ shorter, WaitersKept shorter after (events ++ trace) := by
  cases action with
  | invoke task call =>
      rw [Rtos.execEvent] at stepped
      split at stepped
      case isFalse => simp at stepped
      case isTrue idle =>
        obtain ⟨rfl, rfl⟩ := Prod.mk.inj (Option.some.inj stepped)
        refine ⟨lists, (kept.of_same .dispatch).of_same (.setPc ?_ ?_)⟩
        · change _ = (system.pc task).waiting
          rw [idle]
          rfl
        · simp [EventPc.awaited, EventPc.waiting]
  | run task =>
      rw [Rtos.execEvent] at stepped
      exact (kept.of_same .dispatch).runWaiter honours stepped
  | interrupt group bitsToSet =>
      obtain ⟨⟨added, woke⟩, done, finished⟩ := Option.map_eq_some_iff.mp stepped
      obtain ⟨rfl, rfl⟩ := Prod.mk.inj finished
      obtain ⟨shorter, keptAdded⟩ := kept.eventGroupSetBits honours done
      exact ⟨shorter, keptAdded.setFromIsr _ _⟩
  | tick =>
      obtain ⟨kernel, handled, finished⟩ := Option.map_eq_some_iff.mp stepped
      obtain ⟨rfl, rfl⟩ := Prod.mk.inj finished
      exact ⟨lists, kept.of_same (.of_kernel (.schedulerTickHandler handled))⟩
  | pendsv =>
      obtain ⟨kernel, handled, finished⟩ := Option.map_eq_some_iff.mp stepped
      obtain ⟨rfl, rfl⟩ := Prod.mk.inj finished
      exact ⟨lists, kept.of_same (.of_kernel (.pendsvHandler handled))⟩

end WaitersKept

theorem EventSystem.Initial.waitersKept {initial : EventSystem} (fresh : initial.Initial) :
    WaitersKept (fun _ => []) initial [] where
  path := by
    intro group
    rw [fresh.unwaited]
    exact .null
  listed := by simp
  pointed := by simp
  met := by simp [fresh.idle, EventPc.waiting]
  awaited := by simp [fresh.idle, EventPc.awaited, EventPc.waiting]
  woken := by simp [wokenIn]
  honoured := by simp [WaitsHonoured]

/-- Every wait is honoured along a run whose bit sets only unblock waits that
do not clear, whose clears keep the condition of the tasks unblocked, and in
which a task returns the bits only off the list and a timeout only on it. -/
theorem eventWaits_honoured {initial : EventSystem} (fresh : initial.Initial)
    {current : GuardedRun.Traced EventSystem GroupEvent}
    (run : Reachable execEvent ActionHonours initial current) :
    WaitsHonoured current.trace := by
  have kept : ∃ lists, WaitersKept lists current.state current.trace := by
    refine Reachable.invariant
      (fun current => ∃ lists, WaitersKept lists current.state current.trace)
      ⟨_, fresh.waitersKept⟩ ?_ run
    rintro fuel before action after events ⟨lists, kept⟩ honours stepped
    exact kept.execEvent honours stepped
  obtain ⟨lists, kept⟩ := kept
  exact kept.honoured

/-- A test for `ActionHonours`, for runs with short lists in which no bit is
cleared and no wait times out. -/
def honoursGuard (system : EventSystem) : EventAction → Bool
  | .run task =>
      match system.pc task with
      | .calling (.setBits group bitsToSet) =>
          find system.link
            (fun other => (waitInfo system other).any fun wait =>
              eventConditionMet (system.bits group ||| bitsToSet) wait.waitBits wait.waitType &&
                wait.clearOnExit ≠ 0)
            8 none (system.groups group).blockedTasks = some none
      | .calling (.sync _ _ _ _) | .calling (.clearBits _ _) | .expiring _ => false
      | .entering wait _ =>
          !eventConditionMet (system.bits wait.group) wait.waitBits wait.waitType
      | .reading wait =>
          find system.link (fun other => other = task) 8 none
            (system.groups wait.group).blockedTasks = some none
      | _ => true
  | .interrupt _ _ => false
  | _ => true

theorem actionHonours_of_guard (system : EventSystem) (action : EventAction)
    (guarded : honoursGuard system action = true) : ActionHonours system action := by
  cases action with
  | run task =>
      unfold honoursGuard at guarded
      unfold ActionHonours
      dsimp only at guarded ⊢
      cases inside : system.pc task with
      | calling call =>
          rw [inside] at guarded
          cases call with
          | waitBits => trivial
          | setBits group bitsToSet =>
              rintro other wait ⟨nodes, path, isNode⟩ info met
              have fails := find_missing path (by simpa using guarded) other isNode
              simpa [info, met] using fails
          | sync | clearBits => simp at guarded
      | entering wait start =>
          intro met
          simp [inside, met] at guarded
      | reading wait =>
          rintro ⟨nodes, path, isNode⟩
          rw [inside] at guarded
          have fails := find_missing path (by simpa using guarded) task isNode
          simp at fails
      | expiring wait => simp [inside] at guarded
      | _ => trivial
  | interrupt group bitsToSet => simp [honoursGuard] at guarded
  | _ => trivial

/-- Two tasks of equal priority in a started kernel, with fresh groups. -/
def eventTasks : EventSystem where
  kernel := twoTasks.kernel
  groups := fun _ => {}
  pc := fun _ => .idle

theorem eventTasks_initial : eventTasks.Initial := ⟨fun _ => rfl, fun _ => rfl⟩

/-- Wait for bit 0 of the first group. -/
def firstBitWait (timeoutTicks : Nat) : EventWait where
  group := 0
  waitBits := 1
  waitType := .andAll
  timeoutTicks := timeoutTicks
  clearOnExit := 0

/-- A blocked wait is unblocked by a bit set and returns the bits. -/
theorem eventWaits_honoured_unblocked :
    ∃ current, Reachable execEvent ActionHonours eventTasks current ∧
      current.trace = [.returned 2 (.waitBits (firstBitWait 5)) 1 1,
        .returned 3 (.setBits 0 1) 0 1, .unblocked 2] ∧
      WaitsHonoured current.trace := by
  obtain ⟨current, run, traced⟩ :=
    GuardedRun.exists_reachable execEvent eventTasks actionHonours_of_guard 4
      [.invoke 2 (.waitBits (firstBitWait 5)), .run 2, .run 2, .invoke 3 (.setBits 0 1), .run 3,
        .run 2, .tick, .run 2, .run 2, .run 2]
      (fun current => current.trace = [.returned 2 (.waitBits (firstBitWait 5)) 1 1,
        .returned 3 (.setBits 0 1) 0 1, .unblocked 2])
      (by decide +kernel)
  exact ⟨current, run, traced, eventWaits_honoured eventTasks_initial run⟩

/-- A task is unblocked by a bit set within the tick it waits for, and told
that it timed out when it runs. -/
theorem eventWaits_not_honoured :
    ¬ ∀ current, Reachable execEvent AnyStep eventTasks current →
      WaitsHonoured current.trace := by
  intro honoured
  obtain ⟨current, run, traced⟩ :=
    exists_anyStep execEvent eventTasks 4
      [.invoke 2 (.waitBits (firstBitWait 1)), .run 2, .run 2, .run 2, .pendsv,
        .invoke 3 (.setBits 0 1), .run 3, .tick, .pendsv, .run 2, .run 2]
      (fun current => current.trace = [.returned 2 (.waitBits (firstBitWait 1)) 0 1,
        .returned 3 (.setBits 0 1) 0 1, .unblocked 2])
      (by decide +kernel)
  have promised := honoured current run [] 2 (firstBitWait 1) 0 1
    [.returned 3 (.setBits 0 1) 0 1, .unblocked 2] traced
  exact promised.2.1 (by decide) rfl

end Rtos

end MiniIotRobotEdge

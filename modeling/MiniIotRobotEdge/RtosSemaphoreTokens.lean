import MiniIotRobotEdge.RtosSyncRuns

/-!
# Tokens of a counting semaphore

The count of a semaphore is changed by the section after the wait loop of
`semaphore_take` and by the two give functions, and by nothing else.  Every
step is reduced to what it does to the count (`TokenStep`); the takes that
returned one and the gives of a run are counted beside the system.
-/

namespace MiniIotRobotEdge

namespace Rtos

open Relation

/-- `semaphore_create_counting`; `allocated` says whether the heap had room
for the object. -/
def semaphoreCreateCounting (maxCount initialCount : Nat) (allocated : Bool) :
    Option Semaphore :=
  if maxCount = 0 ∨ maxCount < initialCount then none
  else if allocated then some { count := initialCount, maxCount := maxCount }
  else none

/-- The count and the bound of a semaphore. -/
def SyncSystem.tokens (system : SyncSystem) (sem : Nat) : Nat × Nat :=
  ((system.semaphores sem).count, (system.semaphores sem).maxCount)

/-- The event of a take of `sem` that returned one. -/
def Event.isTake (sem : Nat) : Event → Bool
  | .returned _ (.semaphoreTake object _) result => object = sem ∧ result = 1
  | _ => false

/-- The event of a give of `sem`. -/
def Event.isGive (sem : Nat) : Event → Bool
  | .returned _ (.semaphoreGive object) _ => object = sem
  | _ => false

def takesOf (sem : Nat) (events : List Event) : Nat :=
  events.countP (Event.isTake sem)

/-- The gives of a step, by a task or by an interrupt handler. -/
def givesOf (sem : Nat) (action : Action) (events : List Event) : Nat :=
  events.countP (Event.isGive sem) +
    if action = .interrupt (.semaphoreGiveFromIsr sem) then 1 else 0

/-- A change that leaves the counts of all semaphores alone. -/
def TokensKept (before after : SyncSystem) : Prop :=
  ∀ sem, after.tokens sem = before.tokens sem

namespace TokensKept

variable {first second third : SyncSystem}

@[refl]
theorem refl (system : SyncSystem) : TokensKept system system := fun _ => rfl

theorem trans (left : TokensKept first second) (right : TokensKept second third) :
    TokensKept first third := fun sem => (right sem).trans (left sem)

/-- Only the semaphores matter. -/
theorem of_eq (same : second.semaphores = first.semaphores) : TokensKept first second :=
  fun sem => by rw [SyncSystem.tokens, SyncSystem.tokens, same]

variable (system : SyncSystem)

theorem modifyTask (task : TaskId) (change : Tcb → Tcb) :
    TokensKept system (system.modifyTask task change) := .of_eq rfl

theorem modifyQueue (queue : Nat) (change : Queue → Queue) :
    TokensKept system (system.modifyQueue queue change) := .of_eq rfl

theorem modifyMutex (mutex : Nat) (change : Mutex → Mutex) :
    TokensKept system (system.modifyMutex mutex change) := .of_eq rfl

theorem modifyRwlock (rwlock : Nat) (change : Rwlock → Rwlock) :
    TokensKept system (system.modifyRwlock rwlock change) := .of_eq rfl

theorem setHead (list : WaitList) (head : Option TaskId) :
    TokensKept system (system.setHead list head) := by
  cases list with
  | semaphore object =>
      intro sem
      unfold SyncSystem.tokens SyncSystem.setHead SyncSystem.modifySemaphore
      by_cases same : sem = object
      · subst same
        simp
      · simp [Function.update_of_ne same]
  | _ => exact .of_eq rfl

theorem blockTask (list : WaitList) (task : TaskId) :
    TokensKept system (blockTask system list task) :=
  (TokensKept.modifyTask _ _ _).trans (.setHead _ _ _)

theorem unblockTask (list : WaitList) : TokensKept system (unblockTask system list) := by
  unfold Rtos.unblockTask
  split
  · exact .refl system
  · exact (TokensKept.setHead _ _ _).trans (.modifyTask _ _ _)

theorem mutexPriorityInherit (mutex : Nat) (blocker : TaskId) :
    TokensKept system (mutexPriorityInherit system mutex blocker) := by
  unfold Rtos.mutexPriorityInherit
  split
  · exact .refl system
  · dsimp only
    split <;> exact .of_eq rfl

theorem mutexRelease (mutex : Nat) : TokensKept system (mutexRelease system mutex) := by
  unfold Rtos.mutexRelease Rtos.mutexPriorityRestore
  split
  · exact .of_eq rfl
  · dsimp only
    split <;> exact .of_eq rfl

theorem mutexUnlock (mutex : Nat) (task : TaskId) :
    TokensKept system (mutexUnlock system mutex task).1 := by
  unfold Rtos.mutexUnlock
  split
  · exact .refl system
  · dsimp only
    have released : TokensKept system
        (Rtos.mutexRelease (Rtos.mutexDecrement system mutex) mutex) :=
      (TokensKept.modifyMutex _ _ _).trans (.mutexRelease _ _)
    split
    · exact .of_eq rfl
    · split
      · exact released
      · exact released.trans ((TokensKept.setHead _ _ _).trans (.of_eq rfl))

theorem rwlockUnblockOneWriter (rwlock : Nat) :
    TokensKept system (rwlockUnblockOneWriter system rwlock) := by
  unfold Rtos.rwlockUnblockOneWriter
  split
  · exact .refl system
  · exact (TokensKept.unblockTask _ _).trans (.modifyRwlock _ _ _)

theorem rwlockReadUnlock (rwlock : Nat) :
    TokensKept system (rwlockReadUnlock system rwlock) := by
  unfold Rtos.rwlockReadUnlock
  dsimp only
  split
  · exact (TokensKept.modifyRwlock _ _ _).trans (.rwlockUnblockOneWriter _ _)
  · exact .modifyRwlock _ _ _

variable {system} {after : SyncSystem} {fuel : Nat}

theorem rwlockUnblockAllReaders {rwlock : Nat}
    (woken : rwlockUnblockAllReaders fuel system rwlock = some after) :
    TokensKept system after := by
  apply rwlockUnblockAllReaders_keeps _ (TokensKept.refl system) woken
  intro current kept
  exact kept.trans ((TokensKept.unblockTask _ _).trans (.modifyRwlock _ _ _))

theorem rwlockWriteUnlock {rwlock : Nat}
    (unlocked : rwlockWriteUnlock fuel system rwlock = some after) :
    TokensKept system after := by
  unfold Rtos.rwlockWriteUnlock at unlocked
  dsimp only at unlocked
  split at unlocked
  · obtain rfl := Option.some.inj unlocked
    exact (TokensKept.modifyRwlock _ _ _).trans (.rwlockUnblockOneWriter _ _)
  · exact (TokensKept.modifyRwlock _ _ _).trans (.rwlockUnblockAllReaders unlocked)

theorem readyAll {cursor : Option TaskId} (woken : readyAll fuel system cursor = some after) :
    TokensKept system after := by
  apply readyAll_keeps _ (TokensKept.refl system) woken
  intro current task kept
  exact kept.trans (.modifyTask _ _ _)

theorem queueFlush {queue flushed : Nat}
    (done : queueFlush fuel system queue = some (flushed, after)) : TokensKept system after := by
  unfold Rtos.queueFlush at done
  dsimp only at done
  split at done
  · simp at done
  · rename_i woken
    obtain ⟨rfl, rfl⟩ : _ = flushed ∧ _ = after := by simpa using done
    exact ((TokensKept.modifyQueue _ _ _).trans (.readyAll woken)).trans (.setHead _ _ _)

theorem removeFromList {list : WaitList} {task : TaskId} {clearsTask : Bool}
    (removed : removeFromList fuel system list task clearsTask = some after) :
    TokensKept system after := by
  apply removeFromList_keeps _ _ (TokensKept.refl system) removed
  · intro previous
    cases previous with
    | none => exact .setHead _ _ _
    | some previous => exact .modifyTask _ _ _
  · intro current kept
    exact kept.trans (.modifyTask _ _ _)

end TokensKept

/-- What a step does to the tokens of a semaphore. -/
inductive TokenStep (sem : Nat) (before after : SyncSystem) (action : Action)
    (events : List Event) : Prop
  | keep (same : after.tokens sem = before.tokens sem) (noTake : takesOf sem events = 0)
  | take (task : TaskId) (timeout : Nat) (available : (before.tokens sem).1 ≠ 0)
      (taken : after.tokens sem = ((before.tokens sem).1 - 1, (before.tokens sem).2))
      (returned : events = [.returned task (.semaphoreTake sem timeout) 1])
  | give (given : after.tokens sem =
        (if (before.tokens sem).1 < (before.tokens sem).2 then (before.tokens sem).1 + 1
          else (before.tokens sem).1, (before.tokens sem).2))
      (oneGive : givesOf sem action events = 1)
      (noTake : ∀ task timeout result,
        Event.returned task (.semaphoreTake sem timeout) result ∉ events)

theorem TokenStep.of_kept {sem : Nat} {before after : SyncSystem} {action : Action}
    {events : List Event} (kept : TokensKept before after) (noTake : takesOf sem events = 0) :
    TokenStep sem before after action events := .keep (kept sem) noTake

theorem TokenStep.congr_before {sem : Nat} {before other after : SyncSystem} {action : Action}
    {events : List Event} (step : TokenStep sem before after action events)
    (kept : TokensKept other before) : TokenStep sem other after action events := by
  have same := kept sem
  cases step with
  | keep tokens noTake => exact .keep (tokens.trans same) noTake
  | take task timeout available taken returned =>
      rw [same] at available taken
      exact .take task timeout available taken returned
  | give given oneGive noTake =>
      rw [same] at given
      exact .give given oneGive noTake

/-- `semaphore_give` raises the count of its semaphore up to the bound. -/
theorem semaphoreGive_tokens (system : SyncSystem) (object sem : Nat) :
    (semaphoreGive system object).tokens sem =
      if sem = object then
        (if (system.tokens sem).1 < (system.tokens sem).2 then (system.tokens sem).1 + 1
          else (system.tokens sem).1, (system.tokens sem).2)
      else system.tokens sem := by
  have unblocked := TokensKept.unblockTask (system.modifySemaphore object fun value =>
    { value with count :=
        if value.count < value.maxCount then value.count + 1 else value.count })
    (.semaphore object) sem
  rw [semaphoreGive, semaphoreUnblockTask, unblocked]
  unfold SyncSystem.tokens SyncSystem.modifySemaphore
  split
  case isTrue same =>
    subst same
    simp
  case isFalse different => simp [Function.update_of_ne different]

section Steps

variable {sem fuel start : Nat} {system before after : SyncSystem} {task : TaskId} {call : Call}
  {action : Action} {events : List Event}

/-- No event of the list is a return. -/
theorem takesOf_eq_zero
    (silent : ∀ task timeout, Event.returned task (.semaphoreTake sem timeout) 1 ∉ events) :
    takesOf sem events = 0 := by
  rw [takesOf, List.countP_eq_zero]
  intro event isMember
  cases event with
  | returned task call result =>
      cases call with
      | semaphoreTake object timeout =>
          simp only [Event.isTake, decide_eq_true_eq]
          rintro ⟨rfl, rfl⟩
          exact silent task timeout isMember
      | _ => simp [Event.isTake]
  | _ => simp [Event.isTake]

/-- What the parts of the wait loops do to the tokens. -/
theorem waitLoop_tokens {loop : WaitLoop} (found : waitLoop task call = some loop)
    (system : SyncSystem) :
    TokensKept system (loop.giveUp system) ∧ TokensKept system (loop.beforeBlock system) ∧
      ((∃ object timeout, call = .semaphoreTake object timeout) ∨
        (TokensKept system (loop.acquire system).1 ∧
          ∀ object timeout, call ≠ .semaphoreTake object timeout)) := by
  cases call <;> simp only [waitLoop, Option.some.injEq, reduceCtorEq] at found <;> subst found
  case semaphoreTake object timeout =>
    exact ⟨.refl _, .refl _, .inl ⟨object, timeout, rfl⟩⟩
  case queueSend | queueReceive =>
    exact ⟨.refl _, .refl _,
      .inr ⟨(TokensKept.modifyQueue _ _ _).trans (.unblockTask _ _), by simp⟩⟩
  case mutexLock =>
    exact ⟨.refl _, .mutexPriorityInherit _ _ _, .inr ⟨.of_eq rfl, by simp⟩⟩
  case rwlockReadLock =>
    exact ⟨.refl _, .refl _, .inr ⟨.of_eq rfl, by simp⟩⟩
  case rwlockWriteLock =>
    exact ⟨.of_eq rfl, .refl _, .inr ⟨.of_eq rfl, by simp⟩⟩

/-- The section after the wait loop of `semaphore_take`. -/
theorem acquire_tokens {object timeout : Nat} {loop : WaitLoop}
    (found : waitLoop task (.semaphoreTake object timeout) = some loop)
    (free : loop.busy system = false) :
    (system.tokens object).1 ≠ 0 ∧ (loop.acquire system).2 = [] ∧
      ∀ sem, (loop.acquire system).1.tokens sem =
        if sem = object then ((system.tokens sem).1 - 1, (system.tokens sem).2)
        else system.tokens sem := by
  obtain rfl : _ = loop := by simpa [waitLoop] using found
  refine ⟨by simpa [SyncSystem.tokens] using free, rfl, fun sem => ?_⟩
  unfold SyncSystem.tokens SyncSystem.modifySemaphore
  split
  case isTrue same =>
    subst same
    simp
  case isFalse different => simp [Function.update_of_ne different]

theorem testLoop_tokenStep {loop : WaitLoop} (found : waitLoop task call = some loop)
    (tested : testLoop system task call start loop = (after, events)) :
    TokenStep sem system after action events := by
  obtain ⟨giveUp, beforeBlock, acquire⟩ := waitLoop_tokens found system
  rcases testLoop_cases tested with
    ⟨_, _, rfl, rfl⟩ | ⟨_, _, rfl, rfl⟩ | ⟨free, rfl, rfl⟩
  · exact .of_kept giveUp (takesOf_eq_zero (by simp))
  · exact .of_kept (beforeBlock.trans (.blockTask _ _ _)) rfl
  · rcases acquire with ⟨object, timeout, rfl⟩ | ⟨kept, notTake⟩
    · obtain ⟨available, silent, taken⟩ := acquire_tokens found free
      rw [silent]
      by_cases same : sem = object
      · subst same
        exact .take task timeout available ((taken sem).trans (if_pos rfl)) rfl
      · exact .keep ((taken sem).trans (if_neg same))
          (takesOf_eq_zero (by simp [same]))
    · refine .of_kept kept (takesOf_eq_zero fun taker timeout isMember => ?_)
      rcases List.mem_cons.mp isMember with isFirst | isLater
      · exact notTake sem timeout (Event.returned.inj isFirst).2.1.symm
      · exact waitLoop_returned found system isLater

/-- The first critical section of a call. -/
theorem enterCall_tokenStep
    (entered : enterCall fuel system task call start = some (after, events)) :
    TokenStep sem system after (.run task) events := by
  have left : ∀ {changed : SyncSystem} {result : Int} {others : List Event},
      finish changed task call result others = (after, events) → TokensKept system changed →
      (∀ timeout, call ≠ .semaphoreTake sem timeout) →
      (∀ taker timeout, Event.returned taker (.semaphoreTake sem timeout) 1 ∉ others) →
      TokenStep sem system after (.run task) events := by
    intro changed result others finished kept notTake silent
    obtain ⟨rfl, rfl⟩ := Prod.mk.inj finished
    refine .of_kept kept (takesOf_eq_zero fun taker timeout isMember => ?_)
    rcases List.mem_cons.mp isMember with isFirst | isLater
    · exact notTake timeout (Event.returned.inj isFirst).2.1.symm
    · exact silent taker timeout isLater
  cases call with
  | semaphoreTake | queueSend | queueReceive | rwlockReadLock =>
      exact testLoop_tokenStep rfl (Option.some.inj entered)
  | rwlockWriteLock rwlock timeout =>
      exact (testLoop_tokenStep rfl (Option.some.inj entered)).congr_before
        (.modifyRwlock _ _ _)
  | semaphoreGive object =>
      obtain ⟨rfl, rfl⟩ := Prod.mk.inj (Option.some.inj entered)
      have given := semaphoreGive_tokens system object sem
      by_cases same : sem = object
      · subst same
        rw [if_pos rfl] at given
        exact .give given (by simp [givesOf, Event.isGive]) (by simp)
      · rw [if_neg same] at given
        exact .keep given (takesOf_eq_zero (by simp))
  | queueReset =>
      exact left (Option.some.inj entered) (.modifyQueue _ _ _) (by simp) (by simp)
  | queueFlush =>
      obtain ⟨⟨flushed, changed⟩, flush, finished⟩ := Option.map_eq_some_iff.mp entered
      exact left finished (.queueFlush flush) (by simp) (by simp)
  | rwlockReadUnlock =>
      exact left (Option.some.inj entered) (.rwlockReadUnlock _ _) (by simp) (by simp)
  | rwlockWriteUnlock =>
      obtain ⟨changed, unlocked, finished⟩ := Option.map_eq_some_iff.mp entered
      exact left finished (.rwlockWriteUnlock unlocked) (by simp) (by simp)
  | mutexUnlock mutex =>
      exact left (Option.some.inj entered) (.mutexUnlock _ _ _) (by simp)
        fun _ _ => mutexUnlock_returned mutex
  | mutexLock mutex timeout =>
      rw [enterCall] at entered
      split at entered
      · exact left (Option.some.inj entered) (.of_eq rfl) (by simp) (by simp)
      · split at entered
        · exact left (Option.some.inj entered) (.modifyMutex _ _ _) (by simp) (by simp)
        · exact testLoop_tokenStep rfl (Option.some.inj entered)

theorem runIsr_tokenStep (call : IsrCall) :
    TokenStep sem system (runIsr system call).1 (.interrupt call) (runIsr system call).2 := by
  have noTake : takesOf sem (runIsr system call).2 = 0 := by
    rcases runIsr_events system call with silent | ⟨data, delivered⟩
    · rw [silent]
      rfl
    · rw [delivered]
      rfl
  cases call with
  | semaphoreGiveFromIsr object =>
      have given := semaphoreGive_tokens system object sem
      by_cases same : sem = object
      · subst same
        rw [if_pos rfl] at given
        exact .give given (by simp [givesOf, runIsr]) (by simp [runIsr])
      · rw [if_neg same] at given
        exact .keep given noTake
  | queueSendFromIsr queue data =>
      refine .of_kept ?_ noTake
      unfold runIsr
      dsimp only
      split
      · exact .refl _
      · exact (TokensKept.modifyQueue _ _ _).trans (.unblockTask _ _)
  | queueReceiveFromIsr queue =>
      refine .of_kept ?_ noTake
      unfold runIsr
      dsimp only
      split
      · exact .refl _
      · exact (TokensKept.modifyQueue _ _ _).trans (.unblockTask _ _)

/-- Every step keeps the tokens of a semaphore, or takes one, or gives one. -/
theorem exec_tokenStep (stepped : exec fuel before action = some (after, events)) (sem : Nat) :
    TokenStep sem before after action events := by
  cases exec_cases stepped with
  | refused task call _ _ => exact .of_kept (.of_eq rfl) (takesOf_eq_zero (by simp))
  | invoke task call _ _ => exact .of_kept (.of_eq rfl) rfl
  | interrupt call => exact runIsr_tokenStep call
  | tick _ => exact .of_kept (.of_eq rfl) rfl
  | run task ran =>
      have dispatched : TokensKept before (dispatch before task) := .of_eq rfl
      cases runTask_cases ran with
      | entering call start _ entered =>
        exact (enterCall_tokenStep entered).congr_before dispatched
      | delaying call start _ _ => exact .of_kept (.of_eq rfl) rfl
      | sleeping call start _ _ => exact .of_kept (.of_eq rfl) rfl
      | retrying call start _ found tested =>
        exact (testLoop_tokenStep found tested).congr_before dispatched
      | @expiring removed _ call start _ found removal =>
        have gaveUp := (waitLoop_tokens found removed).1
        exact .of_kept ((dispatched.trans (.removeFromList removal)).trans gaveUp)
          (takesOf_eq_zero (by simp))

end Steps

/-- A system with the takes that returned one and the gives so far. -/
structure Tallied where
  system : SyncSystem
  takes : Nat
  gives : Nat

def Tallied.Step (sem : Nat) (before after : Tallied) : Prop :=
  ∃ fuel action events, exec fuel before.system action = some (after.system, events) ∧
    after.takes = before.takes + takesOf sem events ∧
    after.gives = before.gives + givesOf sem action events

/-- The states of all runs, with the counts of takes and gives of `sem`. -/
def Tallied.Reachable (sem : Nat) (initial : SyncSystem) (current : Tallied) : Prop :=
  ReflTransGen (Tallied.Step sem) ⟨initial, 0, 0⟩ current

/-- Execute a list of actions and count the takes and gives of `sem`. -/
def Tallied.execAll (sem fuel : Nat) : List Action → Tallied → Option Tallied
  | [], current => some current
  | action :: rest, current =>
      (exec fuel current.system action).bind fun (system, events) =>
        Tallied.execAll sem fuel rest
          { system := system
            takes := current.takes + takesOf sem events
            gives := current.gives + givesOf sem action events }

theorem Tallied.execAll_run {sem fuel : Nat} {actions : List Action} {first last : Tallied}
    (executed : Tallied.execAll sem fuel actions first = some last) :
    ReflTransGen (Tallied.Step sem) first last := by
  induction actions generalizing first with
  | nil =>
      obtain rfl : first = last := by simpa [execAll] using executed
      exact .refl
  | cons action rest ih =>
      obtain ⟨⟨system, events⟩, stepped, remaining⟩ := Option.bind_eq_some_iff.mp executed
      exact .head ⟨fuel, action, events, stepped, rfl, rfl⟩ (ih remaining)

/-- The count never exceeds the bound, and every token came from the initial
count or from a give. -/
structure TokenInvariant (sem maxCount initialCount : Nat) (current : Tallied) : Prop where
  bound : (current.system.tokens sem).2 = maxCount
  below : (current.system.tokens sem).1 ≤ maxCount
  conserved : (current.system.tokens sem).1 + current.takes ≤ initialCount + current.gives

theorem TokenInvariant.step {sem maxCount initialCount : Nat} {before after : Tallied}
    (invariant : TokenInvariant sem maxCount initialCount before)
    (step : Tallied.Step sem before after) :
    TokenInvariant sem maxCount initialCount after := by
  obtain ⟨fuel, action, events, stepped, takes, gives⟩ := step
  obtain ⟨bound, below, conserved⟩ := invariant
  cases exec_tokenStep stepped sem with
  | keep same noTake =>
      rw [← same] at bound below conserved
      exact ⟨bound, below, by omega⟩
  | take task timeout available taken returned =>
      have oneTake : takesOf sem events = 1 := by simp [returned, takesOf, Event.isTake]
      exact ⟨by rw [taken]; exact bound, by rw [taken]; omega, by rw [taken]; omega⟩
  | give given oneGive noTake =>
      have zeroTakes : takesOf sem events = 0 :=
        takesOf_eq_zero fun task timeout => noTake task timeout 1
      rw [bound] at given
      refine ⟨by rw [given], ?_, ?_⟩
      · rw [given]
        dsimp only
        split <;> omega
      · rw [given]
        dsimp only
        split <;> omega

theorem tokenInvariant_of_reachable {sem maxCount initialCount : Nat} {initial : SyncSystem}
    {current : Tallied}
    (created : semaphoreCreateCounting maxCount initialCount true =
      some (initial.semaphores sem))
    (run : Tallied.Reachable sem initial current) :
    TokenInvariant sem maxCount initialCount current := by
  induction run with
  | refl =>
      unfold semaphoreCreateCounting at created
      split at created
      case isTrue => simp at created
      case isFalse valid =>
        have isSemaphore : { count := initialCount, maxCount := maxCount } =
            initial.semaphores sem := by simpa using created
        have isTokens : initial.tokens sem = (initialCount, maxCount) := by
          rw [SyncSystem.tokens, ← isSemaphore]
        refine ⟨by rw [isTokens], ?_, ?_⟩
        · rw [isTokens]
          dsimp only
          omega
        · rw [isTokens]
  | tail _ step ih => exact ih.step step

/-- Tokens are conserved: the count stays within its bound, the takes that
returned one are covered by the initial count and the gives, and a take that
failed leaves the count as it was. -/
theorem semaphore_tokens {sem maxCount initialCount : Nat} {initial : SyncSystem}
    {current : Tallied}
    (created : semaphoreCreateCounting maxCount initialCount true =
      some (initial.semaphores sem))
    (run : Tallied.Reachable sem initial current) :
    (current.system.semaphores sem).count ≤ maxCount ∧
    current.takes ≤ initialCount + current.gives ∧
    ∀ fuel action after events,
      exec fuel current.system action = some (after, events) →
      ∀ task timeout result,
        Event.returned task (.semaphoreTake sem timeout) result ∈ events →
        result = 0 ∨ result = -2 →
        (after.semaphores sem).count = (current.system.semaphores sem).count := by
  have invariant := tokenInvariant_of_reachable created run
  refine ⟨invariant.below, ?_, ?_⟩
  · have conserved := invariant.conserved
    omega
  · intro fuel action after events stepped task timeout result returned failed
    cases exec_tokenStep stepped sem with
    | keep same noTake => exact congrArg Prod.fst same
    | take taker wait available taken isReturned =>
        rw [isReturned] at returned
        obtain ⟨_, _, rfl⟩ : task = taker ∧ timeout = wait ∧ result = 1 := by
          simpa using returned
        simp at failed
    | give given oneGive noTake => exact absurd returned (noTake task timeout result)

theorem semaphore_tokens_given_and_taken :
    ∃ current, Tallied.Reachable 0 twoTasks current ∧ current.takes = 1 ∧ current.gives = 1 ∧
      (current.system.semaphores 0).count ≤ 1 := by
  have executed : (Tallied.execAll 0 4
      [.invoke 2 (.semaphoreTake 0 5), .run 2, .interrupt (.semaphoreGiveFromIsr 0), .run 2,
        .run 2, .run 2] ⟨twoTasks, 0, 0⟩).map (fun current => (current.takes, current.gives)) =
      some (1, 1) := by decide +kernel
  obtain ⟨current, ran, counted⟩ := Option.map_eq_some_iff.mp executed
  obtain ⟨takes, gives⟩ := Prod.mk.inj counted
  have run : Tallied.Reachable 0 twoTasks current := Tallied.execAll_run ran
  have created : semaphoreCreateCounting 1 0 true = some (twoTasks.semaphores 0) := rfl
  exact ⟨current, run, takes, gives, (semaphore_tokens created run).1⟩

end Rtos

end MiniIotRobotEdge

import Mathlib.Logic.Function.Basic

/-!
# Priority inheritance with one saved priority

Tasks own mutexes and wait for them.  A task that blocks raises the owner to its own priority
and saves the old one with the mutex, and a release restores what is saved; zero stands for
nothing saved.  The lemmas say which conditions keep every owner at least as urgent as the
tasks that wait, and the saved priority equal to the one with which the mutex was acquired.
-/

namespace MiniIotRobotEdge

namespace PriorityInheritance

structure State (Task Mutex : Type*) where
  priority : Task → Nat
  saved : Mutex → Nat
  owner : Mutex → Option Task

variable {Task Mutex : Type*} [DecidableEq Task] [DecidableEq Mutex]

/-- Raise the owner of a mutex to the priority of a task that blocks on it. -/
def inherit (state : State Task Mutex) (mutex : Mutex) (blocker : Task) : State Task Mutex :=
  match state.owner mutex with
  | none => state
  | some owner =>
      if state.priority owner < state.priority blocker then
        { state with
          priority := Function.update state.priority owner (state.priority blocker)
          saved := Function.update state.saved mutex (state.priority owner) }
      else state

/-- The priority that the owner of a mutex gets back. -/
def restored (state : State Task Mutex) (mutex : Mutex) (owner : Task) : Nat :=
  if 0 < state.saved mutex then state.saved mutex else state.priority owner

/-- The owner of a mutex gets its priority back, and somebody else may get the mutex. -/
def release (state : State Task Mutex) (mutex : Mutex) (owner : Task) (next : Option Task) :
    State Task Mutex where
  priority := Function.update state.priority owner (restored state mutex owner)
  saved := Function.update state.saved mutex 0
  owner := Function.update state.owner mutex next

/-- A task gets a free mutex. -/
def acquire (state : State Task Mutex) (mutex : Mutex) (task : Task) : State Task Mutex :=
  { state with owner := Function.update state.owner mutex (some task) }

/-- No owner is less urgent than a task that waits for its mutex. -/
def Dominates (state : State Task Mutex) (waits : Task → Mutex → Prop) : Prop :=
  ∀ mutex owner task, state.owner mutex = some owner → waits task mutex →
    state.priority task ≤ state.priority owner

/-- What is saved is the priority with which the mutex was acquired. -/
structure Saves (state : State Task Mutex) (base : Mutex → Nat) : Prop where
  base : ∀ mutex, state.saved mutex = 0 ∨ state.saved mutex = base mutex
  unowned : ∀ mutex, state.owner mutex = none → state.saved mutex = 0

variable {state : State Task Mutex} {waits waitsAfter : Task → Mutex → Prop} {base : Mutex → Nat}
  {mutex : Mutex} {task owner : Task} {next : Option Task}

theorem inherit_owner : (inherit state mutex task).owner = state.owner := by
  unfold inherit
  split
  · rfl
  · split <;> rfl

theorem inherit_raised (owned : state.owner mutex = some owner)
    (stronger : state.priority owner < state.priority task) :
    inherit state mutex task =
      { state with
        priority := Function.update state.priority owner (state.priority task)
        saved := Function.update state.saved mutex (state.priority owner) } := by
  rw [inherit, owned]
  exact if_pos stronger

theorem inherit_weaker (weaker : ∀ owner, state.owner mutex = some owner →
    state.priority task ≤ state.priority owner) : inherit state mutex task = state := by
  unfold inherit
  split
  · rfl
  · rename_i owner owned
    exact if_neg (Nat.not_lt.mpr (weaker owner owned))

/-- A task that blocks raises the owner enough; the owner must not wait for somebody weaker. -/
theorem Dominates.inherit (dominates : Dominates state waits)
    (chained : ∀ owner other holder, state.owner mutex = some owner →
      state.priority owner < state.priority task → waits owner other →
        state.owner other = some holder → state.priority task ≤ state.priority holder)
    (blocks : ∀ waiter other, waitsAfter waiter other →
      waits waiter other ∨ waiter = task ∧ other = mutex) :
    Dominates (inherit state mutex task) waitsAfter := by
  intro other holder waiter owned waiting
  rw [inherit_owner] at owned
  by_cases raises : ∃ owner, state.owner mutex = some owner ∧
      state.priority owner < state.priority task
  · obtain ⟨owner, isOwner, stronger⟩ := raises
    rw [inherit_raised isOwner stronger]
    dsimp only
    have taskNe : task ≠ owner := by
      rintro rfl
      exact Nat.lt_irrefl _ stronger
    by_cases isRaised : holder = owner
    · subst isRaised
      rw [Function.update_self]
      by_cases same : waiter = holder
      · exact Nat.le_of_eq (by rw [same, Function.update_self])
      · rw [Function.update_of_ne same]
        obtain waited | ⟨rfl, _⟩ := blocks waiter other waiting
        · exact Nat.le_trans (dominates other holder waiter owned waited) (Nat.le_of_lt stronger)
        · exact Nat.le_refl _
    · rw [Function.update_of_ne isRaised]
      obtain waited | ⟨rfl, rfl⟩ := blocks waiter other waiting
      · by_cases same : waiter = owner
        · subst same
          rw [Function.update_self]
          exact chained waiter other holder isOwner stronger waited owned
        · rw [Function.update_of_ne same]
          exact dominates other holder waiter owned waited
      · exact absurd (Option.some.inj (owned.symm.trans isOwner)) isRaised
  · have weaker : ∀ owner, state.owner mutex = some owner →
        state.priority task ≤ state.priority owner :=
      fun owner isOwner => Nat.not_lt.mp fun stronger => raises ⟨owner, isOwner, stronger⟩
    rw [inherit_weaker weaker]
    obtain waited | ⟨rfl, rfl⟩ := blocks waiter other waiting
    · exact dominates other holder waiter owned waited
    · exact weaker holder owned

/-- An owner that is raised must still have the priority with which it acquired the mutex. -/
theorem Saves.inherit (saves : Saves state base)
    (first : ∀ owner, state.owner mutex = some owner →
      state.priority owner < state.priority task → state.priority owner = base mutex) :
    Saves (inherit state mutex task) base := by
  by_cases raises : ∃ owner, state.owner mutex = some owner ∧
      state.priority owner < state.priority task
  · obtain ⟨owner, isOwner, stronger⟩ := raises
    rw [inherit_raised isOwner stronger]
    refine ⟨fun other => ?_, fun other unowned => ?_⟩
    · dsimp only
      by_cases same : other = mutex
      · subst same
        refine .inr ?_
        rw [Function.update_self]
        exact first owner isOwner stronger
      · rw [Function.update_of_ne same]
        exact saves.base other
    · have differs : other ≠ mutex := by
        rintro rfl
        exact absurd (unowned.symm.trans isOwner) (by simp)
      dsimp only
      rw [Function.update_of_ne differs]
      exact saves.unowned other unowned
  · rw [inherit_weaker fun owner isOwner =>
      Nat.not_lt.mp fun stronger => raises ⟨owner, isOwner, stronger⟩]
    exact saves

omit [DecidableEq Task] [DecidableEq Mutex] in
/-- A release gives the owner the priority with which it acquired the mutex. -/
theorem Saves.restored_eq (saves : Saves state base)
    (unsaved : state.saved mutex = 0 → state.priority owner = base mutex) :
    restored state mutex owner = base mutex := by
  unfold restored
  split
  case isTrue saved => exact (saves.base mutex).resolve_left (Nat.ne_of_gt saved)
  case isFalse none => exact unsaved (by omega)

section Fields

variable {other : Mutex} {waiter : Task}

theorem release_priority_self :
    (release state mutex owner next).priority owner = restored state mutex owner :=
  Function.update_self ..

theorem release_priority_of_ne (differs : waiter ≠ owner) :
    (release state mutex owner next).priority waiter = state.priority waiter :=
  Function.update_of_ne differs ..

theorem release_saved_self : (release state mutex owner next).saved mutex = 0 :=
  Function.update_self ..

theorem release_saved_of_ne (differs : other ≠ mutex) :
    (release state mutex owner next).saved other = state.saved other :=
  Function.update_of_ne differs ..

theorem release_owner_self : (release state mutex owner next).owner mutex = next :=
  Function.update_self ..

theorem release_owner_of_ne (differs : other ≠ mutex) :
    (release state mutex owner next).owner other = state.owner other :=
  Function.update_of_ne differs ..

omit [DecidableEq Task] in
theorem acquire_owner_self : (acquire state mutex task).owner mutex = some task :=
  Function.update_self ..

omit [DecidableEq Task] in
theorem acquire_owner_of_ne (differs : other ≠ mutex) :
    (acquire state mutex task).owner other = state.owner other :=
  Function.update_of_ne differs ..

end Fields

/-- A hand-off is a release whose mutex the heir acquires at once. -/
theorem acquire_release (heir : Task) :
    acquire (release state mutex owner none) mutex heir =
      release state mutex owner (some heir) := by
  rw [acquire, release, release, State.mk.injEq]
  exact ⟨rfl, rfl, Function.update_idem ..⟩

theorem Saves.release (saves : Saves state base) {baseAfter : Mutex → Nat}
    (kept : ∀ other, other ≠ mutex → baseAfter other = base other) :
    Saves (release state mutex owner next) baseAfter := by
  refine ⟨fun other => ?_, fun other unowned => ?_⟩
  · by_cases same : other = mutex
    · exact .inl (same ▸ release_saved_self)
    · rw [release_saved_of_ne same, kept other same]
      exact saves.base other
  · by_cases same : other = mutex
    · exact same ▸ release_saved_self
    · rw [release_saved_of_ne same]
      exact saves.unowned other ((release_owner_of_ne same).symm.trans unowned)

/-- The old owner must stay urgent enough for its other mutexes, and the new one must be
urgent enough for this mutex. -/
theorem Dominates.release (dominates : Dominates state waits)
    (awake : ∀ other, ¬waits owner other)
    (others : ∀ other waiter, other ≠ mutex → state.owner other = some owner →
      waits waiter other → state.priority waiter ≤ restored state mutex owner)
    (handedOff : ∀ heir waiter, next = some heir → waits waiter mutex →
      state.priority waiter ≤ (release state mutex owner next).priority heir)
    (fewer : ∀ waiter other, waitsAfter waiter other → waits waiter other) :
    Dominates (release state mutex owner next) waitsAfter := by
  intro other holder waiter owned waiting
  have waited := fewer waiter other waiting
  have waiterNe : waiter ≠ owner := by
    rintro rfl
    exact awake other waited
  rw [release_priority_of_ne waiterNe]
  by_cases same : other = mutex
  · subst same
    exact handedOff holder waiter (release_owner_self.symm.trans owned) waited
  · rw [release_owner_of_ne same] at owned
    by_cases isOwner : holder = owner
    · subst isOwner
      rw [release_priority_self]
      exact others other waiter same owned waited
    · rw [release_priority_of_ne isOwner]
      exact dominates other holder waiter owned waited

/-- Who takes a free mutex must be urgent enough for the tasks that wait for it. -/
theorem Dominates.acquire (dominates : Dominates state waits)
    (urgent : ∀ waiter, waiter ≠ task → waits waiter mutex →
      state.priority waiter ≤ state.priority task)
    (fewer : ∀ waiter other, waitsAfter waiter other → waits waiter other) :
    Dominates (acquire state mutex task) waitsAfter := by
  intro other holder waiter owned waiting
  have waited := fewer waiter other waiting
  change state.priority waiter ≤ state.priority holder
  by_cases same : other = mutex
  · subst same
    obtain rfl : task = holder := Option.some.inj (acquire_owner_self.symm.trans owned)
    by_cases isTask : waiter = task
    · exact Nat.le_of_eq (congrArg state.priority isTask)
    · exact urgent waiter isTask waited
  · rw [acquire_owner_of_ne same] at owned
    exact dominates other holder waiter owned waited

omit [DecidableEq Task] in
theorem Saves.acquire (saves : Saves state base) {baseAfter : Mutex → Nat}
    (free : state.owner mutex = none)
    (kept : ∀ other, other ≠ mutex → baseAfter other = base other) :
    Saves (acquire state mutex task) baseAfter := by
  refine ⟨fun other => ?_, fun other unowned => ?_⟩
  · by_cases same : other = mutex
    · subst same
      exact .inl (saves.unowned other free)
    · rw [kept other same]
      exact saves.base other
  · have differs : other ≠ mutex := by
      rintro rfl
      exact absurd (acquire_owner_self.symm.trans unowned) (by simp)
    exact saves.unowned other ((acquire_owner_of_ne differs).symm.trans unowned)

end PriorityInheritance

end MiniIotRobotEdge

import MiniIotRobotEdge.RtosTimerCommands

/-!
# Timer chains

The model of `timer_chain_create` and `timer_chain_callback`.  The creation allocates one
node for each step, every one in front of the others, and walks the nodes to create one
timer for each.
-/

namespace MiniIotRobotEdge

namespace Rtos

open PointerChain

/-- `timer_chain_node_t`. -/
structure ChainNode where
  timer : Option TimerId
  next : Option Pointer

/-- The timers together with the nodes and `timer_chain_head`. -/
structure ChainSystem where
  timers : TimerSystem
  node : Pointer → ChainNode
  timerChainHead : Option Pointer

/-- The arguments of `timer_chain_create`. -/
structure ChainSteps where
  times : Nat → Nat
  callbacks : Nat → Option Nat
  params : Nat → Pointer
  count : Nat

/-- What `malloc_rtos` returns for the nodes, the timers and the commands. -/
structure ChainMemory where
  node : Nat → Option Pointer
  timer : Nat → Option TimerId
  cmd : Nat → Option CmdId

/-- `timer_chain_callback` for a node, with memory for the command that it sends. -/
def timerChainCallback (system : ChainSystem) (allocated : Option CmdId)
    (node : Pointer) : ChainSystem × List TimerEvent :=
  let next := (system.node node).next
  let system := { system with timerChainHead := next }
  match next.bind fun node => (system.node node).timer with
  | none => (system, [])
  | some t =>
      let (timers, events) := (timerStart system.timers allocated (some t) 0).2
      ({ system with timers := timers }, events)

/-- The first loop; its result is `prev`, or `none` where a node cannot be allocated. -/
def allocChainNodes (memory : ChainMemory) : Nat → (Pointer → ChainNode) →
    Option (Option Pointer × (Pointer → ChainNode))
  | 0, node => some (none, node)
  | i + 1, node =>
      match allocChainNodes memory i node, memory.node i with
      | some (prev, node), some address =>
          some (some address, Function.update node address { timer := none, next := prev })
      | _, _ => none

/-- The callback and the parameter of the timer of a node, with the number of steps that
remain behind it. -/
def chainTimerArgs (steps : ChainSteps) (curr : Pointer) (next : Option Pointer)
    (remaining i : Nat) : Option TimerCallback × Pointer :=
  (if next ≠ none ∨ remaining = 0 then (steps.callbacks i).map .user
    else some .timerChainCallback,
    if next ≠ none then curr else steps.params i)

/-- The second loop from a node on, with the number of steps that remain.  The flag tells
whether all timers have been created. -/
def createChainTimers (steps : ChainSteps) (memory : ChainMemory) :
    Nat → ChainSystem → Option Pointer → Bool × ChainSystem
  | 0, system, _ | _ + 1, system, none => (true, system)
  | remaining + 1, system, some curr =>
      let i := steps.count - (remaining + 1)
      let next := (system.node curr).next
      let (callback, param) := chainTimerArgs steps curr next remaining i
      match timerCreate system.timers (memory.timer i) callback param (steps.times i)
          .oneShot with
      | (none, timers) => (false, { system with timers := timers })
      | (some t, timers) =>
          createChainTimers steps memory remaining
            { system with
              timers := timers
              node := Function.update system.node curr
                { system.node curr with timer := some t } } next

/-- The cleanup after a failure, for a number of nodes. -/
def cleanupChain (memory : ChainMemory) : Nat → ChainSystem →
    ChainSystem × List TimerEvent
  | 0, system => (system, [])
  | remaining + 1, system =>
      match system.timerChainHead with
      | none => (system, [])
      | some tmp =>
          let node := system.node tmp
          let (timers, events) :=
            if node.timer ≠ none then
              timerDelete system.timers (memory.cmd remaining) node.timer
            else (system.timers, [])
          let (system, later) := cleanupChain memory remaining
            { system with timers := timers, timerChainHead := node.next }
          (system, later ++ events)

/-- `timer_chain_create`, with its result. -/
def timerChainCreate (system : ChainSystem) (steps : ChainSteps) (memory : ChainMemory) :
    Int × ChainSystem × List TimerEvent :=
  if steps.count = 0 then (0, system, [])
  else
    match allocChainNodes memory steps.count system.node with
    | none => (0, system, [])
    | some (prev, node) =>
        match createChainTimers steps memory steps.count
            { system with node := node, timerChainHead := prev } prev with
        | (false, system) => (0, cleanupChain memory steps.count system)
        | (true, system) =>
            match system.timerChainHead.bind fun head => (system.node head).timer with
            | none => (1, system, [])
            | some t =>
                let (timers, events) := (timerStart system.timers (memory.cmd 0) (some t) 0).2
                (1, { system with timers := timers }, events)

/-- Where the daemon goes on in the list. -/
def DaemonPc.cursor : DaemonPc → Option (Option TimerId)
  | .scanning _ t => some t
  | .inCallback _ _ nextTimer => some nextTimer
  | .commands | .delaying => none

theorem timerCreate_some {system after : TimerSystem} {allocated : Option TimerId}
    {callback : Option TimerCallback} {param : Pointer} {periodTicks : Nat} {type : TimerType}
    {t : TimerId}
    (created : timerCreate system allocated callback param periodTicks type = (some t, after)) :
    allocated = some t ∧ ∃ cb, callback = some cb ∧ after =
      { system with
        timer := Function.update system.timer t
          { id := system.nextTimerId
            type := type
            callback := some cb
            param := param
            periodTicks := periodTicks
            expiryTick := 0
            active := false
            next := system.timerList }
        liveTimers := insert t system.liveTimers
        timerList := some t
        nextTimerId := (system.nextTimerId + 1) % uint32Size } := by
  unfold timerCreate at created
  split at created
  · simp at created
  · simp at created
  · rename_i cb timer
    split at created
    · simp at created
    · obtain ⟨isTimer, rfl⟩ := Prod.mk.inj created
      obtain rfl := Option.some.inj isTimer
      exact ⟨rfl, cb, rfl, rfl⟩

/-- The timers of the first steps have been created, in front of the timers that were there. -/
structure ChainBuilt (steps : ChainSteps) (memory : ChainMemory) (built : Nat)
    (nodes : List TimerId) (before system : TimerSystem) : Prop where
  commands : SameCommands before system
  pc : system.pc = before.pc
  tickCount : system.tickCount = before.tickCount
  path : Path system.link system.timerList nodes
  live : ∀ t ∈ nodes, t ∈ system.liveTimers
  cursor : ∀ t, system.pc.cursor = some t →
    ∃ rest, Path system.link t rest ∧ ∀ other ∈ rest, other ∈ system.liveTimers
  user : ∀ t, (system.timer t).callback ≠ some .timerChainCallback
  created : ∀ i < built, ∃ t function, memory.timer i = some t ∧ t ∈ nodes ∧
    steps.callbacks i = some function ∧ (system.timer t).callback = some (.user function) ∧
    (system.timer t).active = false ∧ (system.timer t).type = .oneShot
  fresh : ∀ i, built ≤ i → ∀ t, memory.timer i = some t → t ∉ system.liveTimers

/-- One more timer in front of the list. -/
theorem ChainBuilt.create {steps : ChainSteps} {memory : ChainMemory} {built function : Nat}
    {nodes : List TimerId} {before system after : TimerSystem} {param : Pointer} {t : TimerId}
    (chain : ChainBuilt steps memory built nodes before system)
    (distinct : ∀ i j t, memory.timer i = some t → memory.timer j = some t → i = j)
    (isCallback : steps.callbacks built = some function)
    (made : timerCreate system (memory.timer built) (some (.user function)) param
      (steps.times built) .oneShot = (some t, after)) :
    memory.timer built = some t ∧ (after.timer t).param = param ∧
      ChainBuilt steps memory (built + 1) (t :: nodes) before after := by
  obtain ⟨isTimer, cb, isCb, rfl⟩ := timerCreate_some made
  obtain rfl := Option.some.inj isCb
  have unused : t ∉ system.liveTimers := chain.fresh built (Nat.le_refl _) t isTimer
  have notNode : t ∉ nodes := fun isNode => unused (chain.live t isNode)
  obtain ⟨timers, timersEq⟩ : ∃ timers, timers = Function.update system.timer t
    { id := system.nextTimerId
      callback := some (.user function)
      param := param
      periodTicks := steps.times built
      next := system.timerList } := ⟨_, rfl⟩
  have self : (timers t).next = system.timerList ∧ (timers t).param = param ∧
      (timers t).callback = some (.user function) ∧ (timers t).active = false ∧
      (timers t).type = .oneShot := by
    rw [timersEq, Function.update_self]
    exact ⟨rfl, rfl, rfl, rfl, rfl⟩
  have other : ∀ x, x ≠ t → timers x = system.timer x := fun x differs => by
    rw [timersEq, Function.update_of_ne differs]
  have link : (fun x => (timers x).next) = Function.update system.link t system.timerList := by
    ext x
    by_cases same : x = t
    · rw [same, self.1, Function.update_self]
    · rw [other x same, Function.update_of_ne same]
      rfl
  rw [← timersEq]
  refine ⟨isTimer, self.2.1, ?_⟩
  refine ⟨⟨chain.commands.cmd, chain.commands.live, chain.commands.head, chain.commands.tail⟩,
    chain.pc, chain.tickCount, ?_, ?_, ?_, ?_, ?_, ?_⟩
  · change Path (fun x => (timers x).next) (some t) (t :: nodes)
    refine .node ?_
    rw [link, self.1]
    exact chain.path.update_of_not_mem notNode _
  · intro x isNode
    rcases List.mem_cons.mp isNode with rfl | isNode
    · exact Finset.mem_insert_self _ _
    · exact Finset.mem_insert_of_mem (chain.live x isNode)
  · intro cursor isCursor
    obtain ⟨rest, path, alive⟩ := chain.cursor cursor isCursor
    refine ⟨rest, ?_, fun x isNode => Finset.mem_insert_of_mem (alive x isNode)⟩
    change Path (fun x => (timers x).next) cursor rest
    rw [link]
    exact path.update_of_not_mem (fun isNode => unused (alive t isNode)) _
  · intro x
    by_cases same : x = t
    · change (timers x).callback ≠ _
      rw [same, self.2.2.1]
      simp
    · change (timers x).callback ≠ _
      rw [other x same]
      exact chain.user x
  · intro i small
    rcases Nat.lt_succ_iff_lt_or_eq.mp small with earlier | rfl
    · obtain ⟨x, f, isX, isNode, isF, callback, inactive, oneShot⟩ := chain.created i earlier
      have differs : x ≠ t := fun same => notNode (same ▸ isNode)
      refine ⟨x, f, isX, List.mem_cons_of_mem _ isNode, isF, ?_⟩
      change (timers x).callback = _ ∧ (timers x).active = _ ∧ (timers x).type = _
      rw [other x differs]
      exact ⟨callback, inactive, oneShot⟩
    · refine ⟨t, function, isTimer, List.mem_cons_self, isCallback, ?_⟩
      exact self.2.2
  · intro i large x isX alive
    rcases Finset.mem_insert.mp alive with rfl | alive
    · have same := distinct i built x isX isTimer
      omega
    · exact chain.fresh i (by omega) x isX alive

/-- The nodes of a chain, one for each step. -/
theorem allocChainNodes_path {memory : ChainMemory}
    (distinct : ∀ i j address, memory.node i = some address → memory.node j = some address →
      i = j) {count : Nat} {node after : Pointer → ChainNode} {head : Option Pointer}
    (allocated : allocChainNodes memory count node = some (head, after)) :
    ∃ addresses, Path (fun address => (after address).next) head addresses ∧
      addresses.length = count ∧
      ∀ address ∈ addresses, ∃ i < count, memory.node i = some address := by
  induction count generalizing head after with
  | zero =>
      obtain ⟨rfl, rfl⟩ := Prod.mk.inj (Option.some.inj allocated)
      exact ⟨[], .null, rfl, by simp⟩
  | succ i ih =>
      rw [allocChainNodes] at allocated
      split at allocated
      · rename_i prev lower address isLower isAddress
        obtain ⟨rfl, rfl⟩ := Prod.mk.inj (Option.some.inj allocated)
        obtain ⟨addresses, path, length, known⟩ := ih isLower
        have fresh : address ∉ addresses := by
          intro isNode
          obtain ⟨j, small, isSame⟩ := known address isNode
          have same := distinct i j address isAddress isSame
          omega
        refine ⟨address :: addresses, ?_, by simp [length], ?_⟩
        · have link : (fun other => (Function.update lower address
              { timer := none, next := prev } other).next) =
                Function.update (fun other => (lower other).next) address prev := by
            ext other
            by_cases same : other = address
            · simp [same]
            · simp [same]
          rw [link]
          refine .node ?_
          rw [Function.update_self]
          exact path.update_of_not_mem fresh _
        · intro other isNode
          rcases List.mem_cons.mp isNode with rfl | isNode
          · exact ⟨i, Nat.lt_succ_self i, isAddress⟩
          · obtain ⟨j, small, isSame⟩ := known other isNode
            exact ⟨j, by omega, isSame⟩
      · simp at allocated

/-- What the second loop leaves when it has created all timers. -/
structure ChainCreated (steps : ChainSteps) (memory : ChainMemory) (remaining : Nat)
    (addresses : List Pointer) (before : TimerSystem) (system after : ChainSystem)
    (nodes : List TimerId) : Prop where
  built : ChainBuilt steps memory steps.count nodes before after.timers
  head : after.timerChainHead = system.timerChainHead
  others : ∀ address, address ∉ addresses → after.node address = system.node address
  first : ∀ address rest, addresses = address :: rest → ∃ t,
    memory.timer (steps.count - remaining) = some t ∧ (after.node address).timer = some t ∧
      (remaining = 1 → (after.timers.timer t).param = steps.params (steps.count - remaining))

theorem createChainTimers_created {steps : ChainSteps} {memory : ChainMemory}
    (distinct : ∀ i j t, memory.timer i = some t → memory.timer j = some t → i = j)
    {remaining : Nat} (le : remaining ≤ steps.count) {nodes : List TimerId}
    {before : TimerSystem} {system after : ChainSystem} {curr : Option Pointer}
    {addresses : List Pointer}
    (built : ChainBuilt steps memory (steps.count - remaining) nodes before system.timers)
    (path : Path (fun address => (system.node address).next) curr addresses)
    (length : addresses.length = remaining)
    (finished : createChainTimers steps memory remaining system curr = (true, after)) :
    ∃ nodes, ChainCreated steps memory remaining addresses before system after nodes := by
  induction remaining generalizing system curr addresses nodes with
  | zero =>
      obtain rfl := List.length_eq_zero_iff.mp length
      obtain ⟨_, rfl⟩ := Prod.mk.inj finished
      exact ⟨nodes, built, rfl, fun _ _ => rfl, by simp⟩
  | succ remaining ih =>
      cases addresses with
      | nil => simp at length
      | cons address rest =>
          obtain ⟨rfl, behind⟩ := path.tail
          have distinctNodes := List.nodup_cons.mp path.nodup
          have restLength : rest.length = remaining := by simpa using length
          have installs : (system.node address).next ≠ none ∨ remaining = 0 := by
            cases rest with
            | nil => exact .inr restLength.symm
            | cons second rest =>
                refine .inl ?_
                rw [behind.tail.1]
                simp
          rw [createChainTimers] at finished
          dsimp only [chainTimerArgs] at finished
          rw [if_pos installs] at finished
          split at finished
          · simp at finished
          · rename_i t timers made
            obtain ⟨function, isFunction⟩ : ∃ function,
                steps.callbacks (steps.count - (remaining + 1)) = some function := by
              obtain ⟨_, cb, isCb, _⟩ := timerCreate_some made
              obtain ⟨function, isFunction, _⟩ := Option.map_eq_some_iff.mp isCb
              exact ⟨function, isFunction⟩
            rw [isFunction, Option.map_some] at made
            obtain ⟨isTimer, param, next⟩ := built.create distinct isFunction made
            have count : steps.count - (remaining + 1) + 1 = steps.count - remaining := by omega
            rw [count] at next
            have link : (fun other => (Function.update system.node address
                { system.node address with timer := some t } other).next) =
                  fun other => (system.node other).next := by
              ext other
              by_cases same : other = address
              · simp [same]
              · simp [same]
            obtain ⟨nodes, created⟩ := ih (by omega) next (by rw [link]; exact behind)
              restLength finished
            refine ⟨nodes, created.built, created.head, fun other notNode => ?_, ?_⟩
            · have differs : other ≠ address := by
                rintro rfl
                exact notNode List.mem_cons_self
              rw [created.others other fun isRest => notNode (List.mem_cons_of_mem _ isRest)]
              exact Function.update_of_ne differs _ _
            · intro first others split
              obtain ⟨rfl, rfl⟩ := List.cons.inj split
              refine ⟨t, isTimer, ?_, fun isLast => ?_⟩
              · rw [created.others address distinctNodes.1]
                simp
              · obtain rfl : remaining = 0 := by omega
                obtain rfl := List.length_eq_zero_iff.mp restLength
                obtain ⟨_, rfl⟩ := Prod.mk.inj finished
                rw [if_neg (by simp [behind.eq_none])] at param
                exact param

end Rtos

end MiniIotRobotEdge

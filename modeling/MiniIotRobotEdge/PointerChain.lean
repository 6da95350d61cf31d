import Mathlib.Data.List.Nodup
import Mathlib.Logic.Function.Basic

/-!
# Null-terminated pointer chains

A singly linked list is a head pointer together with a `link` function that
gives every node its successor.  `Path` lists the nodes met before the null
pointer.  Redirecting one node keeps every finite chain finite as long as the
new successor does not lead back to the node, and creates a cycle otherwise.
-/

namespace MiniIotRobotEdge

namespace PointerChain

variable {Node : Type*}

/-- `nodes` are the nodes met from `start`, in order, before the null
pointer. -/
inductive Path (link : Node → Option Node) : Option Node → List Node → Prop
  | null : Path link none []
  | node {first : Node} {rest : List Node} :
      Path link (link first) rest → Path link (some first) (first :: rest)

/-- The chain from `start` runs into the null pointer. -/
def Terminates (link : Node → Option Node) (start : Option Node) : Prop :=
  ∃ nodes, Path link start nodes

@[simp]
theorem terminates_none (link : Node → Option Node) : Terminates link none :=
  ⟨[], .null⟩

theorem Path.unique {link : Node → Option Node} {start : Option Node}
    {first second : List Node}
    (firstPath : Path link start first) (secondPath : Path link start second) :
    first = second := by
  induction firstPath generalizing second with
  | null =>
      cases secondPath
      rfl
  | node _ ih =>
      cases secondPath with
      | node rest => rw [ih rest]

theorem Path.tail {link : Node → Option Node} {start : Option Node} {first : Node}
    {rest : List Node} (path : Path link start (first :: rest)) :
    start = some first ∧ Path link (link first) rest := by
  cases path with
  | node behind => exact ⟨rfl, behind⟩

theorem Path.eq_none {link : Node → Option Node} {start : Option Node}
    (path : Path link start []) : start = none := by
  cases path
  rfl

/-- The chain behind one of its nodes. -/
theorem Path.behind {link : Node → Option Node} {start : Option Node} {node : Node}
    {front rest : List Node} (path : Path link start (front ++ node :: rest)) :
    Path link (link node) rest := by
  induction front generalizing start with
  | nil => exact path.tail.2
  | cons first front ih => exact ih path.tail.2

theorem Path.exists_split {link : Node → Option Node} {start : Option Node}
    {nodes : List Node} (path : Path link start nodes)
    {member : Node} (memberMem : member ∈ nodes) :
    ∃ before after, nodes = before ++ member :: after ∧
      Path link (link member) after := by
  obtain ⟨before, after, rfl⟩ := List.append_of_mem memberMem
  exact ⟨before, after, rfl, path.behind⟩

/-- A chain that ends cannot meet a node twice, since links are functional. -/
theorem Path.nodup {link : Node → Option Node} {start : Option Node}
    {nodes : List Node} (path : Path link start nodes) : nodes.Nodup := by
  induction path with
  | null => exact List.nodup_nil
  | @node first rest restPath ih =>
      refine List.nodup_cons.mpr ⟨?_, ih⟩
      intro again
      obtain ⟨before, after, restEq, afterPath⟩ := restPath.exists_split again
      have sameRest : rest = after := restPath.unique afterPath
      have lengths := congrArg List.length restEq
      simp [sameRest] at lengths
      omega

section Redirect

variable [DecidableEq Node] {link : Node → Option Node}

theorem Path.update_of_not_mem {start : Option Node} {nodes : List Node}
    (path : Path link start nodes) {changed : Node} (outside : changed ∉ nodes)
    (target : Option Node) :
    Path (Function.update link changed target) start nodes := by
  induction path with
  | null => exact .null
  | @node first rest restPath ih =>
      have firstNe : first ≠ changed := fun equal =>
        outside (by simp [equal])
      refine .node ?_
      rw [Function.update_of_ne firstNe]
      exact ih (fun restMem => outside (List.mem_cons_of_mem _ restMem))

/-- Redirecting a node to a chain that avoids it keeps every chain finite. -/
theorem Terminates.update {start target : Option Node} {changed : Node}
    (startEnds : Terminates link start) {targetNodes : List Node}
    (targetPath : Path link target targetNodes)
    (outside : changed ∉ targetNodes) :
    Terminates (Function.update link changed target) start := by
  obtain ⟨nodes, path⟩ := startEnds
  induction path with
  | null => exact terminates_none _
  | @node first rest restPath ih =>
      by_cases firstEq : first = changed
      · subst first
        refine ⟨changed :: targetNodes, .node ?_⟩
        rw [Function.update_self]
        exact targetPath.update_of_not_mem outside target
      · obtain ⟨restNodes, restUpdated⟩ := ih
        refine ⟨first :: restNodes, .node ?_⟩
        rwa [Function.update_of_ne firstEq]

/-- Cutting the chain behind a node keeps every chain finite. -/
theorem Terminates.update_none {start : Option Node}
    (startEnds : Terminates link start) (changed : Node) :
    Terminates (Function.update link changed none) start :=
  startEnds.update .null (by simp)

private theorem Path.mem_of_update {start target : Option Node}
    {nodes : List Node} (path : Path link start nodes)
    {changed : Node} (changedMem : changed ∈ nodes)
    {updatedNodes : List Node}
    (updated : Path (Function.update link changed target) start updatedNodes) :
    changed ∈ updatedNodes := by
  induction path generalizing updatedNodes with
  | null => simp at changedMem
  | @node first rest restPath ih =>
      cases updated with
      | node restUpdated =>
          by_cases firstEq : first = changed
          · simp [firstEq]
          · rw [Function.update_of_ne firstEq] at restUpdated
            have restMem : changed ∈ rest := by
              rcases List.mem_cons.mp changedMem with equal | restMem
              · exact absurd equal.symm firstEq
              · exact restMem
            exact List.mem_cons_of_mem _ (ih restMem restUpdated)

/-- Pushing a node in front of a chain keeps the chain finite exactly when the
node was not on it already. -/
theorem terminates_push_iff {head : Option Node} {nodes : List Node}
    (path : Path link head nodes) (pushed : Node) :
    Terminates (Function.update link pushed head) (some pushed) ↔
      pushed ∉ nodes := by
  constructor
  · rintro ⟨updatedNodes, updated⟩ pushedMem
    have distinct := updated.nodup
    cases updated with
    | node restUpdated =>
        rw [Function.update_self] at restUpdated
        exact (List.nodup_cons.mp distinct).1
          (path.mem_of_update pushedMem restUpdated)
  · intro outside
    refine ⟨pushed :: nodes, .node ?_⟩
    rw [Function.update_self]
    exact path.update_of_not_mem outside head

end Redirect

section Find

variable {link : Node → Option Node} {test : Node → Bool}

/-- Walk from `cursor` to the first node that passes a test, remembering the
node just passed.  The outer option is exhausted fuel, the inner one says
whether a node was found. -/
def find (link : Node → Option Node) (test : Node → Bool) :
    Nat → Option Node → Option Node → Option (Option (Option Node × Node))
  | 0, _, _ => none
  | _ + 1, _, none => some none
  | fuel + 1, previous, some cursor =>
      if test cursor then some (some (previous, cursor))
      else find link test fuel (some cursor) (link cursor)

/-- The node found passes the test, and the node reported beside it stands
directly in front of it. -/
theorem find_found {start : Option Node} {nodes : List Node}
    (path : Path link start nodes) {fuel : Nat} {previous before : Option Node}
    {found : Node}
    (result : find link test fuel previous start = some (some (before, found))) :
    test found = true ∧
      ((before = previous ∧ ∃ rest, nodes = found :: rest) ∨
        ∃ node front rest, before = some node ∧ nodes = front ++ node :: found :: rest) := by
  induction path generalizing fuel previous with
  | null => cases fuel <;> simp [find] at result
  | @node first rest restPath ih =>
      cases fuel with
      | zero => simp [find] at result
      | succ fuel =>
          rw [find] at result
          split at result
          case isTrue passes =>
            obtain ⟨rfl, rfl⟩ : previous = before ∧ first = found := by simpa using result
            exact ⟨passes, .inl ⟨rfl, rest, rfl⟩⟩
          case isFalse =>
            obtain ⟨passes, ⟨rfl, later, rfl⟩ | ⟨node, front, later, rfl, rfl⟩⟩ := ih result
            · exact ⟨passes, .inr ⟨first, [], later, rfl, rfl⟩⟩
            · exact ⟨passes, .inr ⟨node, first :: front, later, rfl, rfl⟩⟩

theorem find_mem {start : Option Node} {nodes : List Node}
    (path : Path link start nodes) {fuel : Nat} {previous before : Option Node}
    {found : Node}
    (result : find link test fuel previous start = some (some (before, found))) :
    found ∈ nodes := by
  obtain ⟨_, ⟨_, rest, rfl⟩ | ⟨node, front, rest, _, rfl⟩⟩ := find_found path result
  · simp
  · simp

/-- A walk that finds nothing has tested every node. -/
theorem find_missing {start : Option Node} {nodes : List Node}
    (path : Path link start nodes) {fuel : Nat} {previous : Option Node}
    (result : find link test fuel previous start = some none) :
    ∀ node ∈ nodes, test node = false := by
  induction path generalizing fuel previous with
  | null => simp
  | @node first rest restPath ih =>
      cases fuel with
      | zero => simp [find] at result
      | succ fuel =>
          rw [find] at result
          split at result
          case isTrue => simp at result
          case isFalse fails =>
            intro node isNode
            rcases List.mem_cons.mp isNode with rfl | isLater
            · simpa using fails
            · exact ih result node isLater

/-- Fuel beyond the length of the chain is enough for a walk. -/
theorem find_total {start : Option Node} {nodes : List Node}
    (path : Path link start nodes) {fuel : Nat} (previous : Option Node)
    (enough : nodes.length < fuel) :
    ∃ outcome, find link test fuel previous start = some outcome := by
  induction path generalizing fuel previous with
  | null =>
      obtain ⟨fuel, rfl⟩ := Nat.exists_eq_add_of_lt enough
      exact ⟨none, rfl⟩
  | @node first rest restPath ih =>
      obtain ⟨fuel, rfl⟩ : ∃ less, fuel = less + 1 := ⟨fuel - 1, by omega⟩
      rw [find]
      split
      · exact ⟨_, rfl⟩
      · exact ih _ (by simpa using enough)

end Find

section Search

variable [DecidableEq Node]

/-- Walk from `cursor` to `target`, remembering the node just passed.  The
outer option is exhausted fuel, the middle one says whether the target was
met, and the inner one is its predecessor. -/
def search (link : Node → Option Node) (target : Node) :
    Nat → Option Node → Option Node → Option (Option (Option Node))
  | 0, _, _ => none
  | _ + 1, _, none => some none
  | fuel + 1, previous, some cursor =>
      if cursor = target then some (some previous)
      else search link target fuel (some cursor) (link cursor)

variable {link : Node → Option Node} {target : Node}

/-- Searching for a node is finding the first node equal to it. -/
theorem search_eq_find (fuel : Nat) (previous start : Option Node) :
    search link target fuel previous start =
      (find link (fun node => node = target) fuel previous start).map (Option.map Prod.fst) := by
  induction fuel generalizing previous start with
  | zero => rfl
  | succ fuel ih =>
      cases start with
      | none => rfl
      | some cursor =>
          rw [search, find, ih]
          by_cases same : cursor = target
          · simp [same]
          · simp [same]

/-- A successful search ends at the target, directly behind the predecessor it
reports. -/
theorem search_found {start : Option Node} {nodes : List Node}
    (path : Path link start nodes) {fuel : Nat}
    {previous found : Option Node}
    (linked : ∀ node ∈ previous, link node = start)
    (result : search link target fuel previous start = some (some found)) :
    target ∈ nodes ∧ ∀ node ∈ found, link node = some target ∧
      (node ∈ nodes ∨ node ∈ previous) := by
  rw [search_eq_find] at result
  obtain ⟨_, walked, isSome⟩ := Option.map_eq_some_iff.mp result
  obtain ⟨⟨before, last⟩, rfl, rfl⟩ := Option.map_eq_some_iff.mp isSome
  obtain ⟨passes, ⟨rfl, rest, rfl⟩ | ⟨passed, front, rest, rfl, rfl⟩⟩ := find_found path walked
  · obtain rfl : last = target := by simpa using passes
    refine ⟨by simp, fun node isBefore => ⟨?_, .inr isBefore⟩⟩
    rw [linked node isBefore]
    exact path.tail.1
  · obtain rfl : last = target := by simpa using passes
    refine ⟨by simp, fun node isPassed => ?_⟩
    obtain rfl : passed = node := by simpa using isPassed
    exact ⟨path.behind.tail.1, by simp⟩

/-- A search that reaches the null pointer has not met the target. -/
theorem search_missing {start : Option Node} {nodes : List Node}
    (path : Path link start nodes) {fuel : Nat} {previous : Option Node}
    (result : search link target fuel previous start = some none) :
    target ∉ nodes := by
  rw [search_eq_find] at result
  obtain ⟨found, walked, isNone⟩ := Option.map_eq_some_iff.mp result
  obtain rfl : found = none := by simpa using isNone
  intro isMember
  have fails := find_missing path walked target isMember
  simp at fails

end Search

section Bypass

variable [DecidableEq Node] {link : Node → Option Node}

/-- Redirecting a node past its successor takes the successor out. -/
theorem Path.bypass {start : Option Node} {front rest : List Node} {node removed : Node}
    (path : Path link start (front ++ node :: removed :: rest)) :
    Path (Function.update link node (link removed)) start (front ++ node :: rest) := by
  induction front generalizing start with
  | nil =>
      have distinct := path.nodup
      obtain ⟨rfl, behind⟩ := path.tail
      have outside : node ∉ rest := by
        intro again
        simp [again] at distinct
      refine .node ?_
      rw [Function.update_self]
      exact behind.tail.2.update_of_not_mem outside _
  | cons first front ih =>
      have distinct := path.nodup
      obtain ⟨rfl, behind⟩ := path.tail
      have firstNe : first ≠ node := by
        rintro rfl
        simp at distinct
      refine .node ?_
      rw [Function.update_of_ne firstNe]
      exact ih behind

end Bypass

section Splice

variable [DecidableEq Node] {link : Node → Option Node}

/-- A node that is linked in behind another one comes directly after it. -/
theorem Path.splice {start : Option Node} {front rest : List Node} {node inserted : Node}
    (path : Path link start (front ++ node :: rest)) (outside : inserted ∉ front ++ node :: rest)
    (linked : link inserted = link node) :
    Path (Function.update link node (some inserted)) start (front ++ node :: inserted :: rest) := by
  induction front generalizing start with
  | nil =>
      have distinct := path.nodup
      obtain ⟨rfl, behind⟩ := path.tail
      have notNode : inserted ≠ node := fun same => outside (same ▸ List.mem_cons_self)
      have behindNew := behind.update_of_not_mem (List.nodup_cons.mp distinct).1 (some inserted)
      refine .node ?_
      rw [Function.update_self]
      refine .node ?_
      rw [Function.update_of_ne notNode, linked]
      exact behindNew
  | cons first front ih =>
      have distinct := path.nodup
      obtain ⟨rfl, behind⟩ := path.tail
      have firstNe : first ≠ node := by
        rintro rfl
        simp at distinct
      refine .node ?_
      rw [Function.update_of_ne firstNe]
      exact ih behind fun again => outside (List.mem_cons_of_mem first again)

/-- A fresh node behind the last one becomes the last one. -/
theorem Path.appendLast {start : Option Node} {front : List Node} {last inserted : Node}
    (path : Path link start (front ++ [last])) (outside : inserted ∉ front ++ [last]) :
    Path (Function.update (Function.update link inserted none) last (some inserted)) start
      (front ++ [last, inserted]) := by
  have notLast : last ≠ inserted := fun same => outside (by simp [same])
  have lastNull : link last = none := path.behind.eq_none
  apply (path.update_of_not_mem outside none).splice outside
  rw [Function.update_self, Function.update_of_ne notLast, lastNull]

end Splice

end PointerChain

end MiniIotRobotEdge

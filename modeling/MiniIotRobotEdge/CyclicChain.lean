import Mathlib.Logic.Relation
import MiniIotRobotEdge.PointerChain

/-!
# Chains that may be cyclic

The places of a chain are its head pointer and the links of its nodes.  A node that is
unhooked at some places has left the chain exactly if no other place that is reached holds
it, and then the nodes that remain are met in their old order.
-/

namespace MiniIotRobotEdge

namespace CyclicChain

open Relation PointerChain

variable {Node : Type*}

/-- The pointer at a place: the head for `none`, the link of a node otherwise. -/
def pointerAt (head : Option Node) (link : Node → Option Node) : Option Node → Option Node
  | none => head
  | some node => link node

@[simp] theorem pointerAt_none (head : Option Node) (link : Node → Option Node) :
    pointerAt head link none = head := rfl

@[simp] theorem pointerAt_some (head : Option Node) (link : Node → Option Node) (node : Node) :
    pointerAt head link (some node) = link node := rfl

/-- The next place behind a place. -/
def Follows (pointer : Option Node → Option Node) (place next : Option Node) : Prop :=
  next ≠ none ∧ pointer place = next

/-- The places met from the head. -/
def Reached (pointer : Option Node → Option Node) (place : Option Node) : Prop :=
  ReflTransGen (Follows pointer) none place

/-- The nodes met from the head. -/
def Meets (pointer : Option Node → Option Node) (node : Node) : Prop :=
  Reached pointer (some node)

/-- A node from which another one is met. -/
def Precedes (pointer : Option Node → Option Node) (first second : Node) : Prop :=
  Meets pointer first ∧ ReflTransGen (Follows pointer) (some first) (some second)

section Walks

variable {pointer : Option Node → Option Node} {place : Option Node} {node : Node}

theorem follows_some (held : pointer place = some node) : Follows pointer place (some node) :=
  ⟨by simp, held⟩

theorem Reached.meets (reached : Reached pointer place) (held : pointer place = some node) :
    Meets pointer node :=
  reached.tail (follows_some held)

/-- A node that is met is held at a place that is reached. -/
theorem Meets.exists_place (meets : Meets pointer node) :
    ∃ place, Reached pointer place ∧ pointer place = some node := by
  obtain isHead | ⟨place, reached, step⟩ := ReflTransGen.cases_tail meets
  · simp at isHead
  · exact ⟨place, reached, step.2⟩

end Walks

section Unhooked

/-- Places that held a node now hold its successor; its own link may have changed too. -/
def Unhooks (before after : Option Node → Option Node) (node : Node) : Prop :=
  ∀ place, place ≠ some node → after place = before place ∨
    before place = some node ∧ after place = before (some node)

/-- Every place that is reached and held the node now holds its successor. -/
def PassedEverywhere (before after : Option Node → Option Node) (node : Node) : Prop :=
  ∀ place, Reached before place → before place = some node →
    place ≠ some node ∧ after place = before (some node)

variable {before after : Option Node → Option Node} {node : Node} {start place : Option Node}

namespace Unhooks

/-- What is met without the node was met with it. -/
theorem walk_before (unhooks : Unhooks before after node) (gone : ¬Meets after node)
    (reached : Reached after start) (walk : ReflTransGen (Follows after) start place) :
    ReflTransGen (Follows before) start place := by
  induction walk with
  | refl => exact .refl
  | @tail place next walk step ih =>
      have differs : place ≠ some node := by
        rintro rfl
        exact gone (reached.trans walk)
      rcases unhooks place differs with same | ⟨held, passed⟩
      · exact ih.tail ⟨step.1, same.symm.trans step.2⟩
      · exact (ih.tail (follows_some held)).tail ⟨step.1, passed.symm.trans step.2⟩

/-- What was met with the node is still met, except the node; behind the node its successor
is met. -/
theorem walk_after (unhooks : Unhooks before after node) (gone : ¬Meets after node)
    (reached : Reached after start) (walk : ReflTransGen (Follows before) start place) :
    (place ≠ some node → ReflTransGen (Follows after) start place) ∧
      (place = some node → ∀ next, Follows before place next →
        ReflTransGen (Follows after) start next) := by
  have started : start ≠ some node := by
    rintro rfl
    exact gone reached
  induction walk with
  | refl => exact ⟨fun _ => .refl, fun same => absurd same started⟩
  | @tail place next walk step ih =>
      have differs : place = some node → next ≠ some node := by
        rintro rfl rfl
        exact gone (reached.trans (ih.2 rfl _ step))
      by_cases isNode : place = some node
      · exact ⟨fun _ => ih.2 isNode next step, fun same => absurd same (differs isNode)⟩
      · have here := ih.1 isNode
        rcases unhooks place isNode with same | ⟨held, passed⟩
        · refine ⟨fun _ => here.tail ⟨step.1, same.trans step.2⟩, ?_⟩
          rintro rfl
          exact absurd (Reached.meets (reached.trans here) (same.trans step.2)) gone
        · obtain rfl : some node = next := held.symm.trans step.2
          refine ⟨fun same => absurd rfl same, fun _ last behind => ?_⟩
          exact here.tail ⟨behind.1, passed.trans behind.2⟩

theorem walk_iff (unhooks : Unhooks before after node) (gone : ¬Meets after node)
    (reached : Reached after start) (differs : place ≠ some node) :
    ReflTransGen (Follows after) start place ↔ ReflTransGen (Follows before) start place :=
  ⟨unhooks.walk_before gone reached, fun walk => (unhooks.walk_after gone reached walk).1 differs⟩

/-- The node has left the chain exactly if it was passed everywhere. -/
theorem not_meets_iff (unhooks : Unhooks before after node) :
    ¬Meets after node ↔ PassedEverywhere before after node := by
  constructor
  · intro gone place reached held
    have differs : place ≠ some node := by
      rintro rfl
      exact gone ((unhooks.walk_after gone .refl reached).2 rfl _ (follows_some held))
    refine ⟨differs, ?_⟩
    rcases unhooks place differs with same | ⟨_, passed⟩
    · have here := (unhooks.walk_after gone .refl reached).1 differs
      exact absurd (Reached.meets here (same.trans held)) gone
    · exact passed
  · intro passed meets
    have apart : ∀ place, Reached after place → Reached before place ∧ place ≠ some node := by
      intro place reached
      induction reached with
      | refl => exact ⟨.refl, by simp⟩
      | @tail place next _ step ih =>
          obtain ⟨reached, differs⟩ := ih
          by_cases held : before place = some node
          · have behind : before (some node) = next :=
              (passed place reached held).2.symm.trans step.2
            have meets := Reached.meets reached held
            refine ⟨ReflTransGen.tail meets ⟨step.1, behind⟩, ?_⟩
            rintro rfl
            exact (passed (some node) meets behind).1 rfl
          · have same : after place = before place := by
              rcases unhooks place differs with same | ⟨isHeld, _⟩
              · exact same
              · exact absurd isHeld held
            have isNext := same.symm.trans step.2
            refine ⟨reached.tail ⟨step.1, isNext⟩, ?_⟩
            rintro rfl
            exact held isNext
    exact (apart (some node) meets).2 rfl

variable {first second : Node}

theorem meets_iff (unhooks : Unhooks before after node) (gone : ¬Meets after node)
    (differs : first ≠ node) : Meets after first ↔ Meets before first :=
  unhooks.walk_iff gone .refl (by simpa using differs)

theorem precedes_iff (unhooks : Unhooks before after node) (gone : ¬Meets after node)
    (firstNe : first ≠ node) (secondNe : second ≠ node) :
    Precedes after first second ↔ Precedes before first second := by
  constructor
  · rintro ⟨meets, walk⟩
    exact ⟨(unhooks.meets_iff gone firstNe).mp meets, unhooks.walk_before gone meets walk⟩
  · rintro ⟨meets, walk⟩
    have meetsNow := (unhooks.meets_iff gone firstNe).mpr meets
    exact ⟨meetsNow, (unhooks.walk_iff gone meetsNow (by simpa using secondNe)).mpr walk⟩

end Unhooks

end Unhooked

section Search

variable [DecidableEq Node] {link : Node → Option Node} {node : Node}

/-- A search along the chain ends at the first place that holds the node, or at the end. -/
theorem search_place (head : Option Node) {fuel : Nat} {place : Option Node}
    {result : Option (Option Node)} (differs : place ≠ some node)
    (searched : search link node fuel place (pointerAt head link place) = some result) :
    (result = none ∧ ∀ other, ReflTransGen (Follows (pointerAt head link)) place other →
        pointerAt head link other ≠ some node) ∨
      ∃ found, result = some found ∧ found ≠ some node ∧
        ReflTransGen (Follows (pointerAt head link)) place found ∧
        pointerAt head link found = some node := by
  induction fuel generalizing place with
  | zero => simp [search] at searched
  | succ fuel ih =>
      cases held : pointerAt head link place with
      | none =>
          rw [held, search] at searched
          refine .inl ⟨(Option.some.inj searched).symm, fun other walk => ?_⟩
          obtain rfl | ⟨next, step, _⟩ := ReflTransGen.cases_head walk
          · simp [held]
          · exact absurd (step.2.symm.trans held) step.1
      | some cursor =>
          rw [held, search] at searched
          split at searched
          case isTrue same =>
            exact .inr ⟨place, (Option.some.inj searched).symm, differs, .refl, same ▸ held⟩
          case isFalse notNode =>
            have step := follows_some held
            have notPlace : some cursor ≠ some node := by simpa using notNode
            rcases ih notPlace searched with
              ⟨isNone, nowhere⟩ | ⟨found, isSome, foundNe, walk, holds⟩
            · refine .inl ⟨isNone, fun other walk => ?_⟩
              obtain rfl | ⟨next, first, rest⟩ := ReflTransGen.cases_head walk
              · rw [held]
                simpa using notNode
              · obtain rfl : next = some cursor := first.2.symm.trans held
                exact nowhere other rest
            · exact .inr ⟨found, isSome, foundNe, .head step walk, holds⟩

end Search

section Finite

variable {head : Option Node} {link : Node → Option Node}

/-- The nodes met behind a place of a chain that ends. -/
theorem mem_of_walk (start : Option Node) {place : Option Node} {nodes : List Node} {node : Node}
    (path : Path link (pointerAt head link start) nodes)
    (walk : ReflTransGen (Follows (pointerAt head link)) start place)
    (held : pointerAt head link place = some node) : node ∈ nodes := by
  generalize isFirst : pointerAt head link start = first at path
  induction path generalizing start with
  | null =>
      obtain rfl | ⟨next, step, _⟩ := ReflTransGen.cases_head walk
      · simp [isFirst] at held
      · exact absurd (step.2.symm.trans isFirst) step.1
  | @node first rest behind ih =>
      obtain rfl | ⟨next, step, later⟩ := ReflTransGen.cases_head walk
      · obtain rfl : first = node := Option.some.inj (isFirst.symm.trans held)
        exact List.mem_cons_self
      · obtain rfl : next = some first := step.2.symm.trans isFirst
        exact List.mem_cons_of_mem _ (ih (some first) later rfl)

/-- A chain that ends holds a node at one place. -/
theorem place_unique (start : Option Node) {first second : Option Node} {nodes : List Node}
    {node : Node}
    (path : Path link (pointerAt head link start) nodes)
    (firstWalk : ReflTransGen (Follows (pointerAt head link)) start first)
    (secondWalk : ReflTransGen (Follows (pointerAt head link)) start second)
    (firstHolds : pointerAt head link first = some node)
    (secondHolds : pointerAt head link second = some node) : first = second := by
  generalize isCursor : pointerAt head link start = cursor at path
  induction path generalizing start with
  | null =>
      obtain rfl | ⟨next, step, _⟩ := ReflTransGen.cases_head firstWalk
      · simp [isCursor] at firstHolds
      · exact absurd (step.2.symm.trans isCursor) step.1
  | @node cursor rest behind ih =>
      have fresh : cursor ∉ rest := (List.nodup_cons.mp (Path.node behind).nodup).1
      have step : ∀ next, Follows (pointerAt head link) start next → next = some cursor :=
        fun next step => step.2.symm.trans isCursor
      have apart : ∀ {place}, ReflTransGen (Follows (pointerAt head link)) (some cursor) place →
          pointerAt head link place = some node → pointerAt head link start ≠ some node := by
        intro place walk held same
        obtain rfl : cursor = node := Option.some.inj (isCursor.symm.trans same)
        exact fresh (mem_of_walk (some cursor) behind walk held)
      obtain rfl | ⟨next, isNext, firstRest⟩ := ReflTransGen.cases_head firstWalk
      · obtain rfl | ⟨other, isOther, secondRest⟩ := ReflTransGen.cases_head secondWalk
        · rfl
        · obtain rfl := step other isOther
          exact absurd firstHolds (apart secondRest secondHolds)
      · obtain rfl := step next isNext
        obtain rfl | ⟨other, isOther, secondRest⟩ := ReflTransGen.cases_head secondWalk
        · exact absurd secondHolds (apart firstRest firstHolds)
        · obtain rfl := step other isOther
          exact ih (some cursor) firstRest secondRest rfl

end Finite

end CyclicChain

end MiniIotRobotEdge

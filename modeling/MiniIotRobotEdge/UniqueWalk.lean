import Mathlib.Data.Fintype.Card
import Mathlib.Data.Set.Finite.Basic
import Mathlib.Logic.Relation

/-!
# Walks along a relation with unique successors

Such a walk ends, or it is caught in a cycle.  On finitely many elements a walk
that reaches no cycle can be followed by induction.
-/

namespace MiniIotRobotEdge

namespace UniqueWalk

open Relation

variable {α : Type*} {next : α → α → Prop} {first second : α}

/-- The walk from an element is caught in a cycle. -/
def ReachesCycle (next : α → α → Prop) (first : α) : Prop :=
  ∃ member, ReflTransGen next first member ∧ TransGen next member member

namespace ReachesCycle

theorem head (step : next first second) (reaches : ReachesCycle next second) :
    ReachesCycle next first := by
  obtain ⟨member, walk, cycle⟩ := reaches
  exact ⟨member, .head step walk, cycle⟩

/-- A walk that is caught in a cycle goes on, and stays caught. -/
theorem exists_step (reaches : ReachesCycle next first) :
    ∃ second, next first second ∧ ReachesCycle next second := by
  obtain ⟨member, walk, cycle⟩ := reaches
  rcases ReflTransGen.cases_head walk with rfl | ⟨second, step, rest⟩
  · obtain ⟨second, step, rest⟩ := TransGen.head'_iff.mp cycle
    exact ⟨second, step, first, rest, cycle⟩
  · exact ⟨second, step, member, rest, cycle⟩

theorem tail (unique : Relator.RightUnique next) (reaches : ReachesCycle next first)
    (step : next first second) : ReachesCycle next second := by
  obtain ⟨other, otherStep, caught⟩ := reaches.exists_step
  rwa [unique step otherStep]

end ReachesCycle

/-- A walk among finitely many elements that reaches no cycle ends. -/
theorem acc_of_not_reachesCycle {members : Finset α}
    (closed : ∀ {first second}, next first second → second ∈ members)
    (notCaught : ¬ReachesCycle next first) :
    Acc (fun second first => next first second) first := by
  let Reached := { element // ReflTransGen next first element }
  let follows : Reached → Reached → Prop := fun second first => next first second
  have finite : Finite Reached := by
    apply Set.Finite.subset (members.finite_toSet.insert first)
    intro element walk
    rcases ReflTransGen.cases_tail walk with rfl | ⟨_, _, step⟩
    · exact Set.mem_insert _ _
    · exact Set.mem_insert_of_mem _ (closed step)
  have walked : ∀ {second first : Reached}, TransGen follows second first →
      TransGen next first.1 second.1 := by
    intro second first later
    induction later with
    | single step => exact .single step
    | tail _ step ih => exact .head step ih
  have transitive : IsTrans Reached (TransGen follows) := ⟨fun _ _ _ => TransGen.trans⟩
  have irreflexive : Std.Irrefl (TransGen follows) :=
    ⟨fun member cycle => notCaught ⟨member.1, member.2, walked cycle⟩⟩
  have wellFounded : WellFounded follows :=
    Subrelation.wf TransGen.single (Finite.wellFounded_of_trans_of_irrefl (TransGen follows))
  have accessible : ∀ member : Reached,
      Acc (fun second first => next first second) member.1 := by
    intro member
    induction member using wellFounded.induction with
    | _ member ih =>
        exact ⟨_, fun second step => ih ⟨second, member.2.tail step⟩ step⟩
  exact accessible ⟨first, .refl⟩

end UniqueWalk

end MiniIotRobotEdge

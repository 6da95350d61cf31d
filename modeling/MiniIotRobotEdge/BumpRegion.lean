import Mathlib.Order.CompletePartialOrder
import Mathlib.Order.Interval.Set.Disjoint
import MiniIotRobotEdge.StepRuns

/-!
# Bump allocation

A region of `total` bytes is handed out from its front, below a mark; a reset
takes the mark back.  The mark is a number of fixed width, and in a region as
large as its range the last allocation can take it back to the start as well:
a request that is not empty then begins on a live range.  What an allocation
did is one of the cases of `Outcome`.  An allocator that refuses or grants
within its region whenever the request `fits`, and hands out what it must not
whenever it does not, keeps its ranges inside and apart in exactly the runs in
which every request fits.
-/

namespace MiniIotRobotEdge

namespace BumpRegion

open StepRuns

structure Range where
  start : Nat
  size : Nat
  deriving DecidableEq, Repr

def Range.addresses (range : Range) : Set Nat := Set.Ico range.start (range.start + range.size)

/-- The ranges lie in the region and share no address; the mark is in it too. -/
structure Sound (base total used : Nat) (granted : List Range) : Prop where
  inside : ∀ range ∈ granted, base ≤ range.start ∧ range.start + range.size ≤ base + total
  apart : granted.Pairwise fun first second => Disjoint first.addresses second.addresses
  used_le : used ≤ total

def BelowMark (base used : Nat) (granted : List Range) : Prop :=
  ∀ range ∈ granted, range.start + range.size ≤ base + used

def anyLive (granted : List Range) : Bool := granted.any fun range => 0 < range.size

/-- A request that is not empty, with the mark at the start although a range is live. -/
def Restarts (used size : Nat) (live : Bool) : Prop := 0 < size ∧ used = 0 ∧ live = true

instance (used size : Nat) (live : Bool) : Decidable (Restarts used size live) :=
  inferInstanceAs (Decidable (_ ∧ _))

/-- The next mark and the pointer, where the mark was at `used`.  A mark behind
`last` is taken back to the start. -/
inductive Outcome (base total last used size : Nat) (live : Bool) (fits : Prop) :
    Nat → Option Nat → Prop
  | refused : fits → Outcome base total last used size live fits used none
  | granted {reserved : Nat} : fits → ¬Restarts used size live → size ≤ reserved →
      (size = 0 → reserved = 0) → used + reserved ≤ total →
      Outcome base total last used size live fits (used + reserved) (some (base + used))
  | whole : fits → ¬Restarts used size live → 0 < size → last < total → used + size ≤ total →
      Outcome base total last used size live fits 0 (some (base + used))
  | excessive {next : Nat} : ¬fits → total < used + size →
      Outcome base total last used size live fits next (some (base + used))
  | restarted {next : Nat} : ¬fits → Restarts used size live →
      Outcome base total last used size live fits next (some (base + used))

theorem Outcome.congr {base total last used size next : Nat} {live : Bool} {first second : Prop}
    {answer : Option Nat} (same : first ↔ second)
    (outcome : Outcome base total last used size live first next answer) :
    Outcome base total last used size live second next answer := by
  rwa [propext same] at outcome

/-- `reserved` is `size` rounded up to a multiple of `align`, computed modulo
`limit`: it is 0 where the sum of size and alignment passes the limit. -/
structure Rounded (align limit size reserved : Nat) : Prop where
  enough : size + align ≤ limit → size ≤ reserved
  near : size + align ≤ limit → reserved < size + align
  multiple : align ∣ reserved
  wrapped : limit < size + align → reserved = 0

section Check

variable {align limit total used size reserved : Nat}

theorem Rounded.empty (rounded : Rounded align limit 0 reserved) (whole : align ≤ limit) :
    reserved = 0 := by
  have near := rounded.near (by omega)
  exact Nat.eq_zero_of_dvd_of_lt rounded.multiple (by omega)

/-- A size that ends before the last multiple of the alignment does not wrap. -/
theorem Rounded.exact (rounded : Rounded align limit size reserved)
    (usedMultiple : align ∣ used) (limitMultiple : align ∣ limit)
    (early : used + size + align ≤ limit) :
    size ≤ reserved ∧ used + reserved + align ≤ limit := by
  have near := rounded.near (by omega)
  refine ⟨rounded.enough (by omega), ?_⟩
  by_contra late
  have past : limit ≤ used + reserved :=
    Nat.le_of_lt_add_of_dvd (by omega) limitMultiple (Nat.dvd_add usedMultiple rounded.multiple)
  omega

/-- Any other size takes the mark back, and to the start if it ends below the limit. -/
theorem Rounded.wraps (rounded : Rounded align limit size reserved) (usedMultiple : align ∣ used)
    (limitMultiple : align ∣ limit) (belowLimit : used < limit)
    (late : limit < used + size + align) :
    (used + reserved) % limit ≤ used ∧
      (used + size < limit → (used + reserved) % limit = 0) := by
  by_cases small : size + align ≤ limit
  · have enough := rounded.enough small
    have near := rounded.near small
    have past : limit ≤ used + reserved :=
      Nat.le_of_lt_add_of_dvd (by omega) limitMultiple
        (Nat.dvd_add usedMultiple rounded.multiple)
    rw [Nat.mod_eq_sub_mod past, Nat.mod_eq_of_lt (by omega)]
    refine ⟨by omega, fun inside => ?_⟩
    apply Nat.eq_zero_of_dvd_of_lt (a := align) _ (by omega)
    exact Nat.dvd_sub (Nat.dvd_add usedMultiple rounded.multiple) limitMultiple
  · rw [rounded.wrapped (by omega), Nat.add_zero, Nat.mod_eq_of_lt belowLimit]
    exact ⟨le_rfl, fun inside => Nat.eq_zero_of_dvd_of_lt usedMultiple (by omega)⟩

end Check

theorem Sound.nil {base total used : Nat} (bound : used ≤ total) : Sound base total used [] where
  inside := by simp
  apart := .nil
  used_le := bound

section Grant

variable {base total last used reserved next size : Nat} {granted : List Range}

theorem anyLive_iff : anyLive granted = true ↔ ∃ range ∈ granted, 0 < range.size := by
  simp [anyLive]

/-- A range at the mark is apart from those below it. -/
theorem Sound.grant (sound : Sound base total used granted)
    (apart : BelowMark base used granted ∨ size = 0) (room : used + size ≤ total)
    (nextInside : next ≤ total) :
    Sound base total next (⟨base + used, size⟩ :: granted) where
  inside := by
    rintro range (_ | ⟨_, older⟩)
    · dsimp only
      omega
    · exact sound.inside range older
  apart := by
    refine .cons (fun range older => ?_) sound.apart
    rw [Range.addresses, Range.addresses, Set.disjoint_left]
    rintro address ⟨fromMark, toLast⟩ ⟨_, toEnd⟩
    dsimp only at fromMark toLast
    rcases apart with below | empty
    · have earlier := below range older
      omega
    · omega
  used_le := nextInside

theorem BelowMark.grant (below : BelowMark base used granted) (enough : size ≤ reserved) :
    BelowMark base (used + reserved) (⟨base + used, size⟩ :: granted) := by
  rintro range (_ | ⟨_, older⟩)
  · dsimp only
    omega
  · have earlier := below range older
    omega

/-- Where the ranges and the mark are: the first live range begins at the base, and
the mark is behind all of them or back at the start. -/
structure Placed (base total last used : Nat) (granted : List Range) : Prop where
  first : used = 0 ∧ anyLive granted = false ∨
    ∃ range ∈ granted, range.start = base ∧ 0 < range.size
  below : BelowMark base used granted ∨ last < total ∧ used = 0 ∧ anyLive granted = true

theorem Placed.nil : Placed base total last 0 [] where
  first := .inl ⟨rfl, rfl⟩
  below := .inl fun _ listed => absurd listed List.not_mem_nil

theorem Placed.at_base (placed : Placed base total last used granted)
    (live : anyLive granted = true) : ∃ range ∈ granted, range.start = base ∧ 0 < range.size := by
  rcases placed.first with ⟨_, idle⟩ | taken
  · exact absurd (idle.symm.trans live) Bool.false_ne_true
  · exact taken

/-- Only a region that the mark cannot pass has its mark back before a reset. -/
theorem Placed.last_lt (placed : Placed base total last used granted)
    (live : anyLive granted = true) (back : used = 0) : last < total := by
  rcases placed.below with below | ⟨wide, _, _⟩
  · obtain ⟨range, listed, atBase, positive⟩ := placed.at_base live
    have upToMark := below range listed
    omega
  · exact wide

theorem Placed.apart (placed : Placed base total last used granted)
    (fresh : ¬Restarts used size (anyLive granted)) : BelowMark base used granted ∨ size = 0 := by
  rcases placed.below with below | ⟨_, back, live⟩
  · exact .inl below
  · exact .inr (Nat.eq_zero_of_not_pos fun positive => fresh ⟨positive, back, live⟩)

theorem Placed.grant (placed : Placed base total last used granted)
    (fresh : ¬Restarts used size (anyLive granted)) (enough : size ≤ reserved)
    (nothing : size = 0 → reserved = 0) :
    Placed base total last (used + reserved) (⟨base + used, size⟩ :: granted) where
  first := by
    rcases placed.first with ⟨start, idle⟩ | ⟨range, listed, atBase, positive⟩
    · rcases Nat.eq_zero_or_pos size with empty | positive
      · refine .inl ⟨by omega, ?_⟩
        rw [anyLive, List.any_cons, empty]
        exact idle
      · exact .inr ⟨_, List.mem_cons_self, by dsimp only; omega, positive⟩
    · exact .inr ⟨range, List.mem_cons_of_mem _ listed, atBase, positive⟩
  below := by
    rcases placed.below with below | ⟨wide, back, live⟩
    · exact .inl (below.grant enough)
    · have empty : size = 0 := Nat.eq_zero_of_not_pos fun positive => fresh ⟨positive, back, live⟩
      refine .inr ⟨wide, by omega, ?_⟩
      rw [anyLive, List.any_cons, Bool.or_eq_true]
      exact .inr live

/-- An allocation up to the end of the range of the mark takes it back. -/
theorem Placed.grant_whole (placed : Placed base total last used granted) (positive : 0 < size)
    (wide : last < total) : Placed base total last 0 (⟨base + used, size⟩ :: granted) where
  first := by
    rcases placed.first with ⟨start, idle⟩ | ⟨range, listed, atBase, older⟩
    · exact .inr ⟨_, List.mem_cons_self, by dsimp only; omega, positive⟩
    · exact .inr ⟨range, List.mem_cons_of_mem _ listed, atBase, older⟩
  below := .inr ⟨wide, rfl, anyLive_iff.mpr ⟨_, List.mem_cons_self, positive⟩⟩

/-- A request that begins on a live range shares an address with it. -/
theorem Placed.not_sound_of_restarts (placed : Placed base total last used granted)
    (restarts : Restarts used size (anyLive granted)) :
    ¬Sound base total next (⟨base + used, size⟩ :: granted) := by
  intro sound
  obtain ⟨positive, back, live⟩ := restarts
  obtain ⟨range, listed, atBase, notEmpty⟩ := placed.at_base live
  have apart := (List.pairwise_cons.mp sound.apart).1 range listed
  rw [Range.addresses, Range.addresses, Set.disjoint_left] at apart
  exact apart (a := base) ⟨by dsimp only; omega, by dsimp only; omega⟩ ⟨by omega, by omega⟩

end Grant

/-- The functions of an allocator, with what its arenas are made of and the last
place that their marks can have. -/
structure Allocator (Arena Request : Type) where
  alloc : Arena → Request → Arena × Option Nat
  reset : Arena → Arena
  size : Request → Nat
  last : Nat
  base : Arena → Nat
  total : Arena → Nat
  used : Arena → Nat

inductive Call (Request : Type)
  | alloc (request : Request)
  | reset

/-- An arena with the ranges handed out since the last reset. -/
structure Run (Arena : Type) where
  arena : Arena
  granted : List Range

namespace Allocator

variable {Arena Request : Type} (allocator : Allocator Arena Request)

def step (run : Run Arena) : Call Request → Run Arena
  | .alloc request =>
      let answer := allocator.alloc run.arena request
      { arena := answer.1
        granted := match answer.2 with
          | none => run.granted
          | some start => ⟨start, allocator.size request⟩ :: run.granted }
  | .reset => { arena := allocator.reset run.arena, granted := [] }

def RunSound (run : Run Arena) : Prop :=
  Sound (allocator.base run.arena) (allocator.total run.arena) (allocator.used run.arena)
    run.granted

/-- Every request of the run fits when it is made. -/
def CallFits (fits : Arena → Bool → Request → Prop) (run : Run Arena) : Call Request → Prop
  | .alloc request => fits run.arena (anyLive run.granted) request
  | .reset => True

instance (fits : Arena → Bool → Request → Prop)
    [∀ arena live request, Decidable (fits arena live request)]
    (run : Run Arena) (call : Call Request) : Decidable (CallFits fits run call) :=
  match call with
  | .alloc request => inferInstanceAs (Decidable (fits run.arena (anyLive run.granted) request))
  | .reset => .isTrue trivial

/-- The laws of a bump allocator, for the arenas that satisfy an invariant. -/
structure Lawful (invariant : Arena → Prop) (fits : Arena → Bool → Request → Prop) : Prop where
  alloc_invariant : ∀ {arena} request, invariant arena →
    invariant (allocator.alloc arena request).1
  reset_invariant : ∀ {arena}, invariant arena → invariant (allocator.reset arena)
  alloc_base : ∀ arena request,
    allocator.base (allocator.alloc arena request).1 = allocator.base arena
  alloc_total : ∀ arena request,
    allocator.total (allocator.alloc arena request).1 = allocator.total arena
  reset_used : ∀ arena, allocator.used (allocator.reset arena) = 0
  outcome : ∀ {arena} request {live}, invariant arena →
    (live = true → allocator.used arena = 0 → allocator.last < allocator.total arena) →
    Outcome (allocator.base arena) (allocator.total arena) allocator.last (allocator.used arena)
      (allocator.size request) live (fits arena live request)
      (allocator.used (allocator.alloc arena request).1) (allocator.alloc arena request).2

variable {allocator} {invariant : Arena → Prop} {fits : Arena → Bool → Request → Prop}
  {run : Run Arena}

theorem step_alloc_none {request : Request}
    (refused : (allocator.alloc run.arena request).2 = none) :
    (allocator.step run (.alloc request)).granted = run.granted := by
  simp only [step, refused]

theorem step_alloc_some {request : Request} {start : Nat}
    (answered : (allocator.alloc run.arena request).2 = some start) :
    (allocator.step run (.alloc request)).granted =
      ⟨start, allocator.size request⟩ :: run.granted := by
  simp only [step, answered]

/-- What holds before each call of a run whose requests fit. -/
structure Kept (allocator : Allocator Arena Request) (invariant : Arena → Prop)
    (run : Run Arena) : Prop where
  arena : invariant run.arena
  placed : Placed (allocator.base run.arena) (allocator.total run.arena) allocator.last
    (allocator.used run.arena) run.granted

/-- A request that fits leaves the ranges and the mark placed. -/
theorem Lawful.step_placed (lawful : allocator.Lawful invariant fits)
    (kept : allocator.Kept invariant run) (call : Call Request) (met : CallFits fits run call) :
    Placed (allocator.base (allocator.step run call).arena)
      (allocator.total (allocator.step run call).arena) allocator.last
      (allocator.used (allocator.step run call).arena) (allocator.step run call).granted := by
  cases call with
  | reset =>
      change Placed _ _ _ (allocator.used (allocator.reset run.arena)) []
      rw [lawful.reset_used]
      exact Placed.nil
  | alloc request =>
      change Placed (allocator.base (allocator.alloc run.arena request).1)
        (allocator.total (allocator.alloc run.arena request).1) allocator.last
        (allocator.used (allocator.alloc run.arena request).1) _
      have outcome := lawful.outcome request kept.arena kept.placed.last_lt
      rw [lawful.alloc_base, lawful.alloc_total]
      generalize marked : allocator.used (allocator.alloc run.arena request).1 = next at outcome ⊢
      generalize answered : (allocator.alloc run.arena request).2 = answer at outcome
      cases outcome with
      | refused _ =>
          rw [step_alloc_none answered]
          exact kept.placed
      | granted _ fresh enough nothing _ =>
          rw [step_alloc_some answered]
          exact kept.placed.grant fresh enough nothing
      | whole _ _ positive wide _ =>
          rw [step_alloc_some answered]
          exact kept.placed.grant_whole positive wide
      | excessive tooLarge _ => exact absurd met tooLarge
      | restarted tooLate _ => exact absurd met tooLate

/-- One call keeps the ranges sound exactly when its request fits. -/
theorem Lawful.step_sound_iff (lawful : allocator.Lawful invariant fits)
    (kept : allocator.Kept invariant run) (sound : allocator.RunSound run) (call : Call Request) :
    allocator.RunSound (allocator.step run call) ↔ CallFits fits run call := by
  cases call with
  | reset =>
      have empty : allocator.RunSound (allocator.step run .reset) := by
        apply Sound.nil
        change allocator.used (allocator.reset run.arena) ≤ _
        rw [lawful.reset_used]
        exact Nat.zero_le _
      exact iff_of_true empty trivial
  | alloc request =>
      change Sound (allocator.base (allocator.alloc run.arena request).1)
        (allocator.total (allocator.alloc run.arena request).1)
        (allocator.used (allocator.alloc run.arena request).1) _ ↔
        fits run.arena (anyLive run.granted) request
      have outcome := lawful.outcome request kept.arena kept.placed.last_lt
      rw [lawful.alloc_base, lawful.alloc_total]
      generalize marked : allocator.used (allocator.alloc run.arena request).1 = next at outcome ⊢
      generalize answered : (allocator.alloc run.arena request).2 = answer at outcome
      cases outcome with
      | refused met =>
          rw [step_alloc_none answered]
          exact iff_of_true sound met
      | granted met fresh enough _ room =>
          rw [step_alloc_some answered]
          exact iff_of_true (Sound.grant sound (kept.placed.apart fresh) (by omega) room) met
      | whole met fresh _ _ room =>
          rw [step_alloc_some answered]
          exact iff_of_true (Sound.grant sound (kept.placed.apart fresh) room (Nat.zero_le _)) met
      | excessive tooLarge past =>
          rw [step_alloc_some answered]
          refine iff_of_false (fun still => ?_) tooLarge
          have latest := still.inside _ List.mem_cons_self
          dsimp only at latest
          omega
      | restarted tooLate restarts =>
          rw [step_alloc_some answered]
          exact iff_of_false (kept.placed.not_sound_of_restarts restarts) tooLate

theorem Lawful.step_kept (lawful : allocator.Lawful invariant fits)
    (kept : allocator.Kept invariant run) (call : Call Request) (met : CallFits fits run call) :
    allocator.Kept invariant (allocator.step run call) where
  arena := by
    cases call with
    | alloc request => exact lawful.alloc_invariant request kept.arena
    | reset => exact lawful.reset_invariant kept.arena
  placed := lawful.step_placed kept call met

/-- A run keeps its ranges inside and apart exactly when every request fits. -/
theorem Lawful.sound_iff (lawful : allocator.Lawful invariant fits) {arena : Arena}
    (holds : invariant arena) (unused : allocator.used arena = 0) (calls : List (Call Request)) :
    Always allocator.step allocator.RunSound ⟨arena, []⟩ calls ↔
      Throughout allocator.step (CallFits fits) ⟨arena, []⟩ calls := by
  have start : allocator.Kept invariant ⟨arena, []⟩ := by
    refine ⟨holds, ?_⟩
    rw [unused]
    exact Placed.nil
  have sound : allocator.RunSound ⟨arena, []⟩ := Sound.nil (by simp [unused])
  have anyCall : Throughout allocator.step (fun _ _ => True) ⟨arena, []⟩ calls :=
    throughout_of_forall fun _ _ => trivial
  apply anyCall.always_iff _ _ start sound
  · exact fun run call kept _ met => lawful.step_kept kept call met
  · exact fun run call kept sound _ => lawful.step_sound_iff kept sound call

end Allocator

end BumpRegion

end MiniIotRobotEdge

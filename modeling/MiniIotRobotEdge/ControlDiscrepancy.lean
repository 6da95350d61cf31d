import Mathlib.Data.List.Forall2
import Mathlib.Data.List.Induction
import MiniIotRobotEdge.ControlSafetyPlc
import MiniIotRobotEdge.StepRuns

/-!
# Dual channels of the safety controller

The model of the functions of `safety_plc.c` on dual channels.  A channel holds
only the time since which its inputs differ, with zero for inputs that agree, so
that a difference seen at the time zero is forgotten.  A watched channel is the
abstract one: it holds all its observations.  Two channels can have one number
after a removal, and are then observed together.
-/

namespace MiniIotRobotEdge

namespace Control

open AnsweredRuns

section Functions

/-- `safety_dual_channel_t`. -/
structure DualChannel where
  channelId : Nat
  inputA : Bool
  inputB : Bool
  prevInputA : Bool
  prevInputB : Bool
  discrepancyTimerMs : UInt32
  discrepancyAlarm : Bool
  healthy : Bool
  lastChangeTick : UInt32
  deriving DecidableEq, Repr

/-- What a call of `safety_update_channel_inputs` reports. -/
structure Observation where
  inputA : Bool
  inputB : Bool
  currentTimeMs : UInt32
  deriving DecidableEq, Repr

def safetyDiscrepancyMs : UInt32 := 100

def newDualChannel (channelId : Nat) : DualChannel where
  channelId := channelId
  inputA := false
  inputB := false
  prevInputA := false
  prevInputB := false
  discrepancyTimerMs := 0
  discrepancyAlarm := false
  healthy := true
  lastChangeTick := 0

def addDualChannel (channels : List DualChannel) : List DualChannel × Nat :=
  if safetyMaxChannels ≤ channels.length then (channels, 0)
  else (channels ++ [newDualChannel (channels.length + 1)], channels.length + 1)

/-- The part of a channel that the rest of the controller reads. -/
def DualChannel.brief (ch : DualChannel) : SafetyDualChannel := ⟨ch.channelId, ch.healthy⟩

theorem safetyAddDualChannel_brief {sc : SafetyController} {channels : List DualChannel}
    (same : sc.channels = channels.map DualChannel.brief) :
    safetyAddDualChannel sc =
      ({ sc with channels := (addDualChannel channels).1.map DualChannel.brief },
        (addDualChannel channels).2) := by
  rw [safetyAddDualChannel, addDualChannel, same, List.length_map]
  split_ifs
  · rw [← same]
  · simp [DualChannel.brief, newDualChannel]

def removeFirst (channelId : Nat) : List DualChannel → List DualChannel × Bool
  | [] => ([], false)
  | ch :: rest =>
      if ch.channelId = channelId then (rest, true)
      else (ch :: (removeFirst channelId rest).1, (removeFirst channelId rest).2)

def safetyRemoveChannel (channels : List DualChannel) (channelId : Nat) :
    List DualChannel × Bool :=
  if channelId = 0 then (channels, false) else removeFirst channelId channels

def nextTimer (timer : UInt32) (observed : Observation) : UInt32 :=
  if observed.inputA ≠ observed.inputB then
    if timer = 0 then observed.currentTimeMs else timer
  else 0

def DualChannel.observe (ch : DualChannel) (observed : Observation) : DualChannel :=
  { ch with
    prevInputA := ch.inputA
    prevInputB := ch.inputB
    inputA := observed.inputA
    inputB := observed.inputB
    discrepancyTimerMs := nextTimer ch.discrepancyTimerMs observed
    lastChangeTick := observed.currentTimeMs }

def safetyUpdateChannelInputs (channels : List DualChannel) (channelId : Nat)
    (observed : Observation) : List DualChannel :=
  channels.map fun ch => if ch.channelId = channelId then ch.observe observed else ch

def safetyIsChannelHealthy (channelId : Nat) : List DualChannel → Bool
  | [] => false
  | ch :: rest =>
      if ch.channelId = channelId then ch.healthy else safetyIsChannelHealthy channelId rest

def safetyCheckDiscrepancy (channelId : Nat) (currentTimeMs : UInt32) :
    List DualChannel → List DualChannel × Bool
  | [] => ([], false)
  | ch :: rest =>
      if ch.channelId = channelId ∧ 0 < ch.discrepancyTimerMs ∧
          safetyDiscrepancyMs < currentTimeMs - ch.discrepancyTimerMs then
        ({ ch with discrepancyAlarm := true, healthy := false } :: rest, true)
      else
        (ch :: (safetyCheckDiscrepancy channelId currentTimeMs rest).1,
          (safetyCheckDiscrepancy channelId currentTimeMs rest).2)

end Functions

section Calls

inductive ChannelCall
  | add
  | remove (channelId : Nat)
  | update (channelId : Nat) (observed : Observation)
  | isHealthy (channelId : Nat)
  | check (channelId : Nat) (currentTimeMs : UInt32)

inductive ChannelAnswer
  | number (channelId : Nat)
  | flag (value : Bool)
  | nothing
  deriving DecidableEq

def channelCall (channels : List DualChannel) : ChannelCall → List DualChannel × ChannelAnswer
  | .add => ((addDualChannel channels).1, .number (addDualChannel channels).2)
  | .remove channelId =>
      ((safetyRemoveChannel channels channelId).1, .flag (safetyRemoveChannel channels channelId).2)
  | .update channelId observed => (safetyUpdateChannelInputs channels channelId observed, .nothing)
  | .isHealthy channelId => (channels, .flag (safetyIsChannelHealthy channelId channels))
  | .check channelId currentTimeMs =>
      ((safetyCheckDiscrepancy channelId currentTimeMs channels).1,
        .flag (safetyCheckDiscrepancy channelId currentTimeMs channels).2)

end Calls

section Watched

/-- The inputs differ since this time: it is the first one other than zero in the run
of differing inputs at the end. -/
def DiffersSince (observations : List Observation) (time : UInt32) : Prop :=
  ∃ front quiet first rest, observations = front ++ quiet ++ first :: rest ∧
    first.currentTimeMs = time ∧ time ≠ 0 ∧
    (∀ last ∈ front.getLast?, last.inputA = last.inputB) ∧
    (∀ observed ∈ quiet, observed.inputA ≠ observed.inputB ∧ observed.currentTimeMs = 0) ∧
    ∀ observed ∈ first :: rest, observed.inputA ≠ observed.inputB

def Overdue (observations : List Observation) (now : UInt32) : Prop :=
  ∃ time, DiffersSince observations time ∧ safetyDiscrepancyMs < now - time

/-- A channel with all that was observed of it, and whether a check has found it
overdue. -/
structure WatchedChannel where
  channelId : Nat
  observations : List Observation
  reported : Bool

def watchAdd (watched : List WatchedChannel) : List WatchedChannel × Nat :=
  if safetyMaxChannels ≤ watched.length then (watched, 0)
  else (watched ++ [⟨watched.length + 1, [], false⟩], watched.length + 1)

def watchRemove (channelId : Nat) : List WatchedChannel → List WatchedChannel × Bool
  | [] => ([], false)
  | first :: rest =>
      if first.channelId = channelId then (rest, true)
      else (first :: (watchRemove channelId rest).1, (watchRemove channelId rest).2)

def watchUpdate (watched : List WatchedChannel) (channelId : Nat) (observed : Observation) :
    List WatchedChannel :=
  watched.map fun one =>
    if one.channelId = channelId then { one with observations := one.observations ++ [observed] }
    else one

def watchHealthy (channelId : Nat) : List WatchedChannel → Bool
  | [] => false
  | first :: rest =>
      if first.channelId = channelId then !first.reported else watchHealthy channelId rest

open Classical in
/-- The first channel with the number that is overdue is reported. -/
noncomputable def watchCheck (channelId : Nat) (now : UInt32) :
    List WatchedChannel → List WatchedChannel × Bool
  | [] => ([], false)
  | first :: rest =>
      if first.channelId = channelId ∧ Overdue first.observations now then
        ({ first with reported := true } :: rest, true)
      else (first :: (watchCheck channelId now rest).1, (watchCheck channelId now rest).2)

noncomputable def watchCall (watched : List WatchedChannel) :
    ChannelCall → List WatchedChannel × ChannelAnswer
  | .add => ((watchAdd watched).1, .number (watchAdd watched).2)
  | .remove channelId =>
      if channelId = 0 then (watched, .flag false)
      else ((watchRemove channelId watched).1, .flag (watchRemove channelId watched).2)
  | .update channelId observed => (watchUpdate watched channelId observed, .nothing)
  | .isHealthy channelId => (watched, .flag (watchHealthy channelId watched))
  | .check channelId now =>
      ((watchCheck channelId now watched).1, .flag (watchCheck channelId now watched).2)

end Watched

section Timer

/-- The timer after these observations. -/
def timerAfter (observations : List Observation) : UInt32 := observations.foldl nextTimer 0

@[simp]
theorem timerAfter_concat (observations : List Observation) (observed : Observation) :
    timerAfter (observations ++ [observed]) = nextTimer (timerAfter observations) observed := by
  rw [timerAfter, List.foldl_append]
  rfl

theorem foldl_nextTimer_of_differ {observations : List Observation} {timer : UInt32}
    (started : timer ≠ 0)
    (differ : ∀ observed ∈ observations, observed.inputA ≠ observed.inputB) :
    observations.foldl nextTimer timer = timer := by
  induction observations with
  | nil => rfl
  | cons observed rest ih =>
      rw [List.foldl_cons, nextTimer, if_pos (differ observed List.mem_cons_self), if_neg started]
      exact ih fun other listed => differ other (List.mem_cons_of_mem observed listed)

theorem foldl_nextTimer_of_quiet {observations : List Observation}
    (quiet : ∀ observed ∈ observations,
      observed.inputA ≠ observed.inputB ∧ observed.currentTimeMs = 0) :
    observations.foldl nextTimer 0 = 0 := by
  induction observations with
  | nil => rfl
  | cons observed rest ih =>
      obtain ⟨differs, unseen⟩ := quiet observed List.mem_cons_self
      rw [List.foldl_cons, nextTimer, if_pos differs, if_pos rfl, unseen]
      exact ih fun other listed => quiet other (List.mem_cons_of_mem observed listed)

theorem timerAfter_of_agrees {front : List Observation}
    (ends : ∀ last ∈ front.getLast?, last.inputA = last.inputB) : timerAfter front = 0 := by
  rcases List.eq_nil_or_concat front with rfl | ⟨before, last, rfl⟩
  · rfl
  · have agrees := ends last (by simp)
    simp [nextTimer, agrees]

theorem DiffersSince.timerAfter_eq {observations : List Observation} {time : UInt32}
    (since : DiffersSince observations time) : timerAfter observations = time := by
  obtain ⟨front, quiet, first, rest, rfl, seen, started, ends, forgotten, differ⟩ := since
  have before := timerAfter_of_agrees ends
  rw [timerAfter] at before
  rw [timerAfter, List.foldl_append, List.foldl_append, before,
    foldl_nextTimer_of_quiet forgotten, List.foldl_cons, nextTimer,
    if_pos (differ first List.mem_cons_self), if_pos rfl, seen]
  exact foldl_nextTimer_of_differ started fun observed listed =>
    differ observed (List.mem_cons_of_mem first listed)

/-- A timer that stands still has seen agreeing inputs last, or differing ones at the
time zero only. -/
theorem exists_quiet_of_timerAfter_eq_zero (observations : List Observation)
    (stopped : timerAfter observations = 0) :
    ∃ front quiet, observations = front ++ quiet ∧
      (∀ last ∈ front.getLast?, last.inputA = last.inputB) ∧
      ∀ observed ∈ quiet, observed.inputA ≠ observed.inputB ∧ observed.currentTimeMs = 0 := by
  induction observations using List.reverseRecOn with
  | nil => exact ⟨[], [], rfl, by simp, by simp⟩
  | append_singleton before observed ih =>
      by_cases agrees : observed.inputA = observed.inputB
      · exact ⟨before ++ [observed], [], by simp, by simpa using agrees, by simp⟩
      · rw [timerAfter_concat, nextTimer, if_pos agrees] at stopped
        have earlier : timerAfter before = 0 := by
          by_contra started
          rw [if_neg started] at stopped
          exact started stopped
        rw [if_pos earlier] at stopped
        obtain ⟨front, quiet, rfl, ends, forgotten⟩ := ih earlier
        refine ⟨front, quiet ++ [observed], by simp, ends, ?_⟩
        intro other listed
        rcases List.mem_append.mp listed with old | new
        · exact forgotten other old
        · rw [List.mem_singleton.mp new]
          exact ⟨agrees, stopped⟩

theorem differsSince_timerAfter (observations : List Observation)
    (started : timerAfter observations ≠ 0) :
    DiffersSince observations (timerAfter observations) := by
  induction observations using List.reverseRecOn with
  | nil => exact absurd rfl started
  | append_singleton before observed ih =>
      rw [timerAfter_concat, nextTimer] at started ⊢
      by_cases differs : observed.inputA ≠ observed.inputB
      · rw [if_pos differs] at started ⊢
        by_cases stopped : timerAfter before = 0
        · rw [if_pos stopped] at started ⊢
          obtain ⟨front, quiet, rfl, ends, forgotten⟩ :=
            exists_quiet_of_timerAfter_eq_zero before stopped
          exact ⟨front, quiet, observed, [], rfl, rfl, started, ends, forgotten,
            by simpa using differs⟩
        · rw [if_neg stopped]
          obtain ⟨front, quiet, first, rest, split, seen, later, ends, forgotten, differ⟩ :=
            ih stopped
          refine ⟨front, quiet, first, rest ++ [observed], by rw [split]; simp, seen, later, ends,
            forgotten, ?_⟩
          intro other listed
          rw [← List.cons_append] at listed
          rcases List.mem_append.mp listed with old | new
          · exact differ other old
          · rw [List.mem_singleton.mp new]
            exact differs
      · rw [if_neg differs] at started
        exact absurd rfl started

theorem overdue_iff {observations : List Observation} {now : UInt32} :
    Overdue observations now ↔
      0 < timerAfter observations ∧ safetyDiscrepancyMs < now - timerAfter observations := by
  constructor
  · rintro ⟨time, since, late⟩
    have started := since
    obtain ⟨_, _, _, _, _, _, started, _⟩ := started
    rw [since.timerAfter_eq]
    exact ⟨UInt32.pos_iff_ne_zero.mpr started, late⟩
  · rintro ⟨started, late⟩
    exact ⟨_, differsSince_timerAfter observations (UInt32.pos_iff_ne_zero.mp started), late⟩

end Timer

section Refinement

/-- The channel stands for what was observed of it. -/
structure Tracks (ch : DualChannel) (watched : WatchedChannel) : Prop where
  channelId : ch.channelId = watched.channelId
  timer : ch.discrepancyTimerMs = timerAfter watched.observations
  healthy : ch.healthy = !watched.reported

variable {channels : List DualChannel} {watched : List WatchedChannel}

theorem tracks_add (tracks : List.Forall₂ Tracks channels watched) :
    (addDualChannel channels).2 = (watchAdd watched).2 ∧
      List.Forall₂ Tracks (addDualChannel channels).1 (watchAdd watched).1 := by
  rw [addDualChannel, watchAdd, tracks.length_eq]
  split_ifs
  · exact ⟨rfl, tracks⟩
  · exact ⟨rfl, List.rel_append tracks (.cons ⟨rfl, rfl, rfl⟩ .nil)⟩

theorem tracks_remove (channelId : Nat) (tracks : List.Forall₂ Tracks channels watched) :
    (removeFirst channelId channels).2 = (watchRemove channelId watched).2 ∧
      List.Forall₂ Tracks (removeFirst channelId channels).1 (watchRemove channelId watched).1 := by
  induction tracks with
  | nil => exact ⟨rfl, .nil⟩
  | cons head tail ih =>
      rw [removeFirst, watchRemove, head.channelId]
      split_ifs
      · exact ⟨rfl, tail⟩
      · exact ⟨ih.1, .cons head ih.2⟩

theorem tracks_update (channelId : Nat) (observed : Observation)
    (tracks : List.Forall₂ Tracks channels watched) :
    List.Forall₂ Tracks (safetyUpdateChannelInputs channels channelId observed)
      (watchUpdate watched channelId observed) := by
  induction tracks with
  | nil => exact .nil
  | cons head tail ih =>
      refine .cons ?_ ih
      dsimp only
      rw [head.channelId]
      split_ifs
      · exact ⟨head.channelId, by rw [timerAfter_concat, ← head.timer]; rfl, head.healthy⟩
      · exact head

theorem healthy_eq (channelId : Nat) (tracks : List.Forall₂ Tracks channels watched) :
    safetyIsChannelHealthy channelId channels = watchHealthy channelId watched := by
  induction tracks with
  | nil => rfl
  | cons head tail ih =>
      rw [safetyIsChannelHealthy, watchHealthy, head.channelId, head.healthy, ih]

theorem tracks_check (channelId : Nat) (now : UInt32)
    (tracks : List.Forall₂ Tracks channels watched) :
    (safetyCheckDiscrepancy channelId now channels).2 = (watchCheck channelId now watched).2 ∧
      List.Forall₂ Tracks (safetyCheckDiscrepancy channelId now channels).1
        (watchCheck channelId now watched).1 := by
  induction tracks with
  | nil => exact ⟨rfl, .nil⟩
  | @cons ch one _ _ head tail ih =>
      rw [safetyCheckDiscrepancy, watchCheck]
      by_cases late : one.channelId = channelId ∧ Overdue one.observations now
      · have alarm := late
        rw [overdue_iff, ← head.timer, ← head.channelId] at alarm
        rw [if_pos alarm, if_pos late]
        exact ⟨rfl, .cons ⟨head.channelId, head.timer, rfl⟩ tail⟩
      · have quiet := late
        rw [overdue_iff, ← head.timer, ← head.channelId] at quiet
        rw [if_neg quiet, if_neg late]
        exact ⟨ih.1, .cons head ih.2⟩

theorem channelCall_simulates :
    Simulates channelCall (fun state call answer next => watchCall state call = (next, answer))
      (List.Forall₂ Tracks) := by
  intro channels watched call tracks
  cases call with
  | add =>
      obtain ⟨same, next⟩ := tracks_add tracks
      exact ⟨(watchAdd watched).1, by simp only [watchCall, channelCall, same], next⟩
  | remove channelId =>
      obtain ⟨same, next⟩ := tracks_remove channelId tracks
      rw [channelCall, safetyRemoveChannel]
      by_cases unused : channelId = 0
      · simp only [if_pos unused]
        exact ⟨watched, by rw [watchCall, if_pos unused], tracks⟩
      · simp only [if_neg unused]
        exact ⟨(watchRemove channelId watched).1, by rw [watchCall, if_neg unused, same], next⟩
  | update channelId observed =>
      exact ⟨watchUpdate watched channelId observed, rfl, tracks_update channelId observed tracks⟩
  | isHealthy channelId =>
      exact ⟨watched, by simp only [watchCall, channelCall, healthy_eq channelId tracks], tracks⟩
  | check channelId now =>
      obtain ⟨same, next⟩ := tracks_check channelId now tracks
      exact ⟨(watchCheck channelId now watched).1, by simp only [watchCall, channelCall, same], next⟩

end Refinement

/-- Every answer of a controller is the one that follows from all the observations made
since its channels were added. -/
theorem channelCall_run_eq (calls : List ChannelCall) :
    (run channelCall [] calls).2 = (run watchCall [] calls).2 := by
  obtain ⟨last, permits, _⟩ := channelCall_simulates.run .nil calls
  rw [permits_run permits]

end Control

end MiniIotRobotEdge

import Mathlib.Data.List.GetD
import MiniIotRobotEdge.StepRuns

/-!
# Stopping a pipeline of mini-edge-ai

The model of the control of a pipeline in `edge_pipeline.c`.  The code runs from
one call of the API to the next: calls come from outside or from a callback of a
stage, which may call anything, and in between a pass goes from stage to stage.
`pipeline_run` writes the state at the end of every pass, and a stop that was
requested during the pass is lost.
-/

namespace MiniIotRobotEdge

namespace Ai

open StepRuns

inductive PipelineState
  | idle
  | running
  | stopped
  | error
  deriving DecidableEq, Repr

/-- The callback, if it is not null, and the result of its last call. -/
structure PipelineStage where
  hasFn : Bool
  ok : Bool
  deriving DecidableEq, Repr

structure PipelineCtx where
  state : PipelineState
  stages : List PipelineStage
  deriving DecidableEq, Repr

/-- A pass in progress: the stage whose callback is running, and for a pass of
`pipeline_run_loop` the iterations that are left. -/
structure PipelinePass where
  stage : Nat
  iterations : Option Nat
  deriving DecidableEq, Repr

/-- The pipeline with its passes in progress, the innermost one first. -/
structure Pipeline where
  ctx : PipelineCtx
  passes : List PipelinePass
  deriving DecidableEq, Repr

inductive PipelineCall
  | addStage (hasFn : Bool)
  | run
  | runLoop (maxIterations : Int)
  | stop
  /-- The callback that is running returns. -/
  | returns (rc : Int)

def maxPipelineStages : Nat := 8

def pipelineCreate : Pipeline := ⟨⟨.idle, []⟩, []⟩

def pipelineGetState (ctx : PipelineCtx) : PipelineState := ctx.state

def pipelineAddStage (ctx : PipelineCtx) (hasFn : Bool) : PipelineCtx :=
  if maxPipelineStages ≤ ctx.stages.length then ctx
  else { ctx with stages := ctx.stages ++ [⟨hasFn, false⟩] }

/-- The first stage from `i` on that has a callback. -/
def PipelineCtx.nextStage (ctx : PipelineCtx) (i : Nat) : Option Nat :=
  ((ctx.stages.drop i).findIdx? PipelineStage.hasFn).map (i + ·)

/-- `pipeline_run` from stage `i` on, up to the next callback or to its end. -/
def PipelineCtx.continueRun (ctx : PipelineCtx) (i : Nat) : PipelineCtx × Option Nat :=
  match ctx.nextStage i with
  | some stage => (ctx, some stage)
  | none => ({ ctx with state := .idle }, none)

def pipelineRun (ctx : PipelineCtx) : PipelineCtx × Option Nat :=
  if ctx.state = .error then (ctx, none)
  else PipelineCtx.continueRun { ctx with state := .running } 0

/-- What `pipeline_run_loop` does up to the next callback or to its end, with the
number of iterations that it starts. -/
def pipelineRunLoop : Nat → PipelineCtx → PipelineCtx × Option PipelinePass × Nat
  | 0, ctx => (ctx, none, 0)
  | iterations + 1, ctx =>
      if ctx.state = .stopped then (ctx, none, 0)
      else
        match pipelineRun ctx with
        | (ctx, some stage) => (ctx, some ⟨stage, some iterations⟩, 1)
        | (ctx, none) =>
            let (ctx, pass, started) := pipelineRunLoop iterations ctx
            (ctx, pass, started + 1)

def pipelineStop (ctx : PipelineCtx) : PipelineCtx := { ctx with state := .stopped }

/-- The result of a callback is noted. -/
def PipelineCtx.setOk (ctx : PipelineCtx) (stage : Nat) (rc : Int) : PipelineCtx :=
  { ctx with stages := ctx.stages.modify stage fun info => { info with ok := rc = 0 } }

/-- The pass goes on behind its callback; at its end the loop that it belongs to does. -/
def PipelineCtx.continuePass (ctx : PipelineCtx) (pass : PipelinePass) :
    PipelineCtx × Option PipelinePass × Nat :=
  match ctx.continueRun (pass.stage + 1) with
  | (ctx, some stage) => (ctx, some { pass with stage := stage }, 0)
  | (ctx, none) =>
      match pass.iterations with
      | none => (ctx, none, 0)
      | some iterations => pipelineRunLoop iterations ctx

/-- One call, with what the code does until it is the caller's turn again, and the
number of iterations of `pipeline_run_loop` that start. -/
def pipelineCall (pipeline : Pipeline) : PipelineCall → Pipeline × Nat
  | .addStage hasFn => ({ pipeline with ctx := pipelineAddStage pipeline.ctx hasFn }, 0)
  | .run =>
      let (ctx, stage) := pipelineRun pipeline.ctx
      (⟨ctx, (stage.map fun stage => ⟨stage, none⟩).toList ++ pipeline.passes⟩, 0)
  | .runLoop maxIterations =>
      let (ctx, pass, started) := pipelineRunLoop maxIterations.toNat pipeline.ctx
      (⟨ctx, pass.toList ++ pipeline.passes⟩, started)
  | .stop => ({ pipeline with ctx := pipelineStop pipeline.ctx }, 0)
  | .returns rc =>
      match pipeline.passes with
      | [] => (pipeline, 0)
      | pass :: outer =>
          let (ctx, pass, started) := (pipeline.ctx.setOk pass.stage rc).continuePass pass
          (⟨ctx, pass.toList ++ outer⟩, started)

/-- The pipeline, and whether it was stopped since the last explicit run. -/
structure StoppablePipeline where
  pipeline : Pipeline
  stopPending : Bool

def StoppablePipeline.initial : StoppablePipeline := ⟨pipelineCreate, false⟩

def stopPendingAfter (pending : Bool) : PipelineCall → Bool
  | .stop => true
  | .run => false
  | _ => pending

def stoppableStep (before : StoppablePipeline) (call : PipelineCall) : StoppablePipeline :=
  ⟨(pipelineCall before.pipeline call).1, stopPendingAfter before.stopPending call⟩

/-- A pending stop keeps the state, and no iteration starts. -/
def StopKept (before : StoppablePipeline) (call : PipelineCall) : Prop :=
  (stoppableStep before call).stopPending = true →
    pipelineGetState (stoppableStep before call).pipeline.ctx = .stopped ∧
      (pipelineCall before.pipeline call).2 = 0

/-- No callback returns at the end of its pass while the pipeline is stopped. -/
def NotStoppedInPass (before : StoppablePipeline) (call : PipelineCall) : Prop :=
  ∀ rc pass outer, call = .returns rc → before.pipeline.passes = pass :: outer →
    before.pipeline.ctx.state = .stopped →
      before.pipeline.ctx.nextStage (pass.stage + 1) ≠ none

section Steps

variable {ctx : PipelineCtx}

def PipelineCtx.Going (ctx : PipelineCtx) : Prop := ctx.state = .idle ∨ ctx.state = .running

theorem going_iff : ctx.Going ↔ ctx.state ≠ .error ∧ ctx.state ≠ .stopped := by
  rw [PipelineCtx.Going]
  cases ctx.state <;> simp

theorem PipelineCtx.going_continueRun (i : Nat) (going : ctx.Going) : (ctx.continueRun i).1.Going := by
  rw [PipelineCtx.continueRun]
  split
  · exact going
  · exact .inl rfl

theorem pipelineRun_going (sound : ctx.state ≠ .error) : (pipelineRun ctx).1.Going := by
  rw [pipelineRun, if_neg sound]
  exact PipelineCtx.going_continueRun 0 (.inr rfl)

/-- A stopped pipeline starts no iteration. -/
theorem pipelineRunLoop_stopped (iterations : Nat) (stopped : ctx.state = .stopped) :
    pipelineRunLoop iterations ctx = (ctx, none, 0) := by
  cases iterations with
  | zero => rfl
  | succ iterations => rw [pipelineRunLoop, if_pos stopped]

/-- A loop does not stop by itself. -/
theorem pipelineRunLoop_going (iterations : Nat) (going : ctx.Going) :
    (pipelineRunLoop iterations ctx).1.Going := by
  induction iterations generalizing ctx with
  | zero => exact going
  | succ iterations ih =>
      obtain ⟨sound, notStopped⟩ := going_iff.mp going
      have next := pipelineRun_going sound
      rw [pipelineRunLoop, if_neg notStopped]
      split
      case _ after stage ran =>
        rw [ran] at next
        exact next
      case _ after ran =>
        rw [ran] at next
        exact ih next

theorem setOk_nextStage (stage : Nat) (rc : Int) (i : Nat) :
    (ctx.setOk stage rc).nextStage i = ctx.nextStage i := by
  have sameFns : (ctx.setOk stage rc).stages.map PipelineStage.hasFn =
      ctx.stages.map PipelineStage.hasFn := by
    apply List.ext_getElem?
    intro index
    rw [PipelineCtx.setOk, List.getElem?_map, List.getElem?_map, List.getElem?_modify]
    cases ctx.stages[index]? with
    | none => rfl
    | some info => split <;> rfl
  have search : ∀ stages : List PipelineStage,
      stages.findIdx? PipelineStage.hasFn = (stages.map PipelineStage.hasFn).findIdx? id :=
    fun stages => by rw [List.findIdx?_map, Function.id_comp]
  rw [PipelineCtx.nextStage, PipelineCtx.nextStage, search, search, List.map_drop, List.map_drop,
    sameFns]

/-- A pass with another stage to go only goes on. -/
theorem continuePass_some {pass : PipelinePass} {stage : Nat}
    (next : ctx.nextStage (pass.stage + 1) = some stage) :
    ctx.continuePass pass = (ctx, some { pass with stage := stage }, 0) := by
  rw [PipelineCtx.continuePass, PipelineCtx.continueRun, next]

/-- The end of a pass overwrites the state. -/
theorem continuePass_none {pass : PipelinePass} (last : ctx.nextStage (pass.stage + 1) = none) :
    (ctx.continuePass pass).1.Going := by
  rw [PipelineCtx.continuePass, PipelineCtx.continueRun, last]
  dsimp only
  split
  · exact .inl rfl
  · exact pipelineRunLoop_going _ (.inl rfl)

theorem continuePass_going {pass : PipelinePass} (going : ctx.Going) :
    (ctx.continuePass pass).1.Going := by
  cases next : ctx.nextStage (pass.stage + 1) with
  | none => exact continuePass_none next
  | some stage =>
      rw [continuePass_some next]
      exact going

end Steps

section Runs

variable {before : StoppablePipeline} {call : PipelineCall}

/-- The state is that of a stop exactly while one is pending. -/
structure StoppablePipeline.Sound (before : StoppablePipeline) : Prop where
  pending : before.stopPending = true → before.pipeline.ctx.state = .stopped
  going : before.stopPending = false → before.pipeline.ctx.Going

theorem StoppablePipeline.sound_initial : StoppablePipeline.initial.Sound :=
  ⟨fun pending => by contradiction, fun _ => .inl rfl⟩

theorem StoppablePipeline.Sound.not_error (sound : before.Sound) :
    before.pipeline.ctx.state ≠ .error := by
  cases pending : before.stopPending with
  | true => simp [sound.pending pending]
  | false => exact (going_iff.mp (sound.going pending)).1

theorem pipelineAddStage_state (ctx : PipelineCtx) (hasFn : Bool) :
    (pipelineAddStage ctx hasFn).state = ctx.state := by
  rw [pipelineAddStage]
  split <;> rfl

/-- Without a stop, a call leaves a pipeline that is not stopped. -/
theorem pipelineCall_going {pipeline : Pipeline} (going : pipeline.ctx.Going)
    (noStop : call ≠ .stop) : (pipelineCall pipeline call).1.ctx.Going := by
  cases call with
  | addStage hasFn =>
      rw [PipelineCtx.Going, pipelineCall, pipelineAddStage_state]
      exact going
  | run => exact pipelineRun_going (going_iff.mp going).1
  | runLoop maxIterations => exact pipelineRunLoop_going _ going
  | stop => exact absurd rfl noStop
  | returns rc =>
      rw [pipelineCall]
      split
      · exact going
      · exact continuePass_going going

/-- A step that keeps a pending stop keeps the invariant. -/
theorem StoppablePipeline.Sound.step (sound : before.Sound) (kept : StopKept before call) :
    (stoppableStep before call).Sound where
  pending := fun pending => (kept pending).1
  going := fun notPending => by
    cases call with
    | run => exact pipelineRun_going sound.not_error
    | stop => contradiction
    | addStage hasFn => exact pipelineCall_going (sound.going notPending) (by simp)
    | runLoop maxIterations => exact pipelineCall_going (sound.going notPending) (by simp)
    | returns rc => exact pipelineCall_going (sound.going notPending) (by simp)

/-- A callback that returns keeps the stop exactly if its pass has another stage. -/
theorem returns_stopped_iff {pipeline : Pipeline} {pass : PipelinePass} {outer : List PipelinePass}
    (passes : pipeline.passes = pass :: outer) (stopped : pipeline.ctx.state = .stopped)
    (rc : Int) :
    (pipelineGetState (pipelineCall pipeline (.returns rc)).1.ctx = .stopped ∧
      (pipelineCall pipeline (.returns rc)).2 = 0) ↔
      pipeline.ctx.nextStage (pass.stage + 1) ≠ none := by
  have continued : pipelineCall pipeline (.returns rc) =
      let result := (pipeline.ctx.setOk pass.stage rc).continuePass pass
      (⟨result.1, result.2.1.toList ++ outer⟩, result.2.2) := by
    rw [pipelineCall, passes]
  have same : (pipeline.ctx.setOk pass.stage rc).nextStage (pass.stage + 1) =
      pipeline.ctx.nextStage (pass.stage + 1) := setOk_nextStage pass.stage rc (pass.stage + 1)
  rw [continued]
  cases next : pipeline.ctx.nextStage (pass.stage + 1) with
  | none =>
      have lost := continuePass_none (same.trans next)
      exact iff_of_false (fun kept => (going_iff.mp lost).2 kept.1) fun other => other rfl
  | some stage =>
      rw [continuePass_some (same.trans next)]
      exact iff_of_true ⟨stopped, rfl⟩ (Option.some_ne_none stage)

theorem stopKept_returns_iff (sound : before.Sound) (rc : Int) :
    StopKept before (.returns rc) ↔ NotStoppedInPass before (.returns rc) := by
  cases pending : before.stopPending with
  | false =>
      have going := going_iff.mp (sound.going pending)
      constructor
      · exact fun _ rc pass outer _ _ stopped => absurd stopped going.2
      · exact fun _ isPending => absurd (pending.symm.trans isPending) Bool.false_ne_true
  | true =>
      have stopped := sound.pending pending
      cases passes : before.pipeline.passes with
      | nil =>
          have unchanged : pipelineCall before.pipeline (.returns rc) = (before.pipeline, 0) := by
            rw [pipelineCall, passes]
          constructor
          · intro _ rc pass outer _ isPass
            rw [passes] at isPass
            contradiction
          · intro _ _
            rw [stoppableStep, unchanged]
            exact ⟨stopped, rfl⟩
      | cons pass outer =>
          constructor
          · intro kept _ other rest _ isPass _
            rw [passes] at isPass
            obtain ⟨rfl, rfl⟩ := List.cons.inj isPass
            exact (returns_stopped_iff passes stopped rc).mp (kept pending)
          · intro notStopped _
            exact (returns_stopped_iff passes stopped rc).mpr
              (notStopped rc pass outer rfl passes stopped)

/-- A pending stop is lost exactly at the end of a pass. -/
theorem stopKept_iff (sound : before.Sound) :
    StopKept before call ↔ NotStoppedInPass before call := by
  cases call with
  | addStage hasFn =>
      refine ⟨fun _ rc pass outer same => by contradiction, fun _ pending => ⟨?_, rfl⟩⟩
      exact (pipelineAddStage_state _ hasFn).trans (sound.pending pending)
  | run => exact ⟨fun _ rc pass outer same => by contradiction, fun _ pending => by contradiction⟩
  | runLoop maxIterations =>
      refine ⟨fun _ rc pass outer same => by contradiction, fun _ pending => ?_⟩
      have stopped := sound.pending pending
      rw [stoppableStep, pipelineCall, pipelineRunLoop_stopped _ stopped]
      exact ⟨stopped, rfl⟩
  | stop => exact ⟨fun _ rc pass outer same => by contradiction, fun _ _ => ⟨rfl, rfl⟩⟩
  | returns rc => exact stopKept_returns_iff sound rc

/-- In a run, every stop holds until the next explicit run exactly when no pass ends
while the pipeline is stopped. -/
theorem pipeline_stop_kept_iff (calls : List PipelineCall) :
    Throughout stoppableStep StopKept .initial calls ↔
      Throughout stoppableStep NotStoppedInPass .initial calls := by
  have kept : ∀ (before : StoppablePipeline) (call : PipelineCall), before.Sound →
      StopKept before call → NotStoppedInPass before call → (stoppableStep before call).Sound :=
    fun before call sound kept _ => sound.step kept
  exact throughout_iff kept (fun before call => stopKept_iff) StoppablePipeline.sound_initial

/-- A stop from the callback of the only stage is overwritten, and the loop goes on. -/
theorem pipeline_stop_overwritten :
    ¬∀ calls : List PipelineCall, Throughout stoppableStep StopKept .initial calls := by
  intro always
  have kept := (always [.addStage true, .runLoop 2, .stop, .returns 0]).2.2.2.1
  have stopped := (kept rfl).1
  revert stopped
  decide

end Runs

end Ai

end MiniIotRobotEdge

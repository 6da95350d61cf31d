import Mathlib.Tactic.ByContra
import Mathlib.Tactic.SplitIfs
import MiniIotRobotEdge.OtaClient

/-!
# Verification before installation in mini-ota-update

`download_complete` and `verify_ok` are set by one call, read by another and
never cleared.  A trace, newest event first, says what they should mean: the
latest download has returned OK, and a verification has returned OK since.  The
flags mean that in every run in which no download is started after another one
has completed, or while another one is under way.
-/

namespace MiniIotRobotEdge

namespace Ota

open GuardedRun

/-- The latest download that was started has this number. -/
def latestStarted (index : Nat) : List ClientEvent → Bool
  | [] => false
  | .downloadStarted latest :: _ => latest == index
  | _ :: older => latestStarted index older

/-- The latest download that was started has returned OK. -/
def latestFetched : List ClientEvent → Bool
  | [] => false
  | .downloadStarted _ :: _ => false
  | .downloadReturned index .ok :: older => latestStarted index older || latestFetched older
  | _ :: older => latestFetched older

/-- After the latest download had returned OK, a verification returned OK. -/
def latestVerified : List ClientEvent → Bool
  | [] => false
  | .downloadStarted _ :: _ => false
  | .verifyReturned .ok :: older => latestFetched older || latestVerified older
  | _ :: older => latestVerified older

/-- Every installation that returned OK came after the verification of the
latest download. -/
def installsVerified : List ClientEvent → Bool
  | [] => true
  | .installReturned .ok :: older => latestVerified older && installsVerified older
  | _ :: older => installsVerified older

/-- The download of a frame. -/
def ClientFrame.download : ClientFrame → Option Nat
  | .checking _ => none
  | .atLoop index _ _ => some index
  | .fetching index _ _ => some index

/-- The downloads under way, innermost first. -/
def OtaClientCtx.downloads (ctx : OtaClientCtx) : List Nat :=
  ctx.frames.filterMap ClientFrame.download

/-- A download that gets past its guards is the only one under way, and none
has completed before. -/
def FirstCompletion (ctx : OtaClientCtx) : ClientAction → Prop
  | .downloadFirmware now battery _ => downloadRefused ctx now battery = none →
      ctx.downloadComplete = false ∧ ctx.downloads = []
  | _ => True

instance : (ctx : OtaClientCtx) → (action : ClientAction) → Decidable (FirstCompletion ctx action)
  | ctx, .downloadFirmware now battery _ =>
      inferInstanceAs (Decidable (downloadRefused ctx now battery = none →
        ctx.downloadComplete = false ∧ ctx.downloads = []))
  | _, .setUpdateUrl _ | _, .setPolicy _ | _, .checkForUpdate _ | _, .downloadCancel
  | _, .verifyFirmware | _, .installFirmware _ _ | _, .saveResumeState _ | _, .loadResumeState
  | _, .clearResumeState | _, .loopHead _ | _, .callbackReturns _ _ _ => .isTrue trivial

/-- The flags mean what the trace says. -/
structure FlagsFresh (current : Traced OtaClientCtx ClientEvent) : Prop where
  complete : current.state.downloadComplete = true →
    latestFetched current.trace = true ∧ current.state.downloads = []
  verified : current.state.verifyOk = true →
    current.state.downloadComplete = true ∧ latestVerified current.trace = true
  running : ∀ index ∈ current.state.downloads, latestStarted index current.trace = true
  single : current.state.downloads.length ≤ 1
  installs : installsVerified current.trace = true

/-- The event does not start a download. -/
def ClientEvent.quiet : ClientEvent → Bool
  | .downloadStarted _ => false
  | _ => true

section Quiet

variable {events trace : List ClientEvent} (quiet : ∀ event ∈ events, event.quiet = true)
include quiet

theorem latestStarted_append (index : Nat) :
    latestStarted index (events ++ trace) = latestStarted index trace := by
  induction events with
  | nil => rfl
  | cons event older ih =>
      have rest := ih fun later member => quiet later (List.mem_cons_of_mem _ member)
      have head := quiet event List.mem_cons_self
      cases event <;> first | exact rest | simp [ClientEvent.quiet] at head

theorem latestFetched_append (fetched : latestFetched trace = true) :
    latestFetched (events ++ trace) = true := by
  induction events with
  | nil => exact fetched
  | cons event older ih =>
      have rest := ih fun later member => quiet later (List.mem_cons_of_mem _ member)
      have head := quiet event List.mem_cons_self
      cases event with
      | downloadStarted index => simp [ClientEvent.quiet] at head
      | downloadReturned index result => cases result <;> simp [latestFetched, rest]
      | _ => exact rest

theorem latestVerified_append (verified : latestVerified trace = true) :
    latestVerified (events ++ trace) = true := by
  induction events with
  | nil => exact verified
  | cons event older ih =>
      have rest := ih fun later member => quiet later (List.mem_cons_of_mem _ member)
      have head := quiet event List.mem_cons_self
      cases event with
      | downloadStarted index => simp [ClientEvent.quiet] at head
      | verifyReturned result => cases result <;> simp [latestVerified, rest]
      | _ => exact rest

end Quiet

/-- The event reports an installation that returned OK. -/
def ClientEvent.installed : ClientEvent → Bool
  | .installReturned .ok => true
  | _ => false

theorem installsVerified_append {events trace : List ClientEvent}
    (other : ∀ event ∈ events, event.installed = false) :
    installsVerified (events ++ trace) = installsVerified trace := by
  induction events with
  | nil => rfl
  | cons event older ih =>
      have rest := ih fun later member => other later (List.mem_cons_of_mem _ member)
      have head := other event List.mem_cons_self
      cases event with
      | installReturned result =>
          cases result <;> first | exact rest | simp [ClientEvent.installed] at head
      | _ => exact rest

namespace FlagsFresh

variable {ctx next : OtaClientCtx} {trace events : List ClientEvent}

/-- A step that neither sets a flag nor starts or installs anything. -/
theorem keep (fresh : FlagsFresh ⟨ctx, trace⟩)
    (complete : next.downloadComplete = ctx.downloadComplete)
    (verified : next.verifyOk = ctx.verifyOk)
    (downloads : next.downloads.Sublist ctx.downloads)
    (quiet : ∀ event ∈ events, event.quiet = true)
    (other : ∀ event ∈ events, event.installed = false) :
    FlagsFresh ⟨next, events ++ trace⟩ where
  complete raised := by
    obtain ⟨fetched, none⟩ := fresh.complete (complete.symm.trans raised)
    have empty : next.downloads = [] := List.sublist_nil.mp (none ▸ downloads)
    exact ⟨latestFetched_append quiet fetched, empty⟩
  verified raised := by
    obtain ⟨completed, holds⟩ := fresh.verified (verified.symm.trans raised)
    exact ⟨complete.trans completed, latestVerified_append quiet holds⟩
  running index member := by
    rw [latestStarted_append quiet]
    exact fresh.running index (downloads.subset member)
  single := Nat.le_trans downloads.length_le fresh.single
  installs := (installsVerified_append other).trans fresh.installs

/-- While a download is under way no flag is raised. -/
theorem unset (fresh : FlagsFresh ⟨ctx, trace⟩) (running : ctx.downloads ≠ []) :
    ctx.downloadComplete = false ∧ ctx.verifyOk = false := by
  have incomplete : ctx.downloadComplete = false := by
    by_contra raised
    exact running (fresh.complete (by simpa using raised)).2
  refine ⟨incomplete, ?_⟩
  by_contra raised
  have completed := (fresh.verified (by simpa using raised)).1
  simp [incomplete] at completed

theorem download (fresh : FlagsFresh ⟨ctx, trace⟩) {now battery startTime : Nat}
    (first : FirstCompletion ctx (.downloadFirmware now battery startTime)) :
    FlagsFresh ⟨(otaClientDownloadFirmware ctx now battery startTime).1,
      (otaClientDownloadFirmware ctx now battery startTime).2 ++ trace⟩ := by
  unfold otaClientDownloadFirmware
  cases refused : downloadRefused ctx now battery with
  | some refusal =>
      dsimp only
      exact fresh.keep rfl rfl (List.Sublist.refl _) (by simp [ClientEvent.quiet])
        (by simp [ClientEvent.installed])
  | none =>
      obtain ⟨incomplete, alone⟩ := first refused
      have unverified : ctx.verifyOk = false := by
        by_contra raised
        have completed := (fresh.verified (by simpa using raised)).1
        simp [incomplete] at completed
      have downloads : ∀ offset, (ClientFrame.atLoop ctx.started offset startTime ::
          ctx.frames).filterMap ClientFrame.download = [ctx.started] := by
        intro offset
        unfold OtaClientCtx.downloads at alone
        simp [ClientFrame.download, alone]
      dsimp only
      refine ⟨?_, ?_, ?_, ?_, fresh.installs⟩
      · intro raised
        simp [incomplete] at raised
      · intro raised
        simp [unverified] at raised
      · intro index member
        unfold OtaClientCtx.downloads at member
        rw [downloads] at member
        simp_all [latestStarted]
      · unfold OtaClientCtx.downloads
        rw [downloads]
        exact Nat.le_refl 1

/-- A download that returns OK is the latest one. -/
theorem completed (fresh : FlagsFresh ⟨ctx, trace⟩) {index offset startTime : Nat}
    {rest : List ClientFrame} (frames : ctx.frames = .atLoop index offset startTime :: rest) :
    FlagsFresh ⟨{ ctx with downloadComplete := true, state := .idle, frames := rest },
      .downloadReturned index .ok :: trace⟩ := by
  have downloads : ctx.downloads = index :: rest.filterMap ClientFrame.download := by
    simp [OtaClientCtx.downloads, frames, ClientFrame.download]
  have none : rest.filterMap ClientFrame.download = [] := by
    have single := fresh.single
    simpa [downloads] using single
  have unverified := (fresh.unset (by simp [downloads])).2
  refine ⟨fun _ => ⟨?_, none⟩, ?_, ?_, ?_, fresh.installs⟩
  · have latest := fresh.running index (by simp [downloads])
    rw [latestFetched, latest, Bool.true_or]
  · intro raised
    simp [unverified] at raised
  · intro other member
    simp [OtaClientCtx.downloads, none] at member
  · simp [OtaClientCtx.downloads, none]

theorem verify (fresh : FlagsFresh ⟨ctx, trace⟩) :
    FlagsFresh ⟨(otaClientVerifyFirmware ctx).1, (otaClientVerifyFirmware ctx).2 ++ trace⟩ := by
  unfold otaClientVerifyFirmware
  split_ifs with incomplete
  · exact fresh.keep rfl rfl (List.Sublist.refl _) (by simp [ClientEvent.quiet])
      (by simp [ClientEvent.installed])
  · have raised : ctx.downloadComplete = true := by simpa using incomplete
    obtain ⟨fetched, none⟩ := fresh.complete raised
    refine ⟨fun _ => ⟨fetched, none⟩, fun _ => ⟨raised, ?_⟩, fresh.running, fresh.single,
      fresh.installs⟩
    have later : latestFetched (.notified .verifying .ok :: trace) = true := fetched
    simp [latestVerified, later]

/-- An installation that returns OK was preceded by a verification. -/
theorem installed (fresh : FlagsFresh ⟨ctx, trace⟩) (raised : ctx.verifyOk = true)
    (quiet : ∀ event ∈ events, event.quiet = true)
    (other : ∀ event ∈ events, event.installed = false) :
    FlagsFresh ⟨{ ctx with installOk := true, state := .complete },
      .installReturned .ok :: events ++ trace⟩ := by
  have before : FlagsFresh ⟨ctx, events ++ trace⟩ :=
    fresh.keep rfl rfl (List.Sublist.refl _) quiet other
  refine ⟨before.complete, before.verified, before.running, before.single, ?_⟩
  have verified := (before.verified raised).2
  rw [List.cons_append, installsVerified, verified, Bool.true_and]
  exact before.installs

theorem install (fresh : FlagsFresh ⟨ctx, trace⟩) (rebootAfter : Bool) (now : Nat) :
    FlagsFresh ⟨(otaClientInstallFirmware ctx rebootAfter now).1,
      (otaClientInstallFirmware ctx rebootAfter now).2 ++ trace⟩ := by
  unfold otaClientInstallFirmware
  split_ifs with unverified outside reboot
  · exact fresh.keep rfl rfl (List.Sublist.refl _) (by simp [ClientEvent.quiet])
      (by simp [ClientEvent.installed])
  · exact fresh.keep rfl rfl (List.Sublist.refl _) (by simp [ClientEvent.quiet])
      (by simp [ClientEvent.installed])
  all_goals
    exact fresh.installed (by simpa using unverified) (by simp [ClientEvent.quiet])
      (by simp [ClientEvent.installed])

theorem chunkReceived (fresh : FlagsFresh ⟨ctx, trace⟩) {frame : ClientFrame}
    {rest : List ClientFrame} {index : Nat} (frames : ctx.frames = frame :: rest)
    (same : frame.download = some index) (offset startTime received now : Nat) :
    FlagsFresh ⟨(Ota.chunkReceived ctx rest index offset startTime received now).1,
      (Ota.chunkReceived ctx rest index offset startTime received now).2 ++ trace⟩ := by
  unfold Ota.chunkReceived
  dsimp only
  refine fresh.keep rfl rfl ?_ ?_ ?_
  · have before := List.filterMap_cons_some same (l := rest)
    simp [OtaClientCtx.downloads, frames, before, ClientFrame.download]
  · split_ifs <;> simp [ClientEvent.quiet]
  · split_ifs <;> simp [ClientEvent.installed]

theorem fetchFailed (fresh : FlagsFresh ⟨ctx, trace⟩) {rest : List ClientFrame}
    {index offset startTime : Nat}
    (frames : ctx.frames = .fetching index offset startTime :: rest) :
    FlagsFresh ⟨(Ota.fetchFailed ctx rest index offset startTime).1,
      (Ota.fetchFailed ctx rest index offset startTime).2 ++ trace⟩ := by
  unfold Ota.fetchFailed
  dsimp only
  split_ifs
  all_goals
    refine fresh.keep rfl rfl ?_ ?_ ?_
    · simp [OtaClientCtx.downloads, frames, ClientFrame.download]
    · simp [ClientEvent.quiet]
    · simp [ClientEvent.installed]

theorem loopHead (fresh : FlagsFresh ⟨ctx, trace⟩) {rest : List ClientFrame}
    {index offset startTime : Nat} (frames : ctx.frames = .atLoop index offset startTime :: rest)
    (now : Nat) :
    FlagsFresh ⟨(downloadLoopHead ctx rest index offset startTime now).1,
      (downloadLoopHead ctx rest index offset startTime now).2 ++ trace⟩ := by
  unfold downloadLoopHead
  dsimp only
  split
  case isTrue =>
    split
    case isTrue =>
      refine fresh.keep rfl rfl ?_ (by simp) (by simp)
      simp [OtaClientCtx.downloads, frames, ClientFrame.download]
    case isFalse => exact fresh.chunkReceived frames rfl offset startTime _ now
  case isFalse =>
    split
    case isTrue =>
      refine fresh.keep rfl rfl ?_ (by simp [ClientEvent.quiet]) (by simp [ClientEvent.installed])
      simp [OtaClientCtx.downloads, frames, ClientFrame.download]
    case isFalse => exact fresh.completed frames

theorem finishCheck (fresh : FlagsFresh ⟨ctx, trace⟩) {rest : List ClientFrame} {verSize : Nat}
    (frames : ctx.frames = .checking verSize :: rest) (code : Int) (received : Nat) :
    FlagsFresh ⟨(Ota.finishCheck ctx rest verSize code received).1,
      (Ota.finishCheck ctx rest verSize code received).2 ++ trace⟩ := by
  unfold Ota.finishCheck
  split_ifs
  all_goals
    refine fresh.keep rfl rfl ?_ ?_ ?_
    · simp [OtaClientCtx.downloads, frames, ClientFrame.download, List.filterMap_cons]
    · simp [ClientEvent.quiet]
    · simp [ClientEvent.installed]

theorem checkForUpdate (fresh : FlagsFresh ⟨ctx, trace⟩) (verSize : Nat) :
    FlagsFresh ⟨(otaClientCheckForUpdate ctx verSize).1,
      (otaClientCheckForUpdate ctx verSize).2 ++ trace⟩ := by
  unfold otaClientCheckForUpdate
  split_ifs
  all_goals
    refine fresh.keep rfl rfl ?_ ?_ ?_
    · simp [OtaClientCtx.downloads, ClientFrame.download, List.filterMap_cons]
    · simp [ClientEvent.quiet]
    · simp [ClientEvent.installed]

theorem loadResumeState (fresh : FlagsFresh ⟨ctx, trace⟩) :
    FlagsFresh ⟨(otaClientLoadResumeState ctx).1, (otaClientLoadResumeState ctx).2 ++ trace⟩ := by
  unfold otaClientLoadResumeState
  split_ifs
  all_goals
    exact fresh.keep rfl rfl (List.Sublist.refl _) (by simp [ClientEvent.quiet])
      (by simp [ClientEvent.installed])

theorem saveResumeState (fresh : FlagsFresh ⟨ctx, trace⟩) (now : Nat) :
    FlagsFresh ⟨otaClientSaveResumeState ctx now, [.returned .ok] ++ trace⟩ := by
  unfold otaClientSaveResumeState
  split_ifs
  all_goals
    exact fresh.keep rfl rfl (List.Sublist.refl _) (by simp [ClientEvent.quiet])
      (by simp [ClientEvent.installed])

/-- The state and the events that a step is known to lead to. -/
theorem of_step {result : OtaClientCtx × List ClientEvent} {next : OtaClientCtx}
    {events : List ClientEvent} (kept : FlagsFresh ⟨result.1, result.2 ++ trace⟩)
    (stepped : some result = some (next, events)) : FlagsFresh ⟨next, events ++ trace⟩ := by
  rw [Option.some.inj stepped] at kept
  exact kept

end FlagsFresh

/-- Every allowed action keeps the meaning of the flags. -/
theorem flagsFresh_step {fuel : Nat} {before : Traced OtaClientCtx ClientEvent}
    {action : ClientAction} {next : OtaClientCtx} {events : List ClientEvent}
    (fresh : FlagsFresh before) (first : FirstCompletion before.state action)
    (stepped : clientExec fuel before.state action = some (next, events)) :
    FlagsFresh ⟨next, events ++ before.trace⟩ := by
  have quietStep : ∀ {ctx : OtaClientCtx} {result : OtaClientResult},
      ctx.downloadComplete = before.state.downloadComplete →
      ctx.verifyOk = before.state.verifyOk → ctx.downloads = before.state.downloads →
      FlagsFresh ⟨ctx, [.returned result] ++ before.trace⟩ := fun complete verified downloads =>
    fresh.keep complete verified (downloads ▸ List.Sublist.refl _) (by simp [ClientEvent.quiet])
      (by simp [ClientEvent.installed])
  cases action with
  | setUpdateUrl url =>
      obtain ⟨rfl, rfl⟩ := Prod.mk.inj (Option.some.inj stepped)
      exact quietStep rfl rfl rfl
  | setPolicy policy =>
      obtain ⟨rfl, rfl⟩ := Prod.mk.inj (Option.some.inj stepped)
      exact quietStep rfl rfl rfl
  | checkForUpdate verSize => exact .of_step (fresh.checkForUpdate verSize) stepped
  | downloadFirmware now battery startTime => exact .of_step (fresh.download first) stepped
  | downloadCancel =>
      obtain ⟨rfl, rfl⟩ := Prod.mk.inj (Option.some.inj stepped)
      exact quietStep rfl rfl rfl
  | verifyFirmware => exact .of_step fresh.verify stepped
  | installFirmware rebootAfter now => exact .of_step (fresh.install rebootAfter now) stepped
  | saveResumeState now => exact .of_step (fresh.saveResumeState now) stepped
  | loadResumeState => exact .of_step fresh.loadResumeState stepped
  | clearResumeState =>
      obtain ⟨rfl, rfl⟩ := Prod.mk.inj (Option.some.inj stepped)
      exact quietStep rfl rfl rfl
  | loopHead now =>
      simp only [clientExec] at stepped
      split at stepped
      case h_1 frames => exact .of_step (fresh.loopHead frames now) stepped
      case h_2 => simp at stepped
  | callbackReturns code received now =>
      simp only [clientExec] at stepped
      split at stepped
      case h_1 frames => exact .of_step (fresh.finishCheck frames code received) stepped
      case h_2 _ index offset startTime _ frames =>
        split at stepped
        case isTrue => exact .of_step (fresh.fetchFailed frames) stepped
        case isFalse =>
          exact .of_step (fresh.chunkReceived frames rfl offset startTime received now) stepped
      case h_3 => simp at stepped

/-- Every successful installation follows the verification of the latest
download, in every run in which no download is started once one has completed
or while one is under way. -/
theorem install_after_verify {hasDownload : Bool} {current : Traced OtaClientCtx ClientEvent}
    (run : Reachable clientExec FirstCompletion (otaClientInit hasDownload) current) :
    installsVerified current.trace = true := by
  have base : FlagsFresh ⟨otaClientInit hasDownload, []⟩ := by
    constructor <;> simp [otaClientInit, OtaClientCtx.downloads, installsVerified]
  exact (run.invariant FlagsFresh base fun _ _ _ _ _ fresh first stepped =>
    flagsFresh_step fresh first stepped).installs

/-- A whole image in one chunk, its verification and its installation. -/
def orderlyCalls : List ClientAction :=
  [.downloadFirmware 0 100 0, .loopHead 0, .callbackReturns 0 downloadTotal 5, .loopHead 5,
    .verifyFirmware, .installFirmware true 6]

theorem install_after_verify_orderly :
    ∃ current, Reachable clientExec FirstCompletion (otaClientInit true) current ∧
      .installReturned .ok ∈ current.trace ∧ installsVerified current.trace = true := by
  obtain ⟨current, run, installed⟩ := exists_reachable clientExec (otaClientInit true)
    (fun state action (allowed : decide (FirstCompletion state action) = true) =>
      of_decide_eq_true allowed) 0 orderlyCalls
    (fun current => .installReturned .ok ∈ current.trace) (by decide +kernel)
  exact ⟨current, run, installed, install_after_verify run⟩

/-- A verified download, then one whose callback fails four times. -/
def lostDownloadCalls : List ClientAction :=
  [.downloadFirmware 0 100 0, .loopHead 0, .callbackReturns 0 downloadTotal 5, .loopHead 5,
    .verifyFirmware, .downloadFirmware 6 100 6, .loopHead 6, .callbackReturns 1 0 6, .loopHead 6,
    .callbackReturns 1 0 6, .loopHead 6, .callbackReturns 1 0 6, .loopHead 6,
    .callbackReturns 1 0 6, .installFirmware false 7]

/-- The installation succeeds although the latest download has failed. -/
theorem install_after_lost_download :
    ¬∀ current, Reachable clientExec AnyStep (otaClientInit true) current →
      installsVerified current.trace = true := by
  intro always
  obtain ⟨current, run, unverified⟩ := exists_anyStep clientExec (otaClientInit true) 0
    lostDownloadCalls (fun current => installsVerified current.trace = false) (by decide +kernel)
  simp [always current run] at unverified

/-- Once a download has completed, starting another one is enough: an
installation without a verification is three calls away. -/
theorem unverified_install_after_second_download {before : Traced OtaClientCtx ClientEvent}
    {now battery : Nat} (completed : before.state.downloadComplete = true)
    (accepted : downloadRefused before.state now battery = none) :
    ∃ current, Relation.ReflTransGen (Step clientExec AnyStep) before current ∧
      installsVerified current.trace = false := by
  obtain ⟨current, executed, unverified⟩ : ∃ current,
      execAll clientExec (fun _ _ => true) 0 [.downloadFirmware now battery now, .verifyFirmware,
        .setPolicy (otaClientInit true).policy, .installFirmware false now] before = some current ∧
      installsVerified current.trace = false := by
    simp [execAll, clientExec, otaClientDownloadFirmware, accepted, otaClientVerifyFirmware,
      completed, otaClientInstallFirmware, otaClientCheckTimeWindow, otaClientInit,
      installsVerified, latestVerified, latestFetched]
  exact ⟨current, execAll_run (fun _ _ _ => trivial) executed, unverified⟩

end Ota

end MiniIotRobotEdge

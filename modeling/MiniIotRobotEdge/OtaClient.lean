import Mathlib.Algebra.Group.Nat.Defs
import MiniIotRobotEdge.GuardedRun

/-!
# The update client of mini-ota-update

The model of `ota_client.c`.  A download runs in a loop that calls back into
the application, so that a call of the client can be made while another one is
under way: `frames` holds the calls that wait for a callback or stand at the
head of their loop, innermost first.  The clock, the battery and the answers of
the download callback come with the action.
-/

namespace MiniIotRobotEdge

namespace Ota

inductive OtaClientResult
  | ok
  | errParam
  | errNetwork
  | errStorage
  | errInstall
  | errInProgress
  | errNoUpdate
  | errPowerLow
  | errTimeWindow
  | errBusy
  | errCancelled
  deriving DecidableEq, Repr

inductive OtaClientState
  | idle
  | checking
  | downloading
  | verifying
  | installing
  | complete
  | failed
  | resuming
  deriving DecidableEq, Repr

inductive OtaUpdatePolicy
  | none
  | anytime
  | timeWindow
  | batteryRequired
  | userConsent
  | maintenanceMode
  deriving DecidableEq, Repr

def otaClientUrlMax : Nat := 256
def otaClientVersionMax : Nat := 64
def otaClientChunkSize : Nat := 4096
def otaClientResumeMagic : Nat := 0x4F544152
def otaClientMaxRetries : Nat := 3
def otaClientRetryDelayMs : Nat := 5000
def otaClientProgressInterval : Nat := 10

/-- `total` of `ota_client_download_firmware`. -/
def downloadTotal : Nat := 1024 * 1024

structure OtaUpdatePolicyConfig where
  policy : OtaUpdatePolicy
  timeWindowStartHour : Nat
  timeWindowStartMin : Nat
  timeWindowEndHour : Nat
  timeWindowEndMin : Nat
  minBatteryPercent : Nat
  requireCharger : Bool
  maxRetries : Nat
  retryDelayMs : Nat
  allowCellular : Bool
  backgroundDownload : Bool
  autoInstall : Bool
  installDelayS : Nat
  rebootDelayS : Nat
  powerSafeMode : Bool
  deriving DecidableEq, Repr

/-- The fields of `ota_client_resume_state_t` that are used. -/
structure OtaClientResumeState where
  resumeMagic : Nat
  totalSize : Nat
  downloadedSize : Nat
  timestamp : Nat
  lastError : Nat
  deriving DecidableEq, Repr

structure OtaProgressInfo where
  bytesDownloaded : Nat
  bytesTotal : Nat
  percent : Nat
  speedBytesPerSec : Nat
  elapsedSeconds : Nat
  estimatedRemaining : Nat
  deriving DecidableEq, Repr

/-- A call that is under way: the version check inside its callback, or a
download, by its number, at the head of its loop or inside its callback. -/
inductive ClientFrame
  | checking (verSize : Nat)
  | atLoop (index offset startTime : Nat)
  | fetching (index offset startTime : Nat)
  deriving DecidableEq, Repr

/-- `struct ota_client_ctx`.  `hasDownload` tells whether there is a download
callback; `started` counts the downloads. -/
structure OtaClientCtx where
  hasDownload : Bool
  policy : OtaUpdatePolicyConfig
  updateUrl : List Char
  newVersion : List Char
  state : OtaClientState
  resume : OtaClientResumeState
  progress : OtaProgressInfo
  updateAvailable : Bool
  downloadComplete : Bool
  verifyOk : Bool
  installOk : Bool
  retryCount : Nat
  cancelled : Bool
  frames : List ClientFrame
  started : Nat
  deriving DecidableEq, Repr

/-- What can be observed of a run: the notifications, and the results of calls. -/
inductive ClientEvent
  | notified (state : OtaClientState) (error : OtaClientResult)
  | progressed (info : OtaProgressInfo)
  | downloadStarted (index : Nat)
  | downloadReturned (index : Nat) (result : OtaClientResult)
  | verifyReturned (result : OtaClientResult)
  | installReturned (result : OtaClientResult)
  | checkReturned (result : OtaClientResult) (newVersion : List Char) (available : Bool)
  | returned (result : OtaClientResult)
  deriving DecidableEq, Repr

/-- The calls of the client, and the two ways in which a call under way goes
on: it evaluates its loop condition, or its callback returns.  `now` is what the
clock shows. -/
inductive ClientAction
  | setUpdateUrl (url : List Char)
  | setPolicy (policy : OtaUpdatePolicyConfig)
  | checkForUpdate (verSize : Nat)
  | downloadFirmware (now battery startTime : Nat)
  | downloadCancel
  | verifyFirmware
  | installFirmware (rebootAfter : Bool) (now : Nat)
  | saveResumeState (now : Nat)
  | loadResumeState
  | clearResumeState
  | loopHead (now : Nat)
  | callbackReturns (code : Int) (received now : Nat)
  deriving DecidableEq, Repr

/-- `ota_client_init` with and without a download callback. -/
def otaClientInit (hasDownload : Bool) : OtaClientCtx where
  hasDownload := hasDownload
  policy :=
    { policy := .anytime, timeWindowStartHour := 2, timeWindowStartMin := 0
      timeWindowEndHour := 4, timeWindowEndMin := 0, minBatteryPercent := 30
      requireCharger := true, maxRetries := otaClientMaxRetries
      retryDelayMs := otaClientRetryDelayMs, allowCellular := false, backgroundDownload := true
      autoInstall := false, installDelayS := 30, rebootDelayS := 10, powerSafeMode := true }
  updateUrl := []
  newVersion := []
  state := .idle
  resume := ⟨otaClientResumeMagic, 0, 0, 0, 0⟩
  progress := ⟨0, 0, 0, 0, 0, 0⟩
  updateAvailable := false
  downloadComplete := false
  verifyOk := false
  installOk := false
  retryCount := 0
  cancelled := false
  frames := []
  started := 0

def otaClientCheckTimeWindow (ctx : OtaClientCtx) (now : Nat) : Bool :=
  if ctx.policy.policy ≠ .timeWindow then true
  else
    let hour := now / 3600 % 24
    let minute := now / 60 % 60
    let nowMin := hour * 60 + minute
    let start := (ctx.policy.timeWindowStartHour * 60 + ctx.policy.timeWindowStartMin) % 2 ^ 32
    let finish := (ctx.policy.timeWindowEndHour * 60 + ctx.policy.timeWindowEndMin) % 2 ^ 32
    if start ≤ finish then decide (start ≤ nowMin) && decide (nowMin ≤ finish)
    else decide (start ≤ nowMin) || decide (nowMin ≤ finish)

def otaClientCheckBatteryLevel (ctx : OtaClientCtx) (battery : Nat) : Bool :=
  if ctx.policy.policy ≠ .batteryRequired then true
  else
    let hasCharger := true
    if ctx.policy.requireCharger && !hasCharger then false
    else decide (ctx.policy.minBatteryPercent ≤ battery)

/-- `ota_client_check_for_update` up to its callback. -/
def otaClientCheckForUpdate (ctx : OtaClientCtx) (verSize : Nat) :
    OtaClientCtx × List ClientEvent :=
  if ctx.updateUrl = [] then (ctx, [.checkReturned .errNetwork [] false])
  else if ctx.hasDownload then
    ({ ctx with state := .checking, frames := .checking verSize :: ctx.frames },
      [.notified .checking .ok])
  else
    ({ ctx with updateAvailable := false, state := .idle },
      [.checkReturned .errNoUpdate [] false, .notified .checking .ok])

/-- The rest of `ota_client_check_for_update`. -/
def finishCheck (ctx : OtaClientCtx) (rest : List ClientFrame) (verSize : Nat) (code : Int)
    (received : Nat) : OtaClientCtx × List ClientEvent :=
  if code = 0 ∧ 0 < received then
    ({ ctx with updateAvailable := true, newVersion := "2.0.0".toList, state := .idle
                frames := rest },
      [.checkReturned .ok ("2.0.0".toList.take (verSize - 1)) true])
  else
    ({ ctx with updateAvailable := false, state := .idle, frames := rest },
      [.checkReturned .errNoUpdate [] false])

/-- The guards of `ota_client_download_firmware`. -/
def downloadRefused (ctx : OtaClientCtx) (now battery : Nat) : Option OtaClientResult :=
  if ctx.state = .downloading then some .errInProgress
  else if otaClientCheckTimeWindow ctx now = false then some .errTimeWindow
  else if otaClientCheckBatteryLevel ctx battery = false then some .errPowerLow
  else none

/-- `ota_client_download_firmware` up to its loop. -/
def otaClientDownloadFirmware (ctx : OtaClientCtx) (now battery startTime : Nat) :
    OtaClientCtx × List ClientEvent :=
  match downloadRefused ctx now battery with
  | some refusal => (ctx, [.returned refusal])
  | none =>
      ({ ctx with
          state := .downloading
          cancelled := false
          retryCount := 0
          progress := { ctx.progress with
            bytesTotal := downloadTotal, bytesDownloaded := 0, percent := 0 }
          frames := .atLoop ctx.started 0 startTime :: ctx.frames
          started := ctx.started + 1 },
        [.notified .downloading .ok, .downloadStarted ctx.started])

/-- The end of a round of the download loop: a chunk has come. -/
def chunkReceived (ctx : OtaClientCtx) (rest : List ClientFrame)
    (index offset startTime received now : Nat) : OtaClientCtx × List ClientEvent :=
  let offset := (offset + received) % 2 ^ 32
  let elapsed := (now + 2 ^ 32 - startTime) % 2 ^ 32
  let speed := if 0 < elapsed then offset / elapsed else 0
  let progress : OtaProgressInfo :=
    { bytesTotal := ctx.progress.bytesTotal
      bytesDownloaded := offset
      percent := offset * 100 / downloadTotal % 2 ^ 32
      elapsedSeconds := if 0 < elapsed then elapsed else 1
      speedBytesPerSec := speed
      estimatedRemaining :=
        if 0 < speed then (downloadTotal + 2 ^ 32 - offset) % 2 ^ 32 / speed else 0 }
  ({ ctx with progress := progress, retryCount := 0
              frames := .atLoop index offset startTime :: rest },
    if offset % (downloadTotal / otaClientProgressInterval) = 0 ∨ downloadTotal ≤ offset then
      [.progressed progress]
    else [])

/-- The download callback failed: another round, or the end of the download. -/
def fetchFailed (ctx : OtaClientCtx) (rest : List ClientFrame) (index offset startTime : Nat) :
    OtaClientCtx × List ClientEvent :=
  let retryCount := (ctx.retryCount + 1) % 2 ^ 32
  if ctx.policy.maxRetries < retryCount then
    ({ ctx with retryCount := retryCount, state := .failed, frames := rest },
      [.downloadReturned index .errNetwork, .notified .failed .errNetwork])
  else
    ({ ctx with retryCount := retryCount, frames := .atLoop index offset startTime :: rest }, [])

/-- The loop condition of a download, and what follows the loop.  Without a
callback the chunk is made up on the spot. -/
def downloadLoopHead (ctx : OtaClientCtx) (rest : List ClientFrame)
    (index offset startTime now : Nat) : OtaClientCtx × List ClientEvent :=
  if offset < downloadTotal ∧ ctx.cancelled = false then
    if ctx.hasDownload then
      ({ ctx with frames := .fetching index offset startTime :: rest }, [])
    else
      let chunk :=
        if downloadTotal < offset + otaClientChunkSize then downloadTotal - offset
        else otaClientChunkSize
      chunkReceived ctx rest index offset startTime chunk now
  else if ctx.cancelled then
    ({ ctx with state := .idle, frames := rest }, [.downloadReturned index .errCancelled])
  else
    ({ ctx with downloadComplete := true, state := .idle, frames := rest },
      [.downloadReturned index .ok])

def otaClientVerifyFirmware (ctx : OtaClientCtx) : OtaClientCtx × List ClientEvent :=
  if ctx.downloadComplete = false then (ctx, [.verifyReturned .errBusy])
  else
    ({ ctx with verifyOk := true, state := .idle },
      [.verifyReturned .ok, .notified .verifying .ok])

def otaClientInstallFirmware (ctx : OtaClientCtx) (rebootAfter : Bool) (now : Nat) :
    OtaClientCtx × List ClientEvent :=
  if ctx.verifyOk = false then (ctx, [.installReturned .errInstall])
  else if otaClientCheckTimeWindow ctx now = false then
    ({ ctx with state := .idle }, [.installReturned .errTimeWindow, .notified .installing .ok])
  else
    ({ ctx with installOk := true, state := .complete },
      .installReturned .ok ::
        ((if rebootAfter then [.notified .complete .ok] else []) ++ [.notified .installing .ok]))

def otaClientSaveResumeState (ctx : OtaClientCtx) (now : Nat) : OtaClientCtx :=
  if ctx.policy.powerSafeMode = false then ctx
  else
    { ctx with resume :=
        { resumeMagic := otaClientResumeMagic, totalSize := ctx.progress.bytesTotal
          downloadedSize := ctx.progress.bytesDownloaded, timestamp := now, lastError := 0 } }

def otaClientLoadResumeState (ctx : OtaClientCtx) : OtaClientCtx × List ClientEvent :=
  if ctx.resume.resumeMagic ≠ otaClientResumeMagic then (ctx, [.returned .errStorage])
  else
    ({ ctx with
        progress := { ctx.progress with
          bytesTotal := ctx.resume.totalSize % 2 ^ 32
          bytesDownloaded := ctx.resume.downloadedSize % 2 ^ 32 }
        state := .resuming },
      [.returned .ok, .notified .resuming .ok])

/-- One action.  The loop condition and the return of a callback belong to the
innermost call under way; the events are listed newest first. -/
def clientExec (_ : Nat) (ctx : OtaClientCtx) :
    ClientAction → Option (OtaClientCtx × List ClientEvent)
  | .setUpdateUrl url =>
      some ({ ctx with updateUrl := url.take (otaClientUrlMax - 1) }, [.returned .ok])
  | .setPolicy policy => some ({ ctx with policy := policy }, [.returned .ok])
  | .checkForUpdate verSize => some (otaClientCheckForUpdate ctx verSize)
  | .downloadFirmware now battery startTime =>
      some (otaClientDownloadFirmware ctx now battery startTime)
  | .downloadCancel => some ({ ctx with cancelled := true }, [.returned .ok])
  | .verifyFirmware => some (otaClientVerifyFirmware ctx)
  | .installFirmware rebootAfter now => some (otaClientInstallFirmware ctx rebootAfter now)
  | .saveResumeState now => some (otaClientSaveResumeState ctx now, [.returned .ok])
  | .loadResumeState => some (otaClientLoadResumeState ctx)
  | .clearResumeState => some ({ ctx with resume := ⟨0, 0, 0, 0, 0⟩ }, [.returned .ok])
  | .loopHead now =>
      match ctx.frames with
      | .atLoop index offset startTime :: rest =>
          some (downloadLoopHead ctx rest index offset startTime now)
      | _ => none
  | .callbackReturns code received now =>
      match ctx.frames with
      | .checking verSize :: rest => some (finishCheck ctx rest verSize code received)
      | .fetching index offset startTime :: rest =>
          some (if code ≠ 0 then fetchFailed ctx rest index offset startTime
            else chunkReceived ctx rest index offset startTime received now)
      | _ => none

end Ota

end MiniIotRobotEdge

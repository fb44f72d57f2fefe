import TransformHub.Lib.Transition
import Mathlib.Data.Int.Notation
import Mathlib.Data.Nat.Notation

/-!
# The controller of an instance

How the `CSIController` of a runner ends: the events that end it, the removal by the adapter and the
terminal transition.
-/

namespace TransformHub.Host.CsiController

/-! ## Data -/

inductive InstanceStatus where
  | initializing
  | starting
  | running
  | stopping
  | killing
  | completed
  | errored
  | gone
deriving DecidableEq

def InstanceStatus.terminal : InstanceStatus → Bool
  | .completed | .errored | .gone => true
  | _ => false

/-- What `instancePromise` resolves to, or what is read of an error. -/
structure ExitResult where
  message : Option String
  exitcode : Option ℤ
  status : Option InstanceStatus

/-- What is read of an `AppError`. -/
def appError : ExitResult := ⟨some "Application Error Occurred", none, none⟩

namespace RunnerExitCode

def unpackFailed : ℤ := 10
def invalidEnvVars : ℤ := 20
def invalidSequencePath : ℤ := 21
def failedOnStart : ℤ := 22
def failedDuringExecution : ℤ := 23
def podsLimitReached : ℤ := 24
def killed : ℤ := 137
def stopped : ℤ := 138

end RunnerExitCode

/-- The promise that `mapRunnerExitCode` returns, an error where it rejects. -/
def mapRunnerExitCode (exitcode : ℤ) (entrypointPath : String) : Except ExitResult ExitResult :=
  let failed (message : String) : Except ExitResult ExitResult :=
    .error ⟨some message, some exitcode, some .errored⟩
  let completed (message : String) : Except ExitResult ExitResult :=
    .ok ⟨some message, some exitcode, some .completed⟩
  if exitcode = RunnerExitCode.invalidEnvVars then
    failed "Runner was started with invalid configuration. This is probably a bug in STH."
  else if exitcode = RunnerExitCode.podsLimitReached then failed "Instance limit reached"
  else if exitcode = RunnerExitCode.invalidSequencePath then
    failed ("Sequence entrypoint path " ++ entrypointPath ++ " is invalid. " ++
      "Check `main` field in Sequence package.json")
  else if exitcode = RunnerExitCode.failedOnStart then failed "Sequence failed on start"
  else if exitcode = RunnerExitCode.failedDuringExecution then
    failed "Sequence failed during execution"
  else if exitcode = RunnerExitCode.unpackFailed then failed "Sequence unpack failed"
  else if exitcode = RunnerExitCode.killed then failed "Instance killed"
  else if exitcode = RunnerExitCode.stopped then completed "Instance stopped"
  else if exitcode ≠ 0 then failed "Runner failed"
  else completed "Instance completed"

inductive ReadinessState where
  | pending
  | ready
  | errored
deriving DecidableEq

/-- How far `instanceMain` of `startInstance` is. -/
inductive InstanceMain where
  /-- waits for `endOfSequence` -/
  | running
  /-- waits for the crash log -/
  | crashed (exitcode : ℤ)
  | cleaning (exitcode : ℤ)
  /-- waits for `cleanup` after an error -/
  | caught (exitcode : ℤ)
  /-- `instancePromise` is resolved -/
  | settled (result : ExitResult)

/-- The promise of `transitionToTerminal`. -/
inductive Transition where
  /-- waits for `removeInstance`, which has settled or not -/
  | removing (code : Option ℤ) (removal : Option Bool)
  /-- `finalize` waits for the lifetime extension -/
  | finalizing (code : Option ℤ)
  | finalized (code : Option ℤ)
  | fulfilled
  | rejected

inductive Task where
  /-- `start`, for the local storage -/
  | storage
  /-- `initialized.then(main).catch(..)` of `start` -/
  | initialized
  /-- `main`, for `instancePromise` -/
  | main
  /-- the handler of `PING`, for `setRunner` -/
  | handshake (inputTopic : Option String) (entrypointPath : String)
  /-- `awaitTerminalCompletion`, for `instancePromise` -/
  | terminalCompletion
  /-- `stop`, for the control message or the terminal transition -/
  | stopControl
  | stopDelay
  /-- `kill`, for the control message or, where it is bounded, the terminal transition -/
  | killControl (removeImmediately : Bool) (bounded : Bool)
  /-- `kill` after a control failure, for `removeInstance` -/
  | killForced (removal : Option Bool)
  /-- what `kill` has detached, for `instancePromise` or the deadline -/
  | killExit
  /-- what `kill` has detached, after the deadline, for `removeInstance` -/
  | killExitRemoving (removal : Option Bool)
  /-- `handleSequenceCompleted`, for `instancePromise` or the deadline -/
  | completedExit
  /-- `handleSequenceStopped`, for `endOfSequence` or the deadline -/
  | stoppedExit (sequenceError : Option String)
  /-- `handleSequenceStopped`, for `endOfSequence` -/
  | stoppedEnded (sequenceError : Option String)
  /-- `handleSequenceStopped`, for `instancePromise` -/
  | stoppedResult (sequenceError : Option String)
  /-- `handleSequenceStopped`, for the control message -/
  | stoppedKill
  /-- `handleSequenceStopped` after its `KILL`, for `endOfSequence` or the deadline -/
  | stoppedKillExit
  /-- `failReadiness`, for `kill` and the terminal transition or its deadline -/
  | readiness
  /-- `handleInstanceDisconnect`, for the runner transport -/
  | disconnecting
deriving DecidableEq

/-- The removal has settled for what waits for it. -/
def Transition.settle (ok : Bool) : Transition → Transition
  | .removing code none => .removing code (some ok)
  | t => t

def Task.settle (ok : Bool) : Task → Task
  | .killForced none => .killForced (some ok)
  | .killExitRemoving none => .killExitRemoving (some ok)
  | t => t

/-- How that what a call waits for settles. -/
inductive Outcome where
  | fulfilled
  /-- it is rejected, or its deadline elapses -/
  | rejected
  /-- it is rejected, and then the bounded terminal completion resolves -/
  | rejectedThenCompleted
deriving DecidableEq

inductive Emission where
  | terminated (code : Option ℤ)
  | end (code : Option ℤ)

/-- An empty text is none. -/
def truthy : Option String → Option String
  | some "" => none
  | text => text

structure CSIController where
  status : InstanceStatus
  /-- the entrypoint in the configuration of its sequence -/
  entrypointPath : String
  inputTopic : Option String
  requires : Option String
  instanceLifetimeExtensionDelay : ℕ
  keepAliveRequested : Bool
  readinessState : ReadinessState
  terminated : Option (Option ℤ × String)
  /-- whether `downStreams` are set -/
  downStreams : Bool
  /-- the handlers of the messages of the runner are registered -/
  hooked : Bool
  /-- `handleInstanceConnect` waits for `pang` -/
  awaitsPang : Bool
  /-- how the promise of `start` has settled -/
  initialized : Option (Except ExitResult Unit)
  /-- how `endOfSequence` has settled: with an exit code, or with an error -/
  endOfSequence : Option (Option ℤ)
  /-- none where `startInstance` got no adapter -/
  instanceMain : Option InstanceMain
  removalPromise : Bool
  removalCompleted : Bool
  terminalTransition : Option Transition
  endEmitted : Bool
  emitted : List Emission
  tasks : List Task

namespace CSIController

/-! ## Promises -/

def instancePromise (s : CSIController) : Option ExitResult :=
  match s.instanceMain with
  | some (.settled result) => some result
  | _ => none

def spawn (s : CSIController) (t : Task) : CSIController := { s with tasks := s.tasks ++ [t] }

def emit (s : CSIController) (e : Emission) : CSIController :=
  { s with emitted := s.emitted ++ [e] }

/-- A promise settles once. -/
def settleInitialized (s : CSIController) (outcome : Except ExitResult Unit) : CSIController :=
  { s with initialized := s.initialized.or (some outcome) }

/-- The adapter has been asked for a removal and has not settled it. -/
def removing (s : CSIController) : Bool := s.removalPromise && !s.removalCompleted

/-- What a caller waits for, the removal or a promise that is resolved; none where the call throws,
since `instanceAdapter` is not initialized. -/
def removeInstance (s : CSIController) : Option (Option Bool × CSIController) :=
  if s.removalCompleted then some (some true, s)
  else if s.removalPromise then some (none, s)
  else if s.instanceMain.isNone then none
  else some (none, { s with removalPromise := true })

/-! ## The terminal transition -/

def setExitInfo (s : CSIController) (exitcode : Option ℤ) (reason : String) : CSIController :=
  { s with terminated := some (exitcode, reason) }

/-- `transitionToTerminal`, up to its removal. An adapter that is not initialized throws before the
promise is assigned, so the `undefined` of the handler is overwritten. -/
def transitionToTerminal (s : CSIController) (code : Option ℤ) (status : Option InstanceStatus)
    (reason : Option String) : CSIController :=
  if s.terminalTransition.isSome then s
  else
    let s := { s with status := status.getD s.status }.setExitInfo code (reason.getD "")
    match s.removeInstance with
    | some (removal, s) => { s with terminalTransition := some (.removing code removal) }
    | none => { s with terminalTransition := some .fulfilled }

/-- The listener of the dispatcher for `terminated` returns: `getInputStream` needs the streams. -/
def terminatedListener (s : CSIController) : Bool :=
  (truthy s.requires).isNone || s.downStreams

/-- `finalize`, up to its delay. -/
def finalize (s : CSIController) (code : Option ℤ) : CSIController :=
  { s with
    terminalTransition :=
      if s.downStreams && decide (0 < s.instanceLifetimeExtensionDelay) then
        some (.finalizing code)
      else some (.finalized code) }

def emitEnd (s : CSIController) (code : Option ℤ) : CSIController :=
  if s.endEmitted then s else { s with endEmitted := true }.emit (.end code)

def transition (s : CSIController) : CSIController :=
  match s.terminalTransition with
  | some (.removing _ (some false)) => { s with terminalTransition := none }
  | some (.removing code (some true)) =>
    let s := s.emit (.terminated code)
    if s.terminatedListener then s.finalize code
    else { s with terminalTransition := some .rejected }
  | some (.finalizing code) =>
    -- after the delay the streams are read again
    { s with
      terminalTransition :=
        if s.downStreams then some (.finalized code) else some .rejected }
  | some (.finalized code) => { s with terminalTransition := some .fulfilled }.emitEnd code
  | _ => s

/-- The transition has yet to go on after a removal that has failed. -/
def failed (s : CSIController) : Bool :=
  match s.terminalTransition with
  | some (.removing _ (some false)) => true
  | _ => false

/-- `remove` of the adapter settles. What waited for the removal before goes on first. -/
def removed (s : CSIController) (ok : Bool) : CSIController :=
  if s.removing && !s.failed then
    { s with
      removalCompleted := ok
      removalPromise := ok
      terminalTransition := s.terminalTransition.map (Transition.settle ok)
      tasks := s.tasks.map (Task.settle ok) }
  else s

/-! ## Requests -/

/-- `awaitTerminalCompletion`, where no transition is stored. -/
def awaitTerminalCompletion (s : CSIController) : CSIController :=
  if s.terminalTransition.isNone && s.instanceMain.isSome then s.spawn .terminalCompletion else s

def stop (s : CSIController) : CSIController :=
  if s.terminalTransition.isSome || s.endEmitted then s
  else ({ s with status := .stopping }.awaitTerminalCompletion).spawn .stopControl

/-- The caller of `removeInstance` does nothing afterwards. -/
def requestRemoval (s : CSIController) : CSIController :=
  match s.removeInstance with
  | some (_, s) => s
  | none => s

def kill (s : CSIController) (removeImmediately : Bool) : CSIController :=
  let s := if removeImmediately then { s with instanceLifetimeExtensionDelay := 0 } else s
  if s.status.terminal then if removeImmediately then s.requestRemoval else s
  else if s.status = .killing then s.requestRemoval
  else
    let bounded := s.terminalTransition.isSome || s.instanceMain.isSome
    ({ s with status := .killing }.awaitTerminalCompletion).spawn
      (.killControl removeImmediately bounded)

/-- `failReadiness`, up to its `await`s. -/
def failReadiness (s : CSIController) : CSIController :=
  ({ s with readinessState := .errored }.kill true).spawn .readiness

/-! ## The runner -/

/-- The constructor and `start`, up to the local storage. `getInstanceAdapter` may throw an error
with a message. -/
def start (entrypointPath : String) (inputTopic : Option String)
    (instanceLifetimeExtensionDelay : ℕ) (thrown : Option String) : CSIController where
  status := if thrown.isSome then .initializing else .starting
  entrypointPath := entrypointPath
  inputTopic := inputTopic
  requires := none
  instanceLifetimeExtensionDelay := instanceLifetimeExtensionDelay
  keepAliveRequested := false
  readinessState := .pending
  terminated := none
  downStreams := false
  hooked := false
  awaitsPang := false
  initialized := thrown.map fun message => .error ⟨some message, none, none⟩
  endOfSequence := none
  instanceMain := if thrown.isSome then none else some .running
  removalPromise := false
  removalCompleted := false
  terminalTransition := none
  endEmitted := false
  emitted := []
  tasks := [.storage]

/-- `main`, up to `instanceStopped`. -/
def main (s : CSIController) : CSIController :=
  let s := { s with status := .running }
  if s.instanceMain.isSome then s.spawn .main
  else { s with status := .errored }.transitionToTerminal none (some .errored) none

/-- `error.code || 213`. -/
def errorCode (code : Option ℤ) : ℤ :=
  match code with
  | some code => if code = 0 then 213 else code
  | none => 213

/-- `endOfSequence` settles, with an exit code or with an error that has a code. -/
def exited (s : CSIController) (outcome : Except (Option ℤ) ℤ) : CSIController :=
  match s.instanceMain with
  | some .running =>
    match outcome with
    | .ok exitcode =>
      let s := { s with endOfSequence := some (some exitcode) }
      if 0 < exitcode then
        { s with status := .errored, instanceMain := some (.crashed exitcode) }
      else { s with instanceMain := some (.cleaning exitcode) }
    | .error code =>
      { s with
        endOfSequence := some none
        status := .errored
        instanceMain := some (.caught (errorCode code)) }
  | _ => s

/-- `instancePromise` resolves, also with the error of a rejection. -/
def settleInstance (s : CSIController) (outcome : Except ExitResult ExitResult) : CSIController :=
  match outcome with
  | .ok result => { s with instanceMain := some (.settled result) }
  | .error error =>
    { s with instanceMain := some (.settled error) }.settleInitialized (.error error)

/-- `getCrashLog` or `cleanup` of the adapter settles, with an error that has a code and a
message. -/
def cleaned (s : CSIController) (ok : Bool) (code : Option ℤ) (message : Option String) :
    CSIController :=
  match s.instanceMain with
  | some (.crashed exitcode) =>
    if ok then { s with instanceMain := some (.cleaning exitcode) }
    else { s with status := .errored, instanceMain := some (.caught (errorCode code)) }
  | some (.cleaning exitcode) =>
    if ok then s.settleInstance (mapRunnerExitCode exitcode s.entrypointPath)
    else { s with status := .errored, instanceMain := some (.caught (errorCode code)) }
  | some (.caught exitcode) =>
    if ok then s.settleInstance (mapRunnerExitCode exitcode s.entrypointPath)
    else s.settleInstance (.error ⟨message, none, none⟩)
  | _ => s

/-! ## Messages of the runner -/

structure PingMessage where
  status : Option InstanceStatus
  entrypointPath : String
  /-- the `inputTopic` of the payload, where there is one -/
  payload : Option (Option String)

/-- `handleInstanceConnect`, up to `pang`; without a runner broker `hookupStreams` throws. -/
def connect (s : CSIController) (broker : Bool) : CSIController :=
  let s := { s with downStreams := true }
  if broker then { s with hooked := true, awaitsPang := true }
  else s.settleInitialized (.error appError)

/-- The handler of `PING`, up to `setRunner`. -/
def ping (s : CSIController) (message : PingMessage) : CSIController :=
  let s := { s with status := message.status.getD .running }
  match message.payload with
  | none => s
  | some inputTopic =>
    { s with
      requires := (truthy s.requires).or ((truthy s.inputTopic).or inputTopic) }.spawn
      (.handshake inputTopic message.entrypointPath)

/-- The handler of `PANG`, and what waits for `pang`. -/
def pang (s : CSIController) (requires : Option String) : CSIController :=
  let s := { s with requires := (truthy s.requires).or ((truthy s.inputTopic).or requires) }
  if s.awaitsPang then { s with awaitsPang := false }.settleInitialized (.ok ()) else s

/-- `handleReadinessMessage`, of a state other than `initialized`. -/
def handleReadinessMessage (s : CSIController) (ready : Bool) : CSIController :=
  if s.readinessState = .errored || s.endEmitted then s
  else if ready then { s with readinessState := .ready }
  else s.failReadiness

def handleSequenceCompleted (s : CSIController) : CSIController :=
  if s.endEmitted then s else s.spawn .completedExit

def handleSequenceStopped (s : CSIController) (sequenceError : Option String) : CSIController :=
  if s.endEmitted then s else s.spawn (.stoppedExit sequenceError)

/-! ## Calls that go on -/

def controlFailed : String := "Runner control failed during immediate removal"

def notTerminated : String := "Runner did not terminate before the bounded kill deadline"

/-- `handleSequenceStopped` has nothing to do any more. -/
def coordinated (s : CSIController) : Bool := s.terminalTransition.isSome || s.endEmitted

/-- A call goes on; none where what it waits for has not settled so. -/
def run (s : CSIController) : Task → Outcome → Option CSIController
  | .storage, .fulfilled => some (s.spawn .initialized)
  -- `start` throws before it handles `initialized`
  | .storage, _ => some s
  | .initialized, _ =>
    s.initialized.map fun
      | .ok _ => s.main
      | .error e =>
        if s.endEmitted then s
        else s.transitionToTerminal e.exitcode (some .errored) e.message
  | .main, _ =>
    s.instancePromise.map fun result =>
      s.transitionToTerminal (some (result.exitcode.getD (-1)))
        (some (result.status.getD s.status)) result.message
  | .handshake inputTopic entrypointPath, .fulfilled =>
    some { s with inputTopic := inputTopic, entrypointPath := entrypointPath }
  | .handshake _ _, _ => some s
  | .terminalCompletion, _ =>
    s.instancePromise.map fun result =>
      s.transitionToTerminal result.exitcode result.status result.message
  | .stopControl, .fulfilled =>
    let s := { s with keepAliveRequested := false }
    some (if s.endEmitted then s else s.spawn .stopDelay)
  | .stopControl, _ => some s
  | .stopDelay, _ => some (if s.coordinated || s.keepAliveRequested then s else s.kill false)
  -- without an adapter `endOfSequence` throws
  | .killControl _ _, .fulfilled => some (if s.instanceMain.isSome then s.spawn .killExit else s)
  | .killControl _ true, .rejectedThenCompleted => some s
  | .killControl removeImmediately _, _ =>
    if removeImmediately then
      match s.removeInstance with
      | some (removal, s) => some (s.spawn (.killForced removal))
      | none => some s
    else some s
  | .killForced removal, _ =>
    removal.map fun ok =>
      if ok then s.transitionToTerminal (some 137) (some .errored) (some controlFailed) else s
  | .killExit, .fulfilled =>
    s.instancePromise.map fun result =>
      s.transitionToTerminal result.exitcode (some (result.status.getD s.status))
        ((truthy result.message).or (s.terminated.map (·.2)))
  | .killExit, _ =>
    match s.removeInstance with
    | some (removal, s) => some (s.spawn (.killExitRemoving removal))
    | none => some (s.transitionToTerminal (some 137) (some .errored) (some notTerminated))
  | .killExitRemoving removal, _ =>
    removal.map fun _ => s.transitionToTerminal (some 137) (some .errored) (some notTerminated)
  | .completedExit, .fulfilled =>
    s.instancePromise.map fun result =>
      s.transitionToTerminal result.exitcode result.status result.message
  | .completedExit, _ => some s.requestRemoval
  | .stoppedExit sequenceError, .fulfilled =>
    s.endOfSequence.join.map fun _ =>
      if s.coordinated then s else s.spawn (.stoppedEnded sequenceError)
  | .stoppedExit _, _ => some (if s.coordinated then s else s.spawn .stoppedKill)
  | .stoppedEnded sequenceError, _ =>
    some (if s.coordinated then s else s.spawn (.stoppedResult sequenceError))
  | .stoppedResult sequenceError, _ =>
    s.instancePromise.map fun result =>
      s.transitionToTerminal result.exitcode result.status (sequenceError.or result.message)
  | .stoppedKill, .fulfilled => some (s.spawn .stoppedKillExit)
  | .stoppedKill, _ => some s
  | .stoppedKillExit, .fulfilled => s.endOfSequence.join.map fun _ => s
  | .stoppedKillExit, _ =>
    some (s.transitionToTerminal (some 137) (some .errored) (some notTerminated))
  | .readiness, .fulfilled => some { s with status := .errored }
  | .readiness, _ => some s
  | .disconnecting, .fulfilled => some { s with downStreams := false }
  | .disconnecting, _ => some s

def drop (s : CSIController) (i : ℕ) : CSIController := { s with tasks := s.tasks.eraseIdx i }

def resume (s : CSIController) (i : ℕ) (outcome : Outcome) : CSIController :=
  match s.tasks[i]? with
  | some t => ((s.drop i).run t outcome).getD s
  | none => s

end CSIController

/-! ## Steps -/

open CSIController

inductive Event where
  | connect (broker : Bool)
  /-- `connect` of the runner transport is rejected -/
  | connectFailed (error : ExitResult)
  /-- `handleInstanceDisconnect` -/
  | disconnect
  | ping (message : PingMessage)
  | pang (requires : Option String)
  | readiness (ready : Bool)
  /-- the timer of `waitForReady` -/
  | readinessTimeout
  | alive
  | sequenceCompleted
  | sequenceStopped (sequenceError : Option String)
  | stop
  | kill (removeImmediately : Bool)
  | exited (outcome : Except (Option ℤ) ℤ)
  | cleaned (ok : Bool) (code : Option ℤ) (message : Option String)
  | removed (ok : Bool)
  | transition
  | resume (i : ℕ) (outcome : Outcome)

/-- A message of the runner, for which `hookupStreams` registers the handlers. -/
def Event.fromRunner : Event → Bool
  | .connectFailed _ | .ping _ | .pang _ | .readiness _ | .alive | .sequenceCompleted
  | .sequenceStopped _ => true
  | _ => false

def handle (s : CSIController) : Event → CSIController
  | .connect broker => s.connect broker
  | .connectFailed error => s.settleInitialized (.error error)
  | .disconnect => s.spawn .disconnecting
  | .ping message => s.ping message
  | .pang requires => s.pang requires
  | .readiness ready => s.handleReadinessMessage ready
  | .readinessTimeout => s.failReadiness
  | .alive => { s with keepAliveRequested := true }
  | .sequenceCompleted => s.handleSequenceCompleted
  | .sequenceStopped sequenceError => s.handleSequenceStopped sequenceError
  | .stop => s.stop
  | .kill removeImmediately => s.kill removeImmediately
  | .exited outcome => s.exited outcome
  | .cleaned ok code message => s.cleaned ok code message
  | .removed ok => s.removed ok
  | .transition => s.transition
  | .resume i outcome => s.resume i outcome

def next (s : CSIController) (e : Event) : CSIController :=
  if e.fromRunner && !s.hooked then s else handle s e

end TransformHub.Host.CsiController

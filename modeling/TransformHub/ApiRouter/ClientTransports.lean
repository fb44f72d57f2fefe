import TransformHub.ApiRouter.RoutedBroker
import TransformHub.Lib.Transition

/-!
# Requests of a routed broker client

`createVerser2ClientTransport` of `client-transports.ts`: a request waits for its route, is
dispatched, follows redirects, and hands the body over or reads it. Each `await` ends a step.
-/

namespace TransformHub.ApiRouter

/-! ## Data -/

/-- A request, with what the options of the transport say about it. -/
structure ClientRequest where
  routeDomain : String
  path : String
  signal : Bool
  /-- 0 for none -/
  timeoutMs : ℕ
  readableBody : Bool
  /-- its route is of the kind `upstream` or `duplex` -/
  isStream : Bool
  responseBodyLimitBytes : ℕ

/-- What comes after `disposeRedirect`. -/
inductive AfterDisposal where
  | throws (error : BrokerError)
  | follows (redirect : RoutedBrokerRedirect)
deriving DecidableEq

inductive Awaited where
  /-- `transport.waitForRoute` -/
  | route
  /-- `waitForRoutedBrokerDomain` -/
  | routed
  /-- the race of `requestWithTimeout` -/
  | race
  /-- `requestWithTimeout` -/
  | dispatch
  /-- the race of `disposeRedirect` -/
  | disposal (after : AfterDisposal)
  /-- the loop of `readUnaryBody` -/
  | body
  /-- `awaitCleanupOrInterruption`, with the error that has come before -/
  | cleanup (error : Option BrokerError)
deriving DecidableEq

namespace Awaited

def isRoute : Awaited → Bool
  | route => true
  | _ => false

def isRace : Awaited → Bool
  | race => true
  | _ => false

def isBody : Awaited → Bool
  | body => true
  | _ => false

def isDisposal : Awaited → Bool
  | disposal _ => true
  | _ => false

def isCleanup : Awaited → Bool
  | cleanup _ => true
  | _ => false

end Awaited

inductive Stage where
  | starting
  /-- what is awaited, and its outcome when it has settled: nothing, or an error -/
  | awaiting (what : Awaited) (outcome : Option (Option BrokerError))
  /-- so is the promise of the caller -/
  | settled (error : Option BrokerError)
deriving DecidableEq

/-- A promise settles once. -/
def Stage.resolve (p : Awaited → Bool) (outcome : Option BrokerError) : Stage → Stage
  | awaiting what none => awaiting what (if p what then some outcome else none)
  | stage => stage

structure RequestState where
  request : ClientRequest
  /-- the signal of the request is aborted -/
  aborted : Bool
  routeDomain : String
  path : String
  redirects : ℕ
  /-- the listener of `waitForRoutedBrokerDomain` -/
  routeListener : Bool
  /-- the listener and the timer of `disposeRedirect` -/
  disposeListener : Bool
  disposeTimer : Bool
  /-- the listener of `awaitCleanupOrInterruption` -/
  cleanupListener : Bool
  /-- how much of the body has been read -/
  size : ℕ
  active : Bool
  /-- `trackedCleanup` has been called -/
  tracked : Bool
  /-- the dispatches whose redirects have been followed -/
  past : List BrokerDispatch
  current : Option BrokerDispatch
  stage : Stage

inductive RouteLookup where
  | ready
  | waits
  | fails (error : BrokerError)
deriving DecidableEq

/-- What is found on the way from one `await` to the next. -/
structure Found where
  /-- what `remaining` returns; 0 when it throws -/
  remainingMs : ℕ
  /-- the route, before `transport.waitForRoute` and after it -/
  route : RouteLookup
  /-- the signal is aborted in `transport.request` -/
  abortsInside : Bool
  /-- `transport.request` throws -/
  throws : Option BrokerError
  /-- the body is no JSON text -/
  unparsable : Bool

namespace RequestState

def new (request : ClientRequest) : RequestState where
  request := request
  aborted := false
  routeDomain := request.routeDomain
  path := request.path
  redirects := 0
  routeListener := false
  disposeListener := false
  disposeTimer := false
  cleanupListener := false
  size := 0
  active := false
  tracked := false
  past := []
  current := none
  stage := .starting

variable (s : RequestState)

def dispatches : List BrokerDispatch := s.past ++ s.current.toList

def responses : List RoutedBrokerResponse := s.dispatches.filterMap BrokerDispatch.response?

def registered : Bool :=
  s.routeListener || s.disposeListener || s.disposeTimer || s.cleanupListener ||
    s.dispatches.any BrokerDispatch.registered

def hasDeadline : Bool := s.request.timeoutMs ≠ 0

/-- `remaining` throws. -/
def expired (found : Found) : Bool := s.hasDeadline && found.remainingMs = 0

def updateCurrent (f : BrokerDispatch → BrokerDispatch) : RequestState :=
  { s with current := s.current.map f }

def updateResponse (f : RoutedBrokerResponse → RoutedBrokerResponse) : RequestState :=
  s.updateCurrent fun d => d.updateResponse f

def settles (p : Awaited → Bool) (outcome : Option BrokerError) : RequestState :=
  { s with stage := s.stage.resolve p outcome }

def settle (error : Option BrokerError) : RequestState := { s with stage := .settled error }

/-! ## Signals and timers -/

/-- `controller.abort()` of the current dispatch. -/
def abortController : RequestState :=
  match s.current with
  | none => s
  | some d =>
    if d.aborted then s
    else
      let s' := s.updateCurrent BrokerDispatch.abort
      if s'.cleanupListener then
        { s' with cleanupListener := false }.settles Awaited.isCleanup (some d.interruption)
      else s'

/-- The listener of `waitForRoutedBrokerDomain`. -/
def abortRoute : RequestState :=
  if s.routeListener then
    { s with routeListener := false }.settles Awaited.isRoute (some (.cancelled s.routeDomain))
  else s

/-- The listener of `requestWithTimeout`. -/
def abortDispatch : RequestState :=
  match s.current with
  | none => s
  | some d =>
    if d.abortListener then
      let s' := s.abortController.updateCurrent fun d =>
        { d with abortListener := false, discardLateResponse := true }
      if d.timedOut then s' else s'.settles Awaited.isRace (some (.cancelled d.routeDomain))
    else s

/-- The listener of `responseCleanup` on the signal of the request. -/
def abortResponse : RequestState :=
  match s.current.bind BrokerDispatch.response? with
  | none => s
  | some r =>
    if r.requestListener then
      s.abortController.updateResponse fun r => { r.destroy with requestListener := false }
    else s

/-- The listener of `disposeRedirect`. -/
def abortDisposal : RequestState :=
  if s.disposeListener then
    { s with disposeListener := false }.abortController.settles Awaited.isDisposal
      (some (.cancelled s.routeDomain))
  else s

def abortSignal : RequestState :=
  if s.request.signal && !s.aborted then
    { s with aborted := true }.abortRoute.abortDispatch.abortResponse.abortDisposal
  else s

/-- The timer of `requestWithTimeout`. -/
def timerFires : RequestState :=
  match s.current with
  | none => s
  | some d =>
    if d.timer then
      let s' := s.updateCurrent fun d =>
        { d with timer := false, timedOut := true, discardLateResponse := true }
      s'.abortController.settles Awaited.isRace (some (.timeout d.timeoutMs d.routeDomain))
    else s

/-- The timer of `disposeRedirect`. -/
def disposeTimerFires : RequestState :=
  if s.disposeTimer then
    { s with disposeTimer := false }.abortController.settles Awaited.isDisposal
      (some (.timeout s.request.timeoutMs s.routeDomain))
  else s

/-! ## Routes and dispatches -/

/-- The errors of the first `waitForRoutedBrokerDomain`. -/
def readinessError (error : BrokerError) (found : Found) : BrokerError :=
  if s.aborted then .cancelled s.routeDomain
  else if s.expired found then .timeout s.request.timeoutMs s.routeDomain
  else
    match error with
    | .cancelled _ | .timeout _ _ | .request _ | .routeUnavailable _ | .duplicateRoute _ => error
    | _ => .request ("Broker route readiness failed for " ++ s.routeDomain ++ ": " ++ error.message)

def requestError (error : BrokerError) : BrokerError :=
  match error with
  | .timeout _ _ | .request _ | .cancelled _ | .redirect _ => error
  | _ => .request ("Broker request failed for route " ++ s.request.routeDomain ++ ": " ++ error.message)

/-- `waitForRoutedBrokerDomain` -/
def waitForRoute (found : Found) : RequestState :=
  if s.aborted then { s with stage := .awaiting .routed (some (some (.cancelled s.routeDomain))) }
  else
    match found.route with
    | .fails error => { s with stage := .awaiting .routed (some (some error)) }
    | .ready => { s with stage := .awaiting .routed (some none) }
    | .waits => { s with routeListener := s.request.signal, stage := .awaiting .route none }

def start (found : Found) : RequestState :=
  if s.aborted then s.settle (some (.cancelled s.routeDomain))
  else if s.expired found then s.settle (some (.timeout s.request.timeoutMs s.routeDomain))
  else s.waitForRoute found

/-- The error that `requestWithTimeout` throws for another. -/
def dispatchError (d : BrokerDispatch) (error : BrokerError) : BrokerError :=
  if d.timedOut then .timeout d.timeoutMs d.routeDomain
  else if s.aborted then .cancelled d.routeDomain
  else error

/-- `requestWithTimeout`, up to its race. -/
def dispatch (found : Found) : RequestState :=
  if s.expired found then s.settle (some (.timeout s.request.timeoutMs s.routeDomain))
  else if s.aborted then s.settle (some (.cancelled s.routeDomain))
  else
    let d : BrokerDispatch :=
      { routeDomain := s.routeDomain
        path := s.path
        timeoutMs := if s.hasDeadline then found.remainingMs else 0
        abortListener := s.request.signal
        timer := false
        timedOut := false
        discardLateResponse := false
        aborted := false
        broker := .pending }
    let s' := { s with current := some d }
    -- there is no promise yet that the listener could reject
    let s' := if found.abortsInside then s'.abortSignal else s'
    match found.throws with
    | some error =>
      let s' := s'.updateCurrent fun d => { d with broker := .failed }.release
      s'.settle (some (s'.requestError (s'.dispatchError d error)))
    | none =>
      { s'.updateCurrent fun d => { d with timer := s.hasDeadline } with
        stage := .awaiting .race none }

/-- The race of `requestWithTimeout` has settled. -/
def raced (outcome : Option BrokerError) : RequestState :=
  match s.current with
  | none => s
  | some d =>
    match outcome with
    | none =>
      if d.discardLateResponse then
        let s' := (s.updateResponse RoutedBrokerResponse.ownLateCleanup).updateCurrent
          BrokerDispatch.release
        s'.settle (some (s'.dispatchError d d.interruption))
      else { s with stage := .awaiting .dispatch (some none) }
    | some error =>
      let s' := s.updateCurrent BrokerDispatch.release
      s'.settle (some (s'.requestError (s'.dispatchError d error)))

/-! ## Redirects -/

/-- `disposeRedirect`, up to its race. -/
def disposeRedirect (after : AfterDisposal) (abortRequest : Bool) : RequestState :=
  let s' := if abortRequest then s.abortController else s
  { s'.updateResponse fun r => r.destroy.callCleanup with
    disposeListener := s.request.signal
    disposeTimer := s.hasDeadline
    stage := .awaiting (.disposal after) none }

/-- The race of `disposeRedirect` has settled. -/
def disposed (after : AfterDisposal) (outcome : Option BrokerError) (found : Found) :
    RequestState :=
  let s := { s with disposeListener := false, disposeTimer := false }.updateCurrent
    BrokerDispatch.release
  match after, outcome with
  | .throws error, _ => s.settle (some error)
  | .follows _, some error => s.settle (some (s.requestError error))
  | .follows redirect, none =>
    if s.aborted then s.settle (some (.cancelled s.routeDomain))
    else
      let s := { s with
        routeDomain := redirect.routeDomain
        path := redirect.targetPath
        redirects := s.redirects + 1
        past := s.past ++ s.current.toList
        current := none }
      if s.expired found then s.settle (some (.timeout s.request.timeoutMs s.routeDomain))
      else s.waitForRoute found

/-! ## Responses -/

def responseCleanup (d : BrokerDispatch) : RequestState :=
  let s := s.updateResponse fun r =>
    { r with owned := true, requestListener := s.request.signal, dispatchListener := true }
  let s := if s.aborted || d.aborted then s.abortController.updateResponse RoutedBrokerResponse.destroy
    else s
  s.updateResponse fun r => if r.body = .open then r else r.cleanUp

/-- A response is handed over, or its body is going to be read. -/
def respond (d : BrokerDispatch) : RequestState :=
  let s := s.responseCleanup d
  if s.request.isStream then
    { s.updateCurrent BrokerDispatch.release with active := true, stage := .settled none }
  else { s with stage := .awaiting .body none }

/-- `requestWithTimeout` has returned. -/
def dispatched : RequestState :=
  match s.current with
  | none => s
  | some d =>
    match d.response? with
    | none => s
    | some r =>
      match parseRoutedBrokerRedirect r.status r.headers with
      | .error message => s.disposeRedirect (.throws (.redirect message)) true
      | .ok none => s.respond d
      | .ok (some redirect) =>
        if s.request.readableBody then
          s.disposeRedirect (.throws (.redirect
            "Cannot follow routed redirect with a non-replayable readable request body")) true
        else if 4 ≤ s.redirects then
          s.disposeRedirect (.throws (.redirect "Too many routed redirects")) true
        else s.disposeRedirect (.follows redirect) false

/-- `awaitCleanupOrInterruption`; an interruption is the error of the request. -/
def awaitCleanup (d : BrokerDispatch) (error : Option BrokerError) : RequestState :=
  if d.aborted then s.settle (some d.interruption)
  else { s with cleanupListener := true, stage := .awaiting (.cleanup error) none }

/-- The loop of `readUnaryBody` has come to its end. -/
def bodyRead (outcome : Option BrokerError) (found : Found) : RequestState :=
  match s.current with
  | none => s
  | some d =>
    let error :=
      if d.timedOut || d.aborted then some d.interruption
      else if outcome.isNone && found.unparsable then
        some (.request "Broker response JSON parsing failed")
      else outcome
    let s := s.updateResponse RoutedBrokerResponse.cleanUp
    match error with
    | none => s.awaitCleanup d none
    | some e => if e.isInterruption then s.settle (some e) else s.awaitCleanup d (some e)

/-- `awaitCleanupOrInterruption` has settled. -/
def cleaned (error outcome : Option BrokerError) : RequestState :=
  match s.current with
  | none => s
  | some d =>
    match outcome with
    | none => s.settle error
    | some e =>
      if e.isInterruption then s.settle (some e)
      else
        match error with
        | none => s.awaitCleanup d (some e)
        | some error => s.settle (some error)

/-- The request goes on after an `await`. -/
def continues (found : Found) : RequestState :=
  match s.stage with
  | .starting => s.start found
  | .awaiting .route (some outcome) =>
    let outcome := match outcome, found.route with
      | some error, _ => some error
      | none, .fails error => some error
      | none, _ => none
    { s with stage := .awaiting .routed (some outcome) }
  | .awaiting .routed (some none) => s.dispatch found
  | .awaiting .routed (some (some error)) =>
    s.settle (some (if s.past = [] then s.readinessError error found else s.requestError error))
  | .awaiting .race (some outcome) => s.raced outcome
  | .awaiting .dispatch (some _) => s.dispatched
  | .awaiting (.disposal after) (some outcome) => s.disposed after outcome found
  | .awaiting .body (some outcome) => s.bodyRead outcome found
  | .awaiting (.cleanup error) (some outcome) => s.cleaned error outcome
  | _ => s

/-! ## The broker and the body -/

/-- The broker responds; a response that comes too late is cleaned up. -/
def brokerResponds (status : ℕ) (headers : List (String × HeaderValue)) (body : BodyStage) :
    RequestState :=
  match s.current with
  | none => s
  | some d =>
    if d.broker = .pending then
      let r := RoutedBrokerResponse.new status headers body
      let r := if d.discardLateResponse then r.ownLateCleanup else r
      { s with current := some { d with broker := .responded r } }.settles Awaited.isRace none
    else s

def brokerFails (error : BrokerError) : RequestState :=
  match s.current with
  | none => s
  | some d =>
    if d.broker = .pending then
      { s with current := some { d with broker := .failed } }.settles Awaited.isRace (some error)
    else s

/-- The body of the response has something to read. -/
def bodyChunk (bytes : ℕ) : RequestState :=
  match s.stage, s.current.bind BrokerDispatch.response? with
  | .awaiting .body none, some r =>
    if r.body = .open then
      let s := { s with size := s.size + bytes }
      if s.request.responseBodyLimitBytes < s.size then
        (s.updateResponse RoutedBrokerResponse.destroy).settles Awaited.isBody
          (some (.responseLimit s.request.responseBodyLimitBytes))
      else s
    else s
  | _, _ => s

/-- The loop over a body that is not open any more comes to its end. -/
def bodyEnds (outcome : Option BrokerError) : RequestState :=
  match s.current.bind BrokerDispatch.response? with
  | none => s
  | some r => if r.body = .open then s else s.settles Awaited.isBody outcome

/-- The promise of `response.cleanup()` settles. -/
def cleanupSettles (failure : Option BrokerError) : RequestState :=
  match s.current.bind BrokerDispatch.response? with
  | none => s
  | some r =>
    if r.cleanup = .pending then
      let s := s.updateResponse fun r => r.settleCleanup failure
      let s := if r.cleanupPromise then s.updateCurrent BrokerDispatch.release else s
      { s with active := s.active && !s.tracked }.settles Awaited.isDisposal failure
    else s

/-- `awaitCleanupOrInterruption` is told of the cleanup. -/
def cleanupObserved : RequestState :=
  match s.stage, s.current.bind BrokerDispatch.response? with
  | .awaiting (.cleanup _) none, some r =>
    match r.cleanup with
    | .settled failure => { s with cleanupListener := false }.settles Awaited.isCleanup failure
    | _ => s
  | _, _ => s

def trackedCleanup : RequestState :=
  let s := s.updateResponse RoutedBrokerResponse.cleanUp
  let isSettled := (s.current.bind BrokerDispatch.response?).any fun r => r.cleanup.isSettled
  { s with tracked := true, active := s.active && !isSettled }

/-- The body tells of its end, of its close or of an error. -/
def bodyFinishes : RequestState :=
  let s := s.updateResponse RoutedBrokerResponse.finish
  if s.active then s.trackedCleanup else s

/-- The caller cleans up the response that it has been given. -/
def callerCleanup : RequestState :=
  if s.stage = .settled none then
    if s.request.isStream then s.trackedCleanup else s.updateResponse RoutedBrokerResponse.cleanUp
  else s

def close : RequestState :=
  if s.active then (s.abortController.updateResponse RoutedBrokerResponse.destroy).trackedCleanup
  else s

/-! ## Steps -/

inductive Action where
  | continues (found : Found)
  | abortSignal
  | timerFires
  | disposeTimerFires
  /-- `transport.waitForRoute` settles -/
  | routeSettles (outcome : Option BrokerError)
  | brokerResponds (status : ℕ) (headers : List (String × HeaderValue)) (body : BodyStage)
  | brokerFails (error : BrokerError)
  | bodyChunk (bytes : ℕ)
  | bodyEnds (outcome : Option BrokerError)
  | bodyFinishes
  | cleanupSettles (failure : Option BrokerError)
  | cleanupObserved
  | callerCleanup
  | close

def next : Action → RequestState
  | .continues found => s.continues found
  | .abortSignal => s.abortSignal
  | .timerFires => s.timerFires
  | .disposeTimerFires => s.disposeTimerFires
  | .routeSettles outcome => { s with routeListener := false }.settles Awaited.isRoute outcome
  | .brokerResponds status headers body => s.brokerResponds status headers body
  | .brokerFails error => s.brokerFails error
  | .bodyChunk bytes => s.bodyChunk bytes
  | .bodyEnds outcome => s.bodyEnds outcome
  | .bodyFinishes => s.bodyFinishes
  | .cleanupSettles failure => s.cleanupSettles failure
  | .cleanupObserved => s.cleanupObserved
  | .callerCleanup => s.callerCleanup
  | .close => s.close

end RequestState

/-! ## The transport -/

/-- The requests that have been made with a transport. -/
structure Verser2ClientTransport where
  requests : List RequestState

namespace Verser2ClientTransport

inductive Action where
  | request (request : ClientRequest)
  | step (k : ℕ) (a : RequestState.Action)
  | close

def next (t : Verser2ClientTransport) : Action → Verser2ClientTransport
  | .request request => ⟨t.requests ++ [.new request]⟩
  | .step k a => ⟨t.requests.modify k fun s => s.next a⟩
  | .close => ⟨t.requests.map RequestState.close⟩

def system : System Verser2ClientTransport Action := .ofFun ⟨[]⟩ next

end Verser2ClientTransport

end TransformHub.ApiRouter

import Mathlib.Data.Nat.Notation
import TransformHub.Lib.Transition

/-!
# The transport of a runner

`Verser2RunnerTransport` of `runner-transport.ts`: a connection opens the routes of a runner one
after another and goes on with a new lease whenever the body of a response is used up.
-/

namespace TransformHub.Host

/-! ## Data -/

inductive RunnerRoute where
  | stdin
  | control
  | input
  | stdout
  | stderr
  | monitoring
  | output
  | log
deriving DecidableEq

/-- The route is sent a stream; the others answer with one. -/
def RunnerRoute.isRequestBody : RunnerRoute → Bool
  | .stdin | .control | .input => true
  | _ => false

/-- The routes that `connect` opens, in its order. -/
def RunnerRoute.all : List RunnerRoute :=
  [.stdin, .control, .input, .stdout, .stderr, .monitoring, .output, .log]

inductive TransportError where
  /-- "Runner verser2 transport connection was cancelled" -/
  | cancelled
  | routeUnavailable
  /-- "Runner route … closed during setup" -/
  | closedDuringSetup (route : RunnerRoute)
  /-- "Runner route … returned unsuccessful status …", with an excerpt of the body -/
  | unsuccessfulStatus (route : RunnerRoute) (statusCode : ℕ)
  /-- an error of the broker, of a stream or of the communication handler -/
  | other (message : String)

structure ResponseBody where
  generation : ℕ
  route : RunnerRoute
  statusCode : Option ℕ
  destroyed : Bool
  piped : Bool
  /-- `replaceLeaseAfterUse` waits for its end -/
  listens : Bool

/-- The status that `assertSuccessfulRouteResponse` accepts. -/
def ResponseBody.isSuccessful (body : ResponseBody) : Bool :=
  body.statusCode.all fun statusCode => 200 ≤ statusCode && statusCode < 300

structure RouteRequest where
  call : ℕ
  generation : ℕ
  route : RunnerRoute
  /-- it has not been answered -/
  pending : Bool

inductive CallStage where
  /-- waits for the route, or for a signal to abort -/
  | waitingRoute (controller : Option ℕ)
  | routed
  /-- waits for the broker, or for a signal to abort -/
  | requesting (request : ℕ) (controller : Option ℕ)
  /-- the response has come in the generation of the call -/
  | received (body : ℕ)
  /-- waits for `assertSuccessfulRouteResponse` -/
  | checking (body : ℕ)
  | opened (route : RunnerRoute)
  | throwing (error : TransportError)
  | settled (error : Option TransportError)

def CallStage.controller? : CallStage → Option ℕ
  | .waitingRoute controller => controller
  | .requesting _ controller => controller
  | _ => none

def CallStage.isThrowing : CallStage → Bool
  | .throwing _ => true
  | _ => false

/-- A call of `connect`, or of `openResponseBodyRoute` for a new lease. -/
structure TransportCall where
  isConnect : Bool
  generation : ℕ
  routes : List RunnerRoute
  stage : CallStage

structure Verser2RunnerTransport where
  connectionGeneration : ℕ
  connected : Bool
  connecting : Bool
  setupError : Option TransportError
  abortController : Option ℕ
  /-- the bodies that `disconnect` destroys -/
  responseBodies : List ℕ
  /-- how many abort controllers there have been -/
  controllers : ℕ
  aborted : List ℕ
  calls : List TransportCall
  requests : List RouteRequest
  bodies : List ResponseBody

namespace Verser2RunnerTransport

def new : Verser2RunnerTransport where
  connectionGeneration := 0
  connected := false
  connecting := false
  setupError := none
  abortController := none
  responseBodies := []
  controllers := 0
  aborted := []
  calls := []
  requests := []
  bodies := []

variable (s : Verser2RunnerTransport)

def setStage (k : ℕ) (stage : CallStage) : Verser2RunnerTransport :=
  { s with calls := s.calls.modify k fun call => { call with stage := stage } }

def updateBody (b : ℕ) (f : ResponseBody → ResponseBody) : Verser2RunnerTransport :=
  { s with bodies := s.bodies.modify b f }

def destroy (b : ℕ) : Verser2RunnerTransport :=
  s.updateBody b fun body => { body with destroyed := true }

/-! ## `connect` and `disconnect` -/

/-- `connect`, up to what it waits for. -/
def connect : Verser2RunnerTransport :=
  { s with
    connecting := true
    connected := false
    setupError := none
    abortController := some s.controllers
    controllers := s.controllers + 1
    connectionGeneration := s.connectionGeneration + 1
    calls := s.calls ++
      [⟨true, s.connectionGeneration + 1, RunnerRoute.all, .waitingRoute (some s.controllers)⟩] }

def disconnect : Verser2RunnerTransport :=
  { s with
    connectionGeneration := s.connectionGeneration + 1
    aborted := s.aborted ++ s.abortController.toList
    abortController := none
    connected := false
    connecting := false
    bodies := s.bodies.mapIdx fun b body =>
      if b ∈ s.responseBodies then { body with destroyed := true, piped := false } else body
    responseBodies := [] }

/-! ## Routes -/

/-- `requestRoute`, up to what it waits for. -/
def requestRoute (k : ℕ) (call : TransportCall) (route : RunnerRoute) : Verser2RunnerTransport :=
  let s' := { s with requests := s.requests ++ [(⟨k, call.generation, route, true⟩ : RouteRequest)] }
  s'.setStage k (.requesting s.requests.length s.abortController)

/-- `openRequestBodyRoute`, or `openResponseBodyRoute` once it has waited for the route; the lookup
of the route may fail. -/
def openRoute (k : ℕ) (call : TransportCall) (route : RunnerRoute)
    (failure : Option TransportError) :
    Verser2RunnerTransport :=
  if route.isRequestBody then
    if call.generation = s.connectionGeneration then s.requestRoute k call route
    else s.setStage k (.throwing .cancelled)
  else
    match failure with
    | some error => s.setStage k (.throwing error)
    | none => s.requestRoute k call route

/-- A call goes on after `await`. What fails may be the lookup of a route, or the communication
handler at the end. -/
def proceeds (k : ℕ) (failure : Option TransportError) : Verser2RunnerTransport :=
  match s.calls[k]? with
  | none => s
  | some call =>
    match call.stage, call.routes with
    | .routed, route :: _ =>
      if call.generation = s.connectionGeneration then
        match failure with
        | some error => s.setStage k (.throwing error)
        | none => s.openRoute k call route none
      else s.setStage k (.throwing .cancelled)
    | .opened route, routes =>
      if call.isConnect then
        match (if route.isRequestBody then none else s.setupError), routes with
        | some error, _ => s.setStage k (.throwing error)
        | none, route' :: _ => s.openRoute k call route' failure
        | none, [] =>
          if call.generation = s.connectionGeneration then
            { s with connected := true, connecting := false }.setStage k
              (match failure with
                | some error => .throwing error
                | none => .settled none)
          else s.setStage k (.throwing .cancelled)
      else s.setStage k (.settled none)
    | _, _ => s

/-- The broker answers a request. The body of a response that comes too late is destroyed. -/
def responds (r : ℕ) (statusCode : Option ℕ) : Verser2RunnerTransport :=
  match s.requests[r]? with
  | none => s
  | some request =>
    if request.pending then
      let isCurrent := request.generation = s.connectionGeneration
      let body : ResponseBody :=
        ⟨request.generation, request.route, statusCode, !isCurrent, false, false⟩
      let s' := { s with
        requests := s.requests.modify r fun request => { request with pending := false }
        bodies := s.bodies ++ [body] }
      match s.calls[request.call]?.map TransportCall.stage with
      | some (.requesting r' _) =>
        if r' = r then
          s'.setStage request.call
            (if isCurrent then .received s.bodies.length else .throwing .cancelled)
        else s'
      | _ => s'
    else s

def requestFails (r : ℕ) (error : TransportError) : Verser2RunnerTransport :=
  match s.requests[r]? with
  | none => s
  | some request =>
    if request.pending then
      let s' := { s with
        requests := s.requests.modify r fun request => { request with pending := false } }
      match s.calls[request.call]?.map TransportCall.stage with
      | some (.requesting r' _) =>
        if r' = r then s'.setStage request.call (.throwing error) else s'
      | _ => s'
    else s

def resumes (k : ℕ) : Verser2RunnerTransport :=
  match s.calls[k]? with
  | none => s
  | some call =>
    match call.stage with
    | .received b =>
      if call.generation = s.connectionGeneration then s.setStage k (.checking b)
      else (s.destroy b).setStage k (.throwing .cancelled)
    | _ => s

/-- A response that is found successful is taken over. The generation is not looked at. -/
def adopt (b : ℕ) (route : RunnerRoute) : Verser2RunnerTransport :=
  { s with responseBodies := s.responseBodies ++ [b] }.updateBody b fun body =>
    if route.isRequestBody then body else { body with piped := true, listens := true }

/-- `assertSuccessfulRouteResponse` has come to an end. -/
def checked (k : ℕ) : Verser2RunnerTransport :=
  match s.calls[k]? with
  | none => s
  | some call =>
    match call.stage with
    | .checking b =>
      match s.bodies[b]? with
      | none => s
      | some body =>
        if body.isSuccessful then
          let s := s.adopt b body.route
          { s with
            calls := s.calls.modify k fun call =>
              { call with routes := call.routes.tail, stage := .opened body.route } }
        else (s.destroy b).setStage k
          (.throwing (.unsuccessfulStatus body.route (body.statusCode.getD 0)))
    | _ => s

/-- A body has ended, closed or failed; Node destroys it then. -/
def bodyEvent (b : ℕ) (error : Option TransportError) : Verser2RunnerTransport :=
  match s.bodies[b]? with
  | none => s
  | some body =>
    if body.listens then
      let s := { s with responseBodies := s.responseBodies.filter (· ≠ b) }.updateBody b
        fun body => { body with destroyed := true, listens := false }
      if !s.connected || body.generation ≠ s.connectionGeneration then
        if s.connecting && s.setupError.isNone then
          { s with setupError := some (error.getD (.closedDuringSetup body.route)) }
        else s
      else
        { s with
          calls := s.calls ++
            [⟨false, body.generation, [body.route], .waitingRoute s.abortController⟩] }
    else s.destroy b

/-! ## Steps -/

inductive Action where
  | connect
  | disconnect
  /-- the route is there, or there is an error instead -/
  | routeReady (k : ℕ)
  | routeFails (k : ℕ) (error : TransportError)
  /-- the signal that a call listens to makes it fail -/
  | aborts (k : ℕ)
  | proceeds (k : ℕ) (failure : Option TransportError)
  | responds (r : ℕ) (statusCode : Option ℕ)
  | requestFails (r : ℕ) (error : TransportError)
  | resumes (k : ℕ)
  | checked (k : ℕ)
  | bodyEvent (b : ℕ) (error : Option TransportError)
  | caught (k : ℕ)

def next : Action → Verser2RunnerTransport
  | .connect => s.connect
  | .disconnect => s.disconnect
  | .routeReady k =>
    match s.calls[k]?.map TransportCall.stage with
    | some (.waitingRoute _) => s.setStage k .routed
    | _ => s
  | .routeFails k error =>
    match s.calls[k]?.map TransportCall.stage with
    | some (.waitingRoute _) => s.setStage k (.throwing error)
    | _ => s
  | .aborts k =>
    match s.calls[k]?.bind fun call => call.stage.controller? with
    | some controller => if controller ∈ s.aborted then s.setStage k (.throwing .cancelled) else s
    | none => s
  | .proceeds k failure => s.proceeds k failure
  | .responds r statusCode => s.responds r statusCode
  | .requestFails r error => s.requestFails r error
  | .resumes k => s.resumes k
  | .checked k => s.checked k
  | .bodyEvent b error => s.bodyEvent b error
  | .caught k =>
    match s.calls[k]? with
    | none => s
    | some call =>
      match call.stage with
      | .throwing error =>
        if call.isConnect then
          -- also when the connection is not the one of the call any more
          { s with connecting := false }.disconnect.setStage k (.settled (some error))
        else s.setStage k (.settled (some error))
      | _ => s

def system : System Verser2RunnerTransport Action := .ofFun new next

end Verser2RunnerTransport

end TransformHub.Host
